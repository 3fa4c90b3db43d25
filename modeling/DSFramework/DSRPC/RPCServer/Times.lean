import DSFramework.DSRPC.RPCServer.Stamps

/-!
# The times of a response

A response carries the request's five times. `Described` is what they should say: each is there only
if the server has set it, for what it has done with the request. `InitRPCPacket` sets or clears
three of them, so the other two, `post_time` and `failed_time`, are as the client has sent them
until the server sets them; `Timed` is the invariant of a packet that was received without them.

`clock` tells the times that `CurrentTime` returns, which are not empty.
-/

namespace DSFramework.DSRPC

/-- The times of a packet describe what the server has done with its request. -/
structure Described (clock : String → Bool) (told : Story) (packet : RPCPacket) : Prop where
  created : clock packet.createdTime = true
  post : packet.postTime ≠ "" → .handled .onDispatched ∈ told
  commited : packet.commitedTime ≠ "" → .handled .onCommited ∈ told
  completed : packet.completedTime ≠ "" ↔ packet.status = .completed
  failed : packet.failedTime ≠ "" ↔ packet.status = .failed

/-- What the times of a request say, if it was received without those that are not cleared. -/
structure Timed (clock : String → Bool) (c : Request) : Prop where
  unassigned : .assigned ∉ c.history → c.packet.postTime = c.received.postTime ∧
    c.packet.failedTime = c.received.failedTime
  described : .assigned ∈ c.history → c.received.postTime = "" → c.received.failedTime = "" →
    Described clock c.history c.packet
  -- a status that has still to be recorded does not come behind a final one
  status : .assigned ∈ c.history → ∀ event, lastHandled c.history = some event →
    c.packet.status = event.status ∨
      (c.packet.status ≠ .completed ∧ c.packet.status ≠ .failed)

/-- Only announcements come before another event is handled. -/
theorem beginnings_announced : ∀ h ∈ beginnings, ∀ event ∈ h.getLast?.bind Act.handles,
    ∀ before ∈ lastHandled h.dropLast,
      before.status ≠ .completed ∧ before.status ≠ .failed := by
  decide +kernel

/-- The event handled last has been handled. -/
theorem handled_of_lastHandled {story : Story} {event : RPCEvent}
    (h : lastHandled story = some event) :
    event = .onDeserialized ∨ .handled event ∈ story := by
  have hmem := List.mem_of_getLast? h
  obtain ⟨act, hact, hhandles⟩ := List.mem_filterMap.mp hmem
  cases act with
  | assigned =>
    cases hhandles
    exact .inl rfl
  | handled event' =>
    cases hhandles
    exact .inr hact
  | _ => cases hhandles

/-- The packet keeps its times. -/
structure SameTimes (p p' : RPCPacket) : Prop where
  status : p'.status = p.status
  created : p'.createdTime = p.createdTime
  post : p'.postTime = p.postTime
  commited : p'.commitedTime = p.commitedTime
  completed : p'.completedTime = p.completedTime
  failed : p'.failedTime = p.failedTime

theorem SameTimes.refl (p : RPCPacket) : SameTimes p p := ⟨rfl, rfl, rfl, rfl, rfl, rfl⟩

/-- What the times say stays true while the history goes on. -/
theorem Described.mono {clock : String → Bool} {told told' : Story} {p p' : RPCPacket}
    (h : Described clock told p) (hsame : SameTimes p p') (htold : ∀ act ∈ told, act ∈ told') :
    Described clock told' p' where
  created := by rw [hsame.created]; exact h.created
  post := by rw [hsame.post]; exact fun hne => htold _ (h.post hne)
  commited := by rw [hsame.commited]; exact fun hne => htold _ (h.commited hne)
  completed := by rw [hsame.completed, hsame.status]; exact h.completed
  failed := by rw [hsame.failed, hsame.status]; exact h.failed

theorem SameTimes.of_result {p p' : RPCPacket} (h : p' = { p with result := p'.result }) :
    SameTimes p p' := by
  rw [h]
  exact ⟨rfl, rfl, rfl, rfl, rfl, rfl⟩

/-- A reply has the request's times. -/
theorem sameTimes_createReply (error : RPCPacketError) (request : RPCPacket) :
    SameTimes request (RPCPacketFactory.createReply error request) := by
  rw [RPCPacketFactory.createReply_eq]
  exact ⟨rfl, rfl, rfl, rfl, rfl, rfl⟩

section Timed

variable {clock : String → Bool} {c c' : Request}

/-- What has nothing to do with the times. -/
theorem Timed.goes (h : Timed clock c) (hreceived : c'.received = c.received)
    (hsame : SameTimes c.packet c'.packet) {act : Act} (hhistory : c'.history = c.history ++ [act])
    (hact : act.handles = none) : Timed clock c' := by
  have hassigned : .assigned ∈ c'.history ↔ .assigned ∈ c.history := by
    rw [hhistory, List.mem_append, List.mem_singleton]
    refine or_iff_left fun heq => ?_
    rw [← heq] at hact
    cases hact
  have hlast : lastHandled c'.history = lastHandled c.history := by
    rw [hhistory, lastHandled_told hact]
  refine ⟨fun hnot => ?_, fun hmem hpost hfailed => ?_, fun hmem event hevent => ?_⟩
  · rw [hsame.post, hsame.failed, hreceived]
    exact h.unassigned fun hmem => hnot (hassigned.mpr hmem)
  · rw [hreceived] at hpost hfailed
    refine (h.described (hassigned.mp hmem) hpost hfailed).mono hsame fun act hact => ?_
    rw [hhistory]
    exact List.mem_append_left _ hact
  · rw [hsame.status]
    exact h.status (hassigned.mp hmem) event (hlast ▸ hevent)

/-- `InitRPCPacket` sets or clears what the server sets, but for two of the times. -/
theorem Timed.init (h : Timed clock c) (hnot : .assigned ∉ c.history) {uid sessionID time : String}
    (htime : clock time = true)
    (hpacket : c'.packet = RPCPacketManager.initRPCPacket uid sessionID time c.packet)
    (hreceived : c'.received = c.received) (hhistory : c'.history = c.history ++ [.assigned]) :
    Timed clock c' := by
  have hmem : .assigned ∈ c'.history := by
    rw [hhistory]
    exact List.mem_append_right _ (List.mem_singleton.mpr rfl)
  obtain ⟨hpost, hfailed⟩ := h.unassigned hnot
  have hstatus : c'.packet.status = .submitted := by
    rw [hpacket]
    rfl
  refine ⟨fun hnot => absurd hmem hnot, fun _ hnoPost hnoFailed => ?_, fun _ event hevent => ?_⟩
  · rw [hreceived] at hnoPost hnoFailed
    constructor
    · rw [hpacket]
      exact htime
    · intro hne
      rw [hpacket] at hne
      exact absurd (hpost.trans hnoPost) hne
    · intro hne
      rw [hpacket] at hne
      exact absurd rfl hne
    · rw [hstatus, hpacket]
      exact ⟨fun hne => absurd rfl hne, fun heq => by cases heq⟩
    · rw [hstatus, hpacket]
      exact ⟨fun hne => absurd (hfailed.trans hnoFailed) hne, fun heq => by cases heq⟩
  · have hlast : Act.handles .assigned = some .onDeserialized := rfl
    rw [hhistory, lastHandled_handled hlast] at hevent
    cases hevent
    exact .inl hstatus

/-- The manager starts to handle an event. -/
theorem Timed.handle (h : Timed clock c) {event : RPCEvent}
    (hbegin : c.history ++ [.handled event] ∈ beginnings)
    (hcurrent : .assigned ∈ c.history →
      (lastHandled c.history).map RPCEvent.status = some c.packet.status) :
    Timed clock { c with history := c.history ++ [.handled event] } := by
  have hassigned : .assigned ∈ c.history ++ [Act.handled event] → .assigned ∈ c.history :=
    fun hmem => told_before hmem nofun
  refine ⟨fun hnot => ?_, fun hmem hpost hfailed => ?_, fun hmem event' hevent => .inr ?_⟩
  · exact h.unassigned fun hmem => hnot (List.mem_append_left _ hmem)
  · exact (h.described (hassigned hmem) hpost hfailed).mono (.refl _)
      fun act hact => List.mem_append_left _ hact
  · obtain ⟨before, hbefore, hstatus⟩ := Option.map_eq_some_iff.mp (hcurrent (hassigned hmem))
    have hannounced := beginnings_announced _ hbegin event
      (by simp only [List.getLast?_concat, Option.bind_some, Act.handles, Option.mem_def]) before
      (by rw [List.dropLast_concat]; exact hbefore)
    rwa [hstatus] at hannounced

/-- `UpdateRequestStatus` sets the time that goes with the event handled last. -/
theorem Timed.record (h : Timed clock c) {event : RPCEvent} {time : String}
    (htime : clock time = true) (hempty : clock "" = false)
    (hassigned : .assigned ∈ c.history) (hlast : lastHandled c.history = some event) :
    Timed clock (c.record event time) := by
  have hne : time ≠ "" := by
    rintro rfl
    rw [hempty] at htime
    cases htime
  have hhandled : event.status ≠ .submitted → .handled event ∈ c.history := by
    intro hstatus
    rcases handled_of_lastHandled hlast with rfl | hmem
    · exact absurd rfl hstatus
    · exact hmem
  refine ⟨fun hnot => absurd hassigned hnot, fun _ hpost hfailed => ?_, fun _ event' hevent => ?_⟩
  · have hbefore := h.described hassigned hpost hfailed
    have hold := h.status hassigned event hlast
    simp only [Request.record, RPCPacketManager.updateStatus_times]
    constructor
    · dsimp only
      split
      · exact htime
      · exact hbefore.created
    · dsimp only
      split
      case isTrue hstatus =>
        intro _
        have hevent : event = .onDispatched := by
          revert hstatus
          cases event <;> decide
        rw [← hevent]
        exact hhandled (by rw [hstatus]; decide)
      case isFalse => exact hbefore.post
    · dsimp only
      split
      case isTrue hstatus =>
        intro _
        have hevent : event = .onCommited := by
          revert hstatus
          cases event <;> decide
        rw [← hevent]
        exact hhandled (by rw [hstatus]; decide)
      case isFalse => exact hbefore.commited
    · dsimp only
      split
      case isTrue hstatus => exact ⟨fun _ => hstatus, fun _ => hne⟩
      case isFalse hstatus =>
        have hnot : c.packet.status ≠ .completed := by
          rcases hold with heq | ⟨hnot, -⟩
          · rwa [heq]
          · exact hnot
        exact ⟨fun hset => absurd (hbefore.completed.mp hset) hnot, fun heq => absurd heq hstatus⟩
    · dsimp only
      split
      case isTrue hstatus => exact ⟨fun _ => hstatus, fun _ => hne⟩
      case isFalse hstatus =>
        have hnot : c.packet.status ≠ .failed := by
          rcases hold with heq | ⟨-, hnot⟩
          · rwa [heq]
          · exact hnot
        exact ⟨fun hset => absurd (hbefore.failed.mp hset) hnot, fun heq => absurd heq hstatus⟩
  · simp only [Request.record] at hevent
    rw [hlast] at hevent
    cases hevent
    exact .inl (RPCPacketManager.updateStatus_status _ _ _)

end Timed

namespace RPCServer

/-- The environment whose `CurrentTime` returns times of the clock. -/
def tellsTime (clock : String → Bool) (v : RPCServer) (l : RPCLabel) : Bool :=
  v.answers l fun _ answer op => match op with
    | .initRPCPacket | .setStatus _ _ => clock answer.time
    | _ => true

section Step

variable {clock : String → Bool} {C : Setting} {v v' : RPCServer} {s a t : Nat} {role : Role}
  {answer : Answer} {op : RPCOp} {ops rest : List RPCOp} {l : RPCLabel}

/-- One operation keeps what the times of its request say. -/
theorem Executes.timed (h : Executes C v s a answer op v' ops)
    (hat : v.threads[t]? = some ⟨role, s, a, op :: rest⟩)
    (hok : v.keepsPackets (.advance t answer) = true)
    (htime : v.tellsTime clock (.advance t answer) = true) (hempty : clock "" = false)
    (hmanaged : v.Managed C) {c c' : Request} (hc : v.packets[a]? = some c)
    (hc' : v'.packets[a]? = some c') (hs : Stated ⟨s, a, op :: rest⟩ c)
    (hstamp : .assigned ∈ c.history → Stamp C.uuid c) (ht : Timed clock c) : Timed clock c' := by
  obtain ⟨-, hresult⟩ := keepsPackets_advance hat hok
  have hpacket : v.packet a = c.packet := packet_eq hc
  simp only [tellsTime, answers, hat] at htime
  cases h with
  | setNothing | responseRoom | responseAdd | requestLink | requestAdd | requestSub
  | knownService | terminate =>
    obtain rfl := same_eq hc hc' rfl
    exact ht
  | initRPCPacket =>
    obtain rfl := own_eq hc hc'
    have hbegin := hs.filed.told.next_after rfl
    have hnot := beginnings_assigned _ hbegin List.getLast?_concat
    rw [List.dropLast_concat] at hnot
    exact ht.init hnot htime rfl rfl rfl
  | found | notFound =>
    obtain rfl := own_eq hc hc'
    apply ht.handle (hs.filed.told.next_after rfl)
    intro hassigned
    exact hs.current_of_stamp (hstamp hassigned) hassigned (hs.filed.silent rfl)
  | @setStatus event requestID sessionID p hfind =>
    obtain rfl := hmanaged.records_own hat hfind
    obtain rfl := own_eq hc hc'
    have halive := (hs.filed.found event requestID rest rfl).2
    have hassigned : .assigned ∈ c.history := by
      have hbook := hmanaged.booked.assigned p c.ledger (ledgers_at hc) halive
      exact List.contains_iff_mem.mp hbook
    exact ht.record htime hempty hassigned
      (lastHandled_of_lastGiven (hs.pending event requestID rest rfl))
  | addRequest | removeRequest | createResponse | responseFull | responseLink | requestRoom
  | requestFull | emptyService | unknownService | notChecked | commit | invoked | missing =>
    obtain rfl := own_eq hc hc'
    exact ht.goes rfl (.refl _) rfl rfl
  | valid | invalid =>
    obtain rfl := own_eq hc hc'
    exact ht.goes rfl (hpacket ▸ SameTimes.of_result (hresult (.inl ⟨_, rfl⟩))) rfl rfl
  | returned | threw | escaped =>
    obtain rfl := own_eq hc hc'
    exact ht.goes rfl (hpacket ▸ SameTimes.of_result (hresult (.inr rfl))) rfl rfl

/-- The times of all requests, in every reachable state. -/
theorem timed_of_reachable (hempty : clock "" = false)
    (h : (machine C).ReachableBy
      (fun v l => v.keepsPackets l = true ∧ v.tellsTime clock l = true) v) :
    ∀ (a : Nat) c, v.packets[a]? = some c → Timed clock c := by
  refine h.invariant_with (I := fun v => ∀ (a : Nat) c, v.packets[a]? = some c → Timed clock c)
    (fun s hs => stamping_of_reachable (hs.mono fun _ _ hok => hok.1)) ?_ ?_
  · rintro _ ⟨_, _, -, rfl⟩ a c hc
    cases hc
  · intro v l v' hstamping htimed hok hstep a c' hc'
    have hmoves := moves_of_step hstep
    cases hc : v.packets[a]? with
    | some c =>
      obtain rfl | ⟨t, answer, role, s, op, rest, v₁, ops, rfl, hat, hop, hexecutes, hown⟩ :=
        hstamping.managed.packet_cases hmoves hc hc'
      · exact htimed a c' hc
      · obtain ⟨c₁, hc₁, hstated⟩ := hstamping.stating.working hat hop
        exact hexecutes.timed hat hok.1 hok.2 hempty hstamping.managed hc₁ hown hstated
          (hstamping.stamp hc₁) (htimed a c₁ hc₁)
    | none =>
      -- the packet has just been received
      have hge := List.getElem?_eq_none_iff.mp hc
      cases hmoves with
      | @deliver t s s₀ a₀ body =>
        simp only [onData, List.getElem?_append_right hge, List.getElem?_singleton] at hc'
        split at hc'
        case isTrue =>
          cases hc'
          exact ⟨fun _ => ⟨rfl, rfl⟩, fun hassigned => absurd hassigned List.not_mem_nil,
            fun hassigned => absurd hassigned List.not_mem_nil⟩
        case isFalse => cases hc'
      | takeRequest | takeTask | takeResponse | subtractResponse | completeWrite =>
        exact htimed a c' hc'
      | sendResponse =>
        simp only [send] at hc'
        split at hc' <;> exact htimed a c' hc'
      | advance hat hexecutes =>
        obtain ⟨c, hold, -⟩ := hexecutes.history hc'
        rw [hc] at hold
        cases hold

/-- The times of a response describe what had happened to its request when it was made. -/
def Describes (clock : String → Bool) (v : RPCServer) (x : Response) : Prop :=
  ∃ c told, v.packets[x.request]? = some c ∧ told ++ [.created x.event] <+: c.history ∧
    Described clock told x.packet

/-- The responses to a packet that was received without the two times that are not cleared, in
every reachable state. -/
theorem describes_of_reachable (hempty : clock "" = false)
    (h : (machine C).ReachableBy
      (fun v l => v.keepsPackets l = true ∧ v.tellsTime clock l = true) v) :
    ∀ (r : Nat) x c, v.responses[r]? = some x → x.event ≠ .onDeserializedFailed →
      v.packets[x.request]? = some c → c.received.postTime = "" → c.received.failedTime = "" →
      v.Describes clock x := by
  have hall : ∀ (r : Nat) x, v.responses[r]? = some x → x.event ≠ .onDeserializedFailed →
      ∃ c told, v.packets[x.request]? = some c ∧ told ++ [.created x.event] <+: c.history ∧
        (c.received.postTime = "" → c.received.failedTime = "" →
          Described clock told x.packet) := by
    refine h.invariant_with (I := fun v => ∀ (r : Nat) x, v.responses[r]? = some x →
      x.event ≠ .onDeserializedFailed → ∃ c told, v.packets[x.request]? = some c ∧
        told ++ [.created x.event] <+: c.history ∧
        (c.received.postTime = "" → c.received.failedTime = "" → Described clock told x.packet))
      (J := fun v => v.Stamping C ∧ ∀ (a : Nat) c, v.packets[a]? = some c → Timed clock c)
      (fun s hs => ⟨stamping_of_reachable (hs.mono fun _ _ hok => hok.1),
        timed_of_reachable hempty hs⟩) ?_ ?_
    · rintro _ ⟨_, _, -, rfl⟩ r x hx
      cases hx
    · intro v l v' ⟨hstamping, htimed⟩ hdescribes _ hstep r x hx hne
      have hmoves := moves_of_step hstep
      rcases response_cases hmoves hx with ⟨x, fate, hbefore, rfl⟩ |
        ⟨t, role, s, a, event, rest, answer, rfl, hat, -, -, rfl, rfl, hpacket, -⟩
      · obtain ⟨c, told, hc, hbegin, hdescribed⟩ := hdescribes r x hbefore hne
        obtain ⟨c', hc', hgrows⟩ := hmoves.grows hc
        refine ⟨c', told, hc', hbegin.trans hgrows.history, ?_⟩
        rw [hgrows.received]
        exact hdescribed
      · obtain ⟨c, hc, hstated⟩ := hstamping.stating.working hat rfl
        obtain ⟨hassigned, -⟩ := hstated.created hne
        cases hmoves with
        | advance hat' hexecutes =>
          cases hat.symm.trans hat'
          cases hexecutes with
          | createResponse =>
            refine ⟨{ c with history := c.history ++ [.created x.event] }, c.history, ?_,
              List.prefix_rfl, fun hpost hfailed => ?_⟩
            · simp only [goto, createResponse, tell, update, List.getElem?_modify_eq, hc,
                Option.map_eq_map, Option.map_some]
            · rw [response_eq_createReply hne, packet_eq hc] at hpacket
              rw [hpacket]
              exact ((htimed x.request c hc).described hassigned hpost hfailed).mono
                (sameTimes_createReply _ _) fun _ hact => hact
  intro r x c hx hne hc hpost hfailed
  obtain ⟨c', told, hc', hbegin, hdescribed⟩ := hall r x hx hne
  cases hc.symm.trans hc'
  exact ⟨c, told, hc, hbegin, hdescribed hpost hfailed⟩

/-- The server that receives `packet` in every frame. -/
def receiving (packet : RPCPacket) : Setting :=
  { sampleSetting 8 8 with parseFromArray := fun _ => some packet }

/-- A request whose acknowledgement is posted: the first response copies the two times that are not
cleared. -/
theorem submitted_of_receiving {packet : RPCPacket} {time : String} (htime : clock time = true) :
    ∃ v, (machine (receiving packet)).ReachableBy
        (fun v l => v.keepsPackets l = true ∧ v.tellsTime clock l = true) v ∧
      ∃ c x, v.packets[0]? = some c ∧ c.received = packet ∧
        c.history = [.assigned, .added, .created .onDeserialized, .posted .onDeserialized] ∧
        v.responses[0]? = some x ∧ x.request = 0 ∧ x.event = .onDeserialized ∧
        (x.session, 0) ∈ v.posts ∧ x.packet.status = .submitted ∧
        x.packet.postTime = packet.postTime ∧ x.packet.failedTime = packet.failedTime := by
  let C := receiving packet
  let v₁ := (new [.io 0] []).onData C 1 0 []
  have h₁ : (machine C).ReachableBy
      (fun v l => v.keepsPackets l = true ∧ v.tellsTime clock l = true) v₁ :=
    .next (l := .deliver 1 []) (.start ⟨[.io 0], [], by decide, rfl⟩) ⟨rfl, rfl⟩ rfl
  have htells : v₁.tellsTime clock (.advance 1 { uid := "id", time := time }) = true := htime
  have h₂ := h₁.next ⟨rfl, htells⟩ rfl
  have h₃ := h₂.next (l := .advance 1 {}) ⟨rfl, rfl⟩ rfl
  have h₄ := h₃.next (l := .advance 1 {}) ⟨rfl, rfl⟩ rfl
  have h₅ := h₄.next (l := .advance 1 {}) ⟨rfl, rfl⟩ rfl
  have h₆ := h₅.next (l := .advance 1 {}) ⟨rfl, rfl⟩ rfl
  have hreply := sameTimes_createReply .pktNoError
    (RPCPacketManager.initRPCPacket "id" "session" time packet)
  exact ⟨_, h₆, _, _, rfl, rfl, rfl, rfl, rfl, rfl, List.mem_singleton.mpr rfl, hreply.status,
    hreply.post, hreply.failed⟩

/-- A packet may be any client's: whatever the server, the other packets, the threads and the path
that it takes, every response posted for it says only what the server has done, if and only if it is
received without a `post_time` and a `failed_time`. The called functions change only the result, and
`CurrentTime` returns the times of `clock`. -/
theorem describes_iff {time : String} (htime : clock time = true) (hempty : clock "" = false)
    (packet : RPCPacket) :
    (∀ C v, (machine C).ReachableBy
        (fun v l => v.keepsPackets l = true ∧ v.tellsTime clock l = true) v →
      ∀ (r : Nat) x c, v.responses[r]? = some x → (x.session, r) ∈ v.posts →
        x.event ≠ .onDeserializedFailed → v.packets[x.request]? = some c → c.received = packet →
        v.Describes clock x) ↔
      packet.postTime = "" ∧ packet.failedTime = "" := by
  constructor
  · intro h
    obtain ⟨v, hreach, c, x, hc, hreceived, hhistory, hx, hrequest, hevent, hposted, hstatus, hpost,
      hfailed⟩ := @submitted_of_receiving clock packet time htime
    rw [← hrequest] at hc
    obtain ⟨c', told, hc', hbegin, hdescribed⟩ := h _ v hreach 0 x c hx hposted
      (hevent ▸ nofun) hc hreceived
    cases hc.symm.trans hc'
    -- when the acknowledgement was made, nothing had been dispatched
    have hnot : .handled .onDispatched ∉ told := by
      intro hmem
      have hmem := hbegin.mem (List.mem_append_left _ hmem)
      rw [hhistory] at hmem
      revert hmem
      decide
    constructor
    · by_contra hne
      exact hnot (hdescribed.post (hpost ▸ hne))
    · by_contra hne
      have heq := hdescribed.failed.mp (hfailed ▸ hne)
      rw [hstatus] at heq
      cases heq
  · rintro ⟨hpost, hfailed⟩ C v hreach r x c hx - hne hc rfl
    exact describes_of_reachable hempty hreach r x c hx hne hc hpost hfailed

/-- A packet that only asks for a service bears neither time. -/
theorem describes_iff_plain :
    ({ service := "a" } : RPCPacket).postTime = "" ∧
      ∀ C v, (machine C).ReachableBy
          (fun v l => v.keepsPackets l = true ∧ v.tellsTime (· == "now") l = true) v →
        ∀ (r : Nat) x c, v.responses[r]? = some x → (x.session, r) ∈ v.posts →
          x.event ≠ .onDeserializedFailed → v.packets[x.request]? = some c →
          c.received = { service := "a" } → v.Describes (· == "now") x :=
  ⟨rfl, (@describes_iff (· == "now") "now" (by decide) (by decide) { service := "a" }).mpr
    ⟨rfl, rfl⟩⟩

/-- The packet of a request that was received with a `failed_time`, when it has been committed. -/
def forgedPacket : RPCPacket :=
  { samplePacket with
    createdTime := "now"
    postTime := "now"
    commitedTime := "now"
    failedTime := "forged" }

/-- This request goes through the server. -/
def forgedRun : List RPCLabel :=
  [.deliver 1 []] ++ List.replicate 15 (.advance 1 { uid := "id", time := "now" }) ++ [.take 0] ++
    List.replicate 10 (.advance 0 { time := "now", packet := forgedPacket }) ++ [.take 2] ++
    List.replicate 9 (.advance 2 { time := "now", packet := forgedPacket })

/-- A client presets `failed_time`: its request succeeds, and the answer says that it has failed at
that time. -/
theorem completed_of_forged_failedTime :
    ¬ ∀ v, (machine (receiving { service := "a", failedTime := "forged" })).ReachableBy
        (fun v l => v.keepsPackets l = true ∧ v.tellsTime (· == "now") l = true) v →
      ∀ (r : Nat) x, v.responses[r]? = some x → (x.session, r) ∈ v.posts →
        (x.packet.failedTime ≠ "" ↔ x.packet.status = .failed) := by
  intro h
  have hruns : ((machine (receiving { service := "a", failedTime := "forged" })).run
      (new [.io 0, .worker] [("a", 0)]) forgedRun).any (fun v => (0, 3) ∈ v.posts ∧
        (v.responses[3]?).any fun x => x.session = 0 ∧ x.packet.failedTime = "forged" ∧
          x.packet.status = .completed) = true := by
    decide +kernel
  obtain ⟨v, hrun, hv⟩ := (Option.any_eq_true _ _).mp hruns
  obtain ⟨hposted, hx⟩ := of_decide_eq_true hv
  obtain ⟨x, hx, hfacts⟩ := (Option.any_eq_true _ _).mp hx
  obtain ⟨hsession, hfailed, hstatus⟩ := of_decide_eq_true hfacts
  have hsound : ∀ (v : RPCServer) l, (v.keepsPackets l && v.tellsTime (· == "now") l) = true →
      v.keepsPackets l = true ∧ v.tellsTime (· == "now") l = true :=
    fun _ _ => Bool.and_eq_true_iff.mp
  have hiff := h v (.run hsound (.start ⟨_, _, by decide, rfl⟩) (by decide +kernel) hrun) 3 x hx
    (hsession ▸ hposted)
  rw [hfailed, hstatus] at hiff
  exact absurd (hiff.mp nofun) nofun

end Step

end RPCServer

end DSFramework.DSRPC
