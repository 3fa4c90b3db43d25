import DSFramework.DSRPC.RPCServer.Requests
import DSFramework.DSRPC.RPCServer.Responses

/-!
# The status of a response

A response copies the request, so its status is the request's at that moment. `Stated` says what
that is: between the operations of a handler the status of a request is the one that belongs to the
event handled last, and `UpdateRequestStatus` always finds its entry. This needs the manager's book
(`Managed`) and nothing more of the called functions: what they leave in the packet's status is
overwritten before the next response is made.
-/

namespace DSFramework.DSRPC

/-- The event whose status the manager gives a request in an act. -/
def Act.handles : Act → Option RPCEvent
  | .assigned => some .onDeserialized
  | .handled event => some event
  | _ => none

/-- The event that the manager has handled last. -/
def lastHandled (story : Story) : Option RPCEvent := (story.filterMap Act.handles).getLast?

/-- The event whose status a request has from an act on; behind a called function it may be any. -/
def Act.gives : Act → Option (Option RPCEvent)
  | .assigned => some (some .onDeserialized)
  | .handled event => some (some event)
  | .checked _ | .returned | .threw | .escaped => some none
  | _ => none

/-- The event whose status a request has, if no called function has had the packet since. -/
def lastGiven (story : Story) : Option RPCEvent := (story.filterMap Act.gives).getLast?.join

/-- The event whose response is made in an act. -/
def Act.creates : Act → Option RPCEvent
  | .created event => some event
  | _ => none

/-- A response is made right after its event has been handled; a frame that is no packet is never
handled. -/
theorem beginnings_created : ∀ h ∈ beginnings, ∀ event ∈ h.getLast?.bind Act.creates,
    event = .onDeserializedFailed ∨ (.assigned ∈ h ∧ lastGiven h = some event) := by
  decide +kernel

theorem lastHandled_told {story : Story} {act : Act} (h : act.handles = none) :
    lastHandled (story ++ [act]) = lastHandled story := by
  simp only [lastHandled, List.filterMap_append, List.filterMap_cons_none h, List.filterMap_nil,
    List.append_nil]

theorem lastHandled_handled {story : Story} {act : Act} {event : RPCEvent}
    (h : act.handles = some event) : lastHandled (story ++ [act]) = some event := by
  simp only [lastHandled, List.filterMap_append, List.filterMap_cons_some h, List.filterMap_nil,
    List.getLast?_concat]

theorem lastGiven_told {story : Story} {act : Act} (h : act.gives = none) :
    lastGiven (story ++ [act]) = lastGiven story := by
  simp only [lastGiven, List.filterMap_append, List.filterMap_cons_none h, List.filterMap_nil,
    List.append_nil]

theorem lastGiven_given {story : Story} {act : Act} {given : Option RPCEvent}
    (h : act.gives = some given) : lastGiven (story ++ [act]) = given := by
  simp only [lastGiven, List.filterMap_append, List.filterMap_cons_some h, List.filterMap_nil,
    List.getLast?_concat, Option.join_some]

/-- What an act gives is the status of the event that it handles, or any. -/
theorem Act.handles_eq_join (act : Act) : act.handles = act.gives.join := by
  cases act <;> rfl

/-- The status given last is that of the event handled last. -/
theorem lastHandled_of_lastGiven {story : Story} {event : RPCEvent}
    (h : lastGiven story = some event) : lastHandled story = some event := by
  induction story using List.reverseRecOn with
  | nil => cases h
  | append_singleton story act ih =>
    have hhandles := act.handles_eq_join
    cases hgives : act.gives with
    | none =>
      rw [hgives] at hhandles
      rw [lastHandled_told hhandles]
      exact ih (lastGiven_told hgives ▸ h)
    | some given =>
      rw [lastGiven_given hgives] at h
      rw [hgives, h] at hhandles
      exact lastHandled_handled hhandles

/-- What a carrier and its request's record have to do with the status: it is that of the event
handled last, and has been recorded, but for one that comes next. -/
structure Stated (k : Call) (c : Request) : Prop where
  filed : Filed k c
  noted : .assigned ∈ c.history → (∀ op ∈ k.ops, op.records = false) →
    c.recorded.getLast? = (lastHandled c.history).map RPCEvent.status
  current : (∀ op ∈ k.ops, op.records = false) → ∀ event, lastGiven c.history = some event →
    c.packet.status = event.status
  pending : ∀ event requestID rest, k.ops = .setStatus event requestID :: rest →
    lastGiven c.history = some event

section Stated

variable {s a : Nat} {op : RPCOp} {rest ops : List RPCOp} {c c' : Request}

/-- An operation that records nothing, and leaves nothing to be recorded. -/
theorem Stated.goes (h : Stated ⟨s, a, op :: rest⟩ c) (hop : op.records = false)
    (hf : Filed ⟨s, a, ops⟩ c') (hops : ∀ op ∈ ops, op.records = false)
    (hrecorded : c'.recorded = c.recorded) {acts : Story} (hhistory : c'.history = c.history ++ acts)
    (hacts : ∀ act ∈ acts, act.handles = none)
    (hgiven : ∀ event, lastGiven c'.history = some event →
      lastGiven c.history = some event ∧ c'.packet.status = c.packet.status) :
    Stated ⟨s, a, ops⟩ c' := by
  have hhandled : lastHandled c'.history = lastHandled c.history := by
    rw [hhistory, lastHandled, List.filterMap_append, List.filterMap_eq_nil_iff.mpr hacts,
      List.append_nil]
    rfl
  refine ⟨hf, fun hmem _ => ?_, fun _ event hevent => ?_, fun event requestID rest' heq => ?_⟩
  · rw [hhistory, List.mem_append] at hmem
    rw [hrecorded, hhandled]
    exact h.noted (hmem.resolve_right fun hact => nomatch hacts _ hact) (h.filed.silent hop)
  · obtain ⟨hbefore, hstatus⟩ := hgiven event hevent
    exact hstatus.trans (h.current (h.filed.silent hop) event hbefore)
  · exact absurd heq (ne_setStatus hops)

/-- The same where the history goes on by one act that gives no status. -/
theorem Stated.tells (h : Stated ⟨s, a, op :: rest⟩ c) (hop : op.records = false)
    (hf : Filed ⟨s, a, ops⟩ c') (hops : ∀ op ∈ ops, op.records = false)
    (hrecorded : c'.recorded = c.recorded) (hstatus : c'.packet.status = c.packet.status)
    {act : Act} (hhistory : c'.history = c.history ++ [act]) (hact : act.gives = none) :
    Stated ⟨s, a, ops⟩ c' := by
  have hhandles : act.handles = none := by rw [act.handles_eq_join, hact, Option.join_none]
  refine h.goes hop hf hops hrecorded hhistory (List.forall_mem_singleton.mpr hhandles) ?_
  intro event hevent
  rw [hhistory, lastGiven_told hact] at hevent
  exact ⟨hevent, hstatus⟩

/-- The same where a called function has had the packet. -/
theorem Stated.leaves (h : Stated ⟨s, a, op :: rest⟩ c) (hop : op.records = false)
    (hf : Filed ⟨s, a, ops⟩ c') (hops : ∀ op ∈ ops, op.records = false)
    (hrecorded : c'.recorded = c.recorded) {act : Act} (hhistory : c'.history = c.history ++ [act])
    (hact : act.gives = some none) : Stated ⟨s, a, ops⟩ c' := by
  have hhandles : act.handles = none := by rw [act.handles_eq_join, hact, Option.join_some]
  refine h.goes hop hf hops hrecorded hhistory (List.forall_mem_singleton.mpr hhandles) ?_
  intro event hevent
  rw [hhistory, lastGiven_given hact] at hevent
  cases hevent

/-- The same where the record stays as it is. -/
theorem Stated.stays (h : Stated ⟨s, a, op :: rest⟩ c) (hop : op.records = false)
    (hf : Filed ⟨s, a, ops⟩ c) (hops : ∀ op ∈ ops, op.records = false) : Stated ⟨s, a, ops⟩ c :=
  h.goes hop hf hops rfl (List.append_nil _).symm (List.forall_mem_nil _)
    fun _ hevent => ⟨hevent, rfl⟩

/-- A response is made right after its event has been handled. -/
theorem Stated.created {event : RPCEvent} (h : Stated ⟨s, a, .createResponse event :: rest⟩ c)
    (hne : event ≠ .onDeserializedFailed) :
    .assigned ∈ c.history ∧ lastGiven c.history = some event := by
  have hbegin : c.history ++ [.created event] ∈ beginnings := h.filed.told.next
    (List.append_ne_nil_of_left_ne_nil (after_ne_nil (futures_ne_nil rest)) _)
    fun f hf => mem_after.mpr hf
  have hmade : event ∈ (c.history ++ [Act.created event]).getLast?.bind Act.creates := by
    simp only [List.getLast?_concat, Option.bind_some, Act.creates, Option.mem_def]
  obtain ⟨hassigned, hlast⟩ := (beginnings_created _ hbegin event hmade).resolve_left hne
  rw [lastGiven_told rfl] at hlast
  exact ⟨told_before hassigned nofun, hlast⟩

end Stated

namespace RPCServer

section Executes

variable {C : Setting} {v v' : RPCServer} {s a t : Nat} {role : Role} {answer : Answer}
  {op : RPCOp} {ops rest : List RPCOp}

/-- The manager finds the entry of a request that it knows. -/
theorem Managed.finds (h : v.Managed C) {c : Request} (hc : v.packets[a]? = some c)
    (halive : alive c.history = true) :
    RPCPacketManager.findRequest c.packet.requestId v.requests = some (C.uuid c.session, a) :=
  h.booked.find_live (ledgers_at hc) halive

/-- One operation keeps what its carrier and its record have to do with the status. -/
theorem Executes.stated (h : Executes C v s a answer op v' ops)
    (hat : v.threads[t]? = some ⟨role, s, a, op :: rest⟩) (hmanaged : v.Managed C)
    {c c' : Request} (hc : v.packets[a]? = some c) (hc' : v'.packets[a]? = some c')
    (hs : Stated ⟨s, a, op :: rest⟩ c) : Stated ⟨s, a, v.onward a op ops rest⟩ c' := by
  have hfiled := h.filed hc hc' hs.filed
  -- what an operation puts in its place records nothing, and nothing behind it does
  have hbehind : ∀ {ops : List RPCOp}, (∀ op ∈ ops, op.records = false) →
      ∀ op ∈ ops ++ rest, op.records = false := fun hops => hs.filed.silent_append hops
  have hnil : ∀ op ∈ ([] : List RPCOp) ++ rest, op.records = false :=
    hbehind (List.forall_mem_nil _)
  cases h with
  | initRPCPacket =>
    obtain rfl := own_eq hc hc'
    have hhandles : Act.handles .assigned = some .onDeserialized := rfl
    have hgives : Act.gives .assigned = some (some .onDeserialized) := rfl
    refine ⟨hfiled, fun _ _ => ?_, fun _ event hevent => ?_, fun event requestID rest' heq => ?_⟩
    · rw [lastHandled_handled hhandles, List.getLast?_concat]
      rfl
    · rw [lastGiven_given hgives] at hevent
      cases hevent
      rfl
    · exact absurd heq (ne_setStatus hs.filed.behind)
  | addRequest | removeRequest | responseFull | responseLink =>
    obtain rfl := own_eq hc hc'
    exact hs.tells rfl hfiled hnil rfl rfl rfl rfl
  | @found event =>
    obtain rfl := own_eq hc hc'
    have hgives : Act.gives (.handled event) = some (some event) := rfl
    refine ⟨hfiled, fun _ hnone => ?_, fun hnone => ?_, fun event' requestID rest' heq => ?_⟩
    · cases hnone _ List.mem_cons_self
    · cases hnone _ List.mem_cons_self
    · obtain ⟨heq, -⟩ := List.cons.inj heq
      cases heq
      exact lastGiven_given hgives
  | @notFound event hnone =>
    obtain rfl := own_eq hc hc'
    have halive : alive (c.history ++ [.handled event]) = true :=
      beginnings_handled _ hfiled.told.beginning (.handled event)
        (by simp only [List.getLast?_concat, Option.mem_def]) rfl
    have hsince : alive (c.history ++ [.handled event]) = alive c.history :=
      alive_told (by simp) rfl
    rw [packet_eq hc, hmanaged.finds hc (hsince ▸ halive)] at hnone
    cases hnone
  | @setStatus event requestID sessionID p hfind =>
    obtain rfl := hmanaged.records_own hat hfind
    obtain rfl := own_eq hc hc'
    have hgiven := hs.pending event requestID rest rfl
    refine ⟨hfiled, fun _ _ => ?_, fun _ event' hevent => ?_, fun event' requestID' rest' heq => ?_⟩
    · simp only [Request.record, List.getLast?_concat, lastHandled_of_lastGiven hgiven,
        Option.map_some]
    · cases hgiven.symm.trans hevent
      exact RPCPacketManager.updateStatus_status _ _ _
    · exact absurd heq (ne_setStatus hs.filed.behind)
  | @setNothing event requestID hnone =>
    obtain ⟨rfl, halive⟩ := hs.filed.found event requestID rest rfl
    rw [hmanaged.finds hc halive] at hnone
    cases hnone
  | createResponse =>
    obtain rfl := own_eq hc hc'
    exact hs.tells rfl hfiled (hbehind (List.forall_mem_singleton.mpr rfl)) rfl rfl rfl rfl
  | responseAdd | requestAdd | requestSub =>
    obtain rfl := same_eq hc hc' rfl
    exact hs.stays rfl hfiled hnil
  | responseRoom =>
    obtain rfl := same_eq hc hc' rfl
    refine hs.stays rfl hfiled (hbehind fun op hop => ?_)
    rcases List.mem_pair.mp hop with rfl | rfl <;> rfl
  | requestRoom =>
    obtain rfl := own_eq hc hc'
    exact hs.tells rfl hfiled (hbehind (by decide)) rfl rfl rfl rfl
  | requestFull | emptyService | unknownService | missing =>
    obtain rfl := own_eq hc hc'
    exact hs.tells rfl hfiled (hbehind (raise_records _)) rfl rfl rfl rfl
  | requestLink =>
    obtain rfl := same_eq hc hc' rfl
    exact hs.stays rfl hfiled (raise_records .onCommited)
  | knownService | terminate =>
    obtain rfl := same_eq hc hc' rfl
    exact hs.stays rfl hfiled (hbehind (List.forall_mem_singleton.mpr rfl))
  | valid =>
    obtain rfl := own_eq hc hc'
    exact hs.leaves rfl hfiled (hbehind (List.forall_mem_singleton.mpr rfl)) rfl rfl rfl
  | notChecked | invalid | returned | threw =>
    obtain rfl := own_eq hc hc'
    exact hs.leaves rfl hfiled (hbehind (raise_records _)) rfl rfl rfl
  | commit =>
    obtain rfl := own_eq hc hc'
    exact hs.tells rfl hfiled (List.forall_mem_singleton.mpr rfl) rfl rfl rfl rfl
  | invoked =>
    obtain rfl := own_eq hc hc'
    exact hs.tells rfl hfiled (hbehind (List.forall_mem_singleton.mpr rfl)) rfl rfl rfl rfl
  | escaped =>
    obtain rfl := own_eq hc hc'
    exact hs.leaves rfl hfiled hnil rfl rfl rfl

end Executes

section Step

variable {C : Setting} {v v' : RPCServer} {l : RPCLabel}

/-- THE INVARIANT of the statuses: beside the manager's book, every carrier's request has the
status of the event handled last, but for one that has still to be recorded. -/
structure Stating (C : Setting) (v : RPCServer) : Prop where
  managed : v.Managed C
  stated : Relay.InOrder Call.holds Stated Over v.carriers v.packets

theorem Stating.step (h : v.Stating C) (hok : v.keepsIds l = true) (hmoves : Moves C v l v') :
    v'.Stating C := by
  refine ⟨h.managed.step hok hmoves, ?_⟩
  refine inOrder_step h.stated hmoves (fun _ _ hk => hk.filed.told.ordered) ?_ ?_ ?_ ?_ ?_
  · intro t s body _ c hc
    have hfiled := filed_onData C hc
    obtain rfl := List.singleton_inj.mp (List.append_cancel_left hc)
    refine ⟨hfiled, nofun, fun _ _ => nofun, fun event requestID rest heq => ?_⟩
    exact absurd heq (ne_setStatus (raise_records _))
  · intro s a c hk
    exact ⟨hk.filed.taken, fun hmem _ => hk.noted hmem (raise_records .onCommited),
      fun _ => hk.current (raise_records .onCommited), fun _ _ _ heq => nomatch heq⟩
  · intro t role s a op rest answer v₁ ops c c' _ hat hexecutes hc hc' hk
    exact hexecutes.stated hat h.managed hc hc' hk
  · exact fun t _ _ hstrays => absurd hstrays (h.managed.not_strays t)
  · exact fun k c hk hnone => hk.filed.told.over hnone

theorem stating_of_reachable
    (h : (machine C).ReachableBy (fun v l => v.keepsIds l = true) v) : v.Stating C :=
  h.invariant (fun _ ⟨_, _, _, hv⟩ => hv ▸ ⟨⟨inOrder_new _ _, .nil _⟩, inOrder_new _ _⟩)
    fun _ _ _ hstating hok hstep => hstating.step hok (moves_of_step hstep)

/-- The thread that works on a request fits its record. -/
theorem Stating.working (h : v.Stating C) {t s a : Nat} {role : Role} {op : RPCOp}
    {rest : List RPCOp} (hat : v.threads[t]? = some ⟨role, s, a, op :: rest⟩)
    (hop : op.concerns = true) : ∃ c, v.packets[a]? = some c ∧ Stated ⟨s, a, op :: rest⟩ c :=
  fits_of_working h.stated hat List.mem_cons_self hop

/-- A response that is made has the status of its event. -/
theorem Stating.status (h : v.Stating C) {t s a : Nat} {role : Role} {event : RPCEvent}
    {rest : List RPCOp} (hat : v.threads[t]? = some ⟨role, s, a, .createResponse event :: rest⟩)
    (serverId uuid : String) :
    (ResponseDispatcher.response serverId uuid (v.packet a) event).status = event.status := by
  by_cases hfailed : event = .onDeserializedFailed
  · rw [hfailed]
    rfl
  · obtain ⟨c, hc, hstated⟩ := h.working hat rfl
    obtain ⟨-, hlast⟩ := hstated.created hfailed
    rw [response_eq_createReply hfailed, RPCPacketFactory.createReply_eq, packet_eq hc]
    exact hstated.current (hstated.filed.silent rfl) event hlast

/-- The status of a response is that of its event, where generated ids are fresh and the called
functions leave the request's id as it is. -/
theorem status_of_reachable (h : (machine C).ReachableBy (fun v l => v.keepsIds l = true) v) :
    ∀ (r : Nat) x, v.responses[r]? = some x → x.packet.status = x.event.status := by
  refine h.invariant_with (I := fun v => ∀ (r : Nat) x, v.responses[r]? = some x →
    x.packet.status = x.event.status) (fun _ hs => stating_of_reachable hs) ?_ ?_
  · rintro _ ⟨_, _, -, rfl⟩ r x hx
    cases hx
  · intro v l v' hstating hall _ hstep r x hx
    rcases response_cases (moves_of_step hstep) hx with ⟨x, fate, hbefore, rfl⟩ |
      ⟨t, role, s, a, event, rest, answer, rfl, hat, -, -, -, hevent, hpacket, -, -⟩
    · exact hall r x hbefore
    · rw [hpacket, hevent]
      exact hstating.status hat _ _

end Step

end RPCServer

end DSFramework.DSRPC
