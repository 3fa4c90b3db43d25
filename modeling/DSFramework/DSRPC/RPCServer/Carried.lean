import DSFramework.DSCommunication.Session.Connection
import DSFramework.DSRPC.RPCPacket.Accepted
import DSFramework.DSRPC.RPCServer.Delivery
import DSFramework.DSRPC.RPCServer.Replies

/-!
# What the frames of a session carry

The server with the generated code for its parsing and serialization. What a parsed packet has, and
no handler takes away, every packet and every response has: `Closed`. With it every response is a
packet that the other end parses to itself. What the response dispatcher hands to a session is what
the session's `Send` is called with (`Handed`), so the frames that a session accepts carry, in order,
responses that were sent to it.
-/

namespace DSFramework.DSRPC

open DSCommunication (WriterLabel Writer Frame Connection bodyMaxSize admitted_frameOf)
open DSCommunication.Session (sendQueueMaxSize)

/-- A property that the empty packet has and that the manager's handlers and the factory keep. -/
structure Closed (P : RPCPacket → Prop) : Prop where
  empty : P {}
  init (uid sessionID currentTime : String) {packet : RPCPacket} :
    P packet → P (RPCPacketManager.initRPCPacket uid sessionID currentTime packet)
  update (status : RPCPacketStatus) (currentTime : String) {packet : RPCPacket} :
    P packet → P (RPCPacketManager.updateStatus status currentTime packet)
  response (serverId uuid : String) (event : RPCEvent) {packet : RPCPacket} :
    P packet → P (ResponseDispatcher.response serverId uuid packet event)

theorem RPCPacket.Normal.congr {runtime : Runtime} {packet packet' : RPCPacket}
    (h : packet.Normal runtime) (hparameters : packet'.parameters = packet.parameters)
    (hresult : packet'.result = packet.result)
    (hunknown : packet'.unknownFields = packet.unknownFields) : packet'.Normal runtime where
  parameters := hparameters ▸ h.parameters
  result := hresult ▸ h.result
  unknown := hunknown ▸ h.unknown

theorem closed_normal (runtime : Runtime) : Closed (RPCPacket.Normal runtime) where
  empty := RPCPacket.normal_empty
  init _ _ _ _ h := h.congr rfl rfl rfl
  update status currentTime packet h := by
    obtain ⟨_, _, _, _, _, heq⟩ := RPCPacketManager.updateStatus_eq status currentTime packet
    rw [heq]
    exact h.congr rfl rfl rfl
  response serverId uuid event packet h := by
    by_cases hevent : event = .onDeserializedFailed
    · rw [hevent]
      exact RPCPacket.normal_empty.congr rfl rfl rfl
    · rw [response_eq_createReply hevent, RPCPacketFactory.createReply_eq]
      exact h.congr rfl rfl rfl

namespace RPCServer

variable {C : Setting} {v v' : RPCServer} {l : RPCLabel} {P : RPCPacket → Prop}

/-- The environment in which the packets that called functions leave have the property. -/
def answersWith (P : RPCPacket → Prop) : RPCLabel → Prop
  | .advance _ answer => P answer.packet
  | _ => True

/-- Every packet and every response has it. -/
structure Everywhere (P : RPCPacket → Prop) (v : RPCServer) : Prop where
  packets : ∀ (a : Nat) c, v.packets[a]? = some c → P c.packet
  responses : ∀ (r : Nat) x, v.responses[r]? = some x → P x.packet

theorem Everywhere.packet (h : v.Everywhere P) (hP : Closed P) (a : Nat) : P (v.packet a) := by
  cases hc : v.packets[a]? with
  | none =>
    rw [RPCServer.packet, hc]
    exact hP.empty
  | some c => exact packet_eq hc ▸ h.packets a c hc

theorem Executes.everywhere (hP : Closed P) {s a : Nat} {answer : Answer} {op : RPCOp}
    {ops : List RPCOp} (h : Executes C v s a answer op v' ops) (hanswer : P answer.packet)
    (hv : v.Everywhere P) : ∀ (b : Nat) c, v'.packets[b]? = some c → P c.packet := by
  have hmodify : ∀ {p : Nat} {f : Request → Request}, v'.packets = v.packets.modify p f →
      (∀ c, P c.packet → P (f c).packet) → ∀ (b : Nat) c, v'.packets[b]? = some c → P c.packet := by
    intro p f hpackets hf b c' hc'
    rw [hpackets, List.getElem?_modify] at hc'
    obtain ⟨c, hc, rfl⟩ := Option.map_eq_some_iff.mp hc'
    split
    · exact hf c (hv.packets b c hc)
    · exact hv.packets b c hc
  cases h with
  | setNothing | responseRoom | responseAdd | requestLink | requestAdd | requestSub
  | knownService | terminate => exact hv.packets
  | initRPCPacket => exact hmodify rfl fun _ hc => hP.init _ _ _ hc
  | setStatus => exact hmodify rfl fun _ hc => hP.update _ _ hc
  | valid | invalid | returned | threw | escaped => exact hmodify rfl fun _ _ => hanswer
  | addRequest | found | notFound | removeRequest | createResponse | responseFull
  | responseLink | requestRoom | requestFull | emptyService | unknownService | notChecked
  | commit | invoked | missing => exact hmodify rfl fun _ hc => hc

theorem Everywhere.step (hP : Closed P)
    (hparse : ∀ body packet, C.parseFromArray body = some packet → P packet)
    (h : v.Everywhere P) (hok : answersWith P l) (hmoves : Moves C v l v') :
    v'.Everywhere P := by
  constructor
  case responses =>
    intro r x' hx'
    rcases response_cases hmoves hx' with ⟨x, fate, hx, rfl⟩ |
      ⟨t, role, s, a, event, rest, answer, -, -, -, -, -, -, hpacket, -, -⟩
    · exact h.responses r x hx
    · exact hpacket ▸ hP.response _ _ _ (h.packet hP a)
  case packets =>
    cases hmoves with
    | @deliver t s s₀ a₀ body =>
      intro a c hc
      rcases Nat.lt_or_ge a v.packets.length with hlt | hge
      · apply h.packets a c
        simpa only [onData, List.getElem?_append_left hlt] using hc
      · simp only [onData, List.getElem?_append_right hge, List.getElem?_singleton] at hc
        split at hc
        · cases hc
          cases hparsed : C.parseFromArray body with
          | none => exact hP.empty
          | some packet => exact hparse body packet hparsed
        · cases hc
    | advance hat hexecutes =>
      have hpackets := hexecutes.everywhere hP hok h
      exact hpackets
    | @sendResponse s r =>
      intro a c hc
      exact h.packets a c ((send_frame C v s r).1 ▸ hc)
    | takeRequest | takeTask | takeResponse | subtractResponse | completeWrite => exact h.packets

theorem everywhere_of_reachable (hP : Closed P)
    (hparse : ∀ body packet, C.parseFromArray body = some packet → P packet)
    (h : (machine C).ReachableBy (fun _ l => answersWith P l) v) : v.Everywhere P := by
  refine h.invariant ?_ ?_
  · rintro _ ⟨_, _, -, rfl⟩
    exact ⟨fun _ _ hc => (nomatch hc), fun _ _ hx => (nomatch hx)⟩
  · exact fun _ _ _ hv hok hstep => hv.step hP hparse hok (moves_of_step hstep)

/-! ## Where every frame is a packet -/

/-- The environment in which every frame is one. -/
def parses (C : Setting) : RPCLabel → Prop
  | .deliver _ body => (C.parseFromArray body).isSome = true
  | _ => True

/-- Nobody answers a frame that is none. -/
structure Parsed (v : RPCServer) : Prop where
  threads : ∀ th ∈ v.threads, .createResponse .onDeserializedFailed ∉ th.call.ops
  responses : ∀ (r : Nat) x, v.responses[r]? = some x → x.event ≠ .onDeserializedFailed

/-- No operation goes on to the answer to such a frame. -/
theorem Executes.not_deserializedFailed {s a : Nat} {answer : Answer} {op : RPCOp}
    {ops : List RPCOp} (h : Executes C v s a answer op v' ops) :
    .createResponse .onDeserializedFailed ∉ ops := by
  cases h with
  | found | knownService | terminate | valid | invoked | responseRoom | createResponse => simp
  | initRPCPacket | addRequest | notFound | setStatus | setNothing | removeRequest | responseFull
  | responseLink | responseAdd | requestLink | requestAdd | requestSub | commit | escaped =>
    exact List.not_mem_nil
  | requestRoom | requestFull | emptyService | unknownService | notChecked | invalid | missing
  | returned | threw => decide

theorem Parsed.step (h : v.Parsed) (hok : parses C l) (hmoves : Moves C v l v') : v'.Parsed := by
  constructor
  case responses =>
    intro r x' hx'
    rcases response_cases hmoves hx' with ⟨x, fate, hx, rfl⟩ |
      ⟨t, role, s, a, event, rest, answer, -, hat, -, -, -, hevent, -, -, -⟩
    · exact h.responses r x hx
    · rintro heq
      rw [hevent] at heq
      subst heq
      exact h.threads _ (List.mem_of_getElem? hat) List.mem_cons_self
  case threads =>
    intro th hth
    cases hmoves with
    | takeResponse | subtractResponse | completeWrite => exact h.threads th hth
    | @sendResponse s r => exact h.threads th ((send_frame C v s r).2.1 ▸ hth)
    | @deliver t s s₀ a₀ body hat =>
      rcases List.mem_or_eq_of_mem_set hth with hmem | rfl
      · exact h.threads th hmem
      · have hparsed : (C.parseFromArray body).isSome = true := hok
        rw [if_pos hparsed]
        simp [raise, RPCPacketManager.handler, ResponseDispatcher.handler, nextStation]
    | takeRequest | takeTask =>
      rcases List.mem_or_eq_of_mem_set hth with hmem | rfl
      · exact h.threads th hmem
      · simp [raise, RPCPacketManager.handler, ResponseDispatcher.handler, nextStation]
    | @advance t s a role op rest ops answer v₁ hat hexecutes =>
      simp only [goto, hexecutes.threads] at hth
      rcases List.mem_or_eq_of_mem_set hth with hmem | rfl
      · exact h.threads th hmem
      · intro hmem
        rcases List.mem_append.mp hmem with hnew | hrest
        · exact hexecutes.not_deserializedFailed hnew
        · exact h.threads _ (List.mem_of_getElem? hat) (List.mem_cons_of_mem _ hrest)

theorem parsed_of_reachable (h : (machine C).ReachableBy (fun _ l => parses C l) v) :
    v.Parsed := by
  refine h.invariant ?_ fun _ _ _ hv hok hstep => hv.step hok (moves_of_step hstep)
  rintro _ ⟨roles, _, -, rfl⟩
  refine ⟨fun th hth => ?_, fun _ _ hx => (nomatch hx)⟩
  obtain ⟨role, -, rfl⟩ := List.mem_map.mp hth
  exact List.not_mem_nil

end RPCServer

/-! ## The frames of a session -/

/-- A server with the generated code for its packets, in one runtime. -/
def Setting.generated (runtime : Runtime) (C : Setting) : Setting :=
  { C with
    parseFromArray := RPCPacket.parseFromArray runtime
    byteSizeLong := runtime.byteSizeLong
    serializeToArray := runtime.serializeToArray }

/-- What is serialized is the packet's bytes and their number. -/
theorem serialize_generated {runtime : Runtime} {C : Setting} {packet : RPCPacket}
    {serialized : List UInt8 × Nat} (h : (C.generated runtime).serialize packet = some serialized)
    (hsmall : packet.internalSerialize.length ≤ bodyMaxSize) :
    serialized = (packet.internalSerialize, packet.internalSerialize.length) := by
  have hlength := packet.length_internalSerialize
  have hsize : packet.byteSizeLong ≤ 2147483647 :=
    hlength ▸ Nat.le_trans hsmall (by decide)
  unfold Setting.serialize at h
  split at h
  · cases h
  · obtain ⟨_, hdata, heq⟩ := Option.map_eq_some_iff.mp h
    simp only [Setting.generated, Runtime.serializeToArray, runtime.byteSizeLong_eq hsize,
      if_neg (Nat.not_lt.mpr hsize), runtime.internalSerialize_eq hsize, Option.some.injEq]
      at hdata heq
    rw [← heq, ← hdata, hlength]

/-- The arguments of `Session::Send`, where the packet can be serialized. -/
def Setting.handing (C : Setting) (packet : RPCPacket) : Option (List UInt8 × Int) :=
  (C.serialize packet).map fun serialized => (serialized.1, serialized.2)

namespace RPCServer

variable {runtime : Runtime} {C : Setting} {v v' : RPCServer} {l : RPCLabel}

/-- What is sent fits into a frame. -/
def fits (v : RPCServer) : RPCLabel → Bool
  | .sendResponse => v.sending.all fun p =>
      (v.responses[p.response]?).all fun x => x.packet.internalSerialize.length ≤ bodyMaxSize
  | _ => true

theorem small_of_fits {s r : Nat} {x : Response} (hfits : v.fits .sendResponse = true)
    (hsending : v.sending = some ⟨s, r, true⟩) (hx : v.responses[r]? = some x) :
    x.packet.internalSerialize.length ≤ bodyMaxSize := by
  simpa only [fits, hsending, Option.all_some, hx, decide_eq_true_eq] using hfits

/-- Calls of `Session::Send` stay what they were; a step adds those of its own. -/
theorem sentTo_step (hposting : v.Posting) (hmoves : Moves C v l v') (s : Nat)
    {sent : List (Nat × Nat)} (hsends : v'.sends = v.sends ++ sent) :
    (v'.sentTo s).map Response.packet = (v.sentTo s).map Response.packet ++
      ((sent.filter fun item => item.1 == s).filterMap fun item => v'.responses[item.2]?).map
        Response.packet := by
  have hold : ((v.sends.filter fun item => item.1 == s).filterMap fun item =>
      v'.responses[item.2]?).map Response.packet = (v.sentTo s).map Response.packet := by
    rw [sentTo, List.map_filterMap, List.map_filterMap]
    apply List.filterMap_congr
    intro item hitem
    obtain ⟨dealt, hline, hdealt⟩ := hposting.inLine
    have hposted : item ∈ v.posts := by
      rw [hline, List.append_assoc]
      exact List.mem_append_left _ (hdealt.mem (List.mem_of_mem_filter hitem))
    obtain ⟨x, hx, -⟩ := hposting.known item hposted
    obtain ⟨fate, hx'⟩ := hmoves.response hx
    rw [hx, hx']
    rfl
  rw [sentTo, hsends, List.filter_append, List.filterMap_append, List.map_append, hold]

/-- THE INVARIANT of a session's write side: it has run with what the response dispatcher has handed
to the session, in order. -/
def Handed (C : Setting) (v : RPCServer) : Prop :=
  ∀ s, ∃ ls, (Writer.machine C.endian).run (Writer.fresh sendQueueMaxSize) ls =
      some (v.writers s) ∧
    ((v.sentTo s).map Response.packet).map C.handing =
      (ls.filterMap WriterLabel.handed).map some

/-- What is sent, if anything is: a response that can be serialized, in one call. -/
theorem send_cases (C : Setting) (v : RPCServer) (s r : Nat) :
    ((v.send C s r).sends = v.sends ∧ (v.send C s r).writers = v.writers) ∨
    ∃ x data size, v.responses[r]? = some x ∧ C.serialize x.packet = some (data, size) ∧
      (v.send C s r).sends = v.sends ++ [(s, r)] ∧
      (v.send C s r).writers = setWriter v.writers s ((v.writers s).send C.endian data size) := by
  cases hserialize : (v.responses[r]?).bind fun x => C.serialize x.packet with
  | none =>
    refine .inl ⟨?_, ?_⟩
    · simp only [RPCServer.send, hserialize, settle]
    · simp only [RPCServer.send, hserialize, settle]
  | some serialized =>
    obtain ⟨x, hx, hdata⟩ := Option.bind_eq_some_iff.mp hserialize
    refine .inr ⟨x, serialized.1, serialized.2, hx, hdata, ?_, ?_⟩
    · simp only [RPCServer.send, hserialize]
    · simp only [RPCServer.send, hserialize]

/-- Where nothing is handed over and no write completes. -/
theorem Handed.still (h : v.Handed C) (hposting : v.Posting) (hmoves : Moves C v l v')
    (hsends : v'.sends = v.sends) (hwriters : v'.writers = v.writers) : v'.Handed C := by
  intro s
  obtain ⟨ls, hrun, hsent⟩ := h s
  refine ⟨ls, hwriters ▸ hrun, ?_⟩
  rw [sentTo_step hposting hmoves s (hsends.trans (List.append_nil _).symm)]
  simpa only [List.filter_nil, List.filterMap_nil, List.map_nil, List.append_nil] using hsent

theorem Handed.step (h : v.Handed C) (hposting : v.Posting) (hmoves : Moves C v l v') :
    v'.Handed C := by
  have hmoved := hmoves
  cases hmoves with
  | deliver | takeRequest | takeTask | takeResponse | subtractResponse =>
    exact h.still hposting hmoved rfl rfl
  | advance hat hexecutes =>
    exact h.still hposting hmoved hexecutes.sends.2.1 hexecutes.sends.2.2
  | @sendResponse s r hsending =>
    rcases send_cases C v s r with
      ⟨hsends, hwriters⟩ | ⟨x, data, size, hx, hserialize, hsends, hwriters⟩
    · exact h.still hposting hmoved hsends hwriters
    · intro s'
      obtain ⟨ls, hrun, hsent⟩ := h s'
      obtain ⟨fate, hx'⟩ := hmoved.response hx
      by_cases hs : s' = s
      · subst hs
        refine ⟨ls ++ [.send data size], Transition.Machine.run_concat hrun ?_, ?_⟩
        · simp only [hwriters, setWriter, if_true]
          rfl
        · rw [sentTo_step hposting hmoved s' hsends, List.map_append, hsent]
          simp [hx', Setting.handing, hserialize, WriterLabel.handed]
      · refine ⟨ls, ?_, ?_⟩
        · simp only [hwriters, setWriter, if_neg hs]
          exact hrun
        · have hother : (s == s') = false := beq_false_of_ne (Ne.symm hs)
          rw [sentTo_step hposting hmoved s' hsends]
          simpa [hother] using hsent
  | @completeWrite s position success w hstep =>
    intro s'
    obtain ⟨ls, hrun, hsent⟩ := h s'
    have hnothing := (List.append_nil v.sends).symm
    by_cases hs : s' = s
    · subst hs
      refine ⟨ls ++ [.complete position success], Transition.Machine.run_concat hrun ?_, ?_⟩
      · simp only [setWriter, if_true]
        exact hstep
      · have hsilent : [WriterLabel.complete position success].filterMap WriterLabel.handed = [] :=
          rfl
        rw [sentTo_step hposting hmoved s' hnothing, List.filterMap_append, hsilent]
        simpa using hsent
    · refine ⟨ls, ?_, ?_⟩
      · simp only [setWriter, if_neg hs]
        exact hrun
      · rw [sentTo_step hposting hmoved s' hnothing]
        simpa using hsent

/-- What the response dispatcher has handed to a session is what the session's `Send` has been
called with. -/
theorem handed_of_reachable {ok : RPCServer → RPCLabel → Prop}
    (h : (machine C).ReachableBy ok v) : v.Handed C := by
  refine h.invariant_with (fun _ => posting_of_reachable) ?_ ?_
  · rintro _ ⟨_, _, -, rfl⟩ s
    exact ⟨[], rfl, rfl⟩
  · exact fun _ _ _ hposting hhanded _ hstep => hhanded.step hposting (moves_of_step hstep)

/-- What has been sent has fitted. -/
def Sized (v : RPCServer) : Prop :=
  ∀ s, ∀ packet ∈ (v.sentTo s).map Response.packet,
    packet.internalSerialize.length ≤ bodyMaxSize

theorem Sized.step (h : v.Sized) (hposting : v.Posting) (hfits : v.fits l = true)
    (hmoves : Moves C v l v') : v'.Sized := by
  have hstill : v'.sends = v.sends → v'.Sized := by
    intro hsends s packet hmem
    rw [sentTo_step hposting hmoves s (hsends.trans (List.append_nil _).symm)] at hmem
    exact h s packet (by simpa using hmem)
  have hmoved := hmoves
  cases hmoves with
  | deliver | takeRequest | takeTask | takeResponse | subtractResponse | completeWrite =>
    exact hstill rfl
  | advance hat hexecutes => exact hstill hexecutes.sends.2.1
  | @sendResponse s r hsending =>
    rcases send_cases C v s r with ⟨hsends, -⟩ | ⟨x, data, size, hx, -, hsends, -⟩
    · exact hstill hsends
    · intro s' packet hmem
      obtain ⟨fate, hx'⟩ := hmoved.response hx
      have hsmall := small_of_fits hfits hsending hx
      rw [sentTo_step hposting hmoved s' hsends] at hmem
      rcases List.mem_append.mp hmem with hold | hnew
      · exact h s' packet hold
      · obtain ⟨y, hy, rfl⟩ := List.mem_map.mp hnew
        obtain ⟨item, hitem, hget⟩ := List.mem_filterMap.mp hy
        obtain rfl := List.mem_singleton.mp (List.mem_of_mem_filter hitem)
        obtain rfl := Option.some.inj (hx'.symm.trans hget)
        exact hsmall

theorem sized_of_reachable (h : (machine C).ReachableBy (fun v l => v.fits l = true) v) :
    v.Sized := by
  refine h.invariant_with (fun _ => posting_of_reachable) ?_ ?_
  · rintro _ ⟨_, _, -, rfl⟩ s packet hmem
    cases hmem
  · exact fun _ _ _ hposting hsized hfits hstep =>
      hsized.step hposting hfits (moves_of_step hstep)

/-- A session's frames: a head that announces the body, and bodies that are, in order, packets that
were sent to the session. -/
structure Carried (v : RPCServer) : Prop where
  frames : ∀ s, ∀ frame ∈ (v.writers s).accepted, frame.Admitted
  bodies : ∀ s, ((v.writers s).accepted.map Frame.body).Sublist
    (((v.sentTo s).map Response.packet).map RPCPacket.internalSerialize)

/-- Where everything fits, a session's `Send` has been called with packets and their sizes. -/
theorem Handed.serialized (h : v.Handed (C.generated runtime)) (hsized : v.Sized) (s : Nat) :
    ∃ ls, (Writer.machine C.endian).run (Writer.fresh sendQueueMaxSize) ls =
        some (v.writers s) ∧
      ls.filterMap WriterLabel.handed = ((v.sentTo s).map Response.packet).map fun packet =>
        (packet.internalSerialize, (packet.internalSerialize.length : Int)) := by
  obtain ⟨ls, hrun, hsent⟩ := h s
  refine ⟨ls, hrun, ?_⟩
  have hserialized : ∀ packet ∈ (v.sentTo s).map Response.packet,
      (C.generated runtime).handing packet =
        some (packet.internalSerialize, (packet.internalSerialize.length : Int)) := by
    intro packet hmem
    have hsome : (C.generated runtime).handing packet ∈
        (ls.filterMap WriterLabel.handed).map some := hsent ▸ List.mem_map_of_mem hmem
    obtain ⟨p, -, hp⟩ := List.mem_map.mp hsome
    obtain ⟨serialized, hserialize, heq⟩ := Option.map_eq_some_iff.mp hp.symm
    rw [← hp, ← heq, serialize_generated hserialize (hsized s packet hmem)]
  rw [List.map_congr_left hserialized] at hsent
  refine (List.map_inj_right fun _ _ heq => Option.some.inj heq).mp (hsent.symm.trans ?_)
  exact List.map_map.symm

theorem carried_of_reachable
    (h : (machine (C.generated runtime)).ReachableBy (fun v l => v.fits l = true) v) :
    v.Carried := by
  have hsized := sized_of_reachable h
  have hbodies : ∀ s, (∀ frame ∈ (v.writers s).accepted, frame.Admitted) ∧
      ((v.writers s).accepted.map Frame.body).Sublist
        (((v.sentTo s).map Response.packet).map RPCPacket.internalSerialize) := by
    intro s
    obtain ⟨ls, hrun, hsent⟩ := (handed_of_reachable h).serialized hsized s
    have hadmitted : ∀ p ∈ ls.filterMap WriterLabel.handed,
        Connection.admitted (.send p.1 p.2) = true := by
      intro p hp
      rw [hsent] at hp
      obtain ⟨packet, hmem, rfl⟩ := List.mem_map.mp hp
      exact Connection.admitted_natCast (hsized s packet hmem)
    have hwhole : (ls.filterMap WriterLabel.handed).map (fun p => p.1.take p.2.toNat) =
        ((v.sentTo s).map Response.packet).map RPCPacket.internalSerialize := by
      have htake : ∀ bytes : List UInt8, bytes.take (bytes.length : Int).toNat = bytes :=
        fun bytes => by rw [Int.toNat_natCast, List.take_length]
      rw [hsent]
      induction (v.sentTo s).map Response.packet with
      | nil => rfl
      | cons packet packets ih => simp only [List.map_cons, htake, ih]
    exact hwhole ▸ Writer.bodies_of_run hrun hadmitted fun _ hframe => absurd hframe List.not_mem_nil
  exact ⟨fun s => (hbodies s).1, fun s => (hbodies s).2⟩

/-- Of the server's own steps only a call of `Session::Send` changes a session's write side. -/
theorem Moves.writers_own (hmoves : Moves (C.generated runtime) v l v')
    (hcomplete : ∀ s position success, l ≠ .completeWrite s position success)
    (hfits : v.fits l = true) : v'.writers = v.writers ∨
      l = .sendResponse ∧ ∃ (s : Nat) (data : List UInt8),
        Connection.admitted (.send data data.length) = true ∧
        v'.writers = setWriter v.writers s ((v.writers s).send C.endian data data.length) := by
  cases hmoves with
  | deliver | takeRequest | takeTask | takeResponse | subtractResponse => exact .inl rfl
  | advance hat hexecutes => exact .inl hexecutes.sends.2.2
  | completeWrite => exact absurd rfl (hcomplete _ _ _)
  | @sendResponse s r hsending =>
    rcases send_cases (C.generated runtime) v s r with
      ⟨-, hwriters⟩ | ⟨x, data, size, hx, hserialize, -, hwriters⟩
    · exact .inl hwriters
    · have hsmall := small_of_fits hfits hsending hx
      have hserialized := Prod.mk.inj (serialize_generated hserialize hsmall)
      rw [hserialized.1, hserialized.2] at hwriters
      exact .inr ⟨rfl, s, _, Connection.admitted_natCast hsmall, hwriters⟩

/-- The frame of an accepted response carries it. -/
def Framed (v : RPCServer) : Prop :=
  ∀ (r : Nat) x frame, v.responses[r]? = some x → x.fate = some (.accepted frame) →
    frame.body = x.packet.internalSerialize

theorem Framed.step (h : v.Framed) (hfits : v.fits l = true)
    (hmoves : Moves (C.generated runtime) v l v') : v'.Framed := by
  intro r x' frame hx' hfate
  cases hmoves with
  | deliver | takeRequest | takeTask | takeResponse | subtractResponse | completeWrite =>
    exact h r x' frame hx' hfate
  | advance hat hexecutes =>
    rcases hexecutes.responses with heq | ⟨event, p, -, -, -, heq⟩ |
      ⟨event, y, -, -, heq, -, -, -, -, -, hnone⟩
    · exact h r x' frame (heq ▸ hx') hfate
    · simp only [goto, heq, List.getElem?_modify] at hx'
      obtain ⟨x, hx, rfl⟩ := Option.map_eq_some_iff.mp hx'
      split at hfate
      · cases hfate
      · next hne =>
        rw [if_neg hne]
        exact h r x frame hx hfate
    · simp only [goto, heq, List.getElem?_append] at hx'
      split at hx'
      · exact h r x' frame hx' hfate
      · obtain ⟨_, hval⟩ := List.getElem?_eq_some_iff.mp hx'
        rw [List.getElem_singleton] at hval
        rw [← hval, hnone] at hfate
        cases hfate
  | @sendResponse s p hsending =>
    by_cases hpr : p = r
    · subst hpr
      cases hx : v.responses[p]? with
      | none =>
        obtain ⟨fate, heq⟩ := send_responses (C.generated runtime) v s p
        simp only [heq, List.getElem?_modify, hx, Option.map_eq_map, Option.map_none] at hx'
        cases hx'
      | some x =>
        obtain ⟨fate, hsent, hsettles⟩ := settles_send hx hsending
        have hnow : x' = { x with fate := some fate } := Option.some.inj (hx'.symm.trans hsent)
        rw [hnow] at hfate ⊢
        obtain rfl : fate = .accepted frame := Option.some.inj hfate
        cases hsettles with
        | @accepted s' size data hsending' hserialize hroom hwriter =>
          have hsmall := small_of_fits hfits hsending hx
          have hserialized := Prod.mk.inj (serialize_generated hserialize hsmall)
          have hok := Connection.admitted_natCast hsmall
          rw [hserialized.1, hserialized.2]
          have hbody := (admitted_frameOf (C.generated runtime).endian (v.writers s') hok).2
          rwa [Int.toNat_natCast, List.take_length] at hbody
    · obtain ⟨fate, heq⟩ := send_responses (C.generated runtime) v s p
      simp only [heq, List.getElem?_modify_ne _ _ hpr] at hx'
      exact h r x' frame hx' hfate

theorem framed_of_reachable
    (h : (machine (C.generated runtime)).ReachableBy (fun v l => v.fits l = true) v) :
    v.Framed := by
  refine h.invariant (I := Framed) ?_ fun _ _ _ hframed hfits hstep =>
    hframed.step hfits (moves_of_step hstep)
  rintro _ ⟨_, _, -, rfl⟩ r x frame hx
  cases hx

/-- Only a delivery adds a request; what was received stays. -/
theorem Moves.arrivals (hmoves : Moves C v l v') (hdeliver : ∀ t body, l ≠ .deliver t body) :
    v'.packets.map (fun c => (c.session, c.received)) =
      v.packets.map fun c => (c.session, c.received) := by
  have hlength : v'.packets.length = v.packets.length := by
    cases hmoves with
    | deliver => exact absurd rfl (hdeliver _ _)
    | advance hat hexecutes =>
      rcases hexecutes.packets with ⟨f, hf⟩ | ⟨_, _, _, p, -, -, hf⟩
      · exact (congrArg List.length hf).trans (List.length_modify _ _ _)
      · exact (congrArg List.length hf).trans (List.length_modify _ _ _)
    | @sendResponse s r => exact congrArg List.length (send_frame C v s r).1
    | takeRequest | takeTask | takeResponse | subtractResponse | completeWrite => rfl
  apply List.ext_getElem?
  intro a
  rw [List.getElem?_map, List.getElem?_map]
  cases hc : v.packets[a]? with
  | none =>
    rw [List.getElem?_eq_none_iff, ← hlength, ← List.getElem?_eq_none_iff] at hc
    rw [hc]
  | some c =>
    obtain ⟨c', hc', hgrows⟩ := hmoves.grows hc
    rw [hc', Option.map_some, Option.map_some, hgrows.session, hgrows.received]

/-- What a session has received. -/
def receivedOn (v : RPCServer) (s : Nat) : List RPCPacket :=
  (v.packets.filter fun c => c.session == s).map Request.received

theorem Moves.receivedOn (hmoves : Moves C v l v') (hdeliver : ∀ t body, l ≠ .deliver t body)
    (s : Nat) : v'.receivedOn s = v.receivedOn s := by
  have hpairs : ∀ w : RPCServer, w.receivedOn s =
      ((w.packets.map fun c => (c.session, c.received)).filter fun p => p.1 == s).map Prod.snd := by
    intro w
    rw [RPCServer.receivedOn, List.filter_map, List.map_map]
    rfl
  rw [hpairs, hpairs, hmoves.arrivals hdeliver]

end RPCServer

end DSFramework.DSRPC
