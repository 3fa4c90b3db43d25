import DSFramework.DSRPC.RPCServer.Statuses

/-!
# What a response says of its request

Where the called functions leave everything but the result alone, the fields that the manager has
written stay as they are: a request that has been given an id bears it, its session's id and the
status recorded last. So does every response to it, `Truthful`.
-/

namespace DSFramework.DSRPC

/-- An id is given once. -/
theorem beginnings_assigned : ∀ h ∈ beginnings, h.getLast? = some .assigned →
    .assigned ∉ h.dropLast := by
  decide +kernel

/-- The fields that the manager writes, of a request that has been given an id. -/
structure Stamp (uuid : Nat → String) (c : Request) : Prop where
  innerId : c.packet.innerId = uuid c.session
  requestId : c.packet.requestId ≠ ""
  recorded : c.recorded.getLast? = some c.packet.status

/-- The packet keeps what the manager has written. -/
structure Same (p p' : RPCPacket) : Prop where
  innerId : p'.innerId = p.innerId
  requestId : p'.requestId = p.requestId
  status : p'.status = p.status

theorem Same.refl (p : RPCPacket) : Same p p := ⟨rfl, rfl, rfl⟩

/-- The result is not the manager's. -/
theorem Same.of_result {p p' : RPCPacket} (h : p' = { p with result := p'.result }) :
    Same p p' := by
  rw [h]
  exact ⟨rfl, rfl, rfl⟩

/-- What has nothing to do with the manager's fields. -/
theorem Stamp.goes {uuid : Nat → String} {c c' : Request} (h : .assigned ∈ c.history → Stamp uuid c)
    (hsession : c'.session = c.session) (hrecorded : c'.recorded = c.recorded)
    (hsame : Same c.packet c'.packet) {act : Act} (hhistory : c'.history = c.history ++ [act])
    (hact : act ≠ .assigned) (hassigned : .assigned ∈ c'.history) : Stamp uuid c' := by
  rw [hhistory] at hassigned
  obtain ⟨hinner, hid, hlast⟩ := h (told_before hassigned hact.symm)
  constructor
  · rw [hsame.innerId, hsession, hinner]
  · rwa [hsame.requestId]
  · rw [hrecorded, hsame.status, hlast]

/-- Behind what has been recorded, the packet has the status of the event handled last. -/
theorem Stated.current_of_stamp {uuid : Nat → String} {k : Call} {c : Request} (h : Stated k c)
    (hstamp : Stamp uuid c) (hassigned : .assigned ∈ c.history)
    (hnone : ∀ op ∈ k.ops, op.records = false) :
    (lastHandled c.history).map RPCEvent.status = some c.packet.status :=
  (h.noted hassigned hnone).symm.trans hstamp.recorded

namespace RPCServer

section Executes

variable {C : Setting} {v v' : RPCServer} {s a t : Nat} {role : Role} {answer : Answer}
  {op : RPCOp} {ops rest : List RPCOp}

/-- What the environment of `keepsPackets` answers to the operation that is carried out. -/
theorem keepsPackets_advance (hat : v.threads[t]? = some ⟨role, s, a, op :: rest⟩)
    (hok : v.keepsPackets (.advance t answer) = true) :
    (op = .initRPCPacket → v.fresh answer.uid = true ∧ answer.uid ≠ "") ∧
    ((∃ serviceName, op = .checkServiceParameter serviceName) ∨ op = .running →
      answer.packet = { v.packet a with result := answer.packet.result }) := by
  simp only [keepsPackets, answers, hat] at hok
  refine ⟨?_, ?_⟩
  · rintro rfl
    simpa only [Bool.and_eq_true, Bool.not_eq_true', String.isEmpty_eq_false_iff] using hok
  · rintro (⟨serviceName, rfl⟩ | rfl)
    · exact beq_iff_eq.mp hok
    · exact beq_iff_eq.mp hok

/-- The environment that leaves packets alone leaves their ids alone. -/
theorem keepsIds_of_keepsPackets {l : RPCLabel} (hok : v.keepsPackets l = true) :
    v.keepsIds l = true := by
  cases l with
  | advance t answer =>
    cases hat : v.threads[t]? with
    | none => simp only [keepsIds, answers, hat]
    | some th =>
      obtain ⟨role, s, a, ops⟩ := th
      cases ops with
      | nil => simp only [keepsIds, answers, hat]
      | cons op rest =>
        obtain ⟨hfresh, hsame⟩ := keepsPackets_advance hat hok
        simp only [keepsIds, answers, hat]
        cases op with
        | initRPCPacket => exact (hfresh rfl).1
        | checkServiceParameter serviceName =>
          exact beq_iff_eq.mpr (Same.of_result (hsame (.inl ⟨serviceName, rfl⟩))).requestId
        | running => exact beq_iff_eq.mpr (Same.of_result (hsame (.inr rfl))).requestId
        | _ => rfl
  | _ => rfl

/-- One operation keeps what the manager has written. -/
theorem Executes.stamp (h : Executes C v s a answer op v' ops)
    (hat : v.threads[t]? = some ⟨role, s, a, op :: rest⟩)
    (hok : v.keepsPackets (.advance t answer) = true) (hmanaged : v.Managed C)
    {c c' : Request} (hc : v.packets[a]? = some c) (hc' : v'.packets[a]? = some c')
    (hsession : c.session = s) (hs : .assigned ∈ c.history → Stamp C.uuid c)
    (hassigned : .assigned ∈ c'.history) : Stamp C.uuid c' := by
  obtain ⟨hfresh, hresult⟩ := keepsPackets_advance hat hok
  have hkeeps := fun hfunction => Same.of_result (hresult hfunction)
  have hpacket : v.packet a = c.packet := packet_eq hc
  cases h with
  | initRPCPacket =>
    obtain rfl := own_eq hc hc'
    exact ⟨congrArg C.uuid hsession.symm, (hfresh rfl).2, List.getLast?_concat⟩
  | @setStatus event requestID sessionID p hfind =>
    obtain rfl := hmanaged.records_own hat hfind
    obtain rfl := own_eq hc hc'
    obtain ⟨hinner, hid, -⟩ := hs hassigned
    constructor
    · exact (RPCPacketManager.updateStatus_innerId _ _ _).trans hinner
    · exact fun heq => hid ((RPCPacketManager.updateStatus_requestId _ _ _).symm.trans heq)
    · simp only [Request.record, List.getLast?_concat, RPCPacketManager.updateStatus_status]
  | setNothing | responseRoom | responseAdd | requestLink | requestAdd | requestSub
  | knownService | terminate =>
    obtain rfl := same_eq hc hc' rfl
    exact hs hassigned
  | addRequest | found | notFound | removeRequest | createResponse | responseFull
  | responseLink | requestRoom | requestFull | emptyService | unknownService | notChecked
  | commit | invoked | missing =>
    obtain rfl := own_eq hc hc'
    exact Stamp.goes hs rfl rfl (.refl _) rfl Act.noConfusion hassigned
  | valid | invalid =>
    obtain rfl := own_eq hc hc'
    exact Stamp.goes hs rfl rfl (hpacket ▸ hkeeps (.inl ⟨_, rfl⟩)) rfl Act.noConfusion hassigned
  | returned | threw | escaped =>
    obtain rfl := own_eq hc hc'
    exact Stamp.goes hs rfl rfl (hpacket ▸ hkeeps (.inr rfl)) rfl Act.noConfusion hassigned

/-- A request keeps the id that it has been given. -/
theorem Executes.requestId (h : Executes C v s a answer op v' ops)
    (hat : v.threads[t]? = some ⟨role, s, a, op :: rest⟩)
    (hok : v.keepsIds (.advance t answer) = true) {c c' : Request}
    (hc : v.packets[a]? = some c) (hc' : v'.packets[a]? = some c')
    (ht : Told ⟨s, a, op :: rest⟩ c) (hassigned : .assigned ∈ c.history) :
    c'.packet.requestId = c.packet.requestId := by
  obtain ⟨-, hchecks, hruns⟩ := keepsIds_advance hat hok
  have hpacket : v.packet a = c.packet := packet_eq hc
  cases h with
  | initRPCPacket =>
    have hbegin := ht.next_after rfl
    have hnot := beginnings_assigned _ hbegin List.getLast?_concat
    rw [List.dropLast_concat] at hnot
    exact absurd hassigned hnot
  | setStatus =>
    rcases record_eq hc hc' with rfl | ⟨-, rfl⟩
    · rfl
    · exact RPCPacketManager.updateStatus_requestId _ _ _
  | setNothing | responseRoom | responseAdd | requestLink | requestAdd | requestSub
  | knownService | terminate =>
    cases hc.symm.trans hc'
    rfl
  | addRequest | found | notFound | removeRequest | createResponse | responseFull
  | responseLink | requestRoom | requestFull | emptyService | unknownService | notChecked
  | commit | invoked | missing =>
    obtain rfl := own_eq hc hc'
    rfl
  | valid | invalid =>
    obtain rfl := own_eq hc hc'
    exact (hchecks _ rfl).trans (congrArg _ hpacket)
  | returned | threw | escaped =>
    obtain rfl := own_eq hc hc'
    exact (hruns rfl).trans (congrArg _ hpacket)

end Executes

section Step

variable {C : Setting} {v v' : RPCServer} {l : RPCLabel}

/-- A request keeps the id that it has been given. -/
theorem Managed.requestId (h : v.Managed C) (hok : v.keepsIds l = true) (hmoves : Moves C v l v')
    {a : Nat} {c : Request} (hc : v.packets[a]? = some c) (hassigned : .assigned ∈ c.history) :
    ∃ c', v'.packets[a]? = some c' ∧ .assigned ∈ c'.history ∧
      c'.packet.requestId = c.packet.requestId := by
  obtain ⟨c', hc', hgrows⟩ := hmoves.grows hc
  refine ⟨c', hc', hgrows.history.mem hassigned, ?_⟩
  obtain rfl | ⟨t, answer, role, s, op, rest, v₁, ops, rfl, hat, hop, hexecutes, hown⟩ :=
    h.packet_cases hmoves hc hc'
  · rfl
  · obtain ⟨c₁, hc₁, hfiled⟩ := fits_of_working h.filed hat List.mem_cons_self hop
    cases hc.symm.trans hc₁
    exact hexecutes.requestId hat hok hc hown hfiled.told hassigned

/-- THE INVARIANT of the stamps: a request that has been given an id has it, its session's id, and
the status recorded last. -/
structure Stamping (C : Setting) (v : RPCServer) : Prop where
  stating : v.Stating C
  stamp : ∀ {a : Nat} {c : Request}, v.packets[a]? = some c → .assigned ∈ c.history →
    Stamp C.uuid c

theorem Stamping.managed (h : v.Stamping C) : v.Managed C := h.stating.managed

theorem Stamping.step (h : v.Stamping C) (hok : v.keepsPackets l = true)
    (hmoves : Moves C v l v') : v'.Stamping C := by
  refine ⟨h.stating.step (keepsIds_of_keepsPackets hok) hmoves, fun {a c'} hc' hassigned => ?_⟩
  cases hc : v.packets[a]? with
  | some c =>
    obtain rfl | ⟨t, answer, role, s, op, rest, v₁, ops, rfl, hat, hop, hexecutes, hown⟩ :=
      h.managed.packet_cases hmoves hc hc'
    · exact h.stamp hc hassigned
    · obtain ⟨c₁, hc₁, hstated⟩ := h.stating.working hat hop
      cases hc.symm.trans hc₁
      exact hexecutes.stamp hat hok h.managed hc hown hstated.filed.told.session (h.stamp hc)
        hassigned
  | none =>
    -- a frame that has just been delivered has no history
    rcases hmoves.history hc' with ⟨c, hbefore, -⟩ | ⟨-, hnew⟩ |
      ⟨_, _, _, _, _, _, _, _, _, c, -, -, -, -, -, hbefore, -⟩
    · cases hc.symm.trans hbefore
    · rw [hnew] at hassigned
      cases hassigned
    · cases hc.symm.trans hbefore

theorem stamping_of_reachable
    (h : (machine C).ReachableBy (fun v l => v.keepsPackets l = true) v) : v.Stamping C := by
  refine h.invariant (fun v hv => ?_)
    fun _ _ _ hstamping hok hstep => hstamping.step hok (moves_of_step hstep)
  refine ⟨stating_of_reachable (.start hv), fun {a c} hc _ => ?_⟩
  obtain ⟨_, _, -, rfl⟩ := hv
  cases hc

/-- An id is given to one request. -/
theorem Managed.distinct (h : v.Managed C) {a b : Nat} {c c' : Request}
    (hc : v.packets[a]? = some c) (hc' : v.packets[b]? = some c')
    (hassigned : .assigned ∈ c.history) (hassigned' : .assigned ∈ c'.history)
    (hid : c.packet.requestId = c'.packet.requestId) : a = b :=
  h.booked.distinct a b _ _ (ledgers_at hc) (ledgers_at hc')
    (List.contains_iff_mem.mpr hassigned) (List.contains_iff_mem.mpr hassigned') hid

/-- What a response says of the request that it answers. -/
structure Truthful (C : Setting) (v : RPCServer) (x : Response) : Prop where
  innerId : x.packet.innerId = C.uuid x.session
  unnamed : x.event = .onDeserializedFailed → x.packet.requestId = ""
  requestId : x.event ≠ .onDeserializedFailed → ∃ c, v.packets[x.request]? = some c ∧
    .assigned ∈ c.history ∧ c.packet.requestId = x.packet.requestId
  status : x.event ≠ .onDeserializedFailed →
    x.packet.status = x.event.status ∧ x.recorded = some x.packet.status

/-- A response that is made says the truth. -/
theorem Stamping.truthful (h : v.Stamping C) {t s a : Nat} {role : Role} {event : RPCEvent}
    {rest : List RPCOp} (hat : v.threads[t]? = some ⟨role, s, a, .createResponse event :: rest⟩)
    {x : Response} (hsession : x.session = s) (hrequest : x.request = a) (hevent : x.event = event)
    (hpacket : x.packet = ResponseDispatcher.response C.serverId (C.uuid s) (v.packet a) event)
    (hrecorded : x.recorded = (v.packets[a]?).bind fun c => c.recorded.getLast?) :
    v.Truthful C x := by
  subst hsession hrequest hevent
  have hstatus : x.packet.status = x.event.status := hpacket ▸ h.stating.status hat _ _
  obtain ⟨c, hc, hstated⟩ := h.stating.working hat rfl
  by_cases hfailed : x.event = .onDeserializedFailed
  · rw [hfailed] at hpacket
    exact ⟨congrArg RPCPacket.innerId hpacket, fun _ => congrArg RPCPacket.requestId hpacket,
      fun hne => absurd hfailed hne, fun hne => absurd hfailed hne⟩
  obtain ⟨hassigned, -⟩ := hstated.created hfailed
  obtain ⟨hinner, -, hrecord⟩ := h.stamp hc hassigned
  rw [response_eq_createReply hfailed, packet_eq hc, RPCPacketFactory.createReply_eq] at hpacket
  have hsession : c.session = x.session := hstated.filed.told.session
  refine ⟨?_, fun heq => absurd heq hfailed, fun _ => ⟨c, hc, hassigned, ?_⟩,
    fun _ => ⟨hstatus, ?_⟩⟩
  · rw [hpacket, ← hsession]
    exact hinner
  · rw [hpacket]
  · rw [hrecorded, hc, hpacket]
    exact hrecord

/-- What a response says stays true. -/
theorem Truthful.step {x : Response} (h : v.Truthful C x) (hmanaged : v.Managed C)
    (hok : v.keepsIds l = true) (hmoves : Moves C v l v') : v'.Truthful C x := by
  refine ⟨h.innerId, h.unnamed, fun hne => ?_, h.status⟩
  obtain ⟨c, hc, hassigned, hid⟩ := h.requestId hne
  obtain ⟨c', hc', hassigned', hid'⟩ := hmanaged.requestId hok hmoves hc hassigned
  exact ⟨c', hc', hassigned', hid'.trans hid⟩

theorem truthful_of_reachable
    (h : (machine C).ReachableBy (fun v l => v.keepsPackets l = true) v) :
    ∀ (r : Nat) x, v.responses[r]? = some x → v.Truthful C x := by
  refine h.invariant_with (I := fun v => ∀ (r : Nat) x, v.responses[r]? = some x → v.Truthful C x)
    (fun s hs => stamping_of_reachable hs) ?_ ?_
  · rintro _ ⟨_, _, -, rfl⟩ r x hx
    cases hx
  · intro v l v' hstamping htruthful hok hstep r x hx
    have hmoves := moves_of_step hstep
    have hids := keepsIds_of_keepsPackets hok
    rcases response_cases hmoves hx with ⟨x, fate, hbefore, rfl⟩ |
      ⟨t, role, s, a, event, rest, answer, rfl, hat, -, hsession, hrequest, hevent, hpacket,
        hrecorded, -⟩
    · obtain ⟨hinner, hunnamed, hid, hstatus⟩ :=
        (htruthful r x hbefore).step hstamping.managed hids hmoves
      exact ⟨hinner, hunnamed, hid, hstatus⟩
    · exact (hstamping.truthful hat hsession hrequest hevent hpacket hrecorded).step
        hstamping.managed hids hmoves

end Step

end RPCServer

end DSFramework.DSRPC
