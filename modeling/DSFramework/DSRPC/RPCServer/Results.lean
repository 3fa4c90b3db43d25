import DSFramework.DSRPC.RPCServer.Execution
import DSFramework.DSRPC.RPCServer.Posting
import DSFramework.DSRPC.RPCServer.Replies

/-!
# What a completed request was computed to

A service has a contract: what its check function asks of the parameters, and what its execute
function leaves in a packet that has been checked. Between the check and the execution, and between
the execution's return and the response of `OnCompleted`, the manager handles events, and other
threads do anything; what was checked has to be what is executed, and the result has to survive.

`Computed` says it of a record: once the check has returned true the received parameters meet the
received service's precondition, and once the execute function has returned the result in the packet
meets its postcondition. What comes after a return is read off the lives of requests.
-/

namespace DSFramework.DSRPC

/-- The contracts of services, by their names: what the check asks of the parameters of a call, and
what the execution makes of such parameters. -/
structure Contract where
  pre (service : String) (parameters : Option AnyMessage) : Prop
  post (service : String) (parameters result : Option AnyMessage) : Prop

/-- What a client sends and the execute function gets. -/
def RPCPacket.asked (packet : RPCPacket) : String × Option AnyMessage :=
  (packet.service, packet.parameters)

theorem preserves_asked : Preserves RPCPacket.asked where
  init _ _ _ _ := rfl
  update status currentTime packet := by
    obtain ⟨_, _, _, _, _, heq⟩ := RPCPacketManager.updateStatus_eq status currentTime packet
    rw [heq]
    rfl

/-- No check and no second end of the execute function comes after its return; what returns has been
checked and invoked. -/
theorem beginnings_returned : ∀ h ∈ beginnings,
    (h.getLast? = some (.checked true) → .returned ∉ h) ∧
    (h.getLast? = some (.checked false) → .returned ∉ h) ∧
    (h.getLast? = some .threw → .returned ∉ h) ∧
    (h.getLast? = some .escaped → .returned ∉ h) ∧
    (h.getLast? = some .returned → .invoked ∈ h ∧ .checked true ∈ h) := by
  decide +kernel

theorem beginnings_invoked : ∀ h ∈ beginnings, .returned ∈ h → .invoked ∈ h := by
  decide +kernel

/-- THE INVARIANT of a record: the name that is looked up is the received one, parameters that have
been checked meet the precondition, and a result that the execute function has left meets the
postcondition. -/
structure Computed (P : Contract) (c : Request) : Prop where
  named : ∀ name, c.serviceName = some name → name = c.received.service
  checked : .checked true ∈ c.history → P.pre c.received.service c.received.parameters
  result : .returned ∈ c.history →
    P.post c.received.service c.received.parameters c.packet.result

/-- Something is told of it that is neither a good check nor a return, and its packet keeps its
result. -/
theorem Computed.tells {P : Contract} {c c' : Request} (h : Computed P c) {act : Act}
    (hname : c'.serviceName = c.serviceName) (hreceived : c'.received = c.received)
    (hresult : c'.packet.result = c.packet.result) (hhistory : c'.history = c.history ++ [act])
    (hcheck : .checked true ≠ act) (hact : .returned ≠ act) : Computed P c' where
  named name hsome := by
    rw [hreceived]
    exact h.named name (hname ▸ hsome)
  checked hmem := by
    rw [hreceived]
    exact h.checked (told_before (hhistory ▸ hmem) hcheck)
  result hreturned := by
    rw [hreceived, hresult]
    exact h.result (told_before (hhistory ▸ hreturned) hact)

/-- As long as nothing has returned there is no result to keep. -/
theorem Computed.before {P : Contract} {c c' : Request} (h : Computed P c) {act : Act}
    (hname : c'.serviceName = c.serviceName) (hreceived : c'.received = c.received)
    (hhistory : c'.history = c.history ++ [act]) (hcheck : .checked true ≠ act)
    (hreturned : .returned ∉ c'.history) : Computed P c' where
  named name hsome := by
    rw [hreceived]
    exact h.named name (hname ▸ hsome)
  checked hmem := by
    rw [hreceived]
    exact h.checked (told_before (hhistory ▸ hmem) hcheck)
  result hmem := absurd hmem hreturned

namespace RPCServer

variable {P : Contract} {C : Setting} {v v' : RPCServer} {l : RPCLabel}

/-- What an operation that calls a function of a service has to keep to: a check returns true only
of parameters that meet the precondition, and where an execution returns and these do, its result
meets the postcondition. -/
def promised (P : Contract) (v : RPCServer) (a : Nat) (answer : Answer) : RPCOp → Prop
  | .checkServiceParameter serviceName =>
    answer.outcome = .returned true → P.pre serviceName (v.packet a).parameters
  | .running => answer.outcome.isReturn = true → ∀ c name, v.packets[a]? = some c →
    c.serviceName = some name → P.pre name c.packet.parameters →
      P.post name c.packet.parameters answer.packet.result
  | _ => True

/-- The environment in which called functions keep to their contracts, by the names under which they
were looked up. -/
def promises (P : Contract) (v : RPCServer) : RPCLabel → Prop
  | .advance t answer => ∀ role s a op rest, v.threads[t]? = some ⟨role, s, a, op :: rest⟩ →
    v.promised P a answer op
  | _ => True

/-- The environment that changes at most the result leaves everything else. -/
theorem leaves_of_keepsPackets {β : Type} [DecidableEq β] {field : RPCPacket → β}
    (hfield : ∀ packet result, field { packet with result := result } = field packet)
    (h : v.keepsPackets l = true) : v.leaves field l = true := by
  cases l with
  | advance t answer =>
    cases hat : v.threads[t]? with
    | none => simp only [leaves, answers, hat]
    | some th =>
      obtain ⟨role, s, a, ops⟩ := th
      cases ops with
      | nil => simp only [leaves, answers, hat]
      | cons op rest =>
        obtain ⟨-, hsame⟩ := keepsPackets_advance hat h
        have hkept : ((∃ serviceName, op = .checkServiceParameter serviceName) ∨ op = .running) →
            field answer.packet = field (v.packet a) := by
          intro hop
          rw [hsame hop]
          exact hfield _ _
        simp only [leaves, answers, hat]
        cases op with
        | checkServiceParameter serviceName =>
          exact decide_eq_true (hkept (.inl ⟨serviceName, rfl⟩))
        | running => exact decide_eq_true (hkept (.inr rfl))
        | _ => rfl
  | _ => rfl

/-- Every record is as it should be. -/
def AllComputed (P : Contract) (v : RPCServer) : Prop :=
  ∀ (a : Nat) c, v.packets[a]? = some c → Computed P c

/-- One record changes. -/
theorem AllComputed.modify (h : v.AllComputed P)
    (hbegins : ∀ (a : Nat) c, v'.packets[a]? = some c → c.history ∈ beginnings) {p : Nat}
    {f : Request → Request} (hpackets : v'.packets = v.packets.modify p f)
    (hf : ∀ c, v.packets[p]? = some c → (f c).history ∈ beginnings → Computed P c →
      Computed P (f c)) : v'.AllComputed P := by
  intro a c' hc'
  have hbegin := hbegins a c' hc'
  rw [hpackets, List.getElem?_modify] at hc'
  obtain ⟨c, hc, rfl⟩ := Option.map_eq_some_iff.mp hc'
  split
  case isTrue heq =>
    subst heq
    rw [if_pos rfl] at hbegin
    exact hf c hc hbegin (h p c hc)
  case isFalse => exact h a c hc

/-- One operation keeps the records as they should be. -/
theorem Executes.computed {t s a : Nat} {role : Role} {op : RPCOp} {rest ops : List RPCOp}
    {answer : Answer} (h : Executes C v s a answer op v' ops)
    (hat : v.threads[t]? = some ⟨role, s, a, op :: rest⟩)
    (hbegins : ∀ (a : Nat) c, v'.packets[a]? = some c → c.history ∈ beginnings)
    (hserving : v.Serving) (hkept : v.Kept RPCPacket.asked)
    (hpromises : v.promises P (.advance t answer)) (hall : v.AllComputed P) :
    v'.AllComputed P := by
  have hpromised := hpromises role s a op rest hat
  cases h with
  | setNothing | responseRoom | responseAdd | requestLink | requestAdd | requestSub
  | knownService | terminate => exact hall
  | initRPCPacket | addRequest | found | notFound | removeRequest | createResponse | responseFull
  | responseLink | requestRoom | requestFull | emptyService | unknownService | notChecked
  | invoked | missing =>
    exact hall.modify hbegins rfl fun c _ _ hc =>
      hc.tells rfl rfl rfl rfl (by simp) Act.noConfusion
  | setStatus =>
    refine hall.modify hbegins rfl fun c _ _ hc => ⟨hc.named, hc.checked, fun hreturned => ?_⟩
    obtain ⟨_, _, _, _, _, heq⟩ := RPCPacketManager.updateStatus_eq _ answer.time c.packet
    rw [Request.record, heq]
    exact hc.result hreturned
  | @valid serviceName functions hfind houtcome =>
    refine hall.modify hbegins rfl fun c hc hbegin hcomputed => ⟨hcomputed.named, fun _ => ?_,
      fun hmem => absurd hmem ((beginnings_returned _ hbegin).1 List.getLast?_concat)⟩
    obtain ⟨c', hc', hserved⟩ := fits_of_working hserving hat List.mem_cons_self rfl
    cases hc.symm.trans hc'
    have hpre := hpromised houtcome
    have hparameters : c.packet.parameters = c.received.parameters :=
      congrArg Prod.snd (hkept a c hc)
    rwa [packet_eq hc, hparameters, (hserved.asked serviceName List.mem_cons_self).1] at hpre
  | invalid =>
    refine hall.modify hbegins rfl fun c _ hbegin hc => hc.before rfl rfl rfl (by simp) ?_
    exact (beginnings_returned _ hbegin).2.1 List.getLast?_concat
  | threw =>
    refine hall.modify hbegins rfl fun c _ hbegin hc => hc.before rfl rfl rfl Act.noConfusion ?_
    exact (beginnings_returned _ hbegin).2.2.1 List.getLast?_concat
  | escaped =>
    refine hall.modify hbegins rfl fun c _ hbegin hc => hc.before rfl rfl rfl Act.noConfusion ?_
    exact (beginnings_returned _ hbegin).2.2.2.1 List.getLast?_concat
  | commit =>
    refine hall.modify hbegins rfl fun c hc _ hcomputed => ⟨?_, fun hmem => ?_, fun hreturned => ?_⟩
    · rintro name ⟨⟩
      rw [packet_eq hc]
      exact congrArg Prod.fst (hkept a c hc)
    · exact hcomputed.checked (told_before hmem Act.noConfusion)
    · exact hcomputed.result (told_before hreturned Act.noConfusion)
  | returned houtcome =>
    refine hall.modify hbegins rfl fun c hc hbegin hcomputed => ⟨hcomputed.named, fun hmem => ?_,
      fun _ => ?_⟩
    · exact hcomputed.checked (told_before hmem Act.noConfusion)
    · obtain ⟨hinvoked, hchecked⟩ := (beginnings_returned _ hbegin).2.2.2.2 List.getLast?_concat
      obtain ⟨name, hname, -⟩ :=
        (hserving.gated hc).invoked (told_before hinvoked Act.noConfusion)
      have hpre := hcomputed.checked (told_before hchecked Act.noConfusion)
      have hparameters : c.packet.parameters = c.received.parameters :=
        congrArg Prod.snd (hkept a c hc)
      have hpost := hpromised (by rw [houtcome]; rfl) c name hc hname
      rw [hcomputed.named name hname, hparameters] at hpost
      exact hpost hpre

theorem AllComputed.step (h : v.AllComputed P) (hrelayed : v'.Relayed) (hserving : v.Serving)
    (hkept : v.Kept RPCPacket.asked) (hpromises : v.promises P l) (hmoves : Moves C v l v') :
    v'.AllComputed P := by
  have hbegins : ∀ (a : Nat) c, v'.packets[a]? = some c → c.history ∈ beginnings :=
    fun a c hc => hrelayed.beginning hc
  cases hmoves with
  | @deliver t s s₀ a₀ body =>
    intro a c hc
    rcases Nat.lt_or_ge a v.packets.length with hlt | hge
    · apply h a c
      simpa only [onData, List.getElem?_append_left hlt] using hc
    · simp only [onData, List.getElem?_append_right hge, List.getElem?_singleton] at hc
      split at hc
      · cases hc
        constructor
        · intro name hname
          cases hname
        · exact fun hmem => absurd hmem List.not_mem_nil
        · exact fun hmem => absurd hmem List.not_mem_nil
      · cases hc
  | advance hat hexecutes =>
    have hcomputed := hexecutes.computed hat hbegins hserving hkept hpromises h
    exact hcomputed
  | @sendResponse s r =>
    intro a c hc
    exact h a c ((send_frame C v s r).1 ▸ hc)
  | takeRequest | takeTask | takeResponse | subtractResponse | completeWrite => exact h

/-- Every response of `OnCompleted` is to a request whose parameters, as received, meet the
precondition of its service, and bears a result that meets the postcondition. -/
def Delivers (P : Contract) (v : RPCServer) : Prop :=
  ∀ (r : Nat) x, v.responses[r]? = some x → x.event = .onCompleted →
    ∃ c, v.packets[x.request]? = some c ∧ P.pre c.received.service c.received.parameters ∧
      P.post c.received.service c.received.parameters x.packet.result

theorem Delivers.step (h : v.Delivers P) (hrelayed : v.Relayed) (hall : v.AllComputed P)
    (hmoves : Moves C v l v') : v'.Delivers P := by
  intro r x' hx' hevent
  rcases response_cases hmoves hx' with ⟨x, fate, hx, rfl⟩ |
    ⟨t, role, s, a, event, rest, answer, -, hat, -, -, rfl, rfl, hpacket, -, -⟩
  · obtain ⟨c, hc, hresult⟩ := h r x hx hevent
    obtain ⟨c', hc', hgrows⟩ := hmoves.grows hc
    exact ⟨c', hc', hgrows.received ▸ hresult⟩
  · obtain ⟨c, hc, htold⟩ := hrelayed.working hat rfl
    obtain ⟨c', hc', hgrows⟩ := hmoves.grows hc
    -- the response is made only behind the return
    have hposting : posting x'.event (futures rest) ≠ [] :=
      List.append_ne_nil_of_left_ne_nil (after_ne_nil (futures_ne_nil rest)) _
    have hcreated : c.history ++ [.created x'.event] ∈ beginnings :=
      htold.next hposting fun _ hmem => mem_after.mpr hmem
    have hreturned : .returned ∈ c.history := by
      rw [hevent] at hcreated
      exact told_before ((beginnings_execution _ hcreated).2.2.1
        (List.mem_append_right _ List.mem_cons_self)) Act.noConfusion
    have hchecked := (beginnings_execution _ htold.beginning).2.1
      (beginnings_invoked _ htold.beginning hreturned)
    have hresult : x'.packet.result = c.packet.result := by
      rw [hpacket, hevent, packet_eq hc, response_eq_createReply RPCEvent.noConfusion,
        RPCPacketFactory.createReply_eq]
    refine ⟨c', hc', ?_⟩
    rw [hgrows.received, hresult]
    exact ⟨(hall _ c hc).checked hchecked.2, (hall _ c hc).result hreturned⟩

/-- Whatever else the threads do, where the called functions change at most the result and keep to
their contracts, every response of `OnCompleted` does to what the client had sent. -/
theorem delivers_of_reachable (h : (machine C).ReachableBy
      (fun v l => v.keepsPackets l = true ∧ v.promises P l) v) : v.Delivers P := by
  have hboth : v.AllComputed P ∧ v.Delivers P := by
    refine h.invariant_with (I := fun v => v.AllComputed P ∧ v.Delivers P)
      (J := fun v => v.Relayed ∧ v.Serving ∧ v.Kept RPCPacket.asked) ?_ ?_ ?_
    · intro w hw
      have hkept := repliesTo_of_reachable preserves_asked
        (hw.mono fun _ _ hok => leaves_of_keepsPackets (fun _ _ => rfl) hok.1)
      exact ⟨relayed_of_reachable hw, serving_of_reachable hw, hkept.1⟩
    · rintro _ ⟨_, _, -, rfl⟩
      exact ⟨fun _ _ hc => (nomatch hc), fun _ _ hx => (nomatch hx)⟩
    · rintro w l w' ⟨hrelayed, hserving, hkept⟩ ⟨hall, hdelivers⟩ hok hstep
      have hmoves := moves_of_step hstep
      exact ⟨hall.step (hrelayed.step hmoves) hserving hkept hok.2 hmoves,
        hdelivers.step hrelayed hall hmoves⟩
  exact hboth.2

end RPCServer

end DSFramework.DSRPC
