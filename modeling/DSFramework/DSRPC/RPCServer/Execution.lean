import DSFramework.DSRPC.RPCServer.Statuses

/-!
# Execution

When an execute function is invoked. At most once for a request, since every life has at most one
invocation; and for the right requests, since the gates of `RPCProcessor::OnCommited` and the
hand-over to the pool agree about the service.

They do so only as far as the check function lets them: `Execute` reads the service's name from the
packet again, and a check function that has changed it decides what the task will look up. One that
has changed the id keeps the manager from writing the status, so the response has the status that
the function has left. `unexecuted_of_rewritten_packet` shows what comes of both.
-/

namespace DSFramework.DSRPC

/-- The acts that have to do with the service. -/
def Act.aboutService : Act → Bool
  | .checked _ | .invoked | .missing => true
  | _ => false

/-- The operations that carry the service's name. -/
def RPCOp.namesService : RPCOp → Bool
  | .checkServiceParameter _ | .execute _ => true
  | _ => false

/-- What a request's history says about its service, `known` telling which names are registered. -/
structure Gated (known : String → Bool) (c : Request) : Prop where
  checked : .checked true ∈ c.history →
    c.received.service.isEmpty = false ∧ known c.received.service = true
  invoked : .invoked ∈ c.history → ∃ name, c.serviceName = some name ∧ known name = true
  missing : .missing ∈ c.history → ∃ name, c.serviceName = some name ∧ known name = false

/-- What a carrier and its request's record say about the service. -/
structure Served (known : String → Bool) (k : Call) (c : Request) : Prop where
  told : Told k c
  gated : Gated known c
  unchecked : (∀ result, .checked result ∉ c.history) → c.packet.service = c.received.service
  asked : ∀ name, .checkServiceParameter name ∈ k.ops →
    name = c.received.service ∧ name.isEmpty = false
  taken : ∀ name, .execute name ∈ k.ops → c.serviceName = some name

/-- What comes before what, as far as execution is concerned. -/
theorem beginnings_execution : ∀ h ∈ beginnings, h.count .invoked ≤ 1 ∧
    (.invoked ∈ h → .accepted ∈ h ∧ .checked true ∈ h) ∧
    (.created .onCompleted ∈ h → .returned ∈ h) ∧
    (.invoked ∈ h → .created .onDispatchFailed ∉ h ∧ .created .onServiceEmptyRequest ∉ h ∧
      .created .onServiceNotFound ∉ h ∧ .created .onServiceParameterInvalid ∉ h) := by
  decide +kernel

/-- What there has been and what not where the history has just come to a gate. -/
theorem beginnings_gates : ∀ h ∈ beginnings,
    (h.getLast? = some (.checked false) → .checked true ∉ h ∧ .checked false ∉ h.dropLast) ∧
    (h.getLast? = some .committed → .invoked ∉ h ∧ .missing ∉ h) ∧
    (h.getLast? = some .returned ∨ h.getLast? = some .threw ∨ h.getLast? = some .escaped →
      .checked true ∈ h) := by
  decide +kernel

/-- A request whose check has succeeded is taken on by a worker. -/
theorem lives_checked : ∀ h ∈ lives, .checked true ∈ h → .invoked ∈ h ∨ .missing ∈ h := by
  decide +kernel

/-- A history that grows by something else says the same about the service. -/
theorem Gated.plain {known : String → Bool} {c c' : Request} (h : Gated known c)
    (hreceived : c'.received = c.received) (hname : c'.serviceName = c.serviceName) {acts : Story}
    (hhistory : c'.history = c.history ++ acts)
    (hacts : acts.all (fun act => !act.aboutService) = true) : Gated known c' := by
  have hold : ∀ {act : Act}, act ∈ c'.history → act.aboutService = true → act ∈ c.history := by
    intro act hact habout
    rw [hhistory, List.mem_append] at hact
    apply hact.resolve_right
    intro hmem
    have hplain := List.all_eq_true.mp hacts act hmem
    rw [habout] at hplain
    cases hplain
  exact ⟨fun hmem => hreceived ▸ h.checked (hold hmem rfl),
    fun hmem => hname ▸ h.invoked (hold hmem rfl), fun hmem => hname ▸ h.missing (hold hmem rfl)⟩

/-- One more act, of which the gate is known if it has one. -/
theorem Gated.tells {known : String → Bool} {c c' : Request} (h : Gated known c)
    (hreceived : c'.received = c.received) (hname : c'.serviceName = c.serviceName) {act : Act}
    (hhistory : c'.history = c.history ++ [act])
    (hchecked : act = .checked true →
      c.received.service.isEmpty = false ∧ known c.received.service = true)
    (hinvoked : act = .invoked → ∃ name, c.serviceName = some name ∧ known name = true)
    (hmissing : act = .missing → ∃ name, c.serviceName = some name ∧ known name = false) :
    Gated known c' := by
  constructor <;> rw [hhistory, List.mem_append, List.mem_singleton]
  · rw [hreceived]
    exact Or.rec h.checked fun heq => hchecked heq.symm
  · rw [hname]
    exact Or.rec h.invoked fun heq => hinvoked heq.symm
  · rw [hname]
    exact Or.rec h.missing fun heq => hmissing heq.symm

/-- Behind an operation nothing new names the service. -/
theorem Served.goes {known : String → Bool} {s a : Nat} {op : RPCOp} {rest ops : List RPCOp}
    {c c' : Request} (h : Served known ⟨s, a, op :: rest⟩ c) (ht : Told ⟨s, a, ops ++ rest⟩ c')
    (hg : Gated known c')
    (hu : (∀ result, .checked result ∉ c'.history) → c'.packet.service = c'.received.service)
    (hreceived : c'.received = c.received) (hname : c'.serviceName = c.serviceName)
    (hops : ∀ op ∈ ops, op.namesService = false) : Served known ⟨s, a, ops ++ rest⟩ c' := by
  have hrest : ∀ {op' : RPCOp}, op' ∈ ops ++ rest → op'.namesService = true →
      op' ∈ op :: rest := by
    intro op' hop' hnames
    rcases List.mem_append.mp hop' with hmem | hmem
    · rw [hops op' hmem] at hnames
      cases hnames
    · exact List.mem_cons_of_mem _ hmem
  refine ⟨ht, hg, hu, fun name hmem => ?_, fun name hmem => ?_⟩
  · rw [hreceived]
    exact h.asked name (hrest hmem rfl)
  · rw [hname]
    exact h.taken name (hrest hmem rfl)

/-- An operation that has nothing to do with the service. -/
theorem Served.plain {known : String → Bool} {s a : Nat} {op : RPCOp} {rest ops : List RPCOp}
    {c c' : Request} (h : Served known ⟨s, a, op :: rest⟩ c) (ht : Told ⟨s, a, ops ++ rest⟩ c')
    (hreceived : c'.received = c.received) (hname : c'.serviceName = c.serviceName)
    (hservice : c'.packet.service = c.packet.service) {acts : Story}
    (hhistory : c'.history = c.history ++ acts)
    (hacts : acts.all (fun act => !act.aboutService) = true)
    (hops : ∀ op ∈ ops, op.namesService = false) : Served known ⟨s, a, ops ++ rest⟩ c' := by
  refine h.goes ht (h.gated.plain hreceived hname hhistory hacts) (fun hnone => ?_) hreceived
    hname hops
  rw [hservice, hreceived]
  refine h.unchecked fun result hmem => hnone result ?_
  rw [hhistory]
  exact List.mem_append_left _ hmem

/-- No event's handlers name the service before it is looked at. -/
theorem raise_plain (event : RPCEvent) : ∀ op ∈ raise event, op.namesService = false := by
  cases event <;> decide

namespace RPCServer

open RPCProcessor (registered find subscript registered_of_find registered_subscript
  subscript_registered)

/-- Which services are registered. -/
def known (v : RPCServer) (name : String) : Bool := registered name v.procedures

section Executes

variable {C : Setting} {v v' : RPCServer} {s a : Nat} {answer : Answer} {op : RPCOp}
  {ops : List RPCOp}

theorem Executes.known (h : Executes C v s a answer op v' ops) : v'.known = v.known := by
  cases h with
  | @invoked serviceName | @missing serviceName =>
    exact funext fun name => registered_subscript name serviceName v.procedures
  | initRPCPacket | addRequest | found | notFound | setStatus | setNothing | removeRequest
  | createResponse | responseRoom | responseFull | responseLink | responseAdd | requestRoom
  | requestFull | requestLink | requestAdd | requestSub | emptyService | unknownService
  | knownService | notChecked | terminate | valid | invalid | commit | returned | threw
  | escaped => rfl

/-- One operation keeps what its carrier and its record say about the service. -/
theorem Executes.served (h : Executes C v s a answer op v' ops) {rest : List RPCOp}
    {c c' : Request} (hc : v.packets[a]? = some c) (hc' : v'.packets[a]? = some c')
    (hs : Served v.known ⟨s, a, op :: rest⟩ c) :
    Served v.known ⟨s, a, v.onward a op ops rest⟩ c' := by
  have htold := h.told hc hc' hs.told
  have hpacket : v.packet a = c.packet := packet_eq hc
  cases h with
  | initRPCPacket | addRequest | notFound | removeRequest | responseFull | responseLink =>
    obtain rfl := own_eq hc hc'
    exact hs.plain htold rfl rfl rfl rfl rfl (List.forall_mem_nil _)
  | found | createResponse =>
    obtain rfl := own_eq hc hc'
    exact hs.plain htold rfl rfl rfl rfl rfl (List.forall_mem_singleton.mpr rfl)
  | setStatus =>
    rcases record_eq hc hc' with rfl | ⟨-, rfl⟩
    · exact hs.plain htold rfl rfl rfl (List.append_nil _).symm rfl (List.forall_mem_nil _)
    · exact hs.plain htold rfl rfl (RPCPacketManager.updateStatus_service _ _ _)
        (List.append_nil _).symm rfl (List.forall_mem_nil _)
  | setNothing | responseAdd | requestAdd | requestSub =>
    obtain rfl := same_eq hc hc' rfl
    exact hs.plain htold rfl rfl rfl (List.append_nil _).symm rfl (List.forall_mem_nil _)
  | responseRoom =>
    obtain rfl := same_eq hc hc' rfl
    apply hs.plain htold rfl rfl rfl (List.append_nil _).symm rfl
    intro op hop
    rcases List.mem_pair.mp hop with rfl | rfl <;> rfl
  | requestRoom =>
    obtain rfl := own_eq hc hc'
    exact hs.plain htold rfl rfl rfl rfl rfl (by decide)
  | requestFull | emptyService | unknownService =>
    obtain rfl := own_eq hc hc'
    exact hs.plain htold rfl rfl rfl rfl rfl (raise_plain _)
  | requestLink =>
    obtain rfl := same_eq hc hc' rfl
    refine ⟨htold, hs.gated, hs.unchecked, fun name hmem => ?_, fun name hmem => ?_⟩
    · cases raise_plain .onCommited _ hmem
    · cases raise_plain .onCommited _ hmem
  | knownService hempty hsearch =>
    obtain rfl := same_eq hc hc' rfl
    -- the check function has not been called yet, so the name is still the one received
    have hnext : c'.history ++ [.checked false] ∈ beginnings :=
      htold.next (ending_ne_nil _ (futures_ne_nil rest)) fun f hf =>
        List.mem_append_left _ (mem_after.mpr hf)
    obtain ⟨htrue, hfalse⟩ := (beginnings_gates _ hnext).1 List.getLast?_concat
    have hservice := hs.unchecked fun result hmem => by
      cases result with
      | true => exact htrue (List.mem_append_left _ hmem)
      | false =>
        rw [List.dropLast_concat] at hfalse
        exact hfalse hmem
    refine ⟨htold, hs.gated, hs.unchecked, fun name hmem => ?_, fun name hmem => ?_⟩
    · rcases List.mem_cons.mp hmem with heq | hmem
      · cases heq
        rw [hpacket] at hempty ⊢
        exact ⟨hservice, hempty⟩
      · exact hs.asked name (List.mem_cons_of_mem _ hmem)
    · rcases List.mem_cons.mp hmem with heq | hmem
      · cases heq
      · exact hs.taken name (List.mem_cons_of_mem _ hmem)
  | notChecked | invalid =>
    obtain rfl := own_eq hc hc'
    have hnew : Act.checked false ∈ c.history ++ [.checked false] :=
      List.mem_append_right _ (List.mem_singleton.mpr rfl)
    exact hs.goes htold (hs.gated.tells rfl rfl rfl nofun nofun nofun)
      (fun hnone => absurd hnew (hnone false)) rfl rfl (raise_plain _)
  | terminate =>
    obtain rfl := same_eq hc hc' rfl
    exact hs
  | @valid serviceName functions hfind =>
    obtain rfl := own_eq hc hc'
    have hnew : Act.checked true ∈ c.history ++ [.checked true] :=
      List.mem_append_right _ (List.mem_singleton.mpr rfl)
    obtain ⟨rfl, hempty⟩ := hs.asked serviceName List.mem_cons_self
    have hknown : v.known c.received.service = true := registered_of_find hfind
    exact hs.goes htold (hs.gated.tells rfl rfl rfl (fun _ => ⟨hempty, hknown⟩) nofun nofun)
      (fun hnone => absurd hnew (hnone true)) rfl rfl (List.forall_mem_singleton.mpr rfl)
  | commit =>
    obtain rfl := own_eq hc hc'
    obtain ⟨hinvoked, hmissing⟩ := (beginnings_gates _ htold.beginning).2.1 List.getLast?_concat
    refine ⟨htold, ⟨fun hmem => ?_, fun hmem => absurd hmem hinvoked,
      fun hmem => absurd hmem hmissing⟩, fun hnone => ?_, fun name hmem => ?_, fun name hmem => ?_⟩
    · exact hs.gated.checked (told_before hmem nofun)
    · exact hs.unchecked fun result hmem => hnone result (List.mem_append_left _ hmem)
    · cases List.mem_singleton.mp hmem
    · cases List.mem_singleton.mp hmem
      rfl
  | @invoked serviceName functions hfound =>
    obtain rfl := own_eq hc hc'
    have hname := hs.taken serviceName List.mem_cons_self
    have hknown : v.known serviceName = true := by
      rw [RPCServer.known, ← subscript_registered, hfound]
      rfl
    have hgate : ∃ name, c.serviceName = some name ∧ v.known name = true :=
      ⟨serviceName, hname, hknown⟩
    exact hs.goes htold (hs.gated.tells rfl rfl rfl nofun (fun _ => hgate) nofun)
      (fun hnone => hs.unchecked fun result hmem => hnone result (List.mem_append_left _ hmem))
      rfl rfl (List.forall_mem_singleton.mpr rfl)
  | @missing serviceName hfound =>
    obtain rfl := own_eq hc hc'
    have hname := hs.taken serviceName List.mem_cons_self
    have hknown : v.known serviceName = false := by
      rw [RPCServer.known, ← subscript_registered, hfound]
      rfl
    have hgate : ∃ name, c.serviceName = some name ∧ v.known name = false :=
      ⟨serviceName, hname, hknown⟩
    exact hs.goes htold (hs.gated.tells rfl rfl rfl nofun nofun fun _ => hgate)
      (fun hnone => hs.unchecked fun result hmem => hnone result (List.mem_append_left _ hmem))
      rfl rfl (raise_plain _)
  | returned | threw =>
    obtain rfl := own_eq hc hc'
    -- the packet is the function's now, but the check has been passed long ago
    have hchecked := (beginnings_gates _ htold.beginning).2.2 (by simp)
    exact hs.goes htold (hs.gated.plain rfl rfl rfl rfl)
      (fun hnone => absurd hchecked (hnone true)) rfl rfl (raise_plain _)
  | escaped =>
    obtain rfl := own_eq hc hc'
    have hchecked := (beginnings_gates _ htold.beginning).2.2 (by simp)
    exact hs.goes htold (hs.gated.plain rfl rfl rfl rfl)
      (fun hnone => absurd hchecked (hnone true)) rfl rfl (List.forall_mem_nil _)

end Executes

section Step

variable {C : Setting} {v v' : RPCServer} {l : RPCLabel}

theorem Moves.known (h : Moves C v l v') : v'.known = v.known := by
  cases h with
  | advance _ hexecutes => exact hexecutes.known
  | sendResponse =>
    simp only [send]
    split <;> rfl
  | deliver | takeRequest | takeTask | takeResponse | subtractResponse | completeWrite => rfl

/-- Every request's history is in keeping with the services that are registered. -/
def Serving (v : RPCServer) : Prop :=
  Relay.InOrder Call.holds (Served v.known) (fun c => Over c ∧ Gated v.known c) v.carriers
    v.packets

theorem Serving.step (h : v.Serving) (hmoves : Moves C v l v') : v'.Serving := by
  unfold Serving
  rw [hmoves.known]
  refine inOrder_step h hmoves (fun _ _ hk => hk.told.ordered) ?_ ?_ ?_ ?_ ?_
  · intro t s body _ c hc
    have htold := told_onData C hc
    obtain rfl := List.singleton_inj.mp (List.append_cancel_left hc)
    exact ⟨htold, ⟨nofun, nofun, nofun⟩, fun _ => rfl,
      fun name hmem => Bool.noConfusion (raise_plain _ _ hmem),
      fun name hmem => Bool.noConfusion (raise_plain _ _ hmem)⟩
  · intro s a c hk
    exact ⟨hk.told.taken, hk.gated, hk.unchecked,
      fun name hmem => hk.asked name ((List.mem_cons.mp hmem).resolve_left nofun),
      fun name hmem => hk.taken name ((List.mem_cons.mp hmem).resolve_left nofun)⟩
  · intro t role s a op rest answer v₁ ops c c' _ _ hexecutes hc hc' hk
    exact hexecutes.served hc hc' hk
  · intro t answer _ _ event time
    refine ⟨fun k c hk => ⟨⟨hk.told.ordered, hk.told.session, hk.told.goesOn⟩,
      ⟨hk.gated.checked, hk.gated.invoked, hk.gated.missing⟩, fun hnone => ?_, hk.asked,
      hk.taken⟩, fun c hc => ⟨hc.1, hc.2.checked, hc.2.invoked, hc.2.missing⟩⟩
    exact (RPCPacketManager.updateStatus_service _ _ _).trans (hk.unchecked hnone)
  · exact fun k c hk hnone => ⟨hk.told.over hnone, hk.gated⟩

theorem serving_of_reachable {ok : RPCServer → RPCLabel → Prop}
    (h : (machine C).ReachableBy ok v) : v.Serving :=
  h.invariant (fun _ ⟨_, _, _, hv⟩ => hv ▸ inOrder_new _ _)
    fun _ _ _ hserving _ hstep => hserving.step (moves_of_step hstep)

theorem Serving.gated (h : v.Serving) {a : Nat} {c : Request} (hc : v.packets[a]? = some c) :
    Gated v.known c := by
  rcases h.held_or_done hc with ⟨k, -, -, hserved⟩ | ⟨-, hdone⟩
  · exact hserved.gated
  · exact hdone.2

end Step

/-- Which event a response with one of the four error codes stands for. -/
theorem event_of_error {event : RPCEvent} (h : event.error ∈ [RPCPacketError.serviceBusy,
    .pktEmptyRequest, .serviceNotFound, .serviceIvaildParameters]) :
    event = .onDispatchFailed ∨ event = .onServiceEmptyRequest ∨ event = .onServiceNotFound ∨
      event = .onServiceParameterInvalid := by
  revert h
  cases event <;> decide

/-- The manager gives one event the status `COMPLETED`. -/
theorem event_of_completed {event : RPCEvent} (h : event.status = .completed) :
    event = .onCompleted := by
  revert h
  cases event <;> decide

/-- Execution in every reachable state, for any packets, services and threads. A request's execute
function is invoked at most once. When nobody handles a request and none waits, it has been
invoked if and only if the request was accepted, its service is named and registered, its check
has returned true and has left the name of a registered service in the packet. A request that is
answered with one of the four error codes has none invoked, and one that has its response of
`OnCompleted` has had it return; so has one that has a response of status `COMPLETED`, where
generated ids are fresh and the called functions leave the request's id as it is. -/
theorem execution_of_reachable (C : Setting) {v : RPCServer} (h : (machine C).Reachable v)
    {a : Nat} {c : Request} (hc : v.packets[a]? = some c) :
    c.history.count .invoked ≤ 1 ∧
    (v.Quiet → (.invoked ∈ c.history ↔ .accepted ∈ c.history ∧
      c.received.service.isEmpty = false ∧ v.known c.received.service = true ∧
      .checked true ∈ c.history ∧ ∃ name, c.serviceName = some name ∧ v.known name = true)) ∧
    ∀ (r : Nat) x, v.responses[r]? = some x → x.request = a →
      (x.packet.error ∈ [RPCPacketError.serviceBusy, .pktEmptyRequest, .serviceNotFound,
        .serviceIvaildParameters] → .invoked ∉ c.history) ∧
      (x.event = .onCompleted → .returned ∈ c.history) ∧
      ((machine C).ReachableBy (fun v l => v.keepsIds l = true) v →
        x.packet.status = .completed → .returned ∈ c.history) := by
  have hserving := serving_of_reachable h
  have hbegins := (relayed_of_reachable h).beginning hc
  obtain ⟨honce, hgates, hcompleted, herrors⟩ := beginnings_execution _ hbegins
  have hgated := hserving.gated hc
  refine ⟨honce, fun hquiet => ⟨fun hinvoked => ?_, ?_⟩, fun r x hx hrequest => ?_⟩
  · obtain ⟨haccepted, hchecked⟩ := hgates hinvoked
    obtain ⟨hnamed, hknown⟩ := hgated.checked hchecked
    exact ⟨haccepted, hnamed, hknown, hchecked, hgated.invoked hinvoked⟩
  · rintro ⟨-, -, -, hchecked, name, hname, hknown⟩
    have hover := (done_of_quiet hserving hquiet hc).1
    apply (lives_checked _ hover hchecked).resolve_right
    intro hmissing
    obtain ⟨name', hname', hunknown⟩ := hgated.missing hmissing
    obtain rfl := Option.some.inj (hname.symm.trans hname')
    rw [hknown] at hunknown
    cases hunknown
  · obtain ⟨herror, c', hc', -, hcreated⟩ := answered_of_reachable h r x hx
    rw [hrequest, hc] at hc'
    obtain rfl := Option.some.inj hc'
    have hreturned : x.event = .onCompleted → .returned ∈ c.history :=
      fun hevent => hcompleted (hevent ▸ hcreated)
    refine ⟨fun hmem hinvoked => ?_, hreturned, fun hkeeps hstatus => ?_⟩
    swap
    · rw [status_of_reachable hkeeps r x hx] at hstatus
      exact hreturned (event_of_completed hstatus)
    obtain ⟨hbusy, hempty, hunknown, hinvalid⟩ := herrors hinvoked
    rw [herror] at hmem
    rcases event_of_error hmem with heq | heq | heq | heq
    · exact hbusy (heq ▸ hcreated)
    · exact hempty (heq ▸ hcreated)
    · exact hunknown (heq ▸ hcreated)
    · exact hinvalid (heq ▸ hcreated)

/-- A request is executed. -/
theorem execution_of_reachable_one :
    ∃ v c, (machine (sampleSetting 8 8)).run (new [.io 0, .worker] [("a", 0)])
        (oneRequest { requestId := "id", service := "a" } 15 10 9) = some v ∧
      v.packets[0]? = some c ∧ c.history.contains .invoked = true ∧ c.history.count .invoked ≤ 1 := by
  have hruns : ((machine (sampleSetting 8 8)).run (new [.io 0, .worker] [("a", 0)])
      (oneRequest { requestId := "id", service := "a" } 15 10 9)).any (fun v =>
        (v.packets[0]?).any fun c => c.history.contains .invoked) = true := by decide +kernel
  obtain ⟨v, hrun, hinvoked⟩ := (Option.any_eq_true _ _).mp hruns
  obtain ⟨c, hc, hinvoked⟩ := (Option.any_eq_true _ _).mp hinvoked
  refine ⟨v, c, hrun, hc, hinvoked, ?_⟩
  exact (execution_of_reachable _ (.run (.start ⟨_, _, by decide, rfl⟩) hrun) hc).1

/-- A request for the service `a` whose check function leaves `checked` in the packet and returns
false, in so many operations on the two threads. -/
def oneInvalid (checked : RPCPacket) (submits dispatches : Nat) : List RPCLabel :=
  [.deliver 1 ({ service := "a" } : RPCPacket).internalSerialize] ++
    List.replicate submits (.advance 1 { uid := "id" }) ++ [.take 0] ++
    List.replicate dispatches (.advance 0 { packet := checked, outcome := .returned false })

/-- A check function that changes more than the result. One writes the name of another service,
which is not registered, into the packet and returns true: nothing is executed, although the
request was accepted, its service is registered and its check has returned true. The other writes
another id and `COMPLETED` and returns false: nothing is executed, and a response that is
`COMPLETED` is posted. -/
theorem unexecuted_of_rewritten_packet :
    (¬ ∀ v, (machine (sampleSetting 8 8)).ReachableBy (fun v l => v.checksReturn l = true) v →
      v.Quiet → v.responseQueue.items = [] → v.sending = none →
      ∀ (a : Nat) c, v.packets[a]? = some c → (.invoked ∈ c.history ↔ .accepted ∈ c.history ∧
        c.received.service.isEmpty = false ∧ v.known c.received.service = true ∧
        .checked true ∈ c.history)) ∧
    ¬ ∀ v, (machine (sampleSetting 8 8)).ReachableBy (fun v l => v.checksReturn l = true) v →
      ∀ (a r : Nat) c x, v.packets[a]? = some c → v.responses[r]? = some x → x.request = a →
        (x.session, r) ∈ v.posts → x.packet.status = .completed → .returned ∈ c.history := by
  refine ⟨fun h => ?_, fun h => ?_⟩
  · have hruns : ((machine (sampleSetting 8 8)).run (new [.io 0, .worker] [("a", 0)])
        (oneRequest { requestId := "id", service := "b" } 15 10 8 ++ sendResponses 4)).any
        (fun v => v.Quiet ∧ v.responseQueue.items = [] ∧ v.sending = none ∧
          (v.packets[0]?).any fun c => .invoked ∉ c.history ∧ .accepted ∈ c.history ∧
            c.received.service.isEmpty = false ∧ v.known c.received.service = true ∧
            .checked true ∈ c.history) = true := by
      decide +kernel
    obtain ⟨v, hrun, hv⟩ := (Option.any_eq_true _ _).mp hruns
    obtain ⟨hquiet, hqueue, hsending, hc⟩ := of_decide_eq_true hv
    obtain ⟨c, hc, hfacts⟩ := (Option.any_eq_true _ _).mp hc
    obtain ⟨hnot, hgates⟩ := of_decide_eq_true hfacts
    have hreach : (machine (sampleSetting 8 8)).ReachableBy
        (fun v l => v.checksReturn l = true) v :=
      .run (fun _ _ hok => hok) (.start ⟨_, _, by decide, rfl⟩) (by decide +kernel) hrun
    exact hnot ((h v hreach hquiet hqueue hsending 0 c hc).mpr hgates)
  · have hruns : ((machine (sampleSetting 8 8)).run (new [.io 0, .worker] [("a", 0)])
        (oneInvalid { requestId := "other", service := "a", status := .completed } 15 15)).any
        (fun v => (v.packets[0]?).any fun c => (v.responses[3]?).any fun x => x.request = 0 ∧
          (x.session, 3) ∈ v.posts ∧ x.packet.status = .completed ∧
          .returned ∉ c.history) = true := by
      decide +kernel
    obtain ⟨v, hrun, hv⟩ := (Option.any_eq_true _ _).mp hruns
    obtain ⟨c, hc, hv⟩ := (Option.any_eq_true _ _).mp hv
    obtain ⟨x, hx, hfacts⟩ := (Option.any_eq_true _ _).mp hv
    obtain ⟨hrequest, hposted, hstatus, hnot⟩ := of_decide_eq_true hfacts
    have hreach : (machine (sampleSetting 8 8)).ReachableBy
        (fun v l => v.checksReturn l = true) v :=
      .run (fun _ _ hok => hok) (.start ⟨_, _, by decide, rfl⟩) (by decide +kernel) hrun
    exact hnot (h v hreach 0 3 c x hc hx hrequest hposted hstatus)

end RPCServer

end DSFramework.DSRPC
