import DSFramework.DSRPC.RPCServer.Posting

/-!
# Who owns a live request

A request that the manager knows is in one place at a time, and nobody but the thread that has it in
hand looks at its packet. `accesses` says generously what a step may read or write: the packet of
the thread's request in every operation about it, and also behind a handler's `Push`, where
`OnCompleted` still logs the request's id; and the packet that `UpdateRequestStatus` changes.
`step_update` shows that a step is blind to everything else.
-/

namespace DSFramework.DSRPC

open DSCommunication (Writer)

/-- Where a request can be. -/
inductive Place where
  | session (thread : Nat)
  | requestQueue (position : Nat)
  | dispatcher (thread : Nat)
  | taskQueue (position : Nat)
  | worker (thread : Nat)
  deriving DecidableEq, Repr

/-- The place of a request that thread `t` has in hand. -/
def Role.place (t : Nat) : Role → Place
  | .io _ => .session t
  | .requestDispatcher => .dispatcher t
  | .worker => .worker t

namespace RPCServer

/-- What thread `t` has in hand, if `p` is the place that it stands for. -/
def handledAt (v : RPCServer) (t : Nat) (p : Place) : Option Nat :=
  (v.threads[t]?).bind fun th => if th.role.place t = p then th.call.holds else none

/-- The request at a place. -/
def requestAt (v : RPCServer) : Place → Option Nat
  | .session t => v.handledAt t (.session t)
  | .requestQueue i => (v.requestQueue.items[i]?).map Prod.snd
  | .dispatcher t => v.handledAt t (.dispatcher t)
  | .taskQueue i => (v.tasks[i]?).map fun task => task.2.2
  | .worker t => v.handledAt t (.worker t)

/-- The packet that the second half of `UpdateRequestStatus` changes. -/
def recorded (v : RPCServer) : RPCOp → List Nat
  | .setStatus _ requestID =>
    ((RPCPacketManager.findRequest requestID v.requests).map Prod.snd).toList
  | _ => []

/-- The requests whose packets a step may read or write. -/
def accesses (v : RPCServer) : RPCLabel → List Nat
  | .advance t _ => match v.threads[t]? with
    | some ⟨_, _, a, op :: _⟩ =>
      (if op.concerns || op == .responseAdd then [a] else []) ++ v.recorded op
    | _ => []
  | _ => []

/-- The step is one of the thread that handles requests at the place. -/
def actsAt (v : RPCServer) (p : Place) : RPCLabel → Bool
  | .advance t _ => (v.threads[t]?).any fun th => th.role.place t == p
  | _ => false

/-! ## What a step is blind to -/

section Blind

variable {C : Setting} {v : RPCServer} {s a b : Nat} {f : Request → Request} {answer : Answer}

theorem packet_update (hab : a ≠ b) : (v.update b f).packet a = v.packet a := by
  simp only [packet, update, List.getElem?_modify_ne _ _ (Ne.symm hab)]

theorem update_update (hab : a ≠ b) (g : Request → Request) :
    (v.update b f).update a g = (v.update a g).update b f := by
  simp only [update, List.modify_modify_ne _ _ _ (Ne.symm hab)]

theorem tell_update (hab : a ≠ b) (act : Act) :
    (v.update b f).tell a act = (v.tell a act).update b f :=
  update_update hab _

theorem leave_update (hab : a ≠ b) (packet : RPCPacket) (act : Act) :
    (v.update b f).leave a packet act = (v.leave a packet act).update b f :=
  update_update hab _

/-- An operation does the same whatever is in a packet that it does not access, and leaves that
packet alone. -/
theorem exec_update {op : RPCOp} (hown : op.concerns = true ∨ op = .responseAdd → a ≠ b)
    (hrecorded : b ∉ v.recorded op) : (v.update b f).exec C s a answer op =
      ((v.exec C s a answer op).1.update b f, (v.exec C s a answer op).2) := by
  cases op with
  | requestAdd | requestSub => rfl
  | responseAdd => rfl
  | initRPCPacket => exact Prod.ext (update_update (hown (.inl rfl)) _) rfl
  | responseLink event r =>
    simp only [exec, responseLink, tell_update (hown (.inl rfl))]
    rfl
  | requestLink => rfl
  | addRequest =>
    simp only [exec, addRequest, packet_update (hown (.inl rfl)), tell_update (hown (.inl rfl))]
    rfl
  | findRequest event =>
    simp only [exec, findRequest, packet_update (hown (.inl rfl)), tell_update (hown (.inl rfl))]
    rfl
  | setStatus event requestID =>
    simp only [exec, setStatus, recorded] at hrecorded ⊢
    cases hfind : RPCPacketManager.findRequest requestID v.requests with
    | none =>
      have hfind' : RPCPacketManager.findRequest requestID (v.update b f).requests = none := hfind
      rw [hfind']
    | some entry =>
      have hfind' : RPCPacketManager.findRequest requestID (v.update b f).requests = some entry :=
        hfind
      rw [hfind']
      have hne : entry.2 ≠ b := by
        rintro rfl
        simp [hfind] at hrecorded
      exact Prod.ext (update_update hne _) rfl
  | removeRequest event =>
    simp only [exec, removeRequest, packet_update (hown (.inl rfl)),
      tell_update (hown (.inl rfl))]
    rfl
  | createResponse event =>
    have hab : a ≠ b := hown (.inl rfl)
    have hat : (v.update b f).packets[a]? = v.packets[a]? :=
      List.getElem?_modify_ne _ _ (Ne.symm hab)
    simp only [exec, createResponse, packet_update hab, tell_update hab, hat]
    rfl
  | responseSize event r =>
    have hqueue : (v.update b f).responseQueue = v.responseQueue := rfl
    simp only [exec, responseSize, tell_update (hown (.inl rfl)), hqueue]
    cases v.responseQueue.hasRoom C.maxResponsePaddingCount <;> rfl
  | requestSize =>
    have hqueue : (v.update b f).requestQueue = v.requestQueue := rfl
    simp only [exec, requestSize, tell_update (hown (.inl rfl)), hqueue]
    cases v.requestQueue.hasRoom C.maxRequestPaddingCount <;> rfl
  | processorOnCommited =>
    have hab : a ≠ b := hown (.inl rfl)
    have htable : (v.update b f).procedures = v.procedures := rfl
    simp only [exec, processorOnCommited, packet_update hab, tell_update hab, htable]
    cases (v.packet a).service.isEmpty
    · cases RPCProcessor.searchService (v.packet a).service v.procedures <;> rfl
    · rfl
  | checkServiceParameter serviceName =>
    have hab : a ≠ b := hown (.inl rfl)
    have htable : (v.update b f).procedures = v.procedures := rfl
    simp only [exec, checkServiceParameter, leave_update hab, tell_update hab, htable]
    rcases RPCProcessor.find serviceName v.procedures with - | - | functions
    · rfl
    · rfl
    · rcases answer.outcome with (- | -) | - | - <;> rfl
  | commit =>
    have hab : a ≠ b := hown (.inl rfl)
    simp only [exec, commit, packet_update hab, update_update hab]
    rfl
  | execute serviceName =>
    have htable : (v.update b f).procedures = v.procedures := rfl
    simp only [exec, execute, tell_update (hown (.inl rfl)), htable]
    cases (RPCProcessor.subscript serviceName v.procedures).2 <;> rfl
  | running =>
    simp only [exec, running, leave_update (hown (.inl rfl))]
    cases answer.outcome <;> rfl

/-- A frame that is delivered comes behind the packets that are there. -/
theorem onData_update {t : Nat} {body : List UInt8} (hb : b < v.packets.length) :
    (v.update b f).onData C t s body = (v.onData C t s body).update b f := by
  have happend : ∀ x : Request, v.packets.modify b f ++ [x] = (v.packets ++ [x]).modify b f := by
    intro x
    ext i : 1
    rw [List.getElem?_modify, List.getElem?_append, List.getElem?_append, List.length_modify,
      List.getElem?_modify]
    split
    · rfl
    · have hne : b ≠ i := by omega
      simp only [if_neg hne, Option.map_eq_map, Option.map_id']
  simp only [onData, update, List.length_modify, happend]

/-- WHAT `accesses` SAYS: a step does the same whatever is in a packet that it does not access, and
leaves that packet alone. -/
theorem step_update {l : RPCLabel} (hb : b < v.packets.length) (hnot : b ∉ v.accesses l) :
    step C (v.update b f) l = (step C v l).map fun v' => v'.update b f := by
  have hterminated : (v.update b f).terminated = v.terminated := rfl
  have hthreads : (v.update b f).threads = v.threads := rfl
  unfold step
  rw [hterminated]
  cases v.terminated with
  | true => rfl
  | false =>
    cases l with
    | deliver t body =>
      simp only [hthreads, Bool.false_eq_true, if_false]
      split
      · rw [onData_update hb, Option.map_some]
      · rfl
    | take t =>
      simp only [hthreads, Bool.false_eq_true, if_false]
      rcases v.threads[t]? with - | ⟨role, s, a, - | ⟨op, rest⟩⟩
      · rfl
      · have hqueue : (v.update b f).requestQueue = v.requestQueue := rfl
        have htasks : (v.update b f).tasks = v.tasks := rfl
        cases role with
        | io s => rfl
        | requestDispatcher =>
          simp only [Option.bind_some, take, hqueue]
          cases v.requestQueue.items <;> rfl
        | worker =>
          simp only [Option.bind_some, take, htasks]
          cases v.tasks <;> rfl
      · cases role <;> rfl
    | advance t answer =>
      simp only [accesses] at hnot
      simp only [hthreads, Bool.false_eq_true, if_false]
      rcases hat : v.threads[t]? with - | ⟨role, s, a, - | ⟨op, rest⟩⟩
      · rfl
      · rfl
      · simp only [hat, List.mem_append, not_or] at hnot
        have hown : op.concerns = true ∨ op = .responseAdd → a ≠ b := by
          rintro hop rfl
          have hacc : (op.concerns || op == .responseAdd) = true := by
            rw [Bool.or_eq_true, beq_iff_eq]
            exact hop
          simp only [hacc, if_true, List.mem_singleton, not_true_eq_false, false_and] at hnot
        simp only [Option.bind_some, advance, exec_update hown hnot.2]
        rfl
    | takeResponse =>
      have hqueue : (v.update b f).responseQueue = v.responseQueue := rfl
      have hsending : (v.update b f).sending = v.sending := rfl
      simp only [Bool.false_eq_true, if_false, hqueue, hsending]
      cases v.sending with
      | none => cases v.responseQueue.items <;> rfl
      | some sending => rfl
    | subtractResponse =>
      have hsending : (v.update b f).sending = v.sending := rfl
      simp only [Bool.false_eq_true, if_false, hsending]
      rcases v.sending with - | ⟨s, r, - | -⟩ <;> rfl
    | sendResponse =>
      have hsending : (v.update b f).sending = v.sending := rfl
      simp only [Bool.false_eq_true, if_false, hsending]
      rcases v.sending with - | ⟨s, r, - | -⟩
      · rfl
      · rfl
      · have hresponses : (v.update b f).responses = v.responses := rfl
        simp only [send, hresponses, Option.map_some]
        cases (v.responses[r]?).bind fun x => C.serialize x.packet <;> rfl
    | completeWrite s position success =>
      have hwriters : (v.update b f).writers = v.writers := rfl
      simp only [Bool.false_eq_true, if_false, hwriters]
      cases (Writer.machine C.endian).step (v.writers s) (.complete position success) <;> rfl

end Blind

/-! ## The places -/

section Places

variable {v : RPCServer} {a b : Nat} {p q : Place}

/-- Where a place's carrier is among all carriers. -/
def carrierIndex (v : RPCServer) : Place → Nat
  | .session t | .dispatcher t | .worker t => t
  | .requestQueue i => v.threads.length + i
  | .taskQueue i => v.threads.length + (v.requestQueue.items.length + i)

/-- The place of the carrier at an index. -/
def placeAt (v : RPCServer) (i : Nat) : Option Place :=
  match v.threads[i]? with
  | some th => some (th.role.place i)
  | none =>
    if i - v.threads.length < v.requestQueue.items.length then
      some (.requestQueue (i - v.threads.length))
    else some (.taskQueue (i - v.threads.length - v.requestQueue.items.length))

theorem carrierIndex_place (t : Nat) (role : Role) : v.carrierIndex (role.place t) = t := by
  cases role <;> rfl

/-- A request at a place is in a thread's hands or in one of the queues. -/
theorem requestAt_cases (h : v.requestAt p = some a) :
    (∃ (t : Nat) (th : RPCThread), v.threads[t]? = some th ∧ p = th.role.place t ∧
      th.call.holds = some a) ∨
    (∃ (i : Nat) (s : Nat), v.requestQueue.items[i]? = some (s, a) ∧ p = .requestQueue i) ∨
    ∃ (i : Nat) (name : String) (s : Nat), v.tasks[i]? = some (name, s, a) ∧
      p = .taskQueue i := by
  have hhandled : ∀ {t : Nat} {p : Place}, v.handledAt t p = some a →
      ∃ (t : Nat) (th : RPCThread), v.threads[t]? = some th ∧ p = th.role.place t ∧
        th.call.holds = some a := by
    intro t p h
    obtain ⟨th, hat, h⟩ := Option.bind_eq_some_iff.mp h
    split at h
    case isTrue hplace => exact ⟨t, th, hat, hplace.symm, h⟩
    case isFalse => cases h
  cases p with
  | session t | dispatcher t | worker t => exact .inl (hhandled h)
  | requestQueue i =>
    obtain ⟨⟨s, a⟩, hitem, rfl⟩ := Option.map_eq_some_iff.mp h
    exact .inr (.inl ⟨i, s, hitem, rfl⟩)
  | taskQueue i =>
    obtain ⟨⟨name, s, a⟩, htask, rfl⟩ := Option.map_eq_some_iff.mp h
    exact .inr (.inr ⟨i, name, s, htask, rfl⟩)

theorem requestAt_place {t : Nat} {th : RPCThread} (hat : v.threads[t]? = some th)
    (hholds : th.call.holds = some a) : v.requestAt (th.role.place t) = some a := by
  cases hrole : th.role <;>
    simp only [Role.place, requestAt, handledAt, hat, Option.bind_some, hrole, if_true, hholds]

/-- The carrier at a place. -/
theorem carrier_of_requestAt (h : v.requestAt p = some a) :
    ∃ k, v.carriers[v.carrierIndex p]? = some k ∧ k.holds = some a := by
  rcases requestAt_cases h with ⟨t, th, hat, rfl, hholds⟩ | ⟨i, s, hitem, rfl⟩ |
    ⟨i, name, s, htask, rfl⟩
  · refine ⟨th.call, ?_, hholds⟩
    rw [carrierIndex_place]
    exact carriers_at hat
  · refine ⟨dispatchCall (s, a), ?_, rfl⟩
    have hlt : i < (v.requestQueue.items.map dispatchCall).length := by
      rw [List.length_map]
      exact (List.getElem?_eq_some_iff.mp hitem).1
    simp only [carrierIndex, carriers, queued]
    rw [List.getElem?_append_right (by rw [List.length_map]; omega), List.length_map,
      Nat.add_sub_cancel_left, List.getElem?_append_left hlt, List.getElem?_map, hitem,
      Option.map_some]
  · refine ⟨taskCall (name, s, a), ?_, rfl⟩
    simp only [carrierIndex, carriers, queued]
    rw [List.getElem?_append_right (by rw [List.length_map]; omega), List.length_map,
      Nat.add_sub_cancel_left, List.getElem?_append_right (by rw [List.length_map]; omega),
      List.length_map, Nat.add_sub_cancel_left, List.getElem?_map, htask, Option.map_some]

/-- A place is known by where its carrier is. -/
theorem placeAt_carrierIndex (h : v.requestAt p = some a) :
    v.placeAt (v.carrierIndex p) = some p := by
  rcases requestAt_cases h with ⟨t, th, hat, rfl, -⟩ | ⟨i, s, hitem, rfl⟩ | ⟨i, name, s, -, rfl⟩
  · rw [carrierIndex_place, placeAt, hat]
  · have hnone : v.threads[v.threads.length + i]? = none :=
      List.getElem?_eq_none (Nat.le_add_right _ _)
    have hlt := (List.getElem?_eq_some_iff.mp hitem).1
    simp only [carrierIndex, placeAt, hnone, Nat.add_sub_cancel_left, if_pos hlt]
  · have hnone : v.threads[v.threads.length + (v.requestQueue.items.length + i)]? = none :=
      List.getElem?_eq_none (Nat.le_add_right _ _)
    have hge : ¬ v.requestQueue.items.length + i < v.requestQueue.items.length := by omega
    simp only [carrierIndex, placeAt, hnone, Nat.add_sub_cancel_left, if_neg hge]

/-- Whoever carries a request is at a place. -/
theorem exists_place {k : Call} (hk : k ∈ v.carriers) (hholds : k.holds = some a) :
    ∃ p, v.requestAt p = some a := by
  rcases List.mem_append.mp hk with hmem | hmem
  · obtain ⟨th, hth, rfl⟩ := List.mem_map.mp hmem
    obtain ⟨t, hat⟩ := List.mem_iff_getElem?.mp hth
    exact ⟨_, requestAt_place hat hholds⟩
  · rcases List.mem_append.mp hmem with hmem | hmem
    · obtain ⟨⟨s, b⟩, hitem, rfl⟩ := List.mem_map.mp hmem
      obtain ⟨i, hi⟩ := List.mem_iff_getElem?.mp hitem
      cases Call.request_of_holds hholds
      exact ⟨.requestQueue i, by simp only [requestAt, hi, Option.map_some, dispatchCall]⟩
    · obtain ⟨⟨name, s, b⟩, htask, rfl⟩ := List.mem_map.mp hmem
      obtain ⟨i, hi⟩ := List.mem_iff_getElem?.mp htask
      cases Call.request_of_holds hholds
      exact ⟨.taskQueue i, by simp only [requestAt, hi, Option.map_some, taskCall]⟩

end Places

end RPCServer

/-! ## Behind a handler's `Push` -/

/-- No response is still to be counted behind an operation that closes the request. -/
def CountsFirst (ops : List RPCOp) : Prop :=
  ops.Pairwise fun op op' => op.closes = true → op' ≠ .responseAdd

instance (ops : List RPCOp) : Decidable (CountsFirst ops) := by
  unfold CountsFirst
  infer_instance

/-- The manager has forgotten the request, or has never known it. -/
def forgotten (story : Story) : Bool :=
  story.any Act.removes || story.contains (.created .onDeserializedFailed)

theorem countsFirst_raise (event : RPCEvent) :
    CountsFirst (raise event) ∧ RPCOp.responseAdd ∉ raise event := by
  cases event <;> decide

/-- A complete life has been forgotten, if nothing has escaped. -/
theorem lives_forgotten : ∀ h ∈ lives, .escaped ∉ h → forgotten h = true := by
  decide +kernel

theorem beginnings_forgotten : ∀ h ∈ beginnings, forgotten h = true → alive h = false := by
  decide +kernel

theorem forgotten_of_prefix {story story' : Story} (h : forgotten story = true)
    (hbegin : story <+: story') : forgotten story' = true := by
  obtain ⟨rest, rfl⟩ := hbegin
  simp only [forgotten, List.any_append, List.contains_append, Bool.or_eq_true] at h ⊢
  rcases h with h | h
  · exact .inl (.inl h)
  · exact .inr (.inl h)

namespace RPCServer

section Behind

variable {C : Setting} {v v' : RPCServer} {s a : Nat} {answer : Answer} {op : RPCOp}
  {ops rest : List RPCOp} {l : RPCLabel}

/-- What comes of an operation keeps the counting in front. -/
theorem Executes.countsFirst (h : Executes C v s a answer op v' ops)
    (hcounts : CountsFirst (op :: rest)) : CountsFirst (ops ++ rest) := by
  cases h with
  | initRPCPacket | addRequest | notFound | setStatus | setNothing | removeRequest
  | responseFull | responseLink | responseAdd | requestLink | requestAdd | requestSub | commit
  | escaped => exact (List.pairwise_cons.mp hcounts).2
  | found | createResponse =>
    exact pairwise_replace hcounts (List.pairwise_singleton _ _) (.inr rfl)
  | responseRoom =>
    refine pairwise_replace hcounts ?_ (.inr rfl)
    exact List.pairwise_pair.mpr nofun
  | knownService | terminate | valid | invoked =>
    exact pairwise_replace hcounts (List.pairwise_singleton _ _) (.inl rfl)
  | requestRoom => exact pairwise_replace hcounts (by decide) (.inl rfl)
  | requestFull | emptyService | unknownService | notChecked | invalid | missing | returned
  | threw => exact pairwise_replace hcounts (countsFirst_raise _).1 (.inl rfl)

/-- The invariant of the handlers that have posted: whoever has still to count a response and has no
request in hand is done with one that the manager has forgotten. -/
def Behind (v : RPCServer) : Prop :=
  ∀ th ∈ v.threads, CountsFirst th.call.ops ∧
    (.responseAdd ∈ th.call.ops → th.call.holds = none →
      ∃ c, v.packets[th.call.request]? = some c ∧ forgotten c.history = true)

theorem Behind.step (h : v.Behind) (hrelayed : v.Relayed)
    (hreturned : ∀ (a : Nat) c, v'.packets[a]? = some c → .escaped ∉ c.history)
    (hmoves : Moves C v l v') : v'.Behind := by
  have hold : ∀ th ∈ v.threads, CountsFirst th.call.ops ∧
      (.responseAdd ∈ th.call.ops → th.call.holds = none →
        ∃ c, v'.packets[th.call.request]? = some c ∧ forgotten c.history = true) := by
    intro th hth
    refine ⟨(h th hth).1, fun hmem hholds => ?_⟩
    obtain ⟨c, hc, hforgotten⟩ := (h th hth).2 hmem hholds
    obtain ⟨c', hc', hgrows⟩ := hmoves.grows hc
    exact ⟨c', hc', forgotten_of_prefix hforgotten hgrows.history⟩
  intro th hth
  cases hmoves with
  | takeResponse | subtractResponse | completeWrite => exact hold th hth
  | sendResponse =>
    apply hold th
    rwa [(send_frame C v _ _).2.1] at hth
  | deliver =>
    rcases List.mem_or_eq_of_mem_set hth with hmem | rfl
    · exact hold th hmem
    · exact ⟨(countsFirst_raise _).1, fun hmem => absurd hmem (countsFirst_raise _).2⟩
  | takeRequest =>
    rcases List.mem_or_eq_of_mem_set hth with hmem | rfl
    · exact hold th hmem
    · refine ⟨List.pairwise_cons.mpr ⟨nofun, (countsFirst_raise _).1⟩, fun hmem => ?_⟩
      rcases List.mem_cons.mp hmem with heq | hraise
      · cases heq
      · exact absurd hraise (countsFirst_raise _).2
  | takeTask =>
    rcases List.mem_or_eq_of_mem_set hth with hmem | rfl
    · exact hold th hmem
    · exact ⟨List.pairwise_singleton _ _, fun hmem => nomatch List.mem_singleton.mp hmem⟩
  | @advance t s a role op rest ops answer v₁ hat hexecutes =>
    simp only [goto, hexecutes.threads] at hth
    rcases List.mem_or_eq_of_mem_set hth with hmem | rfl
    · exact hold th hmem
    obtain ⟨hcounts, hbehind⟩ := hold _ (List.mem_of_getElem? hat)
    refine ⟨hexecutes.countsFirst hcounts, fun hmem hholds => ?_⟩
    cases hop : op.concerns with
    | false =>
      obtain ⟨-, rfl, -⟩ := hexecutes.idle hop
      apply hbehind (List.mem_cons_of_mem _ hmem)
      simpa only [Call.holds, List.any_cons, hop, Bool.false_or, List.nil_append] using hholds
    | true =>
      obtain ⟨c, hc, htold⟩ := hrelayed.working hat hop
      obtain ⟨c', hc', -⟩ := hexecutes.grows hc
      refine ⟨c', hc', ?_⟩
      have htold' := hexecutes.told hc hc' htold
      rcases hexecutes.onward with ⟨-, honward⟩ | ⟨hcloses, rfl, -⟩
      · rw [honward] at htold'
        exact lives_forgotten _ (htold'.over hholds) (hreturned a c' hc')
      · exact absurd rfl ((List.pairwise_cons.mp hcounts).1 _ hmem hcloses)

theorem behind_of_reachable
    (h : (machine C).ReachableBy (fun v l => v.functionsEnd l = true) v) : v.Behind := by
  have hboth : v.Behind ∧ (machine C).ReachableBy (fun v l => v.functionsEnd l = true) v := by
    refine h.invariant (I := fun v => v.Behind ∧
      (machine C).ReachableBy (fun v l => v.functionsEnd l = true) v) ?_ ?_
    · rintro _ ⟨roles, _, hroles, rfl⟩
      refine ⟨fun th hth => ?_, .start ⟨_, _, hroles, rfl⟩⟩
      obtain ⟨role, -, rfl⟩ := List.mem_map.mp hth
      exact ⟨.nil, nofun⟩
    · intro v l v' ⟨hbehind, hreach⟩ hok hstep
      have hreach' := hreach.next hok hstep
      exact ⟨hbehind.step (relayed_of_reachable hreach) (not_escaped_of_reachable hreach')
        (moves_of_step hstep), hreach'⟩
  exact hboth.1

/-- A packet in the manager's map is accessed by the thread that has it in hand only. -/
theorem Managed.owner_of_access (h : v.Managed C) (hbehind : v.Behind) {id sid : String}
    (hlisted : (id, sid, a) ∈ v.requests) (haccess : a ∈ v.accesses l) :
    ∃ p, v.requestAt p = some a ∧ v.actsAt p l = true := by
  cases l with
  | advance t answer =>
    rcases hat : v.threads[t]? with - | ⟨role, s, b, - | ⟨op, rest⟩⟩
    · simp only [accesses, hat, List.not_mem_nil] at haccess
    · simp only [accesses, hat, List.not_mem_nil] at haccess
    · have hinHand : (Call.mk s b (op :: rest)).holds = some a →
          ∃ p, v.requestAt p = some a ∧ v.actsAt p (.advance t answer) = true := by
        intro hholds
        refine ⟨role.place t, requestAt_place hat hholds, ?_⟩
        simp only [actsAt, hat, Option.any_some, BEq.rfl]
      simp only [accesses, hat, List.mem_append] at haccess
      rcases haccess with hown | hrecorded
      · split at hown
        case isFalse => cases hown
        case isTrue hop =>
          rw [List.mem_singleton] at hown
          subst hown
          rw [Bool.or_eq_true, beq_iff_eq] at hop
          rcases hop with hconcerns | rfl
          · exact hinHand (Call.holds_of_concerns List.mem_cons_self hconcerns)
          · -- the handler has posted: the request is still in hand, or forgotten
            cases hholds : (Call.mk s a (.responseAdd :: rest)).holds with
            | some b =>
              cases Call.request_of_holds hholds
              exact hinHand hholds
            | none =>
              obtain ⟨c, hc, hforgotten⟩ :=
                (hbehind _ (List.mem_of_getElem? hat)).2 List.mem_cons_self hholds
              obtain ⟨c', hc', halive, -⟩ := h.mem_requests.mp hlisted
              cases hc.symm.trans hc'
              rw [beginnings_forgotten _ (h.beginning hc) hforgotten] at halive
              cases halive
      · cases op with
        | setStatus event requestID =>
          simp only [recorded, Option.mem_toList] at hrecorded
          obtain ⟨⟨sessionID, p⟩, hfind, rfl⟩ := Option.map_eq_some_iff.mp hrecorded
          obtain rfl := h.records_own hat hfind
          exact hinHand (Call.holds_of_concerns List.mem_cons_self rfl)
        | _ => cases hrecorded
  | _ => cases haccess

end Behind

/-! ## The owners -/

section Owners

variable {C : Setting} {v : RPCServer}

/-- No response is posted twice. -/
theorem Posting.nodup (h : v.Posting) (hrelayed : v.Relayed) (hanswered : v.Answered) :
    (v.posts.map Prod.snd).Nodup := by
  have honce : ∀ (a : Nat) c, v.packets[a]? = some c → (c.history.filterMap Act.posts).Nodup := by
    intro a c hc
    have hposted := beginnings_posted _ (hrelayed.beginning hc)
    apply List.Nodup.of_map RPCEvent.status
    split at hposted
    · exact hposted.nodup (by decide)
    · rcases hposted with hposted | hposted
      · exact hposted.nodup (by decide)
      · exact hposted.nodup (by decide)
  rw [List.Nodup, List.pairwise_map, List.pairwise_iff_forall_sublist]
  intro item item' hsublist heq
  obtain ⟨x, hx, -⟩ := h.known item (hsublist.subset List.mem_cons_self)
  obtain ⟨-, c, hc, -⟩ := hanswered item.2 x hx
  have habout : v.about x.request item = some x.event := by
    simp only [about, hx, Option.bind_some, if_true]
  have habout' : v.about x.request item' = some x.event := by
    simp only [about, ← heq, hx, Option.bind_some, if_true]
  have hnodup := honce _ c hc
  rw [← h.told _ c hc, List.Nodup, List.pairwise_filterMap] at hnodup
  exact List.pairwise_iff_forall_sublist.mp hnodup hsublist _ habout _ habout' rfl

/-- Who owns a live request, in every reachable state, for any packets, threads and interleaving, if
generated ids are fresh and the called functions leave them alone, check functions return and
execute functions return or throw a `std::exception`: the packet of every entry of the manager is in
one place only; a step of any thread but the one at that place does not access it, so it does the
same whatever is in the packet and leaves it alone; no response is posted twice; and nothing of a
response that has been made ever changes but its fate. -/
theorem owners_of_reachable (C : Setting) {v : RPCServer}
    (h : (machine C).ReachableBy
      (fun v l => v.keepsIds l = true ∧ v.functionsEnd l = true) v) :
    (∀ id sid (a : Nat), (id, sid, a) ∈ v.requests → ∃! p, v.requestAt p = some a) ∧
    (∀ id sid (a : Nat) p l, (id, sid, a) ∈ v.requests → v.requestAt p = some a →
      v.actsAt p l = false → a ∉ v.accesses l ∧
        ∀ f, step C (v.update a f) l = (step C v l).map fun v' => v'.update a f) ∧
    (v.posts.map Prod.snd).Nodup ∧
    ∀ v', (machine C).Steps (fun _ _ => True) v v' → ∀ (r : Nat) x, v.responses[r]? = some x →
      ∃ fate, v'.responses[r]? = some { x with fate := fate } := by
  have hmanaged := managed_of_reachable (h.mono fun _ _ hok => hok.1)
  have hreturned := not_escaped_of_reachable (h.mono fun _ _ hok => hok.2)
  have hbehind := behind_of_reachable (h.mono fun _ _ hok => hok.2)
  have hunique : ∀ {a : Nat} {p q : Place}, v.requestAt p = some a → v.requestAt q = some a →
      p = q := by
    intro a p q hp hq
    obtain ⟨k, hk, hholds⟩ := carrier_of_requestAt hp
    obtain ⟨k', hk', hholds'⟩ := carrier_of_requestAt hq
    have hindex := hmanaged.filed.one_hand hk hk' hholds hholds'
    have hat := placeAt_carrierIndex hp
    rw [hindex, placeAt_carrierIndex hq] at hat
    exact (Option.some.inj hat).symm
  refine ⟨fun id sid a hlisted => ?_, fun id sid a p l hlisted hp hacts => ?_,
    (posting_of_reachable h).nodup (relayed_of_reachable h) (answered_of_reachable h),
    fun v' hsteps r x hx => ?_⟩
  · obtain ⟨c, hc, halive, -⟩ := hmanaged.mem_requests.mp hlisted
    rcases hmanaged.filed.held_or_done hc with ⟨k, hk, hholds, -⟩ | ⟨-, hover⟩
    · obtain ⟨p, hp⟩ := exists_place hk hholds
      exact ⟨p, hp, fun q hq => hunique hq hp⟩
    · rw [beginnings_forgotten _ hover.beginning (lives_forgotten _ hover (hreturned a c hc))]
        at halive
      cases halive
  · obtain ⟨c, hc, -⟩ := hmanaged.mem_requests.mp hlisted
    have hnot : a ∉ v.accesses l := by
      intro haccess
      obtain ⟨q, hq, hacts'⟩ := hmanaged.owner_of_access hbehind hlisted haccess
      rw [hunique hq hp, hacts] at hacts'
      cases hacts'
    exact ⟨hnot, fun f => step_update (List.getElem?_eq_some_iff.mp hc).1 hnot⟩
  · refine hsteps.invariant (I := fun v' => ∃ fate,
      v'.responses[r]? = some { x with fate := fate }) ?_ ⟨x.fate, hx⟩
    rintro _ _ _ ⟨fate, hx'⟩ - hstep
    have hkept := (moves_of_step hstep).response hx'
    exact hkept

/-- The worker that executes a request has it in hand. -/
theorem owners_of_reachable_one :
    ∃ v, (machine (sampleSetting 8 8)).run (new [.io 0, .worker] [("a", 0)])
        (oneRequest { requestId := "id", service := "a" } 15 10 1) = some v ∧
      (v.requests.map fun entry => entry.2.2) = [0] ∧ v.requestAt (.worker 2) = some 0 ∧
      ∃! p, v.requestAt p = some 0 := by
  have hruns : ((machine (sampleSetting 8 8)).run (new [.io 0, .worker] [("a", 0)])
      (oneRequest { requestId := "id", service := "a" } 15 10 1)).any (fun v =>
        v.requests = [("id", "session", 0)] ∧ v.requestAt (.worker 2) = some 0) = true := by
    decide +kernel
  obtain ⟨v, hrun, hv⟩ := (Option.any_eq_true _ _).mp hruns
  obtain ⟨hrequests, hat⟩ := of_decide_eq_true hv
  have hsound : ∀ (v : RPCServer) l, (v.keepsIds l && v.functionsEnd l) = true →
      v.keepsIds l = true ∧ v.functionsEnd l = true := fun _ _ => Bool.and_eq_true_iff.mp
  have howners := owners_of_reachable (sampleSetting 8 8)
    (.run hsound (.start ⟨_, _, by decide, rfl⟩) (by decide +kernel) hrun)
  exact ⟨v, hrun, by rw [hrequests]; rfl, hat, howners.1 "id" "session" 0
    (hrequests ▸ List.mem_singleton.mpr rfl)⟩

/-- The execute function throws something that is no `std::exception`: the manager keeps the
request, which is in nobody's hands any more. -/
theorem nowhere_of_escaped :
    ¬ ∀ v, (machine (sampleSetting 8 8)).ReachableBy (fun v l => v.keepsIds l = true) v →
      ∀ id sid (a : Nat), (id, sid, a) ∈ v.requests → ∃ p, v.requestAt p = some a := by
  intro h
  have hruns : ((machine (sampleSetting 8 8)).run (new [.io 0, .worker] [("a", 0)])
      (oneRequest { requestId := "id", service := "a" } 15 10 1 ++
        [.advance 2 { packet := { requestId := "id", service := "a" }, outcome := .escaped }])).any
      (fun v => v.requests = [("id", "session", 0)] ∧ v.Quiet) = true := by
    decide +kernel
  obtain ⟨v, hrun, hv⟩ := (Option.any_eq_true _ _).mp hruns
  obtain ⟨hrequests, hthreads, hqueue, htasks⟩ := of_decide_eq_true hv
  have hreach : (machine (sampleSetting 8 8)).ReachableBy (fun v l => v.keepsIds l = true) v :=
    .run (fun _ _ hok => hok) (.start ⟨_, _, by decide, rfl⟩) (by decide +kernel) hrun
  obtain ⟨p, hp⟩ := h v hreach "id" "session" 0 (hrequests ▸ List.mem_singleton.mpr rfl)
  rcases requestAt_cases hp with ⟨t, th, hat, -, hholds⟩ | ⟨i, s, hitem, -⟩ | ⟨i, name, s, htask, -⟩
  · rw [Call.holds, hthreads th (List.mem_of_getElem? hat)] at hholds
    cases hholds
  · rw [hqueue] at hitem
    cases hitem
  · rw [htasks] at htask
    cases htask

end Owners

end RPCServer

end DSFramework.DSRPC
