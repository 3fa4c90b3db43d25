import DSFramework.DSRPC.RPCServer.Delivery

/-!
# The server comes to rest

Every operation has a price: one for itself and the price of whatever it can lead to, on the same
thread or where it hands its request or response over. The prices of what there is to do are the
`stepsLeft`; a step of the server takes its own share of them, and only a delivery adds to them. So
the server has done all its work a bounded number of steps after the last delivery, and where it can
do nothing more every request has been answered.

A price may hold something back for each response, `k`, for those who have to bring it further.
-/

namespace DSFramework.DSRPC

/-- The event after whose response a request gets no other. -/
def RPCEvent.last (event : RPCEvent) : Bool := event.terminal || event == .onDeserializedFailed

/-- A complete life has its last response, unless the execute function has thrown something that is
no `std::exception`. -/
theorem lives_last : ∀ h ∈ lives, .escaped ∉ h →
    (h.filterMap Act.creates).any RPCEvent.last = true := by
  decide +kernel

/-- How many steps an operation and what comes of it can take at most, and `k` for every response
that is sent. -/
def RPCOp.price (k : Nat) : RPCOp → Nat
  | .initRPCPacket | .addRequest | .setStatus _ _ | .removeRequest _ | .responseAdd | .requestAdd
  | .requestSub => 1
  | .findRequest _ => 2
  | .responseLink _ _ => k + 4
  | .responseSize _ _ => k + 6
  | .createResponse _ => k + 7
  | .running => k + 11
  | .execute _ => k + 12
  | .commit => k + 14
  | .checkServiceParameter _ => k + 15
  | .processorOnCommited => k + 16
  | .requestLink => 2 * k + 28
  | .requestSize => 3 * k + 39

def price (k : Nat) (ops : List RPCOp) : Nat := (ops.map (RPCOp.price k)).sum

theorem price_append (k : Nat) (ops ops' : List RPCOp) :
    price k (ops ++ ops') = price k ops + price k ops' := by
  simp only [price, List.map_append, List.sum_append]

theorem price_nil (k : Nat) : price k [] = 0 := rfl

theorem price_cons (k : Nat) (op : RPCOp) (ops : List RPCOp) :
    price k (op :: ops) = op.price k + price k ops := rfl

/-- What the delivery of a frame can lead to. -/
theorem price_raise (k : Nat) (event : RPCEvent) :
    price k (raise event) = match event with
      | .onDeserialized => 4 * k + 48
      | .onDeserializedFailed => k + 7
      | .onDispatched => k + 9
      | .onCommited => 2 * k + 25
      | .onDispatchFailed | .onServiceEmptyRequest | .onServiceNotFound
      | .onServiceParameterInvalid | .onServiceError | .onCompleted => k + 10 := by
  cases event <;>
    simp only [price, raise, RPCPacketManager.handler, ResponseDispatcher.handler, nextStation,
      RPCOp.price, List.cons_append, List.nil_append, List.append_nil, List.map_cons, List.map_nil,
      List.sum_cons, List.sum_nil] <;> omega

namespace RPCServer

/-- What there is to do where nobody has begun, and that the process may still be terminated. -/
def waiting (k : Nat) (v : RPCServer) : Nat :=
  (2 * k + 27) * v.requestQueue.items.length + (k + 13) * v.tasks.length +
    (k + 3) * v.responseQueue.items.length + (!v.terminated).toNat

/-- What the response dispatcher has left to do. -/
def inHandPrice (k : Nat) (v : RPCServer) : Nat :=
  match v.sending with
  | some ⟨_, _, false⟩ => k + 2
  | some ⟨_, _, true⟩ => k + 1
  | none => 0

/-- How many steps of its own the server can take at most, and `k` for every response that it is
still to send. -/
def stepsLeft (k : Nat) (v : RPCServer) : Nat :=
  Threads.total (fun th => price k th.call.ops) v.threads + v.waiting k + v.inHandPrice k

/-- The steps of the server's own: neither a delivery nor a completion. -/
def own : RPCLabel → Bool
  | .deliver _ _ | .completeWrite _ _ _ => false
  | .take _ | .advance _ _ | .takeResponse | .subtractResponse | .sendResponse => true

/-- What a label takes from the steps left: itself, and with a response what it holds back. -/
def spent (k : Nat) : RPCLabel → Nat
  | .deliver _ _ | .completeWrite _ _ _ => 0
  | .take _ | .advance _ _ | .takeResponse | .subtractResponse => 1
  | .sendResponse => k + 1

/-- What a label adds to them. -/
def earned (k : Nat) : RPCLabel → Nat
  | .deliver _ _ => 4 * k + 48
  | _ => 0

variable {C : Setting} {v v' : RPCServer} {l : RPCLabel}

/-- An operation costs at least one more than what comes of it. -/
theorem Executes.pay {s a : Nat} {answer : Answer} {op : RPCOp} {ops : List RPCOp} (k : Nat)
    (h : Executes C v s a answer op v' ops) (hrunning : v.terminated = false) :
    price k ops + v'.waiting k + 1 ≤ op.price k + v.waiting k := by
  have stays : v'.waiting k = v.waiting k → price k ops + 1 ≤ op.price k →
      price k ops + v'.waiting k + 1 ≤ op.price k + v.waiting k := by omega
  cases h with
  | initRPCPacket | addRequest | notFound | setStatus | setNothing | removeRequest | responseFull
  | responseAdd | requestAdd | requestSub | escaped =>
    refine stays rfl ?_
    simp only [price_nil, RPCOp.price]
    omega
  | found | createResponse | responseRoom | knownService | valid | invoked =>
    refine stays rfl ?_
    simp only [price_cons, price_nil, RPCOp.price]
    omega
  | requestFull | emptyService | unknownService | notChecked | invalid | missing | returned
  | threw =>
    refine stays rfl ?_
    simp only [price_raise, RPCOp.price]
    omega
  | requestRoom =>
    refine stays rfl ?_
    simp only [price_append, price_raise, price_cons, price_nil, RPCOp.price]
    omega
  | terminate =>
    simp only [waiting, price_cons, price_nil, hrunning, Bool.not_true, Bool.not_false,
      Bool.toNat_true, Bool.toNat_false]
    omega
  | requestLink =>
    simp only [waiting, ItemQueue.link, List.length_append, List.length_singleton, price_nil,
      RPCOp.price, Nat.mul_add, Nat.mul_one]
    omega
  | commit =>
    simp only [waiting, RPCServer.commit, update, List.length_append, List.length_singleton,
      price_nil, RPCOp.price, Nat.mul_add, Nat.mul_one]
    omega
  | responseLink =>
    simp only [waiting, RPCServer.responseLink, tell, update, ItemQueue.link, List.length_append,
      List.length_singleton, price_nil, RPCOp.price, Nat.mul_add, Nat.mul_one]
    omega

/-- Sending leaves the queues alone. -/
theorem send_waiting (C : Setting) (v : RPCServer) (s r k : Nat) :
    (v.send C s r).waiting k = v.waiting k := by
  unfold send
  split <;> rfl

/-- Every step pays for itself; a delivery brings at most what its frame can lead to. -/
theorem Moves.pay (k : Nat) (hmoves : Moves C v l v') (hrunning : v.terminated = false) :
    v'.stepsLeft k + spent k l ≤ v.stepsLeft k + earned k l := by
  cases hmoves with
  | @deliver t s s₀ a₀ body hat =>
    have htotal := Threads.total_set (fun th => price k th.call.ops) hat ⟨.io s, s, v.packets.length,
      raise (if (C.parseFromArray body).isSome then .onDeserialized else .onDeserializedFailed)⟩
    have hraise : price k (raise (if (C.parseFromArray body).isSome then .onDeserialized
        else .onDeserializedFailed)) ≤ 4 * k + 48 := by
      split
      · exact Nat.le_of_eq (price_raise k _)
      · rw [price_raise]
        simp only
        omega
    simp only [price_nil] at htotal
    have hwaiting : (v.onData C t s body).waiting k = v.waiting k := rfl
    have hhand : (v.onData C t s body).inHandPrice k = v.inHandPrice k := rfl
    simp only [stepsLeft, hwaiting, hhand, spent, earned]
    simp only [onData]
    omega
  | @takeRequest t s₀ a₀ s a items hat hitems =>
    have htotal := Threads.total_set (fun th => price k th.call.ops) hat
      ⟨.requestDispatcher, s, a, .requestSub :: raise .onCommited⟩
    simp only [price_nil, price_cons, price_raise, RPCOp.price] at htotal
    simp only [stepsLeft, waiting, inHandPrice, ItemQueue.unlink, hitems, List.tail_cons,
      List.length_cons, spent, earned, Nat.mul_add, Nat.mul_one]
    omega
  | @takeTask t s₀ a₀ s a serviceName tasks hat htasks =>
    have htotal := Threads.total_set (fun th => price k th.call.ops) hat
      ⟨.worker, s, a, [.execute serviceName]⟩
    simp only [price_nil, price_cons, RPCOp.price] at htotal
    simp only [stepsLeft, waiting, inHandPrice, htasks, List.length_cons, spent, earned,
      Nat.mul_add, Nat.mul_one]
    omega
  | @advance t s a role op rest ops answer v₁ hat hexecutes =>
    have hpay := hexecutes.pay k hrunning
    rw [← hexecutes.threads] at hat
    have htotal := Threads.total_set (fun th => price k th.call.ops) hat
      ⟨role, s, a, ops ++ rest⟩
    simp only [price_cons, price_append] at htotal
    have hhand : v₁.inHandPrice k = v.inHandPrice k := by
      simp only [inHandPrice, hexecutes.sends.1]
    have hwaiting : (v₁.goto t ⟨role, s, a, ops ++ rest⟩).waiting k = v₁.waiting k := rfl
    have hgoto : (v₁.goto t ⟨role, s, a, ops ++ rest⟩).inHandPrice k = v₁.inHandPrice k := rfl
    simp only [stepsLeft, hwaiting, hgoto, hhand, spent, earned, ← hexecutes.threads]
    simp only [goto]
    omega
  | takeResponse hsending hitems =>
    simp only [stepsLeft, waiting, inHandPrice, hsending, ItemQueue.unlink, hitems, List.tail_cons,
      List.length_cons, spent, earned, Nat.mul_add, Nat.mul_one]
    omega
  | subtractResponse hsending =>
    simp only [stepsLeft, waiting, inHandPrice, hsending, ItemQueue.sub, spent, earned]
    omega
  | @sendResponse s r hsending =>
    have hwaiting : waiting k { v.send C s r with sending := none } = v.waiting k :=
      send_waiting C v s r k
    simp only [stepsLeft, hwaiting]
    simp only [(send_frame C v s r).2.1, inHandPrice, hsending, spent, earned]
    omega
  | completeWrite => exact Nat.le_refl _

theorem running_of_step (hstep : (machine C).step v l = some v') : v.terminated = false := by
  cases hterminated : v.terminated with
  | false => rfl
  | true =>
    simp only [machine, step, hterminated, if_true] at hstep
    cases hstep

/-! ## At rest -/

/-- Threads keep their roles. -/
theorem Moves.roles (hmoves : Moves C v l v') :
    v'.threads.map RPCThread.role = v.threads.map RPCThread.role := by
  have hset : ∀ {t : Nat} {th th' : RPCThread}, v.threads[t]? = some th → th'.role = th.role →
      (v.threads.set t th').map RPCThread.role = v.threads.map RPCThread.role := by
    intro t th th' hat hrole
    have hold : (v.threads.map RPCThread.role)[t]? = some th.role := by
      rw [List.getElem?_map, hat, Option.map_some]
    obtain ⟨hlt, hval⟩ := List.getElem?_eq_some_iff.mp hold
    rw [List.map_set, hrole, ← hval]
    exact List.set_getElem_self hlt
  cases hmoves with
  | deliver hat | takeRequest hat | takeTask hat => exact hset hat rfl
  | advance hat hexecutes =>
    simp only [goto, hexecutes.threads]
    exact hset hat rfl
  | @sendResponse s r => exact congrArg (List.map RPCThread.role) (send_frame C v s r).2.1
  | takeResponse | subtractResponse | completeWrite => rfl

/-- There is always the request dispatcher's thread. -/
theorem requestDispatcher_of_reachable {ok : RPCServer → RPCLabel → Prop}
    (h : (machine C).ReachableBy ok v) : .requestDispatcher ∈ v.threads.map RPCThread.role := by
  refine h.invariant (I := fun v => .requestDispatcher ∈ v.threads.map RPCThread.role) ?_ ?_
  · rintro _ ⟨roles, _, -, rfl⟩
    simp [new]
  · intro _ _ _ hv _ hstep
    exact (moves_of_step hstep).roles ▸ hv

/-- Nothing is left to do. -/
structure Rests (v : RPCServer) : Prop where
  quiet : v.Quiet
  sending : v.sending = none
  responses : v.responseQueue.items = []

/-- Where no thread can go on, none has anything left. -/
theorem ops_of_stuck (hrunning : v.terminated = false)
    (hstuck : ∀ t answer, (machine C).step v (.advance t answer) = none) :
    ∀ th ∈ v.threads, th.call.ops = [] := by
  intro th hth
  obtain ⟨t, hat⟩ := List.mem_iff_getElem?.mp hth
  have hnone : step C v (.advance t {}) = none := hstuck t {}
  obtain ⟨role, s, a, ops⟩ := th
  cases ops with
  | nil => rfl
  | cons op rest =>
    simp only [step, hrunning, hat, Option.bind_some, advance] at hnone
    cases hnone

/-- Where the server can do nothing of its own, nothing is left to do. -/
theorem rests_of_stuck {ok : RPCServer → RPCLabel → Prop} (h : (machine C).ReachableBy ok v)
    (hworker : .worker ∈ v.threads.map RPCThread.role) (hrunning : v.terminated = false)
    (hstuck : ∀ l, own l = true → (machine C).step v l = none) : v.Rests := by
  have hstep : ∀ l, own l = true → step C v l = none := hstuck
  have hops := ops_of_stuck hrunning fun t answer => hstuck (.advance t answer) rfl
  have hidle : ∀ role ∈ v.threads.map RPCThread.role, ∃ (t : Nat) (s a : Nat),
      v.threads[t]? = some ⟨role, s, a, []⟩ := by
    intro role hrole
    obtain ⟨th, hth, rfl⟩ := List.mem_map.mp hrole
    obtain ⟨t, hat⟩ := List.mem_iff_getElem?.mp hth
    obtain ⟨role, s, a, ops⟩ := th
    obtain rfl : ops = [] := hops _ hth
    exact ⟨t, s, a, hat⟩
  have hsending : v.sending = none := by
    cases hsending : v.sending with
    | none => rfl
    | some sending =>
      obtain ⟨s, r, counted⟩ := sending
      cases counted with
      | false =>
        have hnone := hstep .subtractResponse rfl
        simp only [step, hrunning, hsending] at hnone
        cases hnone
      | true =>
        have hnone := hstep .sendResponse rfl
        simp only [step, hrunning, hsending] at hnone
        cases hnone
  refine ⟨⟨hops, ?_, ?_⟩, hsending, ?_⟩
  · obtain ⟨t, s, a, hat⟩ := hidle _ (requestDispatcher_of_reachable h)
    cases hitems : v.requestQueue.items with
    | nil => rfl
    | cons item items =>
      have hnone := hstep (.take t) rfl
      simp only [step, hrunning, hat, Option.bind_some, take, hitems] at hnone
      cases hnone
  · obtain ⟨t, s, a, hat⟩ := hidle _ hworker
    cases htasks : v.tasks with
    | nil => rfl
    | cons task tasks =>
      have hnone := hstep (.take t) rfl
      simp only [step, hrunning, hat, Option.bind_some, take, htasks] at hnone
      cases hnone
  · cases hitems : v.responseQueue.items with
    | nil => rfl
    | cons item items =>
      have hnone := hstep .takeResponse rfl
      simp only [step, hrunning, hsending, hitems] at hnone
      cases hnone

/-- At rest there is nothing that the server could do. -/
theorem Rests.stuck (h : v.Rests) {l : RPCLabel} (hl : own l = true) :
    (machine C).step v l = none := by
  have hnone : ∀ v', ¬ Moves C v l v' := by
    intro v' hmoves
    cases hmoves with
    | deliver | completeWrite => cases hl
    | takeRequest hat hitems =>
      rw [h.quiet.2.1] at hitems
      cases hitems
    | takeTask hat htasks =>
      rw [h.quiet.2.2] at htasks
      cases htasks
    | advance hat =>
      have hops := h.quiet.1 _ (List.mem_of_getElem? hat)
      cases hops
    | takeResponse hsending hitems =>
      rw [h.responses] at hitems
      cases hitems
    | subtractResponse hsending | sendResponse hsending =>
      rw [h.sending] at hsending
      cases hsending
  cases hstep : (machine C).step v l with
  | none => rfl
  | some v' => exact absurd (moves_of_step hstep) (hnone v')

/-- At rest every response's fate is settled. -/
theorem Rests.settled (h : v.Rests) (hdelivering : v.Delivering C) {r : Nat} {x : Response}
    (hx : v.responses[r]? = some x) : ∃ fate, x.fate = some fate ∧ v.Justified C x fate := by
  have hsome : x.fate.isSome = true := by
    cases hdelivering.placed r x hx with
    | posting hth hop =>
      rw [h.quiet.1 _ hth] at hop
      cases hop
    | queued hmem =>
      rw [h.responses] at hmem
      cases hmem
    | inHand hmem =>
      simp only [inHand, h.sending, Option.toList_none, List.map_nil, List.not_mem_nil] at hmem
    | settled hsome => exact hsome
  obtain ⟨fate, hfate⟩ := Option.isSome_iff_exists.mp hsome
  exact ⟨fate, hfate, hdelivering.justified r x fate hx hfate⟩

/-- At rest every request has had its last response. -/
theorem Rests.answered {ok : RPCServer → RPCLabel → Prop} (h : v.Rests)
    (hreachable : (machine C).ReachableBy ok v) {a : Nat} {c : Request}
    (hc : v.packets[a]? = some c) (hescaped : .escaped ∉ c.history) :
    ∃ (r : Nat) (x : Response) (fate : Fate), v.responses[r]? = some x ∧ x.request = a ∧
      x.event.last = true ∧ x.fate = some fate ∧ v.Justified C x fate := by
  have hover : c.history ∈ lives := done_of_quiet (relayed_of_reachable hreachable) h.quiet hc
  obtain ⟨event, hmem, hlast⟩ := List.any_eq_true.mp (lives_last _ hover hescaped)
  obtain ⟨act, hact, hcreates⟩ := List.mem_filterMap.mp hmem
  have hcreated : .created event ∈ c.history := by
    cases act with
    | created => exact Option.some.inj hcreates ▸ hact
    | _ => cases hcreates
  obtain ⟨r, x, hx, hrequest, rfl⟩ := made_of_reachable hreachable a c hc event hcreated
  obtain ⟨fate, hfate, hjustified⟩ := h.settled (delivering_of_reachable hreachable) hx
  exact ⟨r, x, fate, hx, hrequest, hlast, hfate, hjustified⟩

def delivers : RPCLabel → Bool
  | .deliver _ _ => true
  | _ => false

theorem sum_spent (ls : List RPCLabel) : (ls.map (spent 0)).sum = ls.countP own := by
  induction ls with
  | nil => rfl
  | cons l ls ih =>
    rw [List.map_cons, List.sum_cons, ih, List.countP_cons]
    cases l <;> simp only [spent, own, if_true, Bool.false_eq_true, if_false] <;> omega

theorem sum_earned (ls : List RPCLabel) : (ls.map (earned 0)).sum = 48 * ls.countP delivers := by
  induction ls with
  | nil => rfl
  | cons l ls ih =>
    rw [List.map_cons, List.sum_cons, ih, List.countP_cons]
    cases l <;> simp only [earned, delivers, if_true, Bool.false_eq_true, if_false] <;> omega

/-- In every run, whatever arrives and whatever the called functions do, the server takes at most 48
steps of its own for each frame that is delivered, and one that terminates the process. -/
theorem own_le {ok : RPCServer → RPCLabel → Prop} {v₀ : RPCServer} (hinit : (machine C).init v₀)
    {ls : List RPCLabel} (h : (machine C).RunBy ok v₀ ls v) :
    ls.countP own ≤ 48 * ls.countP delivers + 1 := by
  obtain ⟨-, hsum⟩ := h.account (I := fun _ => True) (fun _ _ _ _ _ _ => trivial)
    (fun s l s' _ _ hstep => (moves_of_step hstep).pay 0 (running_of_step hstep)) trivial
  obtain ⟨roles, services, -, rfl⟩ := hinit
  have hstart : (new roles services).stepsLeft 0 = 1 := by
    have htotal : Threads.total (fun th : RPCThread => price 0 th.call.ops)
        ((.requestDispatcher :: roles).map fun role => ⟨role, 0, 0, []⟩) = 0 := by
      refine Threads.total_eq_zero.mpr fun th hth => ?_
      obtain ⟨role, -, rfl⟩ := List.mem_map.mp hth
      exact price_nil 0
    simp only [stepsLeft, new, waiting, inHandPrice, htotal]
    rfl
  rw [hstart, sum_spent, sum_earned] at hsum
  omega

end RPCServer

end DSFramework.DSRPC
