import Mathlib.Data.List.Perm.Basic
import DSFramework.DSRPC.RPCServer
import DSFramework.Lib.Relay

/-!
# Where a request is

A request is in one place at a time: in a thread's program, in the request dispatcher's queue, or
in a task of the pool. The carriers of a state are all these places, each read as the call that its
item stands for. `inOrder_step` takes a relation between carriers and records through every step
of the server. What it asks for is what one operation does to one request.
-/

namespace DSFramework.DSRPC

/-- Is the operation about the request, or only about a counter? -/
def RPCOp.concerns : RPCOp → Bool
  | .responseAdd | .requestAdd | .requestSub => false
  | .initRPCPacket | .addRequest | .findRequest _ | .setStatus _ _ | .removeRequest _
  | .createResponse _ | .responseSize _ _ | .responseLink _ _ | .requestSize | .requestLink
  | .processorOnCommited | .checkServiceParameter _ | .commit | .execute _ | .running => true

/-- Is the request out of the thread's hands, or its answer settled, once the operation and what
comes of it are done? -/
def RPCOp.closes : RPCOp → Bool
  | .requestSize | .requestLink | .processorOnCommited | .checkServiceParameter _ | .commit
  | .execute _ | .running => true
  | .initRPCPacket | .addRequest | .findRequest _ | .setStatus _ _ | .removeRequest _
  | .createResponse _ | .responseSize _ _ | .responseLink _ _ | .responseAdd | .requestAdd
  | .requestSub => false

/-- Nothing about a request comes behind an operation that closes it. -/
def Ordered (ops : List RPCOp) : Prop :=
  ops.Pairwise fun op op' => op.closes = true → op'.concerns = false

instance (ops : List RPCOp) : Decidable (Ordered ops) := by
  unfold Ordered
  infer_instance

/-- The request in a call's hands. -/
def Call.holds (k : Call) : Option Nat :=
  if k.ops.any RPCOp.concerns then some k.request else none

/-- What may not come behind a closing operation does not after an operation has been replaced. -/
theorem pairwise_replace {after : RPCOp → Prop} {op : RPCOp} {ops rest : List RPCOp}
    (h : (op :: rest).Pairwise fun op op' => op.closes = true → after op')
    (hops : ops.Pairwise fun op op' => op.closes = true → after op')
    (hcloses : op.closes = true ∨ ops.all (fun op => !op.closes) = true) :
    (ops ++ rest).Pairwise fun op op' => op.closes = true → after op' := by
  obtain ⟨hfirst, hrest⟩ := List.pairwise_cons.mp h
  refine List.pairwise_append.mpr ⟨hops, hrest, fun op₁ hop₁ op₂ hop₂ hc => ?_⟩
  obtain hcloses | hnone := hcloses
  · exact hfirst op₂ hop₂ hcloses
  · have hnot := List.all_eq_true.mp hnone op₁ hop₁
    rw [hc] at hnot
    cases hnot

/-- What replaces an operation keeps the order. -/
theorem Ordered.replace {op : RPCOp} {ops rest : List RPCOp} (h : Ordered (op :: rest))
    (hops : Ordered ops) (hcloses : op.closes = true ∨ ops.all (fun op => !op.closes) = true) :
    Ordered (ops ++ rest) :=
  pairwise_replace h hops hcloses

/-- Behind a closing operation a call has nothing in its hands. -/
theorem Ordered.holds_none {s a : Nat} {op : RPCOp} {rest : List RPCOp}
    (h : Ordered (op :: rest)) (hc : op.closes = true) : (Call.mk s a rest).holds = none := by
  have hrest : rest.any RPCOp.concerns = false := by
    rw [List.any_eq_false]
    intro op' hop'
    rw [(List.pairwise_cons.mp h).1 op' hop' hc]
    exact Bool.false_ne_true
  simp only [Call.holds, hrest, Bool.false_eq_true, if_false]

/-- What a call holds is its request. -/
theorem Call.request_of_holds {k : Call} {a : Nat} (h : k.holds = some a) : k.request = a := by
  unfold Call.holds at h
  split at h
  · exact Option.some.inj h
  · cases h

/-- An operation about the request is in a call that holds it. -/
theorem Call.holds_of_concerns {s a : Nat} {op : RPCOp} {ops : List RPCOp} (hop : op ∈ ops)
    (hc : op.concerns = true) : (Call.mk s a ops).holds = some a := by
  have hany : ops.any RPCOp.concerns = true := List.any_eq_true.mpr ⟨op, hop, hc⟩
  simp only [Call.holds, hany, if_true]

namespace RPCServer

/-- What the request dispatcher will do with an item of its queue. -/
def dispatchCall (item : Nat × Nat) : Call := ⟨item.1, item.2, raise .onCommited⟩

/-- What a worker will do with a task. -/
def taskCall (task : String × Nat × Nat) : Call := ⟨task.2.1, task.2.2, [.execute task.1]⟩

/-- The requests that wait in the queue and in the pool. -/
def queued (v : RPCServer) : List Call :=
  v.requestQueue.items.map dispatchCall ++ v.tasks.map taskCall

/-- Everything that may have a request in its hands. -/
def carriers (v : RPCServer) : List Call := v.threads.map RPCThread.call ++ v.queued

/-- The call that an operation hands its request to. -/
def handed (v : RPCServer) (s a : Nat) : RPCOp → List Call
  | .requestLink => [dispatchCall (s, a)]
  | .commit => [taskCall ((v.packet a).service, s, a)]
  | _ => []

/-- What there is left to do for the request after an operation, by whomever. -/
def onward (v : RPCServer) (a : Nat) (op : RPCOp) (ops rest : List RPCOp) : List RPCOp :=
  match op with
  | .requestLink => raise .onCommited
  | .commit => [.execute (v.packet a).service]
  | _ => ops ++ rest

/-- A status is recorded in another packet than that of the request that the thread works on. -/
def Strays (v : RPCServer) (t : Nat) : Prop :=
  ∃ role s a event requestID rest sessionID p,
    v.threads[t]? = some ⟨role, s, a, .setStatus event requestID :: rest⟩ ∧
    RPCPacketManager.findRequest requestID v.requests = some (sessionID, p) ∧ p ≠ a

/-! ## What an operation leaves alone -/

section Executes

variable {C : Setting} {v v' : RPCServer} {s a : Nat} {answer : Answer} {op : RPCOp}
  {ops : List RPCOp}

theorem Executes.threads (h : Executes C v s a answer op v' ops) : v'.threads = v.threads := by
  cases h <;> rfl

/-- The waiting requests change by those that are handed over. -/
theorem Executes.queued (h : Executes C v s a answer op v' ops) :
    v'.queued.Perm (v.handed s a op ++ v.queued) := by
  cases h with
  | requestLink =>
    simp only [RPCServer.queued, ItemQueue.link, handed, List.map_append, List.map_cons,
      List.map_nil, List.append_assoc, List.singleton_append]
    exact List.perm_middle
  | commit =>
    simp only [RPCServer.queued, RPCServer.commit, handed, update, List.map_append, List.map_cons,
      List.map_nil, List.singleton_append, ← List.append_assoc]
    exact List.perm_append_singleton _ _
  | initRPCPacket | addRequest | found | notFound | setStatus | setNothing | removeRequest
  | createResponse | responseRoom | responseFull | responseLink | responseAdd | requestRoom
  | requestFull | requestAdd | requestSub | emptyService | unknownService | knownService
  | notChecked | terminate | valid | invalid | invoked | missing | returned | threw
  | escaped => exact .refl _

/-- An operation changes at most its own request's record, but for a status that strays. -/
theorem Executes.packets (h : Executes C v s a answer op v' ops) :
    (∃ f, v'.packets = v.packets.modify a f) ∨
    ∃ event requestID sessionID p, op = .setStatus event requestID ∧
      RPCPacketManager.findRequest requestID v.requests = some (sessionID, p) ∧
      v'.packets = v.packets.modify p (Request.record event answer.time) := by
  cases h with
  | setStatus hfind => exact .inr ⟨_, _, _, _, rfl, hfind, rfl⟩
  | setNothing | responseRoom | responseAdd | requestLink | requestAdd | requestSub
  | knownService | terminate => exact .inl ⟨id, (List.modify_id a v.packets).symm⟩
  | initRPCPacket | addRequest | found | notFound | removeRequest | createResponse
  | responseFull | responseLink | requestRoom | requestFull | emptyService | unknownService
  | notChecked | valid | invalid | commit | invoked | missing | returned | threw
  | escaped => exact .inl ⟨_, rfl⟩

/-- An operation on a counter changes no record, and nothing comes of it. -/
theorem Executes.idle (h : Executes C v s a answer op v' ops) (hop : op.concerns = false) :
    v'.packets = v.packets ∧ ops = [] ∧ v.handed s a op = [] ∧
      ∀ rest, v.onward a op ops rest = rest := by
  cases h with
  | responseAdd | requestAdd | requestSub => exact ⟨rfl, rfl, rfl, fun _ => rfl⟩
  | initRPCPacket | addRequest | found | notFound | setStatus | setNothing | removeRequest
  | createResponse | responseRoom | responseFull | responseLink | requestRoom | requestFull
  | requestLink | emptyService | unknownService | knownService | notChecked | terminate | valid
  | invalid | commit | invoked | missing | returned | threw | escaped => cases hop

/-- The request stays with the thread, or is handed over by an operation that closes it. -/
theorem Executes.onward (h : Executes C v s a answer op v' ops) :
    (v.handed s a op = [] ∧ ∀ rest, v.onward a op ops rest = ops ++ rest) ∨
    (op.closes = true ∧ ops = [] ∧ ∀ rest,
      v.handed s a op = [⟨s, a, v.onward a op ops rest⟩]) := by
  cases h with
  | requestLink | commit => exact .inr ⟨rfl, rfl, fun _ => rfl⟩
  | initRPCPacket | addRequest | found | notFound | setStatus | setNothing | removeRequest
  | createResponse | responseRoom | responseFull | responseLink | responseAdd | requestRoom
  | requestFull | requestAdd | requestSub | emptyService | unknownService | knownService
  | notChecked | terminate | valid | invalid | invoked | missing | returned | threw
  | escaped => exact .inl ⟨rfl, fun _ => rfl⟩

end Executes

/-! ## One step -/

/-- A thread's call and everything else that carries. -/
theorem carriers_perm {v : RPCServer} {t : Nat} {th : RPCThread} (hat : v.threads[t]? = some th) :
    v.carriers.Perm (th.call :: ((v.threads.eraseIdx t).map RPCThread.call ++ v.queued)) := by
  obtain ⟨hlt, rfl⟩ := List.getElem?_eq_some_iff.mp hat
  exact ((List.getElem_cons_eraseIdx_perm hlt).symm.map RPCThread.call).append_right v.queued

/-- A thread's call is the carrier at its place. -/
theorem carriers_at {v : RPCServer} {t : Nat} {th : RPCThread} (hat : v.threads[t]? = some th) :
    v.carriers[t]? = some th.call := by
  have hlt : t < (v.threads.map RPCThread.call).length := by
    rw [List.length_map]
    exact (List.getElem?_eq_some_iff.mp hat).1
  rw [carriers, List.getElem?_append_left hlt, List.getElem?_map, hat, Option.map_some]

/-- The thread that works on a request fits its record. -/
theorem fits_of_working {Fits : Call → Request → Prop} {Done : Request → Prop} {v : RPCServer}
    (h : Relay.InOrder Call.holds Fits Done v.carriers v.packets) {t s a : Nat} {role : Role}
    {op : RPCOp} {ops : List RPCOp} (hat : v.threads[t]? = some ⟨role, s, a, ops⟩)
    (hmem : op ∈ ops) (hop : op.concerns = true) :
    ∃ c, v.packets[a]? = some c ∧ Fits ⟨s, a, ops⟩ c :=
  h.carried _ (List.mem_of_getElem? (carriers_at hat)) a (Call.holds_of_concerns hmem hop)

/-- What carries after a thread has gone to `th`. -/
theorem carriers_set {v : RPCServer} (v' : RPCServer) {t : Nat} {th th' : RPCThread}
    (hat : v.threads[t]? = some th) (hthreads : v'.threads = v.threads.set t th') :
    v'.carriers.Perm (th'.call :: ((v.threads.eraseIdx t).map RPCThread.call ++ v'.queued)) := by
  obtain ⟨hlt, -⟩ := List.getElem?_eq_some_iff.mp hat
  have hset := (List.set_perm_cons_eraseIdx hlt th').map RPCThread.call
  rw [← hthreads] at hset
  exact hset.append_right v'.queued

section Step

variable {C : Setting} {v v' : RPCServer} {l : RPCLabel} {Fits : Call → Request → Prop}
  {Done : Request → Prop}

/-- A thread works on its request, or on a counter. -/
theorem inOrder_advance {t s a : Nat} {role : Role} {op : RPCOp} {rest ops : List RPCOp}
    {answer : Answer} (h : Relay.InOrder Call.holds Fits Done v.carriers v.packets)
    (hat : v.threads[t]? = some ⟨role, s, a, op :: rest⟩)
    (hexecutes : Executes C v s a answer op v' ops)
    (ordered : ∀ k c, Fits k c → Ordered k.ops)
    (works : ∀ c c', v.packets[a]? = some c → v'.packets[a]? = some c' →
      Fits ⟨s, a, op :: rest⟩ c → Fits ⟨s, a, v.onward a op ops rest⟩ c')
    (stray : v.Strays t → ∀ event time, (∀ k c, Fits k c → Fits k (c.record event time)) ∧
      ∀ c, Done c → Done (c.record event time))
    (done : ∀ k c, Fits k c → k.holds = none → Done c) :
    Relay.InOrder Call.holds Fits Done (v'.goto t ⟨role, s, a, ops ++ rest⟩).carriers
      v'.packets := by
  have hcarriers : (v'.goto t ⟨role, s, a, ops ++ rest⟩).carriers.Perm
      (⟨s, a, ops ++ rest⟩ :: ((v.threads.eraseIdx t).map RPCThread.call ++
        (v.handed s a op ++ v.queued))) := by
    have hset : (v'.goto t ⟨role, s, a, ops ++ rest⟩).threads =
        v.threads.set t ⟨role, s, a, ops ++ rest⟩ := by
      simp only [goto, hexecutes.threads]
    exact (carriers_set _ hat hset).trans (.cons _ (hexecutes.queued.append_left _))
  have hbefore := h.perm (carriers_perm hat)
  refine Relay.InOrder.perm ?_ hcarriers.symm
  cases hholds : (Call.mk s a (op :: rest)).holds with
  | none =>
    -- the request has left the thread: only the counters are still to be changed
    have hop : op.concerns = false := by
      by_contra hne
      rw [Bool.not_eq_false] at hne
      rw [Call.holds_of_concerns List.mem_cons_self hne] at hholds
      cases hholds
    have hrest : (Call.mk s a rest).holds = none := by
      simpa only [Call.holds, List.any_cons, hop, Bool.false_or] using hholds
    obtain ⟨hpackets, rfl, hhanded, -⟩ := hexecutes.idle hop
    rw [hpackets, hhanded]
    exact (hbefore.leave hholds).join hrest
  | some b =>
    obtain rfl : a = b := Call.request_of_holds hholds
    obtain ⟨c, hc, hfits⟩ := hbefore.carried _ List.mem_cons_self a hholds
    -- the thread, or the one it hands the request to, goes on with it
    have hone : Relay.InOrder Call.holds Fits Done (⟨s, a, v.onward a op ops rest⟩ ::
        ((v.threads.eraseIdx t).map RPCThread.call ++ v.queued)) v'.packets := by
      have hnext : ∀ f : Request → Request, v'.packets[a]? = some (f c) →
          Relay.InOrder Call.holds Fits Done (⟨s, a, v.onward a op ops rest⟩ ::
            ((v.threads.eraseIdx t).map RPCThread.call ++ v.queued)) (v.packets.modify a f) := by
        intro f hf
        apply hbefore.advance hholds
        intro c₁ hc₁ _
        obtain rfl : c = c₁ := Option.some.inj (hc.symm.trans hc₁)
        have hfits' := works c (f c) hc hf hfits
        cases hafter : (Call.mk s a (v.onward a op ops rest)).holds with
        | none => exact .inr ⟨rfl, done _ _ hfits' hafter⟩
        | some b =>
          obtain rfl : a = b := Call.request_of_holds hafter
          exact .inl ⟨rfl, hfits'⟩
      rcases hexecutes.packets with ⟨f, hf⟩ | ⟨event, requestID, sessionID, p, rfl, hfind, hp⟩
      · have hown : v'.packets[a]? = some (f c) := by
          rw [hf, List.getElem?_modify_eq, hc]
          rfl
        rw [hf]
        exact hnext f hown
      · by_cases hpa : p = a
        · subst hpa
          have hown : v'.packets[p]? = some (c.record event answer.time) := by
            rw [hp, List.getElem?_modify_eq, hc]
            rfl
          rw [hp]
          exact hnext _ hown
        · have hown : v'.packets[a]? = some (id c) := by
            rw [hp, List.getElem?_modify_ne _ _ hpa, hc]
            rfl
          have hstrays : v.Strays t := ⟨_, _, _, _, _, _, _, _, hat, hfind, hpa⟩
          obtain ⟨hfitsStray, hdoneStray⟩ := stray hstrays event answer.time
          have hnext' := hnext id hown
          rw [List.modify_id] at hnext'
          rw [hp]
          exact hnext'.touch hfitsStray hdoneStray
    rcases hexecutes.onward with ⟨hhanded, honward⟩ | ⟨hcloses, rfl, hhanded⟩
    · rw [honward] at hone
      rw [hhanded]
      exact hone
    · have hrest : (Call.mk s a ([] ++ rest)).holds = none :=
        (ordered _ _ hfits).holds_none hcloses
      rw [hhanded rest]
      refine Relay.InOrder.perm (hone.join hrest) (.cons _ ?_)
      exact List.perm_middle.symm

/-- THE STEP RULE: a relation between carriers and records is kept by every step if it holds of
what a session delivers, survives the request dispatcher's subtraction, and is kept by every
operation for the request that it is about. -/
theorem inOrder_step (h : Relay.InOrder Call.holds Fits Done v.carriers v.packets)
    (hmoves : Moves C v l v') (ordered : ∀ k c, Fits k c → Ordered k.ops)
    (born : ∀ t s body, l = .deliver t body → ∀ c, (v.onData C t s body).packets =
      v.packets ++ [c] → Fits ⟨s, v.packets.length, raise
        (if (C.parseFromArray body).isSome then .onDeserialized else .onDeserializedFailed)⟩ c)
    (taken : ∀ s a c, Fits ⟨s, a, raise .onCommited⟩ c →
      Fits ⟨s, a, .requestSub :: raise .onCommited⟩ c)
    (works : ∀ t role s a op rest answer v₁ ops c c', l = .advance t answer →
      v.threads[t]? = some ⟨role, s, a, op :: rest⟩ → Executes C v s a answer op v₁ ops →
      v.packets[a]? = some c → v₁.packets[a]? = some c' → Fits ⟨s, a, op :: rest⟩ c →
      Fits ⟨s, a, v.onward a op ops rest⟩ c')
    (stray : ∀ t answer, l = .advance t answer → v.Strays t → ∀ event time,
      (∀ k c, Fits k c → Fits k (c.record event time)) ∧
      ∀ c, Done c → Done (c.record event time))
    (done : ∀ k c, Fits k c → k.holds = none → Done c) :
    Relay.InOrder Call.holds Fits Done v'.carriers v'.packets := by
  cases hmoves with
  | @deliver t s s₀ a₀ body hat =>
    have hleft := (h.perm (carriers_perm hat)).leave rfl
    refine (hleft.bear ?_ (born t s body rfl _ rfl)).perm
      (carriers_set (v.onData C t s body) hat rfl).symm
    cases C.parseFromArray body <;> rfl
  | @takeRequest t s₀ a₀ s a items hat hitems =>
    have hleft := (h.perm (carriers_perm hat)).leave rfl
    have hqueued : v.queued = dispatchCall (s, a) ::
        (items.map dispatchCall ++ v.tasks.map taskCall) := by
      simp only [queued, hitems, List.map_cons, List.cons_append]
    have hfront : Relay.InOrder Call.holds Fits Done (dispatchCall (s, a) ::
        ((v.threads.eraseIdx t).map RPCThread.call ++
          (items.map dispatchCall ++ v.tasks.map taskCall))) v.packets := by
      apply hleft.perm
      rw [hqueued]
      exact List.perm_middle
    have hwork : Relay.InOrder Call.holds Fits Done (⟨s, a, .requestSub :: raise .onCommited⟩ ::
        ((v.threads.eraseIdx t).map RPCThread.call ++
          (items.map dispatchCall ++ v.tasks.map taskCall))) (v.packets.modify a id) :=
      hfront.advance rfl fun c _ hfits => .inl ⟨rfl, taken s a c hfits⟩
    rw [List.modify_id] at hwork
    refine hwork.perm (List.Perm.symm ?_)
    refine (carriers_set { v with
      requestQueue := v.requestQueue.unlink
      threads := v.threads.set t ⟨.requestDispatcher, s, a, .requestSub :: raise .onCommited⟩ }
      hat rfl).trans (.of_eq ?_)
    simp only [queued, ItemQueue.unlink, hitems, List.tail_cons]
  | @takeTask t s₀ a₀ s a serviceName tasks hat htasks =>
    have hleft := (h.perm (carriers_perm hat)).leave rfl
    refine hleft.perm (List.Perm.symm ?_)
    refine (carriers_set { v with
      tasks := tasks
      threads := v.threads.set t ⟨.worker, s, a, [.execute serviceName]⟩ } hat rfl).trans ?_
    simp only [queued, htasks, List.map_cons, ← List.append_assoc]
    exact List.perm_middle.symm
  | @advance t s a role op rest ops answer v₁ hat hexecutes =>
    exact inOrder_advance h hat hexecutes ordered
      (fun c c' => works t role s a op rest answer v₁ ops c c' rfl hat hexecutes)
      (stray t answer rfl) done
  | takeResponse | subtractResponse | completeWrite => exact h
  | sendResponse =>
    simp only [send]
    split <;> exact h

/-- Nothing has been received when the server starts. -/
theorem inOrder_new (roles : List Role) (services : List (String × Nat)) :
    Relay.InOrder Call.holds Fits Done (new roles services).carriers
      (new roles services).packets := by
  have hidle : ∀ k ∈ (new roles services).carriers,
      k.holds = none := by
    intro k hk
    obtain ⟨th, hth, rfl⟩ := List.mem_map.mp (by simpa only [carriers, queued, new, List.map_nil,
      List.append_nil] using hk)
    obtain ⟨role, -, rfl⟩ := List.mem_map.mp hth
    rfl
  refine ⟨?_, fun k hk a ha => ?_, fun a c hc => ?_⟩
  · rw [List.filterMap_eq_nil_iff.mpr hidle]
    exact List.nodup_nil
  · rw [hidle k hk] at ha
    cases ha
  · cases hc

/-- In a quiet state every request is done. -/
theorem done_of_quiet (h : Relay.InOrder Call.holds Fits Done v.carriers v.packets)
    (hq : v.Quiet) {a : Nat} {c : Request} (hc : v.packets[a]? = some c) : Done c := by
  apply h.done a c hc
  intro k hk
  obtain ⟨hthreads, hqueue, htasks⟩ := hq
  simp only [carriers, queued, hqueue, htasks, List.map_nil, List.append_nil] at hk
  obtain ⟨th, hth, rfl⟩ := List.mem_map.mp hk
  simp only [Call.holds, hthreads th hth, List.any_nil, Bool.false_eq_true, if_false]
  exact nofun

end Step

end RPCServer

end DSFramework.DSRPC
