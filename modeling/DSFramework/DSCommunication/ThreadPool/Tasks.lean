import Mathlib.Data.List.Perm.Basic
import DSFramework.DSCommunication.ThreadPool
import DSFramework.Lib.Relay

/-!
# The tasks of the pool

What happens to a task between its push and its end, whatever the schedule and whether or not the
pool is being stopped: the queue is first in, first out; a task is in the queue, in the hands of
one worker, or done, and is invoked once; `m_threadNum` counts the workers that are not between
their decrement and their increment; and work is never slept on, because the predicate and the
block lie in one section of the mutex that `Commit` pushes under.
-/

namespace DSFramework.DSCommunication

namespace ThreadPool

variable {τ : Type} {p p' : ThreadPool τ} {l : PoolLabel τ}

/-! ## The mutex -/

/-- Is the worker inside a section of `m_cv_mt`? -/
def inside : PoolWorker → Bool
  | .evaluating | .blocking | .dequeuing => true
  | _ => false

/-- The mutex, and what a worker inside its section knows: about to block, that there is no task;
about to leave the wait, that the predicate is true. -/
structure Locked (p : ThreadPool τ) : Prop where
  held : Threads.Held inside p.pool p.mutex
  owned : Threads.Owned inside p.pool p.mutex
  asleep : ∀ w : Nat, p.pool[w]? = some PoolWorker.blocking → p.tasks = []
  found : ∀ w : Nat, p.pool[w]? = some PoolWorker.dequeuing → p.ready = true
  stop_iff : p.stop = true ↔ p.stopping ≠ .outside

theorem at_new {poolSize : Int} {committers w : Nat} {x : PoolWorker}
    (hat : (new poolSize committers : ThreadPool τ).pool[w]? = some x) : x = .testing :=
  (List.mem_replicate.mp (List.mem_of_getElem? hat)).2

theorem locked_new (poolSize : Int) (committers : Nat) :
    (new poolSize committers : ThreadPool τ).Locked := by
  refine ⟨?_, Threads.owned_free _ _, ?_, ?_, ?_⟩
  · intro w x hat hinside
    cases at_new hat
    cases hinside
  · intro w hat
    cases at_new hat
  · intro w hat
    cases at_new hat
  · simp only [new, Bool.false_eq_true, ne_eq, not_true_eq_false]

/-- With the mutex free nobody knows anything. -/
theorem Locked.of_free (hheld : Threads.Held inside p.pool none) (hmutex : p.mutex = none)
    (hstop : p.stop = true ↔ p.stopping ≠ .outside) : p.Locked := by
  refine ⟨hmutex ▸ hheld, hmutex ▸ Threads.owned_free _ _, ?_, ?_, hstop⟩
  · intro w hat
    cases hheld w _ hat rfl
  · intro w hat
    cases hheld w _ hat rfl

/-- A worker goes on outside of the section; the tasks and the pool's state stay as they are. -/
theorem Locked.goto (h : p.Locked) {w : Nat} {x x₀ : PoolWorker} (hat : p.pool[w]? = some x₀)
    (hx₀ : inside x₀ = false) (hx : inside x = false)
    (hpool : p'.pool = p.pool.set w x) (htasks : p'.tasks = p.tasks) (hstop : p'.stop = p.stop)
    (hmutex : p'.mutex = p.mutex) (hstopping : p'.stopping = p.stopping) : p'.Locked := by
  have hother : ∀ {i : Nat} {y : PoolWorker}, p'.pool[i]? = some y → inside y = true →
      p.pool[i]? = some y := by
    intro i y hi hy
    rw [hpool] at hi
    obtain ⟨-, rfl⟩ | ⟨-, hi⟩ := Threads.at_set hi
    · rw [hx] at hy
      cases hy
    · exact hi
  refine ⟨?_, ?_, ?_, ?_, ?_⟩
  · intro i y hi hy
    rw [hmutex]
    exact h.held i y (hother hi hy) hy
  · rw [hpool, hmutex]
    exact h.owned.goto hat fun hinside => absurd (hx₀.symm.trans hinside) Bool.false_ne_true
  · intro i hi
    rw [htasks]
    exact h.asleep i (hother hi rfl)
  · intro i hi
    rw [ready, hstop, htasks]
    exact h.found i (hother hi rfl)
  · rw [hstop, hstopping]
    exact h.stop_iff

/-- Where `notify_all` leaves a worker elsewhere than before the mutex, it has not touched it. -/
theorem at_woken {pool : List PoolWorker} {w : Nat} {x : PoolWorker}
    (hat : (pool.map woken)[w]? = some x) (hx : x ≠ .relocking) : pool[w]? = some x := by
  rw [List.getElem?_map] at hat
  obtain ⟨y, hy, rfl⟩ := Option.map_eq_some_iff.mp hat
  cases y with
  | blocked => exact absurd rfl hx
  | _ => exact hy

/-- One step keeps the mutex and what is known under it. -/
theorem Locked.step (h : p.Locked) (hstep : Moves p l p') : p'.Locked := by
  cases hstep with
  | call | refuse | pass | lose => exact ⟨h.held, h.owned, h.asleep, h.found, h.stop_iff⟩
  | wake _ hat | leave hat | loop hat | decrement hat | invoke hat | finishTask hat
  | increment hat | wakeUp hat => exact h.goto hat rfl rfl rfl rfl rfl rfl rfl
  | push hat hfree =>
    have hheld : Threads.Held inside p.pool none := hfree ▸ h.held
    exact .of_free hheld hfree h.stop_iff
  | @lock w x hat hx hfree =>
    have hnobody : ∀ {i : Nat} {y : PoolWorker},
        (p.pool.set w .evaluating)[i]? = some y → inside y = true → y = .evaluating := by
      intro i y hi hy
      obtain ⟨-, rfl⟩ | ⟨-, hi⟩ := Threads.at_set hi
      · rfl
      · have hmutex := h.held i y hi hy
        rw [hfree] at hmutex
        cases hmutex
    refine ⟨(hfree ▸ h.held).lock .evaluating, Threads.owned_lock hat rfl, ?_, ?_, h.stop_iff⟩
    · intro i hi
      cases hnobody hi rfl
    · intro i hi
      cases hnobody hi rfl
  | @found w hat hready =>
    refine ⟨h.held.goto fun _ => h.held w _ hat rfl, h.owned.goto hat fun _ => rfl, ?_,
      fun _ _ => hready, h.stop_iff⟩
    intro i hi
    exact h.asleep i (Threads.at_of_set hi nofun)
  | @empty w hat hready =>
    have hnone : p.tasks = [] := by
      simp only [ready, Bool.or_eq_false_iff, Bool.not_eq_false', List.isEmpty_iff] at hready
      exact hready.2
    refine ⟨h.held.goto fun _ => h.held w _ hat rfl, h.owned.goto hat fun _ => rfl,
      fun _ _ => hnone, ?_, h.stop_iff⟩
    intro i hi
    exact h.found i (Threads.at_of_set hi nofun)
  | block hat | finish hat | dequeue hat =>
    exact .of_free (h.held.unlock hat rfl rfl) rfl h.stop_iff
  | store hstopping =>
    refine ⟨h.held, h.owned, h.asleep, fun _ _ => rfl, ?_⟩
    simp only [ne_eq, reduceCtorEq, not_false_eq_true]
  | notifyAll hstopping =>
    refine ⟨?_, ?_, ?_, ?_, ?_⟩
    · intro w x hat hinside
      have hx : x ≠ .relocking := by
        rintro rfl
        cases hinside
      exact h.held w x (at_woken hat hx) hinside
    · intro w hmutex
      obtain ⟨x, hat, hinside⟩ := h.owned w hmutex
      refine ⟨woken x, by rw [List.getElem?_map, hat, Option.map_some], ?_⟩
      cases x <;> exact hinside
    · intro w hat
      exact h.asleep w (at_woken hat (by decide))
    · intro w hat
      exact h.found w (at_woken hat (by decide))
    · have hstop := h.stop_iff
      rw [hstopping] at hstop
      simpa only [ne_eq, reduceCtorEq, not_false_eq_true] using hstop
  | join hstopping | stopped hstopping =>
    refine ⟨h.held, h.owned, h.asleep, h.found, ?_⟩
    have hstop := h.stop_iff
    rw [hstopping] at hstop
    simpa only [ne_eq, reduceCtorEq, not_false_eq_true] using hstop

theorem locked_of_reachable {ok : ThreadPool τ → PoolLabel τ → Prop}
    (h : (machine τ).ReachableBy ok p) : p.Locked :=
  h.invariant (fun _ ⟨poolSize, committers, hp⟩ => hp ▸ locked_new poolSize committers)
    fun _ _ _ hl _ hstep => hl.step (moves_of_step hstep)

/-! ## First in, first out -/

/-- The tasks, in the order of their pushes, are those dequeued, in that order, and then those in
`m_tasks`. -/
def InTurn (p : ThreadPool τ) : Prop := List.range p.records.length = p.dequeued ++ p.tasks

theorem InTurn.step (h : p.InTurn) (hstep : Moves p l p') : p'.InTurn := by
  cases hstep with
  | call | refuse | pass | wake | lose | leave | loop | lock | found | empty | block | finish
  | decrement | increment | wakeUp | store | notifyAll | join | stopped => exact h
  | push =>
    simp only [InTurn, ThreadPool.push, proceed, List.length_append, List.length_singleton,
      List.range_succ, ← List.append_assoc]
    rw [h]
  | dequeue hat htasks =>
    simp only [InTurn, unlock, ThreadPool.goto, List.append_assoc, List.singleton_append]
    rw [← htasks]
    exact h
  | invoke | finishTask =>
    simpa only [InTurn, ThreadPool.goto, update, List.length_modify] using h

theorem inTurn_of_reachable {ok : ThreadPool τ → PoolLabel τ → Prop}
    (h : (machine τ).ReachableBy ok p) : p.InTurn :=
  h.invariant (fun _ ⟨_, _, hp⟩ => hp ▸ rfl) fun _ _ _ ht _ hstep => ht.step (moves_of_step hstep)

/-! ## In one place at a time -/

/-- Where a task may be: in the queue, or in the hands of a worker. -/
inductive Holder where
  | queued (task : Nat)
  | worker (x : PoolWorker)

/-- The task that a worker has taken and not yet ended. -/
def taken : PoolWorker → Option Nat
  | .decrementing task | .invoking task | .running task => some task
  | _ => none

def Holder.holds : Holder → Option Nat
  | .queued task => some task
  | .worker x => taken x

/-- A task is invoked by the step to `running`, and ended by the one from there. -/
def Holder.Fits : Holder → PoolTask τ → Prop
  | .worker (.running _), r => r.invocations.length = 1 ∧ r.ended = false
  | _, r => r.invocations.length = 0 ∧ r.ended = false

/-- A task that nobody holds has been invoked once and has ended. -/
def Done (r : PoolTask τ) : Prop := r.invocations.length = 1 ∧ r.ended = true

def holders (p : ThreadPool τ) : List Holder := p.pool.map .worker ++ p.tasks.map .queued

/-- Every task is in the queue, with one worker, or done. -/
def Custody (p : ThreadPool τ) : Prop :=
  Relay.InOrder Holder.holds Holder.Fits Done p.holders p.records

theorem holders_perm {w : Nat} {x : PoolWorker} (hat : p.pool[w]? = some x) :
    p.holders.Perm
      (.worker x :: ((p.pool.eraseIdx w).map Holder.worker ++ p.tasks.map Holder.queued)) := by
  obtain ⟨hlt, rfl⟩ := List.getElem?_eq_some_iff.mp hat
  exact ((List.getElem_cons_eraseIdx_perm hlt).symm.map Holder.worker).append_right _

theorem holders_set (p' : ThreadPool τ) {w : Nat} {x y : PoolWorker} (hat : p.pool[w]? = some x)
    (hpool : p'.pool = p.pool.set w y) :
    p'.holders.Perm
      (.worker y :: ((p.pool.eraseIdx w).map Holder.worker ++ p'.tasks.map Holder.queued)) := by
  obtain ⟨hlt, -⟩ := List.getElem?_eq_some_iff.mp hat
  have hset := (List.set_perm_cons_eraseIdx hlt y).map Holder.worker
  rw [← hpool] at hset
  exact hset.append_right _

/-- A worker without a task goes on without one. -/
theorem Custody.move (h : p.Custody) {w : Nat} {x y : PoolWorker} (hat : p.pool[w]? = some x)
    (hx : taken x = none) (hy : taken y = none) (hpool : p'.pool = p.pool.set w y)
    (htasks : p'.tasks = p.tasks) (hrecords : p'.records = p.records) : p'.Custody := by
  have hrest := (h.perm (holders_perm hat)).leave hx
  have hnew := hrest.join (show Holder.holds (.worker y) = none from hy)
  have hperm := holders_set p' hat hpool
  rw [htasks] at hperm
  rw [Custody, hrecords]
  exact hnew.perm hperm.symm

/-- A worker goes on with its task. -/
theorem Custody.work (h : p.Custody) {w task : Nat} {x y : PoolWorker}
    {f : PoolTask τ → PoolTask τ} (hat : p.pool[w]? = some x) (hx : taken x = some task)
    (hpool : p'.pool = p.pool.set w y) (htasks : p'.tasks = p.tasks)
    (hrecords : p'.records = p.records.modify task f)
    (works : ∀ r, Holder.Fits (.worker x) r →
      (taken y = some task ∧ Holder.Fits (.worker y) (f r)) ∨ (taken y = none ∧ Done (f r))) :
    p'.Custody := by
  have hnew : Relay.InOrder Holder.holds Holder.Fits Done
      (.worker y :: ((p.pool.eraseIdx w).map Holder.worker ++ p.tasks.map Holder.queued))
      (p.records.modify task f) :=
    (h.perm (holders_perm hat)).advance hx fun r _ hfits => works r hfits
  have hperm := holders_set p' hat hpool
  rw [htasks] at hperm
  rw [Custody, hrecords]
  exact hnew.perm hperm.symm

/-- One step keeps every task in one place. -/
theorem Custody.step (h : p.Custody) (hstep : Moves p l p') : p'.Custody := by
  cases hstep with
  | call | refuse | pass | lose | store | join | stopped => exact h
  | wake _ hat | wakeUp hat | leave hat | loop hat | found hat | empty hat | block hat
  | finish hat | increment hat => exact h.move hat rfl rfl rfl rfl rfl
  | lock hat hx =>
    obtain rfl | rfl := hx
    · exact h.move hat rfl rfl rfl rfl rfl
    · exact h.move hat rfl rfl rfl rfl rfl
  | decrement hat =>
    exact h.work hat rfl rfl rfl (List.modify_id _ _).symm fun r hfits => .inl ⟨rfl, hfits⟩
  | invoke hat =>
    refine h.work hat rfl rfl rfl rfl fun r hfits => ?_
    refine .inl ⟨rfl, ?_, hfits.2⟩
    rw [List.length_append, hfits.1, List.length_singleton]
  | finishTask hat =>
    exact h.work hat rfl rfl rfl rfl fun r hfits => .inr ⟨rfl, hfits.1, rfl⟩
  | push hat hfree =>
    refine Relay.InOrder.perm (Relay.InOrder.bear h (k := .queued p.records.length) rfl ?_) ?_
    · exact ⟨rfl, rfl⟩
    · simp only [holders, ThreadPool.push, proceed, List.map_append, List.map_cons, List.map_nil,
        ← List.append_assoc]
      exact (List.perm_append_singleton _ _).symm
  | @dequeue w task tasks hat htasks =>
    -- the worker comes without a task, and takes over the one at the front
    have hperm := holders_perm hat
    rw [htasks, List.map_cons] at hperm
    have hfront := ((h.perm hperm).leave rfl).perm List.perm_middle
    have hnew : Relay.InOrder Holder.holds Holder.Fits Done (.worker (.decrementing task) ::
        ((p.pool.eraseIdx w).map Holder.worker ++ tasks.map Holder.queued))
        (p.records.modify task id) := hfront.advance rfl fun r _ hfits => .inl ⟨rfl, hfits⟩
    rw [List.modify_id] at hnew
    refine Relay.InOrder.perm hnew (List.Perm.symm ?_)
    exact holders_set _ hat rfl
  | notifyAll =>
    have hnew := Relay.InOrder.map h (f := fun k => match k with
        | .worker x => .worker (woken x)
        | k => k)
      (fun k => by
        cases k with
        | queued task => rfl
        | worker x => cases x <;> rfl)
      fun k r hfits => by
        cases k with
        | queued task => exact hfits
        | worker x => cases x <;> exact hfits
    simp only [holders, List.map_append, List.map_map] at hnew
    simpa only [Custody, holders, List.map_map, Function.comp_def] using hnew

theorem custody_new (poolSize : Int) (committers : Nat) :
    (new poolSize committers : ThreadPool τ).Custody := by
  have hidle : ∀ k ∈ (new poolSize committers : ThreadPool τ).holders, k = .worker .testing := by
    intro k hk
    simp only [holders, new, List.map_replicate, List.map_nil, List.append_nil] at hk
    exact (List.mem_replicate.mp hk).2
  refine ⟨?_, ?_, ?_⟩
  · rw [List.filterMap_eq_nil_iff.mpr fun k hk => by rw [hidle k hk]; rfl]
    exact List.nodup_nil
  · intro k hk a ha
    rw [hidle k hk] at ha
    cases ha
  · intro a r hr
    cases hr

theorem custody_of_reachable {ok : ThreadPool τ → PoolLabel τ → Prop}
    (h : (machine τ).ReachableBy ok p) : p.Custody :=
  h.invariant (fun _ ⟨poolSize, committers, hp⟩ => hp ▸ custody_new poolSize committers)
    fun _ _ _ hc _ hstep => hc.step (moves_of_step hstep)

/-! ## The idle count -/

/-- Is the worker between its decrement and its increment? -/
def busy : PoolWorker → Bool
  | .invoking _ | .running _ | .incrementing => true
  | _ => false

/-- `m_threadNum` is the number of the workers that are not busy; there are at least two workers. -/
structure Counted (p : ThreadPool τ) : Prop where
  idle_eq : p.threadNum + p.pool.countP busy = p.pool.length
  size_le : 2 ≤ p.pool.length

theorem counted_new (poolSize : Int) (committers : Nat) :
    (new poolSize committers : ThreadPool τ).Counted := by
  have hpositive : 2 ≤ if poolSize ≤ 1 then 2 else poolSize := by split <;> omega
  constructor
  · have hnobody : (List.replicate (if poolSize ≤ 1 then 2 else poolSize).toNat
        PoolWorker.testing).countP busy = 0 :=
      List.countP_eq_zero.mpr fun x hx => by rw [(List.mem_replicate.mp hx).2]; decide
    simp only [new, hnobody, List.length_replicate]
    omega
  · simp only [new, List.length_replicate]
    omega

/-- A worker that moves changes the count when it becomes busy or idle. -/
theorem Counted.move (h : p.Counted) {w : Nat} {x y : PoolWorker} (hat : p.pool[w]? = some x)
    (hpool : p'.pool = p.pool.set w y)
    (hnum : p'.threadNum + (busy y).toNat = p.threadNum + (busy x).toNat) : p'.Counted := by
  have hbusy := Threads.countP_set busy hat y
  have hidle := h.idle_eq
  constructor
  · rw [hpool, List.length_set]
    omega
  · rw [hpool, List.length_set]
    exact h.size_le

theorem countP_woken (pool : List PoolWorker) :
    (pool.map woken).countP busy = pool.countP busy := by
  rw [List.countP_map]
  exact List.countP_congr fun x _ => by cases x <;> rfl

theorem Counted.step (h : p.Counted) (hstep : Moves p l p') : p'.Counted := by
  cases hstep with
  | call | refuse | pass | push | lose | store | join | stopped => exact ⟨h.idle_eq, h.size_le⟩
  | wake _ hat | wakeUp hat | leave hat | loop hat | found hat | empty hat | block hat
  | finish hat | dequeue hat | invoke hat | finishTask hat => exact h.move hat rfl rfl
  | lock hat hx =>
    obtain rfl | rfl := hx
    · exact h.move hat rfl rfl
    · exact h.move hat rfl rfl
  | decrement hat | increment hat =>
    apply h.move hat rfl
    simp only [busy, ThreadPool.goto, Bool.toNat_true, Bool.toNat_false]
    omega
  | notifyAll =>
    refine ⟨?_, ?_⟩
    · rw [countP_woken, List.length_map]
      exact h.idle_eq
    · rw [List.length_map]
      exact h.size_le

theorem counted_of_reachable {ok : ThreadPool τ → PoolLabel τ → Prop}
    (h : (machine τ).ReachableBy ok p) : p.Counted :=
  h.invariant (fun _ ⟨poolSize, committers, hp⟩ => hp ▸ counted_new poolSize committers)
    fun _ _ _ hc _ hstep => hc.step (moves_of_step hstep)

/-! ## Work is not slept on -/

/-- Has the thread pushed its task and not yet notified? -/
def announcing : Committer τ → Bool
  | .notifying _ => true
  | _ => false

/-- Work is slept on: there is a task, every worker is blocked, and no `Commit` stands between its
push and its `notify_one`. -/
def Stalled (p : ThreadPool τ) : Prop :=
  p.tasks ≠ [] ∧ (∀ x ∈ p.pool, x = .blocked) ∧ ∀ c ∈ p.committers, announcing c = false

/-- While there is a task, some `Commit` will still notify or some worker is awake. -/
def Attended (p : ThreadPool τ) : Prop :=
  p.tasks ≠ [] → (∃ c ∈ p.committers, announcing c = true) ∨ ∃ x ∈ p.pool, x ≠ .blocked

/-- A thread that moves without a notification to make takes none away. -/
theorem announcing_set {committers : List (Committer τ)} {t : Nat} {c c' : Committer τ}
    (hat : committers[t]? = some c) (hc : announcing c = false)
    (h : ∃ c ∈ committers, announcing c = true) :
    ∃ c ∈ committers.set t c', announcing c = true := by
  obtain ⟨d, hmem, hd⟩ := h
  obtain ⟨i, hi⟩ := List.mem_iff_getElem?.mp hmem
  have hne : i ≠ t := by
    rintro rfl
    rw [hat] at hi
    cases hi
    rw [hc] at hd
    cases hd
  exact ⟨d, List.mem_of_getElem? ((Threads.at_set_ne c' hne).trans hi), hd⟩

/-- One step leaves every task attended. A block comes with an empty queue, and a notification is
lost only where nobody is blocked. -/
theorem Attended.step (hl : p.Locked) (hc : p.Counted) (h : p.Attended)
    (hstep : Moves p l p') : p'.Attended := by
  have awake : ∀ {w : Nat} {x y : PoolWorker}, p.pool[w]? = some x → y ≠ .blocked →
      ∃ z ∈ p.pool.set w y, z ≠ .blocked := fun {w x y} hat hy =>
    ⟨y, List.mem_of_getElem? (Threads.at_set_self hat y), hy⟩
  obtain ⟨x, hx⟩ := List.exists_mem_of_length_pos (Nat.lt_of_lt_of_le Nat.zero_lt_two hc.size_le)
  intro htasks
  cases hstep with
  | store | join | stopped => exact h htasks
  | call hat | refuse hat | pass hat =>
    obtain hnotify | hawake := h htasks
    · exact .inl (announcing_set hat rfl hnotify)
    · exact .inr hawake
  | push hat =>
    exact .inl ⟨_, List.mem_of_getElem? (Threads.at_set_self hat _), rfl⟩
  | lose _ hnobody =>
    refine .inr ⟨x, hx, ?_⟩
    rintro rfl
    exact List.any_eq_false.mp hnobody _ hx rfl
  | wake _ hat | leave hat | loop hat | lock hat | found hat | empty hat | finish hat
  | dequeue hat | decrement hat | invoke hat | finishTask hat | increment hat | wakeUp hat =>
    exact .inr (awake hat nofun)
  | block hat => exact absurd (hl.asleep _ hat) htasks
  | notifyAll =>
    refine .inr ⟨woken x, List.mem_map_of_mem hx, ?_⟩
    cases x <;> exact nofun

theorem attended_of_reachable {ok : ThreadPool τ → PoolLabel τ → Prop}
    (h : (machine τ).ReachableBy ok p) : p.Attended :=
  h.invariant_with (J := fun p => p.Locked ∧ p.Counted)
    (fun _ hp => ⟨locked_of_reachable hp, counted_of_reachable hp⟩)
    (fun _ ⟨_, _, hp⟩ htasks => absurd (hp ▸ rfl) htasks)
    fun _ _ _ ⟨hl, hc⟩ ha _ hstep => Attended.step hl hc ha (moves_of_step hstep)

theorem not_stalled_of_reachable (h : (machine τ).Reachable p) : ¬ p.Stalled := by
  intro ⟨htasks, hblocked, hnobody⟩
  obtain ⟨c, hmem, hc⟩ | ⟨x, hmem, hx⟩ := attended_of_reachable h htasks
  · rw [hnobody c hmem] at hc
    cases hc
  · exact hx (hblocked x hmem)

/-! ## The tasks in every reachable state -/

/-- How many workers have the task in their hands. -/
def takers (p : ThreadPool τ) (task : Nat) : Nat := p.pool.countP (taken · == some task)

/-- How many workers are running the task. -/
def runners (p : ThreadPool τ) (task : Nat) : Nat := p.pool.countP (· == .running task)

theorem filterMap_holders (p : ThreadPool τ) :
    p.holders.filterMap Holder.holds = p.pool.filterMap taken ++ p.tasks := by
  have hqueued : (Holder.holds ∘ Holder.queued) = some := rfl
  have hworker : (Holder.holds ∘ Holder.worker) = taken := rfl
  rw [holders, List.filterMap_append, List.filterMap_map, List.filterMap_map, hqueued, hworker,
    List.filterMap_some]

theorem takers_eq_count (p : ThreadPool τ) (task : Nat) :
    p.takers task = (p.pool.filterMap taken).count task := List.count_filterMap.symm

theorem runners_le_takers (p : ThreadPool τ) (task : Nat) : p.runners task ≤ p.takers task := by
  apply List.countP_mono_left
  intro x _ hx
  rw [eq_of_beq hx]
  exact beq_self_eq_true _

/-- A pushed task that is not in the queue has been dequeued. -/
theorem InTurn.mem_dequeued (h : p.InTurn) {task : Nat} (hlt : task < p.records.length)
    (hnot : task ∉ p.tasks) : task ∈ p.dequeued := by
  have hmem : task ∈ p.dequeued ++ p.tasks := h ▸ List.mem_range.mpr hlt
  exact (List.mem_append.mp hmem).resolve_right hnot

/-- WHERE A TASK IS: in the queue, not yet invoked; in the hands of one worker, invoked when that
worker runs it; or done, invoked once. -/
theorem Custody.cases (hc : p.Custody) (ht : p.InTurn) {task : Nat} {r : PoolTask τ}
    (hr : p.records[task]? = some r) :
    (task ∈ p.tasks ∧ p.takers task = 0 ∧ r.invocations.length = 0 ∧ r.ended = false) ∨
    (task ∈ p.dequeued ∧ p.takers task = 1 ∧ r.invocations.length = p.runners task ∧
      r.ended = false) ∨
    (task ∈ p.dequeued ∧ p.takers task = 0 ∧ r.invocations.length = 1 ∧ r.ended = true) := by
  have halone := hc.alone
  rw [filterMap_holders, List.nodup_append] at halone
  obtain ⟨htaken, -, hdisjoint⟩ := halone
  have hlt := (List.getElem?_eq_some_iff.mp hr).1
  have hfits : ∀ x ∈ p.pool, taken x = some task → Holder.Fits (.worker x) r := by
    intro x hx htask
    obtain ⟨r', hr', hfits⟩ := hc.carried (.worker x)
      (List.mem_append_left _ (List.mem_map_of_mem hx)) task htask
    rw [hr] at hr'
    cases hr'
    exact hfits
  obtain ⟨k, hk, hholds, hkfits⟩ | ⟨hnobody, hdone⟩ := hc.held_or_done hr
  · rcases List.mem_append.mp hk with hk | hk
    · obtain ⟨x, hx, rfl⟩ := List.mem_map.mp hk
      have hmem : task ∈ p.pool.filterMap taken := List.mem_filterMap.mpr ⟨x, hx, hholds⟩
      have htakers : p.takers task = 1 :=
        (takers_eq_count p task).trans (List.count_eq_one_of_mem htaken hmem)
      have hdequeued := ht.mem_dequeued hlt fun hqueued => hdisjoint task hmem task hqueued rfl
      have hruns := runners_le_takers p task
      refine .inr (.inl ⟨hdequeued, htakers, ?_, ?_⟩)
      · -- the one worker that has the task tells, by its place, whether it was invoked
        by_cases hrunning : .running task ∈ p.pool
        · have hpos : 0 < p.runners task :=
            List.countP_pos_iff.mpr ⟨_, hrunning, beq_self_eq_true _⟩
          rw [(hfits _ hrunning rfl).1]
          omega
        · have hzero : p.runners task = 0 := List.countP_eq_zero.mpr fun y hy hrun =>
            hrunning (eq_of_beq hrun ▸ hy)
          rw [hzero]
          cases x with
          | decrementing a | invoking a => exact hkfits.1
          | running a =>
            cases hholds
            exact absurd hx hrunning
          | _ => cases hholds
      · cases x <;> exact hkfits.2
    · obtain ⟨a, ha, rfl⟩ := List.mem_map.mp hk
      cases hholds
      refine .inl ⟨ha, ?_, hkfits.1, hkfits.2⟩
      rw [takers_eq_count]
      exact List.count_eq_zero.mpr fun hmem => hdisjoint task hmem task ha rfl
  · have hqueued : task ∉ p.tasks := fun hmem =>
      hnobody (.queued task) (List.mem_append_right _ (List.mem_map_of_mem hmem)) rfl
    refine .inr (.inr ⟨ht.mem_dequeued hlt hqueued, ?_, hdone⟩)
    refine List.countP_eq_zero.mpr fun x hx htask => ?_
    exact hnobody (.worker x) (List.mem_append_left _ (List.mem_map_of_mem hx)) (eq_of_beq htask)

/-- The pool under any interleaving of its workers with any number of threads that commit, of any
size, stopped or not: the tasks pushed are, in order, those dequeued and then `m_tasks`; each is
queued, with one worker or done, and invoked once, when its worker runs it; `m_threadNum` is the
number of the workers that are not between their decrement and their increment; and work is not
slept on. -/
theorem tasks_of_reachable (h : (machine τ).Reachable p) :
    List.range p.records.length = p.dequeued ++ p.tasks ∧
    (∀ (task : Nat) r, p.records[task]? = some r →
      (task ∈ p.tasks ∧ p.takers task = 0 ∧ r.invocations.length = 0 ∧ r.ended = false) ∨
      (task ∈ p.dequeued ∧ p.takers task = 1 ∧ r.invocations.length = p.runners task ∧
        r.ended = false) ∨
      (task ∈ p.dequeued ∧ p.takers task = 0 ∧ r.invocations.length = 1 ∧ r.ended = true)) ∧
    (p.threadNum = p.pool.length - p.pool.countP busy ∧ 0 ≤ p.threadNum ∧
      p.threadNum ≤ p.pool.length) ∧
    ¬ p.Stalled := by
  have hturn := inTurn_of_reachable h
  have hcounted := (counted_of_reachable h).idle_eq
  have hbusy : p.pool.countP busy ≤ p.pool.length := List.countP_le_length
  refine ⟨hturn, fun task r hr => (custody_of_reachable h).cases hturn hr, ?_,
    not_stalled_of_reachable h⟩
  omega

/-- Two tasks on two workers: the first one is done, the second waits for the other worker. -/
theorem tasks_of_reachable_two :
    ∃ p : ThreadPool Nat, (machine Nat).run (new 2 1)
        [.call 0 7, .commit 0, .commit 0, .notifyOne 0 none, .work 0, .work 0, .work 0, .work 0,
          .work 0, .work 0, .work 0, .call 0 8, .commit 0, .commit 0] = some p ∧
      p.tasks = [1] ∧ p.dequeued = [0] ∧ ¬ p.Stalled := by
  have hrun : (machine Nat).run (new 2 1)
      [.call 0 7, .commit 0, .commit 0, .notifyOne 0 none, .work 0, .work 0, .work 0, .work 0,
        .work 0, .work 0, .work 0, .call 0 8, .commit 0, .commit 0] = some _ := rfl
  exact ⟨_, hrun, rfl, rfl, (tasks_of_reachable (.run (.start ⟨2, 1, rfl⟩) hrun)).2.2.2⟩

end ThreadPool

end DSFramework.DSCommunication
