import DSFramework.DSCommunication.ThreadPool.Tasks

/-!
# Stopping the pool

`Stop` stores `m_stop` and notifies without the mutex. A worker that has found the predicate false
and not yet blocked is missed by `notify_all`, and blocks for good: the join of it never returns.
`heeded` excludes just that schedule, and then every join returns.

The loop of a worker tests `m_stop` before anything else, and `Commit` tests it before it takes the
mutex. So a task may be left in the queue by the last worker to leave, or pushed after it has left.
`drained` excludes these two, and then every accepted task has been run when `Stop` returns.
-/

namespace DSFramework.DSCommunication

namespace ThreadPool

variable {τ : Type} {p p' : ThreadPool τ} {l : PoolLabel τ}

/-! ## The joins -/

/-- Does the worker stand between a false predicate and its block? -/
def dozing : PoolWorker → Bool
  | .blocking => true
  | _ => false

/-- Has `Stop` executed its `notify_all`? -/
def notified : Stopping → Bool
  | .joining _ | .returned => true
  | .outside | .notifying => false

/-- The condition on a step: `notify_all` finds no worker between a false predicate and its
block. -/
def heeded (p : ThreadPool τ) : PoolLabel τ → Bool
  | .stop => p.stopping != .notifying || !p.pool.any dozing
  | _ => true

/-- Once `notify_all` is past, no worker is blocked or about to block. -/
def Roused (p : ThreadPool τ) : Prop :=
  notified p.stopping = true → ∀ x ∈ p.pool, x ≠ .blocking ∧ x ≠ .blocked

theorem notified_ne {s : Stopping} (h : notified s = true) : s ≠ .outside := by
  rintro rfl
  cases h

/-- Does the worker stand in the wait, or before its block? -/
def asleep : PoolWorker → Bool
  | .blocking | .blocked => true
  | _ => false

theorem awake {x : PoolWorker} (h : asleep x = false) : x ≠ .blocking ∧ x ≠ .blocked := by
  constructor
  · rintro rfl
    cases h
  · rintro rfl
    cases h

/-- A worker that goes on to another place than the wait. -/
theorem Roused.goto (h : p.Roused) {w : Nat} {x : PoolWorker} (hpool : p'.pool = p.pool.set w x)
    (hstopping : p'.stopping = p.stopping) (hx : x ≠ .blocking ∧ x ≠ .blocked) : p'.Roused := by
  intro hnotified y hy
  rw [hstopping] at hnotified
  rw [hpool] at hy
  rcases List.mem_or_eq_of_mem_set hy with hmem | rfl
  · exact h hnotified y hmem
  · exact hx

/-- One step keeps the workers awake: the predicate is true from the store on. -/
theorem Roused.step (hl : p.Locked) (h : p.Roused) (hok : p.heeded l = true)
    (hstep : Moves p l p') : p'.Roused := by
  cases hstep with
  | call | refuse | pass | push | lose => exact h
  | store => exact nofun
  | wake | leave | loop | lock | found | finish | dequeue | decrement | invoke | finishTask
  | increment | wakeUp => exact h.goto rfl rfl (awake rfl)
  | empty hat hready =>
    intro hnotified
    have hstop := hl.stop_iff.mpr (notified_ne hnotified)
    rw [ready, hstop] at hready
    cases hready
  | block hat =>
    intro hnotified
    exact absurd rfl (h hnotified _ (List.mem_of_getElem? hat)).1
  | notifyAll hstopping =>
    intro _ x hx
    obtain ⟨y, hy, rfl⟩ := List.mem_map.mp hx
    simp only [heeded, hstopping, bne_self_eq_false, Bool.false_or, Bool.not_eq_true',
      List.any_eq_false] at hok
    have hawake := hok y hy
    cases y with
    | blocking => exact absurd rfl hawake
    | _ => exact awake rfl
  | join hstopping | stopped hstopping =>
    intro _ x hx
    exact h (by rw [hstopping]; rfl) x hx

theorem roused_of_reachable (h : (machine τ).ReachableBy (fun p l => p.heeded l = true) p) :
    p.Roused :=
  h.invariant_with (fun _ => locked_of_reachable)
    (fun _ ⟨_, _, hp⟩ hnotified => by rw [hp] at hnotified; cases hnotified)
    fun _ _ _ hl hr hok hstep => Roused.step hl hr hok (moves_of_step hstep)

/-- The steps that a worker has left when the pool has been stopped. -/
def left : PoolWorker → Nat
  | .ended => 0
  | .testing => 1
  | .incrementing => 2
  | .running _ => 3
  | .invoking _ => 4
  | .decrementing _ => 5
  | .dequeuing => 6
  | .evaluating => 7
  | .locking | .relocking => 8
  | .blocking | .blocked => 9

/-- The steps that `Stop` has left once it joins. -/
def joinsLeft (workers : Nat) : Stopping → Nat
  | .joining w => workers - w + 1
  | _ => 0

def stepsLeft (p : ThreadPool τ) : Nat :=
  Threads.total left p.pool + joinsLeft p.pool.length p.stopping

/-- Is it a step of a worker or of `Stop`? -/
def ofPool : PoolLabel τ → Bool
  | .work _ | .stop => true
  | _ => false

/-- What holds from `notify_all` on. -/
structure Closing (p : ThreadPool τ) : Prop where
  locked : p.Locked
  notified : notified p.stopping = true
  roused : ∀ x ∈ p.pool, x ≠ .blocking ∧ x ≠ .blocked

theorem Closing.step (h : p.Closing) (hstep : Moves p l p') : p'.Closing := by
  have hok : p.heeded l = true := by
    have hnotifying : p.stopping ≠ .notifying := by
      intro heq
      have hnotified := h.notified
      rw [heq] at hnotified
      cases hnotified
    cases l <;> simp only [heeded, bne_iff_ne.mpr hnotifying, Bool.true_or]
  have hnotified : ThreadPool.notified p'.stopping = true := by
    have hnotified := h.notified
    cases hstep with
    | store hstopping | notifyAll hstopping =>
      rw [hstopping] at hnotified
      cases hnotified
    | join | stopped => rfl
    | call | refuse | pass | push | wake | lose | leave | loop | lock | found | empty | block
    | finish | dequeue | decrement | invoke | finishTask | increment | wakeUp => exact hnotified
  exact ⟨h.locked.step hstep, hnotified,
    Roused.step h.locked (fun _ => h.roused) hok hstep hnotified⟩

/-- A worker's step takes from what it has left. -/
theorem stepsLeft_goto {w : Nat} {x y : PoolWorker} (hat : p.pool[w]? = some x)
    (hleft : left y + 1 ≤ left x) (hpool : p'.pool = p.pool.set w y)
    (hstopping : p'.stopping = p.stopping) : p'.stepsLeft + 1 ≤ p.stepsLeft := by
  have htotal := Threads.total_set left hat y
  rw [stepsLeft, stepsLeft, hpool, hstopping, List.length_set]
  omega

/-- From `notify_all` on, every step of a worker or of `Stop` takes from what they have left, and
no other step gives them more to do. -/
theorem Closing.pay (h : p.Closing) (hstep : Moves p l p') :
    p'.stepsLeft + (ofPool l).toNat ≤ p.stepsLeft := by
  have hstop : p.stop = true := h.locked.stop_iff.mpr (notified_ne h.notified)
  have hnotified := h.notified
  cases hstep with
  | call | refuse | pass | push | lose => exact Nat.le_refl _
  | leave hat | found hat | dequeue hat | decrement hat | invoke hat | finishTask hat
  | increment hat => exact stepsLeft_goto hat (Nat.le_refl _) rfl rfl
  | finish hat => exact stepsLeft_goto hat (by decide) rfl rfl
  | lock hat hx =>
    obtain rfl | rfl := hx
    · exact stepsLeft_goto hat (Nat.le_refl _) rfl rfl
    · exact stepsLeft_goto hat (Nat.le_refl _) rfl rfl
  | wake _ hat | wakeUp hat => exact absurd rfl (h.roused _ (List.mem_of_getElem? hat)).2
  | block hat => exact absurd rfl (h.roused _ (List.mem_of_getElem? hat)).1
  | loop _ hrunning =>
    rw [hstop] at hrunning
    cases hrunning
  | empty _ hready =>
    rw [ready, hstop] at hready
    cases hready
  | store hstopping | notifyAll hstopping =>
    rw [hstopping] at hnotified
    cases hnotified
  | join hstopping hended =>
    have hlt := (List.getElem?_eq_some_iff.mp hended).1
    simp only [stepsLeft, hstopping, joinsLeft, ofPool, Bool.toNat_true]
    omega
  | stopped hstopping =>
    simp only [stepsLeft, hstopping, joinsLeft, ofPool, Bool.toNat_true]
    omega

/-- Until `Stop` has returned, a worker or `Stop` itself can go on: the worker to be joined, or the
one that has the mutex it waits for. -/
theorem Closing.progress (h : p.Closing) (hstopping : p.stopping ≠ .returned) :
    ∃ l p', ofPool l = true ∧ p.step l = some p' := by
  have hwork : ∀ {w : Nat} {x : PoolWorker} (q : ThreadPool τ), p.pool[w]? = some x →
      p.advance w x = some q → ∃ l p', ofPool l = true ∧ p.step l = some p' := by
    intro w x q hat hadvance
    refine ⟨.work w, q, rfl, ?_⟩
    simp only [ThreadPool.step, hat, Option.bind_some, hadvance]
  have hlocked : ∀ {w : Nat} {x : PoolWorker}, p.pool[w]? = some x →
      p.advance w x = (p.lock w).map (fun p => p.goto w .evaluating) →
      ∃ l p', ofPool l = true ∧ p.step l = some p' := by
    intro w x hat hadvance
    cases hmutex : p.mutex with
    | none =>
      refine hwork ({ p with mutex := some w }.goto w .evaluating) hat ?_
      simp only [hadvance, lock, hmutex, if_true, Option.map_some]
    | some holder =>
      obtain ⟨y, hy, hinside⟩ := h.locked.owned holder hmutex
      cases y with
      | evaluating | blocking | dequeuing => exact hwork _ hy rfl
      | _ => cases hinside
  have hnotified := h.notified
  cases hs : p.stopping with
  | outside | notifying =>
    rw [hs] at hnotified
    cases hnotified
  | returned => exact absurd hs hstopping
  | joining w =>
    cases hat : p.pool[w]? with
    | none =>
      refine ⟨.stop, { p with stopping := .returned }, rfl, ?_⟩
      simp only [ThreadPool.step, halt, hs, hat]
    | some x =>
      cases x with
      | ended =>
        refine ⟨.stop, { p with stopping := .joining (w + 1) }, rfl, ?_⟩
        simp only [ThreadPool.step, halt, hs, hat]
      | blocked => exact absurd rfl (h.roused _ (List.mem_of_getElem? hat)).2
      | blocking | testing | evaluating | dequeuing | decrementing task | invoking task
      | running task | incrementing => exact hwork _ hat rfl
      | locking | relocking => exact hlocked hat rfl

/-- In every run in which `notify_all` finds no worker between a false predicate and its block, for
any size and any number of threads: from `notify_all` on, no worker is blocked or about to block;
and every join returns, because however the threads interleave from there, the workers and `Stop`
take no more steps than they have left, and until `Stop` has returned one of them can go on. -/
theorem joins_of_reachable (h : (machine τ).ReachableBy (fun p l => p.heeded l = true) p)
    (hnotified : notified p.stopping = true) :
    (∀ x ∈ p.pool, x ≠ .blocking ∧ x ≠ .blocked) ∧
    ∀ ls p', (machine τ).run p ls = some p' →
      (∀ x ∈ p'.pool, x ≠ .blocking ∧ x ≠ .blocked) ∧
      ls.countP ofPool ≤ p.stepsLeft ∧
      (p'.stopping ≠ .returned → ∃ l p'', ofPool l = true ∧ p'.step l = some p'') := by
  have hclosing : p.Closing :=
    ⟨locked_of_reachable h, hnotified, roused_of_reachable h hnotified⟩
  refine ⟨hclosing.roused, fun ls p' hrun => ?_⟩
  have hrest := Transition.Machine.run_potential (m := machine τ) (I := Closing)
    (fun _ _ _ hc hstep => hc.step (moves_of_step hstep))
    (fun _ _ _ hc hstep => hc.pay (moves_of_step hstep)) hclosing hrun
  obtain ⟨hclosing', hcount⟩ := hrest
  exact ⟨hclosing'.roused, Nat.le_trans (Nat.le_add_left _ _) hcount, hclosing'.progress⟩

/-- A worker sleeps when `Stop` is called, the other has not looked yet; both can be joined. -/
theorem joins_of_reachable_asleep :
    ∃ p : ThreadPool Nat, (machine Nat).run (new 2 0)
        [.work 0, .work 0, .work 0, .work 0, .stop, .stop] = some p ∧
      notified p.stopping = true ∧ ∀ x ∈ p.pool, x ≠ .blocking ∧ x ≠ .blocked := by
  have hrun : (machine Nat).run (new 2 0)
      [.work 0, .work 0, .work 0, .work 0, .stop, .stop] = some _ := rfl
  refine ⟨_, hrun, rfl, (joins_of_reachable ?_ rfl).1⟩
  exact .run (fun _ _ hok => hok) (.start ⟨2, 0, rfl⟩) (by decide) hrun

/-- The missed notification: `Stop` stores and notifies between the predicate of a worker and its
block. The worker sleeps on, and `Stop` waits to join it. -/
theorem blocked_of_stop_before_block :
    ¬ ∀ p : ThreadPool Nat, (machine Nat).Reachable p → notified p.stopping = true →
      ∀ x ∈ p.pool, x ≠ .blocked := by
  intro h
  have hrun : (machine Nat).run (new 2 0)
      [.work 0, .work 0, .work 0, .stop, .stop, .work 0] = some _ := rfl
  exact h _ (.run (.start ⟨2, 0, rfl⟩) hrun) rfl .blocked (by decide) rfl

/-! ## The accepted tasks -/

/-- Is the worker's next step the one out of its function? -/
def leaves (p : ThreadPool τ) (w : Nat) : Bool :=
  match p.pool[w]? with
  | some .testing => p.stop
  | some .dequeuing => p.tasks.isEmpty
  | _ => false

/-- Has the thread found `m_stop` unset and not yet pushed its task? -/
def late : Committer τ → Bool
  | .pushing _ => true
  | _ => false

/-- The condition on a step: the last worker to leave its function leaves no task in the queue, and
no `Commit` between its test of `m_stop` and its push. -/
def drained (p : ThreadPool τ) : PoolLabel τ → Bool
  | .work w => !(p.leaves w && (p.pool.eraseIdx w).all (· == .ended)) ||
      (p.tasks.isEmpty && !p.committers.any late)
  | _ => true

/-- A worker leaves its function only when the pool has been stopped. -/
def EndedLate (p : ThreadPool τ) : Prop := PoolWorker.ended ∈ p.pool → p.stop = true

theorem EndedLate.goto (h : p.EndedLate) {w : Nat} {x : PoolWorker}
    (hpool : p'.pool = p.pool.set w x) (hstop : p'.stop = p.stop)
    (hx : x = .ended → p.stop = true) : p'.EndedLate := by
  intro hmem
  rw [hpool] at hmem
  rw [hstop]
  rcases List.mem_or_eq_of_mem_set hmem with hmem | heq
  · exact h hmem
  · exact hx heq.symm

theorem EndedLate.step (hl : p.Locked) (h : p.EndedLate) (hstep : Moves p l p') :
    p'.EndedLate := by
  cases hstep with
  | call | refuse | pass | push | lose | join | stopped => exact h
  | store => exact fun _ => rfl
  | wake | loop | lock | found | empty | block | dequeue | decrement | invoke | finishTask
  | increment | wakeUp => exact h.goto rfl rfl nofun
  | leave _ hstop => exact h.goto rfl rfl fun _ => hstop
  | finish hat htasks =>
    have hready := hl.found _ hat
    rw [ready, htasks, List.isEmpty_nil, Bool.not_true, Bool.or_false] at hready
    exact h.goto rfl rfl fun _ => hready
  | notifyAll =>
    intro hmem
    obtain ⟨x, hx, hended⟩ := List.mem_map.mp hmem
    cases x with
    | ended => exact h hx
    | _ => cases hended

/-- Once all workers have left, there is no task and none will be pushed. -/
def Settled (p : ThreadPool τ) : Prop :=
  (∀ x ∈ p.pool, x = .ended) → p.tasks = [] ∧ ∀ c ∈ p.committers, late c = false

/-- A worker that goes on is not out of its function. -/
theorem Settled.goto {w : Nat} {x y : PoolWorker} (hat : p.pool[w]? = some x)
    (hpool : p'.pool = p.pool.set w y) (hy : y ≠ .ended) : p'.Settled := by
  intro hended
  rw [hpool] at hended
  exact absurd (hended y (List.mem_of_getElem? (Threads.at_set_self hat y))) hy

/-- The last worker leaves. -/
theorem Settled.leave {w : Nat} {x : PoolWorker} (hat : p.pool[w]? = some x)
    (hleaves : p.leaves w = true) (hok : p.drained (.work w) = true)
    (hpool : p'.pool = p.pool.set w .ended) (htasks : p'.tasks = p.tasks)
    (hcommitters : p'.committers = p.committers) : p'.Settled := by
  intro hended
  obtain ⟨hlt, -⟩ := List.getElem?_eq_some_iff.mp hat
  have hothers : (p.pool.eraseIdx w).all (· == .ended) = true := by
    apply List.all_eq_true.mpr
    intro y hy
    have hmem : y ∈ p'.pool := by
      rw [hpool]
      exact (List.set_perm_cons_eraseIdx hlt .ended).mem_iff.mpr (List.mem_cons_of_mem _ hy)
    exact beq_iff_eq.mpr (hended y hmem)
  simp only [drained, hleaves, hothers, Bool.and_self, Bool.not_true, Bool.false_or,
    Bool.and_eq_true, List.isEmpty_iff, Bool.not_eq_true', List.any_eq_false] at hok
  rw [htasks, hcommitters]
  exact ⟨hok.1, fun c hc => Bool.eq_false_iff.mpr (hok.2 c hc)⟩

/-- A thread that moves in `Commit` to a place where it will not push. -/
theorem Settled.proceed (h : p.Settled) {t : Nat} {c : Committer τ} (hc : late c = false)
    (hpool : p'.pool = p.pool) (htasks : p'.tasks = p.tasks)
    (hcommitters : p'.committers = p.committers.set t c) : p'.Settled := by
  intro hended
  rw [hpool] at hended
  obtain ⟨hnone, hlate⟩ := h hended
  refine ⟨htasks.trans hnone, fun d hd => ?_⟩
  rw [hcommitters] at hd
  rcases List.mem_or_eq_of_mem_set hd with hmem | rfl
  · exact hlate d hmem
  · exact hc

theorem Settled.step (hl : p.EndedLate) (hcounted : p.Counted) (h : p.Settled)
    (hok : p.drained l = true) (hstep : Moves p l p') : p'.Settled := by
  cases hstep with
  | call | refuse | lose => exact h.proceed rfl rfl rfl rfl
  | pass hat hstop =>
    -- with all workers gone the pool has been stopped, and the test fails
    intro hended
    obtain ⟨x, hx⟩ :=
      List.exists_mem_of_length_pos (Nat.lt_of_lt_of_le Nat.zero_lt_two hcounted.size_le)
    rw [hl (hended x hx ▸ hx)] at hstop
    cases hstop
  | push hat =>
    intro hended
    have hlate := (h hended).2 _ (List.mem_of_getElem? hat)
    cases hlate
  | wake _ hat | loop hat | lock hat | found hat | empty hat | block hat | dequeue hat
  | decrement hat | invoke hat | finishTask hat | increment hat | wakeUp hat =>
    exact Settled.goto hat rfl nofun
  | leave hat hstop => exact Settled.leave hat (by rw [leaves, hat]; exact hstop) hok rfl rfl rfl
  | finish hat htasks =>
    refine Settled.leave hat ?_ hok rfl rfl rfl
    simp only [leaves, hat, htasks, List.isEmpty_nil]
  | store | join | stopped => exact h
  | notifyAll =>
    intro hended
    apply h
    intro x hx
    have hwoken := hended (woken x) (List.mem_map_of_mem hx)
    cases x with
    | ended => rfl
    | _ => cases hwoken

/-- `Stop` has joined the workers one after another, and returned when all were joined. -/
def Joined (p : ThreadPool τ) : Prop :=
  match p.stopping with
  | .outside | .notifying => True
  | .joining joined => ∀ w < joined, w < p.pool.length → p.pool[w]? = some .ended
  | .returned => ∀ w < p.pool.length, p.pool[w]? = some .ended

/-- A worker that has left its function stays where it is. -/
theorem Joined.goto (h : p.Joined) {w : Nat} {x y : PoolWorker} (hat : p.pool[w]? = some x)
    (hpool : p'.pool = p.pool.set w y) (hstopping : p'.stopping = p.stopping)
    (hx : x ≠ .ended) : p'.Joined := by
  have hstays : ∀ i : Nat, p.pool[i]? = some .ended → p'.pool[i]? = some .ended := by
    intro i hi
    have hne : i ≠ w := by
      rintro rfl
      exact hx (Option.some.inj (hat.symm.trans hi))
    rw [hpool]
    exact (Threads.at_set_ne y hne).trans hi
  have hlength : p'.pool.length = p.pool.length := by rw [hpool, List.length_set]
  simp only [Joined, hstopping, hlength] at h ⊢
  cases hs : p.stopping with
  | outside | notifying => trivial
  | joining joined =>
    rw [hs] at h
    exact fun i hi hlt => hstays i (h i hi hlt)
  | returned =>
    rw [hs] at h
    exact fun i hlt => hstays i (h i hlt)

theorem Joined.step (h : p.Joined) (hstep : Moves p l p') : p'.Joined := by
  cases hstep with
  | call | refuse | pass | push | lose => exact h
  | wake _ hat | loop hat | found hat | empty hat | block hat | dequeue hat | decrement hat
  | invoke hat | finishTask hat | increment hat | wakeUp hat | leave hat | finish hat =>
    exact h.goto hat rfl rfl nofun
  | lock hat hx =>
    obtain rfl | rfl := hx
    · exact h.goto hat rfl rfl nofun
    · exact h.goto hat rfl rfl nofun
  | store => exact trivial
  | notifyAll => exact fun _ hlt => absurd hlt (Nat.not_lt_zero _)
  | @join joined hstopping hended =>
    simp only [Joined, hstopping] at h ⊢
    intro w hw hlt
    rcases Nat.lt_succ_iff_lt_or_eq.mp hw with hlow | rfl
    · exact h w hlow hlt
    · exact hended
  | @stopped joined hstopping hnone =>
    have hall := List.getElem?_eq_none_iff.mp hnone
    simp only [Joined, hstopping] at h ⊢
    exact fun w hlt => h w (Nat.lt_of_lt_of_le hlt hall) hlt

/-- What the drained runs keep. -/
structure Drained (p : ThreadPool τ) : Prop where
  locked : p.Locked
  counted : p.Counted
  endedLate : p.EndedLate
  settled : p.Settled
  joined : p.Joined

theorem drained_of_reachable (h : (machine τ).ReachableBy (fun p l => p.drained l = true) p) :
    p.Drained := by
  refine h.invariant ?_ ?_
  · rintro _ ⟨poolSize, committers, rfl⟩
    have hcounted := counted_new (τ := τ) poolSize committers
    refine ⟨locked_new poolSize committers, hcounted, ?_, ?_, trivial⟩
    · intro hmem
      cases (List.mem_replicate.mp hmem).2
    · intro hended
      obtain ⟨x, hx⟩ :=
        List.exists_mem_of_length_pos (Nat.lt_of_lt_of_le Nat.zero_lt_two hcounted.size_le)
      have htesting := (List.mem_replicate.mp hx).2
      rw [hended x hx] at htesting
      cases htesting
  · intro p l p' hd hok hstep
    have hmoves := moves_of_step hstep
    exact ⟨hd.locked.step hmoves, hd.counted.step hmoves, hd.endedLate.step hd.locked hmoves,
      hd.settled.step hd.endedLate hd.counted hok hmoves, hd.joined.step hmoves⟩

/-- Only tasks that have been pushed are notified of, or have a future. -/
structure Promised (p : ThreadPool τ) : Prop where
  notifying : ∀ c ∈ p.committers, ∀ task, c = .notifying task → task < p.records.length
  futures : ∀ task ∈ p.futures, task < p.records.length

theorem Promised.proceed (h : p.Promised) {t : Nat} {c : Committer τ}
    (hcommitters : p'.committers = p.committers.set t c) (hrecords : p'.records = p.records)
    (hfutures : p'.futures = p.futures) (hc : ∀ task, c ≠ .notifying task) : p'.Promised := by
  refine ⟨?_, ?_⟩
  · intro d hd task heq
    rw [hcommitters] at hd
    rw [hrecords]
    rcases List.mem_or_eq_of_mem_set hd with hmem | rfl
    · exact h.notifying d hmem task heq
    · exact absurd heq (hc task)
  · rw [hfutures, hrecords]
    exact h.futures

/-- A `Commit` returns the future of the task it has pushed. -/
theorem Promised.return (h : p.Promised) {t task : Nat}
    (hat : p.committers[t]? = some (.notifying task))
    (hcommitters : p'.committers = p.committers.set t .outside)
    (hrecords : p'.records = p.records) (hfutures : p'.futures = p.futures ++ [task]) :
    p'.Promised := by
  refine ⟨?_, ?_⟩
  · intro d hd other heq
    rw [hcommitters] at hd
    rw [hrecords]
    rcases List.mem_or_eq_of_mem_set hd with hmem | rfl
    · exact h.notifying d hmem other heq
    · cases heq
  · intro other hother
    rw [hfutures] at hother
    rw [hrecords]
    rcases List.mem_append.mp hother with hmem | hmem
    · exact h.futures other hmem
    · obtain rfl := List.mem_singleton.mp hmem
      exact h.notifying _ (List.mem_of_getElem? hat) other rfl

theorem Promised.step (h : p.Promised) (hstep : Moves p l p') : p'.Promised := by
  cases hstep with
  | call | refuse | pass => exact h.proceed rfl rfl rfl nofun
  | push =>
    refine ⟨?_, ?_⟩
    · intro d hd task heq
      rw [ThreadPool.push, ThreadPool.proceed, List.length_append, List.length_singleton]
      rcases List.mem_or_eq_of_mem_set hd with hmem | rfl
      · exact Nat.lt_succ_of_lt (h.notifying d hmem task heq)
      · cases heq
        exact Nat.lt_succ_self _
    · intro task hmem
      rw [ThreadPool.push, ThreadPool.proceed, List.length_append, List.length_singleton]
      exact Nat.lt_succ_of_lt (h.futures task hmem)
  | wake hat | lose hat => exact h.return hat rfl rfl rfl
  | leave | loop | lock | found | empty | block | finish | dequeue | decrement | increment
  | wakeUp | store | notifyAll | join | stopped => exact ⟨h.notifying, h.futures⟩
  | invoke | finishTask =>
    refine ⟨?_, ?_⟩
    · simp only [ThreadPool.goto, update, List.length_modify]
      exact h.notifying
    · simp only [ThreadPool.goto, update, List.length_modify]
      exact h.futures

theorem promised_of_reachable {ok : ThreadPool τ → PoolLabel τ → Prop}
    (h : (machine τ).ReachableBy ok p) : p.Promised := by
  refine h.invariant ?_ fun _ _ _ hp _ hstep => hp.step (moves_of_step hstep)
  rintro _ ⟨poolSize, committers, rfl⟩
  refine ⟨?_, fun _ hmem => nomatch hmem⟩
  intro c hc task heq
  rw [(List.mem_replicate.mp hc).2] at heq
  cases heq

/-- When `Stop` has returned, every worker has left its function. -/
theorem Drained.all_ended (h : p.Drained) (hstopping : p.stopping = .returned) :
    ∀ x ∈ p.pool, x = .ended := by
  have hjoined := h.joined
  simp only [Joined, hstopping] at hjoined
  intro x hx
  obtain ⟨w, hw⟩ := List.mem_iff_getElem?.mp hx
  have hended := hjoined w (List.getElem?_eq_some_iff.mp hw).1
  exact Option.some.inj (hw.symm.trans hended)

/-- In a drained run every accepted task has been run, once, when `Stop` returns. -/
theorem ended_of_returned (h : (machine τ).ReachableBy (fun p l => p.drained l = true) p)
    (hstopping : p.stopping = .returned) {task : Nat} (hmem : task ∈ p.futures) :
    ∃ r, p.records[task]? = some r ∧ r.ended = true ∧ r.invocations.length = 1 := by
  have hdrained := drained_of_reachable h
  have hended := hdrained.all_ended hstopping
  have hlt := (promised_of_reachable h).futures task hmem
  have hr : p.records[task]? = some p.records[task] := List.getElem?_eq_getElem hlt
  refine ⟨_, hr, ?_⟩
  have hnone := (hdrained.settled hended).1
  have htakers : p.takers task = 0 := by
    refine List.countP_eq_zero.mpr fun x hx htask => ?_
    rw [hended x hx] at htask
    cases eq_of_beq htask
  obtain ⟨hqueued, -⟩ | ⟨-, hone, -⟩ | ⟨-, -, honce, hend⟩ :=
    (custody_of_reachable h).cases (inTurn_of_reachable h) hr
  · rw [hnone] at hqueued
    cases hqueued
  · rw [htakers] at hone
    cases hone
  · exact ⟨hend, honce⟩

/-- The pool is over: all workers have left, and nobody is about to push. -/
structure Over (p : ThreadPool τ) : Prop where
  ended : ∀ x ∈ p.pool, x = .ended
  stop : p.stop = true
  quiet : ∀ c ∈ p.committers, late c = false

/-- A pool that is over stays so, and takes no task any more. -/
theorem Over.step (h : p.Over) (hstep : Moves p l p') : p'.Over ∧ p'.records = p.records := by
  have hgone : ∀ {w : Nat} {x : PoolWorker}, p.pool[w]? = some x → x = .ended :=
    fun hat => h.ended _ (List.mem_of_getElem? hat)
  have hquiet : ∀ {t : Nat} {c : Committer τ}, late c = false →
      ∀ d ∈ p.committers.set t c, late d = false := by
    intro t c hc d hd
    rcases List.mem_or_eq_of_mem_set hd with hmem | rfl
    · exact h.quiet d hmem
    · exact hc
  cases hstep with
  | call | refuse | lose => exact ⟨⟨h.ended, h.stop, hquiet rfl⟩, rfl⟩
  | pass _ hstop =>
    rw [h.stop] at hstop
    cases hstop
  | push hat =>
    have hlate := h.quiet _ (List.mem_of_getElem? hat)
    cases hlate
  | wake _ hat | leave hat | loop hat | found hat | empty hat | block hat | finish hat
  | dequeue hat | decrement hat | invoke hat | finishTask hat | increment hat | wakeUp hat =>
    cases hgone hat
  | lock hat hx =>
    obtain rfl | rfl := hx
    · cases hgone hat
    · cases hgone hat
  | store => exact ⟨⟨h.ended, rfl, h.quiet⟩, rfl⟩
  | join | stopped => exact ⟨⟨h.ended, h.stop, h.quiet⟩, rfl⟩
  | notifyAll =>
    refine ⟨⟨fun x hx => ?_, h.stop, h.quiet⟩, rfl⟩
    obtain ⟨y, hy, rfl⟩ := List.mem_map.mp hx
    rw [h.ended y hy]
    rfl

/-- After `Stop` has returned in a drained run, no task is ever accepted. -/
theorem records_of_returned (h : (machine τ).ReachableBy (fun p l => p.drained l = true) p)
    (hstopping : p.stopping = .returned)
    (hsteps : (machine τ).Steps (fun _ _ => True) p p') : p'.records = p.records := by
  have hdrained := drained_of_reachable h
  have hended := hdrained.all_ended hstopping
  have hstop : p.stop = true := hdrained.locked.stop_iff.mpr (by rw [hstopping]; exact nofun)
  have keep : p'.Over ∧ p'.records = p.records :=
    hsteps.invariant (I := fun q => q.Over ∧ q.records = p.records)
      (fun _ _ _ ⟨ho, hr⟩ _ hstep =>
        have ⟨ho', hr'⟩ := ho.step (moves_of_step hstep)
        ⟨ho', hr'.trans hr⟩)
      ⟨⟨hended, hstop, (hdrained.settled hended).2⟩, rfl⟩
  exact keep.2

/-- A `Commit` that finds the pool stopped returns an invalid future, and leaves no task. -/
theorem refused_of_stop (hstop : p.stop = true) {t : Nat} {work : τ}
    (hat : p.committers[t]? = some (.testing work)) (hstep : p.step (.commit t) = some p') :
    p'.refused = p.refused ++ [work] ∧ p'.records = p.records ∧ p'.futures = p.futures := by
  simp only [step, hat, Option.bind_some, commit, hstop, if_true, Option.some.injEq] at hstep
  cases hstep
  exact ⟨rfl, rfl, rfl⟩

end ThreadPool

end DSFramework.DSCommunication
