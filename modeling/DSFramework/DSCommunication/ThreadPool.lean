import DSFramework.Lib.Machine
import DSFramework.Lib.Threads

/-!
# The thread pool

`ThreadPool` with its workers, the threads that call `Commit`, and the one that calls `Stop`. The
workers share `m_tasks` under `m_cv_mt` and wait on `m_cv_lock` with a predicate that is true when
the pool stops or has a task. `Commit` tests `m_stop` before it takes the mutex and notifies after
it has released it; `Stop` stores `m_stop` and notifies without the mutex at all.

The locked section of `Commit` is one step. A worker's section spans several: the predicate is
evaluated inside it, and it ends by the block, by the exit on an empty queue, or by the task that
is taken off.

A task is named by its number, counted in the order of the pushes. Its record is never deleted: it
keeps what the task does, the workers that have invoked it, and whether it has ended. Nothing the
pool does depends on it.
-/

namespace DSFramework.DSCommunication

/-- A pushed task: what it does, the workers that have invoked it, whether it has ended. -/
structure PoolTask (τ : Type) where
  work : τ
  invocations : List Nat
  ended : Bool
  deriving DecidableEq, Repr

/-- What a worker stands before: the test of `m_stop` in its loop, taking `m_cv_mt`, the predicate,
the unlock-and-block, a wake-up, taking the mutex again, the rest of the locked section, the
decrement of `m_threadNum`, the call of the task, its end, the increment. -/
inductive PoolWorker where
  | testing
  | locking
  | evaluating
  | blocking
  | blocked
  | relocking
  | dequeuing
  | decrementing (task : Nat)
  | invoking (task : Nat)
  | running (task : Nat)
  | incrementing
  | ended
  deriving DecidableEq, Repr

/-- What a thread that uses the pool stands before in `Commit`: the test of `m_stop`, the locked
push, `notify_one`. -/
inductive Committer (τ : Type) where
  | outside
  | testing (work : τ)
  | pushing (work : τ)
  | notifying (task : Nat)
  deriving DecidableEq, Repr

/-- What the thread in `Stop` stands before: the store of `m_stop`, `notify_all`, the joins of the
workers in order. -/
inductive Stopping where
  | outside
  | notifying
  | joining (worker : Nat)
  | returned
  deriving DecidableEq, Repr

/-- The pool with its threads, and its history: the records of the tasks, the tasks in the order
in which they were dequeued, those whose `Commit` returned a valid future, and the work whose
`Commit` returned an invalid one. -/
structure ThreadPool (τ : Type) where
  threadNum : Int
  tasks : List Nat
  stop : Bool
  mutex : Option Nat
  pool : List PoolWorker
  committers : List (Committer τ)
  stopping : Stopping
  records : List (PoolTask τ)
  dequeued : List Nat
  futures : List Nat
  refused : List τ
  deriving DecidableEq, Repr

/-- Who moves: a thread calls `Commit` or takes its next step there, it notifies (waking the given
worker, or nobody), a worker takes its next step or wakes up by itself, `Stop` is called or goes
on. -/
inductive PoolLabel (τ : Type) where
  | call (thread : Nat) (work : τ)
  | commit (thread : Nat)
  | notifyOne (thread : Nat) (woken : Option Nat)
  | work (worker : Nat)
  | wakeUp (worker : Nat)
  | stop
  deriving DecidableEq, Repr

namespace ThreadPool

variable {τ : Type}

/-- The constructor, for `committers` threads that will use the pool. `Start` runs inside it, before
any task can be committed, so it starts as many workers as `m_threadNum` says at first. -/
def new (poolSize : Int) (committers : Nat) : ThreadPool τ :=
  let threadNum := if poolSize ≤ 1 then 2 else poolSize
  { threadNum := threadNum
    tasks := []
    stop := false
    mutex := none
    pool := List.replicate threadNum.toNat .testing
    committers := List.replicate committers .outside
    stopping := .outside
    records := []
    dequeued := []
    futures := []
    refused := [] }

/-- Worker `w` moves on to `x`. -/
def goto (p : ThreadPool τ) (w : Nat) (x : PoolWorker) : ThreadPool τ :=
  { p with pool := p.pool.set w x }

/-- Thread `t` moves on to `c` in `Commit`. -/
def proceed (p : ThreadPool τ) (t : Nat) (c : Committer τ) : ThreadPool τ :=
  { p with committers := p.committers.set t c }

/-- The record of one task changes. -/
def update (p : ThreadPool τ) (task : Nat) (f : PoolTask τ → PoolTask τ) : ThreadPool τ :=
  { p with records := p.records.modify task f }

/-- A worker takes `m_cv_mt`, when it is free. -/
def lock (p : ThreadPool τ) (w : Nat) : Option (ThreadPool τ) :=
  if p.mutex = none then some { p with mutex := some w } else none

/-- A worker releases `m_cv_mt`. -/
def unlock (p : ThreadPool τ) : ThreadPool τ := { p with mutex := none }

/-- The predicate of the wait. -/
def ready (p : ThreadPool τ) : Bool := p.stop || !p.tasks.isEmpty

/-- `m_tasks.emplace(...)` in the locked section of `Commit`. -/
def push (p : ThreadPool τ) (work : τ) : ThreadPool τ :=
  { p with
    tasks := p.tasks ++ [p.records.length]
    records := p.records ++ [{ work := work, invocations := [], ended := false }] }

/-- The end of a worker's locked section: with no task it leaves its function, and else it takes
the oldest one. -/
def dequeue (p : ThreadPool τ) (w : Nat) : ThreadPool τ :=
  match p.tasks with
  | [] => p.unlock.goto w .ended
  | task :: tasks =>
    { p with tasks := tasks, dequeued := p.dequeued ++ [task] }.unlock.goto w (.decrementing task)

/-- The next step of worker `w`, which stands before `x`. -/
def advance (p : ThreadPool τ) (w : Nat) : PoolWorker → Option (ThreadPool τ)
  | .testing => some (p.goto w (if p.stop then .ended else .locking))
  | .locking | .relocking => (p.lock w).map fun p => p.goto w .evaluating
  | .evaluating => some (p.goto w (if p.ready then .dequeuing else .blocking))
  | .blocking => some (p.unlock.goto w .blocked)
  | .dequeuing => some (p.dequeue w)
  | .decrementing task =>
    some ({ p with threadNum := p.threadNum - 1 }.goto w (.invoking task))
  | .invoking task =>
    some ((p.update task fun r => { r with invocations := r.invocations ++ [w] }).goto w
      (.running task))
  | .running task => some ((p.update task fun r => { r with ended := true }).goto w .incrementing)
  | .incrementing => some ({ p with threadNum := p.threadNum + 1 }.goto w .testing)
  | .blocked | .ended => none

/-- The next step of thread `t` in `Commit`, which stands before `c`. -/
def commit (p : ThreadPool τ) (t : Nat) : Committer τ → Option (ThreadPool τ)
  | .testing work =>
    if p.stop then some { p.proceed t .outside with refused := p.refused ++ [work] }
    else some (p.proceed t (.pushing work))
  | .pushing work =>
    if p.mutex = none then some ((p.push work).proceed t (.notifying p.records.length)) else none
  | .outside | .notifying _ => none

/-- Is any worker blocked in `m_cv_lock.wait`? -/
def waited (p : ThreadPool τ) : Bool := p.pool.any (· matches .blocked)

/-- `notify_one` wakes one of the blocked workers; where there is none it is lost. -/
def notify (p : ThreadPool τ) : Option Nat → Option (ThreadPool τ)
  | some woken => match p.pool[woken]? with
    | some .blocked => some (p.goto woken .relocking)
    | _ => none
  | none => if p.waited then none else some p

/-- What `notify_all` makes of a worker. -/
def woken : PoolWorker → PoolWorker
  | .blocked => .relocking
  | x => x

/-- The next step of the thread in `Stop`. A join returns when the worker has left its function. -/
def halt (p : ThreadPool τ) : Option (ThreadPool τ) :=
  match p.stopping with
  | .outside => some { p with stop := true, stopping := .notifying }
  | .notifying => some { p with pool := p.pool.map woken, stopping := .joining 0 }
  | .joining w => match p.pool[w]? with
    | some .ended => some { p with stopping := .joining (w + 1) }
    | some _ => none
    | none => some { p with stopping := .returned }
  | .returned => none

/-- One step of the pool and its threads. `Stop` is called once, by the destructor. -/
def step (p : ThreadPool τ) : PoolLabel τ → Option (ThreadPool τ)
  | .call t work => match p.committers[t]? with
    | some .outside => some (p.proceed t (.testing work))
    | _ => none
  | .commit t => (p.committers[t]?).bind (p.commit t)
  | .notifyOne t woken => match p.committers[t]? with
    | some (.notifying task) =>
      { p.proceed t .outside with futures := p.futures ++ [task] }.notify woken
    | _ => none
  | .work w => (p.pool[w]?).bind (p.advance w)
  | .wakeUp w => match p.pool[w]? with
    | some .blocked => some (p.goto w .relocking)
    | _ => none
  | .stop => p.halt

/-- The pool as a machine, of any size and with any number of threads that commit. -/
def machine (τ : Type) : Transition.Machine (ThreadPool τ) (PoolLabel τ) where
  init p := ∃ poolSize committers, p = new poolSize committers
  step := step

/-! ## What one step does -/

/-- Every way a label can take one pool to the next, one constructor per step of the source. -/
inductive Moves (p : ThreadPool τ) : PoolLabel τ → ThreadPool τ → Prop where
  | call {t : Nat} {work : τ} : p.committers[t]? = some .outside →
      Moves p (.call t work) (p.proceed t (.testing work))
  | refuse {t : Nat} {work : τ} : p.committers[t]? = some (.testing work) → p.stop = true →
      Moves p (.commit t) { p.proceed t .outside with refused := p.refused ++ [work] }
  | pass {t : Nat} {work : τ} : p.committers[t]? = some (.testing work) → p.stop = false →
      Moves p (.commit t) (p.proceed t (.pushing work))
  | push {t : Nat} {work : τ} : p.committers[t]? = some (.pushing work) → p.mutex = none →
      Moves p (.commit t) ((p.push work).proceed t (.notifying p.records.length))
  | wake {t task w : Nat} : p.committers[t]? = some (.notifying task) →
      p.pool[w]? = some .blocked →
      Moves p (.notifyOne t (some w))
        ({ p.proceed t .outside with futures := p.futures ++ [task] }.goto w .relocking)
  | lose {t task : Nat} : p.committers[t]? = some (.notifying task) → p.waited = false →
      Moves p (.notifyOne t none) { p.proceed t .outside with futures := p.futures ++ [task] }
  | leave {w : Nat} : p.pool[w]? = some .testing → p.stop = true →
      Moves p (.work w) (p.goto w .ended)
  | loop {w : Nat} : p.pool[w]? = some .testing → p.stop = false →
      Moves p (.work w) (p.goto w .locking)
  | lock {w : Nat} {x : PoolWorker} : p.pool[w]? = some x → x = .locking ∨ x = .relocking →
      p.mutex = none → Moves p (.work w) ({ p with mutex := some w }.goto w .evaluating)
  | found {w : Nat} : p.pool[w]? = some .evaluating → p.ready = true →
      Moves p (.work w) (p.goto w .dequeuing)
  | empty {w : Nat} : p.pool[w]? = some .evaluating → p.ready = false →
      Moves p (.work w) (p.goto w .blocking)
  | block {w : Nat} : p.pool[w]? = some .blocking → Moves p (.work w) (p.unlock.goto w .blocked)
  | finish {w : Nat} : p.pool[w]? = some .dequeuing → p.tasks = [] →
      Moves p (.work w) (p.unlock.goto w .ended)
  | dequeue {w task : Nat} {tasks : List Nat} : p.pool[w]? = some .dequeuing →
      p.tasks = task :: tasks →
      Moves p (.work w) ({ p with tasks := tasks, dequeued := p.dequeued ++ [task] }.unlock.goto w
        (.decrementing task))
  | decrement {w task : Nat} : p.pool[w]? = some (.decrementing task) →
      Moves p (.work w) ({ p with threadNum := p.threadNum - 1 }.goto w (.invoking task))
  | invoke {w task : Nat} : p.pool[w]? = some (.invoking task) →
      Moves p (.work w) ((p.update task fun r =>
        { r with invocations := r.invocations ++ [w] }).goto w (.running task))
  | finishTask {w task : Nat} : p.pool[w]? = some (.running task) →
      Moves p (.work w) ((p.update task fun r => { r with ended := true }).goto w .incrementing)
  | increment {w : Nat} : p.pool[w]? = some .incrementing →
      Moves p (.work w) ({ p with threadNum := p.threadNum + 1 }.goto w .testing)
  | wakeUp {w : Nat} : p.pool[w]? = some .blocked → Moves p (.wakeUp w) (p.goto w .relocking)
  | store : p.stopping = .outside →
      Moves p .stop { p with stop := true, stopping := .notifying }
  | notifyAll : p.stopping = .notifying →
      Moves p .stop { p with pool := p.pool.map woken, stopping := .joining 0 }
  | join {w : Nat} : p.stopping = .joining w → p.pool[w]? = some .ended →
      Moves p .stop { p with stopping := .joining (w + 1) }
  | stopped {w : Nat} : p.stopping = .joining w → p.pool[w]? = none →
      Moves p .stop { p with stopping := .returned }

theorem moves_of_advance {p p' : ThreadPool τ} {w : Nat} {x : PoolWorker}
    (hat : p.pool[w]? = some x) (h : p.advance w x = some p') : Moves p (.work w) p' := by
  cases x with
  | blocked | ended => cases h
  | testing =>
    cases h
    cases hstop : p.stop with
    | true => exact .leave hat hstop
    | false => exact .loop hat hstop
  | locking | relocking =>
    obtain ⟨p₁, hlock, rfl⟩ := Option.map_eq_some_iff.mp h
    simp only [lock, Option.ite_none_right_eq_some, Option.some.injEq] at hlock
    obtain ⟨hfree, rfl⟩ := hlock
    exact .lock hat (by simp) hfree
  | evaluating =>
    cases h
    cases hready : p.ready with
    | true => exact .found hat hready
    | false => exact .empty hat hready
  | blocking => cases h; exact .block hat
  | dequeuing =>
    cases h
    unfold dequeue
    split
    case h_1 htasks => exact .finish hat htasks
    case h_2 htasks => exact .dequeue hat htasks
  | decrementing task => cases h; exact .decrement hat
  | invoking task => cases h; exact .invoke hat
  | running task => cases h; exact .finishTask hat
  | incrementing => cases h; exact .increment hat

theorem moves_of_commit {p p' : ThreadPool τ} {t : Nat} {c : Committer τ}
    (hat : p.committers[t]? = some c) (h : p.commit t c = some p') : Moves p (.commit t) p' := by
  cases c with
  | outside | notifying task => cases h
  | testing work =>
    simp only [commit] at h
    split at h
    case isTrue hstop => cases h; exact .refuse hat hstop
    case isFalse hstop => cases h; exact .pass hat (by simpa using hstop)
  | pushing work =>
    simp only [commit, Option.ite_none_right_eq_some, Option.some.injEq] at h
    obtain ⟨hfree, rfl⟩ := h
    exact .push hat hfree

theorem moves_of_halt {p p' : ThreadPool τ} (h : p.halt = some p') : Moves p .stop p' := by
  unfold halt at h
  split at h
  case h_1 hstopping => cases h; exact .store hstopping
  case h_2 hstopping => cases h; exact .notifyAll hstopping
  case h_3 w hstopping =>
    split at h
    case h_1 hended => cases h; exact .join hstopping hended
    case h_2 => cases h
    case h_3 hnone => cases h; exact .stopped hstopping hnone
  case h_4 => cases h

theorem moves_of_step {p p' : ThreadPool τ} {l : PoolLabel τ} (h : p.step l = some p') :
    Moves p l p' := by
  cases l with
  | call t work | wakeUp w =>
    simp only [step] at h
    split at h
    case h_1 hat => cases h; first | exact .call hat | exact .wakeUp hat
    case h_2 => cases h
  | commit t =>
    obtain ⟨c, hat, hcommit⟩ := Option.bind_eq_some_iff.mp h
    exact moves_of_commit hat hcommit
  | work w =>
    obtain ⟨x, hat, hadvance⟩ := Option.bind_eq_some_iff.mp h
    exact moves_of_advance hat hadvance
  | stop => exact moves_of_halt h
  | notifyOne t woken =>
    simp only [step] at h
    split at h
    case h_2 => cases h
    case h_1 hat =>
      cases woken with
      | none =>
        simp only [notify] at h
        split at h
        case isTrue => cases h
        case isFalse hnone => cases h; exact .lose hat (Bool.eq_false_iff.mpr hnone)
      | some woken =>
        simp only [notify] at h
        split at h
        case h_1 hwoken => cases h; exact .wake hat hwoken
        case h_2 => cases h

end ThreadPool

end DSFramework.DSCommunication
