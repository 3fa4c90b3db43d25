import DSFramework.DSCommunication.ConcurrentQueue.Linearization

/-!
# The counter of the concurrent queue

`Push` links its node before it adds one to `m_count`, and `WaitPop` unlinks a node before it
subtracts one, each in a step of its own and with no mutex held. `Counted` is the account: the
counter, with the pushes that have linked and not yet added, is the number of items, with the pops
that have unlinked and not yet subtracted. Every step keeps it, in whatever order the threads come.

`m_count` is an `int`. What it holds is the account modulo `2 ^ 32`, which is the account itself as
long as an `int` can hold that; `size_of_overflow` is a run of which it cannot.
-/

namespace DSFramework.DSCommunication

namespace ConcurrentQueue

variable {α : Type} {q q' : ConcurrentQueue α}

/-- Has the thread linked its item and not yet added one? -/
def lagging : QueueThread α → Bool
  | .adding => true
  | _ => false

/-- Has the thread unlinked an item and not yet subtracted one? -/
def leading : QueueThread α → Bool
  | .subtracting _ => true
  | _ => false

/-- What `m_count` should be, with so many items linked. -/
def balance (q : ConcurrentQueue α) (items : Nat) : Int :=
  items - q.threads.countP lagging + q.threads.countP leading

/-- No thread stands between its linking and its adding, or between its unlinking and its
subtracting. -/
def Settled (q : ConcurrentQueue α) : Prop :=
  ∀ pc ∈ q.threads, lagging pc = false ∧ leading pc = false

/-- Where no operation is in progress nobody stands in between. -/
theorem settled_of_outside (h : ∀ pc ∈ q.threads, pc = .outside) : q.Settled := by
  intro pc hpc
  rw [h pc hpc]
  exact ⟨rfl, rfl⟩

/-! ## The account -/

/-- THE ACCOUNT: what was added and not subtracted is what the balance says. -/
def Counted (q : ConcurrentQueue α) : Prop := q.count = q.balance q.linkedItems

/-- A thread moves, and the counter and the items change by what its two places differ in. -/
theorem Counted.move (h : q.Counted) {t : Nat} {pc pc' : QueueThread α}
    (hat : q.threads[t]? = some pc) (hthreads : q'.threads = q.threads.set t pc')
    (hchange : q'.count + (lagging pc').toNat + (leading pc).toNat + q.linkedItems =
      q.count + (lagging pc).toNat + (leading pc').toNat + q'.linkedItems) : q'.Counted := by
  have hlagging := Threads.countP_set lagging hat pc'
  have hleading := Threads.countP_set leading hat pc'
  simp only [Counted, balance, hthreads] at h ⊢
  omega

/-- One step keeps the account. -/
theorem Counted.step {l : QueueLabel α} (h : q.Counted) (hs : q.Sound) (hstep : Moves q l q') :
    q'.Counted := by
  cases hstep with
  | push hat | waitPop hat | found hat | empty hat | block hat | lose hat | wakeUp hat =>
    exact h.move hat rfl rfl
  | lock hat hpc =>
    rcases hpc with rfl | rfl
    · exact h.move hat rfl rfl
    · exact h.move hat rfl rfl
  | @wake t woken hat hwoken =>
    have hout : (q.goto t .outside).Counted := h.move hat rfl rfl
    exact hout.move hwoken rfl rfl
  | add hat | subtract hat =>
    refine h.move hat rfl ?_
    simp only [goto, linkedItems, lagging, leading, Bool.toNat_true, Bool.toNat_false]
    omega
  | @link t newValue hat =>
    have hitems := hs.linked.linkedItems_link newValue
    refine h.move hat rfl ?_
    show q.count + 1 + 0 + q.linkedItems = q.count + 0 + 0 + (q.link newValue).linkedItems
    omega
  | @popHead t q₁ oldHead hat hpop =>
    have hready := hs.found t hat
    have hitems := hs.linked.linkedItems_pop hready hpop
    obtain ⟨x, -, rfl⟩ := hs.linked.popHead hready hpop
    refine h.move hat rfl ?_
    simp only [goto, unlock, linkedItems, lagging, leading, Bool.toNat_true,
      Bool.toNat_false] at hitems ⊢
    omega

/-- The account holds throughout a run that begins with `m_count` at 0. -/
theorem counted_of_steps {n : Nat} (h : (machine α).Steps (fun _ _ => True) (new n 0) q) :
    q.Sound ∧ q.Counted := by
  refine h.invariant (I := fun q => q.Sound ∧ q.Counted) ?_ ⟨sound_new n 0, ?_⟩
  · intro q l q' ⟨hs, hcounted⟩ _ hstep
    have hmoves := moves_of_step hstep
    exact ⟨hs.step hmoves, hcounted.step hs hmoves⟩
  · have hnobody : ∀ p : QueueThread α → Bool, p .outside = false →
        (List.replicate n QueueThread.outside).countP p = 0 := by
      intro p hp
      rw [List.countP_replicate, hp]
      rfl
    simp only [Counted, balance, new, linkedItems, hnobody lagging rfl, hnobody leading rfl]
    rfl

/-! ## What `size()` says -/

/-- A count that an `int` can hold is what `size()` returns. -/
theorem toInt_size {n : Int} (hcount : q.count = n) (hmin : Int32.minValue.toInt ≤ n)
    (hmax : n ≤ Int32.maxValue.toInt) : q.size.toInt = n := by
  have hlow : Int32.minValue.toInt = -2147483648 := by decide
  have hhigh : Int32.maxValue.toInt = 2147483647 := by decide
  rw [size, hcount]
  exact Int32.toInt_ofInt_of_le (by omega) (by omega)

/-- Nobody in between, the balance is the number of items. -/
theorem Settled.balance_eq (h : q.Settled) (items : Nat) : q.balance items = items := by
  have hlagging : q.threads.countP lagging = 0 :=
    List.countP_eq_zero.mpr fun pc hpc => Bool.eq_false_iff.mp (h pc hpc).1
  have hleading : q.threads.countP leading = 0 :=
    List.countP_eq_zero.mpr fun pc hpc => Bool.eq_false_iff.mp (h pc hpc).2
  rw [balance, hlagging, hleading]
  omega

/-- `empty()` tells whether there is no item. -/
theorem Linked.empty_iff (h : q.Linked) : q.empty = true ↔ q.linkedItems = 0 := by
  have hle := h.popped_le
  simp only [empty, h.head_eq, h.tail_eq, beq_iff_eq, Option.some.injEq, linkedItems]
  omega

/-- For any number of threads and any interleaving of their steps, with `m_count` at 0 at first: the
`int` in `m_count` is, modulo `2 ^ 32`, the number of items on the chain that `m_head` owns, less
the pushes that have linked and not yet added, and with the pops that have unlinked and not yet
subtracted; it is that number where an `int` can hold it. Where nobody stands in between, `size()`
is the number of items, if an `int` can hold it, and 0 exactly when `empty()` is true. -/
theorem size_of_steps {n : Nat} (h : (machine α).Steps (fun _ _ => True) (new n 0) q) :
    ∃ items, Owns q.nodes q.head items q.tail ∧
      q.size = Int32.ofInt (q.balance items.length) ∧
      (Int32.minValue.toInt ≤ q.balance items.length →
        q.balance items.length ≤ Int32.maxValue.toInt → q.size.toInt = q.balance items.length) ∧
      (q.Settled → (items.length : Int) ≤ Int32.maxValue.toInt →
        q.size.toInt = items.length ∧ (q.size = 0 ↔ q.empty = true)) := by
  obtain ⟨hs, hcounted⟩ := counted_of_steps h
  have hitems : (q.pushed.drop q.popped.length).length = q.linkedItems := List.length_drop
  refine ⟨_, hs.linked.owns, ?_, fun hmin hmax => ?_, fun hsettled hmax => ?_⟩
  · rw [size, hcounted, hitems]
  · rw [hitems] at hmin hmax ⊢
    exact toInt_size hcounted hmin hmax
  · rw [hitems] at hmax ⊢
    have hcount : q.count = q.linkedItems := hcounted.trans (hsettled.balance_eq _)
    have hmin : Int32.minValue.toInt ≤ q.linkedItems := by
      have hlow : Int32.minValue.toInt = -2147483648 := by decide
      omega
    have hsize := toInt_size hcount hmin hmax
    refine ⟨hsize, ?_⟩
    rw [← Int32.toInt_inj, hsize, Int32.toInt_zero, hs.linked.empty_iff, Int.natCast_eq_zero]

/-- One thread has linked two items and added only one; another has unlinked one of them. -/
theorem size_of_steps_between :
    ∃ q : ConcurrentQueue Nat, q.count = 1 ∧ q.threads.countP lagging = 1 ∧
      q.threads.countP leading = 1 ∧
      ∃ items, Owns q.nodes q.head items q.tail ∧
        q.size = Int32.ofInt (q.balance items.length) := by
  have hrun : (machine Nat).run (new 2 0)
      [.push 0 7, .next 0, .next 0, .notifyOne 0 none, .push 0 8, .next 0, .waitPop 1, .next 1,
        .next 1, .next 1] = some _ := rfl
  obtain ⟨items, howns, hsize, -⟩ := size_of_steps (.of_run hrun)
  exact ⟨_, rfl, rfl, rfl, items, howns, hsize⟩

/-! ## More items than an `int` counts -/

/-- One thread pushes so many items, one after the other. -/
def pushes : Nat → List (QueueLabel Nat)
  | 0 => []
  | k + 1 => .push 0 0 :: .next 0 :: .next 0 :: .notifyOne 0 none :: pushes k

/-- A whole `Push` of the only thread. -/
theorem run_push {q : ConcurrentQueue Nat} (hout : q.threads = [.outside])
    (ls : List (QueueLabel Nat)) :
    (machine Nat).run q (.push 0 0 :: .next 0 :: .next 0 :: .notifyOne 0 none :: ls) =
      (machine Nat).run { q.link 0 with count := q.count + 1, threads := [.outside] } ls := by
  obtain ⟨nodes, head, tail, count, headMutex, threads, pushed, popped⟩ := q
  obtain rfl : threads = [.outside] := hout
  rfl

/-- All of them are linked, and the thread has returned. -/
theorem run_pushes (k : Nat) {q : ConcurrentQueue Nat} (hout : q.threads = [.outside]) :
    ∃ q', (machine Nat).run q (pushes k) = some q' ∧ q'.threads = [.outside] ∧
      q'.pushed.length = q.pushed.length + k ∧ q'.popped = q.popped := by
  induction k generalizing q with
  | zero => exact ⟨q, rfl, hout, rfl, rfl⟩
  | succ k ih =>
    obtain ⟨q', hrun, hout', hpushed, hpopped⟩ :=
      @ih { q.link 0 with count := q.count + 1, threads := [.outside] } rfl
    refine ⟨q', ?_, hout', ?_, hpopped⟩
    · rw [pushes, run_push hout, hrun]
    · rw [hpushed]
      simp only [link, List.length_append, List.length_singleton]
      omega

/-- With `2 ^ 31` items in the queue and nobody inside, `size()` is `INT_MIN`. -/
theorem size_of_overflow :
    ∃ q : ConcurrentQueue Nat, (machine Nat).run (new 1 0) (pushes 2147483648) = some q ∧
      q.threads = [.outside] ∧ q.linkedItems = 2147483648 ∧ q.size.toInt = -2147483648 := by
  obtain ⟨q, hrun, hout, hpushed, hpopped⟩ := @run_pushes 2147483648 (new 1 0) rfl
  have hitems : q.linkedItems = 2147483648 := by
    rw [linkedItems, hpushed, hpopped]
    rfl
  have hsettled : q.Settled := settled_of_outside fun pc hpc => by
    rw [hout] at hpc
    exact List.mem_singleton.mp hpc
  have hcount : q.count = 2147483648 := by
    rw [(counted_of_steps (.of_run hrun)).2, hsettled.balance_eq, hitems]
    rfl
  refine ⟨q, hrun, hout, hitems, ?_⟩
  rw [size, hcount]
  decide

end ConcurrentQueue

end DSFramework.DSCommunication
