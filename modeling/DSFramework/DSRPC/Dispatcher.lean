import DSFramework.DSCommunication.ConcurrentQueue

/-!
# The dispatchers' queues

What the two dispatchers need of a `ConcurrentQueue`: its items in order and its `m_count`. The
four operations are the steps of `Push` and `WaitPop` that are seen from outside; `contents_moves`
shows that every step of the queue itself is one of them or changes nothing.

`PostRequestToQueue` compares `size()`, an `int`, with `m_maxWaitedDispatch`, a `size_t`.
-/

namespace DSFramework.DSRPC

open DSCommunication (ConcurrentQueue QueueLabel Node)

/-- A queue seen from outside: the linked items, oldest first, and `m_count`. -/
structure ItemQueue (α : Type) where
  items : List α
  count : Int
  deriving DecidableEq, Repr

namespace ItemQueue

variable {α : Type}

/-- The tail section of `Push`. -/
def link (q : ItemQueue α) (x : α) : ItemQueue α := { q with items := q.items ++ [x] }

/-- `m_count.fetch_add(1)`. -/
def add (q : ItemQueue α) : ItemQueue α := { q with count := q.count + 1 }

/-- `pop_head`, for the items that are left. -/
def unlink (q : ItemQueue α) : ItemQueue α := { q with items := q.items.tail }

/-- `m_count.fetch_sub(1)`. -/
def sub (q : ItemQueue α) : ItemQueue α := { q with count := q.count - 1 }

/-- The conversion to a `size_t` of a count that is kept in an `int`. -/
def sizeT (n : Int) : Nat := ((BitVec.ofInt 32 n).signExtend 64).toNat

/-- `size() < m_maxWaitedDispatch`. -/
def hasRoom (q : ItemQueue α) (maxWaitedDispatch : Nat) : Bool :=
  sizeT q.count < maxWaitedDispatch

end ItemQueue

/-- A concurrent queue seen from outside. -/
def contents {α : Type} (q : ConcurrentQueue α) : ItemQueue α :=
  ⟨q.pushed.drop q.popped.length, q.count⟩

/-- REFINEMENT: a step of the queue links, adds, unlinks the oldest item, subtracts, or is not
seen from outside. -/
theorem contents_moves {α : Type} {q q' : ConcurrentQueue α} {l : QueueLabel α} (hs : q.Sound)
    (h : ConcurrentQueue.Moves q l q') :
    contents q' = contents q ∨ (∃ x, contents q' = (contents q).link x) ∨
      contents q' = (contents q).add ∨
      ((contents q).items ≠ [] ∧ contents q' = (contents q).unlink) ∨
      contents q' = (contents q).sub := by
  cases h with
  | push | waitPop | lock | found | empty | block | wake | lose | wakeUp => exact .inl rfl
  | @link t newValue =>
    refine .inr (.inl ⟨newValue, ?_⟩)
    simp only [contents, ItemQueue.link, ConcurrentQueue.goto, ConcurrentQueue.link,
      List.drop_append_of_le_length hs.linked.popped_le]
  | add => exact .inr (.inr (.inl rfl))
  | subtract => exact .inr (.inr (.inr (.inr rfl)))
  | popHead hat hpop =>
    have hready := hs.found _ hat
    obtain ⟨x, -, rfl⟩ := hs.linked.popHead hready hpop
    refine .inr (.inr (.inr (.inl ⟨?_, ?_⟩)))
    · refine List.ne_nil_of_length_pos ?_
      simpa only [contents, List.length_drop, ConcurrentQueue.linkedItems] using hready
    · simp only [contents, ItemQueue.unlink, ConcurrentQueue.goto, ConcurrentQueue.unlock,
        List.length_append, List.length_singleton, List.tail_drop]

end DSFramework.DSRPC
