/-!
# Iterators into a hash map

The rules of the C++ standard for the iterators of an `unordered_map`, whatever the map is for.
Erasing invalidates the iterators to the erased element. Inserting invalidates all of them if the
table is rehashed, which it is when the new size exceeds the load factor, one element per bucket,
and none of them otherwise. How many buckets a rehash makes is left to the implementation.

A holder has at most one iterator. What is recorded of it is the key of its element and whether it
is still valid.
-/

universe u v

/-- The buckets of a map and the iterators that are held into it. -/
structure HashIterators (ι : Type u) (κ : Type v) where
  bucketCount : Nat
  held : ι → Option (κ × Bool)

namespace HashIterators

variable {ι : Type u} {κ : Type v} {m : HashIterators ι κ} {i j : ι} {k k' : κ}

/-- The map has just been made. -/
def fresh (bucketCount : Nat) : HashIterators ι κ := ⟨bucketCount, fun _ => none⟩

/-- A lookup has found its element. -/
def take [DecidableEq ι] (m : HashIterators ι κ) (i : ι) (k : κ) : HashIterators ι κ :=
  { m with held := fun j => if j = i then some (k, true) else m.held j }

/-- An iterator goes out of scope. -/
def release [DecidableEq ι] (m : HashIterators ι κ) (i : ι) : HashIterators ι κ :=
  { m with held := fun j => if j = i then none else m.held j }

/-- The element of a key is erased. -/
def erase [DecidableEq κ] (m : HashIterators ι κ) (k : κ) : HashIterators ι κ :=
  { m with held := fun j => (m.held j).map fun it => (it.1, it.2 && it.1 != k) }

/-- Would one more element than `size` exceed the load factor? -/
def exceeds (m : HashIterators ι κ) (size : Nat) : Bool := decide (m.bucketCount < size + 1)

/-- An element is inserted into a map of `size`; a rehash makes `buckets`. -/
def insert (m : HashIterators ι κ) (size buckets : Nat) : HashIterators ι κ :=
  if m.exceeds size then
    { bucketCount := buckets
      held := fun j => (m.held j).map fun it => (it.1, false) }
  else m

/-- The holder's iterator may be dereferenced, and gives the element of the key. -/
def Valid (m : HashIterators ι κ) (i : ι) (k : κ) : Prop := m.held i = some (k, true)

theorem valid_take [DecidableEq ι] : (m.take i k).Valid i k := if_pos rfl

theorem Valid.take [DecidableEq ι] (h : m.Valid i k) (hne : i ≠ j) : (m.take j k').Valid i k :=
  (if_neg hne).trans h

theorem Valid.release [DecidableEq ι] (h : m.Valid i k) (hne : i ≠ j) : (m.release j).Valid i k :=
  (if_neg hne).trans h

/-- An iterator survives the erasure of another element. -/
theorem Valid.erase [DecidableEq κ] (h : m.Valid i k) (hne : k ≠ k') : (m.erase k').Valid i k := by
  show (m.held i).map (fun it => (it.1, it.2 && it.1 != k')) = some (k, true)
  rw [show m.held i = some (k, true) from h, Option.map_some, bne_iff_ne.mpr hne]
  rfl

/-- An iterator survives an insertion within the load factor. -/
theorem Valid.insert (h : m.Valid i k) {size : Nat} (hroom : m.exceeds size = false)
    (buckets : Nat) : (m.insert size buckets).Valid i k := by
  rw [HashIterators.insert, hroom]
  exact h

/-- No iterator survives any other insertion. -/
theorem not_valid_insert {size : Nat} (hexceeds : m.exceeds size = true) (buckets : Nat) :
    ¬ (m.insert size buckets).Valid i k := by
  rw [HashIterators.insert, hexceeds]
  intro h
  obtain ⟨it, -, heq⟩ := Option.map_eq_some_iff.mp h
  cases heq

end HashIterators
