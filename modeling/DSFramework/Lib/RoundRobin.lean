import Mathlib.Data.Int.CardIntervalMod

/-!
# Taking turns

An index that goes up by one and is set back when it reaches the number of participants. Its `k`-th
value is `k` modulo that number, so in `n` turns everybody comes up `n / size` times or once more.
-/

namespace RoundRobin

variable {size i j : Nat}

/-- Who comes after `i`, of `size`. -/
def next (size i : Nat) : Nat := if i + 1 = size then 0 else i + 1

/-- The turn after the `k`-th. -/
theorem next_mod (hsize : 0 < size) (k : Nat) : next size (k % size) = (k + 1) % size := by
  have hlt := Nat.mod_lt k hsize
  unfold next
  by_cases hlast : k % size + 1 = size
  · rw [if_pos hlast, ← Nat.mod_add_mod, hlast, Nat.mod_self]
  · have hnext : k % size + 1 < size := by omega
    calc (if k % size + 1 = size then 0 else k % size + 1)
        = k % size + 1 := if_neg hlast
      _ = (k % size + 1) % size := (Nat.mod_eq_of_lt hnext).symm
      _ = (k + 1) % size := Nat.mod_add_mod k size 1

/-- Whose turns the first `n` are. -/
def turns (size n : Nat) : List Nat := (List.range n).map (· % size)

theorem turns_succ (size n : Nat) : turns size (n + 1) = turns size n ++ [n % size] := by
  rw [turns, List.range_succ, List.map_append]
  rfl

/-- THE COUNT: everybody has had the whole rounds, and those before the next one a turn more. -/
theorem count_turns (h : i < size) (n : Nat) :
    (turns size n).count i = n / size + if i < n % size then 1 else 0 := by
  have hsize : 0 < size := Nat.zero_lt_of_lt h
  have hcount : (turns size n).count i = n.count (· ≡ i [MOD size]) := by
    rw [turns, List.count, List.countP_map, Nat.count]
    apply List.countP_congr
    intro k _
    simp only [Function.comp_apply, beq_iff_eq, Nat.ModEq, Nat.mod_eq_of_lt h, decide_eq_true_eq]
  rw [hcount, Nat.count_modEq_card n hsize, Nat.mod_eq_of_lt h]

/-- FAIRNESS: nobody is ahead of anybody by more than one turn. -/
theorem count_turns_le (hi : i < size) (hj : j < size) (n : Nat) :
    (turns size n).count i ≤ (turns size n).count j + 1 := by
  rw [count_turns hi, count_turns hj]
  split <;> split <;> omega

end RoundRobin
