/-!
# Threads by position

A system of finitely many threads is a list of what each thread stands before; a step of thread
`t` replaces the entry at `t`. These are the ways a proof reads such a list after a step: position
by position, by counting the threads of a kind, and by adding up what each has left to do.

`Held` and `Owned` are the discipline of a mutex. The places inside its sections are a parameter.
-/

namespace Threads

universe u

variable {τ : Type u}

/-- Who stands where after thread `t` has moved to `y`. -/
theorem at_set {ts : List τ} {t i : Nat} {y z : τ} (h : (ts.set t y)[i]? = some z) :
    (i = t ∧ z = y) ∨ (i ≠ t ∧ ts[i]? = some z) := by
  rw [List.getElem?_set] at h
  split at h
  case isTrue heq =>
    split at h
    · cases h
      exact .inl ⟨heq.symm, rfl⟩
    · cases h
  case isFalse hne => exact .inr ⟨fun heq => hne heq.symm, h⟩

/-- Whoever stands at another place than `y` stood there before. -/
theorem at_of_set {ts : List τ} {t i : Nat} {y z : τ} (h : (ts.set t y)[i]? = some z)
    (hne : y ≠ z) : ts[i]? = some z := by
  obtain ⟨-, heq⟩ | ⟨-, hi⟩ := at_set h
  · exact absurd heq.symm hne
  · exact hi

/-- The other threads stay where they are. -/
theorem at_set_ne {ts : List τ} {t i : Nat} (y : τ) (h : i ≠ t) : (ts.set t y)[i]? = ts[i]? :=
  List.getElem?_set_ne (Ne.symm h)

/-- The moved thread stands at its new place. -/
theorem at_set_self {ts : List τ} {t : Nat} {x : τ} (h : ts[t]? = some x) (y : τ) :
    (ts.set t y)[t]? = some y := by
  obtain ⟨hlt, -⟩ := List.getElem?_eq_some_iff.mp h
  rw [List.getElem?_set_self hlt]

/-- Moving one thread from `x` to `y` moves it between the counts of the two places. -/
theorem countP_set (p : τ → Bool) {ts : List τ} {t : Nat} {x : τ} (h : ts[t]? = some x) (y : τ) :
    (ts.set t y).countP p + (p x).toNat = ts.countP p + (p y).toNat := by
  obtain ⟨hlt, rfl⟩ := List.getElem?_eq_some_iff.mp h
  have hpos : p ts[t] = true → 0 < ts.countP p := fun hp =>
    List.countP_pos_iff.mpr ⟨ts[t], List.getElem_mem hlt, hp⟩
  rw [List.countP_set hlt]
  cases hx : p ts[t] with
  | false => cases p y <;> rfl
  | true =>
    have hcounted := hpos hx
    cases p y <;> simp only [if_true, Bool.false_eq_true, if_false, Bool.toNat_true,
      Bool.toNat_false] <;> omega

/-- What all threads together have left. -/
def total (left : τ → Nat) (ts : List τ) : Nat := ts.foldr (fun x n => left x + n) 0

/-- Moving one thread from `x` to `y` changes the total by what the two have left. -/
theorem total_set (left : τ → Nat) {ts : List τ} {t : Nat} {x : τ} (h : ts[t]? = some x) (y : τ) :
    total left (ts.set t y) + left x = total left ts + left y := by
  induction ts generalizing t with
  | nil => cases h
  | cons z ts ih =>
    cases t with
    | zero =>
      cases h
      simp only [List.set_cons_zero, total, List.foldr_cons]
      omega
    | succ t =>
      have hrest := ih h
      simp only [List.set_cons_succ, total, List.foldr_cons] at hrest ⊢
      omega

/-- Nothing is left when no thread has anything left. -/
theorem total_eq_zero {left : τ → Nat} {ts : List τ} :
    total left ts = 0 ↔ ∀ x ∈ ts, left x = 0 := by
  induction ts with
  | nil => exact iff_of_true rfl (List.forall_mem_nil _)
  | cons x ts ih =>
    rw [List.forall_mem_cons, ← ih]
    exact Nat.add_eq_zero_iff

/-! ## A mutex -/

section Held

variable {inside : τ → Bool} {ts : List τ} {mutex : Option Nat} {t : Nat} {x y : τ}

/-- Whoever is inside a section of the mutex has it. -/
def Held (inside : τ → Bool) (ts : List τ) (mutex : Option Nat) : Prop :=
  ∀ (t : Nat) x, ts[t]? = some x → inside x = true → mutex = some t

/-- A thread may go on where it has the mutex or does not need it. -/
theorem Held.goto (h : Held inside ts mutex) (hy : inside y = true → mutex = some t) :
    Held inside (ts.set t y) mutex := by
  intro i z hz hinside
  obtain ⟨rfl, rfl⟩ | ⟨-, hz⟩ := at_set hz
  · exact hy hinside
  · exact h i z hz hinside

/-- A thread takes the free mutex. -/
theorem Held.lock (h : Held inside ts none) (y : τ) : Held inside (ts.set t y) (some t) := by
  intro i z hz hinside
  obtain ⟨rfl, -⟩ | ⟨-, hz⟩ := at_set hz
  · rfl
  · cases h i z hz hinside

/-- A thread leaves its section and releases the mutex. -/
theorem Held.unlock (h : Held inside ts mutex) (hat : ts[t]? = some x) (hx : inside x = true)
    (hy : inside y = false) : Held inside (ts.set t y) none := by
  intro i z hz hinside
  obtain ⟨rfl, rfl⟩ | ⟨hne, hz⟩ := at_set hz
  · rw [hy] at hinside
    cases hinside
  · have hmutex := h t x hat hx
    rw [h i z hz hinside, Option.some.injEq] at hmutex
    exact absurd hmutex hne

/-- A mutex that is taken belongs to a thread inside one of its sections. -/
def Owned (inside : τ → Bool) (ts : List τ) (mutex : Option Nat) : Prop :=
  ∀ t : Nat, mutex = some t → ∃ x, ts[t]? = some x ∧ inside x = true

theorem owned_free (inside : τ → Bool) (ts : List τ) : Owned inside ts none := nofun

/-- A thread that does not leave a section leaves the mutex where it is. -/
theorem Owned.goto (h : Owned inside ts mutex) (hat : ts[t]? = some x)
    (hstays : inside x = true → inside y = true) : Owned inside (ts.set t y) mutex := by
  intro i hi
  obtain ⟨z, hz, hinside⟩ := h i hi
  by_cases hit : i = t
  · subst hit
    rw [hat] at hz
    cases hz
    exact ⟨y, at_set_self hat y, hstays hinside⟩
  · exact ⟨z, (at_set_ne y hit).trans hz, hinside⟩

theorem owned_lock (hat : ts[t]? = some x) (hy : inside y = true) :
    Owned inside (ts.set t y) (some t) := by
  intro i hi
  cases hi
  exact ⟨y, at_set_self hat y, hy⟩

end Held

end Threads
