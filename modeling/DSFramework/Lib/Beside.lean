import DSFramework.Lib.Machine

/-!
# Something beside a machine

What a machine leaves out may be put beside it: a state of its own, which follows the machine's
steps and can forbid them, and which takes steps of its own in between. The machine inside runs as
it does alone, `ReachableBy.fst` and `RunBy.fst`, so what is known of it is known of the two.
-/

namespace Transition

universe u v w z

namespace Machine

variable {σ : Type u} {ℓ : Type v} {ω : Type w} {κ : Type z}

/-- A machine with something beside it: `follow` is what becomes of it in a step of the machine's,
where it allows the step, and `tick` how it goes on by itself. -/
def beside (m : Machine σ ℓ) (start : ω) (follow : σ → ℓ → ω → Option ω)
    (tick : σ → κ → ω → Option ω) : Machine (σ × ω) (ℓ ⊕ κ) where
  init x := m.init x.1 ∧ x.2 = start
  step
    | (s, w), .inl l => (m.step s l).bind fun s' => (follow s l w).map fun w' => (s', w')
    | (s, w), .inr k => (tick s k w).map fun w' => (s, w')

variable {m : Machine σ ℓ} {start : ω} {follow : σ → ℓ → ω → Option ω}
  {tick : σ → κ → ω → Option ω}

/-- Every step is one of the machine's that is allowed, or leaves the machine alone. -/
theorem beside_cases {x x' : σ × ω} {l : ℓ ⊕ κ}
    (h : (m.beside start follow tick).step x l = some x') :
    (∃ l₁, l = .inl l₁ ∧ m.step x.1 l₁ = some x'.1 ∧ follow x.1 l₁ x.2 = some x'.2) ∨
      ∃ k, l = .inr k ∧ tick x.1 k x.2 = some x'.2 ∧ x'.1 = x.1 := by
  obtain ⟨s, w⟩ := x
  cases l with
  | inl l =>
    obtain ⟨s', hs, h⟩ := Option.bind_eq_some_iff.mp h
    obtain ⟨w', hw, rfl⟩ := Option.map_eq_some_iff.mp h
    exact .inl ⟨l, rfl, hs, hw⟩
  | inr k =>
    obtain ⟨w', hw, rfl⟩ := Option.map_eq_some_iff.mp h
    exact .inr ⟨k, rfl, hw, rfl⟩

theorem beside_inl {s s' : σ} {w w' : ω} {l : ℓ} (hs : m.step s l = some s')
    (hw : follow s l w = some w') :
    (m.beside start follow tick).step (s, w) (.inl l) = some (s', w') := by
  simp only [beside, hs, hw, Option.bind_some, Option.map_some]

theorem beside_inr {s : σ} {w w' : ω} {k : κ} (hw : tick s k w = some w') :
    (m.beside start follow tick).step (s, w) (.inr k) = some (s, w') := by
  simp only [beside, hw, Option.map_some]

/-- A step of the machine's is one of it alone. -/
theorem step_of_beside {x x' : σ × ω} {l : ℓ}
    (h : (m.beside start follow tick).step x (.inl l) = some x') : m.step x.1 l = some x'.1 := by
  rcases beside_cases h with ⟨l, heq, hs, -⟩ | ⟨k, heq, -⟩
  · exact Sum.inl.inj heq ▸ hs
  · cases heq

/-- Where the two can do nothing, the machine cannot or is not allowed to. -/
theorem beside_inl_eq_none {x : σ × ω} {l : ℓ} :
    (m.beside start follow tick).step x (.inl l) = none ↔
      m.step x.1 l = none ∨ follow x.1 l x.2 = none := by
  cases hs : m.step x.1 l with
  | none => simp only [beside, hs, Option.bind_none, true_or]
  | some s' => simp only [beside, hs, Option.bind_some, Option.map_eq_none_iff, reduceCtorEq,
      false_or]

theorem beside_inr_eq_none {x : σ × ω} {k : κ} :
    (m.beside start follow tick).step x (.inr k) = none ↔ tick x.1 k x.2 = none :=
  Option.map_eq_none_iff

variable {ok : σ × ω → ℓ ⊕ κ → Prop} {ok' : σ → ℓ → Prop}

/-- The machine runs as it does alone. -/
theorem RunBy.fst (weaker : ∀ x l, ok x (.inl l) → ok' x.1 l) {x x' : σ × ω} {ls : List (ℓ ⊕ κ)}
    (h : (m.beside start follow tick).RunBy ok x ls x') :
    m.RunBy ok' x.1 (ls.filterMap Sum.getLeft?) x'.1 := by
  induction ls generalizing x with
  | nil => exact congrArg Prod.fst h
  | cons l ls ih =>
    obtain ⟨x₁, hok, hstep, hrest⟩ := h
    rcases beside_cases hstep with ⟨l, rfl, hs, -⟩ | ⟨k, rfl, -, hs⟩
    · exact ⟨x₁.1, weaker x l hok, hs, ih hrest⟩
    · exact hs ▸ ih hrest

theorem ReachableBy.fst (weaker : ∀ x l, ok x (.inl l) → ok' x.1 l) {x : σ × ω}
    (h : (m.beside start follow tick).ReachableBy ok x) : m.ReachableBy ok' x.1 := by
  refine h.invariant (I := fun x => m.ReachableBy ok' x.1) ?_ ?_
  · exact fun _ hx => .start hx.1
  intro x l x' hx hok hstep
  rcases beside_cases hstep with ⟨l, rfl, hs, -⟩ | ⟨k, rfl, -, hs⟩
  · exact hx.next (weaker x l hok) hs
  · exact hs ▸ hx

/-- The machine's labels of a kind. -/
theorem countP_getLeft? (kind : ℓ → Bool) (ls : List (ℓ ⊕ κ)) :
    (ls.filterMap Sum.getLeft?).countP kind = ls.countP (Sum.elim kind fun _ => false) := by
  induction ls with
  | nil => rfl
  | cons l ls ih =>
    cases l with
    | inl l =>
      simp only [List.filterMap_cons, Sum.getLeft?_inl, countP_cons_toNat, ih, Sum.elim_inl]
    | inr k =>
      simp only [List.filterMap_cons, Sum.getLeft?_inr, countP_cons_toNat, ih, Sum.elim_inr,
        Bool.toNat_false, Nat.add_zero]

end Machine

end Transition
