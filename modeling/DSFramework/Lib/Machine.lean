import Mathlib.Algebra.GroupWithZero.Nat
import Mathlib.Logic.Relation

/-!
# Labelled transition machines

The shared notion of a run. A machine is a set of initial states and a partial step
function; a label carries every choice the step leaves open (which thread moves, what the
environment answers), so one step is a function and a run is a list of labels. A label the
state does not admit answers `none`.

Reachability comes in one form, `ReachableBy ok`: the states of the runs whose steps all
meet `ok`. The plain `Reachable` is the case without a condition. A condition stands for an
assumption about the environment, or for the schedules a result is restricted to.

`ReachableBy.invariant` is the one induction over runs; every invariant of the development
goes through it, or through `Steps.invariant` when it starts from a given state.
-/

namespace Transition

universe u v

/-- A machine: its initial states, and what one labelled step makes of a state. -/
structure Machine (σ : Type u) (ℓ : Type v) where
  init : σ → Prop
  step : σ → ℓ → Option σ

namespace Machine

variable {σ : Type u} {ℓ : Type v} {m : Machine σ ℓ} {ok : σ → ℓ → Prop}

/-- One step of `m` whose label meets `ok`. -/
def StepBy (m : Machine σ ℓ) (ok : σ → ℓ → Prop) (s s' : σ) : Prop :=
  ∃ l, ok s l ∧ m.step s l = some s'

/-- Any number of steps, each meeting `ok`. -/
def Steps (m : Machine σ ℓ) (ok : σ → ℓ → Prop) : σ → σ → Prop :=
  Relation.ReflTransGen (m.StepBy ok)

/-- The states of the runs whose steps all meet `ok`. -/
def ReachableBy (m : Machine σ ℓ) (ok : σ → ℓ → Prop) (s : σ) : Prop :=
  ∃ s₀, m.init s₀ ∧ m.Steps ok s₀ s

/-- The reachable states, under no condition on the steps. -/
def Reachable (m : Machine σ ℓ) (s : σ) : Prop := m.ReachableBy (fun _ _ => True) s

theorem ReachableBy.start {s : σ} (h : m.init s) : m.ReachableBy ok s :=
  ⟨s, h, .refl⟩

theorem ReachableBy.next {s s' : σ} {l : ℓ} (h : m.ReachableBy ok s) (hok : ok s l)
    (hstep : m.step s l = some s') : m.ReachableBy ok s' := by
  obtain ⟨s₀, h₀, hs⟩ := h
  exact ⟨s₀, h₀, hs.tail ⟨l, hok, hstep⟩⟩

/-- What a step preserves, a run preserves. -/
theorem Steps.invariant {I : σ → Prop}
    (keep : ∀ s l s', I s → ok s l → m.step s l = some s' → I s')
    {s s' : σ} (h : m.Steps ok s s') (hs : I s) : I s' := by
  induction h with
  | refl => exact hs
  | tail _ hstep ih =>
    obtain ⟨l, hok, hl⟩ := hstep
    exact keep _ l _ ih hok hl

/-- THE INVARIANT RULE: what holds initially and is kept by every step that meets `ok`
holds in every state of the runs that meet `ok`. -/
theorem ReachableBy.invariant {I : σ → Prop} (start : ∀ s, m.init s → I s)
    (keep : ∀ s l s', I s → ok s l → m.step s l = some s' → I s')
    {s : σ} (h : m.ReachableBy ok s) : I s := by
  obtain ⟨s₀, h₀, hs⟩ := h
  exact hs.invariant keep (start s₀ h₀)

/-- The invariant rule with an already established invariant `J` at hand in every step. -/
theorem ReachableBy.invariant_with {I J : σ → Prop} (established : ∀ s, m.ReachableBy ok s → J s)
    (start : ∀ s, m.init s → I s)
    (keep : ∀ s l s', J s → I s → ok s l → m.step s l = some s' → I s')
    {s : σ} (h : m.ReachableBy ok s) : I s := by
  have both : m.ReachableBy ok s ∧ I s := by
    refine ReachableBy.invariant (I := fun s => m.ReachableBy ok s ∧ I s)
      (fun s hs => ⟨.start hs, start s hs⟩) ?_ h
    intro s l s' ⟨hr, hi⟩ hok hl
    exact ⟨hr.next hok hl, keep s l s' (established s hr) hi hok hl⟩
  exact both.2

/-- Fewer conditions, more runs. -/
theorem ReachableBy.mono {ok' : σ → ℓ → Prop} (weaker : ∀ s l, ok s l → ok' s l) {s : σ}
    (h : m.ReachableBy ok s) : m.ReachableBy ok' s :=
  ReachableBy.invariant (I := m.ReachableBy ok') (fun _ => .start)
    (fun _ l _ hr hok hl => hr.next (weaker _ l hok) hl) h

/-- The state after a list of labels, where every one of them is possible. -/
def run (m : Machine σ ℓ) : σ → List ℓ → Option σ
  | s, [] => some s
  | s, l :: ls => (m.step s l).bind fun s' => m.run s' ls

/-- A run, and a step. -/
theorem run_concat {s s' s'' : σ} {l : ℓ} {ls : List ℓ} (hrun : m.run s ls = some s')
    (hstep : m.step s' l = some s'') : m.run s (ls ++ [l]) = some s'' := by
  induction ls generalizing s with
  | nil =>
    cases hrun
    simp only [List.nil_append, run, hstep, Option.bind_some]
  | cons l' ls ih =>
    obtain ⟨s₁, hl, hrest⟩ := Option.bind_eq_some_iff.mp hrun
    simp only [List.cons_append, run, hl, Option.bind_some, ih hrest]

/-- Does every step of the run meet the decided condition? -/
def runMeets (m : Machine σ ℓ) (ok : σ → ℓ → Bool) : σ → List ℓ → Bool
  | _, [] => true
  | s, l :: ls => ok s l && (match m.step s l with
    | some s' => m.runMeets ok s' ls
    | none => false)

/-- A run that evaluates is a run: the way every concrete execution is entered. -/
theorem ReachableBy.run {check : σ → ℓ → Bool} (sound : ∀ s l, check s l = true → ok s l)
    {s s' : σ} {ls : List ℓ} (h : m.ReachableBy ok s)
    (meets : m.runMeets check s ls = true) (hrun : m.run s ls = some s') :
    m.ReachableBy ok s' := by
  induction ls generalizing s with
  | nil => cases hrun; exact h
  | cons l ls ih =>
    obtain ⟨s₁, hl, hrest⟩ := Option.bind_eq_some_iff.mp hrun
    simp only [runMeets, hl, Bool.and_eq_true] at meets
    exact ih (h.next (sound s l meets.1) hl) meets.2 hrest

/-- The steps of a run that evaluates, from any state. -/
theorem Steps.of_run {s s' : σ} {ls : List ℓ} (hrun : m.run s ls = some s') :
    m.Steps (fun _ _ => True) s s' := by
  induction ls generalizing s with
  | nil => cases hrun; exact .refl
  | cons l ls ih =>
    obtain ⟨s₁, hl, hrest⟩ := Option.bind_eq_some_iff.mp hrun
    exact .head ⟨l, trivial, hl⟩ (ih hrest)

/-- The unconditional case of `ReachableBy.run`. -/
theorem Reachable.run {s s' : σ} {ls : List ℓ} (h : m.Reachable s)
    (hrun : m.run s ls = some s') : m.Reachable s' := by
  obtain ⟨s₀, h₀, hs⟩ := h
  exact ⟨s₀, h₀, hs.trans (Steps.of_run hrun)⟩

/-- A run whose labels meet a condition. -/
theorem ReachableBy.of_run {kind : ℓ → Prop} {s s' : σ} {ls : List ℓ}
    (h : m.ReachableBy (fun _ l => kind l) s) (hkind : ∀ l ∈ ls, kind l)
    (hrun : m.run s ls = some s') : m.ReachableBy (fun _ l => kind l) s' := by
  induction ls generalizing s with
  | nil => cases hrun; exact h
  | cons l ls ih =>
    obtain ⟨s₁, hl, hrest⟩ := Option.bind_eq_some_iff.mp hrun
    exact ih (h.next (hkind l List.mem_cons_self) hl)
      (fun l' hl' => hkind l' (List.mem_cons_of_mem l hl')) hrest

/-- Counting one label more. -/
theorem countP_cons_toNat (kind : ℓ → Bool) (l : ℓ) (ls : List ℓ) :
    (l :: ls).countP kind = ls.countP kind + (kind l).toNat := by
  rw [List.countP_cons]
  cases kind l <;> rfl

/-- THE POTENTIAL RULE: where the steps of a kind take from a potential that no other step adds to,
a run has no more of them than the potential was. -/
theorem run_potential {I : σ → Prop} {kind : ℓ → Bool} {potential : σ → Nat}
    (keep : ∀ s l s', I s → m.step s l = some s' → I s')
    (pay : ∀ s l s', I s → m.step s l = some s' →
      potential s' + (kind l).toNat ≤ potential s)
    {s s' : σ} {ls : List ℓ} (hs : I s) (hrun : m.run s ls = some s') :
    I s' ∧ potential s' + ls.countP kind ≤ potential s := by
  induction ls generalizing s with
  | nil => cases hrun; exact ⟨hs, Nat.le_refl _⟩
  | cons l ls ih =>
    obtain ⟨s₁, hl, hrest⟩ := Option.bind_eq_some_iff.mp hrun
    obtain ⟨hs', hcount⟩ := ih (keep s l s₁ hs hl) hrest
    have hpaid := pay s l s₁ hs hl
    refine ⟨hs', ?_⟩
    rw [countP_cons_toNat]
    omega

/-- Counting the labels of a kind is adding them up. -/
theorem sum_map_toNat (kind : ℓ → Bool) (ls : List ℓ) :
    (ls.map fun l => (kind l).toNat).sum = ls.countP kind := by
  induction ls with
  | nil => rfl
  | cons l ls ih => rw [List.map_cons, List.sum_cons, ih, countP_cons_toNat, Nat.add_comm]

/-- A run whose steps all meet a condition on the state and the label. -/
def RunBy (m : Machine σ ℓ) (ok : σ → ℓ → Prop) : σ → List ℓ → σ → Prop
  | s, [], s' => s = s'
  | s, l :: ls, s' => ∃ s₁, ok s l ∧ m.step s l = some s₁ ∧ m.RunBy ok s₁ ls s'

theorem RunBy.of_run {kind : ℓ → Prop} {s s' : σ} {ls : List ℓ} (hkind : ∀ l ∈ ls, kind l)
    (hrun : m.run s ls = some s') : m.RunBy (fun _ l => kind l) s ls s' := by
  induction ls generalizing s with
  | nil => exact Option.some.inj hrun
  | cons l ls ih =>
    obtain ⟨s₁, hl, hrest⟩ := Option.bind_eq_some_iff.mp hrun
    exact ⟨s₁, hkind l List.mem_cons_self, hl,
      ih (fun l' hl' => hkind l' (List.mem_cons_of_mem l hl')) hrest⟩

/-- The same for a condition on the state, too. -/
theorem RunBy.run {check : σ → ℓ → Bool} (sound : ∀ s l, check s l = true → ok s l)
    {s s' : σ} {ls : List ℓ} (meets : m.runMeets check s ls = true)
    (hrun : m.run s ls = some s') : m.RunBy ok s ls s' := by
  induction ls generalizing s with
  | nil => exact Option.some.inj hrun
  | cons l ls ih =>
    obtain ⟨s₁, hl, hrest⟩ := Option.bind_eq_some_iff.mp hrun
    simp only [runMeets, hl, Bool.and_eq_true] at meets
    exact ⟨s₁, sound s l meets.1, hl, ih meets.2 hrest⟩

theorem RunBy.steps {s s' : σ} {ls : List ℓ} (h : m.RunBy ok s ls s') : m.Steps ok s s' := by
  induction ls generalizing s with
  | nil =>
    cases h
    exact .refl
  | cons l ls ih =>
    obtain ⟨s₁, hok, hl, hrest⟩ := h
    exact .head ⟨l, hok, hl⟩ (ih hrest)

/-- A run from a reachable state ends in one. -/
theorem ReachableBy.runBy {ok' : σ → ℓ → Prop} (weaker : ∀ s l, ok' s l → ok s l) {s s' : σ}
    {ls : List ℓ} (h : m.ReachableBy ok s) (hruns : m.RunBy ok' s ls s') :
    m.ReachableBy ok s' := by
  obtain ⟨s₀, h₀, hs⟩ := h
  have hsteps : m.Steps ok s s' := Relation.ReflTransGen.mono
    (fun _ _ ⟨l, hok, hl⟩ => ⟨l, weaker _ l hok, hl⟩) _ _ hruns.steps
  exact ⟨s₀, h₀, hs.trans hsteps⟩

/-- THE ACCOUNT RULE: where every step takes what it spends from a potential and adds what it
earns, a run spends no more than the potential was and what has been earned. -/
theorem RunBy.account {I : σ → Prop} {spent earned : ℓ → Nat} {potential : σ → Nat}
    (keep : ∀ s l s', I s → ok s l → m.step s l = some s' → I s')
    (pay : ∀ s l s', I s → ok s l → m.step s l = some s' →
      potential s' + spent l ≤ potential s + earned l)
    {s s' : σ} {ls : List ℓ} (hs : I s) (h : m.RunBy ok s ls s') :
    I s' ∧ potential s' + (ls.map spent).sum ≤ potential s + (ls.map earned).sum := by
  induction ls generalizing s with
  | nil =>
    cases h
    exact ⟨hs, Nat.le_refl _⟩
  | cons l ls ih =>
    obtain ⟨s₁, hok, hl, hrest⟩ := h
    obtain ⟨hs', hsum⟩ := ih (keep s l s₁ hs hok hl) hrest
    have hpaid := pay s l s₁ hs hok hl
    refine ⟨hs', ?_⟩
    simp only [List.map_cons, List.sum_cons]
    omega

/-- THE DRAIN RULE: where every step takes from a potential, a run is no longer than the potential
was. -/
theorem RunBy.drains {I : σ → Prop} {potential : σ → Nat}
    (keep : ∀ s l s', I s → ok s l → m.step s l = some s' → I s')
    (pay : ∀ s l s', I s → ok s l → m.step s l = some s' → potential s' < potential s)
    {s s' : σ} {ls : List ℓ} (hs : I s) (h : m.RunBy ok s ls s') :
    I s' ∧ potential s' + ls.length ≤ potential s := by
  have hsums := @RunBy.account σ ℓ m ok I (fun _ => 1) (fun _ => 0) potential keep pay s s' ls hs h
  simpa only [List.map_const', List.sum_replicate_nat, Nat.mul_one, Nat.mul_zero, Nat.add_zero]
    using hsums

end Machine

end Transition
