import Mathlib.Data.List.Nodup

/-!
# Jobs that are passed from hand to hand

Carriers (a thread with the rest of its program, an item in a queue, a task in a pool) hold jobs,
and every job has a record. `InOrder` says that no job is in two hands, that every carrier fits the
record of the job it holds, and that the record of a job in nobody's hands is that of one that is
done.

It is kept by everything that can happen: carriers change places, an idle one comes or goes, a
carrier works on its job or hands it over, a job is born. What a carrier and its record have to do
with each other is a parameter, and a development may use the rules with several.
-/

namespace Relay

universe u v

variable {κ : Type u} {ρ : Type v} {holds : κ → Option Nat} {Fits : κ → ρ → Prop}
  {Done : ρ → Prop} {ks ks' : List κ} {records : List ρ} {k k' : κ} {a : Nat}

/-- No job is in two hands, every carrier fits its job's record, and the other jobs are done. -/
structure InOrder (holds : κ → Option Nat) (Fits : κ → ρ → Prop) (Done : ρ → Prop) (ks : List κ)
    (records : List ρ) : Prop where
  alone : (ks.filterMap holds).Nodup
  carried : ∀ k ∈ ks, ∀ a, holds k = some a → ∃ c, records[a]? = some c ∧ Fits k c
  done : ∀ (a : Nat) c, records[a]? = some c → (∀ k ∈ ks, holds k ≠ some a) → Done c

namespace InOrder

/-- The order of the carriers does not matter. -/
theorem perm (h : InOrder holds Fits Done ks records) (hp : ks.Perm ks') :
    InOrder holds Fits Done ks' records where
  alone := (hp.filterMap holds).nodup_iff.mp h.alone
  carried := fun k hk => h.carried k (hp.mem_iff.mpr hk)
  done := fun a c hc hnobody => h.done a c hc fun k hk => hnobody k (hp.mem_iff.mp hk)

/-- The carriers change without changing what they have in hand. -/
theorem map (h : InOrder holds Fits Done ks records) {f : κ → κ} (same : ∀ k, holds (f k) = holds k)
    (fits : ∀ k c, Fits k c → Fits (f k) c) : InOrder holds Fits Done (ks.map f) records where
  alone := by
    have heq : (ks.map f).filterMap holds = ks.filterMap holds := by
      rw [List.filterMap_map]
      exact List.filterMap_congr fun k _ => same k
    rw [heq]
    exact h.alone
  carried := by
    intro k hk a ha
    obtain ⟨k₀, hk₀, rfl⟩ := List.mem_map.mp hk
    obtain ⟨c, hc, hfits⟩ := h.carried k₀ hk₀ a ((same k₀).symm.trans ha)
    exact ⟨c, hc, fits k₀ c hfits⟩
  done := by
    intro a c hc hnobody
    apply h.done a c hc
    intro k hk
    rw [← same k]
    exact hnobody (f k) (List.mem_map_of_mem hk)

/-- A carrier with nothing in hand comes. -/
theorem join (h : InOrder holds Fits Done ks records) (hk : holds k = none) :
    InOrder holds Fits Done (k :: ks) records where
  alone := by
    rw [List.filterMap_cons_none hk]
    exact h.alone
  carried := by
    intro k₁ hk₁ a ha
    rcases List.mem_cons.mp hk₁ with rfl | hmem
    · rw [hk] at ha
      cases ha
    · exact h.carried k₁ hmem a ha
  done := fun a c hc hnobody => h.done a c hc fun k hk => hnobody k (List.mem_cons_of_mem _ hk)

/-- A carrier with nothing in hand goes. -/
theorem leave (h : InOrder holds Fits Done (k :: ks) records) (hk : holds k = none) :
    InOrder holds Fits Done ks records where
  alone := by
    have halone := h.alone
    rwa [List.filterMap_cons_none hk] at halone
  carried := fun k₁ hk₁ => h.carried k₁ (List.mem_cons_of_mem _ hk₁)
  done := by
    intro a c hc hnobody
    apply h.done a c hc
    intro k₁ hk₁
    rcases List.mem_cons.mp hk₁ with rfl | hmem
    · rw [hk]
      exact nofun
    · exact hnobody k₁ hmem

/-- The others do not hold the job that the first carrier holds. -/
theorem alone_ne (h : InOrder holds Fits Done (k :: ks) records) (hk : holds k = some a) :
    ∀ k₁ ∈ ks, holds k₁ ≠ some a := by
  intro k₁ hk₁ ha
  have halone := h.alone
  rw [List.filterMap_cons_some hk, List.nodup_cons] at halone
  exact halone.1 (List.mem_filterMap.mpr ⟨k₁, hk₁, ha⟩)

/-- A job is in one hand only. -/
theorem one_hand (h : InOrder holds Fits Done ks records) {i j : Nat} (hi : ks[i]? = some k)
    (hj : ks[j]? = some k') (hk : holds k = some a) (hk' : holds k' = some a) : i = j := by
  have hpairs := List.pairwise_iff_getElem.mp (List.pairwise_filterMap.mp h.alone)
  obtain ⟨hilt, rfl⟩ := List.getElem?_eq_some_iff.mp hi
  obtain ⟨hjlt, rfl⟩ := List.getElem?_eq_some_iff.mp hj
  rcases Nat.lt_trichotomy i j with hlt | heq | hgt
  · exact absurd rfl (hpairs i j hilt hjlt hlt a hk a hk')
  · exact heq
  · exact absurd rfl (hpairs j i hjlt hilt hgt a hk' a hk)

/-- A job is in somebody's hands or done. -/
theorem held_or_done (h : InOrder holds Fits Done ks records) {c : ρ} (hc : records[a]? = some c) :
    (∃ k ∈ ks, holds k = some a ∧ Fits k c) ∨ ((∀ k ∈ ks, holds k ≠ some a) ∧ Done c) := by
  by_cases hnobody : ∀ k ∈ ks, holds k ≠ some a
  · exact .inr ⟨hnobody, h.done a c hc hnobody⟩
  · simp only [not_forall, Classical.not_not] at hnobody
    obtain ⟨k, hk, ha⟩ := hnobody
    obtain ⟨c', hc', hfits⟩ := h.carried k hk a ha
    rw [hc] at hc'
    cases hc'
    exact .inl ⟨k, hk, ha, hfits⟩

/-- WORK: a carrier changes the record of its job; it, or the one it hands the job to, goes on
with it, or the job is done. -/
theorem advance (h : InOrder holds Fits Done (k :: ks) records) (hk : holds k = some a)
    {f : ρ → ρ} (works : ∀ c, records[a]? = some c → Fits k c →
      (holds k' = some a ∧ Fits k' (f c)) ∨ (holds k' = none ∧ Done (f c))) :
    InOrder holds Fits Done (k' :: ks) (records.modify a f) := by
  have hothers := h.alone_ne hk
  obtain ⟨c, hc, hfits⟩ := h.carried k List.mem_cons_self a hk
  have hnew : (records.modify a f)[a]? = some (f c) := by
    rw [List.getElem?_modify_eq, hc]
    rfl
  have hsame : ∀ b ≠ a, (records.modify a f)[b]? = records[b]? :=
    fun b hb => List.getElem?_modify_ne _ _ (Ne.symm hb)
  have hrest : (ks.filterMap holds).Nodup := by
    have halone := h.alone
    rw [List.filterMap_cons_some hk, List.nodup_cons] at halone
    exact halone.2
  have hk' := works c hc hfits
  refine ⟨?_, ?_, ?_⟩
  · obtain ⟨hk', -⟩ | ⟨hk', -⟩ := hk'
    · rw [List.filterMap_cons_some hk', List.nodup_cons]
      refine ⟨fun hmem => ?_, hrest⟩
      obtain ⟨k₁, hk₁, ha⟩ := List.mem_filterMap.mp hmem
      exact hothers k₁ hk₁ ha
    · rw [List.filterMap_cons_none hk']
      exact hrest
  · intro k₁ hk₁ b hb
    rcases List.mem_cons.mp hk₁ with rfl | hmem
    · obtain ⟨hk', hfits'⟩ | ⟨hk', -⟩ := hk'
      · rw [hk'] at hb
        cases hb
        exact ⟨_, hnew, hfits'⟩
      · rw [hk'] at hb
        cases hb
    · have hne : b ≠ a := fun heq => hothers k₁ hmem (heq ▸ hb)
      rw [hsame b hne]
      exact h.carried k₁ (List.mem_cons_of_mem _ hmem) b hb
  · intro b c₁ hc₁ hnobody
    by_cases hb : b = a
    · subst hb
      rw [hnew] at hc₁
      cases hc₁
      obtain ⟨hk', -⟩ | ⟨-, hdone⟩ := hk'
      · exact absurd hk' (hnobody k' List.mem_cons_self)
      · exact hdone
    · rw [hsame b hb] at hc₁
      apply h.done b c₁ hc₁
      intro k₁ hk₁
      rcases List.mem_cons.mp hk₁ with rfl | hmem
      · rw [hk]
        exact fun heq => hb (Option.some.inj heq).symm
      · exact hnobody k₁ (List.mem_cons_of_mem _ hmem)

/-- A change of a record that nothing depends on may be anybody's. -/
theorem touch (h : InOrder holds Fits Done ks records) {f : ρ → ρ}
    (fits : ∀ k c, Fits k c → Fits k (f c)) (done : ∀ c, Done c → Done (f c)) :
    InOrder holds Fits Done ks (records.modify a f) where
  alone := h.alone
  carried := by
    intro k hk b hb
    obtain ⟨c, hc, hfits⟩ := h.carried k hk b hb
    rw [List.getElem?_modify, hc]
    by_cases hab : a = b
    · exact ⟨f c, by simp only [if_pos hab, Option.map_eq_map, Option.map_some], fits k c hfits⟩
    · exact ⟨c, by simp only [if_neg hab, Option.map_eq_map, Option.map_some], hfits⟩
  done := by
    intro b c' hc' hnobody
    rw [List.getElem?_modify] at hc'
    obtain ⟨c, hc, rfl⟩ := Option.map_eq_some_iff.mp hc'
    have hdone := h.done b c hc hnobody
    split
    · exact done c hdone
    · exact hdone

/-- BIRTH: a new job comes with its first carrier. -/
theorem bear (h : InOrder holds Fits Done ks records) (hk : holds k = some records.length)
    {c : ρ} (fits : Fits k c) : InOrder holds Fits Done (k :: ks) (records ++ [c]) := by
  have hlt : ∀ k₁ ∈ ks, ∀ b, holds k₁ = some b → b < records.length := by
    intro k₁ hk₁ b hb
    obtain ⟨c₁, hc₁, -⟩ := h.carried k₁ hk₁ b hb
    exact (List.getElem?_eq_some_iff.mp hc₁).1
  refine ⟨?_, ?_, ?_⟩
  · rw [List.filterMap_cons_some hk, List.nodup_cons]
    refine ⟨fun hmem => ?_, h.alone⟩
    obtain ⟨k₁, hk₁, hb⟩ := List.mem_filterMap.mp hmem
    exact Nat.lt_irrefl _ (hlt k₁ hk₁ _ hb)
  · intro k₁ hk₁ b hb
    rcases List.mem_cons.mp hk₁ with rfl | hmem
    · rw [hk] at hb
      cases hb
      exact ⟨c, List.getElem?_concat_length, fits⟩
    · rw [List.getElem?_append_left (hlt k₁ hmem b hb)]
      exact h.carried k₁ hmem b hb
  · intro b c₁ hc₁ hnobody
    rcases Nat.lt_or_ge b records.length with hb | hb
    · rw [List.getElem?_append_left hb] at hc₁
      exact h.done b c₁ hc₁ fun k₁ hk₁ => hnobody k₁ (List.mem_cons_of_mem _ hk₁)
    · have hb' : b = records.length := by
        have hlt := (List.getElem?_eq_some_iff.mp hc₁).1
        rw [List.length_append, List.length_singleton] at hlt
        exact Nat.le_antisymm (Nat.le_of_lt_succ hlt) hb
      exact absurd (hb' ▸ hk) (hnobody k List.mem_cons_self)

end InOrder

end Relay
