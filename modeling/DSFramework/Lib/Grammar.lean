import Mathlib.Data.List.Basic

/-!
# Streams of self-delimiting items

A grammar writes an item as symbols and reads the item that stands first in a stream. A message
is written as items one after another, and a parse loop reads them one by one and hands each to
an action on the message.

Nothing asks that an item has one spelling only. What the laws ask is that an item that was read
is read again from its own spelling (`canonical_of_read`), that no spelling of it is shorter, and
that what follows an item does not change how it is read. From these follow the round trip
(`parse_writeAll`), that streams one after another act one after another (`parse_append`), and
that what a parse accepts can be said again in canonical spelling (`parse_canonical`).
-/

universe u v w

structure Grammar (α : Type u) (F : Type v) where
  write : F → List α
  read : List α → Option (F × List α)
  write_pos (f : F) : 0 < (write f).length
  read_append {s rest : List α} {f : F} (t : List α) :
    read s = some (f, rest) → read (s ++ t) = some (f, rest ++ t)
  read_write {s rest : List α} {f : F} : read s = some (f, rest) → read (write f) = some (f, [])
  read_length {s rest : List α} {f : F} :
    read s = some (f, rest) → (write f).length + rest.length ≤ s.length

namespace Grammar

variable {α : Type u} {F : Type v} {M : Type w} (g : Grammar α F)

/-- An item that is read back from its own spelling. -/
def Canonical (f : F) : Prop := g.read (g.write f) = some (f, [])

def writeAll (fs : List F) : List α := fs.flatMap g.write

variable {g}

theorem canonical_of_read {s rest : List α} {f : F} (h : g.read s = some (f, rest)) :
    g.Canonical f :=
  g.read_write h

theorem Canonical.read {f : F} (h : g.Canonical f) (t : List α) :
    g.read (g.write f ++ t) = some (f, t) := by
  simpa using g.read_append t h

theorem read_lt {s rest : List α} {f : F} (h : g.read s = some (f, rest)) :
    rest.length < s.length := by
  have hpos := g.write_pos f
  have hlen := g.read_length h
  omega

@[simp] theorem writeAll_nil : g.writeAll [] = [] := rfl

@[simp] theorem writeAll_cons (f : F) (fs : List F) :
    g.writeAll (f :: fs) = g.write f ++ g.writeAll fs := rfl

@[simp] theorem writeAll_append (fs fs' : List F) :
    g.writeAll (fs ++ fs') = g.writeAll fs ++ g.writeAll fs' :=
  List.flatMap_append

variable (g)

/-- The items of a stream. -/
def readAll (s : List α) : Option (List F) :=
  match s with
  | [] => some []
  | a :: s =>
    match _h : g.read (a :: s) with
    | none => none
    | some (f, rest) => (readAll rest).map (f :: ·)
termination_by s.length
decreasing_by exact read_lt _h

/-- The parse loop: the item that stands first acts on the message, then the rest is parsed. -/
def parse (act : M → F → Option M) (m : M) (s : List α) : Option M :=
  match s with
  | [] => some m
  | a :: s =>
    match _h : g.read (a :: s) with
    | none => none
    | some (f, rest) => (act m f).bind fun m' => parse act m' rest
termination_by s.length
decreasing_by exact read_lt _h

variable {g}

@[simp] theorem readAll_nil : g.readAll [] = some [] := by
  rw [readAll]

theorem readAll_none {s : List α} (hs : s ≠ []) (h : g.read s = none) : g.readAll s = none := by
  cases s with
  | nil => exact absurd rfl hs
  | cons a s =>
    rw [readAll]
    split
    · rfl
    · next hread => rw [h] at hread; cases hread

theorem readAll_some {s rest : List α} {f : F} (h : g.read s = some (f, rest)) :
    g.readAll s = (g.readAll rest).map (f :: ·) := by
  cases s with
  | nil => exact absurd (read_lt h) (Nat.not_lt_zero _)
  | cons a s =>
    rw [readAll]
    split
    · next hread => rw [h] at hread; cases hread
    · next hread => rw [h] at hread; cases hread; rfl

/-- A stream that has items is empty, or an item and a stream that has the others. -/
theorem readAll_cases {s : List α} {fs : List F} (h : g.readAll s = some fs) :
    (s = [] ∧ fs = []) ∨
      ∃ f rest fs', g.read s = some (f, rest) ∧ g.readAll rest = some fs' ∧ fs = f :: fs' := by
  by_cases hs : s = []
  · subst hs
    rw [readAll_nil] at h
    exact .inl ⟨rfl, (Option.some.inj h).symm⟩
  · cases hread : g.read s with
    | none => rw [readAll_none hs hread] at h; cases h
    | some next =>
      obtain ⟨f, rest⟩ := next
      rw [readAll_some hread, Option.map_eq_some_iff] at h
      obtain ⟨fs', hrest, heq⟩ := h
      exact .inr ⟨f, rest, fs', rfl, hrest, heq.symm⟩

/-- What is appended to a stream that has items is read after them. -/
theorem readAll_append {s : List α} {fs : List F} (h : g.readAll s = some fs) (t : List α) :
    g.readAll (s ++ t) = (g.readAll t).map (fs ++ ·) := by
  induction fs generalizing s with
  | nil =>
    obtain ⟨rfl, -⟩ | ⟨f, rest, fs', -, -, heq⟩ := readAll_cases h
    · simp
    · cases heq
  | cons f fs ih =>
    obtain ⟨-, heq⟩ | ⟨f', rest, fs', hread, hrest, heq⟩ := readAll_cases h
    · cases heq
    · cases heq
      rw [readAll_some (g.read_append t hread), ih hrest, Option.map_map]
      rfl

theorem readAll_write {f : F} (h : g.Canonical f) : g.readAll (g.write f) = some [f] := by
  rw [readAll_some h, readAll_nil]
  rfl

theorem readAll_writeAll {fs : List F} (h : ∀ f ∈ fs, g.Canonical f) :
    g.readAll (g.writeAll fs) = some fs := by
  induction fs with
  | nil => exact readAll_nil
  | cons f fs ih =>
    have hrest := ih fun f' hf' => h f' (List.mem_cons_of_mem f hf')
    rw [writeAll_cons, readAll_append (readAll_write (h f List.mem_cons_self)), hrest]
    rfl

/-- Whatever is read can be said again, in no more symbols. -/
theorem canonical_of_readAll {s : List α} {fs : List F} (h : g.readAll s = some fs) :
    (∀ f ∈ fs, g.Canonical f) ∧ (g.writeAll fs).length ≤ s.length := by
  induction fs generalizing s with
  | nil => exact ⟨fun _ hf => absurd hf List.not_mem_nil, Nat.zero_le _⟩
  | cons f fs ih =>
    obtain ⟨-, heq⟩ | ⟨f', rest, fs', hread, hrest, heq⟩ := readAll_cases h
    · cases heq
    · cases heq
      obtain ⟨hcanonical, hlen⟩ := ih hrest
      have hfirst := g.read_length hread
      refine ⟨fun f' hf' => ?_, by simp only [writeAll_cons, List.length_append]; omega⟩
      obtain rfl | hf' := List.mem_cons.mp hf'
      · exact canonical_of_read hread
      · exact hcanonical f' hf'

/-! ## The parse loop -/

variable {act : M → F → Option M}

@[simp] theorem parse_nil (m : M) : g.parse act m [] = some m := by
  rw [parse]

theorem parse_none {s : List α} (hs : s ≠ []) (h : g.read s = none) (m : M) :
    g.parse act m s = none := by
  cases s with
  | nil => exact absurd rfl hs
  | cons a s =>
    rw [parse]
    split
    · rfl
    · next hread => rw [h] at hread; cases hread

theorem parse_some {s rest : List α} {f : F} (h : g.read s = some (f, rest)) (m : M) :
    g.parse act m s = (act m f).bind fun m' => g.parse act m' rest := by
  cases s with
  | nil => exact absurd (read_lt h) (Nat.not_lt_zero _)
  | cons a s =>
    rw [parse]
    split
    · next hread => rw [h] at hread; cases hread
    · next hread => rw [h] at hread; cases hread; rfl

/-- Items one by one, or all of them first: the message is the same. -/
theorem parse_eq {s : List α} (m : M) :
    g.parse act m s = (g.readAll s).bind fun fs => fs.foldlM act m := by
  induction hlen : s.length using Nat.strongRecOn generalizing s m with
  | ind n ih =>
    by_cases hs : s = []
    · subst hs
      simp
    · cases hread : g.read s with
      | none => rw [parse_none hs hread, readAll_none hs hread]; rfl
      | some next =>
        obtain ⟨f, rest⟩ := next
        rw [parse_some hread, readAll_some hread, Option.bind_map]
        have hrest := fun m' => ih rest.length (hlen ▸ read_lt hread) m' (s := rest) rfl
        cases hact : act m f with
        | none =>
          cases g.readAll rest with
          | none => rfl
          | some fs => simp [List.foldlM_cons, hact]
        | some m' =>
          rw [Option.bind_some, hrest m']
          refine Option.bind_congr fun fs _ => ?_
          rw [Function.comp_apply, List.foldlM_cons, hact]
          rfl

/-- Canonical items act one after another, and then what follows them is parsed. -/
theorem parse_writeAll {fs : List F} (h : ∀ f ∈ fs, g.Canonical f) (m : M) (t : List α) :
    g.parse act m (g.writeAll fs ++ t) =
      (fs.foldlM act m).bind fun m' => g.parse act m' t := by
  rw [parse_eq, readAll_append (readAll_writeAll h), Option.bind_map]
  cases ht : g.readAll t with
  | none =>
    cases hfold : fs.foldlM act m with
    | none => rfl
    | some m' => rw [Option.bind_some, parse_eq, ht]; rfl
  | some fs' =>
    rw [Option.bind_some, Function.comp_apply, List.foldlM_append]
    cases hfold : fs.foldlM act m with
    | none => rfl
    | some m' => rw [Option.bind_some, parse_eq, ht]; rfl

/-- Streams one after another act one after another. -/
theorem parse_append {s : List α} {m m' : M} (h : g.parse act m s = some m') (t : List α) :
    g.parse act m (s ++ t) = g.parse act m' t := by
  rw [parse_eq, Option.bind_eq_some_iff] at h
  obtain ⟨fs, hs, hfold⟩ := h
  rw [parse_eq, readAll_append hs, Option.bind_map, parse_eq]
  cases g.readAll t with
  | none => rfl
  | some fs' =>
    rw [Option.bind_some, Option.bind_some, Function.comp_apply, List.foldlM_append, hfold]
    rfl

/-- What a parse accepts are canonical items in other spellings, none of them shorter. -/
theorem parse_canonical {s : List α} {m m' : M} (h : g.parse act m s = some m') :
    ∃ fs, (∀ f ∈ fs, g.Canonical f) ∧ (g.writeAll fs).length ≤ s.length ∧
      fs.foldlM act m = some m' := by
  rw [parse_eq, Option.bind_eq_some_iff] at h
  obtain ⟨fs, hs, hfold⟩ := h
  obtain ⟨hcanonical, hlen⟩ := canonical_of_readAll hs
  exact ⟨fs, hcanonical, hlen, hfold⟩

/-- What is kept by the action of a canonical item is kept by a parse. -/
theorem parse_induction {P : M → Prop}
    (hact : ∀ {m f m'}, g.Canonical f → act m f = some m' → P m → P m')
    {s : List α} {m m' : M} (h : g.parse act m s = some m') (hm : P m) : P m' := by
  obtain ⟨fs, hcanonical, -, hfold⟩ := parse_canonical h
  clear h
  induction fs generalizing m with
  | nil =>
    cases hfold
    exact hm
  | cons f fs ih =>
    rw [List.foldlM_cons, Option.bind_eq_bind, Option.bind_eq_some_iff] at hfold
    obtain ⟨m₁, hfirst, hrest⟩ := hfold
    exact ih (hact (hcanonical f List.mem_cons_self) hfirst hm)
      (fun f' hf' => hcanonical f' (List.mem_cons_of_mem f hf')) hrest

/-- A measure that an item raises by its spelling's length at most is raised by a parse by the
length of the stream at most. -/
theorem parse_measure {φ : M → Nat}
    (hact : ∀ {m f m'}, act m f = some m' → φ m' ≤ φ m + (g.write f).length)
    {s : List α} {m m' : M} (h : g.parse act m s = some m') : φ m' ≤ φ m + s.length := by
  obtain ⟨fs, -, hlen, hfold⟩ := parse_canonical h
  have hsum : φ m' ≤ φ m + (g.writeAll fs).length := by
    clear h hlen
    induction fs generalizing m with
    | nil =>
      cases hfold
      exact Nat.le_add_right _ _
    | cons f fs ih =>
      rw [List.foldlM_cons, Option.bind_eq_bind, Option.bind_eq_some_iff] at hfold
      obtain ⟨m₁, hfirst, hrest⟩ := hfold
      have hhead := hact hfirst
      have htail := ih hrest
      simp only [writeAll_cons, List.length_append]
      omega
  omega

end Grammar
