import Mathlib.Data.List.Basic

/-!
# Length-prefixed framing

The reference reading of a stream of length-prefixed frames, over any symbol type: a header of
fixed positive width says how many symbols the body has, bodies above a limit are refused, and
reading ends at the first frame that is incomplete or refused.

`parse_frames` is the round trip and `parse_mono` says that a stream cut short delivers a
prefix: together they say that framing loses, splits and joins nothing.
-/

namespace Framing

universe u

/-- A framing: the header's width, the length a header announces, and the longest body. -/
structure Format (α : Type u) where
  head : Nat
  head_pos : 0 < head
  size : List α → Nat
  max : Nat

namespace Format

variable {α : Type u} (f : Format α)

/-- The next body and what follows it, where a complete admitted frame stands first. -/
def next (s : List α) : Option (List α × List α) :=
  if s.length < f.head then none
  else if f.max < f.size (s.take f.head) then none
  else if s.length < f.head + f.size (s.take f.head) then none
  else some ((s.drop f.head).take (f.size (s.take f.head)),
    s.drop (f.head + f.size (s.take f.head)))

variable {f}

/-- No header, or one that announces too much: there is no next frame. -/
theorem next_refused {s : List α} (h : s.length < f.head ∨ f.max < f.size (s.take f.head)) :
    f.next s = none := by
  unfold next
  by_cases hlen : s.length < f.head
  · rw [if_pos hlen]
  · rw [if_neg hlen, if_pos (h.resolve_left hlen)]

/-- A body that ends too early is no frame either. -/
theorem next_cut {s : List α} (h : s.length < f.head + f.size (s.take f.head)) :
    f.next s = none := by
  by_cases hbad : s.length < f.head ∨ f.max < f.size (s.take f.head)
  · exact next_refused hbad
  · obtain ⟨hlen, hmax⟩ := not_or.mp hbad
    unfold next
    rw [if_neg hlen, if_neg hmax, if_pos h]

/-- A frame that stands there whole. -/
theorem next_whole {s : List α} (hmax : f.size (s.take f.head) ≤ f.max)
    (hfit : f.head + f.size (s.take f.head) ≤ s.length) :
    f.next s = some ((s.drop f.head).take (f.size (s.take f.head)),
      s.drop (f.head + f.size (s.take f.head))) := by
  unfold next
  rw [if_neg (by omega), if_neg (by omega), if_neg (by omega)]

theorem next_lt {s b rest : List α} (h : f.next s = some (b, rest)) :
    rest.length < s.length := by
  have hpos := f.head_pos
  unfold next at h
  split at h
  · cases h
  · split at h
    · cases h
    · split at h
      · cases h
      · cases h
        rw [List.length_drop]
        omega

/-- The bodies of a stream: frame after frame, up to the first that is not there whole or not
admitted. -/
def parse (f : Format α) (s : List α) : List (List α) :=
  match h : f.next s with
  | none => []
  | some (b, rest) =>
    have : rest.length < s.length := next_lt h
    b :: parse f rest
termination_by s.length

theorem parse_none {s : List α} (h : f.next s = none) : f.parse s = [] := by
  rw [parse]
  split
  · rfl
  · next hs => rw [h] at hs; cases hs

theorem parse_some {s b rest : List α} (h : f.next s = some (b, rest)) :
    f.parse s = b :: f.parse rest := by
  rw [parse]
  split
  · next hs => rw [h] at hs; cases hs
  · next hs => rw [h] at hs; cases hs; rfl

/-- A header that announces an admitted body, the body, then anything: the body comes out and
reading goes on behind it. -/
theorem next_frame {header body : List α} (rest : List α) (hhead : header.length = f.head)
    (hsize : f.size header = body.length) (hmax : body.length ≤ f.max) :
    f.next (header ++ body ++ rest) = some (body, rest) := by
  have htake : (header ++ body ++ rest).take f.head = header := by
    rw [List.append_assoc, List.take_left' hhead]
  have hdrop : (header ++ body ++ rest).drop f.head = body ++ rest := by
    rw [List.append_assoc, List.drop_left' hhead]
  have hwhole := next_whole (f := f) (s := header ++ body ++ rest)
    (by rw [htake, hsize]; exact hmax)
    (by rw [htake, hsize]; simp only [List.length_append]; omega)
  rw [hwhole, htake, hsize, ← List.drop_drop, hdrop, List.take_left' rfl, List.drop_left' rfl]

theorem parse_frame {header body : List α} (rest : List α) (hhead : header.length = f.head)
    (hsize : f.size header = body.length) (hmax : body.length ≤ f.max) :
    f.parse (header ++ body ++ rest) = body :: f.parse rest :=
  parse_some (next_frame rest hhead hsize hmax)

theorem parse_nil : f.parse [] = [] :=
  parse_none (next_refused (.inl f.head_pos))

/-- THE ROUND TRIP: admitted bodies, each behind a header that announces it, read back as
exactly themselves. -/
theorem parse_frames (header : List α → List α) {bodies : List (List α)}
    (good : ∀ b ∈ bodies, (header b).length = f.head ∧ f.size (header b) = b.length ∧
      b.length ≤ f.max) :
    f.parse (bodies.flatMap fun b => header b ++ b) = bodies := by
  induction bodies with
  | nil => exact parse_nil
  | cons b bodies ih =>
    obtain ⟨hhead, hsize, hmax⟩ := good b List.mem_cons_self
    rw [List.flatMap_cons, parse_frame _ hhead hsize hmax,
      ih fun c hc => good c (List.mem_cons_of_mem _ hc)]

/-- A frame that is there stays there when the stream goes on. -/
theorem next_append {s b rest : List α} (more : List α) (h : f.next s = some (b, rest)) :
    f.next (s ++ more) = some (b, rest ++ more) := by
  by_cases hbad : s.length < f.head ∨ f.max < f.size (s.take f.head)
  · rw [next_refused hbad] at h
    cases h
  · obtain ⟨hlen, hmax⟩ := not_or.mp hbad
    by_cases hcut : s.length < f.head + f.size (s.take f.head)
    · rw [next_cut hcut] at h
      cases h
    · have hhead : (s ++ more).take f.head = s.take f.head :=
        List.take_append_of_le_length (by omega)
      rw [next_whole (by omega) (by omega)] at h
      obtain ⟨rfl, rfl⟩ := Prod.mk.inj (Option.some.inj h)
      rw [next_whole (by rw [hhead]; omega) (by rw [hhead, List.length_append]; omega), hhead,
        List.drop_append_of_le_length (by omega), List.drop_append_of_le_length (by omega),
        List.take_append_of_le_length (by rw [List.length_drop]; omega)]

/-- A stream cut short delivers a prefix of what the whole stream delivers. -/
theorem parse_mono {s t : List α} (h : s <+: t) : f.parse s <+: f.parse t := by
  obtain ⟨more, rfl⟩ := h
  induction hn : s.length using Nat.strongRecOn generalizing s with
  | ind n ih =>
    cases hs : f.next s with
    | none => rw [parse_none hs]; exact List.nil_prefix
    | some frame =>
      obtain ⟨b, rest⟩ := frame
      rw [parse_some hs, parse_some (next_append more hs)]
      exact List.cons_prefix_cons.mpr ⟨rfl, ih rest.length (hn ▸ next_lt hs) rfl⟩

end Format

end Framing
