import Mathlib.Data.List.Count
import DSFramework.Lib.RoundRobin

/-!
# The pool of I/O contexts

`getIOContext` returns the context at `m_nextIOContext`, counts the index up and sets it back when
it has reached the number of contexts. That is taking turns, for every number of contexts but none:
`hardware_concurrency` may be 0, and then the first call reads behind the end of an empty vector.
The pool takes the number as it is, where `ThreadPool` makes two threads of it.

Its only caller is `StartAccept`, which has one accept outstanding, so the calls come one after the
other. The works and the threads of the contexts, which `getIOContext` does not look at, are in
`IOServicePool.Stop`.
-/

namespace DSFramework.DSCommunication

/-- A context, told from the others by its place in `m_ioContexts`. -/
structure IOContext where
  place : Nat
  deriving DecidableEq, Repr

/-- The members that `getIOContext` uses. -/
structure IOServicePool where
  ioContexts : List IOContext
  nextIOContext : UInt64
  deriving DecidableEq, Repr

namespace IOServicePool

variable {v : IOServicePool} {poolSize : UInt64}

/-- `IOServicePool(std::size_t poolSize)`. -/
def new (poolSize : UInt64) : IOServicePool :=
  { ioContexts := (List.range poolSize.toNat).map IOContext.mk
    nextIOContext := 0 }

/-- `getIOContext`: the context at the index, `none` where the index is out of bounds, and the pool
afterwards. -/
def getIOContext (v : IOServicePool) : Option IOContext × IOServicePool :=
  let context := v.ioContexts[v.nextIOContext.toNat]?
  let nextIOContext := v.nextIOContext + 1
  if nextIOContext.toNat = v.ioContexts.length then (context, { v with nextIOContext := 0 })
  else (context, { v with nextIOContext := nextIOContext })

/-- So many calls of `getIOContext`: what they return, in order, and the pool afterwards. -/
def getIOContexts (v : IOServicePool) : Nat → List (Option IOContext) × IOServicePool
  | 0 => ([], v)
  | calls + 1 =>
    let (contexts, v) := v.getIOContexts calls
    let (context, v) := v.getIOContext
    (contexts ++ [context], v)

/-! ## One call -/

theorem place_lt {context : IOContext} (h : context ∈ (new poolSize).ioContexts) :
    context.place < poolSize.toNat := by
  obtain ⟨i, hi, rfl⟩ := List.mem_map.mp h
  exact List.mem_range.mp hi

theorem length_new (poolSize : UInt64) : (new poolSize).ioContexts.length = poolSize.toNat := by
  rw [new, List.length_map, List.length_range]

/-- A call returns what is at the index and leaves the contexts where they are. -/
theorem getIOContext_context (v : IOServicePool) :
    v.getIOContext.1 = v.ioContexts[v.nextIOContext.toNat]? ∧
      v.getIOContext.2.ioContexts = v.ioContexts := by
  unfold getIOContext
  dsimp only
  split <;> exact ⟨rfl, rfl⟩

/-- From an index within bounds a call takes the next turn: the index is counted up without
overflow, since the number of contexts is a `size_t`. -/
theorem getIOContext_next (hlength : v.ioContexts.length = poolSize.toNat)
    (hlt : v.nextIOContext.toNat < poolSize.toNat) :
    v.getIOContext.2.nextIOContext.toNat =
      RoundRobin.next poolSize.toNat v.nextIOContext.toNat := by
  have hsize := poolSize.toNat_lt
  have hadd : (v.nextIOContext + 1).toNat = v.nextIOContext.toNat + 1 := by
    rw [UInt64.toNat_add, UInt64.toNat_one]
    omega
  unfold getIOContext RoundRobin.next
  dsimp only
  rw [hadd, hlength]
  split
  · rfl
  · exact hadd

/-! ## Any number of calls -/

/-- The `k`-th call returns the context whose turn it is. -/
theorem getIOContexts_eq (hpool : 0 < poolSize.toNat) (calls : Nat) :
    ((new poolSize).getIOContexts calls).1 =
        (RoundRobin.turns poolSize.toNat calls).map (fun i => some (IOContext.mk i)) ∧
      ((new poolSize).getIOContexts calls).2.ioContexts = (new poolSize).ioContexts ∧
      ((new poolSize).getIOContexts calls).2.nextIOContext.toNat = calls % poolSize.toNat := by
  induction calls with
  | zero => exact ⟨rfl, rfl, (Nat.zero_mod _).symm⟩
  | succ calls ih =>
    obtain ⟨hcontexts, hsame, hindex⟩ := ih
    rw [getIOContexts]
    generalize (new poolSize).getIOContexts calls = before at hcontexts hsame hindex
    obtain ⟨contexts, v⟩ := before
    obtain ⟨hcontext, hstays⟩ := getIOContext_context v
    have hlt : calls % poolSize.toNat < poolSize.toNat := Nat.mod_lt calls hpool
    have hlength : v.ioContexts.length = poolSize.toNat := hsame ▸ length_new poolSize
    refine ⟨?_, hstays.trans hsame, ?_⟩
    · have hfound : v.getIOContext.1 = some ⟨calls % poolSize.toNat⟩ := by
        rw [hcontext, hindex, show v.ioContexts = (new poolSize).ioContexts from hsame, new,
          List.getElem?_map, List.getElem?_range hlt, Option.map_some]
      show contexts ++ [v.getIOContext.1] = _
      rw [hfound, RoundRobin.turns_succ, List.map_append, ← hcontexts]
      rfl
    · show v.getIOContext.2.nextIOContext.toNat = _
      rw [getIOContext_next hlength (hindex ▸ hlt), hindex, RoundRobin.next_mod hpool]

/-- A context is returned as often as its turn comes. -/
theorem count_getIOContexts (hpool : 0 < poolSize.toNat) (calls : Nat) (context : IOContext) :
    ((new poolSize).getIOContexts calls).1.count (some context) =
      (RoundRobin.turns poolSize.toNat calls).count context.place := by
  have hinjective : Function.Injective fun i => some (IOContext.mk i) := by
    intro i j heq
    cases heq
    rfl
  rw [(getIOContexts_eq hpool calls).1]
  exact List.count_map_of_injective _ _ hinjective context.place

/-- Without a context every index is out of bounds. -/
theorem getIOContexts_empty (calls : Nat) :
    ((new 0).getIOContexts calls).1 = List.replicate calls none ∧
      ((new 0).getIOContexts calls).2.ioContexts = [] := by
  induction calls with
  | zero => exact ⟨rfl, rfl⟩
  | succ calls ih =>
    obtain ⟨hcontexts, hempty⟩ := ih
    rw [getIOContexts]
    generalize (new 0).getIOContexts calls = before at hcontexts hempty
    obtain ⟨contexts, v⟩ := before
    obtain ⟨hcontext, hstays⟩ := getIOContext_context v
    refine ⟨?_, hstays.trans hempty⟩
    have hnone : v.getIOContext.1 = none := by
      rw [hcontext, show v.ioContexts = [] from hempty, List.getElem?_nil]
    show contexts ++ [v.getIOContext.1] = _
    rw [hnone, List.replicate_succ', show contexts = List.replicate calls none from hcontexts]

/-- So many calls of a new pool index `m_ioContexts` within its bounds, and no context has been
returned more than once oftener than another. -/
structure Serves (poolSize : UInt64) (calls : Nat) : Prop where
  inBounds : ∀ context ∈ ((new poolSize).getIOContexts calls).1, context.isSome = true
  fair : ∀ a ∈ (new poolSize).ioContexts, ∀ b ∈ (new poolSize).ioContexts,
    ((new poolSize).getIOContexts calls).1.count (some a) ≤
      ((new poolSize).getIOContexts calls).1.count (some b) + 1

/-- THE TURNS: for every size of the pool and every number of calls, the calls are within bounds and
the contexts are returned equally often, up to one, if and only if there is a context or no call. -/
theorem serves_iff (poolSize : UInt64) (calls : Nat) :
    Serves poolSize calls ↔ poolSize ≠ 0 ∨ calls = 0 := by
  constructor
  · intro h
    by_contra hbad
    obtain ⟨hpool, hcalls⟩ := not_or.mp hbad
    obtain rfl := Decidable.not_not.mp hpool
    have hmem : none ∈ ((new 0).getIOContexts calls).1 := by
      rw [(getIOContexts_empty calls).1]
      exact List.mem_replicate.mpr ⟨hcalls, rfl⟩
    cases h.inBounds none hmem
  · rintro (hpool | rfl)
    · have hpos : 0 < poolSize.toNat :=
        Nat.pos_of_ne_zero fun heq => hpool (UInt64.toNat_inj.mp heq)
      constructor
      · intro context hmem
        rw [(getIOContexts_eq hpos calls).1] at hmem
        obtain ⟨i, -, rfl⟩ := List.mem_map.mp hmem
        rfl
      · intro a ha b hb
        rw [count_getIOContexts hpos, count_getIOContexts hpos]
        exact RoundRobin.count_turns_le (place_lt ha) (place_lt hb) calls
    · exact ⟨nofun, fun _ _ _ _ => Nat.zero_le _⟩

/-- The pool of a machine whose `hardware_concurrency` is 0: the first call is out of bounds. -/
theorem not_serves_of_empty : ¬ ∀ (poolSize : UInt64) (calls : Nat), Serves poolSize calls := by
  intro h
  have hmem : none ∈ ((new 0).getIOContexts 1).1 := by decide
  cases (h 0 1).inBounds none hmem

end IOServicePool

end DSFramework.DSCommunication
