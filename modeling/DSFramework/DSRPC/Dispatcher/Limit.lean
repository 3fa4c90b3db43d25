import DSFramework.DSRPC.Dispatcher
import DSFramework.Lib.Machine
import DSFramework.Lib.Threads

/-!
# The limit of a dispatcher's queue

`PostRequestToQueue` reads `m_count`, compares it with `m_maxWaitedDispatch` and pushes later;
`Push` links the item before it adds one, and `WaitPop` takes the item before it subtracts one. Any
number of threads post to a dispatcher, and its own thread is the only one that pops.

`Counted` is the account: `m_count` is short by what is linked and not yet added, and ahead by what
is unlinked and not yet subtracted. From it follows under which conditions the limit means what it
says: `itemsLe_of_roomy` for the items that are let in, `refusedRightly_of_countable` for those that
are not.
-/

namespace DSFramework.DSRPC

/-- What a thread that posts stands before: the test, the tail section of `Push`, `fetch_add`. -/
inductive Poster (α : Type) where
  | outside
  | testing (dispatchItem : α)
  | linking (dispatchItem : α)
  | adding
  deriving DecidableEq, Repr

/-- A dispatcher with the threads that post to it. `unlinked` is the item that the dispatcher's
thread has taken and not yet subtracted. `refused` is history: how many items were linked or
unlinked and not yet subtracted, at the test of each `PostRequestToQueue` that returned false. -/
structure Dispatcher (α : Type) where
  requestQueue : ItemQueue α
  maxWaitedDispatch : Nat
  posters : List (Poster α)
  unlinked : Option α
  refused : List Nat
  deriving DecidableEq, Repr

/-- Who moves: a thread calls `PostRequestToQueue` or takes its next step in it, or the dispatcher's
thread takes its next step in `WaitPop`. -/
inductive DispatcherLabel (α : Type) where
  | post (thread : Nat) (dispatchItem : α)
  | next (thread : Nat)
  | waitPop
  deriving DecidableEq, Repr

namespace Dispatcher

variable {α : Type} {d d' : Dispatcher α}

/-- A dispatcher that `n` threads will post to. -/
def new (n maxWaitedDispatch : Nat) : Dispatcher α :=
  { requestQueue := ⟨[], 0⟩
    maxWaitedDispatch := maxWaitedDispatch
    posters := List.replicate n .outside
    unlinked := none
    refused := [] }

/-- Thread `t` moves on to `pc`. -/
def goto (d : Dispatcher α) (t : Nat) (pc : Poster α) : Dispatcher α :=
  { d with posters := d.posters.set t pc }

/-- The items linked, and the one unlinked and not yet subtracted. -/
def held (d : Dispatcher α) : Nat := d.requestQueue.items.length + d.unlinked.toList.length

/-- `PostRequestToQueue`, step by step. -/
def advance (d : Dispatcher α) (t : Nat) : Poster α → Option (Dispatcher α)
  | .testing dispatchItem =>
    if d.requestQueue.hasRoom d.maxWaitedDispatch then some (d.goto t (.linking dispatchItem))
    else some ({ d with refused := d.refused ++ [d.held] }.goto t .outside)
  | .linking dispatchItem =>
    some ({ d with requestQueue := d.requestQueue.link dispatchItem }.goto t .adding)
  | .adding => some ({ d with requestQueue := d.requestQueue.add }.goto t .outside)
  | .outside => none

/-- `WaitPop`, seen from outside: an item is taken when there is one, and then subtracted. -/
def waitPop (d : Dispatcher α) : Option (Dispatcher α) :=
  match d.unlinked with
  | some _ => some { d with requestQueue := d.requestQueue.sub, unlinked := none }
  | none => d.requestQueue.items.head?.map fun x =>
      { d with requestQueue := d.requestQueue.unlink, unlinked := some x }

/-- One step of the dispatcher and the threads that post to it. -/
def step (d : Dispatcher α) : DispatcherLabel α → Option (Dispatcher α)
  | .post t dispatchItem => match d.posters[t]? with
    | some .outside => some (d.goto t (.testing dispatchItem))
    | _ => none
  | .next t => (d.posters[t]?).bind (d.advance t)
  | .waitPop => d.waitPop

/-- The dispatcher as a machine, for any limit and any number of threads. -/
def machine (α : Type) : Transition.Machine (Dispatcher α) (DispatcherLabel α) where
  init d := ∃ n maxWaitedDispatch, d = new n maxWaitedDispatch
  step := step

/-- Every way a label can take one dispatcher to the next. -/
inductive Moves (d : Dispatcher α) : DispatcherLabel α → Dispatcher α → Prop where
  | post {t : Nat} {x : α} : d.posters[t]? = some .outside →
      Moves d (.post t x) (d.goto t (.testing x))
  | room {t : Nat} {x : α} : d.posters[t]? = some (.testing x) →
      d.requestQueue.hasRoom d.maxWaitedDispatch = true → Moves d (.next t) (d.goto t (.linking x))
  | refuse {t : Nat} {x : α} : d.posters[t]? = some (.testing x) →
      d.requestQueue.hasRoom d.maxWaitedDispatch = false →
      Moves d (.next t) ({ d with refused := d.refused ++ [d.held] }.goto t .outside)
  | link {t : Nat} {x : α} : d.posters[t]? = some (.linking x) →
      Moves d (.next t) ({ d with requestQueue := d.requestQueue.link x }.goto t .adding)
  | add {t : Nat} : d.posters[t]? = some .adding →
      Moves d (.next t) ({ d with requestQueue := d.requestQueue.add }.goto t .outside)
  | unlink {x : α} : d.unlinked = none → d.requestQueue.items.head? = some x →
      Moves d .waitPop { d with requestQueue := d.requestQueue.unlink, unlinked := some x }
  | subtract {x : α} : d.unlinked = some x →
      Moves d .waitPop { d with requestQueue := d.requestQueue.sub, unlinked := none }

theorem moves_of_step {l : DispatcherLabel α} (h : d.step l = some d') : Moves d l d' := by
  cases l with
  | post t x =>
    simp only [step] at h
    split at h
    case h_1 hat => cases h; exact .post hat
    case h_2 => cases h
  | next t =>
    obtain ⟨pc, hat, hadvance⟩ := Option.bind_eq_some_iff.mp h
    cases pc with
    | outside => cases hadvance
    | testing x =>
      simp only [advance] at hadvance
      split at hadvance
      case isTrue hroom => cases hadvance; exact .room hat hroom
      case isFalse hroom => cases hadvance; exact .refuse hat (Bool.eq_false_iff.mpr hroom)
    | linking x => cases hadvance; exact .link hat
    | adding => cases hadvance; exact .add hat
  | waitPop =>
    simp only [step, waitPop] at h
    split at h
    case h_1 x hunlinked => cases h; exact .subtract hunlinked
    case h_2 hunlinked =>
      obtain ⟨x, hhead, rfl⟩ := Option.map_eq_some_iff.mp h
      exact .unlink hunlinked hhead

/-! ## The account of the counter -/

/-- Has the thread found room and not yet linked its item? -/
def admitted : Poster α → Bool
  | .linking _ => true
  | _ => false

/-- Has the thread linked its item and not yet added one? -/
def lagging : Poster α → Bool
  | .adding => true
  | _ => false

/-- THE ACCOUNT: `m_count`, with what is linked and not yet added, is what is held. -/
def Counted (d : Dispatcher α) : Prop :=
  d.requestQueue.count + d.posters.countP lagging = d.held

/-- A thread that moves between places that are not after its linking changes no account. -/
theorem Counted.goto (h : d.Counted) {t : Nat} {pc pc' : Poster α} (hat : d.posters[t]? = some pc)
    (hsame : lagging pc' = lagging pc) : (d.goto t pc').Counted := by
  have hcount := Threads.countP_set lagging hat pc'
  rw [hsame] at hcount
  simp only [Counted, Dispatcher.goto, held] at h ⊢
  omega

/-- One step keeps the account. -/
theorem Counted.step {l : DispatcherLabel α} (h : d.Counted) (hstep : Moves d l d') :
    d'.Counted := by
  cases hstep with
  | post hat | room hat | refuse hat => exact Counted.goto h hat rfl
  | link hat =>
    have hcount := Threads.countP_set lagging hat .adding
    simp only [lagging, Bool.toNat_true, Bool.toNat_false] at hcount
    simp only [Counted, Dispatcher.goto, held, ItemQueue.link, List.length_append,
      List.length_singleton] at h ⊢
    omega
  | add hat =>
    have hcount := Threads.countP_set lagging hat .outside
    simp only [lagging, Bool.toNat_true, Bool.toNat_false] at hcount
    simp only [Counted, Dispatcher.goto, held, ItemQueue.add] at h ⊢
    omega
  | unlink hnone hhead =>
    obtain ⟨rest, hitems⟩ := List.head?_eq_some_iff.mp hhead
    simp only [Counted, held, ItemQueue.unlink, hnone, hitems, List.tail_cons, List.length_cons,
      Option.toList_none, Option.toList_some, List.length_nil] at h ⊢
    omega
  | subtract hsome =>
    simp only [Counted, held, ItemQueue.sub, hsome, Option.toList_none, Option.toList_some,
      List.length_cons, List.length_nil] at h ⊢
    omega

theorem counted_of_reachable {ok : Dispatcher α → DispatcherLabel α → Prop}
    (h : (machine α).ReachableBy ok d) : d.Counted := by
  refine h.invariant ?_ fun _ _ _ hc _ hstep => hc.step (moves_of_step hstep)
  rintro _ ⟨n, maxWaitedDispatch, rfl⟩
  have hnobody : (List.replicate n (.outside : Poster α)).countP lagging = 0 := by
    rw [List.countP_replicate]
    rfl
  simp only [Counted, new, hnobody, held]
  rfl

/-! ## What is let in -/

/-- A count that is not negative, and that an `int` can hold, is its own size. -/
theorem sizeT_of_nonneg {n : Int} (hpos : 0 ≤ n) (hmax : n ≤ Int32.maxValue.toInt) :
    ItemQueue.sizeT n = n.toNat := by
  obtain ⟨k, rfl⟩ := Int.eq_ofNat_of_zero_le hpos
  have hint : Int32.maxValue.toInt = 2147483647 := by decide
  rw [hint] at hmax
  have hmsb : (BitVec.ofNat 32 k).msb = false := by
    rw [BitVec.msb_eq_decide]
    simp only [BitVec.toNat_ofNat, decide_eq_false_iff_not]
    omega
  have hofInt : BitVec.ofInt 32 (k : Int) = BitVec.ofNat 32 k := BitVec.ofInt_natCast 32 k
  rw [ItemQueue.sizeT, hofInt, BitVec.signExtend_eq_setWidth_of_msb_false hmsb,
    BitVec.toNat_setWidth, BitVec.toNat_ofNat, Int.toNat_natCast]
  omega

/-- The condition on a step: a test that finds room finds fewer items linked, together with those
of the threads past their test, than the limit. -/
def roomy (d : Dispatcher α) : DispatcherLabel α → Bool
  | .next t => match d.posters[t]? with
    | some (.testing _) => !d.requestQueue.hasRoom d.maxWaitedDispatch ||
        decide (d.requestQueue.items.length + d.posters.countP admitted < d.maxWaitedDispatch)
    | _ => true
  | _ => true

/-- The items linked and those on their way are within the limit. -/
def Fits (d : Dispatcher α) : Prop :=
  d.requestQueue.items.length + d.posters.countP admitted ≤ d.maxWaitedDispatch

theorem fits_new (n maxWaitedDispatch : Nat) : (new n maxWaitedDispatch : Dispatcher α).Fits := by
  have hnobody : (List.replicate n (.outside : Poster α)).countP admitted = 0 := by
    rw [List.countP_replicate]
    rfl
  simp only [Fits, new, hnobody]
  exact Nat.zero_le _

/-- A thread that goes on without having found room takes none. -/
theorem Fits.goto (h : d.Fits) {t : Nat} {pc pc' : Poster α} (hat : d.posters[t]? = some pc)
    (hposters : d'.posters = d.posters.set t pc')
    (hmax : d'.maxWaitedDispatch = d.maxWaitedDispatch)
    (hitems : d'.requestQueue.items.length + (admitted pc').toNat ≤
      d.requestQueue.items.length + (admitted pc).toNat) : d'.Fits := by
  have hcount := Threads.countP_set admitted hat pc'
  simp only [Fits, hposters, hmax] at h ⊢
  omega

/-- One step that meets the condition keeps the limit. -/
theorem Fits.step {l : DispatcherLabel α} (h : d.Fits) (hroomy : d.roomy l = true)
    (hstep : Moves d l d') : d'.Fits := by
  cases hstep with
  | post hat | refuse hat | add hat => exact h.goto hat rfl rfl (Nat.le_refl _)
  | @room t x hat hroom =>
    have hcount := Threads.countP_set admitted hat (.linking x)
    simp only [admitted, Bool.toNat_true, Bool.toNat_false] at hcount
    simp only [roomy, hat, hroom, Bool.not_true, Bool.false_or, decide_eq_true_eq] at hroomy
    simp only [Fits, Dispatcher.goto]
    omega
  | link hat =>
    refine h.goto hat rfl rfl ?_
    simp only [Dispatcher.goto, ItemQueue.link, List.length_append, List.length_singleton, admitted,
      Bool.toNat_true, Bool.toNat_false, Nat.le_refl]
  | unlink =>
    simp only [Fits, ItemQueue.unlink, List.length_tail] at h ⊢
    omega
  | subtract => exact h

/-- In every run in which each test that finds room finds the items linked and on their way fewer
than the limit, for any limit and any number of threads, never are more items linked than that. -/
theorem itemsLe_of_roomy (h : (machine α).ReachableBy (fun d l => d.roomy l = true) d) :
    d.requestQueue.items.length ≤ d.maxWaitedDispatch := by
  have hfits : d.Fits :=
    h.invariant (fun _ ⟨n, maxWaitedDispatch, hd⟩ => hd ▸ fits_new n maxWaitedDispatch)
      fun _ _ _ hf hok hstep => hf.step hok (moves_of_step hstep)
  exact Nat.le_trans (Nat.le_add_right _ _) hfits

/-- Two threads post to a queue for two, one after the test of the other. -/
theorem itemsLe_of_roomy_two :
    ∃ d : Dispatcher Nat, (machine Nat).run (new 2 2)
        [.post 0 7, .next 0, .post 1 8, .next 1, .next 0, .next 1] = some d ∧
      d.requestQueue.items = [7, 8] ∧ d.requestQueue.items.length ≤ d.maxWaitedDispatch := by
  have hrun : (machine Nat).run (new 2 2)
      [.post 0 7, .next 0, .post 1 8, .next 1, .next 0, .next 1] = some _ := rfl
  refine ⟨_, hrun, rfl, itemsLe_of_roomy ?_⟩
  exact .run (fun _ _ hok => hok) (.start ⟨2, 2, rfl⟩) (by decide) hrun

/-- Where one thread posts, no other is on its way when it tests. -/
theorem roomy_of_one (hcounted : d.Counted) (hfits : d.Fits) (hone : d.posters.length = 1)
    (hmax : (d.maxWaitedDispatch : Int) < Int32.maxValue.toInt) (l : DispatcherLabel α) :
    d.roomy l = true := by
  cases l with
  | post | waitPop => rfl
  | next t =>
    rw [roomy]
    split
    case h_2 => rfl
    case h_1 x hat =>
      obtain ⟨pc, hposters⟩ := List.length_eq_one_iff.mp hone
      have hpc : pc = .testing x := by
        rw [hposters] at hat
        exact List.mem_singleton.mp (List.mem_of_getElem? hat) |>.symm
      rw [hpc] at hposters
      cases hroom : d.requestQueue.hasRoom d.maxWaitedDispatch with
      | false => rfl
      | true =>
        have hread : ItemQueue.sizeT d.requestQueue.count < d.maxWaitedDispatch := by
          simpa only [ItemQueue.hasRoom, decide_eq_true_eq] using hroom
        have hunlinked : d.unlinked.toList.length ≤ 1 := by cases d.unlinked <;> simp
        have hnone : d.posters.countP admitted = 0 ∧ d.posters.countP lagging = 0 := by
          rw [hposters]
          exact ⟨rfl, rfl⟩
        simp only [Counted, held, hnone.2] at hcounted
        simp only [Fits, hnone.1] at hfits
        rw [sizeT_of_nonneg (by omega) (by omega)] at hread
        simp only [hnone.1, Bool.not_true, Bool.false_or, decide_eq_true_eq]
        omega

/-- No step adds a thread or changes the limit. -/
theorem Moves.same {l : DispatcherLabel α} (h : Moves d l d') :
    d'.posters.length = d.posters.length ∧ d'.maxWaitedDispatch = d.maxWaitedDispatch := by
  cases h with
  | post | room | refuse | link | add => exact ⟨List.length_set, rfl⟩
  | unlink | subtract => exact ⟨rfl, rfl⟩

/-- With one thread that posts, and a limit below `INT_MAX`, the condition always holds: the limit
is kept in every reachable state. -/
theorem itemsLe_of_one (h : (machine α).Reachable d) (hone : d.posters.length = 1)
    (hmax : (d.maxWaitedDispatch : Int) < Int32.maxValue.toInt) :
    d.requestQueue.items.length ≤ d.maxWaitedDispatch := by
  have hfits : d.posters.length = 1 →
      (d.maxWaitedDispatch : Int) < Int32.maxValue.toInt → d.Fits := by
    refine h.invariant_with (I := fun d => d.posters.length = 1 →
      (d.maxWaitedDispatch : Int) < Int32.maxValue.toInt → d.Fits)
      (fun _ => counted_of_reachable) ?_ ?_
    · rintro _ ⟨n, maxWaitedDispatch, rfl⟩ _ _
      exact fits_new n maxWaitedDispatch
    · intro d l d' hcounted hfits _ hstep hone hmax
      have hmoves := moves_of_step hstep
      obtain ⟨hlength, hlimit⟩ := hmoves.same
      rw [hlength] at hone
      rw [hlimit] at hmax
      have hbefore := hfits hone hmax
      exact hbefore.step (roomy_of_one hcounted hbefore hone hmax l) hmoves
  exact Nat.le_trans (Nat.le_add_right _ _) (hfits hone hmax)

/-- Two threads test before either of them links: both find room for one. -/
theorem overfull_of_two_tests :
    ¬ ∀ d : Dispatcher Nat, (machine Nat).Reachable d →
      d.requestQueue.items.length ≤ d.maxWaitedDispatch := by
  intro h
  have hrun : (machine Nat).run (new 2 1)
      [.post 0 7, .next 0, .post 1 8, .next 1, .next 0, .next 1] = some _ := rfl
  exact absurd (h _ (.run (.start ⟨2, 1, rfl⟩) hrun)) (by decide)

/-- Where more items are linked and on their way than the limit, the threads past their tests can
link theirs before the dispatcher's thread takes any. -/
theorem overfull_of_admitted
    (h : d.maxWaitedDispatch < d.requestQueue.items.length + d.posters.countP admitted) :
    ∃ d', (machine α).Steps (fun _ _ => True) d d' ∧
      d'.maxWaitedDispatch < d'.requestQueue.items.length := by
  induction hn : d.posters.countP admitted generalizing d with
  | zero => exact ⟨d, .refl, by omega⟩
  | succ n ih =>
    have hpos : 0 < d.posters.countP admitted := by omega
    obtain ⟨pc, hmem, hadmitted⟩ := List.countP_pos_iff.mp hpos
    obtain ⟨t, hat⟩ := List.mem_iff_getElem?.mp hmem
    cases pc with
    | outside | testing | adding => cases hadmitted
    | linking x =>
      have hstep : d.step (.next t) =
          some ({ d with requestQueue := d.requestQueue.link x }.goto t .adding) := by
        simp only [step, hat, Option.bind_some, advance]
      have hcount := Threads.countP_set admitted hat .adding
      simp only [admitted, Bool.toNat_true, Bool.toNat_false] at hcount
      obtain ⟨d', hsteps, hover⟩ :=
        @ih ({ d with requestQueue := d.requestQueue.link x }.goto t .adding)
          (by simp only [goto, ItemQueue.link, List.length_append, List.length_singleton]; omega)
          (by simp only [goto]; omega)
      exact ⟨d', .head ⟨.next t, trivial, hstep⟩ hsteps, hover⟩

/-- The condition leaves out nothing else: a test that does not meet it can be followed by more
items in the queue than the limit. -/
theorem overfull_of_not_roomy {l : DispatcherLabel α} (hroomy : d.roomy l = false)
    (hstep : d.step l = some d') :
    ∃ d'', (machine α).Steps (fun _ _ => True) d' d'' ∧
      d''.maxWaitedDispatch < d''.requestQueue.items.length := by
  cases moves_of_step hstep with
  | post | unlink | subtract => cases hroomy
  | refuse hat hfull =>
    rw [roomy, hat] at hroomy
    simp only [hfull, Bool.not_false, Bool.true_or, Bool.true_eq_false] at hroomy
  | link hat | add hat =>
    rw [roomy, hat] at hroomy
    cases hroomy
  | @room t x hat hroom =>
    rw [roomy, hat] at hroomy
    simp only [hroom, Bool.not_true, Bool.false_or, decide_eq_false_iff_not] at hroomy
    have hcount := Threads.countP_set admitted hat (.linking x)
    simp only [admitted, Bool.toNat_true, Bool.toNat_false] at hcount
    refine overfull_of_admitted ?_
    simp only [goto]
    omega

/-! ## What is refused -/

/-- The condition on a step: a test that finds no room does not read a negative count, nor one that
an `int` cannot hold. -/
def countable (d : Dispatcher α) : DispatcherLabel α → Bool
  | .next t => match d.posters[t]? with
    | some (.testing _) => d.requestQueue.hasRoom d.maxWaitedDispatch ||
        decide (0 ≤ d.requestQueue.count ∧ d.requestQueue.count ≤ Int32.maxValue.toInt)
    | _ => true
  | _ => true

/-- No request was refused while fewer items were held than the limit. -/
def RefusedRightly (d : Dispatcher α) : Prop := ∀ n ∈ d.refused, d.maxWaitedDispatch ≤ n

/-- One step that meets the condition refuses no request without cause. -/
theorem RefusedRightly.step {l : DispatcherLabel α} (hcounted : d.Counted) (h : d.RefusedRightly)
    (hcountable : d.countable l = true) (hstep : Moves d l d') : d'.RefusedRightly := by
  cases hstep with
  | post | room | link | add | unlink | subtract => exact h
  | refuse hat hfull =>
    intro n hmem
    obtain hmem | hmem := List.mem_append.mp hmem
    · exact h n hmem
    · obtain rfl := List.mem_singleton.mp hmem
      simp only [countable, hat, hfull, Bool.false_or, decide_eq_true_eq] at hcountable
      have hread : d.maxWaitedDispatch ≤ ItemQueue.sizeT d.requestQueue.count := by
        simpa only [ItemQueue.hasRoom, decide_eq_false_iff_not, Nat.not_lt] using hfull
      rw [sizeT_of_nonneg hcountable.1 hcountable.2] at hread
      simp only [Counted] at hcounted
      show d.maxWaitedDispatch ≤ d.held
      omega

/-- In every run in which no request is refused on reading a negative count, or one that an `int`
cannot hold, for any limit and any number of threads: whenever a request was refused, as many items
as the limit were linked, or unlinked and not yet subtracted, when `m_count` was read. -/
theorem refusedRightly_of_countable
    (h : (machine α).ReachableBy (fun d l => d.countable l = true) d) :
    ∀ n ∈ d.refused, d.maxWaitedDispatch ≤ n := by
  refine h.invariant_with (I := RefusedRightly) (fun _ => counted_of_reachable) ?_
    fun _ _ _ hc hr hok hstep => hr.step hc hok (moves_of_step hstep)
  rintro _ ⟨n, maxWaitedDispatch, rfl⟩
  exact nofun

/-- The second request to a queue for one is refused with the first one in the queue. -/
theorem refusedRightly_of_countable_full :
    ∃ d : Dispatcher Nat, (machine Nat).run (new 2 1)
        [.post 0 7, .next 0, .next 0, .next 0, .post 1 8, .next 1] = some d ∧
      d.refused = [1] ∧ ∀ n ∈ d.refused, d.maxWaitedDispatch ≤ n := by
  have hrun : (machine Nat).run (new 2 1)
      [.post 0 7, .next 0, .next 0, .next 0, .post 1 8, .next 1] = some _ := rfl
  refine ⟨_, hrun, rfl, refusedRightly_of_countable ?_⟩
  exact .run (fun _ _ hok => hok) (.start ⟨2, 1, rfl⟩) (by decide) hrun

/-- The dispatcher's thread takes an item and subtracts before the thread that linked it adds:
`m_count` is -1, which as a `size_t` is above every limit, and the empty queue refuses. -/
theorem refused_of_negative_count :
    ¬ ∀ d : Dispatcher Nat, (machine Nat).Reachable d → 1 ≤ d.maxWaitedDispatch →
      ∀ n ∈ d.refused, d.maxWaitedDispatch ≤ n := by
  intro h
  have hrun : (machine Nat).run (new 2 1)
      [.post 0 7, .next 0, .next 0, .waitPop, .waitPop, .post 1 8, .next 1] = some _ := rfl
  exact absurd (h _ (.run (.start ⟨2, 1, rfl⟩) hrun) (by decide) 0 (by decide)) (by decide)

end Dispatcher

end DSFramework.DSRPC
