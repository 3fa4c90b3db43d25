import DSFramework.DSCommunication.ConcurrentQueue

/-!
# Wake-ups of the concurrent queue

`Push` links under `m_tailMutex` and notifies under no mutex, while `WaitPop` evaluates its
predicate and blocks under `m_headMutex`. A whole `Push` fits between a predicate that was false
and the block that follows it: its `notify_one` finds nobody, and the item waits for a later one.

`Heard` is what keeps an item from being slept on: as long as somebody sleeps or is about to,
every item has a `Push` that will still notify or a `WaitPop` that will still look. Every step
keeps it but one, the lost notification; `noticed` is the condition under which that one does.
-/

namespace DSFramework.DSCommunication

namespace ConcurrentQueue

variable {α : Type}

/-- Has the thread linked its node and not yet notified? -/
def announcing : QueueThread α → Bool
  | .adding | .notifying => true
  | _ => false

/-- Is the thread in `WaitPop` and will it evaluate the predicate, or has it found it true? -/
def looking : QueueThread α → Bool
  | .locking | .evaluating | .relocking | .popping => true
  | _ => false

/-- Does the thread stand between a false predicate and its block? -/
def dozing : QueueThread α → Bool
  | .blocking => true
  | _ => false

/-- Is the thread blocked, or about to block with the predicate evaluated to false? -/
def sleeping : QueueThread α → Bool
  | .blocking | .blocked => true
  | _ => false

/-- Is the thread inside `WaitPop`? -/
def insideWaitPop : QueueThread α → Bool
  | .locking | .evaluating | .blocking | .blocked | .relocking | .popping | .subtracting _ => true
  | _ => false

/-- Work is slept on: the queue has an item, some thread is inside `WaitPop` and all of these
are blocked, and no `Push` stands between its linking and its `notify_one`. -/
def Stalled (q : ConcurrentQueue α) : Prop :=
  q.ready = true ∧ (∃ pc ∈ q.threads, insideWaitPop pc = true) ∧
    (∀ pc ∈ q.threads, insideWaitPop pc = true → pc = .blocked) ∧
    ∀ pc ∈ q.threads, announcing pc = false

instance [DecidableEq α] (q : ConcurrentQueue α) : Decidable q.Stalled :=
  inferInstanceAs (Decidable (_ ∧ _ ∧ _ ∧ _))

/-- The pushes that will still notify and the pops that will still look. -/
def noticing (q : ConcurrentQueue α) : Nat :=
  q.threads.countP announcing + q.threads.countP looking

/-- The condition on a step: a `notify_one` that finds nobody blocked while some thread stands
between a false predicate and its block must not be the last hope of an item. -/
def noticed (q : ConcurrentQueue α) : QueueLabel α → Bool
  | .notifyOne _ none => !q.threads.any dozing || decide (q.linkedItems < q.noticing)
  | _ => true

/-- While anybody sleeps or is about to, every item will still be noticed. -/
def Heard (q : ConcurrentQueue α) : Prop :=
  0 < q.threads.countP sleeping → q.linkedItems ≤ q.noticing

theorem heard_new (n : Nat) (count : Int) : (new n count : ConcurrentQueue α).Heard := by
  intro _
  exact Nat.zero_le _

/-- How the counts change when one thread moves. -/
theorem noticing_move {q q' : ConcurrentQueue α} {t : Nat} {x y : QueueThread α}
    (hat : q.threads[t]? = some x) (hthreads : q'.threads = q.threads.set t y) :
    q'.noticing + ((announcing x).toNat + (looking x).toNat) =
      q.noticing + ((announcing y).toNat + (looking y).toNat) := by
  have hannouncing := Threads.countP_set announcing hat y
  have hlooking := Threads.countP_set looking hat y
  simp only [noticing, hthreads]
  omega

theorem sleeping_move {q q' : ConcurrentQueue α} {t : Nat} {x y : QueueThread α}
    (hat : q.threads[t]? = some x) (hthreads : q'.threads = q.threads.set t y) :
    q'.threads.countP sleeping + (sleeping x).toNat =
      q.threads.countP sleeping + (sleeping y).toNat :=
  hthreads ▸ Threads.countP_set sleeping hat y

/-- A move that puts nobody to sleep, and that gains at least as much attention as items. -/
theorem Heard.move {q q' : ConcurrentQueue α} {t : Nat} {x y : QueueThread α} (h : q.Heard)
    (hat : q.threads[t]? = some x) (hthreads : q'.threads = q.threads.set t y)
    (hsleep : (sleeping y).toNat ≤ (sleeping x).toNat)
    (hitems : q'.linkedItems + ((announcing x).toNat + (looking x).toNat) ≤
      q.linkedItems + ((announcing y).toNat + (looking y).toNat)) : q'.Heard := by
  intro hpos
  have hsleeping := sleeping_move hat hthreads
  have hnoticing := noticing_move hat hthreads
  have := h (by omega)
  omega

/-- Waking a blocked thread passes the attention of the push on to it. -/
theorem Heard.wake {q : ConcurrentQueue α} {t woken : Nat} (h : q.Heard)
    (hat : q.threads[t]? = some .notifying)
    (hwoken : (q.goto t .outside).threads[woken]? = some .blocked) :
    ((q.goto t .outside).goto woken .relocking).Heard := by
  intro hpos
  have hsleeping := @sleeping_move _ q (q.goto t .outside) _ _ _ hat rfl
  have hnoticing := @noticing_move _ q (q.goto t .outside) _ _ _ hat rfl
  have hsleeping' :=
    @sleeping_move _ _ ((q.goto t .outside).goto woken .relocking) _ _ _ hwoken rfl
  have hnoticing' :=
    @noticing_move _ _ ((q.goto t .outside).goto woken .relocking) _ _ _ hwoken rfl
  simp only [sleeping, announcing, looking, Bool.toNat_true, Bool.toNat_false] at *
  have := h (by omega)
  have hitems : ((q.goto t .outside).goto woken .relocking).linkedItems = q.linkedItems := rfl
  omega

/-- Where nobody is blocked, whoever sleeps stands between the predicate and the block. -/
theorem dozing_of_sleeping {q : ConcurrentQueue α} (hwaited : q.waited = false)
    (hpos : 0 < q.threads.countP sleeping) : q.threads.any dozing = true := by
  obtain ⟨pc, hmem, hpc⟩ := List.countP_pos_iff.mp hpos
  refine List.any_eq_true.mpr ⟨pc, hmem, ?_⟩
  have hblocked := List.any_eq_false.mp hwaited pc hmem
  cases pc with
  | blocking => rfl
  | blocked => exact absurd rfl hblocked
  | _ => cases hpc

/-- A lost notification. -/
theorem Heard.lose {q : ConcurrentQueue α} {t : Nat}
    (hat : q.threads[t]? = some .notifying) (hwaited : (q.goto t .outside).waited = false)
    (hok : q.noticed (.notifyOne t none) = true) : (q.goto t .outside).Heard := by
  intro hpos
  have hdozing := dozing_of_sleeping hwaited hpos
  have hdozing' : q.threads.any dozing = true := by
    obtain ⟨pc, hmem, hpc⟩ := List.any_eq_true.mp hdozing
    obtain ⟨i, hi⟩ := List.mem_iff_getElem?.mp hmem
    obtain ⟨-, rfl⟩ | ⟨-, hi⟩ := Threads.at_set hi
    · cases hpc
    · exact List.any_eq_true.mpr ⟨pc, List.mem_of_getElem? hi, hpc⟩
  have hnoticing := @noticing_move _ q (q.goto t .outside) _ _ _ hat rfl
  have hitems : (q.goto t .outside).linkedItems = q.linkedItems := rfl
  simp only [noticed, hdozing', Bool.not_true, Bool.false_or, decide_eq_true_eq] at hok
  simp only [announcing, looking, Bool.toNat_true, Bool.toNat_false] at hnoticing
  omega

/-- One step that meets the condition keeps every item heard. -/
theorem Heard.step {q q' : ConcurrentQueue α} {l : QueueLabel α} (hs : q.Sound) (h : q.Heard)
    (hok : q.noticed l = true) (hstep : Moves q l q') : q'.Heard := by
  cases hstep with
  | push hat | subtract hat | add hat | found hat | block hat =>
    exact h.move hat rfl (Nat.le_refl _) (Nat.le_refl _)
  | waitPop hat => exact h.move hat rfl (Nat.le_refl _) (Nat.le_succ _)
  | wakeUp hat => exact h.move hat rfl (Nat.zero_le _) (Nat.le_succ _)
  | link hat =>
    exact h.move hat rfl (Nat.le_refl _) (Nat.le_of_eq (hs.linked.linkedItems_link _))
  | lock hat hpc =>
    obtain rfl | rfl := hpc
    · exact h.move hat rfl (Nat.le_refl _) (Nat.le_refl _)
    · exact h.move hat rfl (Nat.le_refl _) (Nat.le_refl _)
  | empty hat hready =>
    -- the predicate was false: there is no item to sleep on
    intro _
    have hnone : ¬ 0 < q.linkedItems := fun hpos =>
      absurd (hs.linked.ready_iff.mpr hpos) (by rw [hready]; exact Bool.false_ne_true)
    have hzero : q.linkedItems = 0 := Nat.eq_zero_of_not_pos hnone
    exact Nat.le_trans (Nat.le_of_eq hzero) (Nat.zero_le _)
  | popHead hat hpop =>
    have hitems := hs.linked.linkedItems_pop (hs.found _ hat) hpop
    obtain ⟨x, -, rfl⟩ := hs.linked.popHead (hs.found _ hat) hpop
    exact h.move hat rfl (Nat.le_refl _) (Nat.le_of_eq hitems.symm)
  | wake hat hwoken => exact h.wake hat hwoken
  | lose hat hwaited => exact Heard.lose hat hwaited hok

theorem heard_of_reachable {q : ConcurrentQueue α}
    (h : (machine α).ReachableBy (fun q l => q.noticed l = true) q) : q.Heard :=
  h.invariant_with (fun _ => sound_of_reachable) (fun _ ⟨n, count, hq⟩ => hq ▸ heard_new n count)
    fun _ _ _ hs hh hok hstep => hh.step hs hok (moves_of_step hstep)

/-- In every run whose lost notifications are not the last hope of an item, for any number of
threads, the queue never sleeps on work. -/
theorem not_stalled {q : ConcurrentQueue α}
    (h : (machine α).ReachableBy (fun q l => q.noticed l = true) q) : ¬ q.Stalled := by
  intro ⟨hready, ⟨pc, hmem, hinside⟩, hblocked, hannouncing⟩
  have hitems := (sound_of_reachable h).linked.ready_iff.mp hready
  have hsleeping : 0 < q.threads.countP sleeping :=
    List.countP_pos_iff.mpr ⟨pc, hmem, by rw [hblocked pc hmem hinside]; rfl⟩
  have hnobody : q.noticing = 0 := by
    have hlooking : q.threads.countP looking = 0 := by
      apply List.countP_eq_zero.mpr
      intro pc hmem hlook
      have hpc : insideWaitPop pc = true := by
        cases pc with
        | locking | evaluating | relocking | popping => rfl
        | _ => cases hlook
      rw [hblocked pc hmem hpc] at hlook
      cases hlook
    have hpending : q.threads.countP announcing = 0 :=
      List.countP_eq_zero.mpr fun pc hmem => by simp only [hannouncing pc hmem,
        Bool.false_eq_true, not_false_eq_true]
    rw [noticing, hlooking, hpending]
  have := heard_of_reachable h hsleeping
  omega

/-- A run with a lost notification that is nobody's last hope: thread 0 dozes off while thread 2
is already on its way to the mutex. -/
theorem not_stalled_second_popper :
    ∃ q : ConcurrentQueue Nat, (machine Nat).run (new 3 0)
        [.waitPop 0, .next 0, .next 0, .waitPop 2, .push 1 7, .next 1, .next 1, .notifyOne 1 none,
          .next 0] = some q ∧ q.ready = true ∧ ¬ q.Stalled := by
  have hrun : (machine Nat).run (new 3 0)
      [.waitPop 0, .next 0, .next 0, .waitPop 2, .push 1 7, .next 1, .next 1, .notifyOne 1 none,
        .next 0] = some _ := rfl
  refine ⟨_, hrun, rfl, not_stalled ?_⟩
  exact .run (fun _ _ hok => hok) (.start ⟨3, 0, rfl⟩) (by decide) hrun

/-- The lost wake-up: a whole `Push` between the predicate and the block of the only `WaitPop`.
The item stays, the thread sleeps, and nobody is left to notify it. -/
theorem stalled_of_push_before_block :
    ¬ ∀ q : ConcurrentQueue Nat, (machine Nat).Reachable q → ¬ q.Stalled := by
  intro h
  have hrun : (machine Nat).run (new 2 0)
      [.waitPop 0, .next 0, .next 0, .push 1 7, .next 1, .next 1, .notifyOne 1 none, .next 0] =
        some _ := rfl
  exact h _ (.run (.start ⟨2, 0, rfl⟩) hrun) (by decide)

end ConcurrentQueue

end DSFramework.DSCommunication
