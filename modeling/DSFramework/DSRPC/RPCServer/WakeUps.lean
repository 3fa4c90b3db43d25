import DSFramework.Lib.Beside
import DSFramework.DSRPC.RPCServer.Counts
import DSFramework.DSRPC.RPCServer.Progress

/-!
# The dispatchers' wake-ups

`RPCServer` says what a dispatcher's thread takes, not when it is awake to take it. Between two
items it is in `WaitPop`, where it evaluates its predicate, blocks, and is woken by the `notify_one`
at the end of a `Push`, or by itself. `Waits` puts this beside the server, for both dispatchers: a
thread that has added goes on when it has notified, and a dispatcher takes only when it looks.

`Heard` is the invariant that the queue alone has, `ConcurrentQueue.Heard`: while a dispatcher does
not look, every item has a `Push` that is still to notify. `noticed` is the condition of the queue
alone, too: a `Push` whose notification falls between the predicate and the block is not the last
hope of an item.

The pool needs nothing of the kind, since `Commit` pushes under the mutex that the workers wait with.
-/

namespace DSFramework.DSRPC

/-- Where a dispatcher's thread is with `WaitPop`: it will evaluate the predicate or is at work, it
has found the predicate false, it is blocked. -/
inductive Watch where
  | looking
  | dozing
  | blocked
  deriving DecidableEq, Repr

/-- The watch of each dispatcher, and the threads that stand before the `notify_one` of a `Push`. -/
structure Waits where
  watch : Line → Watch
  notifying : List (Nat × Line)

/-- What may happen to them between the steps of the server. -/
inductive WaitLabel where
  /-- A dispatcher's thread evaluates its predicate, which is false. -/
  | doze (line : Line)
  /-- It blocks. -/
  | block (line : Line)
  /-- A thread calls `notify_one`. -/
  | notify (thread : Nat) (line : Line)
  /-- A dispatcher's thread wakes up by itself. -/
  | wakeUp (line : Line)
  deriving DecidableEq, Repr

/-- The thread that a step of the server is of, if it is not the response dispatcher's. -/
def RPCLabel.thread : RPCLabel → Option Nat
  | .deliver t _ | .take t | .advance t _ => some t
  | .takeResponse | .subtractResponse | .sendResponse | .completeWrite _ _ _ => none

/-- Is it a wake-up without a notification? -/
def WaitLabel.spurious : WaitLabel → Bool
  | .wakeUp _ => true
  | .doze _ | .block _ | .notify _ _ => false

/-- How many steps there are until a dispatcher's thread is blocked. -/
def Watch.left : Watch → Nat
  | .looking => 2
  | .dozing => 1
  | .blocked => 0

namespace RPCServer

/-- The queue that a dispatcher's thread takes from in a step. -/
def takes (v : RPCServer) : RPCLabel → Option Line
  | .take t => match v.threads[t]? with
    | some ⟨.requestDispatcher, _⟩ => some .requests
    | _ => none
  | .takeResponse => some .responses
  | _ => none

/-- The thread that adds to a queue in a step. -/
def added (v : RPCServer) : RPCLabel → Option (Nat × Line)
  | .advance t _ => match v.threads[t]? with
    | some ⟨_, _, _, .requestAdd :: _⟩ => some (t, .requests)
    | some ⟨_, _, _, .responseAdd :: _⟩ => some (t, .responses)
    | _ => none
  | _ => none

end RPCServer

namespace Waits

/-- Both dispatchers have been started. -/
def start : Waits := ⟨fun _ => .looking, []⟩

def setWatch (w : Waits) (line : Line) (watch : Watch) : Waits :=
  { w with watch := fun line' => if line' = line then watch else w.watch line' }

/-- Does the thread stand before `notify_one`? -/
def busy (w : Waits) (t : Nat) : Bool := w.notifying.any fun x => x.1 == t

/-- In a step of the server a thread that has to notify does not go on, and a dispatcher that does
not look does not take. Whoever adds has to notify. -/
def follow (v : RPCServer) (l : RPCLabel) (w : Waits) : Option Waits :=
  if l.thread.any w.busy || (v.takes l).any (fun line => w.watch line != .looking) then none
  else some { w with notifying := w.notifying ++ (v.added l).toList }

/-- Is the dispatcher's thread in `WaitPop`? The request dispatcher's is the first thread. -/
def idle (v : RPCServer) (w : Waits) : Line → Bool
  | .requests => (v.threads[0]?).any (fun th => th.call.ops.isEmpty) && !w.busy 0
  | .responses => v.sending.isNone

/-- A step of a dispatcher in `WaitPop`, or a notification, which wakes whoever is blocked and is
lost otherwise. -/
def tick (v : RPCServer) (k : WaitLabel) (w : Waits) : Option Waits :=
  if v.terminated then none
  else match k with
    | .doze line =>
      if w.watch line = .looking ∧ idle v w line = true ∧ (v.queue line).items = [] then
        some (w.setWatch line .dozing)
      else none
    | .block line => if w.watch line = .dozing then some (w.setWatch line .blocked) else none
    | .notify t line =>
      if (t, line) ∈ w.notifying then
        let w' := { w with notifying := w.notifying.erase (t, line) }
        some (if w.watch line = .blocked then w'.setWatch line .looking else w')
      else none
    | .wakeUp line => if w.watch line = .blocked then some (w.setWatch line .looking) else none

/-- The pushes to a queue that have linked and are still to notify. -/
def announcing (v : RPCServer) (w : Waits) (line : Line) : Nat :=
  v.lagging line + w.notifying.countP fun x => x.2 == line

/-- The condition on a step: a notification that falls between a dispatcher's predicate and its
block is not the last hope of an item. -/
def noticed (v : RPCServer) (w : Waits) : WaitLabel → Bool
  | .notify _ line => w.watch line != .dozing ||
      decide ((v.queue line).items.length < announcing v w line)
  | _ => true

/-- While a dispatcher does not look, every item of its queue will still be announced. -/
def Heard (v : RPCServer) (w : Waits) : Prop :=
  ∀ line, w.watch line ≠ .looking → (v.queue line).items.length ≤ announcing v w line

theorem heard_start (v : RPCServer) : Heard v start := fun _ hwatch => absurd rfl hwatch

end Waits

namespace RPCServer

variable {C : Setting} {v v' : RPCServer} {l : RPCLabel} {w w' : Waits} {k : WaitLabel}

/-- What a thread adds in a step. -/
theorem added_advance {t s a : Nat} {role : Role} {op : RPCOp} {rest : List RPCOp}
    {answer : Answer} (hat : v.threads[t]? = some ⟨role, s, a, op :: rest⟩) (line : Line) :
    (v.added (.advance t answer)).toList.countP (fun x => x.2 == line) =
      (line.adds op).toNat := by
  simp only [added, hat]
  cases op <;> cases line <;> rfl

/-- No step makes an item that nobody has still to announce. -/
theorem Moves.announced (hmoves : Moves C v l v') {line : Line} (hcounted : v.Counted line) :
    (v'.queue line).items.length + v.lagging line ≤ (v.queue line).items.length +
      v'.lagging line + (v.added l).toList.countP fun x => x.2 == line := by
  have hstays : v'.threads = v.threads → (v'.queue line).items.length ≤
      (v.queue line).items.length → (v'.queue line).items.length + v.lagging line ≤
        (v.queue line).items.length + v'.lagging line +
          (v.added l).toList.countP fun x => x.2 == line := by
    intro hthreads hitems
    simp only [lagging, hthreads]
    omega
  have hstarts : ∀ {t : Nat} {th th' : RPCThread}, v.threads[t]? = some th → th.call.ops = [] →
      v'.threads = v.threads.set t th' → (v'.queue line).items.length ≤
        (v.queue line).items.length → (v'.queue line).items.length + v.lagging line ≤
          (v.queue line).items.length + v'.lagging line +
            (v.added l).toList.countP fun x => x.2 == line := by
    intro t th th' hat hops hthreads hitems
    have hlagging := lagging_goto hat hthreads line
    have hnone : line.lagging th.call.ops = 0 := by rw [hops]; rfl
    omega
  cases hmoves with
  | deliver hat => exact hstarts hat rfl rfl (by cases line <;> exact Nat.le_refl _)
  | takeRequest hat hitems =>
    refine hstarts hat rfl rfl ?_
    cases line with
    | requests => exact Nat.le_trans (Nat.le_of_eq List.length_tail) (Nat.sub_le _ _)
    | responses => exact Nat.le_refl _
  | takeTask hat => exact hstarts hat rfl rfl (by cases line <;> exact Nat.le_refl _)
  | @advance t s a role op rest ops answer v₁ hat hexecutes =>
    obtain ⟨-, hpaired, -⟩ := hexecutes.program line
    obtain ⟨hitems, -⟩ := hexecutes.queue line
    have hcons := (hcounted.covered _ (List.mem_of_getElem? hat)).lagging_cons
    have hthreads : (v₁.goto t ⟨role, s, a, ops ++ rest⟩).threads =
        v.threads.set t ⟨role, s, a, ops ++ rest⟩ := by simp only [goto, hexecutes.threads]
    have hlagging := lagging_goto hat hthreads line
    have hqueue : (v₁.goto t ⟨role, s, a, ops ++ rest⟩).queue line = v₁.queue line := by
      cases line <;> rfl
    rw [added_advance hat, hqueue]
    simp only [Line.lagging_append hpaired] at hlagging
    omega
  | takeResponse hsending hitems =>
    refine hstays rfl ?_
    cases line with
    | requests => exact Nat.le_refl _
    | responses => exact Nat.le_trans (Nat.le_of_eq List.length_tail) (Nat.sub_le _ _)
  | subtractResponse => exact hstays rfl (by cases line <;> exact Nat.le_refl _)
  | @sendResponse s r =>
    obtain ⟨-, hthreads, -⟩ := send_frame C v s r
    refine hstays hthreads ?_
    unfold send
    split <;> cases line <;> exact Nat.le_refl _
  | completeWrite => exact hstays rfl (by cases line <;> exact Nat.le_refl _)

end RPCServer

namespace Waits

open RPCServer (Moves takes)
open Transition.Machine (countP_cons_toNat)

variable {C : Setting} {v v' : RPCServer} {l : RPCLabel} {w w' : Waits} {k : WaitLabel}

theorem setWatch_self (w : Waits) (line : Line) (watch : Watch) :
    (w.setWatch line watch).watch line = watch := if_pos rfl

theorem setWatch_of_ne (w : Waits) {line line' : Line} (h : line' ≠ line) (watch : Watch) :
    (w.setWatch line watch).watch line' = w.watch line' := if_neg h

/-- What a step of the server is allowed to do, and what becomes of the waits. -/
theorem of_follow (h : follow v l w = some w') :
    (∀ line, v.takes l = some line → w.watch line = .looking) ∧
      w' = { w with notifying := w.notifying ++ (v.added l).toList } := by
  unfold follow at h
  split at h
  case isTrue => cases h
  case isFalse hallowed =>
    rw [Bool.or_eq_true, not_or] at hallowed
    refine ⟨fun line htakes => ?_, (Option.some.inj h).symm⟩
    simpa only [htakes, Option.any_some, bne_iff_ne, ne_eq, Classical.not_not] using hallowed.2

/-- A completion of a write makes no difference. -/
theorem follow_completeWrite {s position : Nat} {success : Bool} :
    follow v (.completeWrite s position success) w = some w :=
  congrArg some (congrArg (Waits.mk w.watch) (List.append_nil w.notifying))

/-- A step of the server leaves every item to somebody. -/
theorem Heard.follow (h : Heard v w) (hcounted : ∀ line, v.Counted line) (hmoves : Moves C v l v')
    (hfollow : follow v l w = some w') : Heard v' w' := by
  obtain ⟨-, rfl⟩ := of_follow hfollow
  intro line hwatch
  have hbefore := h line hwatch
  have hannounced := hmoves.announced (hcounted line)
  simp only [announcing, List.countP_append] at hbefore ⊢
  omega

/-- Where a watch is set, only the items of its line are to be looked at. -/
theorem heard_setWatch {line : Line} {watch : Watch}
    (helsewhere : ∀ line', line' ≠ line → w.watch line' ≠ .looking →
      (v.queue line').items.length ≤ announcing v w line')
    (hline : watch ≠ .looking → (v.queue line).items.length ≤ announcing v w line) :
    Heard v (w.setWatch line watch) := by
  intro line' hwatch
  by_cases heq : line' = line
  · subst heq
    rw [setWatch_self] at hwatch
    exact hline hwatch
  · rw [setWatch_of_ne w heq] at hwatch
    exact helsewhere line' heq hwatch

/-- So does a step of a dispatcher's, and a notification where it is noticed. -/
theorem Heard.tick (h : Heard v w) (hok : noticed v w k = true)
    (htick : tick v k w = some w') : Heard v w' := by
  unfold Waits.tick at htick
  split at htick
  case isTrue => cases htick
  case isFalse =>
    cases k with
    | doze line =>
      simp only [Option.ite_none_right_eq_some, Option.some.injEq] at htick
      obtain ⟨⟨-, -, hitems⟩, rfl⟩ := htick
      refine heard_setWatch (fun line' _ => h line') fun _ => ?_
      rw [hitems]
      exact Nat.zero_le _
    | block line =>
      simp only [Option.ite_none_right_eq_some, Option.some.injEq] at htick
      obtain ⟨hdozing, rfl⟩ := htick
      exact heard_setWatch (fun line' _ => h line') fun _ => h line (by rw [hdozing]; exact nofun)
    | wakeUp line =>
      simp only [Option.ite_none_right_eq_some, Option.some.injEq] at htick
      obtain ⟨-, rfl⟩ := htick
      exact heard_setWatch (fun line' _ => h line') fun hwatch => absurd rfl hwatch
    | notify t line =>
      simp only [Option.ite_none_right_eq_some, Option.some.injEq] at htick
      obtain ⟨hmem, rfl⟩ := htick
      have hcount : ∀ line', w.notifying.countP (fun x => x.2 == line') =
          (w.notifying.erase (t, line)).countP (fun x => x.2 == line') +
            if line == line' then 1 else 0 := fun line' =>
        ((List.perm_cons_erase hmem).countP_eq _).trans List.countP_cons
      -- who is announced to elsewhere still is
      have helsewhere : ∀ line', line' ≠ line → w.watch line' ≠ .looking →
          (v.queue line').items.length ≤ v.lagging line' +
            (w.notifying.erase (t, line)).countP fun x => x.2 == line' := by
        intro line' hne hwatch
        have hbefore := h line' hwatch
        have hother : (line == line') = false := beq_false_of_ne hne.symm
        simpa only [announcing, hcount line', hother, Bool.false_eq_true, if_false, Nat.add_zero]
          using hbefore
      by_cases hblocked : w.watch line = .blocked
      · rw [if_pos hblocked]
        exact heard_setWatch helsewhere fun hwatch => absurd rfl hwatch
      · rw [if_neg hblocked]
        intro line' hwatch
        by_cases heq : line' = line
        · subst heq
          have hdozing : w.watch line' = .dozing := by
            cases hw : w.watch line' with
            | looking => exact absurd hw hwatch
            | dozing => rfl
            | blocked => exact absurd hw hblocked
          have hcounted := hcount line'
          have hless : (v.queue line').items.length < announcing v w line' := by
            simpa only [noticed, hdozing, bne_self_eq_false, Bool.false_or,
              decide_eq_true_eq] using hok
          simp only [BEq.rfl, if_true] at hcounted
          simp only [announcing] at hless ⊢
          omega
        · exact helsewhere line' heq hwatch

/-! ## What the waits take -/

/-- How many steps the waits can take before the server goes on; a notification may wake somebody
up, who falls asleep again. -/
def stepsLeft (w : Waits) : Nat :=
  3 * w.notifying.length + ((w.watch .requests).left + (w.watch .responses).left)

theorem setWatch_stepsLeft (w : Waits) (line : Line) (watch : Watch) :
    (w.setWatch line watch).stepsLeft + (w.watch line).left = w.stepsLeft + watch.left := by
  cases line <;> simp only [stepsLeft, setWatch, reduceCtorEq, if_true, if_false] <;> omega

/-- Only one of the server's own steps can add to them. -/
theorem follow_pay (h : Waits.follow v l w = some w') :
    w'.stepsLeft ≤ w.stepsLeft + 3 * (RPCServer.own l).toNat := by
  obtain ⟨-, rfl⟩ := of_follow h
  have hadded : (v.added l).toList.length ≤ (RPCServer.own l).toNat := by
    cases l with
    | advance t answer => exact Option.length_toList_le
    | _ => exact Nat.zero_le _
  simp only [stepsLeft, List.length_append]
  omega

/-- Every step of a wait takes one of them, but for a wake-up without a notification. -/
theorem tick_pay (h : Waits.tick v k w = some w') :
    w'.stepsLeft + (!k.spurious).toNat ≤ w.stepsLeft + 2 * k.spurious.toNat := by
  unfold Waits.tick at h
  split at h
  case isTrue => cases h
  case isFalse =>
    cases k with
    | doze line =>
      simp only [Option.ite_none_right_eq_some, Option.some.injEq] at h
      obtain ⟨⟨hwatch, -⟩, rfl⟩ := h
      have hleft := w.setWatch_stepsLeft line .dozing
      simp only [hwatch, Watch.left, WaitLabel.spurious, Bool.not_false, Bool.toNat_true,
        Bool.toNat_false] at hleft ⊢
      omega
    | block line =>
      simp only [Option.ite_none_right_eq_some, Option.some.injEq] at h
      obtain ⟨hwatch, rfl⟩ := h
      have hleft := w.setWatch_stepsLeft line .blocked
      simp only [hwatch, Watch.left, WaitLabel.spurious, Bool.not_false, Bool.toNat_true,
        Bool.toNat_false] at hleft ⊢
      omega
    | wakeUp line =>
      simp only [Option.ite_none_right_eq_some, Option.some.injEq] at h
      obtain ⟨hwatch, rfl⟩ := h
      have hleft := w.setWatch_stepsLeft line .looking
      simp only [hwatch, Watch.left, WaitLabel.spurious, Bool.not_true, Bool.toNat_true,
        Bool.toNat_false] at hleft ⊢
      omega
    | notify t line =>
      simp only [Option.ite_none_right_eq_some, Option.some.injEq] at h
      obtain ⟨hmem, rfl⟩ := h
      have hlength := List.length_erase_of_mem hmem
      have hpos := List.length_pos_of_mem hmem
      have herased : stepsLeft { w with notifying := w.notifying.erase (t, line) } + 3 =
          w.stepsLeft := by
        simp only [stepsLeft, hlength]
        omega
      have hleft :=
        setWatch_stepsLeft { w with notifying := w.notifying.erase (t, line) } line .looking
      simp only [WaitLabel.spurious, Bool.not_false, Bool.toNat_true, Bool.toNat_false]
      split
      case isTrue hwatch =>
        simp only [hwatch, Watch.left] at hleft
        omega
      case isFalse => omega

/-- Beside a machine in which each step of a kind adds at most one notification, the waits take at
most three steps for each of these, and two for each wake-up without one. -/
theorem waits_le {σ ℓ : Type} {m : Transition.Machine σ ℓ} {server : σ → RPCServer} {start : Waits}
    {follow : σ → ℓ → Waits → Option Waits} {ok : σ × Waits → ℓ ⊕ WaitLabel → Prop}
    {kind : ℓ → Bool}
    (hpay : ∀ s l w w', follow s l w = some w' → w'.stepsLeft ≤ w.stepsLeft + 3 * (kind l).toNat)
    {x x' : σ × Waits} {ls : List (ℓ ⊕ WaitLabel)}
    (h : (m.beside start follow fun s => Waits.tick (server s)).RunBy ok x ls x') :
    ls.countP (Sum.elim (fun _ => false) fun k => !k.spurious) ≤ x.2.stepsLeft +
      3 * ls.countP (Sum.elim kind fun _ => false) +
      2 * ls.countP (Sum.elim (fun _ => false) WaitLabel.spurious) := by
  induction ls generalizing x with
  | nil => exact Nat.zero_le _
  | cons l ls ih =>
    obtain ⟨x₁, -, hstep, hrest⟩ := h
    have hle := ih hrest
    rcases Transition.Machine.beside_cases hstep with ⟨l, rfl, -, hfollow⟩ | ⟨k, rfl, htick, -⟩
    · have hpaid := hpay _ _ _ _ hfollow
      simp only [countP_cons_toNat, Sum.elim_inl, Bool.toNat_false]
      omega
    · have hpaid := tick_pay htick
      simp only [countP_cons_toNat, Sum.elim_inr, Bool.toNat_false]
      omega

/-! ## At rest -/

/-- What the server can do it may do, where nobody has anything to announce. -/
theorem Heard.allowed (h : Heard v w) (hnotifying : w.notifying = [])
    (hlagging : ∀ line, v.lagging line = 0) (hmoves : Moves C v l v') :
    (Waits.follow v l w).isSome = true := by
  have hlooking : ∀ line, (v.queue line).items ≠ [] → w.watch line = .looking := by
    intro line hitems
    by_contra hwatch
    have hnone := h line hwatch
    rw [announcing, hlagging line, hnotifying, List.countP_nil, Nat.le_zero,
      List.length_eq_zero_iff] at hnone
    exact hitems hnone
  have hbusy : ∀ t, w.busy t = false := fun t => by rw [busy, hnotifying]; rfl
  have hfree : l.thread.any w.busy = false := by
    cases l.thread with
    | none => rfl
    | some t => exact hbusy t
  have hawake : (v.takes l).any (fun line => w.watch line != .looking) = false := by
    cases hmoves with
    | takeRequest hat hitems =>
      have hwatch := hlooking .requests (by
        show v.requestQueue.items ≠ []
        rw [hitems]
        exact List.cons_ne_nil _ _)
      simp only [takes, hat, Option.any_some, hwatch]
      rfl
    | takeResponse hsending hitems =>
      have hwatch := hlooking .responses (by
        show v.responseQueue.items ≠ []
        rw [hitems]
        exact List.cons_ne_nil _ _)
      simp only [takes, Option.any_some, hwatch]
      rfl
    | takeTask hat =>
      simp only [takes, hat]
      rfl
    | deliver | advance | subtractResponse | sendResponse | completeWrite => rfl
  simp only [Waits.follow, hfree, hawake, Bool.or_self, Bool.false_eq_true, if_false,
    Option.isSome_some]

/-- Both dispatchers sleep, and nobody has anything to announce. -/
structure Asleep (w : Waits) : Prop where
  watch : ∀ line, w.watch line = .blocked
  notifying : w.notifying = []

end Waits

namespace RPCServer

variable {C : Setting} {v v' : RPCServer} {l : RPCLabel} {w w' : Waits} {k : WaitLabel}

/-- Neither the server nor a wait can go on by itself. -/
structure Still (C : Setting) (v : RPCServer) (w : Waits) : Prop where
  serves : ∀ l, own l = true → (machine C).step v l = none ∨ Waits.follow v l w = none
  waits : ∀ k, k.spurious = false → Waits.tick v k w = none

/-- Where nothing can go on, nothing is left to do, and the dispatchers sleep. -/
theorem Still.rests {ok : RPCServer → RPCLabel → Prop} (h : Still C v w) (hheard : Waits.Heard v w)
    (hreachable : (machine C).ReachableBy ok v)
    (hworker : .worker ∈ v.threads.map RPCThread.role) (hrunning : v.terminated = false) :
    (∀ l, own l = true → (machine C).step v l = none) ∧ v.Rests ∧ w.Asleep := by
  have htick : ∀ k, k.spurious = false → Waits.tick v k w = none := h.waits
  simp only [Waits.tick, hrunning, Bool.false_eq_true, if_false] at htick
  have hnotifying : w.notifying = [] := by
    apply List.eq_nil_iff_forall_not_mem.mpr
    rintro ⟨t, line⟩ hmem
    have hnone := htick (.notify t line) rfl
    simp only [hmem, if_true] at hnone
    cases hnone
  -- a thread that has something to do may do it
  have hops : ∀ th ∈ v.threads, th.call.ops = [] := by
    refine ops_of_stuck (C := C) hrunning fun t answer => ?_
    refine (h.serves (.advance t answer) rfl).resolve_right fun hnone => ?_
    simp only [Waits.follow, RPCLabel.thread, takes, Waits.busy, hnotifying, List.any_nil,
      Option.any_some, Option.any_none, Bool.or_self, Bool.false_eq_true, if_false] at hnone
    cases hnone
  have hlagging : ∀ line, v.lagging line = 0 := fun line =>
    Threads.total_eq_zero.mpr fun th hth => by rw [hops th hth]; rfl
  have hstuck : ∀ l, own l = true → (machine C).step v l = none := by
    intro l hl
    cases hstep : (machine C).step v l with
    | none => rfl
    | some v' =>
      have hnone := (h.serves l hl).resolve_left (by rw [hstep]; exact nofun)
      have hallowed := hheard.allowed hnotifying hlagging (moves_of_step hstep)
      rw [hnone] at hallowed
      cases hallowed
  have hrests := rests_of_stuck hreachable hworker hrunning hstuck
  refine ⟨hstuck, hrests, fun line => ?_, hnotifying⟩
  cases hwatch : w.watch line with
  | blocked => rfl
  | dozing =>
    have hnone := htick (.block line) rfl
    simp only [hwatch, if_true] at hnone
    cases hnone
  | looking =>
    have hnone := htick (.doze line) rfl
    have hidle : Waits.idle v w line = true := by
      cases line with
      | responses => simp only [Waits.idle, hrests.sending, Option.isNone_none]
      | requests =>
        obtain ⟨th, hth, -⟩ := List.mem_map.mp (requestDispatcher_of_reachable hreachable)
        have hlt : 0 < v.threads.length := List.length_pos_of_mem hth
        have hempty := hops _ (List.getElem_mem hlt)
        simp only [Waits.idle, Waits.busy, hnotifying, List.any_nil, Bool.not_false,
          Bool.and_true, List.getElem?_eq_getElem hlt, Option.any_some, hempty,
          List.isEmpty_nil]
    have hitems : (v.queue line).items = [] := by
      cases line with
      | requests => exact hrests.quiet.2.1
      | responses => exact hrests.responses
    simp only [hwatch, hidle, hitems, and_self, if_true] at hnone
    cases hnone

/-- Where nothing is left to do and the dispatchers sleep, nothing can go on. -/
theorem Rests.still (h : v.Rests) (hasleep : w.Asleep) : Still C v w := by
  refine ⟨fun l hl => .inl (h.stuck hl), fun k hk => ?_⟩
  have hwatch := hasleep.watch
  unfold Waits.tick
  split
  case isTrue => rfl
  case isFalse =>
    cases k with
    | wakeUp => cases hk
    | doze line => simp only [hwatch, reduceCtorEq, false_and, if_false]
    | block line => simp only [hwatch, reduceCtorEq, if_false]
    | notify t line => simp only [hasleep.notifying, List.not_mem_nil, if_false]

/-- The server with its dispatchers' waits. -/
def watched (C : Setting) : Transition.Machine (RPCServer × Waits) (RPCLabel ⊕ WaitLabel) :=
  (machine C).beside .start Waits.follow Waits.tick

/-- The condition on a step, which is one on notifications. -/
def noticed (x : RPCServer × Waits) : RPCLabel ⊕ WaitLabel → Bool :=
  Sum.elim (fun _ => true) (Waits.noticed x.1 x.2)

/-- What the program does by itself: steps of the server's own and of the waits, but no wake-up
without a notification. -/
def ofProgram : RPCLabel ⊕ WaitLabel → Bool := Sum.elim own fun k => !k.spurious

variable {x : RPCServer × Waits}

theorem heard_of_reachable
    (h : (watched C).ReachableBy (fun x l => noticed x l = true) x) : Waits.Heard x.1 x.2 := by
  refine h.invariant_with (J := fun x => ∀ line, x.1.Counted line)
    (I := fun x => Waits.Heard x.1 x.2) (fun x hx => ?_) ?_ ?_
  · have hserver : (machine C).Reachable x.1 := hx.fst fun _ _ _ => trivial
    exact counted_of_reachable hserver
  · rintro x ⟨-, hstart⟩
    exact hstart ▸ Waits.heard_start x.1
  · intro x l x' hcounted hheard hok hstep
    rcases Transition.Machine.beside_cases hstep with ⟨l, rfl, hserver, hfollow⟩ |
      ⟨k, rfl, htick, hsame⟩
    · exact hheard.follow hcounted (moves_of_step hserver) hfollow
    · exact hsame ▸ hheard.tick hok htick

/-- Where the program can do nothing, nothing can go on. -/
theorem still_of_stuck (h : ∀ l, ofProgram l = true → (watched C).step x l = none) :
    Still C x.1 x.2 :=
  ⟨fun l hl => Transition.Machine.beside_inl_eq_none.mp (h (.inl l) hl),
    fun k hk => Transition.Machine.beside_inr_eq_none.mp (h (.inr k) (by simp [ofProgram, hk]))⟩

theorem Still.stuck (h : Still C x.1 x.2) {l : RPCLabel ⊕ WaitLabel} (hl : ofProgram l = true) :
    (watched C).step x l = none := by
  cases l with
  | inl l => exact Transition.Machine.beside_inl_eq_none.mpr (h.serves l hl)
  | inr k =>
    exact Transition.Machine.beside_inr_eq_none.mpr (h.waits k (by simpa [ofProgram] using hl))

/-- The server comes to rest: in every run, whatever arrives and whatever the called functions do,
it takes at most 48 steps of its own for each frame that is delivered, and one that terminates the
process, and its dispatchers' waits at most three for each of these, two for each wake-up without a
notification, and four. Where no notification that was lost was the last hope of an item, the
process runs and there is a worker, it can take none exactly if no thread and no queue has anything
left and the dispatchers sleep; and then every request whose execute function has not thrown
something else than a `std::exception` has had its last response, and of every response it is
settled that the session's send queue has accepted it or which guard has dropped it. -/
theorem rests_of_run {x₀ : RPCServer × Waits} (hinit : (watched C).init x₀)
    {ls : List (RPCLabel ⊕ WaitLabel)} (hrun : (watched C).run x₀ ls = some x) :
    ls.countP (Sum.elim own fun _ => false) ≤
        48 * ls.countP (Sum.elim delivers fun _ => false) + 1 ∧
      ls.countP (Sum.elim (fun _ => false) fun k => !k.spurious) ≤
        4 + 3 * ls.countP (Sum.elim own fun _ => false) +
          2 * ls.countP (Sum.elim (fun _ => false) WaitLabel.spurious) ∧
      ((watched C).ReachableBy (fun x l => noticed x l = true) x →
        .worker ∈ x.1.threads.map RPCThread.role → x.1.terminated = false →
        ((∀ l, ofProgram l = true → (watched C).step x l = none) ↔ x.1.Rests ∧ x.2.Asleep) ∧
        (x.1.Rests →
          (∀ (a : Nat) c, x.1.packets[a]? = some c → .escaped ∉ c.history →
            ∃ (r : Nat) (y : Response) (fate : Fate), x.1.responses[r]? = some y ∧
              y.request = a ∧ y.event.last = true ∧ y.fate = some fate ∧
              x.1.Justified C y fate) ∧
          ∀ (r : Nat) y, x.1.responses[r]? = some y →
            ∃ fate, y.fate = some fate ∧ x.1.Justified C y fate)) := by
  have hruns : (watched C).RunBy (fun _ _ => True) x₀ ls x :=
    .of_run (fun _ _ => trivial) hrun
  refine ⟨?_, ?_, fun hnoticed hworker hrunning => ⟨⟨fun hstuck => ?_, ?_⟩, fun hrests => ?_⟩⟩
  · have hserver : (machine C).RunBy (fun _ _ => True) x₀.1 (ls.filterMap Sum.getLeft?) x.1 :=
      hruns.fst fun _ _ _ => trivial
    have hbase := own_le hinit.1 hserver
    rwa [Transition.Machine.countP_getLeft?, Transition.Machine.countP_getLeft?] at hbase
  · have hwaits := Waits.waits_le (fun _ _ _ _ hfollow => Waits.follow_pay hfollow) hruns
    rw [hinit.2] at hwaits
    exact hwaits
  · have hreachable : (machine C).Reachable x.1 := hnoticed.fst fun _ _ _ => trivial
    exact ((still_of_stuck hstuck).rests (heard_of_reachable hnoticed) hreachable hworker
      hrunning).2
  · exact fun ⟨hrests, hasleep⟩ _ hl => (hrests.still hasleep).stuck hl
  · have hreachable : (machine C).Reachable x.1 := hnoticed.fst fun _ _ _ => trivial
    exact ⟨fun a c hc hescaped => hrests.answered hreachable hc hescaped,
      fun r y hy => hrests.settled (delivering_of_reachable hreachable) hy⟩

/-- One request, whose responses wake the response dispatcher and which wakes the request
dispatcher; afterwards both fall asleep again. -/
def notifiedRequest : List (RPCLabel ⊕ WaitLabel) :=
  let asleep : List WaitLabel :=
    [.doze .requests, .block .requests, .doze .responses, .block .responses]
  let submits (n : Nat) := List.replicate n (RPCLabel.advance 1 { uid := "id" })
  let works (t n : Nat) := List.replicate n (RPCLabel.advance t { packet := samplePacket })
  List.flatten [
    asleep.map .inr, [.inl (.deliver 1 ({ service := "a" } : RPCPacket).internalSerialize)],
    (submits 6).map .inl, [.inr (.notify 1 .responses)],
    (submits 7).map .inl, [.inr (.notify 1 .responses)],
    (submits 2).map .inl, [.inr (.notify 1 .requests), .inl (.take 0)],
    (works 0 7).map .inl, [.inr (.notify 0 .responses)],
    (works 0 3).map .inl, [.inl (.take 2)],
    (works 2 9).map .inl, [.inr (.notify 2 .responses)],
    (sendResponses 4).map .inl, asleep.map .inr]

/-- One request, from its delivery to the last response, and then rest. -/
theorem rests_of_run_one :
    ∃ x, (watched (sampleSetting 8 8)).run (new [.io 0, .worker] [("a", 0)], .start)
        notifiedRequest = some x ∧
      (∀ l, ofProgram l = true → (watched (sampleSetting 8 8)).step x l = none) ∧
      ∃ (r : Nat) (y : Response), x.1.responses[r]? = some y ∧ y.request = 0 ∧
        y.event.last = true := by
  have hruns : ((watched (sampleSetting 8 8)).run (new [.io 0, .worker] [("a", 0)], .start)
      notifiedRequest).any (fun x =>
        x.1.Quiet ∧ x.1.sending = none ∧ x.1.responseQueue.items = [] ∧
          x.2.watch .requests = .blocked ∧ x.2.watch .responses = .blocked ∧
          x.2.notifying = [] ∧ x.1.terminated = false ∧
          .worker ∈ x.1.threads.map RPCThread.role ∧
          (x.1.packets[0]?).any (fun c => !c.history.contains .escaped) = true) = true := by
    decide +kernel
  obtain ⟨x, hrun, hx⟩ := (Option.any_eq_true _ _).mp hruns
  obtain ⟨hquiet, hsending, hresponses, hblocked, hblocked', hnotifying, hrunning, hworker,
    hpacket⟩ := of_decide_eq_true hx
  obtain ⟨c, hc, hescaped⟩ := (Option.any_eq_true _ _).mp hpacket
  have hinit : (watched (sampleSetting 8 8)).init (new [.io 0, .worker] [("a", 0)], .start) :=
    ⟨⟨_, _, by decide, rfl⟩, rfl⟩
  have hnoticed : (watched (sampleSetting 8 8)).ReachableBy (fun x l => noticed x l = true) x :=
    .run (fun _ _ hok => hok) (.start hinit) (by decide +kernel) hrun
  obtain ⟨hstuck, hall⟩ := (rests_of_run hinit hrun).2.2 hnoticed hworker hrunning
  have hrests : x.1.Rests := ⟨hquiet, hsending, hresponses⟩
  have hasleep : x.2.Asleep := by
    refine ⟨fun line => ?_, hnotifying⟩
    cases line with
    | requests => exact hblocked
    | responses => exact hblocked'
  obtain ⟨r, y, fate, hy, hrequest, hlast, -⟩ := (hall hrests).1 0 c hc (by simpa using hescaped)
  exact ⟨x, hrun, hstuck.mpr ⟨hrests, hasleep⟩, r, y, hy, hrequest, hlast⟩

end RPCServer

end DSFramework.DSRPC
