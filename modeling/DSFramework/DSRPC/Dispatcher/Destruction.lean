import DSFramework.Lib.Machine

/-!
# The end of a dispatcher

The destructors of `RequestDispatcher` and `ResponseDispatcher` only log. It is that of their base
that stops the thread, and when it begins, the object is a mere `Dispatcher`, whose
`DispatchDSCMessage` is pure virtual, while the thread that the derived constructor has started is
still in its loop. `drained` is the condition under which the thread has nothing to dispatch in the
meantime; `pureVirtual_of_not_idle` shows that without it the pure virtual function can be called.

`WaitPop` is seen from outside: it takes the oldest item when there is one.
-/

namespace DSFramework.DSRPC

/-- `std::pair<SenderPtr, DispatchItemPtr>`. -/
abbrev DispatchPair (σ ι : Type) := Option σ × Option ι

/-- `requset->first == nullptr && requset->second == nullptr`. -/
def isQuit {σ ι : Type} (requset : DispatchPair σ ι) : Bool :=
  requset.1.isNone && requset.2.isNone

/-- What the dispatcher's thread stands before. -/
inductive DispatcherPlace (σ ι : Type) where
  /-- `while (!isStopped)`. -/
  | loop
  | waitPop
  /-- The three tests behind `WaitPop`. -/
  | examine (requset : DispatchPair σ ι)
  /-- The call of `DispatchDSCMessage`. -/
  | dispatch (requset : DispatchPair σ ι)
  /-- Its return. -/
  | dispatching
  /-- `isStopped = false`. -/
  | reset
  | ended
  deriving DecidableEq, Repr

/-- How far the destruction has come. -/
inductive Destruction where
  | alive
  /-- In the destructor of the derived class. -/
  | derived
  /-- In that of `Dispatcher`, before its test of `isStopped`. -/
  | base
  /-- In `Stop`, before `isStopped = true`, before `Push` and before `join`. -/
  | store
  | push
  | join
  | returned
  deriving DecidableEq, Repr

/-- Has the destructor of the derived class finished? -/
def Destruction.finished : Destruction → Bool
  | .alive | .derived => false
  | .base | .store | .push | .join | .returned => true

/-- Whose `DispatchDSCMessage` is called. -/
inductive Callee where
  | derived
  | pureVirtual
  deriving DecidableEq, Repr

/-- A dispatcher with its thread and the one that destroys it. `calls` is history. -/
structure RunningDispatcher (σ ι : Type) where
  requestQueue : List (DispatchPair σ ι)
  isStopped : Bool
  thread : DispatcherPlace σ ι
  destruction : Destruction
  calls : List (Callee × DispatchPair σ ι)
  terminated : Bool
  deriving DecidableEq, Repr

/-- What may happen next. -/
inductive DestructionLabel (σ ι : Type) where
  | post (requset : DispatchPair σ ι)
  | thread
  | destroy
  deriving DecidableEq, Repr

namespace RunningDispatcher

variable {σ ι : Type} {v v' : RunningDispatcher σ ι} {l : DestructionLabel σ ι}

/-- A dispatcher whose thread has been started, with these items in its queue. -/
def new (requestQueue : List (DispatchPair σ ι)) : RunningDispatcher σ ι :=
  { requestQueue := requestQueue
    isStopped := false
    thread := .loop
    destruction := .alive
    calls := []
    terminated := false }

/-- The virtual call: after the destructor of the derived class it ends the process. -/
def call (v : RunningDispatcher σ ι) (requset : DispatchPair σ ι) : RunningDispatcher σ ι :=
  if v.destruction.finished then
    { v with calls := v.calls ++ [(.pureVirtual, requset)], terminated := true }
  else { v with calls := v.calls ++ [(.derived, requset)], thread := .dispatching }

/-- The thread of `Start`. -/
def advance (v : RunningDispatcher σ ι) : Option (RunningDispatcher σ ι) :=
  match v.thread with
  | .loop => some { v with thread := if v.isStopped then .ended else .waitPop }
  | .waitPop => match v.requestQueue with
    | requset :: rest => some { v with requestQueue := rest, thread := .examine requset }
    | [] => none
  | .examine requset =>
    some { v with thread := if v.isStopped || isQuit requset then .reset else .dispatch requset }
  | .dispatch requset => some (v.call requset)
  | .dispatching => some { v with thread := .loop }
  | .reset => some { v with isStopped := false, thread := .ended }
  | .ended => none

/-- The destructors. A thread object that is destroyed without a join ends the process. -/
def destroy (v : RunningDispatcher σ ι) : Option (RunningDispatcher σ ι) :=
  match v.destruction with
  | .alive => some { v with destruction := .derived }
  | .derived => some { v with destruction := .base }
  | .base => some (if v.isStopped then { v with terminated := true }
      else { v with destruction := .store })
  | .store => some { v with isStopped := true, destruction := .push }
  | .push => some { v with requestQueue := v.requestQueue ++ [(none, none)], destruction := .join }
  | .join => match v.thread with
    | .ended => some { v with destruction := .returned }
    | _ => none
  | .returned => none

/-- One step, in a process that has not been terminated. Items are posted while the dispatcher is
alive. -/
def step (v : RunningDispatcher σ ι) (l : DestructionLabel σ ι) :
    Option (RunningDispatcher σ ι) :=
  if v.terminated then none
  else match l with
    | .post requset => match v.destruction with
      | .alive => some { v with requestQueue := v.requestQueue ++ [requset] }
      | _ => none
    | .thread => v.advance
    | .destroy => v.destroy

/-- A dispatcher as a machine, for any content of its queue. -/
def machine (σ ι : Type) :
    Transition.Machine (RunningDispatcher σ ι) (DestructionLabel σ ι) where
  init v := ∃ requestQueue, v = new requestQueue
  step := step

/-- The thread will not dispatch anything of what it has in hand and of what is in the queue. -/
def idle (v : RunningDispatcher σ ι) : Bool :=
  match v.thread with
  | .loop | .waitPop | .dispatching => v.requestQueue.head?.all isQuit
  | .examine requset => isQuit requset
  | .dispatch _ => false
  | .reset | .ended => true

/-- The condition: when the destructor of the derived class finishes, the thread will not dispatch
anything. -/
def drained (v : RunningDispatcher σ ι) : DestructionLabel σ ι → Bool
  | .destroy => v.destruction != .derived || v.idle
  | _ => true

/-- Every way a label can take one dispatcher to the next. -/
inductive Moves (v : RunningDispatcher σ ι) :
    DestructionLabel σ ι → RunningDispatcher σ ι → Prop where
  | post {requset : DispatchPair σ ι} : v.destruction = .alive →
      Moves v (.post requset) { v with requestQueue := v.requestQueue ++ [requset] }
  | leave : v.thread = .loop → v.isStopped = true → Moves v .thread { v with thread := .ended }
  | enter : v.thread = .loop → v.isStopped = false → Moves v .thread { v with thread := .waitPop }
  | pop {requset : DispatchPair σ ι} {rest : List (DispatchPair σ ι)} : v.thread = .waitPop →
      v.requestQueue = requset :: rest →
      Moves v .thread { v with requestQueue := rest, thread := .examine requset }
  | quit {requset : DispatchPair σ ι} : v.thread = .examine requset →
      (v.isStopped || isQuit requset) = true → Moves v .thread { v with thread := .reset }
  | accept {requset : DispatchPair σ ι} : v.thread = .examine requset →
      (v.isStopped || isQuit requset) = false →
      Moves v .thread { v with thread := .dispatch requset }
  | call {requset : DispatchPair σ ι} : v.thread = .dispatch requset →
      Moves v .thread (v.call requset)
  | back : v.thread = .dispatching → Moves v .thread { v with thread := .loop }
  | reset : v.thread = .reset → Moves v .thread { v with isStopped := false, thread := .ended }
  | begin : v.destruction = .alive → Moves v .destroy { v with destruction := .derived }
  | finish : v.destruction = .derived → Moves v .destroy { v with destruction := .base }
  | skip : v.destruction = .base → v.isStopped = true →
      Moves v .destroy { v with terminated := true }
  | stop : v.destruction = .base → v.isStopped = false →
      Moves v .destroy { v with destruction := .store }
  | store : v.destruction = .store →
      Moves v .destroy { v with isStopped := true, destruction := .push }
  | push : v.destruction = .push → Moves v .destroy
      { v with requestQueue := v.requestQueue ++ [(none, none)], destruction := .join }
  | join : v.destruction = .join → v.thread = .ended →
      Moves v .destroy { v with destruction := .returned }

theorem moves_of_step (h : v.step l = some v') : Moves v l v' := by
  unfold step at h
  split at h
  case isTrue => cases h
  case isFalse =>
    cases l with
    | post requset =>
      dsimp only at h
      split at h
      case h_1 halive => cases h; exact .post halive
      case h_2 => cases h
    | thread =>
      simp only [advance] at h
      split at h
      case h_1 hat =>
        cases h
        split
        case isTrue hstopped => exact .leave hat hstopped
        case isFalse hgoes => exact .enter hat (Bool.eq_false_iff.mpr hgoes)
      case h_2 hat =>
        split at h
        case h_1 hqueue => cases h; exact .pop hat hqueue
        case h_2 => cases h
      case h_3 requset hat =>
        cases h
        split
        case isTrue hquit => exact .quit hat hquit
        case isFalse hitem => exact .accept hat (Bool.eq_false_iff.mpr hitem)
      case h_4 hat => cases h; exact .call hat
      case h_5 hat => cases h; exact .back hat
      case h_6 hat => cases h; exact .reset hat
      case h_7 => cases h
    | destroy =>
      simp only [destroy] at h
      split at h
      case h_1 hat => cases h; exact .begin hat
      case h_2 hat => cases h; exact .finish hat
      case h_3 hat =>
        cases h
        split
        case isTrue hstopped => exact .skip hat hstopped
        case isFalse hgoes => exact .stop hat (Bool.eq_false_iff.mpr hgoes)
      case h_4 hat => cases h; exact .store hat
      case h_5 hat => cases h; exact .push hat
      case h_6 hat =>
        split at h
        case h_1 hended => cases h; exact .join hat hended
        case h_2 => cases h
      case h_7 => cases h

/-- THE INVARIANT of a destruction that meets the condition: only `Stop` sets the flag, and from
then on it is set or the thread has ended; from the end of the derived destructor on the thread
dispatches nothing. -/
structure Quiet (v : RunningDispatcher σ ι) : Prop where
  flag : v.isStopped = true →
    v.destruction = .push ∨ v.destruction = .join ∨ v.destruction = .returned
  idle : v.destruction = .base ∨ v.destruction = .store → v.idle = true
  stopped : v.destruction = .push ∨ v.destruction = .join ∨ v.destruction = .returned →
    (v.isStopped = true ∨ v.thread = .ended) ∧ ∀ requset, v.thread ≠ .dispatch requset
  derived : ∀ call ∈ v.calls, call.1 = .derived
  joined : v.destruction = .returned → v.thread = .ended

theorem quiet_new (requestQueue : List (DispatchPair σ ι)) : (new requestQueue).Quiet where
  flag := nofun
  idle := fun h => by rcases h with h | h <;> cases h
  stopped := fun h => by rcases h with h | h | h <;> cases h
  derived := nofun
  joined := nofun

/-- A thread that has still to dispatch does so before the derived destructor has finished. -/
theorem Quiet.not_finished (h : v.Quiet) {requset : DispatchPair σ ι}
    (hat : v.thread = .dispatch requset) : v.destruction.finished = false := by
  have hbusy : v.idle = false := by simp only [RunningDispatcher.idle, hat]
  cases hd : v.destruction with
  | alive | derived => rfl
  | base =>
    rw [h.idle (.inl hd)] at hbusy
    cases hbusy
  | store =>
    rw [h.idle (.inr hd)] at hbusy
    cases hbusy
  | push => exact absurd hat ((h.stopped (.inl hd)).2 requset)
  | join => exact absurd hat ((h.stopped (.inr (.inl hd))).2 requset)
  | returned => exact absurd hat ((h.stopped (.inr (.inr hd))).2 requset)

/-- The flag is not set while the thread may still have something to dispatch. -/
theorem Quiet.running (h : v.Quiet) (hd : v.destruction ≠ .push ∧ v.destruction ≠ .join ∧
    v.destruction ≠ .returned) : v.isStopped = false := by
  rw [← Bool.not_eq_true]
  intro hflag
  rcases h.flag hflag with heq | heq | heq
  · exact hd.1 heq
  · exact hd.2.1 heq
  · exact hd.2.2 heq

/-- The thread goes on, and is idle if it was. -/
theorem Quiet.goto (h : v.Quiet) (hat : v.thread ≠ .ended) {queue : List (DispatchPair σ ι)}
    {place : DispatcherPlace σ ι} (hidle : v.isStopped = false → v.idle = true →
      { v with requestQueue := queue, thread := place }.idle = true)
    (hdispatch : ∀ requset, place = .dispatch requset → v.isStopped = false) :
    Quiet { v with requestQueue := queue, thread := place } where
  flag := h.flag
  idle := fun hd => by
    change v.destruction = .base ∨ v.destruction = .store at hd
    apply hidle (h.running _) (h.idle hd)
    rcases hd with hd | hd <;> rw [hd] <;> exact ⟨nofun, nofun, nofun⟩
  stopped := fun hd => by
    obtain ⟨hflag | hended, -⟩ := h.stopped hd
    · refine ⟨.inl hflag, fun requset hplace => ?_⟩
      rw [hdispatch requset hplace] at hflag
      cases hflag
    · exact absurd hended hat
  derived := h.derived
  joined := fun hd => absurd (h.joined hd) hat

/-- The destruction goes on, in a step that leaves the flag alone. -/
theorem Quiet.proceed (h : v.Quiet) {destruction : Destruction}
    (hbefore : v.destruction ≠ .push ∧ v.destruction ≠ .join ∧ v.destruction ≠ .returned)
    (hidle : destruction = .base ∨ destruction = .store → v.idle = true)
    (hafter : destruction ≠ .push ∧ destruction ≠ .join ∧ destruction ≠ .returned) :
    Quiet { v with destruction := destruction } where
  flag := fun hflag => by
    have hrunning := h.running hbefore
    change v.isStopped = true at hflag
    rw [hrunning] at hflag
    cases hflag
  idle := hidle
  stopped := fun hd => by
    rcases hd with hd | hd | hd
    · exact absurd hd hafter.1
    · exact absurd hd hafter.2.1
    · exact absurd hd hafter.2.2
  derived := h.derived
  joined := fun hd => absurd hd hafter.2.2

theorem Quiet.step (h : v.Quiet) (hok : v.drained l = true) (hmoves : Moves v l v') :
    v'.Quiet := by
  cases hmoves with
  | post halive =>
    have hvacuous : ∀ {d : Destruction}, d ≠ .alive → v.destruction ≠ d :=
      fun hne heq => hne (heq.symm.trans halive)
    refine ⟨h.flag, fun hd => ?_, h.stopped, h.derived, h.joined⟩
    rcases hd with hd | hd
    · exact absurd hd (hvacuous nofun)
    · exact absurd hd (hvacuous nofun)
  | leave hat =>
    exact h.goto (by rw [hat]; exact nofun) (fun _ _ => rfl) nofun
  | enter hat =>
    refine h.goto (by rw [hat]; exact nofun) (fun _ hidle => ?_) nofun
    simpa only [RunningDispatcher.idle, hat] using hidle
  | @pop requset rest hat hqueue =>
    refine h.goto (by rw [hat]; exact nofun) (fun _ hidle => ?_) nofun
    simpa only [RunningDispatcher.idle, hat, hqueue, List.head?_cons, Option.all_some] using hidle
  | quit hat => exact h.goto (by rw [hat]; exact nofun) (fun _ _ => rfl) nofun
  | @accept requset hat hitem =>
    obtain ⟨hrunning, hnot⟩ := Bool.or_eq_false_iff.mp hitem
    refine h.goto (by rw [hat]; exact nofun) (fun _ hidle => ?_) fun _ _ => hrunning
    simp only [RunningDispatcher.idle, hat, hnot, Bool.false_eq_true] at hidle
  | @call requset hat =>
    have hcalled : Quiet { v with calls := v.calls ++ [(.derived, requset)] } := by
      refine ⟨h.flag, h.idle, h.stopped, fun call hcall => ?_, h.joined⟩
      rcases List.mem_append.mp hcall with hmem | hmem
      · exact h.derived call hmem
      · rw [List.mem_singleton.mp hmem]
    rw [RunningDispatcher.call, h.not_finished hat]
    refine hcalled.goto (by rw [hat]; exact nofun) (fun _ hidle => ?_) nofun
    simp only [RunningDispatcher.idle, hat, Bool.false_eq_true] at hidle
  | back hat =>
    refine h.goto (by rw [hat]; exact nofun) (fun _ hidle => ?_) nofun
    simpa only [RunningDispatcher.idle, hat] using hidle
  | reset hat =>
    exact ⟨nofun, fun _ => rfl, fun _ => ⟨.inr rfl, fun _ => nofun⟩, h.derived, fun _ => rfl⟩
  | begin hat =>
    exact h.proceed (by rw [hat]; exact ⟨nofun, nofun, nofun⟩)
      (fun hd => by rcases hd with hd | hd <;> cases hd) ⟨nofun, nofun, nofun⟩
  | finish hat =>
    refine h.proceed (by rw [hat]; exact ⟨nofun, nofun, nofun⟩) (fun _ => ?_)
      ⟨nofun, nofun, nofun⟩
    simpa only [drained, hat, bne_self_eq_false, Bool.false_or] using hok
  | skip hat hflag =>
    have hrunning := h.running (by rw [hat]; exact ⟨nofun, nofun, nofun⟩)
    rw [hrunning] at hflag
    cases hflag
  | stop hat =>
    exact h.proceed (by rw [hat]; exact ⟨nofun, nofun, nofun⟩) (fun _ => h.idle (.inl hat))
      ⟨nofun, nofun, nofun⟩
  | store hat =>
    refine ⟨fun _ => .inl rfl, fun hd => ?_, fun _ => ⟨.inl rfl, fun requset hplace => ?_⟩,
      h.derived, nofun⟩
    · rcases hd with hd | hd <;> cases hd
    have hidle := h.idle (.inr hat)
    simp only [RunningDispatcher.idle, show v.thread = .dispatch requset from hplace,
      Bool.false_eq_true] at hidle
  | push hat =>
    refine ⟨fun _ => .inr (.inl rfl), fun hd => ?_, fun _ => h.stopped (.inl hat), h.derived,
      nofun⟩
    rcases hd with hd | hd <;> cases hd
  | join hat hended =>
    refine ⟨fun _ => .inr (.inr rfl), fun hd => ?_, fun _ => h.stopped (.inr (.inl hat)),
      h.derived, fun _ => hended⟩
    rcases hd with hd | hd <;> cases hd

/-- The invariant holds throughout a run that meets the condition. -/
theorem quiet_of_reachable
    (h : (machine σ ι).ReachableBy (fun v l => v.drained l = true) v) : v.Quiet := by
  refine Transition.Machine.ReachableBy.invariant ?_ ?_ h
  · rintro _ ⟨requestQueue, rfl⟩
    exact quiet_new requestQueue
  · intro v l v' hquiet hok hstep
    exact hquiet.step hok (moves_of_step hstep)

/-- A thread that has ended does nothing any more. -/
theorem ended_of_moves (h : Moves v l v') (hended : v.thread = .ended) :
    v'.thread = .ended ∧ v'.calls = v.calls := by
  have helse : ∀ {place : DispatcherPlace σ ι}, place ≠ .ended → v.thread ≠ place :=
    fun hne heq => hne (heq.symm.trans hended)
  cases h with
  | post | begin | finish | skip | stop | store | push | join => exact ⟨hended, rfl⟩
  | leave | reset => exact ⟨rfl, rfl⟩
  | enter hat | pop hat | quit hat | accept hat | call hat | back hat =>
    exact absurd hat (helse nofun)

theorem ended_of_steps {w : RunningDispatcher σ ι}
    (h : (machine σ ι).Steps (fun _ _ => True) v w) (hended : v.thread = .ended) :
    w.thread = .ended ∧ w.calls = v.calls := by
  refine h.invariant (I := fun w => w.thread = .ended ∧ w.calls = v.calls) ?_ ⟨hended, rfl⟩
  rintro u l u' ⟨hthread, hcalls⟩ - hstep
  obtain ⟨hthread', hcalls'⟩ := ended_of_moves (moves_of_step hstep) hthread
  exact ⟨hthread', hcalls'.trans hcalls⟩

/-- THE DESTRUCTION: in every run whose steps meet the condition, every call of `DispatchDSCMessage`
is one of the derived class's, and when `Stop` has returned, the thread has ended for good. -/
theorem destruction_of_reachable
    (h : (machine σ ι).ReachableBy (fun v l => v.drained l = true) v) :
    (∀ call ∈ v.calls, call.1 = .derived) ∧ (v.destruction = .returned → v.thread = .ended ∧
      ∀ w, (machine σ ι).Steps (fun _ _ => True) v w →
        w.thread = .ended ∧ w.calls = v.calls) := by
  have hquiet := quiet_of_reachable h
  refine ⟨hquiet.derived, fun hreturned => ?_⟩
  have hended := hquiet.joined hreturned
  exact ⟨hended, fun w hsteps => ended_of_steps hsteps hended⟩

/-- An item is dispatched by the derived class, the thread waits, the dispatcher is destroyed. -/
theorem destruction_of_reachable_waiting :
    ∃ v : RunningDispatcher Unit Unit, v.destruction = .returned ∧
      v.calls = [(.derived, (some (), some ()))] ∧
      ((∀ call ∈ v.calls, call.1 = .derived) ∧ (v.destruction = .returned → v.thread = .ended ∧
        ∀ w, (machine Unit Unit).Steps (fun _ _ => True) v w →
          w.thread = .ended ∧ w.calls = v.calls)) := by
  have hrun : (machine Unit Unit).run (new [(some (), some ())])
      [.thread, .thread, .thread, .thread, .thread, .thread, .destroy, .destroy, .destroy,
        .destroy, .destroy, .thread, .thread, .thread, .destroy] =
      some { new [] with
        thread := .ended
        destruction := .returned
        calls := [(.derived, (some (), some ()))] } := by decide
  have hsound : ∀ (v : RunningDispatcher Unit Unit) (l : DestructionLabel Unit Unit),
      v.drained l = true → v.drained l = true := fun _ _ => id
  exact ⟨_, rfl, rfl, destruction_of_reachable
    (.run hsound (.start ⟨[(some (), some ())], rfl⟩) (by decide) hrun)⟩

/-- The process ends in a pure virtual call, with an item in the queue of a dispatcher that is
destroyed. -/
theorem pureVirtual_of_backlog :
    ∃ v : RunningDispatcher Unit Unit,
      (machine Unit Unit).run (new [(some (), some ())])
        [.destroy, .destroy, .thread, .thread, .thread, .thread] = some v ∧
      v.destruction.finished = true ∧ v.calls = [(.pureVirtual, (some (), some ()))] := by
  refine ⟨_, rfl, ?_⟩
  decide

/-- What the thread has taken it dispatches, while the flag is clear. -/
theorem run_examine {requset : DispatchPair σ ι} (hat : v.thread = .examine requset)
    (hitem : isQuit requset = false) (hrunning : v.isStopped = false)
    (hgoes : v.terminated = false) :
    (machine σ ι).run v [.thread, .thread] =
      some ({ v with thread := .dispatch requset }.call requset) := by
  have haccept : (machine σ ι).step v .thread = some { v with thread := .dispatch requset } := by
    simp only [machine, step, hgoes, Bool.false_eq_true, if_false, advance, hat, hrunning, hitem,
      Bool.or_self]
  have hcall : (machine σ ι).step { v with thread := .dispatch requset } .thread =
      some ({ v with thread := .dispatch requset }.call requset) := by
    simp only [machine, step, hgoes, Bool.false_eq_true, if_false, advance]
  simp only [Transition.Machine.run, haccept, hcall, Option.bind_some]

/-- What is first in the queue it takes and dispatches. -/
theorem run_waitPop {requset : DispatchPair σ ι} {rest : List (DispatchPair σ ι)}
    (hat : v.thread = .waitPop) (hqueue : v.requestQueue = requset :: rest)
    (hitem : isQuit requset = false) (hrunning : v.isStopped = false)
    (hgoes : v.terminated = false) :
    (machine σ ι).run v [.thread, .thread, .thread] =
      some ({ v with requestQueue := rest, thread := .dispatch requset }.call requset) := by
  have hpop : (machine σ ι).step v .thread =
      some { v with requestQueue := rest, thread := .examine requset } := by
    simp only [machine, step, hgoes, Bool.false_eq_true, if_false, advance, hat, hqueue]
  have hrun := run_examine (v := { v with requestQueue := rest, thread := .examine requset }) rfl
    hitem hrunning hgoes
  rw [Transition.Machine.run, hpop]
  exact hrun

theorem run_loop {requset : DispatchPair σ ι} {rest : List (DispatchPair σ ι)}
    (hat : v.thread = .loop) (hqueue : v.requestQueue = requset :: rest)
    (hitem : isQuit requset = false) (hrunning : v.isStopped = false)
    (hgoes : v.terminated = false) :
    (machine σ ι).run v [.thread, .thread, .thread, .thread] =
      some ({ v with requestQueue := rest, thread := .dispatch requset }.call requset) := by
  have henter : (machine σ ι).step v .thread = some { v with thread := .waitPop } := by
    simp only [machine, step, hgoes, Bool.false_eq_true, if_false, advance, hat, hrunning]
  have hrun := run_waitPop (v := { v with thread := .waitPop }) rfl hqueue hitem hrunning hgoes
  rw [Transition.Machine.run, henter]
  exact hrun

/-- The condition is exact: from a state that breaks it, the thread can go on to call the pure
virtual function. -/
theorem pureVirtual_of_not_idle (hd : v.destruction.finished = true) (hbusy : v.idle = false)
    (hrunning : v.isStopped = false) (hgoes : v.terminated = false) :
    ∃ ls w requset, (machine σ ι).run v ls = some w ∧ (Callee.pureVirtual, requset) ∈ w.calls := by
  have hcalled : ∀ (u : RunningDispatcher σ ι) (requset : DispatchPair σ ι),
      u.destruction = v.destruction → (Callee.pureVirtual, requset) ∈ (u.call requset).calls := by
    intro u requset hsame
    rw [call, if_pos (hsame ▸ hd)]
    exact List.mem_append_right _ (List.mem_singleton_self _)
  have hhead : v.requestQueue.head?.all isQuit = false →
      ∃ requset rest, v.requestQueue = requset :: rest ∧ isQuit requset = false := by
    intro hall
    cases hqueue : v.requestQueue with
    | nil => rw [hqueue] at hall; cases hall
    | cons requset rest =>
      rw [hqueue] at hall
      exact ⟨requset, rest, rfl, hall⟩
  cases hat : v.thread with
  | loop =>
    simp only [idle, hat] at hbusy
    obtain ⟨requset, rest, hqueue, hitem⟩ := hhead hbusy
    exact ⟨_, _, requset, run_loop hat hqueue hitem hrunning hgoes, hcalled _ _ rfl⟩
  | waitPop =>
    simp only [idle, hat] at hbusy
    obtain ⟨requset, rest, hqueue, hitem⟩ := hhead hbusy
    exact ⟨_, _, requset, run_waitPop hat hqueue hitem hrunning hgoes, hcalled _ _ rfl⟩
  | examine requset =>
    simp only [idle, hat] at hbusy
    exact ⟨_, _, requset, run_examine hat hbusy hrunning hgoes, hcalled _ _ rfl⟩
  | dispatch requset =>
    have hstep : (machine σ ι).step v .thread = some (v.call requset) := by
      simp only [machine, step, hgoes, Bool.false_eq_true, if_false, advance, hat]
    refine ⟨[.thread], v.call requset, requset, ?_, hcalled v requset rfl⟩
    rw [Transition.Machine.run, hstep]
    rfl
  | dispatching =>
    simp only [idle, hat] at hbusy
    obtain ⟨requset, rest, hqueue, hitem⟩ := hhead hbusy
    have hback : (machine σ ι).step v .thread = some { v with thread := .loop } := by
      simp only [machine, step, hgoes, Bool.false_eq_true, if_false, advance, hat]
    refine ⟨.thread :: [.thread, .thread, .thread, .thread], _, requset, ?_,
      hcalled { v with requestQueue := rest, thread := .dispatch requset } _ rfl⟩
    rw [Transition.Machine.run, hback]
    exact run_loop (v := { v with thread := .loop }) rfl hqueue hitem hrunning hgoes
  | reset | ended =>
    simp only [idle, hat] at hbusy
    cases hbusy

end RunningDispatcher

end DSFramework.DSRPC
