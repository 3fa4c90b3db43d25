import DSFramework.DSCommunication.Logger
import DSFramework.Lib.Machine

/-!
# The end of the logger

`~Logger` clears `m_isRunning`, pushes the quit record, joins the consumer and dumps the buffer. The
consumer tests `m_isRunning` before every `WaitPop`: from the moment it is cleared it takes one
record more if it stands behind the test, and none if it does not. What else is in the queue by
then, or is pushed before the quit record, is never taken. `sufficient` is the condition under which
nothing is left behind; `short_of_steps` shows that where it fails, something is.

That the thread ends needs no condition: whoever stands before `WaitPop` finds the quit record at
the latest.

`WaitPop` is seen from outside: it takes the oldest record when there is one.
-/

namespace DSFramework.DSCommunication

/-- What the consumer stands before. -/
inductive LoggerPlace where
  /-- `while (m_isRunning)`. -/
  | loop
  | waitPop
  /-- The rest of the loop's body, with the record that it has popped. -/
  | consume (log : Log)
  | ended
  deriving DecidableEq, Repr

/-- What the destructor stands before. -/
inductive LoggerEnd where
  | outside
  /-- `m_isRunning = false`. -/
  | clear
  /-- The push of the quit record. -/
  | push
  | join
  | dump
  | returned
  deriving DecidableEq, Repr

/-- The logger with its queue, its consumer and the thread that destroys it. `accepted` lists what
has been pushed before the quit record, `behind` what from it on, `processed` what the consumer has
been through with. -/
structure RunningLogger where
  logs : List Log
  logger : Logger
  isRunning : Bool
  thread : LoggerPlace
  destruction : LoggerEnd
  accepted : List Log
  behind : List Log
  processed : List Log
  deriving DecidableEq, Repr

/-- What may happen next. The time and the thread of the quit record are the environment's. -/
inductive LoggerLabel where
  | logMessage (log : Log)
  | thread
  | destroy (time threadID : String)
  deriving DecidableEq, Repr

namespace RunningLogger

variable {opens : Bool} {v v' : RunningLogger} {l : LoggerLabel}

/-- A logger as constructed, with what is in the file and on the console already. -/
def new (file console : String) : RunningLogger :=
  { logs := []
    logger := .new file console
    isRunning := true
    thread := .loop
    destruction := .outside
    accepted := []
    behind := []
    processed := [] }

/-- `quit_log`. -/
def quitLog (time threadID : String) : Log :=
  { lv := .info
    time := time
    threadID := threadID
    content := "Logger quit."
    fileName := ""
    functionName := ""
    line := 0
    srcDetail := false
    toConsole := true }

/-- Has the quit record been pushed? -/
def quitting (v : RunningLogger) : Bool :=
  match v.destruction with
  | .outside | .clear | .push => false
  | .join | .dump | .returned => true

/-- `LogMessage`. -/
def logMessage (v : RunningLogger) (log : Log) : RunningLogger :=
  if v.quitting then { v with logs := v.logs ++ [log], behind := v.behind ++ [log] }
  else { v with logs := v.logs ++ [log], accepted := v.accepted ++ [log] }

/-- The consumer. -/
def advance (opens : Bool) (v : RunningLogger) : Option RunningLogger :=
  match v.thread with
  | .loop => some { v with thread := if v.isRunning then .waitPop else .ended }
  | .waitPop => match v.logs with
    | log :: rest => some { v with logs := rest, thread := .consume log }
    | [] => none
  | .consume log => some { v with
      logger := v.logger.consume opens log
      processed := v.processed ++ [log]
      thread := .loop }
  | .ended => none

/-- `~Logger`. -/
def destroy (opens : Bool) (v : RunningLogger) (time threadID : String) : Option RunningLogger :=
  match v.destruction with
  | .outside => some { v with destruction := if v.isRunning then .clear else .join }
  | .clear => some { v with isRunning := false, destruction := .push }
  | .push => some { v with
      logs := v.logs ++ [quitLog time threadID]
      behind := v.behind ++ [quitLog time threadID]
      destruction := .join }
  | .join => match v.thread with
    | .ended => some { v with destruction := .dump }
    | _ => none
  | .dump => some { v with logger := v.logger.dump opens, destruction := .returned }
  | .returned => none

/-- One step. Messages are logged until the destructor has returned. -/
def step (opens : Bool) (v : RunningLogger) : LoggerLabel → Option RunningLogger
  | .logMessage log => match v.destruction with
    | .returned => none
    | _ => some (v.logMessage log)
  | .thread => v.advance opens
  | .destroy time threadID => v.destroy opens time threadID

/-- A logger as a machine. -/
def machine (opens : Bool) : Transition.Machine RunningLogger LoggerLabel where
  init v := ∃ file console, v = new file console
  step := step opens

/-- The record in the consumer's hands. -/
def inHand (v : RunningLogger) : List Log :=
  match v.thread with
  | .consume log => [log]
  | _ => []

/-- How many records the consumer will still take when `m_isRunning` is cleared. -/
def capacity (v : RunningLogger) : Nat :=
  match v.thread with
  | .waitPop => 1
  | _ => 0

/-- The condition: when `m_isRunning` is cleared, and when a record is pushed between that and the
quit record, the queue comes to hold no more than the consumer will still take. -/
def sufficient (v : RunningLogger) : LoggerLabel → Bool
  | .logMessage _ => v.isRunning || v.quitting || decide (v.logs.length + 1 ≤ v.capacity)
  | .destroy _ _ => v.destruction != .clear || decide (v.logs.length ≤ v.capacity)
  | .thread => true

/-- Every way a label can take one logger to the next. -/
inductive Moves (opens : Bool) (v : RunningLogger) : LoggerLabel → RunningLogger → Prop where
  | accept {log : Log} : v.quitting = false → Moves opens v (.logMessage log)
      { v with logs := v.logs ++ [log], accepted := v.accepted ++ [log] }
  | late {log : Log} : v.quitting = true → Moves opens v (.logMessage log)
      { v with logs := v.logs ++ [log], behind := v.behind ++ [log] }
  | enter : v.thread = .loop → v.isRunning = true →
      Moves opens v .thread { v with thread := .waitPop }
  | leave : v.thread = .loop → v.isRunning = false →
      Moves opens v .thread { v with thread := .ended }
  | pop {log : Log} {rest : List Log} : v.thread = .waitPop → v.logs = log :: rest →
      Moves opens v .thread { v with logs := rest, thread := .consume log }
  | consume {log : Log} : v.thread = .consume log → Moves opens v .thread { v with
      logger := v.logger.consume opens log
      processed := v.processed ++ [log]
      thread := .loop }
  | begin {time threadID : String} : v.destruction = .outside → v.isRunning = true →
      Moves opens v (.destroy time threadID) { v with destruction := .clear }
  | skip {time threadID : String} : v.destruction = .outside → v.isRunning = false →
      Moves opens v (.destroy time threadID) { v with destruction := .join }
  | clear {time threadID : String} : v.destruction = .clear →
      Moves opens v (.destroy time threadID) { v with isRunning := false, destruction := .push }
  | push {time threadID : String} : v.destruction = .push →
      Moves opens v (.destroy time threadID) { v with
        logs := v.logs ++ [quitLog time threadID]
        behind := v.behind ++ [quitLog time threadID]
        destruction := .join }
  | join {time threadID : String} : v.destruction = .join → v.thread = .ended →
      Moves opens v (.destroy time threadID) { v with destruction := .dump }
  | dump {time threadID : String} : v.destruction = .dump →
      Moves opens v (.destroy time threadID) { v with
        logger := v.logger.dump opens
        destruction := .returned }

theorem moves_of_step (h : v.step opens l = some v') : Moves opens v l v' := by
  cases l with
  | logMessage log =>
    simp only [step] at h
    split at h
    case h_1 => cases h
    case h_2 =>
      cases h
      unfold logMessage
      split
      case isTrue hquitting => exact .late hquitting
      case isFalse hquitting => exact .accept (Bool.eq_false_iff.mpr hquitting)
  | thread =>
    simp only [step, advance] at h
    split at h
    case h_1 hat =>
      cases h
      split
      case isTrue hrunning => exact .enter hat hrunning
      case isFalse hrunning => exact .leave hat (Bool.eq_false_iff.mpr hrunning)
    case h_2 hat =>
      split at h
      case h_1 hlogs => cases h; exact .pop hat hlogs
      case h_2 => cases h
    case h_3 hat => cases h; exact .consume hat
    case h_4 => cases h
  | destroy time threadID =>
    simp only [step, destroy] at h
    split at h
    case h_1 hat =>
      cases h
      split
      case isTrue hrunning => exact .begin hat hrunning
      case isFalse hrunning => exact .skip hat (Bool.eq_false_iff.mpr hrunning)
    case h_2 hat => cases h; exact .clear hat
    case h_3 hat => cases h; exact .push hat
    case h_4 hat =>
      split at h
      case h_1 hended => cases h; exact .join hat hended
      case h_2 => cases h
    case h_5 hat => cases h; exact .dump hat
    case h_6 => cases h

/-! ## What the consumer leaves behind -/

/-- The records are taken in the order in which they were pushed. -/
structure Fifo (v : RunningLogger) : Prop where
  order : v.accepted ++ v.behind = v.processed ++ v.inHand ++ v.logs
  behind : v.quitting = false → v.behind = []

/-- The consumer runs until the destructor clears the flag, and finds the quit record before it
waits in vain. -/
structure Phases (v : RunningLogger) : Prop where
  running : v.isRunning = true ↔ v.destruction = .outside ∨ v.destruction = .clear
  ended : v.thread = .ended → v.isRunning = false
  quit : v.quitting = true → v.thread = .waitPop → v.logs ≠ []
  joined : v.destruction = .dump ∨ v.destruction = .returned → v.thread = .ended

theorem fifo_new (file console : String) : (new file console).Fifo :=
  ⟨rfl, fun _ => rfl⟩

theorem phases_new (file console : String) : (new file console).Phases where
  running := iff_of_true rfl (.inl rfl)
  ended := nofun
  quit := nofun
  joined := fun h => by rcases h with h | h <;> cases h

theorem Fifo.step (h : v.Fifo) (hmoves : Moves opens v l v') : v'.Fifo := by
  have horder := h.order
  cases hmoves with
  | @accept log hbefore =>
    have hnone := h.behind hbefore
    refine ⟨?_, h.behind⟩
    rw [hnone, List.append_nil] at horder
    show (v.accepted ++ [log]) ++ v.behind = v.processed ++ v.inHand ++ (v.logs ++ [log])
    rw [hnone, List.append_nil, horder, List.append_assoc _ v.logs]
  | @late log hquitting =>
    refine ⟨?_, fun hbefore => ?_⟩
    · show v.accepted ++ (v.behind ++ [log]) = v.processed ++ v.inHand ++ (v.logs ++ [log])
      rw [← List.append_assoc, horder, List.append_assoc _ v.logs]
    · rw [show v.quitting = false from hbefore] at hquitting
      cases hquitting
  | enter hat | leave hat =>
    rw [inHand, hat] at horder
    exact ⟨horder, h.behind⟩
  | @pop log rest hat hlogs =>
    rw [inHand, hat, hlogs, List.append_nil] at horder
    refine ⟨horder.trans ?_, h.behind⟩
    show v.processed ++ log :: rest = v.processed ++ [log] ++ rest
    rw [List.append_assoc, List.singleton_append]
  | @consume log hat =>
    rw [inHand, hat] at horder
    refine ⟨horder.trans ?_, h.behind⟩
    show v.processed ++ [log] ++ v.logs = v.processed ++ [log] ++ [] ++ v.logs
    rw [List.append_nil]
  | begin hat | skip hat | clear hat =>
    have hbefore : v.quitting = false := by rw [quitting, hat]
    exact ⟨horder, fun _ => h.behind hbefore⟩
  | @push time threadID hat =>
    refine ⟨?_, nofun⟩
    show v.accepted ++ (v.behind ++ [quitLog time threadID]) =
      v.processed ++ v.inHand ++ (v.logs ++ [quitLog time threadID])
    rw [← List.append_assoc, horder, List.append_assoc _ v.logs]
  | join | dump => exact ⟨horder, nofun⟩

/-- Once the quit record has been pushed the flag is clear. -/
theorem Phases.stopped (h : v.Phases) (hquitting : v.quitting = true) : v.isRunning = false := by
  rw [← Bool.not_eq_true]
  intro hrunning
  rcases h.running.mp hrunning with hat | hat <;> rw [quitting, hat] at hquitting <;>
    cases hquitting

/-- The consumer goes on. -/
theorem Phases.goto (h : v.Phases) (hat : v.thread ≠ .ended) (hthread : v'.thread = .ended →
      v.isRunning = false) (hquit : v.quitting = true → v'.thread ≠ .waitPop)
    (hsame : v'.isRunning = v.isRunning ∧ v'.destruction = v.destruction) : v'.Phases := by
  obtain ⟨hrunning, hdestruction⟩ := hsame
  refine ⟨?_, fun hended => hrunning.trans (hthread hended), fun hquitting hwait => ?_,
    fun hd => ?_⟩
  · rw [hrunning, hdestruction]
    exact h.running
  · rw [quitting, hdestruction] at hquitting
    exact absurd hwait (hquit hquitting)
  · rw [hdestruction] at hd
    exact absurd (h.joined hd) hat

/-- The destructor goes on behind the store of the flag. -/
theorem Phases.cleared (hclear : v.isRunning = false)
    (hbehind : v.destruction ≠ .outside ∧ v.destruction ≠ .clear)
    (hquit : v.quitting = true → v.thread = .waitPop → v.logs ≠ [])
    (hjoined : v.destruction = .dump ∨ v.destruction = .returned → v.thread = .ended) :
    v.Phases where
  running := iff_of_false (Bool.eq_false_iff.mp hclear) fun hd => hd.elim hbehind.1 hbehind.2
  ended := fun _ => hclear
  quit := hquit
  joined := hjoined

theorem Phases.step (h : v.Phases) (hmoves : Moves opens v l v') : v'.Phases := by
  cases hmoves with
  | accept | late =>
    refine ⟨h.running, h.ended, fun _ _ => ?_, h.joined⟩
    exact List.append_ne_nil_of_right_ne_nil _ (List.cons_ne_nil _ _)
  | enter hat hrunning =>
    refine h.goto (by rw [hat]; exact nofun) nofun (fun hquitting => ?_) ⟨rfl, rfl⟩
    rw [h.stopped hquitting] at hrunning
    cases hrunning
  | leave hat hnot =>
    exact h.goto (by rw [hat]; exact nofun) (fun _ => hnot) (fun _ => nofun) ⟨rfl, rfl⟩
  | pop hat | consume hat =>
    exact h.goto (by rw [hat]; exact nofun) nofun (fun _ => nofun) ⟨rfl, rfl⟩
  | begin hat hrunning =>
    refine ⟨iff_of_true hrunning (.inr rfl), h.ended, nofun, fun hd => ?_⟩
    rcases hd with hd | hd <;> cases hd
  | skip hat hnot =>
    rw [h.running.mpr (.inl hat)] at hnot
    cases hnot
  | clear hat =>
    refine .cleared rfl ⟨nofun, nofun⟩ nofun fun hd => ?_
    rcases hd with hd | hd <;> cases hd
  | push hat =>
    have hclear : v.isRunning = false := by
      rw [← Bool.not_eq_true]
      intro hrunning
      rcases h.running.mp hrunning with hd | hd <;> rw [hat] at hd <;> cases hd
    refine .cleared hclear ⟨nofun, nofun⟩ (fun _ _ => ?_) fun hd => ?_
    · exact List.append_ne_nil_of_right_ne_nil _ (List.cons_ne_nil _ _)
    · rcases hd with hd | hd <;> cases hd
  | join hat hended =>
    refine .cleared (h.ended hended) ⟨nofun, nofun⟩ (fun _ hwait => ?_) fun _ => hended
    exact absurd (hended.symm.trans hwait) nofun
  | dump hat =>
    have hended := h.joined (.inl hat)
    refine .cleared (h.ended hended) ⟨nofun, nofun⟩ (fun _ hwait => ?_) fun _ => hended
    exact absurd (hended.symm.trans hwait) nofun

/-- Both invariants hold in every reachable state. -/
theorem flows_of_reachable {ok : RunningLogger → LoggerLabel → Prop}
    (h : (machine opens).ReachableBy ok v) : v.Fifo ∧ v.Phases := by
  refine h.invariant (I := fun v => v.Fifo ∧ v.Phases) ?_ ?_
  · rintro _ ⟨file, console, rfl⟩
    exact ⟨fifo_new file console, phases_new file console⟩
  · rintro v l v' ⟨hfifo, hphases⟩ - hstep
    have hmoves := moves_of_step hstep
    exact ⟨hfifo.step hmoves, hphases.step hmoves⟩

/-- Before the quit record all that was pushed was accepted. -/
theorem Fifo.length_accepted (h : v.Fifo) (hbefore : v.quitting = false) :
    v.accepted.length = v.processed.length + v.inHand.length + v.logs.length := by
  have horder := congrArg List.length h.order
  rw [h.behind hbefore, List.append_nil, List.length_append, List.length_append] at horder
  exact horder

/-- How many records the consumer will have been through with when it ends. -/
def reach (v : RunningLogger) : Nat := v.processed.length + v.inHand.length + v.capacity

/-- Once the flag is clear this is settled. -/
theorem reach_of_moves (h : Moves opens v l v') (hclear : v.isRunning = false) :
    v'.reach = v.reach ∧ v'.isRunning = false := by
  cases h with
  | accept | late | begin | skip | push | join | dump => exact ⟨rfl, hclear⟩
  | clear => exact ⟨rfl, rfl⟩
  | enter _ hrunning =>
    rw [hclear] at hrunning
    cases hrunning
  | leave hat | pop hat =>
    refine ⟨?_, hclear⟩
    simp only [reach, inHand, capacity, hat, List.length_nil, List.length_singleton]
  | consume hat =>
    refine ⟨?_, hclear⟩
    simp only [reach, inHand, capacity, hat, List.length_append, List.length_singleton,
      List.length_nil, Nat.add_zero]

/-- Only a record that is accepted makes more of them. -/
theorem accepted_of_moves (h : Moves opens v l v') :
    v'.accepted = v.accepted ∨ ∃ log, l = .logMessage log ∧ v.quitting = false ∧
      v'.accepted = v.accepted ++ [log] := by
  cases h with
  | @accept log hbefore => exact .inr ⟨log, rfl, hbefore, rfl⟩
  | late | enter | leave | pop | consume | begin | skip | clear | push | join | dump =>
    exact .inl rfl

/-- THE INVARIANT of the runs that meet the condition: nothing has been accepted that the consumer
will not take. -/
def Reached (v : RunningLogger) : Prop :=
  v.isRunning = false → v.accepted.length ≤ v.reach

theorem Reached.step (h : v.Reached) (hfifo : v.Fifo) (hok : v.sufficient l = true)
    (hmoves : Moves opens v l v') : v'.Reached := by
  intro hclear'
  cases hrunning : v.isRunning with
  | false =>
    rw [(reach_of_moves hmoves hrunning).1]
    have hbefore := h hrunning
    rcases accepted_of_moves hmoves with heq | ⟨log, rfl, hquitting, heq⟩
    · rw [heq]
      exact hbefore
    · have hroom : v.logs.length + 1 ≤ v.capacity := by
        simpa only [sufficient, hrunning, hquitting, Bool.false_or, decide_eq_true_eq] using hok
      have hlength := hfifo.length_accepted hquitting
      rw [heq, List.length_append, List.length_singleton, reach]
      omega
  | true =>
    cases hmoves with
    | clear hat =>
      have hroom : v.logs.length ≤ v.capacity := by
        simpa only [sufficient, hat, bne_self_eq_false, Bool.false_or, decide_eq_true_eq] using hok
      have hlength := hfifo.length_accepted (by rw [quitting, hat])
      show v.accepted.length ≤ v.processed.length + v.inHand.length + v.capacity
      omega
    | accept | late | enter | leave | pop | consume | begin | skip | push | join | dump =>
      rw [show v.isRunning = false from hclear'] at hrunning
      cases hrunning

/-- A consumer that has ended has nothing in hand and takes nothing more. -/
theorem reach_ended (hended : v.thread = .ended) : v.reach = v.processed.length := by
  simp only [reach, inHand, capacity, hended, List.length_nil, Nat.add_zero]

/-- What is in the outputs is what the loop has made of the records that it has been through with,
and in the end of the buffer. -/
theorem logger_of_reachable {ok : RunningLogger → LoggerLabel → Prop}
    (h : (machine opens).ReachableBy ok v) : ∃ file console, v.logger =
      if v.destruction = .returned then (Logger.new file console).consumeAll opens v.processed
      else v.processed.foldl (Logger.consume opens) (.new file console) := by
  refine h.invariant_with (J := fun v => v.Phases)
    (I := fun v => ∃ file console, v.logger =
      if v.destruction = .returned then (Logger.new file console).consumeAll opens v.processed
      else v.processed.foldl (Logger.consume opens) (.new file console))
    (fun _ hreachable => (flows_of_reachable hreachable).2) ?_ ?_
  · rintro _ ⟨file, console, rfl⟩
    exact ⟨file, console, rfl⟩
  · rintro v l v' hphases ⟨file, console, hlogger⟩ - hstep
    refine ⟨file, console, ?_⟩
    have hmoves := moves_of_step hstep
    cases hmoves with
    | accept | late | enter | leave | pop => exact hlogger
    | @consume log hat =>
      have hdestruction : v.destruction ≠ .returned := by
        intro heq
        rw [hphases.joined (.inr heq)] at hat
        cases hat
      rw [if_neg hdestruction] at hlogger ⊢
      rw [List.foldl_append, ← hlogger]
      rfl
    | begin hat | skip hat | clear hat | push hat | join hat =>
      rw [hat, if_neg nofun] at hlogger
      exact hlogger
    | dump hat =>
      rw [hat, if_neg nofun] at hlogger
      show v.logger.dump opens = _
      rw [hlogger, if_pos rfl]
      rfl

/-! ## The join -/

/-- The steps that the consumer has left when the flag is clear. -/
def left : LoggerPlace → Nat
  | .ended => 0
  | .loop => 1
  | .consume _ => 2
  | .waitPop => 3

/-- The steps that the destructor has left when it has cleared the flag. -/
def endLeft : LoggerEnd → Nat
  | .push => 3
  | .join => 2
  | .dump => 1
  | .outside | .clear | .returned => 0

def stepsLeft (v : RunningLogger) : Nat := left v.thread + endLeft v.destruction

/-- Is it a step of the consumer or of the destructor? -/
def ofEnd : LoggerLabel → Bool
  | .thread | .destroy _ _ => true
  | .logMessage _ => false

/-- Once the flag is clear every step of the two takes from what they have left. -/
theorem Phases.pay (h : v.Phases) (hclear : v.isRunning = false) (hmoves : Moves opens v l v') :
    v'.stepsLeft + (ofEnd l).toNat ≤ v.stepsLeft := by
  have hnot : ¬ (v.destruction = .outside ∨ v.destruction = .clear) := by
    rw [← h.running, hclear]
    exact Bool.false_ne_true
  cases hmoves with
  | accept | late => exact Nat.le_refl _
  | enter _ hrunning =>
    rw [hclear] at hrunning
    cases hrunning
  | leave hat | pop hat | consume hat =>
    simp only [stepsLeft, left, hat, ofEnd, Bool.toNat_true]
    omega
  | begin hat | skip hat => exact absurd (.inl hat) hnot
  | clear hat => exact absurd (.inr hat) hnot
  | push hat | join hat | dump hat =>
    simp only [stepsLeft, endLeft, hat, ofEnd, Bool.toNat_true]
    omega

/-- Until the destructor has returned one of the two can go on. -/
theorem Phases.progress (h : v.Phases) (hclear : v.isRunning = false)
    (hreturned : v.destruction ≠ .returned) :
    ∃ l v', ofEnd l = true ∧ v.step opens l = some v' := by
  have hnot : ¬ (v.destruction = .outside ∨ v.destruction = .clear) := by
    rw [← h.running, hclear]
    exact Bool.false_ne_true
  have hgo : ∀ l, ofEnd l = true → (v.step opens l).isSome = true →
      ∃ l v', ofEnd l = true ∧ v.step opens l = some v' :=
    fun l hl hsome => ⟨l, _, hl, (Option.some_get hsome).symm⟩
  cases hat : v.destruction with
  | outside => exact absurd (.inl hat) hnot
  | clear => exact absurd (.inr hat) hnot
  | returned => exact absurd hat hreturned
  | push | dump =>
    apply hgo (.destroy "" "") rfl
    simp only [RunningLogger.step, destroy, hat, Option.isSome_some]
  | join =>
    cases hthread : v.thread with
    | ended =>
      apply hgo (.destroy "" "") rfl
      simp only [RunningLogger.step, destroy, hat, hthread, Option.isSome_some]
    | loop | consume =>
      apply hgo .thread rfl
      simp only [RunningLogger.step, advance, hthread, Option.isSome_some]
    | waitPop =>
      have hne := h.quit (by rw [quitting, hat]) hthread
      cases hlogs : v.logs with
      | nil => exact absurd hlogs hne
      | cons log rest =>
        apply hgo .thread rfl
        simp only [RunningLogger.step, advance, hthread, hlogs, Option.isSome_some]

/-- From the clear flag on, however the threads interleave, the consumer and the destructor take no
more steps than they have left, and until the destructor has returned one of them can go on. -/
theorem Phases.returns (h : v.Phases) (hclear : v.isRunning = false) {ls : List LoggerLabel}
    (hrun : (machine opens).run v ls = some v') :
    ls.countP ofEnd ≤ v.stepsLeft ∧
      (v'.destruction ≠ .returned → ∃ l v'', ofEnd l = true ∧ v'.step opens l = some v'') := by
  have hrest := Transition.Machine.run_potential (m := machine opens)
    (I := fun v => v.Phases ∧ v.isRunning = false)
    (fun v l v' hv hstep => by
      have hmoves := moves_of_step hstep
      exact ⟨hv.1.step hmoves, (reach_of_moves hmoves hv.2).2⟩)
    (fun v l v' hv hstep => hv.1.pay hv.2 (moves_of_step hstep)) ⟨h, hclear⟩ hrun
  obtain ⟨⟨hphases, hclear'⟩, hcount⟩ := hrest
  exact ⟨Nat.le_trans (Nat.le_add_left _ _) hcount, hphases.progress hclear'⟩

/-- THE SHUTDOWN: in every run whose steps meet the condition, a consumer that has ended has been
through with every record that was pushed before the quit record, in order; and from the clear flag
on the consumer ends and the destructor returns. -/
theorem shutdown_of_reachable
    (h : (machine opens).ReachableBy (fun v l => v.sufficient l = true) v) :
    (v.thread = .ended → v.accepted <+: v.processed) ∧
    (v.destruction = .returned → v.thread = .ended) ∧
    (v.isRunning = false → ∀ ls v', (machine opens).run v ls = some v' →
      ls.countP ofEnd ≤ v.stepsLeft ∧
        (v'.destruction ≠ .returned → ∃ l v'', ofEnd l = true ∧ v'.step opens l = some v'')) := by
  obtain ⟨hfifo, hphases⟩ := flows_of_reachable h
  have hreached : v.Reached := by
    refine h.invariant_with (J := fun v => v.Fifo ∧ v.Phases)
      (fun _ hreachable => flows_of_reachable hreachable) ?_ ?_
    · rintro _ ⟨file, console, rfl⟩ hclear
      cases hclear
    · exact fun v l v' hflows hr hok hstep =>
        hr.step hflows.1 hok (moves_of_step hstep)
  refine ⟨fun hended => ?_, fun hreturned => hphases.joined (.inr hreturned),
    fun hclear ls v' hrun => hphases.returns hclear hrun⟩
  have hlength := hreached (hphases.ended hended)
  rw [reach_ended hended] at hlength
  have hprocessed : v.processed <+: v.accepted ++ v.behind := by
    rw [hfifo.order, List.append_assoc]
    exact List.prefix_append _ _
  exact List.prefix_of_prefix_length_le (List.prefix_append _ _) hprocessed hlength

/-- Two records are logged, the consumer has been through with the first and stands before `WaitPop`
when the destructor clears the flag. -/
theorem shutdown_of_reachable_two :
    ∃ v : RunningLogger, v.destruction = .returned ∧
      v.accepted = [Logger.sampleLog, Logger.sampleLog] ∧ v.thread = .ended ∧
      v.accepted <+: v.processed := by
  have hrun : ((machine true).run (new "" "")
      [.logMessage Logger.sampleLog, .logMessage Logger.sampleLog, .thread, .thread, .thread,
        .thread, .destroy "now" "0", .destroy "now" "0", .thread, .destroy "now" "0", .thread, .thread,
        .destroy "now" "0", .destroy "now" "0"]).any (fun v =>
      v.destruction = .returned ∧ v.accepted = [Logger.sampleLog, Logger.sampleLog]) = true := by
    decide
  obtain ⟨v, hrun, hv⟩ := (Option.any_eq_true _ _).mp hrun
  obtain ⟨hreturned, haccepted⟩ := of_decide_eq_true hv
  have hsound : ∀ (v : RunningLogger) (l : LoggerLabel), v.sufficient l = true →
      v.sufficient l = true := fun _ _ => id
  have hresult := shutdown_of_reachable
    (.run hsound (.start ⟨"", "", rfl⟩) (by decide) hrun)
  have hended := hresult.2.1 hreturned
  exact ⟨v, hreturned, haccepted, hended, hresult.1 hended⟩

/-- A record is in the queue, and the consumer has not come to its test when the flag is cleared. -/
theorem lost_of_clear :
    ∃ v : RunningLogger, (machine true).run (new "" "")
        [.logMessage Logger.sampleLog, .destroy "now" "0", .destroy "now" "0", .destroy "now" "0",
          .thread, .destroy "now" "0"] = some v ∧
      v.thread = .ended ∧ v.accepted = [Logger.sampleLog] ∧ v.processed = [] := by
  refine ⟨_, rfl, ?_⟩
  decide

/-! ## Where the condition fails -/

/-- A step that breaks the condition leaves a record accepted that the consumer will not take. -/
theorem short_of_breach (h : v.Fifo) (hbreach : v.sufficient l = false)
    (hmoves : Moves opens v l v') :
    v'.isRunning = false ∧ v'.reach < v'.accepted.length := by
  cases l with
  | thread => cases hbreach
  | logMessage log =>
    simp only [sufficient, Bool.or_eq_false_iff, decide_eq_false_iff_not] at hbreach
    obtain ⟨⟨hclear, hbefore⟩, hfull⟩ := hbreach
    obtain ⟨hreach, hclear'⟩ := reach_of_moves hmoves hclear
    refine ⟨hclear', ?_⟩
    have hlength := h.length_accepted hbefore
    cases hmoves with
    | late hquitting =>
      rw [hbefore] at hquitting
      cases hquitting
    | accept =>
      rw [hreach, reach, List.length_append, List.length_singleton]
      omega
  | destroy time threadID =>
    simp only [sufficient, Bool.or_eq_false_iff, bne_eq_false_iff_eq,
      decide_eq_false_iff_not] at hbreach
    obtain ⟨hat, hfull⟩ := hbreach
    have hlength := h.length_accepted (by rw [quitting, hat])
    cases hmoves with
    | clear =>
      refine ⟨rfl, ?_⟩
      show v.processed.length + v.inHand.length + v.capacity < v.accepted.length
      omega
    | begin hother | skip hother | push hother | join hother | dump hother =>
      rw [hat] at hother
      cases hother

/-- The condition is exact: from there on the consumer ends without having been through with all
that was accepted. -/
theorem short_of_steps {w : RunningLogger} (hclear : v.isRunning = false)
    (hshort : v.reach < v.accepted.length)
    (h : (machine opens).Steps (fun _ _ => True) v w) (hended : w.thread = .ended) :
    ¬ w.accepted <+: w.processed := by
  have hstays : w.isRunning = false ∧ w.reach < w.accepted.length := by
    refine h.invariant (I := fun w => w.isRunning = false ∧ w.reach < w.accepted.length) ?_
      ⟨hclear, hshort⟩
    rintro u l u' ⟨hclear, hshort⟩ - hstep
    have hmoves := moves_of_step hstep
    obtain ⟨hreach, hclear'⟩ := reach_of_moves hmoves hclear
    refine ⟨hclear', ?_⟩
    rw [hreach]
    rcases accepted_of_moves hmoves with heq | ⟨log, -, -, heq⟩
    · rwa [heq]
    · rw [heq, List.length_append]
      exact Nat.lt_add_right _ hshort
  intro hbegin
  have hlength := hbegin.length_le
  rw [← reach_ended hended] at hlength
  exact absurd hstays.2 (Nat.not_lt.mpr hlength)

end RunningLogger

end DSFramework.DSCommunication
