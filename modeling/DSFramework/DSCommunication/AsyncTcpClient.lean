import DSFramework.Lib.Machine

/-!
# The client's thread

`Connect` assigns a new thread to `m_clientThread` without looking at the old one, and the
destructor takes `m_running`, which the new thread sets itself, for the question whether there is
one to join. Assigning to a joinable `std::thread`, or destroying one, calls `std::terminate`.

`settled` is the condition under which this does not happen: a `Connect` succeeds only when the one
before has been followed by a `Disconnect`, and so is the last one before the destruction, unless
`m_running` is set by then. `terminate_of_reconnect` and `terminate_of_destroy` show that nothing
weaker will do.
-/

namespace DSFramework.DSCommunication

/-- Where the client thread is. -/
inductive ClientThread where
  /-- Before `m_running = true`. -/
  | created
  /-- In `m_ioc.run()`. -/
  | running
  /-- In a completion handler that `run` has called. -/
  | handling (error : Bool)
  | ended
  deriving DecidableEq, Repr

/-- What the thread that uses the client stands before. -/
inductive ClientCaller where
  | idle
  /-- `m_session->Start()`, behind a `connect` without an error. -/
  | start
  /-- The assignment to `m_clientThread`. -/
  | assign
  /-- In `Disconnect`: `m_running = false`, `Close`, `stop` and `join`. -/
  | clear (destroying : Bool)
  | close (destroying : Bool)
  | stop (destroying : Bool)
  | join (destroying : Bool)
  /-- The destruction of the members. -/
  | members
  | gone
  deriving DecidableEq, Repr

/-- A client with the two threads that use it. `clientThread` is `none` when the thread object is
not joinable, `reading` says that a read of the session is outstanding, and `outstanding` is
history: a `Connect` has succeeded and no `Disconnect` has returned since. -/
structure AsyncTcpClient where
  clientThread : Option ClientThread
  running : Bool
  connected : Bool
  reading : Bool
  stopped : Bool
  caller : ClientCaller
  outstanding : Bool
  terminated : Bool
  deriving DecidableEq, Repr

/-- What may happen next. -/
inductive ClientLabel where
  /-- The caller calls `Connect`, and the socket's `connect` gives an error or not. -/
  | connect (error : Bool)
  | disconnect
  | destroy
  /-- `Session::Start`, which may catch an exception. -/
  | start (caught : Bool)
  /-- Any other next step of the caller. -/
  | caller
  | thread
  /-- The outstanding read completes: with data, or with an error, because the server has closed the
  connection or `Close` has cancelled the read. -/
  | read (error : Bool)
  deriving DecidableEq, Repr

namespace AsyncTcpClient

variable {v v' : AsyncTcpClient} {l : ClientLabel}

/-- `AsyncTcpClient::AsyncTcpClient`. -/
def new : AsyncTcpClient :=
  { clientThread := none
    running := false
    connected := false
    reading := false
    stopped := false
    caller := .idle
    outstanding := false
    terminated := false }

/-- `Connect` as far as its test of `error`. A connected socket gives an error; a closed one may be
connected again. -/
def connect (v : AsyncTcpClient) (error : Bool) : Option AsyncTcpClient :=
  match v.caller with
  | .idle =>
    if error then some v
    else if v.connected then none
    else some { v with connected := true, outstanding := true, caller := .start }
  | _ => none

/-- `~AsyncTcpClient` as far as its test of `m_running`. -/
def destroy (v : AsyncTcpClient) : Option AsyncTcpClient :=
  match v.caller with
  | .idle => some { v with caller := if v.running then .clear true else .members }
  | _ => none

/-- `Session::Start`: the first read, and `Close` when an exception is caught. -/
def start (v : AsyncTcpClient) (caught : Bool) : Option AsyncTcpClient :=
  match v.caller with
  | .start => some { v with reading := true, connected := !caught, caller := .assign }
  | _ => none

/-- The end of `Disconnect`, called by the destructor or not. -/
def disconnected (v : AsyncTcpClient) (destroying : Bool) : AsyncTcpClient :=
  { v with
    clientThread := none
    outstanding := false
    caller := if destroying then .members else .idle }

/-- The caller's next step. -/
def proceed (v : AsyncTcpClient) : Option AsyncTcpClient :=
  match v.caller with
  | .assign => some (if v.clientThread.isSome then { v with terminated := true }
      else { v with clientThread := some .created, caller := .idle })
  | .clear destroying => some { v with running := false, caller := .close destroying }
  | .close destroying => some { v with connected := false, caller := .stop destroying }
  | .stop destroying => some { v with stopped := true, caller := .join destroying }
  | .join destroying => match v.clientThread with
    | none | some .ended => some (v.disconnected destroying)
    | _ => none
  | .members => some (if v.clientThread.isSome then { v with terminated := true }
      else { v with caller := .gone })
  | .idle | .start | .gone => none

/-- The client thread's next step. `run` returns when the context is stopped or has no work left,
which stops it. The work is the outstanding read. The completions of writes, which `run` calls too,
are left out: they neither set `m_running` nor touch the thread object, and where no read is
outstanding the connection has been closed, which cancels them. -/
def advance (v : AsyncTcpClient) : Option AsyncTcpClient :=
  match v.clientThread with
  | some .created => some { v with running := true, clientThread := some .running }
  | some .running =>
    if v.stopped || !v.reading then some { v with stopped := true, clientThread := some .ended }
    else none
  | some (.handling error) =>
    some (if error then { v with connected := false, clientThread := some .running }
      else { v with reading := true, clientThread := some .running })
  | some .ended | none => none

/-- `run` takes the completion of the outstanding read. -/
def read (v : AsyncTcpClient) (error : Bool) : Option AsyncTcpClient :=
  match v.clientThread with
  | some .running =>
    if v.reading && !v.stopped then
      some { v with reading := false, clientThread := some (.handling error) }
    else none
  | _ => none

/-- One step, in a process that has not been terminated. -/
def step (v : AsyncTcpClient) (l : ClientLabel) : Option AsyncTcpClient :=
  if v.terminated then none
  else match l with
    | .connect error => v.connect error
    | .disconnect => match v.caller with
      | .idle => some { v with caller := .clear false }
      | _ => none
    | .destroy => v.destroy
    | .start caught => v.start caught
    | .caller => v.proceed
    | .thread => v.advance
    | .read error => v.read error

/-- A client as a machine. -/
def machine : Transition.Machine AsyncTcpClient ClientLabel where
  init v := v = new
  step := step

/-- The condition: a `Connect` succeeds, and a client whose `m_running` is not set is destroyed,
only when every `Connect` that has succeeded has been followed by a `Disconnect`. -/
def settled (v : AsyncTcpClient) : ClientLabel → Bool
  | .connect error => error || !v.outstanding
  | .destroy => v.running || !v.outstanding
  | _ => true

/-- Is there a thread to join? Not between a `connect` without an error and the assignment, and not
from the destruction of the members on. -/
def owed (v : AsyncTcpClient) : Bool :=
  match v.caller with
  | .start | .assign | .members | .gone => false
  | _ => v.outstanding

/-- THE INVARIANT of the runs that meet the condition. -/
structure Joinable (v : AsyncTcpClient) : Prop where
  owed : v.clientThread.isSome = v.owed
  connecting : v.caller = .start ∨ v.caller = .assign → v.outstanding = true
  alive : v.terminated = false

theorem joinable_new : new.Joinable where
  owed := rfl
  connecting := fun hc => by rcases hc with hc | hc <;> cases hc
  alive := rfl

/-- What a step of the client thread leaves alone. -/
structure Same (v v' : AsyncTcpClient) : Prop where
  clientThread : v'.clientThread.isSome = v.clientThread.isSome
  caller : v'.caller = v.caller
  outstanding : v'.outstanding = v.outstanding
  terminated : v'.terminated = v.terminated

theorem advance_same (h : v.advance = some v') : Same v v' := by
  unfold advance at h
  split at h
  case h_1 hat => cases h; exact ⟨by rw [hat]; rfl, rfl, rfl, rfl⟩
  case h_2 hat =>
    split at h
    case isTrue => cases h; exact ⟨by rw [hat]; rfl, rfl, rfl, rfl⟩
    case isFalse => cases h
  case h_3 hat => cases h; split <;> exact ⟨by rw [hat]; rfl, rfl, rfl, rfl⟩
  case h_4 => cases h
  case h_5 => cases h

theorem read_same {error : Bool} (h : v.read error = some v') : Same v v' := by
  unfold read at h
  split at h
  case h_1 hat =>
    split at h
    case isTrue => cases h; exact ⟨by rw [hat]; rfl, rfl, rfl, rfl⟩
    case isFalse => cases h
  case h_2 => cases h

theorem Joinable.same (h : v.Joinable) (hsame : Same v v') : v'.Joinable where
  owed := by
    rw [hsame.clientThread, h.owed]
    unfold AsyncTcpClient.owed
    rw [hsame.caller, hsame.outstanding]
  connecting := fun hc => by
    rw [hsame.caller] at hc
    exact hsame.outstanding.trans (h.connecting hc)
  alive := hsame.terminated.trans h.alive

/-- The caller goes on to a place that owes what the one before did. -/
theorem Joinable.goto (h : v.Joinable) (hthread : v'.clientThread = v.clientThread)
    (howed : v'.owed = v.owed) (halive : v'.terminated = v.terminated)
    (hconnecting : v'.caller = .start ∨ v'.caller = .assign → v'.outstanding = true) :
    v'.Joinable where
  owed := by rw [hthread, h.owed, howed]
  connecting := hconnecting
  alive := halive.trans h.alive

/-- The caller goes on to a place outside of `Connect`. -/
theorem Joinable.away (h : v.Joinable) (hthread : v'.clientThread = v.clientThread)
    (howed : v'.owed = v.owed) (halive : v'.terminated = v.terminated)
    (hcaller : v'.caller ≠ .start ∧ v'.caller ≠ .assign) : v'.Joinable :=
  h.goto hthread howed halive fun hc => absurd hc (not_or.mpr hcaller)

/-- An idle caller is owed a thread exactly when a `Connect` is outstanding. -/
theorem owed_idle (hat : v.caller = .idle) : v.owed = v.outstanding := by
  unfold owed
  rw [hat]

theorem Joinable.connect {error : Bool} (h : v.Joinable) (hok : v.settled (.connect error) = true)
    (hstep : v.connect error = some v') : v'.Joinable := by
  unfold AsyncTcpClient.connect at hstep
  split at hstep
  case h_1 hat =>
    split at hstep
    case isTrue => cases hstep; exact h
    case isFalse herror =>
      split at hstep
      case isTrue => cases hstep
      case isFalse =>
        cases hstep
        have hnone : v.outstanding = false := by
          simpa only [settled, herror, Bool.false_or, Bool.not_eq_true'] using hok
        refine h.goto rfl ?_ rfl fun _ => rfl
        rw [owed_idle hat, hnone]
        rfl
  case h_2 => cases hstep

theorem Joinable.destroy (h : v.Joinable) (hok : v.settled .destroy = true)
    (hstep : v.destroy = some v') : v'.Joinable := by
  unfold AsyncTcpClient.destroy at hstep
  split at hstep
  case h_1 hat =>
    cases hstep
    cases hrunning : v.running with
    | true =>
      refine h.away rfl ?_ rfl ⟨nofun, nofun⟩
      rw [owed_idle hat]
      rfl
    | false =>
      have hnone : v.outstanding = false := by
        simpa only [settled, hrunning, Bool.false_or, Bool.not_eq_true'] using hok
      refine h.away rfl ?_ rfl ⟨nofun, nofun⟩
      rw [owed_idle hat, hnone]
      rfl
  case h_2 => cases hstep

theorem Joinable.start {caught : Bool} (h : v.Joinable) (hstep : v.start caught = some v') :
    v'.Joinable := by
  unfold AsyncTcpClient.start at hstep
  split at hstep
  case h_1 hat =>
    cases hstep
    refine h.goto rfl ?_ rfl (fun _ => h.connecting (.inl hat))
    unfold AsyncTcpClient.owed
    rw [hat]
  case h_2 => cases hstep

/-- The caller assigns to and destroys the thread object only where none is owed. -/
theorem Joinable.proceed (h : v.Joinable) (hstep : v.proceed = some v') : v'.Joinable := by
  have howed := h.owed
  unfold AsyncTcpClient.owed at howed
  unfold AsyncTcpClient.proceed at hstep
  split at hstep
  case h_1 hat =>
    have hnone : v.clientThread.isSome = false := by rw [howed, hat]
    simp only [hnone, Bool.false_eq_true, if_false] at hstep
    cases hstep
    refine ⟨(h.connecting (.inr hat)).symm, fun hc => ?_, h.alive⟩
    rcases hc with hc | hc <;> cases hc
  case h_2 hat | h_3 hat | h_4 hat =>
    cases hstep
    refine h.away rfl ?_ rfl ⟨nofun, nofun⟩
    unfold AsyncTcpClient.owed
    rw [hat]
  case h_5 destroying hat =>
    have hdone : (v.disconnected destroying).Joinable := by
      cases destroying <;>
        exact ⟨rfl, (fun hc => by rcases hc with hc | hc <;> cases hc), h.alive⟩
    split at hstep
    case h_1 => cases hstep; exact hdone
    case h_2 => cases hstep; exact hdone
    case h_3 => cases hstep
  case h_6 hat =>
    have hnone : v.clientThread.isSome = false := by rw [howed, hat]
    simp only [hnone, Bool.false_eq_true, if_false] at hstep
    cases hstep
    refine h.away rfl ?_ rfl ⟨nofun, nofun⟩
    unfold AsyncTcpClient.owed
    rw [hat]
  case h_7 => cases hstep
  case h_8 => cases hstep
  case h_9 => cases hstep

theorem Joinable.step (h : v.Joinable) (hok : v.settled l = true) (hstep : v.step l = some v') :
    v'.Joinable := by
  unfold AsyncTcpClient.step at hstep
  split at hstep
  case isTrue => cases hstep
  case isFalse =>
    cases l with
    | connect error => exact h.connect hok hstep
    | disconnect =>
      dsimp only at hstep
      split at hstep
      case h_1 hat =>
        cases hstep
        refine h.away rfl ?_ rfl ⟨nofun, nofun⟩
        rw [owed_idle hat]
        rfl
      case h_2 => cases hstep
    | destroy => exact h.destroy hok hstep
    | start caught => exact h.start hstep
    | caller => exact h.proceed hstep
    | thread => exact h.same (advance_same hstep)
    | read error => exact h.same (read_same hstep)

theorem joinable_of_reachable (h : machine.ReachableBy (fun v l => v.settled l = true) v) :
    v.Joinable := by
  refine Transition.Machine.ReachableBy.invariant ?_ ?_ h
  · rintro _ rfl
    exact joinable_new
  · intro v l v' hjoinable hok hstep
    exact hjoinable.step hok hstep

/-- NO TERMINATION: in every run whose steps meet the condition, the thread object is not joinable
where it is assigned to or destroyed, and `std::terminate` is not called. -/
theorem joinable_thread_of_reachable
    (h : machine.ReachableBy (fun v l => v.settled l = true) v) :
    (v.caller = .assign ∨ v.caller = .members → v.clientThread = none) ∧
      v.terminated = false := by
  have hjoinable := joinable_of_reachable h
  refine ⟨fun hc => ?_, hjoinable.alive⟩
  have howed := hjoinable.owed
  unfold owed at howed
  rcases hc with hc | hc <;> rw [hc] at howed <;>
    exact Option.not_isSome_iff_eq_none.mp (howed ▸ Bool.false_ne_true)

/-- A client connects, disconnects, connects again and is destroyed, its second thread being at
work. -/
theorem joinable_thread_of_reachable_again :
    ∃ v : AsyncTcpClient, v.caller = .gone ∧
      ((v.caller = .assign ∨ v.caller = .members → v.clientThread = none) ∧
        v.terminated = false) := by
  have hrun : machine.run new
      [.connect true, .connect false, .start false, .caller, .thread, .disconnect, .caller, .caller,
        .caller, .thread, .caller, .connect false, .start false, .caller, .thread, .destroy,
        .caller, .caller, .caller, .thread, .caller, .caller] =
      some { new with
        reading := true
        stopped := true
        caller := .gone } := by decide
  have hsound : ∀ (v : AsyncTcpClient) (l : ClientLabel), v.settled l = true → v.settled l = true :=
    fun _ _ => id
  exact ⟨_, rfl, joinable_thread_of_reachable (.run hsound (.start rfl) (by decide) hrun)⟩

/-- A client that connects again after the server has closed the connection ends the process. -/
theorem terminated_of_closed :
    ∃ v : AsyncTcpClient, machine.run new
        [.connect false, .start false, .caller, .thread, .read true, .thread, .thread,
          .connect false, .start false, .caller] = some v ∧
      v.clientThread = some .ended ∧ v.terminated = true := by
  refine ⟨_, rfl, ?_⟩
  decide

/-- The condition is exact: a client whose thread can be joined ends the process when it connects
without an error. -/
theorem terminate_of_reconnect (hat : v.caller = .idle) (hgoes : v.terminated = false)
    (hclosed : v.connected = false) (hthread : v.clientThread.isSome = true) (caught : Bool) :
    ∃ w, machine.run v [.connect false, .start caught, .caller] = some w ∧
      w.terminated = true := by
  let connecting : AsyncTcpClient :=
    { v with connected := true, outstanding := true, caller := .start }
  let started : AsyncTcpClient :=
    { connecting with reading := true, connected := !caught, caller := .assign }
  have hconnect : machine.step v (.connect false) = some connecting := by
    simp only [machine, step, connect, hat, hgoes, hclosed, Bool.false_eq_true, if_false,
      connecting]
  have hstart : machine.step connecting (.start caught) = some started := by
    simp only [machine, step, start, hgoes, Bool.false_eq_true, if_false, connecting, started]
  have hassign : machine.step started .caller = some { started with terminated := true } := by
    simp only [machine, step, proceed, hgoes, Bool.false_eq_true, if_false, hthread, if_true,
      connecting, started]
  refine ⟨{ started with terminated := true }, ?_, rfl⟩
  simp only [Transition.Machine.run, hconnect, hstart, hassign, Option.bind_some]

/-- It does so, too, when it is destroyed before the thread has set `m_running`. -/
theorem terminate_of_destroy (hat : v.caller = .idle) (hgoes : v.terminated = false)
    (hrunning : v.running = false) (hthread : v.clientThread.isSome = true) :
    ∃ w, machine.run v [.destroy, .caller] = some w ∧ w.terminated = true := by
  let destroying : AsyncTcpClient := { v with caller := .members }
  have hdestroy : machine.step v .destroy = some destroying := by
    simp only [machine, step, destroy, hat, hgoes, hrunning, Bool.false_eq_true, if_false,
      destroying]
  have hmembers : machine.step destroying .caller =
      some { destroying with terminated := true } := by
    simp only [machine, step, proceed, hgoes, Bool.false_eq_true, if_false, hthread, if_true,
      destroying]
  refine ⟨{ destroying with terminated := true }, ?_, rfl⟩
  simp only [Transition.Machine.run, hdestroy, hmembers, Option.bind_some]

end AsyncTcpClient

end DSFramework.DSCommunication
