import DSFramework.DSCommunication.ConAcceptor

/-!
# The life of a server

`Start` waits for `SIGINT` and `SIGTERM`, runs the acceptor's context on a new thread and joins it.
The context always has an accept outstanding, so `run` returns only when the handler of the signals
has stopped the context; nobody restarts it. A second `Start` sets `m_running` once more, comes back
at once and accepts nothing. The destructor then takes `m_running` for a thread to join, and `join`
throws where there is none.

The sessions are those of `ConAcceptor`, whose acceptor is the thread of `Start`. Their own threads
belong to `IOServicePool`; neither `Start` nor the destructor waits for them.
-/

namespace DSFramework.DSCommunication

/-- Where the thread of `Start` is. Whether `run` is in a handler is in `Server.handling`. -/
inductive AcceptorThread where
  /-- Before `m_running = true`. -/
  | created
  /-- In `m_ioc.run()`. -/
  | running
  | ended
  deriving DecidableEq, Repr

/-- What the thread that uses the server stands before. -/
inductive AsyncTcpServerCaller where
  | idle
  /-- In `Start`: `async_wait`, the assignment to `m_serverThread`, its `join` and the destruction of
  `signals`. -/
  | wait
  | assign
  | join (destroying : Bool)
  | signals
  /-- In the destructor: `m_ioc.stop()`, and the destruction of the members. -/
  | stop
  | members
  | gone
  deriving DecidableEq, Repr

/-- A server with the threads that use it. `serverThread` is `none` when the thread object is not
joinable, `waiting` says that the wait for the signals is outstanding, and `cancelled` counts the
handlers of waits that ended with their `signals`. `returns` and `signalled` are histories: how often
`Start` has returned, and whether the handler has been called for a signal. -/
structure AsyncTcpServer where
  server : Server
  serverThread : Option AcceptorThread
  running : Bool
  stopped : Bool
  waiting : Bool
  cancelled : Nat
  caller : AsyncTcpServerCaller
  returns : Nat
  signalled : Bool
  terminated : Bool
  deriving DecidableEq, Repr

/-- What may happen next. -/
inductive AsyncTcpServerLabel where
  | start
  | destroy
  /-- The caller's next step, in `Start` or in the destructor. -/
  | caller
  | thread
  /-- `run` calls the handler of the signals, for a signal or for a wait that was cancelled. -/
  | signal (cancelled : Bool)
  /-- The acceptor and the sessions go on. -/
  | serve (l : ServerLabel)
  deriving DecidableEq, Repr

namespace Server

variable {e : Endian} {v v' : Server} {l : ServerLabel}

/-- Only the completion of an accept takes the acceptor into a handler. -/
theorem handling_of_moves (h : Moves e v l v') (hsome : v'.handling.isSome = true) :
    v.handling.isSome = true ∨ ∃ success, l = .accept success := by
  cases h with
  | @accept success => exact .inr ⟨success, rfl⟩
  | startAccept => cases hsome
  | @advance thread throws s op rest ops hprogram =>
    cases thread with
    | acceptor =>
      obtain ⟨ops₀, hops₀, -⟩ := Option.map_eq_some_iff.mp hprogram
      exact .inl (hops₀ ▸ rfl)
    | io r | other t => exact .inl hsome
  | @escape thread =>
    cases thread with
    | acceptor | io r | other t => exact .inl hsome
  | change | callClose => exact .inl hsome

/-- The acceptor's part of a server: the session that waits for a connection, and how many there
are. -/
structure SameAcceptor (v v' : Server) : Prop where
  accepting : v'.accepting = v.accepting
  length : v'.created.length = v.created.length

/-- Where the acceptor is in no handler and no accept completes, its part stays as it is. -/
theorem sameAcceptor_of_moves (h : Moves e v l v') (hnone : v.handling = none)
    (hl : ∀ success, l ≠ .accept success) : SameAcceptor v v' := by
  cases h with
  | @accept success => exact absurd rfl (hl success)
  | startAccept hdone =>
    rw [hnone] at hdone
    cases hdone
  | @advance thread throws s op rest ops hprogram =>
    refine ⟨?_, by rw [created_resume, List.length_modify]⟩
    cases thread with
    | acceptor | io r | other t => rfl
  | @escape thread =>
    refine ⟨?_, by rw [created_escape, List.length_modify]⟩
    cases thread with
    | acceptor | io r | other t => rfl
  | change => exact ⟨rfl, List.length_modify _ _ _⟩
  | callClose => exact ⟨rfl, rfl⟩

end Server

namespace AsyncTcpServerCaller

/-- Is this neither the `join` of `Start` nor what comes right behind it? -/
def outside : AsyncTcpServerCaller → Bool
  | .join false | .signals => false
  | _ => true

/-- What the destructor's places say of how often `Start` has returned. -/
def after : AsyncTcpServerCaller → Nat → Prop
  | .stop, returns | .join true, returns => 2 ≤ returns
  | .members, returns | .gone, returns => returns ≤ 1
  | _, _ => True

end AsyncTcpServerCaller

namespace AsyncTcpServer

variable {e : Endian} {v v' : AsyncTcpServer} {l : AsyncTcpServerLabel}

/-- `AsyncTcpServer::AsyncTcpServer`, in a process with so many other threads. -/
def new (maxSessionCount others : Nat) : AsyncTcpServer :=
  { server := .new maxSessionCount others
    serverThread := none
    running := false
    stopped := false
    waiting := false
    cancelled := 0
    caller := .idle
    returns := 0
    signalled := false
    terminated := false }

/-- `~AsyncTcpServer` as far as its test of `m_running`. -/
def destroy (v : AsyncTcpServer) : Option AsyncTcpServer :=
  match v.caller with
  | .idle => some { v with caller := if v.running then .stop else .members }
  | _ => none

/-- The end of `Start`: the destruction of `signals` cancels a wait that is outstanding. -/
def returned (v : AsyncTcpServer) : AsyncTcpServer :=
  { v with
    waiting := false
    cancelled := v.cancelled + v.waiting.toNat
    returns := v.returns + 1
    caller := .idle }

/-- The caller's next step. An exception of `join` is caught in `Start` and leaves the destructor. -/
def proceed (v : AsyncTcpServer) : Option AsyncTcpServer :=
  match v.caller with
  | .wait => some { v with waiting := true, caller := .assign }
  | .assign => some (if v.serverThread.isSome then { v with terminated := true }
      else { v with serverThread := some .created, caller := .join false })
  | .join destroying => match v.serverThread with
    | some .ended => some { v with
        serverThread := none
        caller := if destroying then .members else .signals }
    | none => some (if destroying then { v with terminated := true }
        else { v with caller := .signals })
    | some .created | some .running => none
  | .signals => some v.returned
  | .stop => some { v with stopped := true, caller := .join true }
  | .members => some (if v.serverThread.isSome then { v with terminated := true }
      else { v with caller := .gone })
  | .idle | .gone => none

/-- The next step of the thread of `Start`. There is an accept outstanding whenever `run` is not in
`HandleAccept`, so it returns only from a context that is stopped. -/
def advance (v : AsyncTcpServer) : Option AsyncTcpServer :=
  match v.serverThread with
  | some .created => some { v with running := true, serverThread := some .running }
  | some .running => if v.stopped && v.server.handling.isNone then
      some { v with serverThread := some .ended }
    else none
  | some .ended | none => none

/-- May `run` call the handler of the signals? -/
def mayHandle (v : AsyncTcpServer) (cancelled : Bool) : Bool :=
  v.serverThread == some .running && !v.stopped && v.server.handling.isNone &&
    if cancelled then decide (0 < v.cancelled) else v.waiting

/-- The handler that `Start` gives to `async_wait`. -/
def handleSignal (v : AsyncTcpServer) (cancelled : Bool) : AsyncTcpServer :=
  { v with
    running := false
    stopped := true
    waiting := v.waiting && cancelled
    cancelled := v.cancelled - cancelled.toNat
    signalled := v.signalled || !cancelled }

/-- Does the thread of `Start` carry on where the sessions' side would have it? -/
def carries (v : AsyncTcpServer) : ServerLabel → Bool
  | .accept _ => v.serverThread == some .running && !v.stopped
  | .startAccept | .advance .acceptor _ => v.serverThread == some .running
  | _ => true

/-- One step, in a process that has not been terminated. -/
def step (e : Endian) (v : AsyncTcpServer) (l : AsyncTcpServerLabel) : Option AsyncTcpServer :=
  if v.terminated || v.server.terminated then none
  else match l with
    | .start => match v.caller with
      | .idle => some { v with caller := .wait }
      | _ => none
    | .destroy => v.destroy
    | .caller => v.proceed
    | .thread => v.advance
    | .signal cancelled => if v.mayHandle cancelled then some (v.handleSignal cancelled) else none
    | .serve l => if v.carries l then (v.server.step e l).map fun s => { v with server := s }
      else none

/-- A server as a machine: any limit, any number of other threads. -/
def machine (e : Endian) : Transition.Machine AsyncTcpServer AsyncTcpServerLabel where
  init v := ∃ maxSessionCount others, v = new maxSessionCount others
  step := step e

/-- Has a thread of a `Start` that has not returned set `m_running`? -/
def entered (v : AsyncTcpServer) : Bool :=
  match v.serverThread with
  | some .running | some .ended => true
  | some .created => false
  | none => v.caller == .signals

/-- How often `m_running` has been set. -/
def entries (v : AsyncTcpServer) : Nat := v.returns + v.entered.toNat

/-- THE INVARIANT. -/
structure Living (e : Endian) (v : AsyncTcpServer) : Prop where
  served : (Server.machine e).Reachable v.server
  thread : v.serverThread.isSome = decide (v.caller = .join false)
  handling : v.server.handling.isSome = true → v.serverThread = some .running ∧ v.stopped = false
  stopped : v.stopped = v.signalled
  ended : v.serverThread = some .ended ∨ v.caller = .signals → v.signalled = true
  early : v.signalled = false → v.returns = 0 ∧ v.cancelled = 0 ∧ v.running = v.entered
  late : v.signalled = true → 1 ≤ v.entries ∧ v.running = decide (2 ≤ v.entries)
  leaving : v.caller = .stop ∨ v.caller = .join true → 2 ≤ v.returns
  gone : v.caller = .members ∨ v.caller = .gone → v.returns ≤ 1
  terminated : v.terminated = true → v.caller = .join true

theorem living_new (maxSessionCount others : Nat) :
    (new maxSessionCount others).Living e where
  served := .start ⟨maxSessionCount, others, rfl⟩
  thread := rfl
  handling := fun h => Bool.noConfusion h
  stopped := rfl
  ended h := by rcases h with h | h <;> cases h
  early _ := ⟨rfl, rfl, rfl⟩
  late h := Bool.noConfusion h
  leaving h := by rcases h with h | h <;> cases h
  gone h := by rcases h with h | h <;> cases h
  terminated h := Bool.noConfusion h

/-- Where there is no thread, nothing of a `Start` is under way, but for its end. -/
theorem entered_eq (hnone : v.serverThread = none) (hcaller : v.caller ≠ .signals) :
    v.entered = false := by
  rw [entered, hnone]
  exact beq_eq_false_iff_ne.mpr hcaller

/-- There is no thread but while the caller joins it. -/
theorem Living.no_thread (h : v.Living e) (hcaller : v.caller ≠ .join false) :
    v.serverThread = none := by
  have hthread := h.thread
  rw [decide_eq_false hcaller] at hthread
  exact Option.not_isSome_iff_eq_none.mp (hthread ▸ Bool.false_ne_true)

/-- Where there is a thread, the caller is in the `join` of `Start`. -/
theorem Living.joining (h : v.Living e) (hsome : v.serverThread.isSome = true) :
    v.caller = .join false :=
  of_decide_eq_true (h.thread.symm.trans hsome)

theorem ne_of_outside {caller : AsyncTcpServerCaller} (h : caller.outside = true) :
    caller ≠ .join false ∧ caller ≠ .signals := by
  constructor <;> rintro rfl <;> cases h

/-- The caller moves, outside of what a thread of `Start` has to do with. -/
theorem Living.goto (h : v.Living e) (hgoes : v.terminated = false)
    (hfrom : v.caller.outside = true) (caller : AsyncTcpServerCaller) (waiting : Bool)
    {stopped : Bool} (hstopped : stopped = v.stopped) (hto : caller.outside = true)
    (hafter : caller.after v.returns) :
    Living e { v with waiting := waiting, stopped := stopped, caller := caller } := by
  subst hstopped
  have hnone := h.no_thread (ne_of_outside hfrom).1
  have hbefore : v.entered = false := entered_eq hnone (ne_of_outside hfrom).2
  have hthere : entered { v with waiting := waiting, caller := caller } = false :=
    entered_eq hnone (ne_of_outside hto).2
  have hentries : entries { v with waiting := waiting, caller := caller } = v.entries := by
    rw [entries, entries, hbefore, hthere]
  constructor
  · exact h.served
  · rw [hnone, decide_eq_false (ne_of_outside hto).1]
    rfl
  · exact h.handling
  · exact h.stopped
  · rintro (hended | hsignals)
    · exact h.ended (.inl hended)
    · exact absurd hsignals (ne_of_outside hto).2
  · intro hsignalled
    obtain ⟨hreturns, hcancelled, hrunning⟩ := h.early hsignalled
    exact ⟨hreturns, hcancelled, hrunning.trans (hbefore.trans hthere.symm)⟩
  · rw [hentries]
    exact h.late
  · rintro (rfl | rfl) <;> exact hafter
  · rintro (rfl | rfl) <;> exact hafter
  · exact fun hterminated => absurd (hgoes.symm.trans hterminated) Bool.false_ne_true

/-- While the caller is in neither function, `m_running` is set where `Start` has returned more than
once. -/
theorem Living.running_eq (h : v.Living e) (hidle : v.caller = .idle) :
    v.running = decide (2 ≤ v.returns) := by
  have hfrom : v.caller.outside = true := by
    rw [hidle]
    rfl
  have hentered := entered_eq (h.no_thread (ne_of_outside hfrom).1) (ne_of_outside hfrom).2
  have hentries : v.entries = v.returns := by
    rw [entries, hentered]
    rfl
  cases hsignalled : v.signalled with
  | true => rw [← hentries]; exact (h.late hsignalled).2
  | false =>
    obtain ⟨hreturns, -, hrunning⟩ := h.early hsignalled
    rw [hrunning, hentered, hreturns]
    rfl

theorem Living.destroy (h : v.Living e) (hgoes : v.terminated = false)
    (hstep : v.destroy = some v') : v'.Living e := by
  unfold AsyncTcpServer.destroy at hstep
  split at hstep
  case h_1 hidle =>
    cases hstep
    have hfrom : v.caller.outside = true := by
      rw [hidle]
      rfl
    have hreturns := h.running_eq hidle
    by_cases hrunning : v.running = true
    · have htwice := of_decide_eq_true (hreturns.symm.trans hrunning)
      rw [if_pos hrunning]
      exact h.goto hgoes hfrom .stop v.waiting rfl rfl htwice
    · have honce := of_decide_eq_false (hreturns.symm.trans (eq_false_of_ne_true hrunning))
      rw [if_neg hrunning]
      exact h.goto hgoes hfrom .members v.waiting rfl rfl (Nat.le_of_not_lt honce)
  case h_2 => cases hstep

/-- The thread of `Start` moves, or comes or goes, while the caller is in `Start`. -/
theorem Living.hand (h : v.Living e) (hgoes : v.terminated = false)
    {serverThread : Option AcceptorThread} {caller : AsyncTcpServerCaller}
    (hthread : serverThread.isSome = decide (caller = .join false))
    (hhandling : v.server.handling.isSome = true → serverThread = some .running)
    (hended : serverThread = some .ended ∨ caller = .signals → v.signalled = true)
    (hentered : entered { v with serverThread := serverThread, caller := caller } = v.entered)
    (hcaller : caller = .join false ∨ caller = .signals) :
    Living e { v with serverThread := serverThread, caller := caller } := by
  have hentries : entries { v with serverThread := serverThread, caller := caller } =
      v.entries := by
    rw [entries, entries, hentered]
  constructor
  · exact h.served
  · exact hthread
  · exact fun hsome => ⟨hhandling hsome, (h.handling hsome).2⟩
  · exact h.stopped
  · exact hended
  · rw [hentered]
    exact h.early
  · rw [hentries]
    exact h.late
  · rintro (hc | hc) <;> obtain rfl | rfl := hcaller <;> cases hc
  · rintro (hc | hc) <;> obtain rfl | rfl := hcaller <;> cases hc
  · exact fun hterminated => absurd (hgoes.symm.trans hterminated) Bool.false_ne_true

/-- Nobody is in a handler of a context that is stopped. -/
theorem Living.silent (h : v.Living e) (hsignalled : v.signalled = true) :
    v.server.handling = none := by
  refine Option.not_isSome_iff_eq_none.mp fun hsome => ?_
  have hstopped := (h.handling hsome).2
  rw [h.stopped, hsignalled] at hstopped
  cases hstopped

theorem Living.proceed (h : v.Living e) (hgoes : v.terminated = false)
    (hstep : v.proceed = some v') : v'.Living e := by
  unfold AsyncTcpServer.proceed at hstep
  split at hstep
  case h_1 hat =>
    cases hstep
    exact h.goto hgoes (by rw [hat]; rfl) .assign true rfl rfl trivial
  case h_2 hat =>
    have hnone := h.no_thread (by rw [hat]; exact AsyncTcpServerCaller.noConfusion)
    rw [hnone, if_neg (by decide)] at hstep
    cases hstep
    refine h.hand hgoes rfl ?_ ?_ ?_ (.inl rfl)
    · intro hsome
      have hrunning := (h.handling hsome).1
      rw [hnone] at hrunning
      cases hrunning
    · rintro (hc | hc) <;> cases hc
    · exact (entered_eq hnone (by rw [hat]; exact AsyncTcpServerCaller.noConfusion)).symm
  case h_3 destroying hat =>
    cases destroying with
    | true =>
      -- the destructor's `join` throws
      have hnone := h.no_thread (by rw [hat]; exact nofun)
      split at hstep
      case h_2 =>
        cases hstep
        exact ⟨h.served, h.thread, h.handling, h.stopped, h.ended, h.early, h.late, h.leaving,
          h.gone, fun _ => hat⟩
      all_goals
        next hsome =>
        rw [hnone] at hsome
        cases hsome
    | false =>
      have hsome := h.thread
      rw [hat] at hsome
      split at hstep
      case h_1 hended =>
        cases hstep
        have hsignalled := h.ended (.inl hended)
        refine h.hand hgoes rfl ?_ (fun _ => hsignalled) ?_ (.inr rfl)
        · intro hhandling
          rw [h.silent hsignalled] at hhandling
          cases hhandling
        · rw [entered, entered, hended]
          rfl
      case h_2 hnone =>
        rw [hnone] at hsome
        cases hsome
      case h_3 | h_4 => cases hstep
  case h_4 hat =>
    cases hstep
    have hnone := h.no_thread (by rw [hat]; exact AsyncTcpServerCaller.noConfusion)
    have hsignalled := h.ended (.inr hat)
    have hentries : v.entries = v.returns + 1 := by
      rw [entries, entered, hnone, hat]
      rfl
    have hafter : v.returned.entries = v.entries := by
      rw [hentries, entries, entered_eq (v := v.returned) hnone AsyncTcpServerCaller.noConfusion]
      rfl
    constructor
    · exact h.served
    · exact congrArg Option.isSome hnone
    · exact h.handling
    · exact h.stopped
    · exact fun _ => hsignalled
    · exact fun hunsignalled => absurd (hunsignalled.symm.trans hsignalled) Bool.false_ne_true
    · rw [hafter]
      exact h.late
    · exact fun hc => by rcases hc with hc | hc <;> cases hc
    · exact fun hc => by rcases hc with hc | hc <;> cases hc
    · exact fun hterminated => absurd (hgoes.symm.trans hterminated) Bool.false_ne_true
  case h_5 hat =>
    cases hstep
    have htwice := h.leaving (.inl hat)
    have hstopped : v.stopped = true := by
      cases hsignalled : v.signalled with
      | true => rw [h.stopped, hsignalled]
      | false =>
        obtain ⟨hreturns, -⟩ := h.early hsignalled
        omega
    exact h.goto hgoes (by rw [hat]; rfl) (.join true) v.waiting hstopped.symm rfl htwice
  case h_6 hat =>
    have hnone := h.no_thread (by rw [hat]; exact AsyncTcpServerCaller.noConfusion)
    rw [hnone, if_neg (by decide)] at hstep
    cases hstep
    rw [← hnone]
    exact h.goto hgoes (by rw [hat]; rfl) .gone v.waiting rfl rfl (h.gone (.inl hat))
  case h_7 | h_8 => cases hstep

theorem Living.advance (h : v.Living e) (hgoes : v.terminated = false)
    (hstep : v.advance = some v') : v'.Living e := by
  unfold AsyncTcpServer.advance at hstep
  split at hstep
  case h_1 hat =>
    cases hstep
    have hcaller := h.joining (by rw [hat]; rfl)
    have hentries : v.entries = v.returns := by
      rw [entries, entered, hat]
      rfl
    have hafter : entries { v with running := true, serverThread := some .running } =
        v.entries + 1 := by
      rw [hentries]
      rfl
    constructor
    · exact h.served
    · rw [hcaller]
      rfl
    · intro hsome
      have hrunning := (h.handling hsome).1
      rw [hat] at hrunning
      cases hrunning
    · exact h.stopped
    · rintro (hc | hc)
      · cases hc
      · rw [hcaller] at hc
        cases hc
    · intro hsignalled
      obtain ⟨hreturns, hcancelled, -⟩ := h.early hsignalled
      exact ⟨hreturns, hcancelled, rfl⟩
    · intro hsignalled
      rw [hafter]
      have honce := (h.late hsignalled).1
      exact ⟨Nat.le_add_left 1 _, (decide_eq_true (by omega)).symm⟩
    · exact h.leaving
    · exact h.gone
    · exact h.terminated
  case h_2 hat =>
    split at hstep
    case isTrue hstopped =>
      cases hstep
      rw [Bool.and_eq_true, Option.isNone_iff_eq_none] at hstopped
      have hcaller := h.joining (by rw [hat]; rfl)
      refine h.hand hgoes ?_ ?_ ?_ ?_ (.inl hcaller)
      · rw [hcaller]
        rfl
      · rw [hstopped.2]
        exact fun hsome => Bool.noConfusion hsome
      · exact fun _ => h.stopped.symm.trans hstopped.1
      · rw [entered, entered, hat]
    case isFalse => cases hstep
  case h_3 | h_4 => cases hstep

theorem Living.handleSignal (h : v.Living e) {cancelled : Bool}
    (hmay : v.mayHandle cancelled = true) : (v.handleSignal cancelled).Living e := by
  simp only [mayHandle, Bool.and_eq_true, beq_iff_eq, Bool.not_eq_true', Option.isNone_iff_eq_none]
    at hmay
  obtain ⟨⟨⟨hat, hstopped⟩, hnobody⟩, hwait⟩ := hmay
  have hunsignalled : v.signalled = false := h.stopped.symm.trans hstopped
  obtain ⟨hreturns, hcancelled, -⟩ := h.early hunsignalled
  cases cancelled with
  | true =>
    -- the handler of a cancelled wait is never called
    have hpos := of_decide_eq_true hwait
    omega
  | false =>
    have hentries : (v.handleSignal false).entries = 1 := by
      show v.returns + (v.handleSignal false).entered.toNat = 1
      rw [hreturns, entered, show (v.handleSignal false).serverThread = _ from hat]
      rfl
    have hsignalled : (v.handleSignal false).signalled = true := Bool.or_true _
    constructor
    · exact h.served
    · exact h.thread
    · rw [show (v.handleSignal false).server.handling = none from hnobody]
      exact fun hsome => Bool.noConfusion hsome
    · exact hsignalled.symm
    · exact fun _ => hsignalled
    · exact fun hfalse => absurd (hfalse.symm.trans hsignalled) Bool.false_ne_true
    · rw [hentries]
      exact fun _ => ⟨Nat.le_refl 1, rfl⟩
    · exact h.leaving
    · exact h.gone
    · exact h.terminated

/-- The sessions' side goes on as the machine of `ConAcceptor` does. -/
theorem Living.serve (h : v.Living e) {l : ServerLabel} {s : Server} (hcarries : v.carries l = true)
    (hstep : v.server.step e l = some s) : Living e { v with server := s } where
  served := h.served.next trivial hstep
  thread := h.thread
  handling hsome := by
    obtain hbefore | ⟨success, rfl⟩ := Server.handling_of_moves (Server.moves_of_step hstep) hsome
    · exact h.handling hbefore
    · simp only [carries, Bool.and_eq_true, beq_iff_eq, Bool.not_eq_true'] at hcarries
      exact hcarries
  stopped := h.stopped
  ended := h.ended
  early := h.early
  late := h.late
  leaving := h.leaving
  gone := h.gone
  terminated := h.terminated

theorem Living.step (h : v.Living e) (hstep : v.step e l = some v') : v'.Living e := by
  unfold AsyncTcpServer.step at hstep
  split at hstep
  case isTrue => cases hstep
  case isFalse halive =>
    rw [Bool.or_eq_true, not_or, Bool.not_eq_true] at halive
    obtain ⟨hgoes, -⟩ := halive
    cases l with
    | start =>
      dsimp only at hstep
      split at hstep
      case h_1 hidle =>
        cases hstep
        exact h.goto hgoes (by rw [hidle]; rfl) .wait v.waiting rfl rfl trivial
      case h_2 => cases hstep
    | destroy => exact h.destroy hgoes hstep
    | caller => exact h.proceed hgoes hstep
    | thread => exact h.advance hgoes hstep
    | signal cancelled =>
      rw [Option.ite_none_right_eq_some, Option.some.injEq] at hstep
      obtain ⟨hmay, rfl⟩ := hstep
      exact h.handleSignal hmay
    | serve l =>
      rw [Option.ite_none_right_eq_some, Option.map_eq_some_iff] at hstep
      obtain ⟨hcarries, s, hs, rfl⟩ := hstep
      exact h.serve hcarries hs

theorem living_of_reachable (h : (machine e).Reachable v) : v.Living e :=
  h.invariant (fun _ ⟨maxSessionCount, others, hv⟩ => hv ▸ living_new maxSessionCount others)
    fun _ _ _ hliving _ hstep => hliving.step hstep

/-! ## The sessions' side -/

/-- What a step does to the sessions' side: it is one of the machine of `ConAcceptor`, or it leaves
them alone. -/
inductive Goes (e : Endian) (v : AsyncTcpServer) : AsyncTcpServerLabel → AsyncTcpServer → Prop where
  | serve {l : ServerLabel} {s : Server} : v.carries l = true → v.server.step e l = some s →
      Goes e v (.serve l) { v with server := s }
  | beside {l : AsyncTcpServerLabel} {v' : AsyncTcpServer} : v'.server = v.server →
      (v.signalled = true → v'.signalled = true) → Goes e v l v'

theorem goes_of_step (hstep : v.step e l = some v') : Goes e v l v' := by
  unfold AsyncTcpServer.step at hstep
  split at hstep
  case isTrue => cases hstep
  case isFalse =>
    cases l with
    | start =>
      dsimp only at hstep
      split at hstep
      case h_1 => cases hstep; exact .beside rfl id
      case h_2 => cases hstep
    | destroy =>
      dsimp only [AsyncTcpServer.destroy] at hstep
      split at hstep
      case h_1 => cases hstep; exact .beside rfl id
      case h_2 => cases hstep
    | caller =>
      dsimp only [AsyncTcpServer.proceed] at hstep
      split at hstep
      case h_2 | h_6 => cases hstep; split <;> exact .beside rfl id
      case h_3 =>
        split at hstep
        case h_1 => cases hstep; exact .beside rfl id
        case h_2 => cases hstep; split <;> exact .beside rfl id
        case h_3 | h_4 => cases hstep
      case h_7 | h_8 => cases hstep
      all_goals cases hstep; exact .beside rfl id
    | thread =>
      dsimp only [AsyncTcpServer.advance] at hstep
      split at hstep
      case h_1 => cases hstep; exact .beside rfl id
      case h_2 =>
        split at hstep
        · cases hstep; exact .beside rfl id
        · cases hstep
      case h_3 | h_4 => cases hstep
    | signal cancelled =>
      rw [Option.ite_none_right_eq_some, Option.some.injEq] at hstep
      obtain ⟨-, rfl⟩ := hstep
      exact .beside rfl fun hsignalled => by rw [AsyncTcpServer.handleSignal, hsignalled]; rfl
    | serve l =>
      rw [Option.ite_none_right_eq_some, Option.map_eq_some_iff] at hstep
      obtain ⟨hcarries, s, hs, rfl⟩ := hstep
      exact .serve hcarries hs

/-- Once the signal has been handled the acceptor's part stays as it is. -/
theorem Living.still (h : v.Living e) (hsignalled : v.signalled = true)
    (hstep : v.step e l = some v') :
    v'.signalled = true ∧ Server.SameAcceptor v.server v'.server := by
  cases goes_of_step hstep with
  | beside hserver hkeeps => exact ⟨hkeeps hsignalled, by rw [hserver], by rw [hserver]⟩
  | @serve l s hcarries hs =>
    refine ⟨hsignalled, Server.sameAcceptor_of_moves (Server.moves_of_step hs)
      (h.silent hsignalled) ?_⟩
    rintro success rfl
    rw [carries, h.stopped, hsignalled, Bool.not_true, Bool.and_false] at hcarries
    cases hcarries

/-- Nobody is in a handler but while the caller is in the `join` of `Start`. -/
theorem Living.no_handler (h : v.Living e) (hcaller : v.caller ≠ .join false) :
    v.server.handling = none := by
  refine Option.not_isSome_iff_eq_none.mp fun hsome => ?_
  have hrunning := (h.handling hsome).1
  rw [h.no_thread hcaller] at hrunning
  cases hrunning

/-- A server that is gone stays so. -/
theorem gone_of_step (hgone : v.caller = .gone) (hstep : v.step e l = some v') :
    v'.caller = .gone := by
  unfold AsyncTcpServer.step at hstep
  split at hstep
  case isTrue => cases hstep
  case isFalse =>
    cases l with
    | start => simp only [hgone, reduceCtorEq] at hstep
    | destroy => simp only [AsyncTcpServer.destroy, hgone, reduceCtorEq] at hstep
    | caller => simp only [AsyncTcpServer.proceed, hgone, reduceCtorEq] at hstep
    | thread =>
      dsimp only [AsyncTcpServer.advance] at hstep
      split at hstep
      case h_1 => cases hstep; exact hgone
      case h_2 =>
        split at hstep
        · cases hstep; exact hgone
        · cases hstep
      case h_3 | h_4 => cases hstep
    | signal cancelled =>
      rw [Option.ite_none_right_eq_some, Option.some.injEq] at hstep
      obtain ⟨-, rfl⟩ := hstep
      exact hgone
    | serve l =>
      rw [Option.ite_none_right_eq_some, Option.map_eq_some_iff] at hstep
      obtain ⟨-, s, -, rfl⟩ := hstep
      exact hgone

/-- What the destructor does next, from its test of `m_running` to its end or to the `join` that
throws. -/
structure Leaves (e : Endian) (v : AsyncTcpServer) : Prop where
  destroys : v.caller = .idle → ∃ v', v.step e .destroy = some v' ∧
    v'.caller = if 2 ≤ v.returns then .stop else .members
  stops : v.caller = .stop → ∃ v', v.step e .caller = some v' ∧ v'.caller = .join true
  joins : v.caller = .join true → ∃ v', v.step e .caller = some v' ∧ v'.terminated = true
  ends : v.caller = .members → ∃ v', v.step e .caller = some v' ∧ v'.caller = .gone

theorem Living.leaves (h : v.Living e) (hgoes : v.terminated = false)
    (hserver : v.server.terminated = false) : v.Leaves e := by
  have hproceed : v.step e .caller = v.proceed := by
    simp only [AsyncTcpServer.step, hgoes, hserver, Bool.or_self, Bool.false_eq_true, if_false]
  have hnone : v.caller ≠ .join false → v.serverThread = none := h.no_thread
  constructor
  · intro hidle
    refine ⟨{ v with caller := if v.running then .stop else .members }, ?_, ?_⟩
    · simp only [AsyncTcpServer.step, AsyncTcpServer.destroy, hgoes, hserver, hidle, Bool.or_self,
        Bool.false_eq_true, if_false]
    · simp only [h.running_eq hidle, decide_eq_true_eq]
  · intro hstop
    refine ⟨{ v with stopped := true, caller := .join true }, ?_, rfl⟩
    rw [hproceed, AsyncTcpServer.proceed, hstop]
  · intro hjoin
    refine ⟨{ v with terminated := true }, ?_, rfl⟩
    simp only [hproceed, AsyncTcpServer.proceed, hjoin, hnone (by rw [hjoin]; nofun), if_true]
  · intro hmembers
    refine ⟨{ v with caller := .gone }, ?_, rfl⟩
    simp only [hproceed, AsyncTcpServer.proceed, hmembers, hnone (by rw [hmembers]; nofun),
      Option.isSome_none, Bool.false_eq_true, if_false]

/-- What is said of a server at any time of its life. -/
structure Life (e : Endian) (v : AsyncTcpServer) : Prop where
  served : (Server.machine e).Reachable v.server
  returned : 0 < v.returns → v.signalled = true
  finished : v.signalled = true → ∀ v', (machine e).Steps (fun _ _ => True) v v' →
    v'.server.handling = none ∧ Server.SameAcceptor v.server v'.server
  terminated : v.terminated = true → v.caller = .join true ∧ 2 ≤ v.returns
  gone : v.caller = .gone → v.returns ≤ 1
  leaves : v.terminated = false → v.server.terminated = false → v.Leaves e

/-- THE LIFE OF A SERVER: in every run of any number of calls of `Start` and the destructor, with
signals, connections and sessions in between, the sessions' side is a run of `ConAcceptor`. `Start`
returns only behind the handler of a signal, and from there on no accept completes and no session is
made, whatever is called. The destructor terminates the process if and only if `Start` has returned
more than once: then it goes to its `join`, whose next step terminates, and otherwise to its end. -/
theorem life_of_reachable (e : Endian) {v : AsyncTcpServer} (h : (machine e).Reachable v) :
    v.Life e := by
  have hliving := living_of_reachable h
  constructor
  · exact hliving.served
  · intro hreturns
    cases hsignalled : v.signalled with
    | true => rfl
    | false =>
      obtain ⟨hnever, -⟩ := hliving.early hsignalled
      omega
  · intro hsignalled v' hsteps
    have hkept : v'.Living e ∧ v'.signalled = true ∧ Server.SameAcceptor v.server v'.server := by
      refine hsteps.invariant
        (I := fun w => w.Living e ∧ w.signalled = true ∧ Server.SameAcceptor v.server w.server)
        ?_ ⟨hliving, hsignalled, rfl, rfl⟩
      rintro w l w' ⟨hw, hwsignalled, hsame⟩ - hstep
      obtain ⟨hlater, hsame'⟩ := hw.still hwsignalled hstep
      exact ⟨hw.step hstep, hlater, hsame'.accepting.trans hsame.accepting,
        hsame'.length.trans hsame.length⟩
    exact ⟨hkept.1.silent hkept.2.1, hkept.2.2⟩
  · intro hterminated
    have hcaller := hliving.terminated hterminated
    exact ⟨hcaller, hliving.leaving (.inr hcaller)⟩
  · exact fun hgone => hliving.gone (.inr hgone)
  · exact hliving.leaves

/-- A server that accepts a connection, is stopped by a signal, started again and destroyed. -/
def startedAgain : List AsyncTcpServerLabel :=
  [.start, .caller, .caller, .thread, .serve (.accept true)] ++
    List.replicate 7 (.serve (.advance .acceptor false)) ++
    [.serve .startAccept, .signal false, .thread, .caller, .caller, .start, .caller, .caller,
      .thread, .thread, .caller, .caller, .destroy, .caller, .caller]

theorem life_of_reachable_again :
    ∃ v, (machine .little).run (new 4 0) startedAgain = some v ∧ v.terminated = true ∧
      v.Life .little := by
  have hruns : ((machine .little).run (new 4 0) startedAgain).any
      (fun v => v.terminated) = true := by
    decide +kernel
  obtain ⟨v, hrun, hterminated⟩ := (Option.any_eq_true _ _).mp hruns
  exact ⟨v, hrun, hterminated, life_of_reachable .little (.run (.start ⟨4, 0, rfl⟩) hrun)⟩

end AsyncTcpServer

end DSFramework.DSCommunication
