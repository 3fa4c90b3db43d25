import DSFramework.DSCommunication.Session
import DSFramework.Lib.Machine
import DSFramework.Lib.Threads

/-!
# The acceptor, its sessions and their manager

The system around `Session`: the acceptor thread, which runs `HandleAccept` and with it `Start`,
one I/O thread for each session, any number of other threads that call `Send` or `Close`, and the
map of `SessionManager`. Threads interleave operation by operation; the map operations are atomic.

A session is known by its number, which stands for its UUID. Every session ever created stays in
`created`; that nobody refers to one any more is a statement (`released`), not an event.
-/

namespace DSFramework.DSCommunication

/-- The threads: the acceptor's, the one that runs a session's completions, and all others. -/
inductive ServerThread where
  | acceptor
  | io (session : Nat)
  | other (thread : Nat)
  deriving DecidableEq, Repr

/-- The server's session side. The acceptor waits for a connection for the session `accepting`,
or is inside `HandleAccept` with the operations left in `handling`. -/
structure Server where
  maxSessionCount : Nat
  sessions : List Nat
  created : List Session
  accepting : Nat
  handling : Option (List SessionOp)
  others : List (Option (Nat × List SessionOp))
  terminated : Bool
  deriving DecidableEq, Repr

/-- What may happen next. -/
inductive ServerLabel where
  /-- The pending accept completes. -/
  | accept (success : Bool)
  /-- `HandleAccept` goes on to `StartAccept`. -/
  | startAccept
  /-- A thread carries out its next operation, which may throw. -/
  | advance (thread : ServerThread) (throws : Bool)
  /-- An outstanding read or write is due. -/
  | readDue (session : Nat)
  | writeDue (session : Nat)
  /-- The I/O thread runs a completion handler. -/
  | completeRead (session : Nat) (outcome : ReadOutcome)
  | completeWrite (session : Nat) (position : Nat) (success : Bool)
  /-- Another thread calls `Send` or `Close`, copies a pointer or drops one. -/
  | send (session : Nat) (data : List UInt8) (dataLength : Int)
  | callClose (thread session : Nat)
  | acquire (session : Nat)
  | release (session : Nat)
  deriving DecidableEq, Repr

namespace Server

/-- `ConAcceptor` constructed: one session, and a pending accept for it. -/
def new (maxSessionCount others : Nat) : Server :=
  { maxSessionCount := maxSessionCount
    sessions := []
    created := [Session.new]
    accepting := 0
    handling := none
    others := List.replicate others none
    terminated := false }

/-- One session changes. -/
def update (v : Server) (s : Nat) (f : Session → Session) : Server :=
  { v with created := v.created.modify s f }

/-- The map after an operation for session `s`. -/
def mapAfter (op : SessionOp) (s : Nat) (sessions : List Nat) : List Nat :=
  match op with
  | .insertSession => if s ∈ sessions then sessions else sessions ++ [s]
  | .removeSession => sessions.filter (· != s)
  | _ => sessions

/-- What an operation for session `s` does. -/
def exec (v : Server) (s : Nat) (op : SessionOp) : Server :=
  { v.update s (Session.exec op) with sessions := mapAfter op s v.sessions }

/-- What a thread has left after `op`: `AddSession` closes the session when the map is full and
inserts it otherwise, and an exception unwinds. -/
def remaining (v : Server) (op : SessionOp) (throws : Bool) (rest : List SessionOp) :
    Option (List SessionOp) :=
  match op with
  | .addSession =>
    some (if v.maxSessionCount ≤ v.sessions.length then Session.close ++ rest
      else .insertSession :: rest)
  | op => if throws && op.mayThrow then Session.unwind rest else some rest

/-- The session a thread works on and the operations it has left. -/
def program (v : Server) : ServerThread → Option (Nat × List SessionOp)
  | .acceptor => v.handling.map fun ops => (v.accepting, ops)
  | .io s => (v.created[s]?).map fun c => (s, c.io)
  | .other t => (v.others[t]?).join

/-- A thread goes on with `ops` for session `s`. A call is over when nothing is left of it. -/
def resume (v : Server) (s : Nat) (ops : List SessionOp) : ServerThread → Server
  | .acceptor => { v with handling := some ops }
  | .io _ => v.update s fun c => { c with io := ops }
  | .other t => { v with others := v.others.set t (if ops.isEmpty then none else some (s, ops)) }

/-- An exception leaves a thread: the end of the process, unless the thread is the caller's own. -/
def escape (v : Server) : ServerThread → Server
  | .acceptor | .io _ => { v with terminated := true }
  | .other t => { v with others := v.others.set t none }

/-- A thread carries out its next operation. -/
def advance (v : Server) (thread : ServerThread) (throws : Bool) : Option Server :=
  match v.program thread with
  | some (s, op :: rest) => match v.remaining op throws rest with
    | some ops => some ((v.exec s op).resume s ops thread)
    | none => some ((v.exec s op).escape thread)
  | _ => none

/-- `HandleAccept` is entered. -/
def handleAccept (v : Server) (success : Bool) : Server :=
  { v.update v.accepting fun c => { c with accepted := success, socketOpen := success } with
    handling := some (if success then Session.start else Session.close) }

/-- `ConAcceptor::StartAccept`, the end of `HandleAccept`. -/
def startAccept (v : Server) : Server :=
  let v := v.update v.accepting fun c => { c with startReturned := c.accepted }
  { v with created := v.created ++ [Session.new], accepting := v.created.length, handling := none }

/-- The completion of the outstanding read: its handler starts on the I/O thread. -/
def completeRead (c : Session) (outcome : ReadOutcome) : Option Session :=
  match c.read with
  | some read =>
    if c.io = [] ∧ (outcome = .error ∨ c.socketOpen = true ∨ read.due = true) then
      some { c with read := none, io := Session.handleRead read.kind outcome }
    else none
  | none => none

/-- The completion of an outstanding write: `HandleWrite`, with `Close` after an error. -/
def completeWrite (c : Session) (position : Nat) (success : Bool) : Option Session :=
  match c.writer.writes[position]? with
  | some frame =>
    if c.io = [] ∧ (success = false ∨ c.socketOpen = true ∨ c.writeDue = true) then
      some { c with
        writer := (c.writer.recordWrite position frame success).handleWrite success
        writeDue := false
        io := if success then [] else Session.handleWriteError }
    else none
  | none => none

/-- One session changes if it can. -/
def updateM (v : Server) (s : Nat) (f : Session → Option Session) : Option Server :=
  (v.created[s]?).bind fun c => (f c).map fun c' => v.update s fun _ => c'

/-- One step of the server, in a process that has not been terminated. -/
def step (e : Endian) (v : Server) (l : ServerLabel) : Option Server :=
  if v.terminated then none
  else match l with
    | .accept success => if v.handling.isNone then some (v.handleAccept success) else none
    | .startAccept => if v.handling = some [] then some v.startAccept else none
    | .advance thread throws => v.advance thread throws
    | .readDue s => v.updateM s fun c => match c.read with
      | some read => if c.socketOpen then some { c with read := some { read with due := true } }
        else none
      | none => none
    | .writeDue s => v.updateM s fun c =>
      if c.socketOpen ∧ c.writer.writes ≠ [] then some { c with writeDue := true } else none
    | .completeRead s outcome => v.updateM s fun c => completeRead c outcome
    | .completeWrite s position success => v.updateM s fun c => completeWrite c position success
    | .send s data dataLength => v.updateM s fun c =>
      if 0 < c.references then some { c with writer := c.writer.send e data dataLength } else none
    | .callClose t s =>
      if v.others[t]? = some none ∧ ((v.created[s]?).map Session.references).getD 0 ≠ 0 then
        some { v with others := v.others.set t (some (s, Session.close)) }
      else none
    | .acquire s => v.updateM s fun c =>
      if c.events ≠ [] then some { c with references := c.references + 1 } else none
    | .release s => v.updateM s fun c =>
      if 0 < c.references then some { c with references := c.references - 1 } else none

/-- The server as a machine: any limit, any number of other threads. -/
def machine (e : Endian) : Transition.Machine Server ServerLabel where
  init v := ∃ maxSessionCount others, v = new maxSessionCount others
  step := step e

/-! ## What one step does -/

/-- The steps that only concern one session's own record. -/
inductive Changes (e : Endian) (c : Session) : ServerLabel → Nat → Session → Prop where
  | readDue {s : Nat} {read : PendingRead} : c.read = some read → c.socketOpen = true →
      Changes e c (.readDue s) s { c with read := some { read with due := true } }
  | writeDue {s : Nat} : Changes e c (.writeDue s) s { c with writeDue := true }
  | completeRead {s : Nat} {outcome : ReadOutcome} {read : PendingRead} : c.read = some read →
      c.io = [] → Changes e c (.completeRead s outcome) s
        { c with read := none, io := Session.handleRead read.kind outcome }
  | completeWrite {s position : Nat} {success : Bool} (writer : Writer) : c.io = [] →
      Changes e c (.completeWrite s position success) s
        { c with
          writer := writer
          writeDue := false
          io := if success then [] else Session.handleWriteError }
  | send {s : Nat} {data : List UInt8} {dataLength : Int} :
      Changes e c (.send s data dataLength) s
        { c with writer := c.writer.send e data dataLength }
  | acquire {s : Nat} : Changes e c (.acquire s) s { c with references := c.references + 1 }
  | release {s : Nat} : Changes e c (.release s) s { c with references := c.references - 1 }

/-- Every way a label can take one server to the next. -/
inductive Moves (e : Endian) (v : Server) : ServerLabel → Server → Prop where
  | accept {success : Bool} : v.handling = none →
      Moves e v (.accept success) (v.handleAccept success)
  | startAccept : v.handling = some [] → Moves e v .startAccept v.startAccept
  | advance {thread : ServerThread} {throws : Bool} {s : Nat} {op : SessionOp}
      {rest ops : List SessionOp} : v.program thread = some (s, op :: rest) →
      v.remaining op throws rest = some ops →
      Moves e v (.advance thread throws) ((v.exec s op).resume s ops thread)
  | escape {thread : ServerThread} {throws : Bool} {s : Nat} {op : SessionOp}
      {rest : List SessionOp} : v.program thread = some (s, op :: rest) →
      v.remaining op throws rest = none →
      Moves e v (.advance thread throws) ((v.exec s op).escape thread)
  | change {l : ServerLabel} {s : Nat} {c c' : Session} : v.created[s]? = some c →
      Changes e c l s c' → Moves e v l (v.update s fun _ => c')
  | callClose {t s : Nat} : v.others[t]? = some none → s < v.created.length →
      Moves e v (.callClose t s) { v with others := v.others.set t (some (s, Session.close)) }

/-- A step by `updateM` changes the session as its function says. -/
theorem moves_of_updateM {e : Endian} {v v' : Server} {l : ServerLabel} {s : Nat}
    {f : Session → Option Session} (changes : ∀ c c', f c = some c' → Changes e c l s c')
    (h : v.updateM s f = some v') : Moves e v l v' := by
  obtain ⟨c, hc, h⟩ := Option.bind_eq_some_iff.mp h
  obtain ⟨c', hf, rfl⟩ := Option.map_eq_some_iff.mp h
  exact .change hc (changes c c' hf)

theorem changes_of_completeRead {e : Endian} {s : Nat} {outcome : ReadOutcome} {c c' : Session}
    (h : completeRead c outcome = some c') : Changes e c (.completeRead s outcome) s c' := by
  unfold completeRead at h
  split at h
  case h_1 read hread =>
    rw [Option.ite_none_right_eq_some, Option.some.injEq] at h
    obtain ⟨⟨hio, -⟩, rfl⟩ := h
    exact .completeRead hread hio
  case h_2 => cases h

theorem changes_of_completeWrite {e : Endian} {s position : Nat} {success : Bool}
    {c c' : Session} (h : completeWrite c position success = some c') :
    Changes e c (.completeWrite s position success) s c' := by
  unfold completeWrite at h
  split at h
  case h_1 =>
    rw [Option.ite_none_right_eq_some, Option.some.injEq] at h
    obtain ⟨⟨hio, -⟩, rfl⟩ := h
    exact .completeWrite _ hio
  case h_2 => cases h

theorem moves_of_advance {e : Endian} {v v' : Server} {thread : ServerThread} {throws : Bool}
    (h : v.advance thread throws = some v') : Moves e v (.advance thread throws) v' := by
  unfold advance at h
  split at h
  case h_1 s op rest hprogram =>
    split at h
    case h_1 ops hremaining => cases h; exact .advance hprogram hremaining
    case h_2 hremaining => cases h; exact .escape hprogram hremaining
  case h_2 => cases h

theorem moves_of_step {e : Endian} {v v' : Server} {l : ServerLabel}
    (h : step e v l = some v') : Moves e v l v' := by
  unfold step at h
  split at h
  case isTrue => cases h
  case isFalse =>
    cases l with
    | accept success =>
      simp only [Option.ite_none_right_eq_some, Option.isNone_iff_eq_none,
        Option.some.injEq] at h
      obtain ⟨hwaiting, rfl⟩ := h
      exact .accept hwaiting
    | startAccept =>
      simp only [Option.ite_none_right_eq_some, Option.some.injEq] at h
      obtain ⟨hdone, rfl⟩ := h
      exact .startAccept hdone
    | advance thread throws => exact moves_of_advance h
    | readDue s =>
      refine moves_of_updateM (fun c c' hf => ?_) h
      split at hf
      case h_1 read hread =>
        rw [Option.ite_none_right_eq_some, Option.some.injEq] at hf
        obtain ⟨hopen, rfl⟩ := hf
        exact .readDue hread hopen
      case h_2 => cases hf
    | writeDue s =>
      refine moves_of_updateM (fun c c' hf => ?_) h
      rw [Option.ite_none_right_eq_some, Option.some.injEq] at hf
      obtain ⟨-, rfl⟩ := hf
      exact .writeDue
    | completeRead s outcome => exact moves_of_updateM (fun _ _ => changes_of_completeRead) h
    | completeWrite s position success =>
      exact moves_of_updateM (fun _ _ => changes_of_completeWrite) h
    | send s data dataLength =>
      refine moves_of_updateM (fun c c' hf => ?_) h
      rw [Option.ite_none_right_eq_some, Option.some.injEq] at hf
      obtain ⟨-, rfl⟩ := hf
      exact .send
    | callClose t s =>
      simp only [Option.ite_none_right_eq_some, Option.some.injEq] at h
      obtain ⟨⟨hidle, hreferences⟩, rfl⟩ := h
      refine .callClose hidle (Nat.lt_of_not_le fun hle => hreferences ?_)
      rw [List.getElem?_eq_none hle]
      rfl
    | acquire s =>
      refine moves_of_updateM (fun c c' hf => ?_) h
      rw [Option.ite_none_right_eq_some, Option.some.injEq] at hf
      obtain ⟨-, rfl⟩ := hf
      exact .acquire
    | release s =>
      refine moves_of_updateM (fun c c' hf => ?_) h
      rw [Option.ite_none_right_eq_some, Option.some.injEq] at hf
      obtain ⟨-, rfl⟩ := hf
      exact .release

/-! ## One session among the others -/

/-- The session's record after its own operation, with what its I/O thread has left. -/
def moved (thread : ServerThread) (ops : List SessionOp) (c : Session) : Session :=
  match thread with
  | .io _ => { c with io := ops }
  | .acceptor | .other _ => c

theorem created_resume (v : Server) (s : Nat) (op : SessionOp) (ops : List SessionOp)
    (thread : ServerThread) : ((v.exec s op).resume s ops thread).created =
      v.created.modify s fun c => moved thread ops (c.exec op) := by
  cases thread with
  | acceptor | other t => rfl
  | io r => exact List.modify_modify_eq _ _ _ _

theorem created_escape (v : Server) (s : Nat) (op : SessionOp) (thread : ServerThread) :
    ((v.exec s op).escape thread).created = v.created.modify s (Session.exec op) := by
  cases thread <;> rfl

/-- What a position of `created` holds after one session has changed. -/
theorem created_modify {created : List Session} {r s : Nat} {f : Session → Session}
    {c' : Session} (h : (created.modify r f)[s]? = some c') :
    ∃ c, created[s]? = some c ∧ ((r = s ∧ c' = f c) ∨ (r ≠ s ∧ c' = c)) := by
  rw [List.getElem?_modify] at h
  obtain ⟨c, hc, h⟩ := Option.map_eq_some_iff.mp h
  refine ⟨c, hc, ?_⟩
  by_cases hrs : r = s
  · exact .inl ⟨hrs, by simpa only [hrs, if_true] using h.symm⟩
  · exact .inr ⟨hrs, by simpa only [if_neg hrs] using h.symm⟩

@[simp] theorem accepting_startAccept (v : Server) :
    v.startAccept.accepting = v.created.length := by
  simp only [startAccept, update, List.length_modify]

/-- What a step can make of the record `c` of session `s`. -/
inductive Becomes (e : Endian) (v : Server) (l : ServerLabel) (s : Nat) (c : Session) :
    Session → Prop where
  | same : Becomes e v l s c c
  | accept {success : Bool} : l = .accept success → v.handling = none → v.accepting = s →
      Becomes e v l s c { c with accepted := success, socketOpen := success }
  | startAccept : l = .startAccept → v.accepting = s →
      Becomes e v l s c { c with startReturned := c.accepted }
  | advance {thread : ServerThread} {throws : Bool} {op : SessionOp}
      {rest ops : List SessionOp} : l = .advance thread throws →
      v.program thread = some (s, op :: rest) → v.remaining op throws rest = some ops →
      Becomes e v l s c (moved thread ops (c.exec op))
  | escape {thread : ServerThread} {throws : Bool} {op : SessionOp} {rest : List SessionOp} :
      l = .advance thread throws → v.program thread = some (s, op :: rest) →
      v.remaining op throws rest = none → Becomes e v l s c (c.exec op)
  | change {c' : Session} : Changes e c l s c' → Becomes e v l s c c'

/-- THE SESSION'S VIEW OF A STEP: a session is new, or becomes what a step can make of it. -/
theorem session_cases {e : Endian} {v v' : Server} {l : ServerLabel} {s : Nat} {c' : Session}
    (h : Moves e v l v') (hs : v'.created[s]? = some c') :
    (s = v.created.length ∧ c' = Session.new) ∨
      ∃ c, v.created[s]? = some c ∧ Becomes e v l s c c' := by
  cases h with
  | accept hwaiting =>
    obtain ⟨c, hc, ⟨hat, rfl⟩ | ⟨-, rfl⟩⟩ := created_modify hs
    · exact .inr ⟨c, hc, .accept rfl hwaiting hat⟩
    · exact .inr ⟨_, hc, .same⟩
  | startAccept =>
    simp only [startAccept, update] at hs
    rw [List.getElem?_append] at hs
    split at hs
    case isTrue =>
      obtain ⟨c, hc, ⟨hat, rfl⟩ | ⟨-, rfl⟩⟩ := created_modify hs
      · exact .inr ⟨c, hc, .startAccept rfl hat⟩
      · exact .inr ⟨_, hc, .same⟩
    case isFalse hge =>
      simp only [List.length_modify] at hge hs
      obtain ⟨hlt, heq⟩ := List.getElem?_eq_some_iff.mp hs
      simp only [List.length_singleton] at hlt
      refine .inl ⟨by omega, ?_⟩
      simpa only [List.getElem_singleton] using heq.symm
  | @advance thread throws r op rest ops hprogram hremaining =>
    rw [created_resume] at hs
    obtain ⟨c, hc, ⟨rfl, rfl⟩ | ⟨-, rfl⟩⟩ := created_modify hs
    · exact .inr ⟨c, hc, .advance rfl hprogram hremaining⟩
    · exact .inr ⟨_, hc, .same⟩
  | @escape thread throws r op rest hprogram hremaining =>
    rw [created_escape] at hs
    obtain ⟨c, hc, ⟨rfl, rfl⟩ | ⟨-, rfl⟩⟩ := created_modify hs
    · exact .inr ⟨c, hc, .escape rfl hprogram hremaining⟩
    · exact .inr ⟨_, hc, .same⟩
  | @change _ r c₀ c₁ hr hchange =>
    obtain ⟨c, hc, ⟨rfl, rfl⟩ | ⟨-, rfl⟩⟩ := created_modify hs
    · rw [hr] at hc
      cases hc
      exact .inr ⟨c₀, hr, .change hchange⟩
    · exact .inr ⟨_, hc, .same⟩
  | callClose => exact .inr ⟨_, hs, .same⟩

/-- The record of the session that a thread's operation is for. -/
theorem created_advance {e : Endian} {v v' : Server} {thread : ServerThread} {throws : Bool}
    {s : Nat} {op : SessionOp} {rest ops : List SessionOp}
    (h : Moves e v (.advance thread throws) v') (hprogram : v.program thread = some (s, op :: rest))
    (hremaining : v.remaining op throws rest = some ops) :
    v'.created = v.created.modify s fun c => moved thread ops (c.exec op) := by
  cases h with
  | advance hprogram' hremaining' =>
    rw [hprogram] at hprogram'
    cases hprogram'
    rw [hremaining] at hremaining'
    cases hremaining'
    exact created_resume v s op ops thread
  | escape hprogram' hremaining' =>
    rw [hprogram] at hprogram'
    cases hprogram'
    rw [hremaining] at hremaining'
    cases hremaining'
  | change _ hchange => cases hchange

/-! ## The operations of a thread -/

/-- Only an operation that may throw lets an exception out of the thread. -/
theorem mayThrow_of_remaining {v : Server} {op : SessionOp} {throws : Bool}
    {rest : List SessionOp} (h : v.remaining op throws rest = none) : op.mayThrow = true := by
  cases op <;> simp_all [remaining, SessionOp.mayThrow]

/-- An operation that lets nothing out leaves the rest. -/
theorem remaining_eq {v : Server} {op : SessionOp} {throws : Bool} (rest : List SessionOp)
    (hop : op ≠ .addSession) (hthrow : (throws && op.mayThrow) = false) :
    v.remaining op throws rest = some rest := by
  have hplain : v.remaining op throws rest =
      if throws && op.mayThrow then Session.unwind rest else some rest := by
    cases op <;> first | rfl | exact absurd rfl hop
  rw [hplain, hthrow]
  rfl

theorem eq_of_remaining {v : Server} {op : SessionOp} {throws : Bool}
    {rest ops : List SessionOp} (h : v.remaining op throws rest = some ops)
    (hop : op ≠ .addSession) (hthrow : (throws && op.mayThrow) = false) : ops = rest := by
  rw [remaining_eq rest hop hthrow, Option.some.injEq] at h
  exact h.symm

/-- What is left of a thread's operations: the rest, the branch that `AddSession` takes before
the rest, or a `Close` from a `catch` among the rest. -/
theorem remaining_cases {v : Server} {op : SessionOp} {throws : Bool}
    {rest ops : List SessionOp} (h : v.remaining op throws rest = some ops) :
    ops = rest ∨
      (op = .addSession ∧ v.maxSessionCount ≤ v.sessions.length ∧ ops = Session.close ++ rest) ∨
      (op = .addSession ∧ v.sessions.length < v.maxSessionCount ∧
        ops = .insertSession :: rest) ∨
      (op.mayThrow = true ∧ throws = true ∧ Session.unwind rest = some ops) := by
  by_cases hop : op = .addSession
  · subst hop
    simp only [remaining, Option.some.injEq] at h
    split at h
    case isTrue hfull => exact .inr (.inl ⟨rfl, hfull, h.symm⟩)
    case isFalse hroom => exact .inr (.inr (.inl ⟨rfl, Nat.lt_of_not_le hroom, h.symm⟩))
  · have hplain : v.remaining op throws rest =
        if throws && op.mayThrow then Session.unwind rest else some rest := by
      cases op <;> first | rfl | exact absurd rfl hop
    rw [hplain] at h
    split at h
    case isTrue hthrow =>
      rw [Bool.and_eq_true] at hthrow
      exact .inr (.inr (.inr ⟨hthrow.2, hthrow.1, h⟩))
    case isFalse => cases h; exact .inl rfl

/-- An exception that is caught goes on with a whole `Close` and a part of what was left. -/
theorem unwind_eq {rest ops : List SessionOp} (h : Session.unwind rest = some ops) :
    ∃ skipped after, rest = skipped ++ .endTry :: after ∧ ops = Session.close ++ after := by
  induction rest with
  | nil => cases h
  | cons op rest ih =>
    by_cases hop : op = .endTry
    · subst hop
      cases h
      exact ⟨[], rest, rfl, rfl⟩
    · have hskip : Session.unwind (op :: rest) = Session.unwind rest := by
        cases op <;> first | rfl | exact absurd rfl hop
      obtain ⟨skipped, after, rfl, rfl⟩ := ih (hskip ▸ h)
      exact ⟨op :: skipped, after, rfl, rfl⟩

/-- The operations a thread can start with, for a session `s`. Only the acceptor runs `Start`;
a call names a session that exists. -/
inductive Enters (v : Server) (l : ServerLabel) (s : Nat) :
    ServerThread → List SessionOp → Prop where
  | start : Enters v l s .acceptor Session.start
  | refused : Enters v l s .acceptor Session.close
  | idle {r : Nat} : Enters v l s (.io r) []
  | handleRead {r : Nat} (kind : ReadKind) (outcome : ReadOutcome) :
      Enters v l s (.io r) (Session.handleRead kind outcome)
  | handleWrite {r : Nat} : Enters v l s (.io r) Session.handleWriteError
  | call {t : Nat} : l = .callClose t s → s < v.created.length →
      Enters v l s (.other t) Session.close

/-- How a thread comes to have `ops` left for session `s` in a step. -/
def Comes (v : Server) (l : ServerLabel) (thread : ServerThread) (s : Nat)
    (ops : List SessionOp) : Prop :=
  v.program thread = some (s, ops) ∨
    (∃ op rest throws, l = .advance thread throws ∧ v.program thread = some (s, op :: rest) ∧
      v.remaining op throws rest = some ops) ∨
    Enters v l s thread ops

@[simp] theorem io_exec (c : Session) (op : SessionOp) : (c.exec op).io = c.io := by
  cases op <;> rfl

/-- The I/O thread of `s`: what its record says it has left. -/
theorem comes_io {e : Endian} {v v' : Server} {l : ServerLabel} {s : Nat} {c' : Session}
    (h : Moves e v l v') (hs : v'.created[s]? = some c') : Comes v l (.io s) s c'.io := by
  have unchanged : ∀ c, v.created[s]? = some c → v.program (.io s) = some (s, c.io) :=
    fun c hc => by simp only [program, hc, Option.map_some]
  obtain ⟨-, rfl⟩ | ⟨c, hc, hbecomes⟩ := session_cases h hs
  · exact .inr (.inr .idle)
  cases hbecomes with
  | same => exact .inl (unchanged _ hc)
  | accept | startAccept => exact .inl (unchanged c hc)
  | escape => exact .inl (by rw [io_exec]; exact unchanged c hc)
  | @advance thread throws op rest ops hl hprogram hremaining =>
    cases thread with
    | acceptor | other t => exact .inl (by simp only [moved, io_exec]; exact unchanged c hc)
    | io r =>
      obtain rfl : r = s := by
        obtain ⟨c₀, -, heq⟩ := Option.map_eq_some_iff.mp hprogram
        exact congrArg Prod.fst heq
      exact .inr (.inl ⟨op, rest, throws, hl, hprogram, hremaining⟩)
  | change hchange =>
    cases hchange with
    | readDue | writeDue | send | acquire | release => exact .inl (unchanged c hc)
    | @completeRead _ outcome read => exact .inr (.inr (.handleRead read.kind outcome))
    | @completeWrite _ _ success =>
      cases success with
      | true => exact .inr (.inr .idle)
      | false => exact .inr (.inr .handleWrite)

theorem comes_acceptor {e : Endian} {v v' : Server} {l : ServerLabel} {ops : List SessionOp}
    (h : Moves e v l v') (hops : v'.handling = some ops) :
    Comes v l .acceptor v'.accepting ops := by
  have unchanged : v.handling = some ops → v.program .acceptor = some (v.accepting, ops) :=
    fun hv => by simp only [program, hv, Option.map_some]
  cases h with
  | @accept success =>
    cases hops
    cases success with
    | true => exact .inr (.inr .start)
    | false => exact .inr (.inr .refused)
  | startAccept => cases hops
  | @advance thread throws s op rest ops' hprogram hremaining =>
    cases thread with
    | acceptor =>
      cases hops
      obtain ⟨ops₀, hops₀, heq⟩ := Option.map_eq_some_iff.mp hprogram
      cases heq
      exact .inr (.inl ⟨op, rest, throws, rfl, hprogram, hremaining⟩)
    | io r | other t => exact .inl (unchanged hops)
  | @escape thread =>
    cases thread with
    | acceptor | io r | other t => exact .inl (unchanged hops)
  | change | callClose => exact .inl (unchanged hops)

theorem comes_other {e : Endian} {v v' : Server} {l : ServerLabel} {t s : Nat}
    {ops : List SessionOp} (h : Moves e v l v') (hops : v'.others[t]? = some (some (s, ops))) :
    Comes v l (.other t) s ops := by
  have unchanged : v.others[t]? = some (some (s, ops)) → v.program (.other t) = some (s, ops) :=
    fun hv => by simp only [program, hv, Option.join_some]
  cases h with
  | accept | startAccept | change => exact .inl (unchanged hops)
  | @advance thread throws r op rest ops' hprogram hremaining =>
    cases thread with
    | acceptor | io r => exact .inl (unchanged hops)
    | other t' =>
      obtain ⟨rfl, heq⟩ | ⟨-, hsame⟩ := Threads.at_set hops
      · split at heq
        case isTrue => cases heq
        case isFalse =>
          cases heq
          exact .inr (.inl ⟨op, rest, throws, rfl, hprogram, hremaining⟩)
      · exact .inl (unchanged hsame)
  | @escape thread =>
    cases thread with
    | acceptor | io r => exact .inl (unchanged hops)
    | other t' =>
      have hsame := Threads.at_of_set hops nofun
      exact .inl (unchanged hsame)
  | callClose _ hlt =>
    obtain ⟨rfl, heq⟩ | ⟨-, hsame⟩ := Threads.at_set hops
    · cases heq
      exact .inr (.inr (.call rfl hlt))
    · exact .inl (unchanged hsame)

/-- THE THREADS' VIEW OF A STEP: what a thread has left it had before, or has left after its
operation, or starts with. -/
theorem comes_of_program {e : Endian} {v v' : Server} {l : ServerLabel} {thread : ServerThread}
    {s : Nat} {ops : List SessionOp} (h : Moves e v l v')
    (hprogram : v'.program thread = some (s, ops)) : Comes v l thread s ops := by
  cases thread with
  | acceptor =>
    obtain ⟨ops₀, hops₀, heq⟩ := Option.map_eq_some_iff.mp hprogram
    cases heq
    exact comes_acceptor h hops₀
  | io r =>
    obtain ⟨c', hc', heq⟩ := Option.map_eq_some_iff.mp hprogram
    cases heq
    exact comes_io h hc'
  | other t => exact comes_other h (Option.join_eq_some_iff.mp hprogram)

/-- Sessions are only ever added to those created. -/
theorem length_created_le {e : Endian} {v v' : Server} {l : ServerLabel} (h : Moves e v l v') :
    v.created.length ≤ v'.created.length := by
  cases h with
  | advance => rw [created_resume, List.length_modify]
  | escape => rw [created_escape, List.length_modify]
  | accept | change => exact Nat.le_of_eq (List.length_modify _ _ _).symm
  | startAccept =>
    simp only [startAccept, update, List.length_append, List.length_modify, Nat.le_add_right]
  | callClose => exact Nat.le_refl _

/-- An I/O thread in the middle of a handler is left alone by every step but its own. -/
theorem io_stays {e : Endian} {v v' : Server} {l : ServerLabel} {s : Nat} {c : Session}
    (h : Moves e v l v') (hc : v.created[s]? = some c) (hio : c.io ≠ [])
    (hl : ∀ throws, l ≠ .advance (.io s) throws) :
    ∃ c', v'.created[s]? = some c' ∧ c'.io = c.io := by
  obtain ⟨hlt, -⟩ := List.getElem?_eq_some_iff.mp hc
  obtain ⟨c', hc'⟩ : ∃ c', v'.created[s]? = some c' :=
    ⟨_, List.getElem?_eq_getElem (Nat.lt_of_lt_of_le hlt (length_created_le h))⟩
  refine ⟨c', hc', ?_⟩
  obtain ⟨heq, -⟩ | ⟨c₀, hc₀, hbecomes⟩ := session_cases h hc'
  · exact absurd heq (Nat.ne_of_lt hlt)
  rw [hc] at hc₀
  cases hc₀
  cases hbecomes with
  | same | accept | startAccept => rfl
  | escape => exact io_exec c _
  | @advance thread throws op rest ops hadvance hprogram =>
    cases thread with
    | acceptor | other t => exact io_exec c op
    | io r =>
      obtain ⟨c₀, -, heq⟩ := Option.map_eq_some_iff.mp hprogram
      obtain rfl : r = s := congrArg Prod.fst heq
      exact absurd hadvance (hl throws)
  | change hchange =>
    cases hchange with
    | readDue | writeDue | send | acquire | release => rfl
    | completeRead _ hidle | completeWrite _ hidle => exact absurd hidle hio

/-- A thread with operations left keeps them until it carries out the next of them. -/
theorem program_stays {e : Endian} {v v' : Server} {l : ServerLabel} {thread : ServerThread}
    {s : Nat} {op : SessionOp} {rest : List SessionOp} (h : Moves e v l v')
    (hprogram : v.program thread = some (s, op :: rest))
    (hl : ∀ throws, l ≠ .advance thread throws) : v'.program thread = some (s, op :: rest) := by
  cases thread with
  | io r =>
    obtain ⟨c, hc, heq⟩ := Option.map_eq_some_iff.mp hprogram
    rw [Prod.mk.injEq] at heq
    obtain ⟨rfl, hio⟩ := heq
    obtain ⟨c', hc', hio'⟩ := io_stays h hc (by rw [hio]; exact List.cons_ne_nil _ _) hl
    simp only [program, hc', Option.map_some, hio', hio]
  | acceptor =>
    obtain ⟨ops, hops, heq⟩ := Option.map_eq_some_iff.mp hprogram
    cases heq
    cases h with
    | accept hwaiting => rw [hops] at hwaiting; cases hwaiting
    | startAccept hdone => rw [hops] at hdone; cases hdone
    | @advance thread throws | @escape thread throws =>
      cases thread with
      | acceptor => exact absurd rfl (hl throws)
      | io r | other t => exact hprogram
    | change | callClose => exact hprogram
  | other t =>
    have hcall := Option.join_eq_some_iff.mp hprogram
    refine Option.join_eq_some_iff.mpr ?_
    cases h with
    | accept | startAccept | change => exact hcall
    | @advance thread throws | @escape thread throws =>
      cases thread with
      | acceptor | io r => exact hcall
      | other t' =>
        have hne : t ≠ t' := by
          rintro rfl
          exact hl throws rfl
        exact (Threads.at_set_ne _ hne).trans hcall
    | @callClose t' _ hidle =>
      have hne : t ≠ t' := by
        rintro rfl
        rw [hcall] at hidle
        cases hidle
      exact (Threads.at_set_ne _ hne).trans hcall

/-- A thread that carries out an operation goes on with what remains, as long as something does. -/
theorem program_advance {e : Endian} {v v' : Server} {thread : ServerThread} {throws : Bool}
    {s : Nat} {op : SessionOp} {rest ops : List SessionOp}
    (h : Moves e v (.advance thread throws) v') (hprogram : v.program thread = some (s, op :: rest))
    (hremaining : v.remaining op throws rest = some ops) (hops : ops ≠ []) :
    v'.program thread = some (s, ops) := by
  cases h with
  | advance hprogram' hremaining' =>
    rw [hprogram] at hprogram'
    cases hprogram'
    rw [hremaining] at hremaining'
    cases hremaining'
    cases thread with
    | acceptor =>
      obtain ⟨ops₀, hops₀, heq⟩ := Option.map_eq_some_iff.mp hprogram
      cases heq
      rfl
    | io r =>
      obtain ⟨c, hc, heq⟩ := Option.map_eq_some_iff.mp hprogram
      rw [Prod.mk.injEq] at heq
      obtain ⟨rfl, -⟩ := heq
      simp only [program, created_resume, List.getElem?_modify_eq, hc, Option.map_some, moved,
        Option.map_eq_map]
    | other t =>
      have hcall := Option.join_eq_some_iff.mp hprogram
      have hempty : ops.isEmpty = false := by
        simpa using hops
      refine Option.join_eq_some_iff.mpr ((Threads.at_set_self hcall _).trans ?_)
      simp only [hempty, Bool.false_eq_true, if_false]
  | escape hprogram' hremaining' =>
    rw [hprogram] at hprogram'
    cases hprogram'
    rw [hremaining] at hremaining'
    cases hremaining'
  | change _ hchange => cases hchange

/-- A thread of the server that an exception ends stays where it was. -/
theorem program_escape {e : Endian} {v v' : Server} {thread : ServerThread} {throws : Bool}
    {s : Nat} {op : SessionOp} {rest : List SessionOp}
    (h : Moves e v (.advance thread throws) v') (hprogram : v.program thread = some (s, op :: rest))
    (hremaining : v.remaining op throws rest = none) (hthread : ∀ t, thread ≠ .other t) :
    v'.program thread = some (s, op :: rest) := by
  cases h with
  | advance hprogram' hremaining' =>
    rw [hprogram] at hprogram'
    cases hprogram'
    rw [hremaining] at hremaining'
    cases hremaining'
  | escape hprogram' hremaining' =>
    rw [hprogram] at hprogram'
    cases hprogram'
    cases thread with
    | acceptor => exact hprogram
    | io r =>
      obtain ⟨c, hc, heq⟩ := Option.map_eq_some_iff.mp hprogram
      rw [Prod.mk.injEq] at heq
      obtain ⟨rfl, hio⟩ := heq
      simp only [program, created_escape, List.getElem?_modify_eq, hc, Option.map_some, io_exec,
        Option.map_eq_map, hio]
    | other t => exact absurd rfl (hthread t)
  | change _ hchange => cases hchange

end Server

end DSFramework.DSCommunication
