import DSFramework.DSCommunication.Session.Writer

/-!
# The life of a session

What `Session::Start`, `Session::Close` and the two read handlers do, operation by operation. The
functions run on different threads with nothing to keep them apart, so each is the list of the
operations it still has to carry out: a thread's place in the source is what is left of the list.

The reads are modelled by their outcome (`Session.Reader` has their bytes), the writes by
`Session.Writer`. An event is recorded when `EventHandler` starts to deliver it; the session
manager is the first handler that hears it, the others follow in one operation.
-/

namespace DSFramework.DSCommunication

/-- The events of `EventHandler`. -/
inductive Event where
  | onConnect
  | onData
  | onClose
  deriving DecidableEq, Repr

/-- An operation on a session that one thread carries out in one step. -/
inductive SessionOp where
  /-- `async_read` of a head, completed by `HandleHeadRead`. -/
  | asyncReadHead
  /-- `async_read` of a body, completed by `HandleBodyRead`. -/
  | asyncReadBody
  /-- `EventHandler::OnConnect` is called. -/
  | onConnect
  /-- `AddSession` compares `m_sessions.size()` with its limit. -/
  | addSession
  /-- `m_sessions.insert`. -/
  | insertSession
  /-- The other connect handlers. -/
  | connectHandlers
  /-- `m_closed = false`. -/
  | setOpen
  /-- The end of a `try` whose `catch` calls `Close`. -/
  | endTry
  /-- `m_closed = true`. -/
  | setClosed
  /-- `EventHandler::OnClose` is called. -/
  | onClose
  /-- `m_sessions.erase`. -/
  | removeSession
  /-- The other close handlers. -/
  | closeHandlers
  /-- `m_socket.close()`. -/
  | closeSocket
  /-- `EventHandler::OnData` is called. -/
  | onData
  /-- The data handlers. -/
  | dataHandlers
  deriving DecidableEq, Repr

/-- The operations out of which an exception may come. -/
def SessionOp.mayThrow : SessionOp → Bool
  | .connectHandlers | .closeHandlers | .dataHandlers | .closeSocket => true
  | _ => false

/-- How the read of a head or a body ends. A head can be complete and announce a length that
`HandleHeadRead` refuses. -/
inductive ReadOutcome where
  | success
  | malformed
  | error
  deriving DecidableEq, Repr

/-- Which of the two handlers an outstanding read completes. -/
inductive ReadKind where
  | head
  | body
  deriving DecidableEq, Repr

/-- The outstanding read. Once it is due it may succeed although the socket has been closed. -/
structure PendingRead where
  kind : ReadKind
  due : Bool
  deriving DecidableEq, Repr

/-- A session with its outstanding operations and what its I/O thread is still to do for it.

`references` counts the pointers that other threads keep. The rest is history: the events raised,
whether it was accepted without error, admitted to the manager's map, closed by anyone (the first
statement of a `Close`), removed from the map, and whether the acceptor is done with it. -/
structure Session where
  closed : Bool
  socketOpen : Bool
  read : Option PendingRead
  writer : Writer
  writeDue : Bool
  io : List SessionOp
  references : Nat
  events : List Event
  accepted : Bool
  admitted : Bool
  closeCalled : Bool
  removed : Bool
  startReturned : Bool
  deriving DecidableEq, Repr

namespace Session

/-- The constructor. `m_closed` starts out true. -/
def new : Session :=
  { closed := true
    socketOpen := false
    read := none
    writer := Writer.fresh sendQueueMaxSize
    writeDue := false
    io := []
    references := 0
    events := []
    accepted := false
    admitted := false
    closeCalled := false
    removed := false
    startReturned := false }

/-- `Session::Close`. -/
def close : List SessionOp := [.setClosed, .onClose, .removeSession, .closeHandlers, .closeSocket]

/-- `Session::Start`. -/
def start : List SessionOp :=
  [.asyncReadHead, .onConnect, .addSession, .connectHandlers, .setOpen, .endTry]

/-- `Session::HandleHeadRead`. -/
def handleHeadRead : ReadOutcome → List SessionOp
  | .success => [.asyncReadBody, .endTry]
  | .malformed | .error => close ++ [.endTry]

/-- `Session::HandleBodyRead`. A body cannot be malformed. -/
def handleBodyRead : ReadOutcome → List SessionOp
  | .success | .malformed => [.onData, .dataHandlers, .asyncReadHead, .endTry]
  | .error => close ++ [.endTry]

/-- The handler of an outstanding read. -/
def handleRead : ReadKind → ReadOutcome → List SessionOp
  | .head => handleHeadRead
  | .body => handleBodyRead

/-- The error branch of `Session::HandleWrite`. -/
def handleWriteError : List SessionOp := close ++ [.endTry]

/-- Where an exception goes: to the nearest `catch`, which calls `Close`, or out of the thread. -/
def unwind : List SessionOp → Option (List SessionOp)
  | [] => none
  | .endTry :: rest => some (close ++ rest)
  | _ :: rest => unwind rest

/-- What an operation does to the session it is for. -/
def exec (op : SessionOp) (s : Session) : Session :=
  match op with
  | .asyncReadHead => { s with read := some ⟨.head, false⟩ }
  | .asyncReadBody => { s with read := some ⟨.body, false⟩ }
  | .onConnect => { s with events := s.events ++ [.onConnect] }
  | .insertSession => { s with admitted := true }
  | .setOpen => { s with closed := false }
  | .setClosed => { s with closed := true, closeCalled := true }
  | .onClose => { s with events := s.events ++ [.onClose] }
  | .removeSession => { s with removed := true }
  | .closeSocket => { s with socketOpen := false }
  | .onData => { s with events := s.events ++ [.onData] }
  | .addSession | .connectHandlers | .endTry | .closeHandlers | .dataHandlers => s

end Session

end DSFramework.DSCommunication
