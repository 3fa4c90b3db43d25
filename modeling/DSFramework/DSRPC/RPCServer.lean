import DSFramework.DSCommunication.Session.Writer
import DSFramework.DSRPC.Dispatcher
import DSFramework.DSRPC.RPCEventHandler
import DSFramework.DSRPC.RPCPacketManager
import DSFramework.DSRPC.RPCProcessor
import DSFramework.Lib.Threads

/-!
# The server

`RPCServer` with everything that runs in it: the I/O threads, on which the sessions deliver frames,
the thread of the request dispatcher, the workers of `ThreadPool`, and the thread of the response
dispatcher. Threads interleave operation by operation; a thread is the session and the request it
works on and the operations it has left.

Every frame that is delivered gets an address, that of the packet it is parsed into, and every
response a number. The records at both are never deleted and keep a history: what has happened to
the request, the statuses the manager has recorded in it, what has become of the response. Nothing
the server does depends on the histories.

The called functions are the server's environment. What a check or execute function leaves in the
packet, what it returns and whether it throws is in the label of its step.
-/

namespace DSFramework.DSRPC

open DSCommunication (Endian Frame Writer)

/-- What the server is configured with, and the functions of other libraries that it calls. -/
structure Setting where
  serverId : String
  /-- `Session::GetUUID`. -/
  uuid : Nat → String
  maxRequestPaddingCount : Nat
  maxResponsePaddingCount : Nat
  endian : Endian
  /-- `ParseFromArray`. -/
  parseFromArray : List UInt8 → Option RPCPacket
  /-- `ByteSizeLong`. -/
  byteSizeLong : RPCPacket → Nat
  /-- `SerializeToArray`. -/
  serializeToArray : RPCPacket → Option (List UInt8)

/-- `ResponseDispatcher::Serialize`: the data and its size. The size of what is returned has been
compared with `INT32_MAX` here, and is compared once more by `Send`. -/
def Setting.serialize (C : Setting) (packet : RPCPacket) : Option (List UInt8 × Nat) :=
  if Int32.maxValue.toInt < C.byteSizeLong packet then none
  else (C.serializeToArray packet).map fun data => (data, C.byteSizeLong packet)

/-- How a called function ends: it returns, it throws a `std::exception`, or it throws something
else. -/
inductive Outcome where
  | returned (result : Bool)
  | threw
  | escaped
  deriving DecidableEq, Repr

def Outcome.isReturn : Outcome → Bool
  | .returned _ => true
  | .threw | .escaped => false

/-- What the environment answers in a step: a generated UUID, the time, and the packet and the end
of a called function. -/
structure Answer where
  uid : String := ""
  time : String := ""
  packet : RPCPacket := {}
  outcome : Outcome := .returned true

/-- What can happen to a request. -/
inductive Act where
  | assigned
  | added
  /-- The manager starts to handle the event. -/
  | handled (event : RPCEvent)
  | removed (event : RPCEvent)
  | created (event : RPCEvent)
  | posted (event : RPCEvent)
  | dropped (event : RPCEvent)
  | accepted
  | refused
  | emptyService
  | unknownService
  | checked (result : Bool)
  | committed
  | missing
  | invoked
  | returned
  | threw
  | escaped
  deriving DecidableEq, Repr

/-- A packet that a session has delivered, with its session, the packet as received, the name that
`Execute` has taken from it, and its history. -/
structure Request where
  session : Nat
  received : RPCPacket
  packet : RPCPacket
  serviceName : Option String
  history : List Act
  recorded : List RPCPacketStatus

/-- `UpdateRequestStatus` records the status of an event in a packet. -/
def Request.record (event : RPCEvent) (currentTime : String) (c : Request) : Request :=
  { c with
    packet := RPCPacketManager.updateStatus event.status currentTime c.packet
    recorded := c.recorded ++ [event.status] }

/-- What becomes of a response: a full queue drops it, it cannot be serialized, `Session::Send`
drops it or accepts it as a frame. With a full queue goes the `m_count` that was read, and how many
responses were linked, or unlinked and not yet subtracted, when it was read. -/
inductive Fate where
  | queueFull (count : Int) (held : Nat)
  | notSerialized
  | sendQueueFull (waiting : Nat)
  | accepted (frame : Frame)

/-- A response, with the session it is for, the request it answers, its event, the status that the
manager had recorded last, and its fate. -/
structure Response where
  session : Nat
  request : Nat
  event : RPCEvent
  packet : RPCPacket
  recorded : Option RPCPacketStatus
  fate : Option Fate

/-- A thread's place: the session and the request it works on, and the operations it has left. -/
structure Call where
  session : Nat
  request : Nat
  ops : List RPCOp
  deriving DecidableEq, Repr

inductive Role where
  | io (session : Nat)
  | requestDispatcher
  | worker
  deriving DecidableEq, Repr

structure RPCThread where
  role : Role
  call : Call
  deriving DecidableEq, Repr

/-- What the response dispatcher has unlinked and not yet sent; whether it has been subtracted. -/
structure Sending where
  session : Nat
  response : Nat
  counted : Bool
  deriving DecidableEq, Repr

/-- The server. `sends` lists the calls of `Session::Send`, `posts` what has been linked to the
response dispatcher's queue; both are histories. -/
structure RPCServer where
  requests : Requests
  packets : List Request
  responses : List Response
  procedures : Procedures
  requestQueue : ItemQueue (Nat × Nat)
  responseQueue : ItemQueue (Nat × Nat)
  tasks : List (String × Nat × Nat)
  threads : List RPCThread
  sending : Option Sending
  writers : Nat → Writer
  posts : List (Nat × Nat)
  sends : List (Nat × Nat)
  terminated : Bool

/-- What may happen next. -/
inductive RPCLabel where
  /-- A session delivers the body of a frame on its I/O thread. -/
  | deliver (thread : Nat) (body : List UInt8)
  /-- A waiting request dispatcher or worker takes the oldest item. -/
  | take (thread : Nat)
  /-- A thread carries out its next operation. -/
  | advance (thread : Nat) (answer : Answer)
  /-- The response dispatcher unlinks, subtracts and sends. -/
  | takeResponse
  | subtractResponse
  | sendResponse
  /-- An outstanding write of a session completes. -/
  | completeWrite (session position : Nat) (success : Bool)

namespace RPCServer

/-- The record of one request changes. -/
def update (v : RPCServer) (a : Nat) (f : Request → Request) : RPCServer :=
  { v with packets := v.packets.modify a f }

/-- A request's history goes on. -/
def tell (v : RPCServer) (a : Nat) (act : Act) : RPCServer :=
  v.update a fun c => { c with history := c.history ++ [act] }

/-- A called function has left a request's packet. -/
def leave (v : RPCServer) (a : Nat) (packet : RPCPacket) (act : Act) : RPCServer :=
  v.update a fun c => { c with packet := packet, history := c.history ++ [act] }

/-- The packet at an address. -/
def packet (v : RPCServer) (a : Nat) : RPCPacket := ((v.packets[a]?).map Request.packet).getD {}

/-- The fate of a response is settled. -/
def settle (v : RPCServer) (r : Nat) (fate : Fate) : RPCServer :=
  { v with responses := v.responses.modify r fun x => { x with fate := some fate } }

/-! ## The operations -/

/-- `InitRPCPacket`, for session `s`. -/
def initRPCPacket (C : Setting) (v : RPCServer) (s a : Nat) (uid currentTime : String) :
    RPCServer :=
  v.update a fun c => { c with
    packet := RPCPacketManager.initRPCPacket uid (C.uuid s) currentTime c.packet
    history := c.history ++ [.assigned]
    recorded := c.recorded ++ [.submitted] }

/-- `AddRequest(request->request_id(), session->GetUUID(), request)`. -/
def addRequest (C : Setting) (v : RPCServer) (s a : Nat) : RPCServer :=
  { v.tell a .added with
    requests := RPCPacketManager.addRequest (v.packet a).requestId (C.uuid s) a v.requests }

/-- The first half of `UpdateRequestStatus`: without an entry there is nothing more to do. -/
def findRequest (v : RPCServer) (a : Nat) (event : RPCEvent) : RPCServer × List RPCOp :=
  (v.tell a (.handled event),
    if (RPCPacketManager.findRequest (v.packet a).requestId v.requests).isSome then
      [.setStatus event (v.packet a).requestId]
    else [])

/-- The second half of `UpdateRequestStatus`: the entry's packet is changed, whosoever it is. -/
def setStatus (v : RPCServer) (event : RPCEvent) (requestID currentTime : String) : RPCServer :=
  match RPCPacketManager.findRequest requestID v.requests with
  | some (_, p) => v.update p (Request.record event currentTime)
  | none => v

/-- `RemoveRequest(request->request_id())`. -/
def removeRequest (v : RPCServer) (a : Nat) (event : RPCEvent) : RPCServer :=
  { v.tell a (.removed event) with
    requests := RPCPacketManager.removeRequest (v.packet a).requestId v.requests }

/-- The response to an event is made from the request as it is now. -/
def createResponse (C : Setting) (v : RPCServer) (s a : Nat) (event : RPCEvent) :
    RPCServer × List RPCOp :=
  ({ v.tell a (.created event) with
      responses := v.responses ++ [{
        session := s
        request := a
        event := event
        packet := ResponseDispatcher.response C.serverId (C.uuid s) (v.packet a) event
        recorded := (v.packets[a]?).bind fun c => c.recorded.getLast?
        fate := none }] },
    [.responseSize event v.responses.length])

/-- The responses that are linked, and the one that is unlinked and not yet subtracted. -/
def heldResponses (v : RPCServer) : Nat :=
  v.responseQueue.items.length + v.sending.toList.countP fun x => !x.counted

/-- `ResponseDispatcher::PostRequestToQueue`. -/
def responseSize (C : Setting) (v : RPCServer) (a : Nat) (event : RPCEvent) (r : Nat) :
    RPCServer × List RPCOp :=
  if v.responseQueue.hasRoom C.maxResponsePaddingCount then
    (v, [.responseLink event r, .responseAdd])
  else ((v.tell a (.dropped event)).settle r
    (.queueFull v.responseQueue.count v.heldResponses), [])

/-- The response is in the queue. -/
def responseLink (v : RPCServer) (s a : Nat) (event : RPCEvent) (r : Nat) : RPCServer :=
  { v.tell a (.posted event) with
    responseQueue := v.responseQueue.link (s, r)
    posts := v.posts ++ [(s, r)] }

/-- `RequestDispatcher::PostRequestToQueue`: `OnDispatched` is raised before the push. -/
def requestSize (C : Setting) (v : RPCServer) (a : Nat) : RPCServer × List RPCOp :=
  if v.requestQueue.hasRoom C.maxRequestPaddingCount then
    (v.tell a .accepted, raise .onDispatched ++ [.requestLink, .requestAdd])
  else (v.tell a .refused, raise .onDispatchFailed)

/-- `RPCProcessor::OnCommited`, up to the check of the parameters. -/
def processorOnCommited (v : RPCServer) (a : Nat) : RPCServer × List RPCOp :=
  if (v.packet a).service.isEmpty then (v.tell a .emptyService, raise .onServiceEmptyRequest)
  else if !RPCProcessor.searchService (v.packet a).service v.procedures then
    (v.tell a .unknownService, raise .onServiceNotFound)
  else (v, [.checkServiceParameter (v.packet a).service])

/-- `CheckServiceParameter` and what follows from it. An exception, also the one that calling an
empty function throws, leaves the dispatcher's thread and ends the process. -/
def checkServiceParameter (v : RPCServer) (a : Nat) (serviceName : String) (answer : Answer) :
    RPCServer × List RPCOp :=
  match RPCProcessor.find serviceName v.procedures with
  | none => (v.tell a (.checked false), raise .onServiceParameterInvalid)
  | some none => ({ v with terminated := true }, [.checkServiceParameter serviceName])
  | some (some _) => match answer.outcome with
    | .returned true => (v.leave a answer.packet (.checked true), [.commit])
    | .returned false =>
      (v.leave a answer.packet (.checked false), raise .onServiceParameterInvalid)
    | .threw | .escaped => ({ v with terminated := true }, [.checkServiceParameter serviceName])

/-- `RPCProcessor::Execute`. The name is a reference into the packet until it is copied here. -/
def commit (v : RPCServer) (s a : Nat) : RPCServer :=
  { v.update a fun c => { c with
      serviceName := some (v.packet a).service
      history := c.history ++ [.committed] } with
    tasks := v.tasks ++ [((v.packet a).service, s, a)] }

/-- `m_serviceProcedures[serviceName].second(packet)`, up to the function's first instruction.
Calling an empty function throws a `std::exception`. -/
def execute (v : RPCServer) (a : Nat) (serviceName : String) : RPCServer × List RPCOp :=
  let found := RPCProcessor.subscript serviceName v.procedures
  match found.2 with
  | some _ => ({ v.tell a .invoked with procedures := found.1 }, [.running])
  | none => ({ v.tell a .missing with procedures := found.1 }, raise .onServiceError)

/-- The end of the execute function. What is no `std::exception` ends in the task's future. -/
def running (v : RPCServer) (a : Nat) (answer : Answer) : RPCServer × List RPCOp :=
  match answer.outcome with
  | .returned _ => (v.leave a answer.packet .returned, raise .onCompleted)
  | .threw => (v.leave a answer.packet .threw, raise .onServiceError)
  | .escaped => (v.leave a answer.packet .escaped, [])

/-- What an operation does on a thread that works on request `a` of session `s`, and the operations
that come before the rest of its program. -/
def exec (C : Setting) (v : RPCServer) (s a : Nat) (answer : Answer) :
    RPCOp → RPCServer × List RPCOp
  | .initRPCPacket => (v.initRPCPacket C s a answer.uid answer.time, [])
  | .addRequest => (v.addRequest C s a, [])
  | .findRequest event => v.findRequest a event
  | .setStatus event requestID => (v.setStatus event requestID answer.time, [])
  | .removeRequest event => (v.removeRequest a event, [])
  | .createResponse event => v.createResponse C s a event
  | .responseSize event r => v.responseSize C a event r
  | .responseLink event r => (v.responseLink s a event r, [])
  | .responseAdd => ({ v with responseQueue := v.responseQueue.add }, [])
  | .requestSize => v.requestSize C a
  | .requestLink => ({ v with requestQueue := v.requestQueue.link (s, a) }, [])
  | .requestAdd => ({ v with requestQueue := v.requestQueue.add }, [])
  | .requestSub => ({ v with requestQueue := v.requestQueue.sub }, [])
  | .processorOnCommited => v.processorOnCommited a
  | .checkServiceParameter serviceName => v.checkServiceParameter a serviceName answer
  | .commit => (v.commit s a, [])
  | .execute serviceName => v.execute a serviceName
  | .running => v.running a answer

/-! ## The threads -/

/-- A thread goes on. -/
def goto (v : RPCServer) (t : Nat) (th : RPCThread) : RPCServer :=
  { v with threads := v.threads.set t th }

/-- `RPCServerStub::OnData`: the frame is parsed and the event raised. -/
def onData (C : Setting) (v : RPCServer) (t s : Nat) (body : List UInt8) : RPCServer :=
  let deserialized := C.parseFromArray body
  let received := deserialized.getD {}
  { v with
    packets := v.packets ++ [{
      session := s
      received := received
      packet := received
      serviceName := none
      history := []
      recorded := [] }]
    threads := v.threads.set t ⟨.io s, s, v.packets.length,
      raise (if deserialized.isSome then .onDeserialized else .onDeserializedFailed)⟩ }

/-- The two threads that wait: `Dispatcher::Start` for requests, and `ThreadPool::Start`. -/
def take (v : RPCServer) (t : Nat) : RPCThread → Option RPCServer
  | ⟨.requestDispatcher, ⟨_, _, []⟩⟩ => match v.requestQueue.items with
    | (s, a) :: _ => some { v with
        requestQueue := v.requestQueue.unlink
        threads := v.threads.set t ⟨.requestDispatcher, s, a, .requestSub :: raise .onCommited⟩ }
    | [] => none
  | ⟨.worker, ⟨_, _, []⟩⟩ => match v.tasks with
    | (serviceName, s, a) :: tasks => some { v with
        tasks := tasks
        threads := v.threads.set t ⟨.worker, s, a, [.execute serviceName]⟩ }
    | [] => none
  | _ => none

/-- A thread carries out its next operation. -/
def advance (C : Setting) (v : RPCServer) (t : Nat) (answer : Answer) :
    RPCThread → Option RPCServer
  | ⟨role, s, a, op :: rest⟩ =>
    let (v, ops) := v.exec C s a answer op
    some (v.goto t ⟨role, s, a, ops ++ rest⟩)
  | _ => none

/-- One session's write side changes. -/
def setWriter (writers : Nat → Writer) (s : Nat) (w : Writer) : Nat → Writer :=
  fun s' => if s' = s then w else writers s'

/-- `ResponseDispatcher::Send` with `Session::Send`. -/
def send (C : Setting) (v : RPCServer) (s r : Nat) : RPCServer :=
  match (v.responses[r]?).bind fun x => C.serialize x.packet with
  | some (data, size) =>
    let w := v.writers s
    { v.settle r (if w.sendQueueMaxSize.toNat ≤ w.sendQueue.length then
          .sendQueueFull w.sendQueue.length
        else .accepted (w.frameOf C.endian data size)) with
      sends := v.sends ++ [(s, r)]
      writers := setWriter v.writers s (w.send C.endian data size) }
  | none => v.settle r .notSerialized

/-- The server as constructed, with the services registered in order. `ConAcceptor` gives every
session the same send queue; `maxSendPaddingQueueCount` is the limit of the sessions, not of it. -/
def new (roles : List Role) (services : List (String × Nat)) : RPCServer :=
  { requests := []
    packets := []
    responses := []
    procedures := services.foldl (fun table service =>
      RPCProcessor.registerService service.1 service.2 table) []
    requestQueue := ⟨[], 0⟩
    responseQueue := ⟨[], 0⟩
    tasks := []
    threads := (.requestDispatcher :: roles).map fun role => ⟨role, 0, 0, []⟩
    sending := none
    writers := fun _ => Writer.fresh DSCommunication.Session.sendQueueMaxSize
    posts := []
    sends := []
    terminated := false }

/-- One step of the server, in a process that has not been terminated. -/
def step (C : Setting) (v : RPCServer) (l : RPCLabel) : Option RPCServer :=
  if v.terminated then none
  else match l with
    | .deliver t body => match v.threads[t]? with
      | some ⟨.io s, ⟨_, _, []⟩⟩ => some (v.onData C t s body)
      | _ => none
    | .take t => (v.threads[t]?).bind (v.take t)
    | .advance t answer => (v.threads[t]?).bind (v.advance C t answer)
    | .takeResponse => match v.sending, v.responseQueue.items with
      | none, (s, r) :: _ => some { v with
          responseQueue := v.responseQueue.unlink
          sending := some ⟨s, r, false⟩ }
      | _, _ => none
    | .subtractResponse => match v.sending with
      | some ⟨s, r, false⟩ => some { v with
          responseQueue := v.responseQueue.sub
          sending := some ⟨s, r, true⟩ }
      | _ => none
    | .sendResponse => match v.sending with
      | some ⟨s, r, true⟩ => some { v.send C s r with sending := none }
      | _ => none
    | .completeWrite s position success =>
      ((Writer.machine C.endian).step (v.writers s) (.complete position success)).map fun w =>
        { v with writers := setWriter v.writers s w }

/-- The server as a machine: any number of I/O threads and workers beside the two dispatchers, any
services, any number of sessions. -/
def machine (C : Setting) : Transition.Machine RPCServer RPCLabel where
  init v := ∃ roles services, .requestDispatcher ∉ roles ∧ v = new roles services
  step := step C

/-- Nobody handles a request, and none waits in the queue or in the pool. -/
def Quiet (v : RPCServer) : Prop :=
  (∀ th ∈ v.threads, th.call.ops = []) ∧ v.requestQueue.items = [] ∧ v.tasks = []

instance (v : RPCServer) : Decidable v.Quiet := by
  unfold Quiet
  infer_instance

/-- A condition on what the environment answers to the operation that a thread carries out for a
request. -/
def answers (v : RPCServer) (l : RPCLabel) (p : Nat → Answer → RPCOp → Bool) : Bool :=
  match l with
  | .advance t answer => match v.threads[t]? with
    | some ⟨_, _, a, op :: _⟩ => p a answer op
    | _ => true
  | _ => true

/-- The environment in which check functions return. -/
def checksReturn (v : RPCServer) (l : RPCLabel) : Bool :=
  v.answers l fun _ answer op => match op with
    | .checkServiceParameter _ => answer.outcome.isReturn
    | _ => true

/-- No packet has been given this id. -/
def fresh (v : RPCServer) (uid : String) : Bool :=
  v.packets.all fun c => !c.history.contains .assigned || c.packet.requestId != uid

/-- The environment in which generated ids are fresh and the called functions leave the request's
id as it is. -/
def keepsIds (v : RPCServer) (l : RPCLabel) : Bool :=
  v.answers l fun a answer op => match op with
    | .initRPCPacket => v.fresh answer.uid
    | .checkServiceParameter _ | .running =>
      answer.packet.requestId == (v.packet a).requestId
    | _ => true

/-- The environment in which generated ids are fresh and not empty, and the called functions change
at most the packet's result. -/
def keepsPackets (v : RPCServer) (l : RPCLabel) : Bool :=
  v.answers l fun a answer op => match op with
    | .initRPCPacket => v.fresh answer.uid && !answer.uid.isEmpty
    | .checkServiceParameter _ | .running =>
      answer.packet == { v.packet a with result := answer.packet.result }
    | _ => true

/-- The environment in which check functions return, and execute functions return or throw a
`std::exception`. -/
def functionsEnd (v : RPCServer) (l : RPCLabel) : Bool :=
  v.answers l fun _ answer op => match op with
    | .checkServiceParameter _ => answer.outcome.isReturn
    | .running => answer.outcome != .escaped
    | _ => true

/-- The setting of the concrete runs, which receive only the empty packet and the one that asks
for the service `a`. -/
def sampleSetting (maxRequestPaddingCount maxResponsePaddingCount : Nat) : Setting :=
  { serverId := "server"
    uuid := fun _ => "session"
    maxRequestPaddingCount := maxRequestPaddingCount
    maxResponsePaddingCount := maxResponsePaddingCount
    endian := .little
    parseFromArray := fun body =>
      if body = [] then some {}
      else if body = ({ service := "a" } : RPCPacket).internalSerialize then
        some { service := "a" }
      else none
    byteSizeLong := fun packet => packet.internalSerialize.length
    serializeToArray := fun packet => some packet.internalSerialize }

/-- A request for the service `a` goes through the server, in so many operations on the three
threads; its check function leaves `checked` in the packet and returns true. -/
def oneRequest (checked : RPCPacket) (submits dispatches executes : Nat) : List RPCLabel :=
  [.deliver 1 ({ service := "a" } : RPCPacket).internalSerialize] ++
    List.replicate submits (.advance 1 { uid := "id" }) ++ [.take 0] ++
    List.replicate dispatches (.advance 0 { packet := checked }) ++ [.take 2] ++
    List.replicate executes (.advance 2 { packet := checked })

/-- The response dispatcher sends the oldest responses. -/
def sendResponses (count : Nat) : List RPCLabel :=
  (List.replicate count [.takeResponse, .subtractResponse, .sendResponse]).flatten

/-- The packet of `oneRequest` when it has been committed. -/
def samplePacket : RPCPacket :=
  { requestId := "id", innerId := "session", service := "a", status := .commited,
    error := .pktNoError }

/-! ## What one step does -/

/-- Every way an operation can end on a thread that works on request `a` of session `s`: the state
afterwards, and the operations that come before the rest of the program. -/
inductive Executes (C : Setting) (v : RPCServer) (s a : Nat) (answer : Answer) :
    RPCOp → RPCServer → List RPCOp → Prop where
  | initRPCPacket :
      Executes C v s a answer .initRPCPacket (v.initRPCPacket C s a answer.uid answer.time) []
  | addRequest : Executes C v s a answer .addRequest (v.addRequest C s a) []
  | found {event : RPCEvent} {entry : String × Nat} :
      RPCPacketManager.findRequest (v.packet a).requestId v.requests = some entry →
      Executes C v s a answer (.findRequest event) (v.tell a (.handled event))
        [.setStatus event (v.packet a).requestId]
  | notFound {event : RPCEvent} :
      RPCPacketManager.findRequest (v.packet a).requestId v.requests = none →
      Executes C v s a answer (.findRequest event) (v.tell a (.handled event)) []
  | setStatus {event : RPCEvent} {requestID sessionID : String} {p : Nat} :
      RPCPacketManager.findRequest requestID v.requests = some (sessionID, p) →
      Executes C v s a answer (.setStatus event requestID)
        (v.update p (Request.record event answer.time)) []
  | setNothing {event : RPCEvent} {requestID : String} :
      RPCPacketManager.findRequest requestID v.requests = none →
      Executes C v s a answer (.setStatus event requestID) v []
  | removeRequest {event : RPCEvent} :
      Executes C v s a answer (.removeRequest event) (v.removeRequest a event) []
  | createResponse {event : RPCEvent} :
      Executes C v s a answer (.createResponse event) (v.createResponse C s a event).1
        [.responseSize event v.responses.length]
  | responseRoom {event : RPCEvent} {r : Nat} :
      v.responseQueue.hasRoom C.maxResponsePaddingCount = true →
      Executes C v s a answer (.responseSize event r) v [.responseLink event r, .responseAdd]
  | responseFull {event : RPCEvent} {r : Nat} :
      v.responseQueue.hasRoom C.maxResponsePaddingCount = false →
      Executes C v s a answer (.responseSize event r)
        ((v.tell a (.dropped event)).settle r (.queueFull v.responseQueue.count v.heldResponses)) []
  | responseLink {event : RPCEvent} {r : Nat} :
      Executes C v s a answer (.responseLink event r) (v.responseLink s a event r) []
  | responseAdd : Executes C v s a answer .responseAdd
      { v with responseQueue := v.responseQueue.add } []
  | requestRoom : v.requestQueue.hasRoom C.maxRequestPaddingCount = true →
      Executes C v s a answer .requestSize (v.tell a .accepted)
        (raise .onDispatched ++ [.requestLink, .requestAdd])
  | requestFull : v.requestQueue.hasRoom C.maxRequestPaddingCount = false →
      Executes C v s a answer .requestSize (v.tell a .refused) (raise .onDispatchFailed)
  | requestLink : Executes C v s a answer .requestLink
      { v with requestQueue := v.requestQueue.link (s, a) } []
  | requestAdd : Executes C v s a answer .requestAdd
      { v with requestQueue := v.requestQueue.add } []
  | requestSub : Executes C v s a answer .requestSub
      { v with requestQueue := v.requestQueue.sub } []
  | emptyService : (v.packet a).service.isEmpty = true →
      Executes C v s a answer .processorOnCommited (v.tell a .emptyService)
        (raise .onServiceEmptyRequest)
  | unknownService : (v.packet a).service.isEmpty = false →
      RPCProcessor.searchService (v.packet a).service v.procedures = false →
      Executes C v s a answer .processorOnCommited (v.tell a .unknownService)
        (raise .onServiceNotFound)
  | knownService : (v.packet a).service.isEmpty = false →
      RPCProcessor.searchService (v.packet a).service v.procedures = true →
      Executes C v s a answer .processorOnCommited v
        [.checkServiceParameter (v.packet a).service]
  | notChecked {serviceName : String} : RPCProcessor.find serviceName v.procedures = none →
      Executes C v s a answer (.checkServiceParameter serviceName) (v.tell a (.checked false))
        (raise .onServiceParameterInvalid)
  | terminate {serviceName : String} :
      (RPCProcessor.find serviceName v.procedures = some none ∨
        ∀ result, answer.outcome ≠ .returned result) →
      Executes C v s a answer (.checkServiceParameter serviceName) { v with terminated := true }
        [.checkServiceParameter serviceName]
  | valid {serviceName : String} {functions : Nat} :
      RPCProcessor.find serviceName v.procedures = some (some functions) →
      answer.outcome = .returned true →
      Executes C v s a answer (.checkServiceParameter serviceName)
        (v.leave a answer.packet (.checked true)) [.commit]
  | invalid {serviceName : String} {functions : Nat} :
      RPCProcessor.find serviceName v.procedures = some (some functions) →
      answer.outcome = .returned false →
      Executes C v s a answer (.checkServiceParameter serviceName)
        (v.leave a answer.packet (.checked false)) (raise .onServiceParameterInvalid)
  | commit : Executes C v s a answer .commit (v.commit s a) []
  | invoked {serviceName : String} {functions : Nat} :
      (RPCProcessor.subscript serviceName v.procedures).2 = some functions →
      Executes C v s a answer (.execute serviceName)
        { v.tell a .invoked with
          procedures := (RPCProcessor.subscript serviceName v.procedures).1 } [.running]
  | missing {serviceName : String} :
      (RPCProcessor.subscript serviceName v.procedures).2 = none →
      Executes C v s a answer (.execute serviceName)
        { v.tell a .missing with
          procedures := (RPCProcessor.subscript serviceName v.procedures).1 }
        (raise .onServiceError)
  | returned {result : Bool} : answer.outcome = .returned result →
      Executes C v s a answer .running (v.leave a answer.packet .returned) (raise .onCompleted)
  | threw : answer.outcome = .threw →
      Executes C v s a answer .running (v.leave a answer.packet .threw) (raise .onServiceError)
  | escaped : answer.outcome = .escaped →
      Executes C v s a answer .running (v.leave a answer.packet .escaped) []

theorem executes_checkServiceParameter (C : Setting) (v : RPCServer) (s a : Nat)
    (answer : Answer) (serviceName : String) :
    Executes C v s a answer (.checkServiceParameter serviceName)
      (v.checkServiceParameter a serviceName answer).1
      (v.checkServiceParameter a serviceName answer).2 := by
  unfold checkServiceParameter
  split
  case h_1 hfind => exact .notChecked hfind
  case h_2 hfind => exact .terminate (.inl hfind)
  case h_3 functions hfind =>
    split
    case h_1 houtcome => exact .valid hfind houtcome
    case h_2 houtcome => exact .invalid hfind houtcome
    case h_3 houtcome =>
      refine .terminate (.inr fun result heq => ?_)
      rw [houtcome] at heq
      cases heq
    case h_4 houtcome =>
      refine .terminate (.inr fun result heq => ?_)
      rw [houtcome] at heq
      cases heq

theorem executes_processorOnCommited (C : Setting) (v : RPCServer) (s a : Nat)
    (answer : Answer) : Executes C v s a answer .processorOnCommited
      (v.processorOnCommited a).1 (v.processorOnCommited a).2 := by
  unfold processorOnCommited
  split
  case isTrue hempty => exact .emptyService hempty
  case isFalse hempty =>
    rw [Bool.not_eq_true] at hempty
    split
    case isTrue hsearch => exact .unknownService hempty (by simpa using hsearch)
    case isFalse hsearch => exact .knownService hempty (by simpa using hsearch)

/-- `Executes` says everything that an operation can do. -/
theorem executes_exec (C : Setting) (v : RPCServer) (s a : Nat) (answer : Answer) (op : RPCOp) :
    Executes C v s a answer op (v.exec C s a answer op).1 (v.exec C s a answer op).2 := by
  cases op with
  | initRPCPacket => exact .initRPCPacket
  | addRequest => exact .addRequest
  | findRequest event =>
    simp only [exec, findRequest]
    cases h : RPCPacketManager.findRequest (v.packet a).requestId v.requests with
    | none => exact .notFound h
    | some entry => exact .found h
  | setStatus event requestID =>
    simp only [exec, setStatus]
    split
    case h_1 sessionID p h => exact .setStatus h
    case h_2 h => exact .setNothing h
  | removeRequest event => exact .removeRequest
  | createResponse event => exact .createResponse
  | responseSize event r =>
    simp only [exec, responseSize]
    split
    case isTrue h => exact .responseRoom h
    case isFalse h => exact .responseFull (by simpa using h)
  | responseLink event r => exact .responseLink
  | responseAdd => exact .responseAdd
  | requestSize =>
    simp only [exec, requestSize]
    split
    case isTrue h => exact .requestRoom h
    case isFalse h => exact .requestFull (by simpa using h)
  | requestLink => exact .requestLink
  | requestAdd => exact .requestAdd
  | requestSub => exact .requestSub
  | processorOnCommited => exact executes_processorOnCommited C v s a answer
  | checkServiceParameter serviceName =>
    exact executes_checkServiceParameter C v s a answer serviceName
  | commit => exact .commit
  | execute serviceName =>
    simp only [exec, execute]
    cases h : (RPCProcessor.subscript serviceName v.procedures).2 with
    | none => exact .missing h
    | some functions => exact .invoked h
  | running =>
    simp only [exec, running]
    split
    case h_1 h => exact .returned h
    case h_2 h => exact .threw h
    case h_3 h => exact .escaped h

/-- Every way a label can take one server to the next. -/
inductive Moves (C : Setting) (v : RPCServer) : RPCLabel → RPCServer → Prop where
  | deliver {t s s₀ a₀ : Nat} {body : List UInt8} :
      v.threads[t]? = some ⟨.io s, s₀, a₀, []⟩ →
      Moves C v (.deliver t body) (v.onData C t s body)
  | takeRequest {t s₀ a₀ s a : Nat} {items : List (Nat × Nat)} :
      v.threads[t]? = some ⟨.requestDispatcher, s₀, a₀, []⟩ →
      v.requestQueue.items = (s, a) :: items →
      Moves C v (.take t) { v with
        requestQueue := v.requestQueue.unlink
        threads := v.threads.set t ⟨.requestDispatcher, s, a, .requestSub :: raise .onCommited⟩ }
  | takeTask {t s₀ a₀ s a : Nat} {serviceName : String} {tasks : List (String × Nat × Nat)} :
      v.threads[t]? = some ⟨.worker, s₀, a₀, []⟩ → v.tasks = (serviceName, s, a) :: tasks →
      Moves C v (.take t) { v with
        tasks := tasks
        threads := v.threads.set t ⟨.worker, s, a, [.execute serviceName]⟩ }
  | advance {t s a : Nat} {role : Role} {op : RPCOp} {rest ops : List RPCOp} {answer : Answer}
      {v' : RPCServer} : v.threads[t]? = some ⟨role, s, a, op :: rest⟩ →
      Executes C v s a answer op v' ops →
      Moves C v (.advance t answer) (v'.goto t ⟨role, s, a, ops ++ rest⟩)
  | takeResponse {s r : Nat} {items : List (Nat × Nat)} : v.sending = none →
      v.responseQueue.items = (s, r) :: items →
      Moves C v .takeResponse { v with
        responseQueue := v.responseQueue.unlink
        sending := some ⟨s, r, false⟩ }
  | subtractResponse {s r : Nat} : v.sending = some ⟨s, r, false⟩ →
      Moves C v .subtractResponse { v with
        responseQueue := v.responseQueue.sub
        sending := some ⟨s, r, true⟩ }
  | sendResponse {s r : Nat} : v.sending = some ⟨s, r, true⟩ →
      Moves C v .sendResponse { v.send C s r with sending := none }
  | completeWrite {s position : Nat} {success : Bool} {w : Writer} :
      (Writer.machine C.endian).step (v.writers s) (.complete position success) = some w →
      Moves C v (.completeWrite s position success)
        { v with writers := setWriter v.writers s w }

theorem moves_of_take {C : Setting} {v v' : RPCServer} {t : Nat}
    (h : (v.threads[t]?).bind (v.take t) = some v') : Moves C v (.take t) v' := by
  obtain ⟨th, hat, h⟩ := Option.bind_eq_some_iff.mp h
  unfold take at h
  split at h
  case h_1 =>
    split at h
    case h_1 hitems => cases h; exact .takeRequest hat hitems
    case h_2 => cases h
  case h_2 =>
    split at h
    case h_1 htasks => cases h; exact .takeTask hat htasks
    case h_2 => cases h
  case h_3 => cases h

theorem moves_of_step {C : Setting} {v v' : RPCServer} {l : RPCLabel}
    (h : step C v l = some v') : Moves C v l v' := by
  unfold step at h
  split at h
  case isTrue => cases h
  case isFalse =>
    cases l with
    | deliver t body =>
      dsimp only at h
      split at h
      case h_1 hat => cases h; exact .deliver hat
      case h_2 => cases h
    | take t => exact moves_of_take h
    | advance t answer =>
      obtain ⟨⟨role, s, a, ops⟩, hat, h⟩ := Option.bind_eq_some_iff.mp h
      cases ops with
      | nil => cases h
      | cons op rest =>
        cases h
        exact .advance hat (executes_exec C v s a answer op)
    | takeResponse =>
      dsimp only at h
      split at h
      case h_1 hsending hitems => cases h; exact .takeResponse hsending hitems
      case h_2 => cases h
    | subtractResponse =>
      dsimp only at h
      split at h
      case h_1 hsending => cases h; exact .subtractResponse hsending
      case h_2 => cases h
    | sendResponse =>
      dsimp only at h
      split at h
      case h_1 hsending => cases h; exact .sendResponse hsending
      case h_2 => cases h
    | completeWrite s position success =>
      obtain ⟨w, hstep, rfl⟩ := Option.map_eq_some_iff.mp h
      exact .completeWrite hstep

end RPCServer

end DSFramework.DSRPC
