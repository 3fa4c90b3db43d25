import DSFramework.DSRPC.RPCPacket

/-!
# The events and who handles them

`RPCServer::EventHandlerInitialize` registers the manager, the response dispatcher and the next
station of a request, in this order, and `RPCEventHandler` calls its handlers in the order in which
they were registered, on the thread that raises the event. So raising an event is a program: the
operations of the manager's handler, of the response dispatcher's, and those that take the request
on to the next station.

Each operation is one step of one thread: it ends where a lock is released, an atomic is changed or
another function is called, and what it decides is put before the rest of the program.
-/

namespace DSFramework.DSRPC

/-- The events that the server raises. `OnFailed` is declared, handled and never raised. -/
inductive RPCEvent where
  | onDeserialized
  | onDeserializedFailed
  | onDispatched
  | onDispatchFailed
  | onCommited
  | onServiceEmptyRequest
  | onServiceNotFound
  | onServiceParameterInvalid
  | onServiceError
  | onCompleted
  deriving DecidableEq, Repr

namespace RPCEvent

/-- The status that the manager gives a request when it handles the event. -/
def status : RPCEvent → RPCPacketStatus
  | .onDeserialized => .submitted
  | .onDispatched => .waiting
  | .onCommited => .commited
  | .onCompleted => .completed
  | .onDeserializedFailed | .onDispatchFailed | .onServiceEmptyRequest | .onServiceNotFound
  | .onServiceParameterInvalid | .onServiceError => .failed

/-- Does the manager forget the request when it handles the event? -/
def terminal : RPCEvent → Bool
  | .onDispatchFailed | .onServiceEmptyRequest | .onServiceNotFound
  | .onServiceParameterInvalid | .onServiceError | .onCompleted => true
  | .onDeserialized | .onDeserializedFailed | .onDispatched | .onCommited => false

/-- The error code of the response to the event. -/
def error : RPCEvent → RPCPacketError
  | .onDeserialized | .onDispatched | .onCommited | .onCompleted => .pktNoError
  | .onDeserializedFailed => .pktDeserializationError
  | .onDispatchFailed => .serviceBusy
  | .onServiceEmptyRequest => .pktEmptyRequest
  | .onServiceNotFound => .serviceNotFound
  | .onServiceParameterInvalid => .serviceIvaildParameters
  | .onServiceError => .serviceError

end RPCEvent

/-- An operation on a request that one thread carries out in one step. A response is named by its
number. -/
inductive RPCOp where
  /-- `RPCPacketManager::InitRPCPacket`. -/
  | initRPCPacket
  /-- `RPCPacketManager::AddRequest`. -/
  | addRequest
  /-- `UpdateRequestStatus` looks for the entry, without the lock. -/
  | findRequest (event : RPCEvent)
  /-- `UpdateRequestStatus` changes the packet of the entry it has found, under the lock. -/
  | setStatus (event : RPCEvent) (requestID : String)
  /-- `RPCPacketManager::RemoveRequest`. -/
  | removeRequest (event : RPCEvent)
  /-- `RPCPacketFactory` makes the response to the event. -/
  | createResponse (event : RPCEvent)
  /-- `ResponseDispatcher::PostRequestToQueue` compares the size of its queue. -/
  | responseSize (event : RPCEvent) (response : Nat)
  /-- `Push` links the response. -/
  | responseLink (event : RPCEvent) (response : Nat)
  /-- `Push` counts the response. -/
  | responseAdd
  /-- `RequestDispatcher::PostRequestToQueue` compares the size of its queue. -/
  | requestSize
  /-- `Push` links the request. -/
  | requestLink
  /-- `Push` counts the request. -/
  | requestAdd
  /-- `WaitPop` subtracts the request that it has unlinked. -/
  | requestSub
  /-- `RPCProcessor::OnCommited`, up to the check of the parameters. -/
  | processorOnCommited
  /-- `RPCProcessor::CheckServiceParameter`, with the check function's run. -/
  | checkServiceParameter (serviceName : String)
  /-- `RPCProcessor::Execute`: `ThreadPool::Commit` queues the task. -/
  | commit
  /-- The task looks the execute function up and calls it. -/
  | execute (serviceName : String)
  /-- The execute function runs and returns or throws. -/
  | running
  deriving DecidableEq, Repr

/-- `RPCPacketManager`'s handlers. -/
def RPCPacketManager.handler : RPCEvent → List RPCOp
  | .onDeserialized => [.initRPCPacket, .addRequest]
  | .onDispatched => [.findRequest .onDispatched]
  | .onCommited => [.findRequest .onCommited]
  | .onDispatchFailed => [.findRequest .onDispatchFailed, .removeRequest .onDispatchFailed]
  | .onServiceNotFound => [.findRequest .onServiceNotFound, .removeRequest .onServiceNotFound]
  | .onServiceParameterInvalid =>
    [.findRequest .onServiceParameterInvalid, .removeRequest .onServiceParameterInvalid]
  | .onServiceError => [.findRequest .onServiceError, .removeRequest .onServiceError]
  | .onServiceEmptyRequest =>
    [.findRequest .onServiceEmptyRequest, .removeRequest .onServiceEmptyRequest]
  | .onCompleted => [.findRequest .onCompleted, .removeRequest .onCompleted]
  -- the manager is not registered for this event
  | .onDeserializedFailed => []

/-- The packet of `ResponseDispatcher`'s handlers: `CreateDeserializedErrorPacket` for a frame that
is no packet, and the factory's function for the event otherwise. -/
def ResponseDispatcher.response (serverId uuid : String) (request : RPCPacket) :
    RPCEvent → RPCPacket
  | .onDeserialized | .onDispatched | .onCommited | .onCompleted =>
    RPCPacketFactory.createPacketResponse request
  | .onDeserializedFailed => RPCPacketFactory.createDeserializedErrorPacket serverId uuid uuid
  | .onDispatchFailed => RPCPacketFactory.createDispatchedFailedResponsePacket request
  | .onServiceEmptyRequest => RPCPacketFactory.createEmptyRequestErrorPacket request
  | .onServiceNotFound => RPCPacketFactory.createServiceNotFoundResponsePacket request
  | .onServiceParameterInvalid =>
    RPCPacketFactory.createServiceParameterInvalidResponsePacket request
  | .onServiceError => RPCPacketFactory.createServiceErrorResponsePacket request

/-- `ResponseDispatcher`'s handlers: make the response and post it. -/
def ResponseDispatcher.handler (event : RPCEvent) : List RPCOp := [.createResponse event]

/-- The handler that takes the request on: `RequestDispatcher::OnDeserialized`, which posts the
request, and `RPCProcessor::OnCommited`. -/
def nextStation : RPCEvent → List RPCOp
  | .onDeserialized => [.requestSize]
  | .onCommited => [.processorOnCommited]
  | _ => []

/-- `RPCEventHandler` raises an event. -/
def raise (event : RPCEvent) : List RPCOp :=
  RPCPacketManager.handler event ++ ResponseDispatcher.handler event ++ nextStation event

/-- Every response to a parsed packet is a reply of the factory with the error of its event. -/
theorem response_eq_createReply {event : RPCEvent} (h : event ≠ .onDeserializedFailed)
    (serverId uuid : String) (request : RPCPacket) :
    ResponseDispatcher.response serverId uuid request event =
      RPCPacketFactory.createReply event.error request := by
  cases event with
  | onDeserializedFailed => exact absurd rfl h
  | onDeserialized | onDispatched | onDispatchFailed | onCommited | onServiceEmptyRequest
  | onServiceNotFound | onServiceParameterInvalid | onServiceError | onCompleted => rfl

/-- A response without an error never goes with the status `FAILED`. -/
theorem status_ne_failed {event : RPCEvent} (h : event.error = .pktNoError) :
    event.status ≠ .failed := by
  revert h
  cases event <;> decide

end DSFramework.DSRPC
