import DSFramework.DSCommunication.Session.Lengths
import DSFramework.DSRPC.RPCEventHandler
import DSFramework.DSRPC.RPCPacket.ByteSize
import DSFramework.DSRPC.RPCPacketManager

/-!
# The sizes of the replies

A reply is a copy of the request with what the server has written into it: an id, the session's id
and the times of what has happened. Nothing limits its size on the way out, and the client's session
closes the connection on a body above `DSC_PACKET_BODY_MAX_SIZE`. So a request that just fits is
answered by replies that do not.

The replies here are those that are made before the execute function has run. `replySize` adds up
what is kept of the request and what is written at each stage.
-/

namespace DSFramework.DSRPC

open DSCommunication (Carries Endian bodyMaxSize carries_dscSendPacket dscSendPacket)

/-- The replies to a request whose execute function has not run. -/
inductive EarlyReply where
  | submitted
  | waiting
  | commited
  | busy
  | emptyRequest
  | notFound
  | invalidParameters
  deriving DecidableEq, Repr

/-- The event that the reply is made for. -/
def EarlyReply.event : EarlyReply → RPCEvent
  | .submitted => .onDeserialized
  | .waiting => .onDispatched
  | .commited => .onCommited
  | .busy => .onDispatchFailed
  | .emptyRequest => .onServiceEmptyRequest
  | .notFound => .onServiceNotFound
  | .invalidParameters => .onServiceParameterInvalid

/-- What a request meets on its way: the generated id, its session's id, the current times, and what
the check function leaves of a packet. -/
structure Handling where
  serverId : String
  uid : String
  sessionID : String
  createdTime : String
  postTime : String
  commitedTime : String
  failedTime : String
  check : RPCPacket → RPCPacket

namespace Handling

open RPCPacketManager (initRPCPacket updateStatus)

variable (g : Handling)

/-- The request when it has been submitted. -/
def submitted (received : RPCPacket) : RPCPacket :=
  initRPCPacket g.uid g.sessionID g.createdTime received

/-- The request when it waits in the dispatcher's queue. -/
def waiting (received : RPCPacket) : RPCPacket :=
  updateStatus RPCEvent.onDispatched.status g.postTime (g.submitted received)

/-- The request when the dispatcher's thread has taken it. -/
def commited (received : RPCPacket) : RPCPacket :=
  updateStatus RPCEvent.onCommited.status g.commitedTime (g.waiting received)

/-- The request as the reply copies it: the manager has handled the event. -/
def packetAt (received : RPCPacket) : EarlyReply → RPCPacket
  | .submitted => g.submitted received
  | .waiting => g.waiting received
  | .commited => g.commited received
  | .busy => updateStatus RPCEvent.onDispatchFailed.status g.failedTime (g.submitted received)
  | .emptyRequest =>
    updateStatus RPCEvent.onServiceEmptyRequest.status g.failedTime (g.commited received)
  | .notFound => updateStatus RPCEvent.onServiceNotFound.status g.failedTime (g.commited received)
  | .invalidParameters => updateStatus RPCEvent.onServiceParameterInvalid.status g.failedTime
      (g.check (g.commited received))

/-- The reply. -/
def reply (received : RPCPacket) (k : EarlyReply) : RPCPacket :=
  ResponseDispatcher.response g.serverId g.sessionID (g.packetAt received k) k.event

end Handling

/-! ## What is kept and what is written -/

namespace RPCPacket

/-- The fields that the server keeps as they are, or swaps. -/
def keptSize (packet : RPCPacket) : Nat :=
  stringSize packet.from + stringSize packet.to + stringSize packet.service +
    messageSize packet.parameters + messageSize packet.result + packet.unknownFields.length

/-- The ids and the times. -/
def stampsSize (packet : RPCPacket) : Nat :=
  stringSize packet.requestId + stringSize packet.innerId + stringSize packet.createdTime +
    stringSize packet.postTime + stringSize packet.commitedTime +
    stringSize packet.completedTime + stringSize packet.failedTime

end RPCPacket

/-- The size of the type of the reply to a packet, which is not written where it is the default. -/
def replyTypeSize (type : RPCPacketType) : Nat :=
  if type.value &&& RPCPacketType.taskRequest.value = RPCPacketType.taskRequest.value ∨
    type.value &&& RPCPacketType.taskResponse.value = RPCPacketType.taskResponse.value
  then 2 else 0

theorem enumSize_changeTypeToResponse (packet : RPCPacket) :
    enumSize (RPCPacketFactory.changeTypeToResponse packet).type.value =
      replyTypeSize packet.type := by
  unfold RPCPacketFactory.changeTypeToResponse replyTypeSize
  split
  case isTrue htask => rw [if_pos (.inl htask)]; rfl
  case isFalse htask =>
    split
    case isTrue hresponse => rw [if_pos (.inr hresponse)]; rfl
    case isFalse hresponse => rw [if_neg (not_or.mpr ⟨htask, hresponse⟩)]; rfl

/-- A reply is as large as what it keeps and what is written: type, error, status and stamps. -/
theorem byteSizeLong_createReply (error : RPCPacketError) (request : RPCPacket) :
    (RPCPacketFactory.createReply error request).byteSizeLong =
      request.keptSize + replyTypeSize request.type + enumSize error.value +
        enumSize request.status.value + request.stampsSize := by
  rw [RPCPacketFactory.createReply_eq]
  simp only [RPCPacket.byteSizeLong, RPCPacket.keptSize, RPCPacket.stampsSize,
    enumSize_changeTypeToResponse]
  omega

/-- Error code and status of a reply to an event take two bytes each. -/
theorem enumSize_event (event : RPCEvent) :
    enumSize event.error.value = 2 ∧ enumSize event.status.value = 2 := by
  cases event <;> decide

namespace Handling

variable (g : Handling)

/-- THE SIZE OF A REPLY: what is kept of the request, four bytes for error code and status, the
type, the ids, and the times that the request brings along or is given up to the stage. A check
function may have changed anything. -/
def replySize (received : RPCPacket) : EarlyReply → Nat
  | .submitted => received.keptSize + replyTypeSize received.type + 4 + stringSize g.uid +
      stringSize g.sessionID + stringSize g.createdTime + stringSize received.postTime +
      stringSize received.failedTime
  | .waiting => received.keptSize + replyTypeSize received.type + 4 + stringSize g.uid +
      stringSize g.sessionID + stringSize g.createdTime + stringSize g.postTime +
      stringSize received.failedTime
  | .commited => received.keptSize + replyTypeSize received.type + 4 + stringSize g.uid +
      stringSize g.sessionID + stringSize g.createdTime + stringSize g.postTime +
      stringSize g.commitedTime + stringSize received.failedTime
  | .busy => received.keptSize + replyTypeSize received.type + 4 + stringSize g.uid +
      stringSize g.sessionID + stringSize g.createdTime + stringSize received.postTime +
      stringSize g.failedTime
  | .emptyRequest | .notFound => received.keptSize + replyTypeSize received.type + 4 +
      stringSize g.uid + stringSize g.sessionID + stringSize g.createdTime +
      stringSize g.postTime + stringSize g.commitedTime + stringSize g.failedTime
  | .invalidParameters =>
    let checked := g.check (g.commited received)
    checked.keptSize + replyTypeSize checked.type + 4 + stringSize checked.requestId +
      stringSize checked.innerId + stringSize checked.createdTime + stringSize checked.postTime +
      stringSize checked.commitedTime + stringSize checked.completedTime + stringSize g.failedTime

/-- The manager has recorded the status of the reply's event. -/
theorem packetAt_status (received : RPCPacket) (k : EarlyReply) :
    (g.packetAt received k).status = k.event.status := by
  cases k <;> rfl

theorem length_reply (received : RPCPacket) (k : EarlyReply) :
    (g.reply received k).internalSerialize.length = g.replySize received k := by
  have hparsed : k.event ≠ .onDeserializedFailed := by cases k <;> decide
  obtain ⟨herror, hstatus⟩ := enumSize_event k.event
  have hempty : stringSize "" = 0 := rfl
  rw [RPCPacket.length_internalSerialize, reply, response_eq_createReply hparsed,
    byteSizeLong_createReply, herror, g.packetAt_status, hstatus]
  cases k <;>
    simp only [packetAt, submitted, waiting, commited, replySize, RPCEvent.status,
      RPCPacketManager.updateStatus_waiting, RPCPacketManager.updateStatus_commited,
      RPCPacketManager.updateStatus_failed, RPCPacketManager.initRPCPacket, RPCPacket.keptSize,
      RPCPacket.stampsSize, hempty] <;>
    omega

/-- A serialized reply is within the limit of the session that reads it, and the frame that `Send`
makes of it is taken by the client, which reads on. -/
def Admitted (e : Endian) (reply : RPCPacket) : Prop :=
  reply.internalSerialize.length ≤ bodyMaxSize ∧
    Carries (dscSendPacket e reply.internalSerialize
      (UInt16.ofInt reply.internalSerialize.length)) reply.internalSerialize
      reply.internalSerialize.length

theorem admitted_iff (e : Endian) (reply : RPCPacket) :
    Admitted e reply ↔ reply.internalSerialize.length ≤ bodyMaxSize := by
  refine ⟨fun h => h.1, fun hmax => ⟨hmax, ?_⟩⟩
  have hmod : reply.internalSerialize.length % 65536 = reply.internalSerialize.length := by
    simp only [bodyMaxSize] at hmax
    omega
  have hcarries : Carries (dscSendPacket e reply.internalSerialize
      (UInt16.ofInt reply.internalSerialize.length)) reply.internalSerialize
      (reply.internalSerialize.length % 65536) :=
    carries_dscSendPacket e (Nat.le_of_eq hmod) (hmod.symm ▸ hmax)
  rwa [hmod] at hcarries

/-- With ids of 36 and times of at most 27 characters, a check function that leaves the packet as
it is and a request that brings no times along, the replies add at most 198 bytes to what is
kept. -/
theorem replySize_le (received : RPCPacket) (k : EarlyReply)
    (hids : stringSize g.uid = 38 ∧ stringSize g.sessionID = 38)
    (htimes : stringSize g.createdTime ≤ 29 ∧ stringSize g.postTime ≤ 29 ∧
      stringSize g.commitedTime ≤ 29 ∧ stringSize g.failedTime ≤ 29)
    (hcheck : ∀ packet, g.check packet = packet)
    (hreceived : received.postTime = "" ∧ received.failedTime = "") :
    g.replySize received k ≤ received.keptSize + 198 := by
  obtain ⟨huid, hsession⟩ := hids
  obtain ⟨hcreated, hpost, hcommited, hfailed⟩ := htimes
  obtain ⟨hnopost, hnofailed⟩ := hreceived
  have hempty : stringSize "" = 0 := rfl
  have htype : replyTypeSize received.type ≤ 2 := by
    unfold replyTypeSize
    split <;> decide
  cases k <;>
    simp only [replySize, hcheck, commited, waiting, submitted, RPCEvent.status,
      RPCPacketManager.updateStatus_waiting, RPCPacketManager.updateStatus_commited,
      RPCPacketManager.initRPCPacket, RPCPacket.keptSize, huid, hsession, hnopost, hnofailed,
      hempty] <;>
    omega

/-- So the client takes every reply to a request that leaves so much room. -/
theorem admitted_of_keptSize_le (e : Endian) (received : RPCPacket) (k : EarlyReply)
    (hids : stringSize g.uid = 38 ∧ stringSize g.sessionID = 38)
    (htimes : stringSize g.createdTime ≤ 29 ∧ stringSize g.postTime ≤ 29 ∧
      stringSize g.commitedTime ≤ 29 ∧ stringSize g.failedTime ≤ 29)
    (hcheck : ∀ packet, g.check packet = packet)
    (hreceived : received.postTime = "" ∧ received.failedTime = "")
    (hkept : received.keptSize + 198 ≤ bodyMaxSize) : Admitted e (g.reply received k) := by
  rw [admitted_iff, length_reply]
  exact Nat.le_trans (g.replySize_le received k hids htimes hcheck hreceived) hkept

/-- A request with parameters of so many bytes. -/
def sampleRequest (size : Nat) : RPCPacket :=
  { type := .taskRequest
    service := "a"
    parameters := some { typeUrl := "", value := List.replicate size 0 } }

/-- Ids and times as they are generated, the microseconds not zero. -/
def sample : Handling :=
  { serverId := "server"
    uid := "01234567-89ab-cdef-0123-456789abcdef"
    sessionID := "fedcba98-7654-3210-fedc-ba9876543210"
    createdTime := "2024-Jan-01 12:00:00.123456"
    postTime := "2024-Jan-01 12:00:00.234567"
    commitedTime := "2024-Jan-01 12:00:01.345678"
    failedTime := "2024-Jan-01 12:00:02.456789"
    check := id }

end Handling

end DSFramework.DSRPC
