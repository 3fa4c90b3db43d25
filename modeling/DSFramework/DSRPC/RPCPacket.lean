/-!
# The packet and its factory

`RPCPacket` as the protobuf definition has it. The three enumerations are open: a parsed packet
may carry any `int32` in them, so each is a number with the names of the declared values.

`RPCPacketFactory` builds every packet that the server sends, all but one as a changed copy of
the request. The last section is the wire format as it is documented: the fields in the order of
their numbers, without those that have their default value. Fields that the definition does not
know are kept as they were received, and written after the others. The generated code writes this
with the functions of its runtime, `Runtime.internalSerialize_eq`.
-/

namespace DSFramework.DSRPC

structure RPCPacketType where
  value : Int32
  deriving DecidableEq, Repr

namespace RPCPacketType

def defaultResponse : RPCPacketType := ⟨0⟩
def taskRequest : RPCPacketType := ⟨1⟩
def taskResponse : RPCPacketType := ⟨2⟩
def queryRequest : RPCPacketType := ⟨3⟩
def queryResponse : RPCPacketType := ⟨4⟩

end RPCPacketType

structure RPCPacketError where
  value : Int32
  deriving DecidableEq, Repr

namespace RPCPacketError

def pktDefault : RPCPacketError := ⟨0⟩
def pktNoError : RPCPacketError := ⟨1⟩
def pktSerializationError : RPCPacketError := ⟨2⟩
def pktDeserializationError : RPCPacketError := ⟨3⟩
def pktEmptyRequest : RPCPacketError := ⟨4⟩
def serviceBusy : RPCPacketError := ⟨5⟩
def serviceNotFound : RPCPacketError := ⟨6⟩
def serviceIvaildParameters : RPCPacketError := ⟨7⟩
def serviceError : RPCPacketError := ⟨8⟩

end RPCPacketError

structure RPCPacketStatus where
  value : Int32
  deriving DecidableEq, Repr

namespace RPCPacketStatus

def defaulted : RPCPacketStatus := ⟨0⟩
def submitted : RPCPacketStatus := ⟨1⟩
def waiting : RPCPacketStatus := ⟨2⟩
def commited : RPCPacketStatus := ⟨3⟩
def completed : RPCPacketStatus := ⟨4⟩
def failed : RPCPacketStatus := ⟨5⟩

end RPCPacketStatus

/-- `google.protobuf.Any`. -/
structure AnyMessage where
  typeUrl : String
  value : List UInt8
  unknownFields : List UInt8 := []
  deriving DecidableEq, Repr

/-- A packet. The initial values are those of an empty protobuf message. -/
structure RPCPacket where
  type : RPCPacketType := .defaultResponse
  error : RPCPacketError := .pktDefault
  status : RPCPacketStatus := .defaulted
  «from» : String := ""
  «to» : String := ""
  innerId : String := ""
  createdTime : String := ""
  postTime : String := ""
  commitedTime : String := ""
  completedTime : String := ""
  failedTime : String := ""
  requestId : String := ""
  service : String := ""
  parameters : Option AnyMessage := none
  result : Option AnyMessage := none
  unknownFields : List UInt8 := []
  deriving DecidableEq, Repr, Inhabited

namespace RPCPacketFactory

/-- `ChangeTypeToResponse`: the types are tested as bit masks. -/
def changeTypeToResponse (packet : RPCPacket) : RPCPacket :=
  if packet.type.value &&& RPCPacketType.taskRequest.value = RPCPacketType.taskRequest.value then
    { packet with type := .taskResponse }
  else if packet.type.value &&& RPCPacketType.taskResponse.value =
      RPCPacketType.taskResponse.value then
    { packet with type := .taskRequest }
  else { packet with type := .defaultResponse }

def setErrorCode (packet : RPCPacket) (error : RPCPacketError) : RPCPacket :=
  { packet with error := error }

/-- `ChangeRecvSend`: the reply goes back. -/
def changeRecvSend (packet : RPCPacket) : RPCPacket :=
  { packet with «from» := packet.to, «to» := packet.from }

/-- The steps that all replies to a request share: copy, type, error code, direction. -/
def createReply (error : RPCPacketError) (request : RPCPacket) : RPCPacket :=
  changeRecvSend (setErrorCode (changeTypeToResponse request) error)

def createPacketResponse : RPCPacket → RPCPacket := createReply .pktNoError
def createEmptyRequestErrorPacket : RPCPacket → RPCPacket := createReply .pktEmptyRequest
def createDispatchedFailedResponsePacket : RPCPacket → RPCPacket := createReply .serviceBusy
def createServiceNotFoundResponsePacket : RPCPacket → RPCPacket := createReply .serviceNotFound
def createServiceParameterInvalidResponsePacket : RPCPacket → RPCPacket :=
  createReply .serviceIvaildParameters
def createServiceErrorResponsePacket : RPCPacket → RPCPacket := createReply .serviceError

/-- `CreateDeserializedErrorPacket`: the one reply that answers no packet. -/
def createDeserializedErrorPacket («from» «to» innerID : String) : RPCPacket :=
  { type := .defaultResponse
    error := .pktDeserializationError
    status := .failed
    innerId := innerID
    «from» := «from»
    «to» := «to» }

/-- A reply is the request but for its type, its error code and its direction. -/
theorem createReply_eq (error : RPCPacketError) (request : RPCPacket) :
    createReply error request = { request with
      type := (changeTypeToResponse request).type
      error := error
      «from» := request.to
      «to» := request.from } := by
  simp only [createReply, changeRecvSend, setErrorCode, changeTypeToResponse]
  split
  · rfl
  · split <;> rfl

end RPCPacketFactory

/-! ## The wire format -/

/-- A varint of at most `groups` groups of seven bits. -/
def varint : Nat → Nat → List UInt8
  | 0, _ => []
  | groups + 1, n =>
    if n < 128 then [UInt8.ofNat n]
    else UInt8.ofNat (n % 128 + 128) :: varint groups (n / 128)

/-- A field that is an enumeration: the value is extended to 64 bits. -/
def writeEnumToArray (field : Nat) (value : Int32) : List UInt8 :=
  if value = 0 then []
  else varint 5 (field * 8) ++ varint 10 value.toInt64.toUInt64.toNat

/-- A field that is a sequence of bytes. -/
def writeBytes (field : Nat) (bytes : List UInt8) : List UInt8 :=
  varint 5 (field * 8 + 2) ++ varint 5 bytes.length ++ bytes

/-- A field that is a string. -/
def writeString (field : Nat) (s : String) : List UInt8 :=
  if s.isEmpty then [] else writeBytes field s.toUTF8.data.toList

/-- `google.protobuf.Any`, serialized. -/
def AnyMessage.internalSerialize (message : AnyMessage) : List UInt8 :=
  writeString 1 message.typeUrl ++
    (if message.value.isEmpty then [] else writeBytes 2 message.value) ++ message.unknownFields

/-- A field that is a message, which may be absent. -/
def writeMessage (field : Nat) : Option AnyMessage → List UInt8
  | some message => writeBytes field message.internalSerialize
  | none => []

/-- A packet, serialized. -/
def RPCPacket.internalSerialize (packet : RPCPacket) : List UInt8 :=
  writeEnumToArray 1 packet.type.value ++ writeEnumToArray 2 packet.error.value ++
    writeEnumToArray 3 packet.status.value ++ writeString 4 packet.from ++
    writeString 5 packet.to ++ writeString 6 packet.innerId ++
    writeString 7 packet.createdTime ++ writeString 8 packet.postTime ++
    writeString 9 packet.commitedTime ++ writeString 10 packet.completedTime ++
    writeString 11 packet.failedTime ++ writeString 12 packet.requestId ++
    writeString 13 packet.service ++ writeMessage 14 packet.parameters ++
    writeMessage 15 packet.result ++ packet.unknownFields

end DSFramework.DSRPC
