import DSFramework.DSRPC.RPCPacket.ByteSize
import DSFramework.Lib.Grammar

/-!
# The runtime that the generated code is linked with

The generated code writes and reads with the functions of the protobuf runtime, and so does
`google.protobuf.Any`. `Runtime` says what is documented of them: a field that was read is read
again from what is written for it, a number or a run of bytes that is written is read, the writers
write the wire format, where a size fits into an `int`, and the sizes are those of what is written.

`internalSerialize` and `byteSizeLong` of a runtime are the generated code's, which call these
functions field by field. They are what the wire format says, `internalSerialize_eq`.
-/

namespace DSFramework.DSRPC

/-- What a field carries: a number, a run of bytes, or something of another wire type (a number of
fixed width, a group) in its encoding. -/
inductive Content where
  | varint (n : UInt64)
  | bytes (bytes : List UInt8)
  | other (kind : Nat) (encoding : List UInt8)
  deriving DecidableEq, Repr

structure Field where
  number : Nat
  content : Content
  deriving DecidableEq, Repr

/-- A field with its tag. -/
def Field.write (field : Field) : List UInt8 :=
  match field.content with
  | .varint n => varint 5 (field.number * 8) ++ varint 10 n.toNat
  | .bytes bytes => writeBytes field.number bytes
  | .other kind encoding => varint 5 (field.number * 8 + kind) ++ encoding

theorem varint_pos (groups n : Nat) : 0 < (varint (groups + 1) n).length := by
  rw [varint]
  split <;> simp

theorem Field.write_pos (field : Field) : 0 < field.write.length := by
  unfold write writeBytes
  split <;> simp only [List.length_append] <;> have := varint_pos 4 <;> grind

/-- The runtime's reading of a field, inside so many messages. The numbers of fields have 29 bits,
and a run of bytes may be as long as `INT_MAX` less the 16 bytes of slop. -/
structure Reading where
  readField (nested : Nat) : List UInt8 → Option (Field × List UInt8)
  readField_append {nested : Nat} {bytes rest : List UInt8} {field : Field} (tail : List UInt8) :
    readField nested bytes = some (field, rest) →
      readField nested (bytes ++ tail) = some (field, rest ++ tail)
  readField_write {nested : Nat} {bytes rest : List UInt8} {field : Field} :
    readField nested bytes = some (field, rest) → readField nested field.write = some (field, [])
  readField_length {nested : Nat} {bytes rest : List UInt8} {field : Field} :
    readField nested bytes = some (field, rest) →
      field.write.length + rest.length ≤ bytes.length
  readField_varint (nested : Nat) {number : Nat} (n : UInt64) :
    0 < number → number < 536870912 →
      readField nested (Field.write ⟨number, .varint n⟩) = some (⟨number, .varint n⟩, [])
  readField_bytes (nested : Nat) {number : Nat} {bytes : List UInt8} :
    0 < number → number < 536870912 → bytes.length < 2147483631 →
      readField nested (Field.write ⟨number, .bytes bytes⟩) = some (⟨number, .bytes bytes⟩, [])

namespace Reading

variable (reading : Reading)

def fields (nested : Nat) : Grammar UInt8 Field where
  write := Field.write
  read := reading.readField nested
  write_pos := Field.write_pos
  read_append := reading.readField_append
  read_write := reading.readField_write
  read_length := reading.readField_length

@[simp] theorem fields_write (nested : Nat) (field : Field) :
    (reading.fields nested).write field = field.write := rfl

end Reading

/-- `TcParser`'s reading of a string: bytes that are not UTF-8 are an error. -/
def readString (bytes : List UInt8) : Option String := String.fromUTF8? ⟨bytes.toArray⟩

/-- A number as the value of an open enumeration: its low 32 bits. -/
def readEnum (n : UInt64) : Int32 := n.toUInt32.toInt32

/-! ## `google.protobuf.Any` -/

namespace AnyMessage

def empty : AnyMessage := ⟨"", [], []⟩

/-- A field of `Any`. -/
def parseField (message : AnyMessage) (field : Field) : Option AnyMessage :=
  match field.number, field.content with
  | 1, .bytes bytes => (readString bytes).map fun s => { message with typeUrl := s }
  | 2, .bytes bytes => some { message with value := bytes }
  | _, _ => some { message with unknownFields := message.unknownFields ++ field.write }

/-- `_InternalParse` of `Any`, into a message that may have fields already. -/
def internalParse (reading : Reading) (message : AnyMessage) (bytes : List UInt8) :
    Option AnyMessage :=
  (reading.fields 1).parse parseField message bytes

/-- The fields that have their default value leave those of `this`. -/
def mergeImpl (this «from» : AnyMessage) : AnyMessage where
  typeUrl := if from.typeUrl.isEmpty then this.typeUrl else from.typeUrl
  value := if from.value.isEmpty then this.value else from.value
  unknownFields := this.unknownFields ++ from.unknownFields

end AnyMessage

/-! ## The runtime -/

/-- What the generated code calls, and what it does. -/
structure Runtime extends Reading where
  /-- `WireFormatLite::WriteEnumToArray`: the value is extended to 64 bits. -/
  writeEnumToArray (field : Nat) (value : Int32) : List UInt8
  /-- `EpsCopyOutputStream::WriteStringMaybeAliased`. -/
  writeStringMaybeAliased (field : Nat) (s : String) : List UInt8
  /-- `WireFormatLite::InternalWriteMessage`, of an `Any`. -/
  internalWriteMessage (field : Nat) (message : AnyMessage) : List UInt8
  /-- `WireFormatLite::EnumSize`. -/
  enumSize (value : Int32) : Nat
  /-- `WireFormatLite::StringSize`. -/
  stringSize (s : String) : Nat
  /-- `WireFormatLite::MessageSize`, of an `Any`. -/
  messageSize (message : AnyMessage) : Nat
  /-- The parser of a field that is an `Any`: what arrives is merged into what is there. -/
  parseMessage (message : AnyMessage) (bytes : List UInt8) : Option AnyMessage
  /-- `Any::MergeFrom`. -/
  mergeFrom (this «from» : AnyMessage) : AnyMessage
  writeEnumToArray_eq {field : Nat} (value : Int32) : 0 < field → field < 536870912 →
    writeEnumToArray field value =
      varint 5 (field * 8) ++ varint 10 value.toInt64.toUInt64.toNat
  writeStringMaybeAliased_eq {field : Nat} {s : String} : 0 < field → field < 536870912 →
    s.toUTF8.data.toList.length ≤ 2147483647 →
      writeStringMaybeAliased field s = writeBytes field s.toUTF8.data.toList
  internalWriteMessage_eq {field : Nat} {message : AnyMessage} : 0 < field → field < 536870912 →
    message.byteSizeLong ≤ 2147483647 →
      internalWriteMessage field message = writeBytes field message.internalSerialize
  enumSize_eq (value : Int32) :
    enumSize value = (varint 10 value.toInt64.toUInt64.toNat).length
  stringSize_eq {s : String} : s.toUTF8.data.toList.length ≤ 2147483647 →
    stringSize s = lengthDelimitedSize s.toUTF8.data.toList.length
  messageSize_eq {message : AnyMessage} : message.byteSizeLong ≤ 2147483647 →
    messageSize message = lengthDelimitedSize message.byteSizeLong
  parseMessage_eq (message : AnyMessage) (bytes : List UInt8) :
    parseMessage message bytes = message.internalParse toReading bytes
  mergeFrom_eq (this «from» : AnyMessage) : mergeFrom this «from» = this.mergeImpl «from»

namespace Runtime

variable (runtime : Runtime)

/-! ## The generated code -/

def writeEnum (field : Nat) (value : Int32) : List UInt8 :=
  if value = 0 then [] else runtime.writeEnumToArray field value

def writeString (field : Nat) (s : String) : List UInt8 :=
  if s.isEmpty then [] else runtime.writeStringMaybeAliased field s

def writeMessage (field : Nat) : Option AnyMessage → List UInt8
  | some message => runtime.internalWriteMessage field message
  | none => []

/-- `RPCPacket::_InternalSerialize`. -/
def internalSerialize (packet : RPCPacket) : List UInt8 :=
  runtime.writeEnum 1 packet.type.value ++ runtime.writeEnum 2 packet.error.value ++
    runtime.writeEnum 3 packet.status.value ++ runtime.writeString 4 packet.from ++
    runtime.writeString 5 packet.to ++ runtime.writeString 6 packet.innerId ++
    runtime.writeString 7 packet.createdTime ++ runtime.writeString 8 packet.postTime ++
    runtime.writeString 9 packet.commitedTime ++ runtime.writeString 10 packet.completedTime ++
    runtime.writeString 11 packet.failedTime ++ runtime.writeString 12 packet.requestId ++
    runtime.writeString 13 packet.service ++ runtime.writeMessage 14 packet.parameters ++
    runtime.writeMessage 15 packet.result ++ packet.unknownFields

def enumFieldSize (value : Int32) : Nat := if value = 0 then 0 else 1 + runtime.enumSize value

def stringFieldSize (s : String) : Nat := if s.isEmpty then 0 else 1 + runtime.stringSize s

def messageFieldSize : Option AnyMessage → Nat
  | some message => 1 + runtime.messageSize message
  | none => 0

/-- `RPCPacket::ByteSizeLong`. -/
def byteSizeLong (packet : RPCPacket) : Nat :=
  runtime.stringFieldSize packet.from + runtime.stringFieldSize packet.to +
    runtime.stringFieldSize packet.innerId + runtime.stringFieldSize packet.createdTime +
    runtime.stringFieldSize packet.postTime + runtime.stringFieldSize packet.commitedTime +
    runtime.stringFieldSize packet.completedTime + runtime.stringFieldSize packet.failedTime +
    runtime.stringFieldSize packet.requestId + runtime.stringFieldSize packet.service +
    runtime.messageFieldSize packet.parameters + runtime.messageFieldSize packet.result +
    runtime.enumFieldSize packet.type.value + runtime.enumFieldSize packet.error.value +
    runtime.enumFieldSize packet.status.value + packet.unknownFields.length

/-- `MessageLite::SerializeToArray`: a message of more than `INT_MAX` bytes is refused. -/
def serializeToArray (packet : RPCPacket) : Option (List UInt8) :=
  if 2147483647 < runtime.byteSizeLong packet then none
  else some (runtime.internalSerialize packet)

/-! ## The generated code writes the wire format -/

variable {field : Nat}

theorem writeEnum_eq (hpos : 0 < field) (hlt : field < 536870912) (value : Int32) :
    runtime.writeEnum field value = DSRPC.writeEnumToArray field value := by
  rw [writeEnum, runtime.writeEnumToArray_eq value hpos hlt]
  rfl

theorem writeString_eq (hpos : 0 < field) (hlt : field < 536870912) {s : String}
    (h : DSRPC.stringSize s ≤ 2147483647) :
    runtime.writeString field s = DSRPC.writeString field s := by
  unfold DSRPC.stringSize lengthDelimitedSize at h
  unfold writeString DSRPC.writeString
  split
  · rfl
  · next hs =>
    rw [if_neg hs] at h
    exact runtime.writeStringMaybeAliased_eq hpos hlt (by omega)

theorem writeMessage_eq (hpos : 0 < field) (hlt : field < 536870912)
    {message : Option AnyMessage} (h : DSRPC.messageSize message ≤ 2147483647) :
    runtime.writeMessage field message = DSRPC.writeMessage field message := by
  cases message with
  | none => rfl
  | some message =>
    simp only [DSRPC.messageSize, lengthDelimitedSize] at h
    exact runtime.internalWriteMessage_eq hpos hlt (by omega)

theorem enumFieldSize_eq (value : Int32) :
    runtime.enumFieldSize value = DSRPC.enumSize value := by
  rw [enumFieldSize, runtime.enumSize_eq]
  rfl

theorem stringFieldSize_eq {s : String} (h : DSRPC.stringSize s ≤ 2147483647) :
    runtime.stringFieldSize s = DSRPC.stringSize s := by
  unfold DSRPC.stringSize lengthDelimitedSize at h
  unfold stringFieldSize DSRPC.stringSize
  split
  · rfl
  · next hs =>
    rw [if_neg hs] at h
    rw [runtime.stringSize_eq (by omega)]

theorem messageFieldSize_eq {message : Option AnyMessage}
    (h : DSRPC.messageSize message ≤ 2147483647) :
    runtime.messageFieldSize message = DSRPC.messageSize message := by
  cases message with
  | none => rfl
  | some message =>
    simp only [DSRPC.messageSize, lengthDelimitedSize] at h
    rw [messageFieldSize, runtime.messageSize_eq (by omega), DSRPC.messageSize]

theorem internalSerialize_eq {packet : RPCPacket} (h : packet.byteSizeLong ≤ 2147483647) :
    runtime.internalSerialize packet = packet.internalSerialize := by
  unfold RPCPacket.byteSizeLong at h
  simp (disch := omega) only [internalSerialize, writeEnum_eq, writeString_eq, writeMessage_eq]
  rfl

theorem byteSizeLong_eq {packet : RPCPacket} (h : packet.byteSizeLong ≤ 2147483647) :
    runtime.byteSizeLong packet = packet.byteSizeLong := by
  unfold RPCPacket.byteSizeLong at h
  simp (disch := omega) only [byteSizeLong, enumFieldSize_eq, stringFieldSize_eq,
    messageFieldSize_eq]
  rfl

end Runtime

end DSFramework.DSRPC
