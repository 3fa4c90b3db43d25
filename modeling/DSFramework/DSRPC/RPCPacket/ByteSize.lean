import DSFramework.DSRPC.RPCPacket

/-!
# The size of a packet

The sizes of the fields in the wire format, added up as `ByteSizeLong` does, and that the sum is the
length of the serialized packet. The fields have numbers up to 15, so every tag is one byte.
-/

namespace DSFramework.DSRPC

/-- A length and so many bytes. -/
def lengthDelimitedSize (n : Nat) : Nat := (varint 5 n).length + n

/-- The size of a string field with its tag, 0 for the empty string. -/
def stringSize (s : String) : Nat :=
  if s.isEmpty then 0 else 1 + lengthDelimitedSize s.toUTF8.data.toList.length

/-- The size of an enumeration with its tag, 0 for the default value. -/
def enumSize (value : Int32) : Nat :=
  if value = 0 then 0 else 1 + (varint 10 value.toInt64.toUInt64.toNat).length

/-- The size of an `Any`. -/
def AnyMessage.byteSizeLong (message : AnyMessage) : Nat :=
  stringSize message.typeUrl +
    (if message.value.isEmpty then 0 else 1 + lengthDelimitedSize message.value.length) +
    message.unknownFields.length

/-- The size of a message with its tag, 0 for an absent one. -/
def messageSize : Option AnyMessage → Nat
  | some message => 1 + lengthDelimitedSize message.byteSizeLong
  | none => 0

/-- The size of a packet. -/
def RPCPacket.byteSizeLong (packet : RPCPacket) : Nat :=
  stringSize packet.from + stringSize packet.to + stringSize packet.innerId +
    stringSize packet.createdTime + stringSize packet.postTime + stringSize packet.commitedTime +
    stringSize packet.completedTime + stringSize packet.failedTime +
    stringSize packet.requestId + stringSize packet.service + messageSize packet.parameters +
    messageSize packet.result + enumSize packet.type.value + enumSize packet.error.value +
    enumSize packet.status.value + packet.unknownFields.length

/-- The tag of a field with a number up to 15. -/
theorem length_tag {field kind : Nat} (hfield : field ≤ 15) (hkind : kind < 8) :
    (varint 5 (field * 8 + kind)).length = 1 := by
  rw [varint, if_pos (by omega)]
  rfl

theorem length_writeBytes {field : Nat} (hfield : field ≤ 15) (bytes : List UInt8) :
    (writeBytes field bytes).length = 1 + lengthDelimitedSize bytes.length := by
  simp only [writeBytes, List.length_append, length_tag hfield (by decide : 2 < 8),
    lengthDelimitedSize]
  omega

theorem length_writeString {field : Nat} (hfield : field ≤ 15) (s : String) :
    (writeString field s).length = stringSize s := by
  unfold writeString stringSize
  split
  · rfl
  · exact length_writeBytes hfield _

theorem length_writeEnumToArray {field : Nat} (hfield : field ≤ 15) (value : Int32) :
    (writeEnumToArray field value).length = enumSize value := by
  unfold writeEnumToArray enumSize
  split
  · rfl
  · rw [List.length_append, ← Nat.add_zero (field * 8), length_tag hfield (by decide)]

theorem AnyMessage.length_internalSerialize (message : AnyMessage) :
    message.internalSerialize.length = message.byteSizeLong := by
  simp only [internalSerialize, byteSizeLong, List.length_append,
    length_writeString (by decide : 1 ≤ 15)]
  split
  · rfl
  · rw [length_writeBytes (by decide)]

theorem length_writeMessage {field : Nat} (hfield : field ≤ 15) (message : Option AnyMessage) :
    (writeMessage field message).length = messageSize message := by
  cases message with
  | none => rfl
  | some message =>
    rw [writeMessage, length_writeBytes hfield, message.length_internalSerialize, messageSize]

/-- The size is the length of the serialized packet. -/
theorem RPCPacket.length_internalSerialize (packet : RPCPacket) :
    packet.internalSerialize.length = packet.byteSizeLong := by
  simp only [internalSerialize, byteSizeLong, List.length_append, length_writeEnumToArray,
    length_writeString, length_writeMessage, Nat.reduceLeDiff]
  omega

end DSFramework.DSRPC
