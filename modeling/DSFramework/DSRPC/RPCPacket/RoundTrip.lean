import DSFramework.DSRPC.RPCPacket.Parse
import DSFramework.DSRPC.RPCPacket.Wire

/-!
# What is serialized is parsed

A packet is its fields, in the order of their numbers and without those that have their default
value. `_InternalSerialize` writes them, and parsed one after another into a packet they do what
`MergeImpl` does. So a serialized packet behind any bytes that parse is merged into what these
parse to (`parseFromArray_append`), and alone it is parsed to itself.

The unknown fields have to be what a parse leaves of fields it does not know, and the packet has
to be one that the runtime reads: `WellFormed`.
-/

namespace DSFramework.DSRPC

/-! ## Strings and enumerations -/

theorem readEnum_toUInt64 (value : Int32) : readEnum value.toInt64.toUInt64 = value := by
  unfold readEnum
  apply Int32.toBitVec_inj.mp
  simp only [UInt32.toBitVec_toInt32, UInt64.toBitVec_toUInt32, Int64.toBitVec_toUInt64,
    Int32.toBitVec_toInt64]
  ext i
  simp
  grind

theorem readString_toUTF8 (s : String) : readString s.toUTF8.data.toList = some s := by
  have h : (⟨s.toUTF8.data.toList.toArray⟩ : ByteArray) = s.toByteArray := by simp
  unfold readString String.fromUTF8?
  rw [h, dif_pos s.isValidUTF8]
  rfl

theorem toUTF8_of_readString {bytes : List UInt8} {s : String} (h : readString bytes = some s) :
    s.toUTF8.data.toList = bytes := by
  unfold readString String.fromUTF8? at h
  split at h
  · cases h
    rfl
  · cases h

/-! ## The fields of a message -/

def enumField (number : Nat) (value : Int32) : List Field :=
  if value = 0 then [] else [⟨number, .varint value.toInt64.toUInt64⟩]

def stringField (number : Nat) (s : String) : List Field :=
  if s.isEmpty then [] else [⟨number, .bytes s.toUTF8.data.toList⟩]

def bytesField (number : Nat) (bytes : List UInt8) : List Field :=
  if bytes.isEmpty then [] else [⟨number, .bytes bytes⟩]

def messageField (number : Nat) : Option AnyMessage → List Field
  | some message => [⟨number, .bytes message.internalSerialize⟩]
  | none => []

def AnyMessage.fields (message : AnyMessage) : List Field :=
  stringField 1 message.typeUrl ++ bytesField 2 message.value

def RPCPacket.fields (packet : RPCPacket) : List Field :=
  enumField 1 packet.type.value ++ enumField 2 packet.error.value ++
    enumField 3 packet.status.value ++ stringField 4 packet.from ++ stringField 5 packet.to ++
    stringField 6 packet.innerId ++ stringField 7 packet.createdTime ++
    stringField 8 packet.postTime ++ stringField 9 packet.commitedTime ++
    stringField 10 packet.completedTime ++ stringField 11 packet.failedTime ++
    stringField 12 packet.requestId ++ stringField 13 packet.service ++
    messageField 14 packet.parameters ++ messageField 15 packet.result

variable {runtime : Runtime} {nested : Nat}

theorem writeAll_enumField (number : Nat) (value : Int32) :
    (runtime.fields nested).writeAll (enumField number value) = writeEnumToArray number value := by
  unfold enumField writeEnumToArray
  split <;> simp [Field.write]

theorem writeAll_stringField (number : Nat) (s : String) :
    (runtime.fields nested).writeAll (stringField number s) = writeString number s := by
  unfold stringField writeString
  split <;> simp [Field.write]

theorem writeAll_bytesField (number : Nat) (bytes : List UInt8) :
    (runtime.fields nested).writeAll (bytesField number bytes) =
      if bytes.isEmpty then [] else writeBytes number bytes := by
  unfold bytesField
  split <;> simp [Field.write]

theorem writeAll_messageField (number : Nat) (message : Option AnyMessage) :
    (runtime.fields nested).writeAll (messageField number message) =
      writeMessage number message := by
  cases message <;> simp [messageField, writeMessage, Field.write]

theorem AnyMessage.internalSerialize_eq (runtime : Runtime) (nested : Nat) (message : AnyMessage) :
    message.internalSerialize =
      (runtime.fields nested).writeAll message.fields ++ message.unknownFields := by
  simp only [internalSerialize, fields, Grammar.writeAll_append, writeAll_stringField,
    writeAll_bytesField]

theorem RPCPacket.internalSerialize_eq (runtime : Runtime) (nested : Nat) (packet : RPCPacket) :
    packet.internalSerialize =
      (runtime.fields nested).writeAll packet.fields ++ packet.unknownFields := by
  simp only [internalSerialize, fields, Grammar.writeAll_append, writeAll_enumField,
    writeAll_stringField, writeAll_messageField]

/-! ## Fields act on a message -/

/-- A field of a message type. -/
structure Slot (M V : Type) where
  get : M → V
  set : V → M → M
  set_get (m : M) : set (get m) m = m

variable {M : Type} {act : M → Field → Option M} {number : Nat}

theorem foldlM_enumField (slot : Slot M Int32)
    (hact : ∀ m n, act m ⟨number, .varint n⟩ = some (slot.set (readEnum n) m))
    (value : Int32) (m : M) :
    (enumField number value).foldlM act m =
      some (slot.set (if value = 0 then slot.get m else value) m) := by
  unfold enumField
  split
  · rw [slot.set_get]
    rfl
  · simp [hact, readEnum_toUInt64]

theorem foldlM_stringField (slot : Slot M String)
    (hact : ∀ m bytes, act m ⟨number, .bytes bytes⟩ =
      (readString bytes).map fun s => slot.set s m)
    (s : String) (m : M) :
    (stringField number s).foldlM act m =
      some (slot.set (if s.isEmpty then slot.get m else s) m) := by
  unfold stringField
  split
  · rw [slot.set_get]
    rfl
  · simp only [List.foldlM_cons, hact, readString_toUTF8]
    rfl

/-- Fields that are kept as they are. -/
theorem foldlM_unknown (runtime : Runtime) (nested : Nat) (slot : Slot M (List UInt8))
    {fs : List Field}
    (hact : ∀ m, ∀ f ∈ fs, act m f = some (slot.set (slot.get m ++ f.write) m))
    (hset : ∀ m v, slot.get (slot.set v m) = v)
    (hsets : ∀ m v v', slot.set v' (slot.set v m) = slot.set v' m) (m : M) :
    fs.foldlM act m =
      some (slot.set (slot.get m ++ (runtime.fields nested).writeAll fs) m) := by
  induction fs generalizing m with
  | nil =>
    rw [Grammar.writeAll_nil, List.append_nil, slot.set_get]
    rfl
  | cons f fs ih =>
    have hrest := ih (fun m' f' hf' => hact m' f' (List.mem_cons_of_mem f hf'))
      (slot.set (slot.get m ++ f.write) m)
    rw [hset, hsets] at hrest
    rw [List.foldlM_cons, hact m f List.mem_cons_self]
    simpa using hrest

/-! ## What is written is read -/

/-- The longest run of bytes that the runtime reads, and one more. -/
def Runtime.sizeLimit : Nat := 2147483631

theorem canonical_enumField (hpos : 0 < number) (hlt : number < 536870912) (value : Int32) :
    ∀ f ∈ enumField number value, (runtime.fields nested).Canonical f := by
  intro f hf
  unfold enumField at hf
  split at hf
  · cases hf
  · rw [List.mem_singleton.mp hf]
    exact runtime.readField_varint nested _ hpos hlt

theorem canonical_bytes (hpos : 0 < number) (hlt : number < 536870912) {bytes : List UInt8}
    (hsize : bytes.length < Runtime.sizeLimit) :
    (runtime.fields nested).Canonical ⟨number, .bytes bytes⟩ :=
  runtime.readField_bytes nested hpos hlt hsize

theorem canonical_stringField (hpos : 0 < number) (hlt : number < 536870912) {s : String}
    (hsize : stringSize s < Runtime.sizeLimit) :
    ∀ f ∈ stringField number s, (runtime.fields nested).Canonical f := by
  intro f hf
  unfold stringField at hf
  unfold stringSize lengthDelimitedSize at hsize
  split at hf
  · cases hf
  · next hs =>
    rw [if_neg hs] at hsize
    rw [List.mem_singleton.mp hf]
    exact canonical_bytes hpos hlt (by omega)

theorem canonical_messageField (hpos : 0 < number) (hlt : number < 536870912)
    {message : Option AnyMessage} (hsize : messageSize message < Runtime.sizeLimit) :
    ∀ f ∈ messageField number message, (runtime.fields nested).Canonical f := by
  intro f hf
  cases message with
  | none => cases hf
  | some message =>
    simp only [messageSize, lengthDelimitedSize] at hsize
    rw [List.mem_singleton.mp hf]
    exact canonical_bytes hpos hlt (by rw [message.length_internalSerialize]; omega)

/-! ## `google.protobuf.Any` -/

namespace AnyMessage

/-- A field that `Any` does not have. -/
def Unknown (field : Field) : Prop :=
  ∀ message, parseField message field =
    some { message with unknownFields := message.unknownFields ++ field.write }

/-- The unknown fields are such as a parse leaves. -/
def Normal (runtime : Runtime) (message : AnyMessage) : Prop :=
  ∃ fs, message.unknownFields = (runtime.fields 1).writeAll fs ∧
    ∀ f ∈ fs, (runtime.fields 1).Canonical f ∧ Unknown f

theorem canonical_fields {message : AnyMessage} (hsize : message.byteSizeLong < Runtime.sizeLimit) :
    ∀ f ∈ message.fields, (runtime.fields nested).Canonical f := by
  unfold byteSizeLong lengthDelimitedSize at hsize
  intro f hf
  obtain hf | hf := List.mem_append.mp hf
  · exact canonical_stringField (by decide) (by decide) (by omega) f hf
  · unfold bytesField at hf
    split at hf
    · cases hf
    · next hvalue =>
      rw [if_neg hvalue] at hsize
      rw [List.mem_singleton.mp hf]
      exact canonical_bytes (by decide) (by decide) (by omega)

/-- The fields of a message do what `MergeImpl` does, but for the unknown ones. -/
theorem foldlM_fields (this message : AnyMessage) :
    message.fields.foldlM parseField this =
      some { this.mergeImpl message with unknownFields := this.unknownFields } := by
  rw [fields, List.foldlM_append,
    foldlM_stringField ⟨typeUrl, fun s m => { m with typeUrl := s }, fun _ => rfl⟩
      (fun _ _ => rfl)]
  unfold bytesField mergeImpl
  cases message.value.isEmpty <;> rfl

/-- A serialized message is merged. -/
theorem internalParse_internalSerialize {message : AnyMessage} (hnormal : message.Normal runtime)
    (hsize : message.byteSizeLong < Runtime.sizeLimit) (this : AnyMessage) :
    this.internalParse runtime.toReading message.internalSerialize =
      some (this.mergeImpl message) := by
  obtain ⟨fs, hunknown, hfs⟩ := hnormal
  have hcanonical : ∀ f ∈ message.fields ++ fs, (runtime.fields 1).Canonical f := by
    intro f hf
    obtain hf | hf := List.mem_append.mp hf
    · exact canonical_fields hsize f hf
    · exact (hfs f hf).1
  have hrest := foldlM_unknown runtime 1
    ⟨unknownFields, fun v (m : AnyMessage) => { m with unknownFields := v }, fun _ => rfl⟩
    (fun m f hf => (hfs f hf).2 m) (fun _ _ => rfl) (fun _ _ _ => rfl)
  rw [internalParse, message.internalSerialize_eq runtime 1, hunknown,
    ← Grammar.writeAll_append, ← List.append_nil (Grammar.writeAll _ _),
    Grammar.parse_writeAll hcanonical, List.foldlM_append, foldlM_fields]
  simp only [Option.bind_eq_bind, Option.bind_some, hrest, Grammar.parse_nil, ← hunknown]
  rfl

end AnyMessage

/-! ## The packet -/

namespace RPCPacket

/-- A field that `_table_` does not have. -/
def Unknown (runtime : Runtime) (field : Field) : Prop :=
  ∀ packet, parseField runtime packet field =
    some { packet with unknownFields := packet.unknownFields ++ field.write }

/-- The unknown fields of a packet and its messages are such as a parse leaves. -/
structure Normal (runtime : Runtime) (packet : RPCPacket) : Prop where
  parameters : ∀ message, packet.parameters = some message → message.Normal runtime
  result : ∀ message, packet.result = some message → message.Normal runtime
  unknown : ∃ fs, packet.unknownFields = (runtime.fields 0).writeAll fs ∧
    ∀ f ∈ fs, (runtime.fields 0).Canonical f ∧ Unknown runtime f

/-- A packet that the runtime reads. -/
structure WellFormed (runtime : Runtime) (packet : RPCPacket) : Prop
    extends packet.Normal runtime where
  size : packet.byteSizeLong < Runtime.sizeLimit

theorem canonical_fields {packet : RPCPacket} (hsize : packet.byteSizeLong < Runtime.sizeLimit) :
    ∀ f ∈ packet.fields, (runtime.fields nested).Canonical f := by
  unfold byteSizeLong at hsize
  simp only [fields, List.forall_mem_append]
  refine ⟨⟨⟨⟨⟨⟨⟨⟨⟨⟨⟨⟨⟨⟨?_, ?_⟩, ?_⟩, ?_⟩, ?_⟩, ?_⟩, ?_⟩, ?_⟩, ?_⟩, ?_⟩, ?_⟩, ?_⟩, ?_⟩, ?_⟩, ?_⟩
  all_goals first
    | exact canonical_enumField (by decide) (by decide) _
    | exact canonical_stringField (by decide) (by decide) (by omega)
    | exact canonical_messageField (by decide) (by decide) (by omega)

theorem foldlM_messageField (slot : Slot RPCPacket (Option AnyMessage))
    (hact : ∀ packet bytes, parseField runtime packet ⟨number, .bytes bytes⟩ =
      (parseMessage runtime (slot.get packet) bytes).map fun m => slot.set (some m) packet)
    {message : Option AnyMessage} (hnormal : ∀ m, message = some m → m.Normal runtime)
    (hsize : messageSize message < Runtime.sizeLimit) (packet : RPCPacket) :
    (messageField number message).foldlM (parseField runtime) packet =
      some (slot.set (mergeMessage runtime (slot.get packet) message) packet) := by
  cases message with
  | none =>
    rw [mergeMessage, slot.set_get]
    rfl
  | some m =>
    simp only [messageSize, lengthDelimitedSize] at hsize
    have hparse := AnyMessage.internalParse_internalSerialize (hnormal m rfl) (by omega)
      ((slot.get packet).getD .empty)
    simp only [messageField, List.foldlM_cons, hact, parseMessage, runtime.parseMessage_eq, hparse,
      mergeMessage, runtime.mergeFrom_eq]
    rfl

/-- The fields of a packet do what `MergeImpl` does, but for the unknown ones. -/
theorem foldlM_fields (this : RPCPacket) {packet : RPCPacket} (hwf : packet.WellFormed runtime) :
    packet.fields.foldlM (parseField runtime) this =
      some { mergeImpl runtime this packet with unknownFields := this.unknownFields } := by
  have hsize := hwf.size
  unfold byteSizeLong at hsize
  simp only [fields, List.foldlM_append, Option.bind_eq_bind]
  rw [foldlM_enumField ⟨(·.type.value), fun v m => { m with type := ⟨v⟩ }, fun _ => rfl⟩
      (fun _ _ => rfl), Option.bind_some,
    foldlM_enumField ⟨(·.error.value), fun v m => { m with error := ⟨v⟩ }, fun _ => rfl⟩
      (fun _ _ => rfl), Option.bind_some,
    foldlM_enumField ⟨(·.status.value), fun v m => { m with status := ⟨v⟩ }, fun _ => rfl⟩
      (fun _ _ => rfl), Option.bind_some,
    foldlM_stringField ⟨RPCPacket.from, fun s m => { m with «from» := s }, fun _ => rfl⟩
      (fun _ _ => rfl), Option.bind_some,
    foldlM_stringField ⟨RPCPacket.to, fun s m => { m with «to» := s }, fun _ => rfl⟩
      (fun _ _ => rfl), Option.bind_some,
    foldlM_stringField ⟨innerId, fun s m => { m with innerId := s }, fun _ => rfl⟩
      (fun _ _ => rfl), Option.bind_some,
    foldlM_stringField ⟨createdTime, fun s m => { m with createdTime := s }, fun _ => rfl⟩
      (fun _ _ => rfl), Option.bind_some,
    foldlM_stringField ⟨postTime, fun s m => { m with postTime := s }, fun _ => rfl⟩
      (fun _ _ => rfl), Option.bind_some,
    foldlM_stringField ⟨commitedTime, fun s m => { m with commitedTime := s }, fun _ => rfl⟩
      (fun _ _ => rfl), Option.bind_some,
    foldlM_stringField ⟨completedTime, fun s m => { m with completedTime := s }, fun _ => rfl⟩
      (fun _ _ => rfl), Option.bind_some,
    foldlM_stringField ⟨failedTime, fun s m => { m with failedTime := s }, fun _ => rfl⟩
      (fun _ _ => rfl), Option.bind_some,
    foldlM_stringField ⟨requestId, fun s m => { m with requestId := s }, fun _ => rfl⟩
      (fun _ _ => rfl), Option.bind_some,
    foldlM_stringField ⟨service, fun s m => { m with service := s }, fun _ => rfl⟩
      (fun _ _ => rfl), Option.bind_some,
    foldlM_messageField ⟨parameters, fun v m => { m with parameters := v }, fun _ => rfl⟩
      (fun _ _ => rfl) hwf.parameters (by omega), Option.bind_some,
    foldlM_messageField ⟨result, fun v m => { m with result := v }, fun _ => rfl⟩
      (fun _ _ => rfl) hwf.result (by omega)]
  unfold mergeImpl
  cases packet
  simp only [Option.some.injEq, RPCPacket.mk.injEq, and_true]
  refine ⟨?_, ?_, ?_⟩ <;> split <;> rfl

/-- A serialized packet is merged. -/
theorem internalParse_internalSerialize {packet : RPCPacket} (hwf : packet.WellFormed runtime)
    (this : RPCPacket) :
    this.internalParse runtime packet.internalSerialize =
      some (mergeImpl runtime this packet) := by
  obtain ⟨fs, hunknown, hfs⟩ := hwf.unknown
  have hcanonical : ∀ f ∈ packet.fields ++ fs, (runtime.fields 0).Canonical f := by
    intro f hf
    obtain hf | hf := List.mem_append.mp hf
    · exact canonical_fields hwf.size f hf
    · exact (hfs f hf).1
  have hrest := foldlM_unknown runtime 0
    ⟨unknownFields, fun v (m : RPCPacket) => { m with unknownFields := v }, fun _ => rfl⟩
    (fun m f hf => (hfs f hf).2 m) (fun _ _ => rfl) (fun _ _ _ => rfl)
  rw [internalParse, packet.internalSerialize_eq runtime 0, hunknown,
    ← Grammar.writeAll_append, ← List.append_nil (Grammar.writeAll _ _),
    Grammar.parse_writeAll hcanonical, List.foldlM_append, foldlM_fields this hwf]
  simp only [Option.bind_eq_bind, Option.bind_some, hrest, Grammar.parse_nil, ← hunknown]
  rfl

theorem mergeMessage_none (message : Option AnyMessage) :
    mergeMessage runtime none message = message := by
  cases message with
  | none => rfl
  | some message =>
    rw [mergeMessage, runtime.mergeFrom_eq]
    unfold AnyMessage.mergeImpl AnyMessage.empty
    cases message
    simp

/-- Merged into an empty packet, a packet is itself: `CopyFrom` copies. -/
theorem copyFrom_eq (this packet : RPCPacket) : copyFrom runtime this packet = packet := by
  obtain ⟨⟨type⟩, ⟨error⟩, ⟨status⟩⟩ := packet
  unfold copyFrom clear mergeImpl
  simp [mergeMessage_none, RPCPacketType.defaultResponse, RPCPacketError.pktDefault,
    RPCPacketStatus.defaulted]
  exact ⟨Eq.symm, Eq.symm, Eq.symm⟩

/-- The generated code writes what the wire format says of a packet that the runtime reads. -/
theorem WellFormed.internalSerialize_eq {packet : RPCPacket} (h : packet.WellFormed runtime) :
    runtime.internalSerialize packet = packet.internalSerialize :=
  runtime.internalSerialize_eq (Nat.le_trans (Nat.le_of_lt h.size) (by decide))

/-- Packets behind bytes that parse are merged one after another into what these parse to. -/
theorem parseFromArray_append {bytes : List UInt8} {this : RPCPacket}
    (hparse : parseFromArray runtime bytes = some this) {packets : List RPCPacket}
    (hwf : ∀ packet ∈ packets, packet.WellFormed runtime) :
    parseFromArray runtime (bytes ++ packets.flatMap runtime.internalSerialize) =
      some (packets.foldl (mergeImpl runtime) this) := by
  induction packets generalizing bytes this with
  | nil => simpa using hparse
  | cons packet packets ih =>
    have hpacket := hwf packet List.mem_cons_self
    have hnext : parseFromArray runtime (bytes ++ runtime.internalSerialize packet) =
        some (mergeImpl runtime this packet) := by
      rw [hpacket.internalSerialize_eq, parseFromArray, internalParse, Grammar.parse_append hparse]
      exact internalParse_internalSerialize hpacket this
    have hrest := ih hnext fun q hq => hwf q (List.mem_cons_of_mem packet hq)
    simpa using hrest

/-- A message without unknown fields. -/
theorem AnyMessage.normal_of_nil {message : AnyMessage} (h : message.unknownFields = []) :
    message.Normal runtime :=
  ⟨[], h, fun _ hf => absurd hf List.not_mem_nil⟩

/-- A packet that is short enough and has no unknown fields. -/
theorem wellFormed_of_nil {packet : RPCPacket} (hsize : packet.byteSizeLong < Runtime.sizeLimit)
    (hparameters : ∀ m, packet.parameters = some m → m.unknownFields = [])
    (hresult : ∀ m, packet.result = some m → m.unknownFields = [])
    (hunknown : packet.unknownFields = []) : packet.WellFormed runtime where
  parameters m hm := AnyMessage.normal_of_nil (hparameters m hm)
  result m hm := AnyMessage.normal_of_nil (hresult m hm)
  unknown := ⟨[], hunknown, fun _ hf => absurd hf List.not_mem_nil⟩
  size := hsize

/-- A type that came in more bytes than it needs, and behind it a request that leaves its type at
the default. -/
theorem parseFromArray_append_request :
    parseFromArray .wire ([8, 129, 0] ++ [{ innerId := "7", service := "s" }].flatMap
        Runtime.wire.internalSerialize) =
      some { type := .taskRequest, innerId := "7", service := "s" } := by
  have hread : (Runtime.wire.fields 0).read [8, 129, 0] = some (⟨1, .varint 1⟩, []) := rfl
  have hparse : parseFromArray .wire [8, 129, 0] = some { type := .taskRequest } := by
    rw [parseFromArray, internalParse, Grammar.parse_some hread]
    exact Grammar.parse_nil _
  have hwf : WellFormed .wire { innerId := "7", service := "s" } :=
    wellFormed_of_nil (by decide) (by simp) (by simp) rfl
  exact parseFromArray_append hparse fun packet hpacket => List.mem_singleton.mp hpacket ▸ hwf

/-- What is serialized is parsed to the same packet. -/
theorem parseFromArray_internalSerialize {packet : RPCPacket} (hwf : packet.WellFormed runtime) :
    parseFromArray runtime packet.internalSerialize = some packet := by
  have hmerge := internalParse_internalSerialize hwf {}
  rw [show ({} : RPCPacket) = clear {} from rfl] at hmerge
  rw [parseFromArray]
  exact hmerge.trans (congrArg some (copyFrom_eq {} packet))

end RPCPacket

end DSFramework.DSRPC
