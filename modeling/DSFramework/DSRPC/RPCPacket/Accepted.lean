import DSFramework.DSRPC.RPCPacket.RoundTrip

/-!
# What a parse accepts

A parsed packet is well formed: its unknown fields are canonical, and it is no more than 15 bytes
longer than what was parsed. Longer it can be because of the enumerations only. A negative value
may arrive in the five bytes of its low 32 bits, and is written in ten. So the packet is parsed
again from what is serialized of it, whatever spelling it came in.
-/

namespace DSFramework.DSRPC

variable {runtime : Runtime}

/-! ## The sizes of fields -/

theorem length_varint_add (n m : Nat) :
    (varint 5 (n + m)).length ≤ (varint 5 n).length + (varint 5 m).length := by
  -- the sum is at most twice the greater, and one more group is a factor of 128
  have hstep : ∀ k, (varint 5 (128 * k)).length ≤ (varint 5 k).length + 1 := by
    intro k
    rw [varint]
    split
    · simp
    · have hdiv : 128 * k / 128 = k := by omega
      have hgroups : (varint 4 k).length ≤ (varint 5 k).length := by
        simp only [varint]
        repeat' split
        all_goals simp
      rw [hdiv, List.length_cons]
      omega
  have hn : 0 < (varint 5 n).length := varint_pos 4 n
  have hm : 0 < (varint 5 m).length := varint_pos 4 m
  obtain h | h := Nat.le_total n m
  · have hle := length_varint_le 5 (show n + m ≤ 128 * m by omega)
    have := hstep m
    omega
  · have hle := length_varint_le 5 (show n + m ≤ 128 * n by omega)
    have := hstep n
    omega

theorem lengthDelimitedSize_le {n m : Nat} (h : n ≤ m) :
    lengthDelimitedSize n ≤ lengthDelimitedSize m := by
  have hle := length_varint_le 5 h
  unfold lengthDelimitedSize
  omega

theorem le_length_writeBytes (number : Nat) (bytes : List UInt8) :
    1 + lengthDelimitedSize bytes.length ≤ (writeBytes number bytes).length := by
  have htag : 0 < (varint 5 (number * 8 + 2)).length := varint_pos 4 _
  simp only [writeBytes, List.length_append, lengthDelimitedSize]
  omega

theorem stringSize_le (number : Nat) {bytes : List UInt8} {s : String}
    (h : readString bytes = some s) : stringSize s ≤ (writeBytes number bytes).length := by
  have hlen := le_length_writeBytes number bytes
  unfold stringSize
  split
  · exact Nat.zero_le _
  · rw [toUTF8_of_readString h]
    exact hlen

/-- A value that is not negative is the number itself. -/
theorem toUInt64_readEnum {n : UInt64} (h : n.toNat < 2147483648) :
    (readEnum n).toInt64.toUInt64 = n := by
  unfold readEnum
  apply UInt64.toBitVec_inj.mp
  have hlt : n.toBitVec.toNat < 2147483648 := h
  have hmsb : (BitVec.setWidth 32 n.toBitVec).msb = false := by
    rw [BitVec.msb_eq_decide, BitVec.toNat_setWidth]
    exact decide_eq_false (by omega)
  simp only [Int64.toBitVec_toUInt64, Int32.toBitVec_toInt64, UInt32.toBitVec_toInt32,
    UInt64.toBitVec_toUInt32]
  apply BitVec.eq_of_toNat_eq
  rw [BitVec.toNat_signExtend, hmsb]
  simp only [BitVec.toNat_setWidth, Bool.false_eq_true, if_false]
  omega

/-- An enumeration value is written in at most five bytes more than it arrived in. -/
theorem enumSize_le (number : Nat) (n : UInt64) :
    enumSize (readEnum n) ≤ (Field.write ⟨number, .varint n⟩).length + 5 := by
  have htag : 0 < (varint 5 (number * 8)).length := varint_pos 4 _
  have hgroups := length_varint_le_groups 10 (readEnum n).toInt64.toUInt64.toNat
  simp only [Field.write, List.length_append]
  unfold enumSize
  split
  · exact Nat.zero_le _
  · by_cases hneg : n.toNat < 2147483648
    · have hvalue := toUInt64_readEnum hneg
      rw [hvalue]
      omega
    · have hfive := length_varint_le 10 (Nat.le_of_not_lt hneg)
      have : (varint 10 2147483648).length = 5 := rfl
      omega

/-! ## `google.protobuf.Any` -/

namespace AnyMessage

theorem parseField_cases {message message' : AnyMessage} {field : Field}
    (h : parseField message field = some message') :
    (∃ bytes s, field = ⟨1, .bytes bytes⟩ ∧ readString bytes = some s ∧
        message' = { message with typeUrl := s }) ∨
      (∃ bytes, field = ⟨2, .bytes bytes⟩ ∧ message' = { message with value := bytes }) ∨
      Unknown field ∧
        message' = { message with unknownFields := message.unknownFields ++ field.write } := by
  obtain ⟨number, content⟩ := field
  unfold parseField at h
  split at h
  · next bytes hnumber hcontent =>
    obtain ⟨s, hs, rfl⟩ := Option.map_eq_some_iff.mp h
    exact .inl ⟨bytes, s, by simp_all, hs, rfl⟩
  · next bytes hnumber hcontent =>
    cases h
    exact .inr (.inl ⟨bytes, by simp_all, rfl⟩)
  · next h₁ h₂ =>
    cases h
    refine .inr (.inr ⟨fun m => ?_, rfl⟩)
    unfold parseField
    split
    · next bytes hnumber hcontent => exact absurd hcontent (h₁ bytes hnumber)
    · next bytes hnumber hcontent => exact absurd hcontent (h₂ bytes hnumber)
    · rfl

theorem byteSizeLong_internalParse {this message : AnyMessage} {bytes : List UInt8}
    (h : this.internalParse runtime.toReading bytes = some message) :
    message.byteSizeLong ≤ this.byteSizeLong + bytes.length := by
  refine Grammar.parse_measure (fun {m field m'} hact => ?_) h
  rw [Reading.fields_write]
  obtain ⟨bytes, s, rfl, hs, rfl⟩ | ⟨bytes, rfl, rfl⟩ | ⟨-, rfl⟩ := parseField_cases hact
  · have hlen := stringSize_le 1 hs
    simp only [byteSizeLong, Field.write]
    omega
  · have hlen := le_length_writeBytes 2 bytes
    simp only [byteSizeLong, Field.write]
    split <;> omega
  · simp only [byteSizeLong, List.length_append]
    omega

/-- Unknown fields stay such as a parse leaves. -/
theorem Normal.internalParse {this message : AnyMessage} {bytes : List UInt8}
    (hnormal : this.Normal runtime) (h : this.internalParse runtime.toReading bytes = some message) :
    message.Normal runtime := by
  refine Grammar.parse_induction (fun {m field m'} hcanonical hact hm => ?_) h hnormal
  obtain ⟨fs, hunknown, hfs⟩ := hm
  obtain ⟨bytes, s, rfl, hs, rfl⟩ | ⟨bytes, rfl, rfl⟩ | ⟨hfield, rfl⟩ := parseField_cases hact
  · exact ⟨fs, hunknown, hfs⟩
  · exact ⟨fs, hunknown, hfs⟩
  · refine ⟨fs ++ [field], by simp [hunknown], fun f hf => ?_⟩
    obtain hf | hf := List.mem_append.mp hf
    · exact hfs f hf
    · rw [List.mem_singleton.mp hf]
      exact ⟨hcanonical, hfield⟩

theorem normal_empty : empty.Normal runtime :=
  ⟨[], rfl, fun _ hf => absurd hf List.not_mem_nil⟩

end AnyMessage

/-! ## The packet -/

namespace RPCPacket

theorem parseField_unknown {packet packet' : RPCPacket} {field : Field}
    (h : parseField runtime packet field = some packet') :
    packet'.unknownFields = packet.unknownFields ∨ Unknown runtime field ∧
      packet'.unknownFields = packet.unknownFields ++ field.write := by
  unfold parseField at h
  split at h
  case h_16 =>
    refine .inr ⟨fun p => ?_, ?_⟩
    · unfold parseField
      split
      case h_16 => rfl
      all_goals exfalso; simp_all
    · cases h
      rfl
  all_goals first
    | cases h; exact .inl rfl
    | obtain ⟨v, -, rfl⟩ := Option.map_eq_some_iff.mp h
      exact .inl rfl

/-- The size of a packet with every enumeration in its shortest spelling. -/
def leastSize (packet : RPCPacket) : Nat :=
  stringSize packet.from + stringSize packet.to + stringSize packet.innerId +
    stringSize packet.createdTime + stringSize packet.postTime + stringSize packet.commitedTime +
    stringSize packet.completedTime + stringSize packet.failedTime +
    stringSize packet.requestId + stringSize packet.service + messageSize packet.parameters +
    messageSize packet.result + (enumSize packet.type.value - 5) +
    (enumSize packet.error.value - 5) + (enumSize packet.status.value - 5) +
    packet.unknownFields.length

theorem byteSizeLong_le (packet : RPCPacket) : packet.byteSizeLong ≤ packet.leastSize + 15 := by
  unfold byteSizeLong leastSize
  omega

theorem messageSize_parseMessage {old : Option AnyMessage} {message : AnyMessage}
    {bytes : List UInt8} (h : parseMessage runtime old bytes = some message) (number : Nat) :
    messageSize (some message) ≤ messageSize old + (writeBytes number bytes).length := by
  rw [parseMessage, runtime.parseMessage_eq] at h
  have hsize := AnyMessage.byteSizeLong_internalParse h
  have hwrite := le_length_writeBytes number bytes
  have hle := lengthDelimitedSize_le hsize
  cases old with
  | none =>
    have hempty : (none.getD AnyMessage.empty).byteSizeLong + bytes.length = bytes.length :=
      Nat.zero_add _
    rw [hempty] at hle
    simp only [messageSize]
    omega
  | some m =>
    have hsum := length_varint_add m.byteSizeLong bytes.length
    simp only [messageSize, Option.getD_some, lengthDelimitedSize] at hle hwrite ⊢
    omega

/-- A field makes a packet longer by its own length at most. -/
theorem leastSize_parseField {packet packet' : RPCPacket} {field : Field}
    (h : parseField runtime packet field = some packet') :
    packet'.leastSize ≤ packet.leastSize + field.write.length := by
  unfold parseField at h
  split at h
  case h_1 | h_2 | h_3 =>
    next n _ hcontent =>
    have hsize := enumSize_le field.number n
    have hwrite : field.write = Field.write ⟨field.number, .varint n⟩ := by rw [← hcontent]
    rw [hwrite]
    cases h
    simp only [leastSize]
    omega
  case h_14 | h_15 =>
    next bytes _ hcontent =>
    obtain ⟨m, hm, rfl⟩ := Option.map_eq_some_iff.mp h
    have hsize := messageSize_parseMessage hm field.number
    rw [Field.write, hcontent]
    simp only [leastSize]
    omega
  case h_16 =>
    cases h
    simp only [leastSize, List.length_append]
    omega
  all_goals
    next bytes _ hcontent =>
    obtain ⟨s, hs, rfl⟩ := Option.map_eq_some_iff.mp h
    have hsize := stringSize_le field.number hs
    rw [Field.write, hcontent]
    simp only [leastSize]
    omega

theorem byteSizeLong_parseFromArray {packet : RPCPacket} {bytes : List UInt8}
    (h : parseFromArray runtime bytes = some packet) :
    packet.byteSizeLong ≤ bytes.length + 15 := by
  have hmeasure := Grammar.parse_measure (fun hact => leastSize_parseField hact) h
  have hempty : leastSize {} = 0 := rfl
  have hle := packet.byteSizeLong_le
  omega

theorem normal_parseMessage {old : Option AnyMessage} {message : AnyMessage} {bytes : List UInt8}
    (hold : ∀ m, old = some m → m.Normal runtime)
    (h : parseMessage runtime old bytes = some message) : message.Normal runtime := by
  rw [parseMessage, runtime.parseMessage_eq] at h
  refine AnyMessage.Normal.internalParse ?_ h
  cases old with
  | none => exact AnyMessage.normal_empty
  | some m => exact hold m rfl

/-- The messages of a packet, after a field. -/
theorem messages_parseField {packet packet' : RPCPacket} {field : Field}
    (h : parseField runtime packet field = some packet') :
    (packet'.parameters = packet.parameters ∨ ∃ bytes message,
      parseMessage runtime packet.parameters bytes = some message ∧
        packet'.parameters = some message) ∧
    (packet'.result = packet.result ∨ ∃ bytes message,
      parseMessage runtime packet.result bytes = some message ∧
        packet'.result = some message) := by
  unfold parseField at h
  split at h
  case h_14 =>
    obtain ⟨m, hm, rfl⟩ := Option.map_eq_some_iff.mp h
    exact ⟨.inr ⟨_, m, hm, rfl⟩, .inl rfl⟩
  case h_15 =>
    obtain ⟨m, hm, rfl⟩ := Option.map_eq_some_iff.mp h
    exact ⟨.inl rfl, .inr ⟨_, m, hm, rfl⟩⟩
  all_goals first
    | cases h; exact ⟨.inl rfl, .inl rfl⟩
    | obtain ⟨v, -, rfl⟩ := Option.map_eq_some_iff.mp h
      exact ⟨.inl rfl, .inl rfl⟩

theorem Normal.parseField {packet packet' : RPCPacket} {field : Field}
    (hnormal : packet.Normal runtime) (hcanonical : (runtime.fields 0).Canonical field)
    (h : packet.parseField runtime field = some packet') : packet'.Normal runtime := by
  obtain ⟨hparameters, hresult⟩ := messages_parseField h
  constructor
  case parameters =>
    intro m hm
    obtain heq | ⟨bytes, message, hparse, heq⟩ := hparameters
    · exact hnormal.parameters m (heq ▸ hm)
    · rw [heq] at hm
      cases hm
      exact normal_parseMessage hnormal.parameters hparse
  case result =>
    intro m hm
    obtain heq | ⟨bytes, message, hparse, heq⟩ := hresult
    · exact hnormal.result m (heq ▸ hm)
    · rw [heq] at hm
      cases hm
      exact normal_parseMessage hnormal.result hparse
  case unknown =>
    obtain ⟨fs, hunknown, hfs⟩ := hnormal.unknown
    obtain heq | ⟨hfield, heq⟩ := parseField_unknown h
    · exact ⟨fs, heq.trans hunknown, hfs⟩
    · refine ⟨fs ++ [field], by simp [heq, hunknown], fun f hf => ?_⟩
      obtain hf | hf := List.mem_append.mp hf
      · exact hfs f hf
      · rw [List.mem_singleton.mp hf]
        exact ⟨hcanonical, hfield⟩

theorem normal_empty : Normal runtime {} where
  parameters _ h := absurd h (Option.some_ne_none _).symm
  result _ h := absurd h (Option.some_ne_none _).symm
  unknown := ⟨[], rfl, fun _ hf => absurd hf List.not_mem_nil⟩

/-- The unknown fields of whatever is parsed are such as a parse leaves. -/
theorem normal_parseFromArray {packet : RPCPacket} {bytes : List UInt8}
    (h : parseFromArray runtime bytes = some packet) : packet.Normal runtime :=
  Grammar.parse_induction (fun hcanonical hact hp => hp.parseField hcanonical hact) h normal_empty

/-- Whatever is parsed is well formed. -/
theorem wellFormed_parseFromArray {packet : RPCPacket} {bytes : List UInt8}
    (h : parseFromArray runtime bytes = some packet)
    (hlen : bytes.length + 15 < Runtime.sizeLimit) : packet.WellFormed runtime where
  toNormal := normal_parseFromArray h
  size := Nat.lt_of_le_of_lt (byteSizeLong_parseFromArray h) hlen

/-- What a parse accepts is a packet that is serialized in at most 15 bytes more, and that is
parsed again from these. -/
theorem serialized_of_accepted {packet : RPCPacket} {bytes : List UInt8}
    (h : parseFromArray runtime bytes = some packet)
    (hlen : bytes.length + 15 < Runtime.sizeLimit) :
    (runtime.internalSerialize packet).length = runtime.byteSizeLong packet ∧
      runtime.byteSizeLong packet ≤ bytes.length + 15 ∧
      parseFromArray runtime (runtime.internalSerialize packet) = some packet := by
  have hwf := wellFormed_parseFromArray h hlen
  have hsize : packet.byteSizeLong ≤ 2147483647 := Nat.le_trans (Nat.le_of_lt hwf.size) (by decide)
  rw [hwf.internalSerialize_eq, runtime.byteSizeLong_eq hsize]
  exact ⟨packet.length_internalSerialize, byteSizeLong_parseFromArray h,
    parseFromArray_internalSerialize hwf⟩

/-- A negative status in its short spelling: six bytes are serialized in eleven. -/
theorem serialized_of_accepted_negative :
    Runtime.wire.internalSerialize { status := ⟨-1⟩ } =
        [24, 255, 255, 255, 255, 255, 255, 255, 255, 255, 1] ∧
      parseFromArray .wire (Runtime.wire.internalSerialize { status := ⟨-1⟩ }) =
        some { status := ⟨-1⟩ } := by
  have hread : (Runtime.wire.fields 0).read [24, 255, 255, 255, 255, 15] =
      some (⟨3, .varint 4294967295⟩, []) := rfl
  have hparse : parseFromArray .wire [24, 255, 255, 255, 255, 15] = some { status := ⟨-1⟩ } := by
    rw [parseFromArray, internalParse, Grammar.parse_some hread]
    exact Grammar.parse_nil _
  exact ⟨by decide, (serialized_of_accepted hparse (by decide)).2.2⟩

end RPCPacket

end DSFramework.DSRPC
