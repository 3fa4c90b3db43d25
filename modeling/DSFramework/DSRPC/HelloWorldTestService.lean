import DSFramework.DSRPC.RPCPacket.Accepted

/-!
# The service of the tests

`HelloWorldService` takes a name and a message and answers with a greeting. Both travel as messages
of their own, packed into the `Any` fields of a packet.

What `Any` does with the name of a type is the runtime's: `Packing` says that a packed message is
found to be of its type. The rest of packing is here, and so is what an execute function does with
parameters that cannot be unpacked.
-/

namespace DSFramework.DSRPC

variable {runtime : Runtime}

/-! ## Packing -/

/-- What the runtime does with the names of types: the URL that `PackFrom` writes, and whether an
`Any` with some URL has some type. -/
structure Packing where
  typeUrl (fullName : String) : String
  is (fullName url : String) : Bool
  is_typeUrl (fullName : String) : is fullName (typeUrl fullName) = true

/-- The documented URLs: the name follows the last slash. -/
def Packing.google : Packing where
  typeUrl fullName := "type.googleapis.com/" ++ fullName
  is fullName url := ("/" ++ fullName).toList.isSuffixOf url.toList
  is_typeUrl fullName := by
    rw [List.isSuffixOf_iff_suffix]
    exact ⟨"type.googleapis.com".toList, by simp⟩

namespace AnyMessage

variable {M : Type}

/-- `PackFrom`, of a message that is serialized so. More than `INT_MAX` bytes are not. -/
def packFrom (packing : Packing) (fullName : String) (serialized : List UInt8)
    (this : AnyMessage) : AnyMessage :=
  { this with
    typeUrl := packing.typeUrl fullName
    value := if serialized.length ≤ 2147483647 then serialized else [] }

/-- `UnpackTo`, a message of this type that is parsed so. -/
def unpackTo (packing : Packing) (fullName : String) (parse : List UInt8 → Option M)
    (this : AnyMessage) : Option M :=
  if packing.is fullName this.typeUrl then parse this.value else none

theorem unpackTo_packFrom {packing : Packing} {fullName : String} {serialized : List UInt8}
    (h : serialized.length ≤ 2147483647) (parse : List UInt8 → Option M) (this : AnyMessage) :
    (this.packFrom packing fullName serialized).unpackTo packing fullName parse =
      parse serialized := by
  simp only [unpackTo, packFrom, packing.is_typeUrl, if_pos h, if_true]

end AnyMessage

/-! ## The messages -/

/-- The length of a string is less than the size of its field, which is longer by 6 at most. -/
theorem stringSize_bounds (s : String) :
    s.utf8ByteSize ≤ stringSize s ∧ stringSize s ≤ s.utf8ByteSize + 6 := by
  have hlength : s.toUTF8.data.toList.length = s.utf8ByteSize := by simp
  have hgroups := length_varint_le_groups 5 s.utf8ByteSize
  unfold stringSize lengthDelimitedSize
  rw [hlength]
  split
  · next hempty =>
    rw [String.isEmpty_iff.mp hempty]
    decide
  · omega

/-- Canonical fields and nothing else. -/
theorem parse_fields {M : Type} {act : M → Field → Option M} {m m' : M} {fs : List Field}
    (hcanonical : ∀ f ∈ fs, (runtime.fields 0).Canonical f) (hfold : fs.foldlM act m = some m') :
    (runtime.fields 0).parse act m ((runtime.fields 0).writeAll fs) = some m' := by
  rw [← List.append_nil (Grammar.writeAll _ fs), Grammar.parse_writeAll hcanonical, hfold,
    Option.bind_some, Grammar.parse_nil]

/-- `HelloWorldServiceParameters`. -/
structure HelloWorldServiceParameters where
  name : String := ""
  message : String := ""
  unknownFields : List UInt8 := []
  deriving DecidableEq, Repr

/-- `HelloWorldServiceResult`. -/
structure HelloWorldServiceResult where
  message : String := ""
  unknownFields : List UInt8 := []
  deriving DecidableEq, Repr

namespace HelloWorldServiceParameters

def fullName : String := "DSFramework.DSRPC.Packet.HelloWorldServiceParameters"

/-- `_InternalSerialize`. -/
def internalSerialize (this : HelloWorldServiceParameters) : List UInt8 :=
  writeString 1 this.name ++ writeString 2 this.message ++ this.unknownFields

/-- `ByteSizeLong`. -/
def byteSizeLong (this : HelloWorldServiceParameters) : Nat :=
  stringSize this.name + stringSize this.message + this.unknownFields.length

/-- `_table_`. -/
def parseField (this : HelloWorldServiceParameters) (field : Field) :
    Option HelloWorldServiceParameters :=
  match field.number, field.content with
  | 1, .bytes bytes => (readString bytes).map fun s => { this with name := s }
  | 2, .bytes bytes => (readString bytes).map fun s => { this with message := s }
  | _, _ => some { this with unknownFields := this.unknownFields ++ field.write }

/-- `_InternalParse`, into an empty message. -/
def parseFromString (runtime : Runtime) (bytes : List UInt8) :
    Option HelloWorldServiceParameters :=
  (runtime.fields 0).parse parseField {} bytes

theorem length_internalSerialize (this : HelloWorldServiceParameters) :
    this.internalSerialize.length = this.byteSizeLong := by
  simp only [internalSerialize, byteSizeLong, List.length_append,
    length_writeString (by decide : 1 ≤ 15), length_writeString (by decide : 2 ≤ 15)]

/-- A message is no longer than what it was parsed from. -/
theorem byteSizeLong_parseFromString {this : HelloWorldServiceParameters} {bytes : List UInt8}
    (h : parseFromString runtime bytes = some this) : this.byteSizeLong ≤ bytes.length := by
  have hmeasure := Grammar.parse_measure (φ := byteSizeLong) (fun {m field m'} hact => ?_) h
  · have hempty : byteSizeLong {} = 0 := by decide
    omega
  · rw [Reading.fields_write]
    unfold parseField at hact
    split at hact
    case h_1 bytes _ hcontent | h_2 bytes _ hcontent =>
      obtain ⟨s, hs, rfl⟩ := Option.map_eq_some_iff.mp hact
      have hsize := stringSize_le field.number hs
      rw [Field.write, hcontent]
      simp only [byteSizeLong]
      omega
    case h_3 =>
      cases hact
      simp only [byteSizeLong, List.length_append]
      omega

/-- What is serialized is parsed. -/
theorem parseFromString_internalSerialize {name message : String}
    (h : byteSizeLong { name, message } < Runtime.sizeLimit) :
    parseFromString runtime (internalSerialize { name, message }) = some { name, message } := by
  simp only [byteSizeLong, List.length_nil] at h
  have hcanonical : ∀ f ∈ stringField 1 name ++ stringField 2 message,
      (runtime.fields 0).Canonical f := by
    rw [List.forall_mem_append]
    exact ⟨canonical_stringField (by decide) (by decide) (by omega),
      canonical_stringField (by decide) (by decide) (by omega)⟩
  have hfold : (stringField 1 name ++ stringField 2 message).foldlM parseField {} =
      some { name, message } := by
    rw [List.foldlM_append,
      foldlM_stringField ⟨HelloWorldServiceParameters.name, fun s m => { m with name := s },
        fun _ => rfl⟩ (fun _ _ => rfl), Option.bind_eq_bind, Option.bind_some,
      foldlM_stringField ⟨HelloWorldServiceParameters.message, fun s m => { m with message := s },
        fun _ => rfl⟩ (fun _ _ => rfl)]
    simp
  rw [parseFromString, ← parse_fields hcanonical hfold]
  simp [internalSerialize, writeAll_stringField]

end HelloWorldServiceParameters

namespace HelloWorldServiceResult

def fullName : String := "DSFramework.DSRPC.Packet.HelloWorldServiceResult"

/-- `_InternalSerialize`. -/
def internalSerialize (this : HelloWorldServiceResult) : List UInt8 :=
  writeString 1 this.message ++ this.unknownFields

/-- `_table_`. -/
def parseField (this : HelloWorldServiceResult) (field : Field) :
    Option HelloWorldServiceResult :=
  match field.number, field.content with
  | 1, .bytes bytes => (readString bytes).map fun s => { this with message := s }
  | _, _ => some { this with unknownFields := this.unknownFields ++ field.write }

/-- `_InternalParse`, into an empty message. -/
def parseFromString (runtime : Runtime) (bytes : List UInt8) : Option HelloWorldServiceResult :=
  (runtime.fields 0).parse parseField {} bytes

/-- What is serialized is parsed. -/
theorem parseFromString_internalSerialize {message : String}
    (h : stringSize message < Runtime.sizeLimit) :
    parseFromString runtime (internalSerialize { message }) = some { message } := by
  have hcanonical : ∀ f ∈ stringField 1 message, (runtime.fields 0).Canonical f :=
    canonical_stringField (by decide) (by decide) h
  have hfold : (stringField 1 message).foldlM parseField {} = some { message } := by
    rw [foldlM_stringField ⟨HelloWorldServiceResult.message, fun s m => { m with message := s },
      fun _ => rfl⟩ (fun _ _ => rfl)]
    simp
  rw [parseFromString, ← parse_fields hcanonical hfold]
  simp [internalSerialize, writeAll_stringField]

end HelloWorldServiceResult

/-! ## The service -/

namespace HelloWorldService

def serviceName : String := "HelloWorldService"

variable (packing : Packing) (runtime : Runtime)

/-- What the parameters of a packet are unpacked to. -/
def parameters (packet : RPCPacket) : Option HelloWorldServiceParameters :=
  (packet.parameters.getD .empty).unpackTo packing HelloWorldServiceParameters.fullName
    (HelloWorldServiceParameters.parseFromString runtime)

/-- What the result of a packet is unpacked to. -/
def result (packet : RPCPacket) : Option HelloWorldServiceResult :=
  (packet.result.getD .empty).unpackTo packing HelloWorldServiceResult.fullName
    (HelloWorldServiceResult.parseFromString runtime)

/-- `ParametersCheck`. -/
def parametersCheck (packet : RPCPacket) : Bool :=
  if !packet.parameters.isSome then false
  else if (parameters packing runtime packet).isSome then true
  else false

/-- The result of some parameters. -/
def greeting (parameters : HelloWorldServiceParameters) : HelloWorldServiceResult :=
  { message := "Hello " ++ parameters.name ++ " " ++ parameters.message }

/-- `Execute`. Whether `UnpackTo` succeeds is not asked: `leftover` is what the runtime leaves of the
parameters where it fails. -/
def execute (leftover : AnyMessage → HelloWorldServiceParameters) (packet : RPCPacket) :
    RPCPacket :=
  let parameters := (parameters packing runtime packet).getD
    (leftover (packet.parameters.getD .empty))
  { packet with
    result := some ((packet.result.getD .empty).packFrom packing HelloWorldServiceResult.fullName
      (greeting parameters).internalSerialize) }

/-- `CreateHelloWorldServiceRequestPacket`. Whether `PackFrom` succeeds is not asked. -/
def createHelloWorldServiceRequestPacket (name msg «from» «to» : String) : RPCPacket :=
  { service := "HelloWorldService"
    parameters := some (AnyMessage.empty.packFrom packing HelloWorldServiceParameters.fullName
      (HelloWorldServiceParameters.internalSerialize { name := name, message := msg }))
    «from» := «from»
    «to» := «to»
    type := .taskRequest }

variable {packing : Packing} {runtime : Runtime}
  {leftover : AnyMessage → HelloWorldServiceParameters}

theorem parametersCheck_iff {packet : RPCPacket} :
    parametersCheck packing runtime packet = true ↔
      packet.parameters.isSome = true ∧ ∃ p, parameters packing runtime packet = some p := by
  unfold parametersCheck
  rw [← Option.isSome_iff_exists]
  cases packet.parameters.isSome <;> simp

/-- What is in an `Any` of the packet is no longer than the packet. -/
theorem length_value_le {packet : RPCPacket} {any : AnyMessage}
    (h : packet.parameters = some any) : any.value.length ≤ packet.byteSizeLong := by
  have hvalue : any.value.length ≤ any.byteSizeLong := by
    unfold AnyMessage.byteSizeLong lengthDelimitedSize
    split
    · next hempty =>
      rw [List.isEmpty_iff.mp hempty]
      exact Nat.zero_le _
    · omega
  have hmessage : any.byteSizeLong ≤ messageSize packet.parameters := by
    rw [h]
    simp only [messageSize, lengthDelimitedSize]
    omega
  unfold RPCPacket.byteSizeLong
  omega

theorem byteSizeLong_parameters {packet : RPCPacket} {p : HelloWorldServiceParameters}
    (h : parameters packing runtime packet = some p) : p.byteSizeLong ≤ packet.byteSizeLong := by
  unfold parameters AnyMessage.unpackTo at h
  split at h
  · have hle := HelloWorldServiceParameters.byteSizeLong_parseFromString h
    cases hany : packet.parameters with
    | none =>
      rw [hany] at hle
      exact Nat.le_trans hle (Nat.zero_le _)
    | some any =>
      rw [hany] at hle
      exact Nat.le_trans hle (length_value_le hany)
  · cases h

/-- A greeting is longer than what it greets by 13 bytes at most. -/
theorem stringSize_greeting (p : HelloWorldServiceParameters) :
    stringSize (greeting p).message ≤ p.byteSizeLong + 13 := by
  have hbound := (stringSize_bounds (greeting p).message).2
  have hname := (stringSize_bounds p.name).1
  have hmessage := (stringSize_bounds p.message).1
  have hlength : (greeting p).message.utf8ByteSize =
      7 + p.name.utf8ByteSize + p.message.utf8ByteSize := by
    have hhello : "Hello ".utf8ByteSize = 6 := by decide
    have hspace : " ".utf8ByteSize = 1 := by decide
    simp only [greeting, String.utf8ByteSize_append, hhello, hspace]
    omega
  unfold HelloWorldServiceParameters.byteSizeLong
  omega

/-- Of parameters that can be unpacked, `Execute` leaves a result that can be unpacked. -/
theorem result_execute {packet : RPCPacket} {p : HelloWorldServiceParameters}
    (hparameters : parameters packing runtime packet = some p)
    (hsize : p.byteSizeLong + 13 < Runtime.sizeLimit) :
    result packing runtime (execute packing runtime leftover packet) = some (greeting p) := by
  have hmessage := stringSize_greeting p
  have hlength : (greeting p).internalSerialize.length = stringSize (greeting p).message := by
    simp only [HelloWorldServiceResult.internalSerialize, greeting, List.append_nil,
      length_writeString (by decide : 1 ≤ 15)]
  have hpacked : (greeting p).internalSerialize.length ≤ 2147483647 := by
    simp only [Runtime.sizeLimit] at hsize
    omega
  simp only [result, execute, hparameters, Option.getD_some,
    AnyMessage.unpackTo_packFrom hpacked]
  exact HelloWorldServiceResult.parseFromString_internalSerialize
    (Nat.lt_of_le_of_lt hmessage hsize)

/-- The parameters of the request can be unpacked, unless they are too long to be packed. -/
theorem parameters_createHelloWorldServiceRequestPacket {name msg : String}
    (h : HelloWorldServiceParameters.byteSizeLong { name := name, message := msg } <
      Runtime.sizeLimit) («from» «to» : String) :
    parameters packing runtime
        (createHelloWorldServiceRequestPacket packing name msg «from» «to») =
      some { name := name, message := msg } := by
  have hpacked : (HelloWorldServiceParameters.internalSerialize
      { name := name, message := msg }).length ≤ 2147483647 := by
    rw [HelloWorldServiceParameters.length_internalSerialize]
    simp only [Runtime.sizeLimit] at h
    omega
  simp only [parameters, createHelloWorldServiceRequestPacket, Option.getD_some,
    AnyMessage.unpackTo_packFrom hpacked]
  exact HelloWorldServiceParameters.parseFromString_internalSerialize h

end HelloWorldService

end DSFramework.DSRPC
