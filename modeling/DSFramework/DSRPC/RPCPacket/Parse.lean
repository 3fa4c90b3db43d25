import DSFramework.DSRPC.RPCPacket.Runtime

/-!
# Parsing a packet

`_InternalParse` of the generated code: a loop that reads field after field and looks each up in
`_table_`. A field of the table that comes with the wire type the table gives it is set, or, where
it is a message, merged into the one that is there. Every other field is kept as an unknown one.
`Clear`, `MergeImpl` and `CopyFrom` follow.
-/

namespace DSFramework.DSRPC

namespace RPCPacket

/-- A message that is a field: what arrives is merged into what is there. -/
def parseMessage (runtime : Runtime) (message : Option AnyMessage) (bytes : List UInt8) :
    Option AnyMessage :=
  runtime.parseMessage (message.getD .empty) bytes

/-- `_table_`. -/
def parseField (runtime : Runtime) (packet : RPCPacket) (field : Field) : Option RPCPacket :=
  match field.number, field.content with
  | 1, .varint n => some { packet with type := ⟨readEnum n⟩ }
  | 2, .varint n => some { packet with error := ⟨readEnum n⟩ }
  | 3, .varint n => some { packet with status := ⟨readEnum n⟩ }
  | 4, .bytes bytes => (readString bytes).map fun s => { packet with «from» := s }
  | 5, .bytes bytes => (readString bytes).map fun s => { packet with «to» := s }
  | 6, .bytes bytes => (readString bytes).map fun s => { packet with innerId := s }
  | 7, .bytes bytes => (readString bytes).map fun s => { packet with createdTime := s }
  | 8, .bytes bytes => (readString bytes).map fun s => { packet with postTime := s }
  | 9, .bytes bytes => (readString bytes).map fun s => { packet with commitedTime := s }
  | 10, .bytes bytes => (readString bytes).map fun s => { packet with completedTime := s }
  | 11, .bytes bytes => (readString bytes).map fun s => { packet with failedTime := s }
  | 12, .bytes bytes => (readString bytes).map fun s => { packet with requestId := s }
  | 13, .bytes bytes => (readString bytes).map fun s => { packet with service := s }
  | 14, .bytes bytes =>
    (parseMessage runtime packet.parameters bytes).map fun m => { packet with parameters := some m }
  | 15, .bytes bytes =>
    (parseMessage runtime packet.result bytes).map fun m => { packet with result := some m }
  | _, _ => some { packet with unknownFields := packet.unknownFields ++ field.write }

/-- `RPCPacket::_InternalParse`, into a packet that may have fields already. -/
def internalParse (runtime : Runtime) (packet : RPCPacket) (bytes : List UInt8) :
    Option RPCPacket :=
  (runtime.fields 0).parse (parseField runtime) packet bytes

/-- `ParseFromArray`: the packet is cleared first, and `IsInitialized` asks nothing. -/
def parseFromArray (runtime : Runtime) (bytes : List UInt8) : Option RPCPacket :=
  internalParse runtime {} bytes

/-- A field that is a message, in `MergeImpl`. -/
def mergeMessage (runtime : Runtime) (this «from» : Option AnyMessage) : Option AnyMessage :=
  match «from» with
  | some message => some (runtime.mergeFrom (this.getD .empty) message)
  | none => this

/-- `RPCPacket::MergeImpl`: the fields that have their default value leave those of `this`. -/
def mergeImpl (runtime : Runtime) (this «from» : RPCPacket) : RPCPacket where
  «from» := if from.from.isEmpty then this.from else from.from
  «to» := if from.to.isEmpty then this.to else from.to
  innerId := if from.innerId.isEmpty then this.innerId else from.innerId
  createdTime := if from.createdTime.isEmpty then this.createdTime else from.createdTime
  postTime := if from.postTime.isEmpty then this.postTime else from.postTime
  commitedTime := if from.commitedTime.isEmpty then this.commitedTime else from.commitedTime
  completedTime := if from.completedTime.isEmpty then this.completedTime else from.completedTime
  failedTime := if from.failedTime.isEmpty then this.failedTime else from.failedTime
  requestId := if from.requestId.isEmpty then this.requestId else from.requestId
  service := if from.service.isEmpty then this.service else from.service
  parameters := mergeMessage runtime this.parameters from.parameters
  result := mergeMessage runtime this.result from.result
  type := if from.type.value = 0 then this.type else from.type
  error := if from.error.value = 0 then this.error else from.error
  status := if from.status.value = 0 then this.status else from.status
  unknownFields := this.unknownFields ++ from.unknownFields

/-- `RPCPacket::Clear`. -/
def clear (_this : RPCPacket) : RPCPacket := {}

/-- `RPCPacket::CopyFrom`, from another packet. -/
def copyFrom (runtime : Runtime) (this «from» : RPCPacket) : RPCPacket :=
  mergeImpl runtime this.clear «from»

end RPCPacket

end DSFramework.DSRPC
