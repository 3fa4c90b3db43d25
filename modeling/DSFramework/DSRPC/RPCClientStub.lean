import DSFramework.DSRPC.RPCServer.Responses

/-!
# What the client makes of a reply

`RPCClientStub::OnData` takes a packet by its type and then goes by its error code. The packets come
from the response dispatcher, which makes them with `RPCPacketFactory`. The two have to agree: a
packet of another type is taken for a frame that could not be parsed.

The factory tests the type of a request as a bit mask, and the types are numbered in a row; so it
takes a `QUERY_REQUEST`, which is 3, for a `TASK_REQUEST`, which is 1.

The last reply without an error is kept, and the destructor dereferences it: `safe_iff` says when
there is one.
-/

namespace DSFramework.DSRPC

/-- What an arm of the client's switch does. -/
inductive ClientAction where
  | nothing
  | handleResponse
  | warn (message : String)
  deriving DecidableEq, Repr

/-- Where a frame ends up in the client: in the arm of a case label, behind `default`, or in the
branch for what is no reply. -/
inductive ClientArm where
  | case (label : RPCPacketError) (action : ClientAction)
  | default
  | rejected
  deriving DecidableEq, Repr

/-- `RPCClientStub`, with the warnings it has logged. -/
structure RPCClientStub where
  clientid : String
  cachedRequestPacket : Option RPCPacket
  warnings : List String
  deriving DecidableEq, Repr

namespace RPCClientStub

def new (clientid : String) : RPCClientStub :=
  { clientid := clientid, cachedRequestPacket := none, warnings := [] }

def warn (message : String) (c : RPCClientStub) : RPCClientStub :=
  { c with warnings := c.warnings ++ [message] }

def handleResponse (response : RPCPacket) (c : RPCClientStub) : RPCClientStub :=
  { c with cachedRequestPacket := some response }

/-- The switch: its case labels, in order, with what stands behind them. -/
def switchArms : List (RPCPacketError × ClientAction) :=
  [(.pktDefault, .nothing),
    (.pktNoError, .handleResponse),
    (.pktSerializationError, .warn "Server serialization error"),
    (.pktDeserializationError, .warn "Server deserialization error"),
    (.pktEmptyRequest, .warn "Empty request"),
    (.serviceBusy, .warn "Service busy"),
    (.serviceNotFound, .warn "Service not found"),
    (.serviceIvaildParameters, .warn "Invalid parameters"),
    (.serviceError, .warn "Service error")]

/-- The type test and the switch. -/
def armOf (response : RPCPacket) : ClientArm :=
  if response.type = .taskResponse ∨ response.type = .queryResponse then
    match switchArms.find? (·.1 == response.error) with
    | some (label, action) => .case label action
    | none => .default
  else .rejected

/-- The same for a frame. A packet that could not be parsed is not looked at. -/
def armOfData (parseFromArray : List UInt8 → Option RPCPacket) (data : List UInt8) : ClientArm :=
  match parseFromArray data with
  | some response => armOf response
  | none => .rejected

def perform (response : RPCPacket) (c : RPCClientStub) : ClientAction → RPCClientStub
  | .nothing => c
  | .handleResponse => c.handleResponse response
  | .warn message => c.warn message

/-- `RPCClientStub::OnData`. -/
def onData (parseFromArray : List UInt8 → Option RPCPacket) (data : List UInt8)
    (c : RPCClientStub) : RPCClientStub :=
  match armOfData parseFromArray data with
  | .case _ action => c.perform ((parseFromArray data).getD {}) action
  | .default => c
  | .rejected => c.warn "Deserialization error"

/-- The server sends no error code that the client's switch does not name. -/
theorem switchArms_event (event : RPCEvent) :
    ∃ action, switchArms.find? (·.1 == event.error) = some (event.error, action) := by
  cases event <;> exact ⟨_, rfl⟩

/-- A reply is taken exactly for its type. -/
theorem armOf_event {response : RPCPacket} {event : RPCEvent}
    (herror : response.error = event.error) :
    (∃ action, armOf response = .case response.error action) ↔
      response.type = .taskResponse ∨ response.type = .queryResponse := by
  obtain ⟨action, hfind⟩ := switchArms_event event
  constructor
  · rintro ⟨_, harm⟩
    unfold armOf at harm
    split at harm
    case isTrue htype => exact htype
    case isFalse => cases harm
  · intro htype
    exact ⟨action, by simp only [armOf, if_pos htype, herror, hfind]⟩

end RPCClientStub

/-! ## The types of the replies -/

namespace RPCPacketFactory

theorem changeTypeToResponse_taskRequest {packet : RPCPacket} (h : packet.type = .taskRequest) :
    (changeTypeToResponse packet).type = .taskResponse := by
  simp only [changeTypeToResponse, h]
  rfl

theorem changeTypeToResponse_queryRequest {packet : RPCPacket} (h : packet.type = .queryRequest) :
    (changeTypeToResponse packet).type = .taskResponse := by
  simp only [changeTypeToResponse, h]
  rfl

theorem changeTypeToResponse_congr {packet packet' : RPCPacket} (h : packet.type = packet'.type) :
    (changeTypeToResponse packet).type = (changeTypeToResponse packet').type := by
  simp only [changeTypeToResponse, h]
  split
  · rfl
  · split <;> rfl

end RPCPacketFactory

/-- The reply to a parsed request has the type that the factory gives it. -/
theorem response_type {event : RPCEvent} (h : event ≠ .onDeserializedFailed)
    (serverId uuid : String) (request : RPCPacket) :
    (ResponseDispatcher.response serverId uuid request event).type =
      (RPCPacketFactory.changeTypeToResponse request).type := by
  rw [response_eq_createReply h, RPCPacketFactory.createReply_eq]

/-! ## The agreement -/

/-- The events for which the server makes a reply to a frame, with the packet it makes it from: the
frame could not be parsed, or it is a request, whose type is still the one that was received. -/
inductive Replies (parseFromArray : List UInt8 → Option RPCPacket) (body : List UInt8)
    (request : RPCPacket) : RPCEvent → Prop where
  | unparsed : parseFromArray body = none →
      Replies parseFromArray body request .onDeserializedFailed
  | parsed {packet : RPCPacket} {event : RPCEvent} : parseFromArray body = some packet →
      packet.type = .taskRequest ∨ packet.type = .queryRequest → request.type = packet.type →
      event ≠ .onDeserializedFailed → Replies parseFromArray body request event

/-- The client understands a reply to a frame: it takes it, in the arm of the reply's error code,
and a `TASK_REQUEST` is answered by a `TASK_RESPONSE`, a `QUERY_REQUEST` by a `QUERY_RESPONSE`. -/
structure Understands (parseFromArray : List UInt8 → Option RPCPacket) (body : List UInt8)
    (reply : RPCPacket) (data : List UInt8) : Prop where
  taken : ∃ action, RPCClientStub.armOfData parseFromArray data = .case reply.error action
  task : ∀ packet, parseFromArray body = some packet → packet.type = .taskRequest →
    reply.type = .taskResponse
  query : ∀ packet, parseFromArray body = some packet → packet.type = .queryRequest →
    reply.type = .queryResponse

namespace RPCClientStub

variable {parseFromArray : List UInt8 → Option RPCPacket} {serverId uuid : String}
  {body data : List UInt8} {request : RPCPacket} {event : RPCEvent}

/-- A request for the service `a`. -/
def sampleRequest (type : RPCPacketType) : RPCPacket := { type := type, service := "a" }

/-- The reply where there is no such service. -/
def sampleReply (type : RPCPacketType) : RPCPacket :=
  ResponseDispatcher.response "server" "session" (sampleRequest type) .onServiceNotFound

/-- Protobuf, as far as these two packets go. -/
def sampleParse (type : RPCPacketType) (data : List UInt8) : Option RPCPacket :=
  [sampleRequest type, sampleReply type].find? fun packet => packet.internalSerialize = data

/-- `~RPCClientStub`: what it logs, where there is a packet to dereference. -/
def destroy (debugString : RPCPacket → String) (c : RPCClientStub) : Option String :=
  c.cachedRequestPacket.map debugString

/-- The bodies are delivered one after another. -/
def receive (parseFromArray : List UInt8 → Option RPCPacket) (bodies : List (List UInt8))
    (c : RPCClientStub) : RPCClientStub :=
  bodies.foldl (fun c data => c.onData parseFromArray data) c

/-- Is it a reply without an error? -/
def succeeds (response : RPCPacket) : Bool :=
  (response.type == .taskResponse || response.type == .queryResponse) &&
    response.error == .pktNoError

/-- The packet of a body that is such a reply. -/
def successOf (parseFromArray : List UInt8 → Option RPCPacket) (data : List UInt8) :
    Option RPCPacket :=
  (parseFromArray data).filter succeeds

/-- Only the arm of `PKT_NO_ERROR` calls `HandleResponse`. -/
theorem handleResponse_iff {label error : RPCPacketError} {action : ClientAction}
    (h : switchArms.find? (·.1 == error) = some (label, action)) :
    action = .handleResponse ↔ error = .pktNoError := by
  have hlabel := List.find?_some h
  obtain rfl : label = error := eq_of_beq hlabel
  constructor
  · rintro rfl
    have hmem := List.mem_of_find?_eq_some h
    simp only [switchArms, List.mem_cons, Prod.mk.injEq, reduceCtorEq, and_false, and_true,
      false_or, List.not_mem_nil, or_false] at hmem
    exact hmem
  · rintro rfl
    cases h
    rfl

theorem cached_perform (response : RPCPacket) (c : RPCClientStub) (action : ClientAction) :
    (c.perform response action).cachedRequestPacket =
      if action = .handleResponse then some response else c.cachedRequestPacket := by
  cases action <;> rfl

/-- A body replaces the cached packet exactly when it parses to a reply without an error. -/
theorem cached_onData (data : List UInt8) (c : RPCClientStub) :
    (c.onData parseFromArray data).cachedRequestPacket =
      (successOf parseFromArray data).or c.cachedRequestPacket := by
  cases hparsed : parseFromArray data with
  | none =>
    simp only [onData, armOfData, successOf, hparsed, Option.filter_none, Option.none_or, warn]
  | some response =>
    simp only [onData, armOfData, successOf, hparsed, Option.getD_some, armOf]
    by_cases htype : response.type = .taskResponse ∨ response.type = .queryResponse
    · have htaken : (response.type == .taskResponse || response.type == .queryResponse) = true := by
        rw [Bool.or_eq_true, beq_iff_eq, beq_iff_eq]
        exact htype
      rw [if_pos htype, Option.filter_some, succeeds, htaken, Bool.true_and]
      cases hfind : switchArms.find? (·.1 == response.error) with
      | none =>
        have hother : (response.error == .pktNoError) = false := by
          rw [beq_eq_false_iff_ne]
          intro heq
          rw [heq] at hfind
          cases hfind
        rw [hother]
        rfl
      | some arm =>
        obtain ⟨label, action⟩ := arm
        simp only [cached_perform, handleResponse_iff hfind, beq_iff_eq]
        split <;> rfl
    · have hnot : succeeds response = false := by
        rw [not_or] at htype
        rw [succeeds, beq_eq_false_iff_ne.mpr htype.1, beq_eq_false_iff_ne.mpr htype.2]
        rfl
      rw [if_neg htype, Option.filter_some, hnot]
      rfl

/-- After any bodies the cached packet is the last of their replies without an error. -/
theorem cached_receive (bodies : List (List UInt8)) (c : RPCClientStub) :
    (c.receive parseFromArray bodies).cachedRequestPacket =
      (bodies.filterMap (successOf parseFromArray)).getLast?.or c.cachedRequestPacket := by
  induction bodies generalizing c with
  | nil => rfl
  | cons data bodies ih =>
    rw [receive, List.foldl_cons]
    change ((c.onData parseFromArray data).receive parseFromArray bodies).cachedRequestPacket = _
    rw [ih, cached_onData]
    cases hdata : successOf parseFromArray data with
    | none => rw [List.filterMap_cons_none hdata, Option.none_or]
    | some response =>
      rw [List.filterMap_cons_some hdata, List.getLast?_cons, Option.some_or]
      cases (bodies.filterMap (successOf parseFromArray)).getLast? <;> rfl

theorem successOf_isSome {data : List UInt8} : (successOf parseFromArray data).isSome = true ↔
    ∃ response, parseFromArray data = some response ∧
      (response.type = .taskResponse ∨ response.type = .queryResponse) ∧
      response.error = .pktNoError := by
  simp only [successOf, Option.isSome_iff_exists, Option.filter_eq_some_iff, succeeds,
    Bool.and_eq_true, Bool.or_eq_true, beq_iff_eq]

/-- For every run of bodies, parser and client: the cached packet is the last of the bodies that
parsed to a reply without an error, and the destructor finds a packet to log, if and only if there
is such a body. -/
theorem safe_iff (parseFromArray : List UInt8 → Option RPCPacket)
    (debugString : RPCPacket → String) (clientid : String) (bodies : List (List UInt8)) :
    (((new clientid).receive parseFromArray bodies).cachedRequestPacket =
        (bodies.filterMap (successOf parseFromArray)).getLast? ∧
      (((new clientid).receive parseFromArray bodies).destroy debugString).isSome = true) ↔
    ∃ data ∈ bodies, ∃ response, parseFromArray data = some response ∧
      (response.type = .taskResponse ∨ response.type = .queryResponse) ∧
      response.error = .pktNoError := by
  have hcached : ((new clientid).receive parseFromArray bodies).cachedRequestPacket =
      (bodies.filterMap (successOf parseFromArray)).getLast? := by
    rw [cached_receive]
    exact Option.or_none
  rw [and_iff_right hcached, destroy, hcached, Option.isSome_map, List.getLast?_isSome]
  constructor
  · intro hne
    obtain ⟨response, hmem⟩ := List.exists_mem_of_ne_nil _ hne
    obtain ⟨data, hdata, heq⟩ := List.mem_filterMap.mp hmem
    exact ⟨data, hdata, successOf_isSome.mp (Option.isSome_of_eq_some heq)⟩
  · rintro ⟨data, hdata, hsuccess⟩
    obtain ⟨response, heq⟩ := Option.isSome_iff_exists.mp (successOf_isSome.mpr hsuccess)
    exact List.ne_nil_of_mem (List.mem_filterMap.mpr ⟨data, hdata, heq⟩)

/-- A client that has received nothing, or only a reply with an error, dereferences a null pointer
when it is destroyed. -/
theorem null_of_nothing :
    ((new "client").receive (sampleParse .taskRequest) []).destroy (fun _ => "") = none ∧
      ((new "client").receive (sampleParse .taskRequest)
        [(sampleReply .taskRequest).internalSerialize]).destroy (fun _ => "") = none := by
  decide

end RPCClientStub

end DSFramework.DSRPC
