import DSFramework.DSRPC.RPCServer.Carried
import DSFramework.DSRPC.RPCServer.Results

/-!
# The clients and the server

The server with the connections of its sessions, at the other end of each a client. A client
serializes the packet of a call and sends it; what arrives is delivered to the server on a thread of
the session; the response dispatcher sends the responses, and the frames of the session's writer
travel to the client. Both directions go their own way, byte by byte, while the server's threads
interleave, and may break at any time.

The server's labels are used as they are but for the two that a connection takes part in: a delivery
is the read of a body, and a completion needs its frame handed over.
-/

namespace DSFramework.DSRPC

open DSCommunication (Endian Writer Frame Reader Connection ConnectionLabel bodyMaxSize)

/-- What a connection to a client has beside the server's write side. -/
structure Downlink where
  sent : Nat
  wire : List UInt8
  reader : Reader
  cut : Bool

/-- The server, and for every session the connection from its client and the rest of the connection
to it. `called` is a history: the packets that the client was called with. -/
structure Exchange where
  server : RPCServer
  up : Nat → Connection
  downlink : Nat → Downlink
  called : Nat → List RPCPacket

inductive ExchangeLabel where
  /-- `RPCClient::CallProcedure` on a client that is connected. -/
  | call (session : Nat) (packet : RPCPacket)
  /-- A step of the connection from a client that delivers nothing. -/
  | rise (session : Nat) (l : ConnectionLabel)
  /-- A body has arrived from a client and is delivered on a thread of its session. -/
  | deliver (session thread : Nat)
  /-- A step of the server's own. -/
  | serve (l : RPCLabel)
  /-- A step of the connection to a client. -/
  | fall (session : Nat) (l : ConnectionLabel)

namespace Exchange

/-- The connection to a client. -/
def down (x : Exchange) (s : Nat) : Connection :=
  { writer := x.server.writers s
    sent := (x.downlink s).sent
    wire := (x.downlink s).wire
    reader := (x.downlink s).reader
    cut := (x.downlink s).cut }

/-- One session's part changes. -/
def setAt {β : Type} (f : Nat → β) (s : Nat) (b : β) : Nat → β := fun s' => if s' = s then b else f s'

/-- The bodies that a connection has handed to `OnData` beyond those it had handed before. -/
def arrived (c c' : Connection) : List (List UInt8) := c'.reader.onData.drop c.reader.onData.length

/-- The rest of a connection to a client. -/
def rest (c : Connection) : Downlink :=
  { sent := c.sent, wire := c.wire, reader := c.reader, cut := c.cut }

variable (C : Setting) (e : Nat → Endian)

def step (x : Exchange) : ExchangeLabel → Option Exchange
  | .call s packet =>
    let called := setAt x.called s (x.called s ++ [packet])
    -- `RPCClient::Serialize` is `ResponseDispatcher::Serialize`
    match C.serialize packet with
    | some (data, size) =>
      ((x.up s).step (e s) C.endian (.send data size)).map fun c =>
        { x with up := setAt x.up s c, called := called }
    | none => some { x with called := called }
  | .rise s l => match l with
    | .send _ _ => none
    | .read =>
      if (x.up s).reader.awaiting = some .headRead then
        ((x.up s).step (e s) C.endian .read).map fun c => { x with up := setAt x.up s c }
      else none
    | l => ((x.up s).step (e s) C.endian l).map fun c => { x with up := setAt x.up s c }
  | .deliver s t =>
    if (x.up s).reader.awaiting = some .bodyRead ∧
        (x.server.threads[t]?).map RPCThread.role = some (.io s) then
      ((x.up s).step (e s) C.endian .read).bind fun c => match arrived (x.up s) c with
        | [body] => (x.server.step C (.deliver t body)).map fun v =>
          { x with server := v, up := setAt x.up s c }
        | _ => none
    else none
  | .serve l => match l with
    | .deliver _ _ | .completeWrite _ _ _ => none
    | l => (x.server.step C l).map fun v => { x with server := v }
  | .fall s l => match l with
    | .send _ _ => none
    | .complete position success =>
      if success && !(x.down s).handedOver position then none
      else (x.server.step C (.completeWrite s position success)).map fun v =>
        { x with
          server := v
          downlink := setAt x.downlink s
            { x.downlink s with sent := if success then 0 else (x.downlink s).sent } }
    | l => ((x.down s).step C.endian (e s) l).map fun c =>
      { x with downlink := setAt x.downlink s (rest c) }

/-- Any number of sessions, each host with its own byte order. -/
def machine : Transition.Machine Exchange ExchangeLabel where
  init x := (RPCServer.machine C).init x.server ∧ x =
    { server := x.server
      up := fun _ => Connection.fresh DSCommunication.Session.sendQueueMaxSize
      downlink := fun _ => ⟨0, [], Reader.start, false⟩
      called := fun _ => [] }
  step := step C e

/-! ## What one step does -/

variable {C : Setting} {e : Nat → Endian} {x x' : Exchange} {l : ExchangeLabel}

/-- Every way a label can take clients and server on. -/
inductive Moves (C : Setting) (e : Nat → Endian) (x : Exchange) :
    ExchangeLabel → Exchange → Prop where
  | call {s : Nat} {packet : RPCPacket} {data : List UInt8} {size : Nat} {c : Connection} :
      C.serialize packet = some (data, size) →
      (Connection.machine (e s) C.endian).step (x.up s) (.send data size) = some c →
      Moves C e x (.call s packet)
        { x with up := setAt x.up s c, called := setAt x.called s (x.called s ++ [packet]) }
  | notSerialized {s : Nat} {packet : RPCPacket} : C.serialize packet = none →
      Moves C e x (.call s packet)
        { x with called := setAt x.called s (x.called s ++ [packet]) }
  | rise {s : Nat} {l : ConnectionLabel} {c : Connection} : (∀ data size, l ≠ .send data size) →
      (l = .read → (x.up s).reader.awaiting = some .headRead) →
      (Connection.machine (e s) C.endian).step (x.up s) l = some c →
      Moves C e x (.rise s l) { x with up := setAt x.up s c }
  | deliver {s t : Nat} {body : List UInt8} {c : Connection} {v : RPCServer} :
      (x.up s).reader.awaiting = some .bodyRead →
      (x.server.threads[t]?).map RPCThread.role = some (.io s) →
      (Connection.machine (e s) C.endian).step (x.up s) .read = some c →
      arrived (x.up s) c = [body] →
      (RPCServer.machine C).step x.server (.deliver t body) = some v →
      Moves C e x (.deliver s t) { x with server := v, up := setAt x.up s c }
  | serve {l : RPCLabel} {v : RPCServer} : (∀ t body, l ≠ .deliver t body) →
      (∀ s position success, l ≠ .completeWrite s position success) →
      (RPCServer.machine C).step x.server l = some v →
      Moves C e x (.serve l) { x with server := v }
  | complete {s position : Nat} {success : Bool} {v : RPCServer} :
      (success = true → (x.down s).handedOver position = true) →
      (RPCServer.machine C).step x.server (.completeWrite s position success) = some v →
      Moves C e x (.fall s (.complete position success)) { x with
        server := v
        downlink := setAt x.downlink s
          { x.downlink s with sent := if success then 0 else (x.downlink s).sent } }
  | fall {s : Nat} {l : ConnectionLabel} {c : Connection} : (∀ data size, l ≠ .send data size) →
      (∀ position success, l ≠ .complete position success) →
      (Connection.machine C.endian (e s)).step (x.down s) l = some c →
      Moves C e x (.fall s l) { x with downlink := setAt x.downlink s (rest c) }

theorem moves_of_step (h : (machine C e).step x l = some x') : Moves C e x l x' := by
  cases l with
  | call s packet =>
    simp only [machine, step] at h
    split at h
    · next data size hserialize =>
      obtain ⟨c, hc, rfl⟩ := Option.map_eq_some_iff.mp h
      exact .call hserialize hc
    · next hserialize =>
      cases h
      exact .notSerialized hserialize
  | rise s l =>
    cases l with
    | send => cases h
    | read =>
      simp only [machine, step] at h
      split at h
      · next hhead =>
        obtain ⟨c, hc, rfl⟩ := Option.map_eq_some_iff.mp h
        exact .rise (fun _ _ => ConnectionLabel.noConfusion) (fun _ => hhead) hc
      · cases h
    | transmit | complete | readError =>
      obtain ⟨c, hc, rfl⟩ := Option.map_eq_some_iff.mp h
      exact .rise (fun _ _ => ConnectionLabel.noConfusion) ConnectionLabel.noConfusion hc
  | deliver s t =>
    simp only [machine, step] at h
    split at h
    · next hready =>
      obtain ⟨c, hc, h⟩ := Option.bind_eq_some_iff.mp h
      split at h
      · next body harrived =>
        obtain ⟨v, hv, rfl⟩ := Option.map_eq_some_iff.mp h
        exact .deliver hready.1 hready.2 hc harrived hv
      · cases h
    · cases h
  | serve l =>
    cases l with
    | deliver | completeWrite => cases h
    | take | advance | takeResponse | subtractResponse | sendResponse =>
      obtain ⟨v, hv, rfl⟩ := Option.map_eq_some_iff.mp h
      exact .serve (fun _ _ => RPCLabel.noConfusion) (fun _ _ _ => RPCLabel.noConfusion) hv
  | fall s l =>
    cases l with
    | send => cases h
    | complete position success =>
      simp only [machine, step] at h
      split at h
      · cases h
      · next hover =>
        obtain ⟨v, hv, rfl⟩ := Option.map_eq_some_iff.mp h
        exact .complete (fun hsuccess => by simpa [hsuccess] using hover) hv
    | transmit | read | readError =>
      obtain ⟨c, hc, rfl⟩ := Option.map_eq_some_iff.mp h
      exact .fall (fun _ _ => ConnectionLabel.noConfusion)
        (fun _ _ => ConnectionLabel.noConfusion) hc

/-! ## The invariant -/

/-- What the server's environment has to keep to: generated ids are fresh, the called functions
change at most the packet's result and leave one that can be parsed, responses fit into a frame, and
every frame that arrives is a packet. -/
structure Sound (runtime : Runtime) (C : Setting) (v : RPCServer) (l : RPCLabel) : Prop where
  keeps : v.keepsPackets l = true
  fits : v.fits l = true
  answers : RPCServer.answersWith (RPCPacket.Normal runtime) l
  parses : RPCServer.parses (C.generated runtime) l

/-- Clients are called with packets that fit into a frame, and the server's environment keeps to
what it has to; that frames are packets is not assumed. -/
def Ok (runtime : Runtime) (x : Exchange) : ExchangeLabel → Prop
  | .call _ packet => packet.WellFormed runtime ∧ packet.internalSerialize.length ≤ bodyMaxSize
  | .serve l => x.server.keepsPackets l = true ∧ x.server.fits l = true ∧
      RPCServer.answersWith (RPCPacket.Normal runtime) l
  | _ => True

/-- THE INVARIANT: the server runs as it does alone, both directions of every connection flow, a
client's frames carry packets that it was called with, and what has been received on a session is
what its connection has delivered. -/
structure Joined (runtime : Runtime) (C : Setting) (x : Exchange) : Prop where
  server : (RPCServer.machine (C.generated runtime)).ReachableBy (Sound runtime C) x.server
  up : ∀ s, (x.up s).Flowing
  down : ∀ s, (x.down s).Flowing
  wellFormed : ∀ s, ∀ packet ∈ x.called s, packet.WellFormed runtime
  called : ∀ s, ((x.up s).writer.accepted.map Frame.body).Sublist
    ((x.called s).map RPCPacket.internalSerialize)
  received : ∀ s, (x.server.receivedOn s).map RPCPacket.internalSerialize =
    (x.up s).reader.onData
  known : ∀ s, ∀ packet ∈ x.server.receivedOn s, packet ∈ x.called s

theorem setAt_self {β : Type} (f : Nat → β) (s : Nat) (b : β) : setAt f s b s = b := if_pos rfl

theorem setAt_of_ne {β : Type} {f : Nat → β} {s s' : Nat} {b : β} (h : s' ≠ s) :
    setAt f s b s' = f s' := if_neg h

/-- What holds of the changed part and of the others holds of all. -/
theorem setAt_all {β : Type} {P : Nat → β → Prop} {f : Nat → β} {s : Nat} {b : β}
    (h : ∀ s', P s' (f s')) (hb : P s b) (s' : Nat) : P s' (setAt f s b s') := by
  by_cases heq : s' = s
  · subst heq
    rwa [setAt_self]
  · rw [setAt_of_ne heq]
    exact h s'

variable {runtime : Runtime}

theorem joined_init {x : Exchange} (h : (machine (C.generated runtime) e).init x) :
    x.Joined runtime C := by
  obtain ⟨hserver, heq⟩ := h
  obtain ⟨roles, services, hroles, hnew⟩ := hserver
  rw [heq, hnew]
  exact {
    server := .start ⟨roles, services, hroles, rfl⟩
    up := fun _ => Connection.flowing_fresh _
    down := fun _ => Connection.flowing_fresh _
    wellFormed := fun _ _ hmem => absurd hmem List.not_mem_nil
    called := fun _ => .slnil
    received := fun _ => rfl
    known := fun _ _ hmem => absurd hmem List.not_mem_nil }

/-- A call, whether its packet is sent or not. -/
theorem Joined.call (h : x.Joined runtime C) {s : Nat} {packet : RPCPacket} {c : Connection}
    (hpacket : packet.WellFormed runtime) (hflowing : c.Flowing)
    (haccepted : (c.writer.accepted.map Frame.body).Sublist
      ((x.called s ++ [packet]).map RPCPacket.internalSerialize))
    (hdata : c.reader.onData = (x.up s).reader.onData) :
    Joined runtime C
      { x with up := setAt x.up s c, called := setAt x.called s (x.called s ++ [packet]) } where
  server := h.server
  up := setAt_all (P := fun _ => Connection.Flowing) h.up hflowing
  down := h.down
  wellFormed := by
    refine setAt_all (P := fun _ ps => ∀ p ∈ ps, RPCPacket.WellFormed runtime p) h.wellFormed ?_
    intro p hp
    rcases List.mem_append.mp hp with hold | hnew
    · exact h.wellFormed s p hold
    · exact List.mem_singleton.mp hnew ▸ hpacket
  called s' := by
    by_cases heq : s' = s
    · subst heq
      simpa only [setAt_self] using haccepted
    · simpa only [setAt_of_ne heq] using h.called s'
  received := by
    refine setAt_all (P := fun s' (c' : Connection) => (x.server.receivedOn s').map
      RPCPacket.internalSerialize = c'.reader.onData) h.received ?_
    rw [hdata]
    exact h.received s
  known s' p hp := by
    by_cases heq : s' = s
    · subst heq
      simp only [setAt_self]
      exact List.mem_append_left _ (h.known s' p hp)
    · simp only [setAt_of_ne heq]
      exact h.known s' p hp

theorem Joined.rise (h : x.Joined runtime C) {s : Nat} {c : Connection} (hflowing : c.Flowing)
    (haccepted : (c.writer.accepted.map Frame.body).Sublist
      ((x.called s).map RPCPacket.internalSerialize))
    (hdata : c.reader.onData = (x.up s).reader.onData) :
    Joined runtime C { x with up := setAt x.up s c } where
  server := h.server
  up := setAt_all (P := fun _ => Connection.Flowing) h.up hflowing
  down := h.down
  wellFormed := h.wellFormed
  called := setAt_all (P := fun s' (c' : Connection) => (c'.writer.accepted.map
    Frame.body).Sublist ((x.called s').map RPCPacket.internalSerialize)) h.called haccepted
  received := by
    refine setAt_all (P := fun s' (c' : Connection) => (x.server.receivedOn s').map
      RPCPacket.internalSerialize = c'.reader.onData) h.received ?_
    rw [hdata]
    exact h.received s
  known := h.known

/-- What the server delivers on a session. -/
theorem receivedOn_onData (C : Setting) (v : RPCServer) (t s s' : Nat) (body : List UInt8) :
    (v.onData C t s body).receivedOn s' = v.receivedOn s' ++
      if s = s' then [(C.parseFromArray body).getD {}] else [] := by
  simp only [RPCServer.receivedOn, RPCServer.onData, List.filter_append, List.map_append]
  by_cases heq : s = s'
  · simp [heq]
  · simp [heq]

/-- A step of the server that delivers nothing. -/
theorem Joined.serve (h : x.Joined runtime C) {l : RPCLabel} {v : RPCServer}
    {downlink : Nat → Downlink} (hdeliver : ∀ t body, l ≠ .deliver t body)
    (hsound : Sound runtime C x.server l)
    (hstep : (RPCServer.machine (C.generated runtime)).step x.server l = some v)
    (hdown : ∀ s, (Exchange.down { x with server := v, downlink := downlink } s).Flowing) :
    Joined runtime C { x with server := v, downlink := downlink } where
  server := h.server.next hsound hstep
  up := h.up
  down := hdown
  wellFormed := h.wellFormed
  called := h.called
  received s := by
    rw [(RPCServer.moves_of_step hstep).receivedOn hdeliver s]
    exact h.received s
  known s packet hmem := by
    rw [(RPCServer.moves_of_step hstep).receivedOn hdeliver s] at hmem
    exact h.known s packet hmem

/-- A body arrives: it is a packet that the client was called with, and the server parses it. -/
theorem Joined.deliver (h : x.Joined runtime C) {s t : Nat} {body : List UInt8} {c : Connection}
    {v : RPCServer} (hbody : (x.up s).reader.awaiting = some .bodyRead)
    (hthread : (x.server.threads[t]?).map RPCThread.role = some (.io s))
    (hc : (Connection.machine (e s) C.endian).step (x.up s) .read = some c)
    (harrived : arrived (x.up s) c = [body])
    (hv : (RPCServer.machine (C.generated runtime)).step x.server (.deliver t body) = some v) :
    Joined runtime C { x with server := v, up := setAt x.up s c } := by
  have hflowing : c.Flowing := (h.up s).step rfl hc
  obtain ⟨frame, hframe, hdata⟩ := (h.up s).onData_read hbody hc
  have heq : body = frame.body := by
    rw [arrived, hdata, List.drop_left' rfl] at harrived
    exact (List.cons.inj harrived).1.symm
  -- the body is a packet's bytes
  have hmem : frame.body ∈ (x.called s).map RPCPacket.internalSerialize :=
    (h.called s).mem (List.mem_map_of_mem hframe)
  obtain ⟨packet, hpacket, hbytes⟩ := List.mem_map.mp hmem
  have hparsed : RPCPacket.parseFromArray runtime body = some packet := by
    rw [heq, ← hbytes]
    exact RPCPacket.parseFromArray_internalSerialize (h.wellFormed s packet hpacket)
  have hsound : Sound runtime C x.server (.deliver t body) :=
    ⟨rfl, rfl, trivial, Option.isSome_of_eq_some hparsed⟩
  have hserver : v = x.server.onData (C.generated runtime) t s body := by
    have hmoves : RPCServer.Moves (C.generated runtime) x.server (.deliver t body) v :=
      RPCServer.moves_of_step hv
    cases hmoves with
    | deliver hat =>
      rw [hat, Option.map_some, Option.some.injEq] at hthread
      cases hthread
      rfl
  refine {
    server := h.server.next hsound hv
    up := setAt_all (P := fun _ => Connection.Flowing) h.up hflowing
    down := fun s' => ?_
    wellFormed := h.wellFormed
    called := setAt_all (P := fun s' (c' : Connection) => (c'.writer.accepted.map
      Frame.body).Sublist ((x.called s').map RPCPacket.internalSerialize)) h.called ?_
    received := fun s' => ?_
    known := fun s' p hp => ?_ }
  · rw [hserver]
    exact h.down s'
  · have hsame := Connection.accepted_step rfl hc
    simp only [ConnectionLabel.message, Option.toList_none, List.append_nil] at hsame
    exact hsame.trans (h.called s)
  · rw [hserver, receivedOn_onData]
    by_cases hs : s' = s
    · subst hs
      simp only [setAt_self, hdata, if_true, List.map_append, h.received, List.map_singleton,
        Setting.generated, hparsed, Option.getD_some, hbytes]
    · simp only [setAt_of_ne hs, if_neg (Ne.symm hs), List.append_nil]
      exact h.received s'
  · rw [hserver, receivedOn_onData] at hp
    rcases List.mem_append.mp hp with hold | hnew
    · exact h.known s' p hold
    · split at hnew
      · next hs =>
        simp only [Setting.generated, hparsed, Option.getD_some, List.mem_singleton] at hnew
        rw [hnew, ← hs]
        exact hpacket
      · cases hnew

/-- What a step of the server's own makes of the connections. -/
theorem Joined.down_serve (h : x.Joined runtime C) {l : RPCLabel} {v : RPCServer}
    (hmoves : RPCServer.Moves (C.generated runtime) x.server l v)
    (hcomplete : ∀ s position success, l ≠ .completeWrite s position success)
    (hfits : x.server.fits l = true) (s : Nat) :
    (Exchange.down { x with server := v } s).Flowing := by
  have hdown : Exchange.down { x with server := v } s =
      { x.down s with writer := v.writers s } := rfl
  rw [hdown]
  rcases hmoves.writers_own hcomplete hfits with heq | ⟨-, s', data, hok, heq⟩
  · rw [heq]
    exact h.down s
  · rw [heq]
    by_cases hs : s = s'
    · subst hs
      simp only [RPCServer.setWriter, if_true]
      exact (h.down s).send hok
    · simp only [RPCServer.setWriter, if_neg hs]
      exact h.down s

theorem Joined.complete (h : x.Joined runtime C) {s position : Nat} {success : Bool}
    {v : RPCServer} (hover : success = true → (x.down s).handedOver position = true)
    (hmoves : RPCServer.Moves (C.generated runtime) x.server (.completeWrite s position success) v)
    (s' : Nat) : (Exchange.down { x with
      server := v
      downlink := setAt x.downlink s
        { x.downlink s with sent := if success then 0 else (x.downlink s).sent } } s').Flowing := by
  cases hmoves with
  | @completeWrite _ _ _ w hw =>
    by_cases hs : s' = s
    · subst hs
      have hflowing := (h.down s').complete hover hw
      simp only [Exchange.down, setAt_self, RPCServer.setWriter, if_true]
      exact hflowing
    · simp only [Exchange.down, setAt_of_ne hs, RPCServer.setWriter, if_neg hs]
      exact h.down s'

/-- A step of a connection that its writer takes no part in. -/
theorem Joined.fall (h : x.Joined runtime C) {s : Nat} {l : ConnectionLabel} {c : Connection}
    (hsend : ∀ data size, l ≠ .send data size)
    (hcomplete : ∀ position success, l ≠ .complete position success)
    (hstep : (Connection.machine C.endian (e s)).step (x.down s) l = some c) :
    Joined runtime C { x with downlink := setAt x.downlink s (rest c) } := by
  have hadmitted : Connection.admitted l = true := by
    cases l with
    | send data size => exact absurd rfl (hsend data size)
    | _ => rfl
  have hflowing : c.Flowing := (h.down s).step hadmitted hstep
  have hwriter : c.writer = x.server.writers s := Connection.writer_kept hsend hcomplete hstep
  refine { h with down := fun s' => ?_ }
  by_cases hs : s' = s
  · subst hs
    simp only [Exchange.down, setAt_self, rest, ← hwriter]
    exact hflowing
  · simp only [Exchange.down, setAt_of_ne hs]
    exact h.down s'

theorem Joined.step (h : x.Joined runtime C) (hok : Ok runtime x l)
    (hmoves : Moves (C.generated runtime) e x l x') : x'.Joined runtime C := by
  cases hmoves with
  | @call s packet data size c hserialize hstep =>
    obtain ⟨hpacket, hsmall⟩ := hok
    have hserialized := Prod.mk.inj (serialize_generated hserialize hsmall)
    have hadmitted : Connection.admitted (.send data size) = true := by
      rw [hserialized.1, hserialized.2]
      exact Connection.admitted_natCast hsmall
    have haccepted := Connection.accepted_step hadmitted hstep
    refine h.call hpacket ((h.up s).step hadmitted hstep) ?_
      ((h.up s).onData_kept ConnectionLabel.noConfusion hstep)
    rw [ConnectionLabel.message, hserialized.1, hserialized.2, Int.toNat_natCast,
      List.take_length, Option.toList_some] at haccepted
    rw [List.map_append, List.map_singleton]
    exact haccepted.trans ((h.called s).append_right _)
  | @notSerialized s packet hserialize =>
    have hsame : setAt x.up s (x.up s) = x.up := by
      funext s'
      simp only [setAt]
      split
      · next heq => rw [heq]
      · rfl
    have hcalled := h.call hok.1 (h.up s) ?_ rfl
    · rwa [hsame] at hcalled
    · rw [List.map_append]
      exact (h.called s).trans (List.sublist_append_left _ _)
  | @rise s l c hsend hhead hstep =>
    have hadmitted : Connection.admitted l = true := by
      cases l with
      | send data size => exact absurd rfl (hsend data size)
      | _ => rfl
    have hmessage : l.message = none := by
      cases l with
      | send data size => exact absurd rfl (hsend data size)
      | _ => rfl
    have haccepted := Connection.accepted_step hadmitted hstep
    rw [hmessage, Option.toList_none, List.append_nil] at haccepted
    exact h.rise ((h.up s).step hadmitted hstep) (haccepted.trans (h.called s))
      ((h.up s).onData_kept hhead hstep)
  | deliver hbody hthread hstep harrived hv => exact h.deliver hbody hthread hstep harrived hv
  | @serve l v hdeliver hcomplete hv =>
    obtain ⟨hkeeps, hfits, hanswers⟩ := hok
    have hparses : RPCServer.parses (C.generated runtime) l := by
      cases l with
      | deliver t body => exact absurd rfl (hdeliver t body)
      | _ => trivial
    exact h.serve hdeliver ⟨hkeeps, hfits, hanswers, hparses⟩ hv
      (h.down_serve (RPCServer.moves_of_step hv) hcomplete hfits)
  | complete hover hv =>
    refine h.serve (fun _ _ => RPCLabel.noConfusion) ?_ hv
      (h.complete hover (RPCServer.moves_of_step hv))
    exact ⟨rfl, rfl, trivial, trivial⟩
  | fall hsend hcomplete hstep => exact h.fall hsend hcomplete hstep

theorem joined_of_reachable
    (h : (machine (C.generated runtime) e).ReachableBy (Ok runtime) x) : x.Joined runtime C :=
  h.invariant (fun _ => joined_init) fun _ _ _ hjoined hok hstep =>
    hjoined.step hok (moves_of_step hstep)

/-! ## What clients call and get -/

/-- Packets are told apart by what they are serialized to. -/
theorem parse_map {packets : List RPCPacket}
    (h : ∀ packet ∈ packets, packet.WellFormed runtime) :
    (packets.map RPCPacket.internalSerialize).map (RPCPacket.parseFromArray runtime) =
      packets.map some := by
  rw [List.map_map]
  exact List.map_congr_left fun packet hmem =>
    RPCPacket.parseFromArray_internalSerialize (h packet hmem)

/-- The server receives, in order, packets that the client was called with. -/
theorem Joined.receivedOn (h : x.Joined runtime C) (s : Nat) :
    (x.server.receivedOn s).Sublist (x.called s) := by
  have hbytes : ((x.server.receivedOn s).map RPCPacket.internalSerialize).Sublist
      ((x.called s).map RPCPacket.internalSerialize) :=
    h.received s ▸ (h.up s).delivered.sublist.trans (h.called s)
  obtain ⟨packets, hsublist, hmap⟩ := List.sublist_map_iff.mp hbytes
  have hparsed := congrArg (List.map (RPCPacket.parseFromArray runtime)) hmap
  rw [parse_map fun packet hmem => h.wellFormed s packet (h.known s packet hmem),
    parse_map fun packet hmem => h.wellFormed s packet (hsublist.mem hmem)] at hparsed
  rw [List.map_inj_right fun _ _ heq => Option.some.inj heq] at hparsed
  exact hparsed ▸ hsublist

/-- What the client parses are, in order, responses that were sent to its session. -/
theorem Joined.onData (h : x.Joined runtime C) (s : Nat) :
    ∃ responses : List Response, responses.Sublist (x.server.sentTo s) ∧
      (x.down s).reader.onData.map (RPCPacket.parseFromArray runtime) =
        responses.map fun y => some y.packet := by
  have hnormal := RPCServer.everywhere_of_reachable (closed_normal runtime)
    (fun _ _ hparse => RPCPacket.normal_parseFromArray hparse)
    (h.server.mono fun _ _ hok => hok.answers)
  have hcarried := RPCServer.carried_of_reachable (h.server.mono fun _ _ hok => hok.fits)
  have hposting := RPCServer.posting_of_reachable h.server
  have hbytes : (x.down s).reader.onData.Sublist
      (((x.server.sentTo s).map Response.packet).map RPCPacket.internalSerialize) :=
    (h.down s).delivered.sublist.trans (hcarried.bodies s)
  rw [List.map_map] at hbytes
  obtain ⟨responses, hsublist, hmap⟩ := List.sublist_map_iff.mp hbytes
  refine ⟨responses, hsublist, ?_⟩
  rw [hmap, List.map_map]
  apply List.map_congr_left
  intro y hy
  obtain ⟨r, hr, -⟩ := hposting.of_mem_sentTo (hsublist.mem hy)
  refine RPCPacket.parseFromArray_internalSerialize ⟨hnormal.responses r y hr, ?_⟩
  -- it has been in a frame
  have hdelivered : y.packet.internalSerialize ∈ (x.down s).reader.onData :=
    hmap ▸ List.mem_map_of_mem hy
  obtain ⟨frame, hframe, hbody⟩ := List.mem_map.mp ((h.down s).delivered.mem hdelivered)
  have hle := ((h.down s).frames frame hframe).body_le
  rw [hbody, RPCPacket.length_internalSerialize] at hle
  exact Nat.lt_of_le_of_lt hle (by decide)

/-- What a client has sent of a request and gets back. -/
def carriedBack (packet : RPCPacket) : String × Option AnyMessage × String × String :=
  (packet.service, packet.parameters, packet.from, packet.to)

theorem preserves_carriedBack : Preserves carriedBack where
  init _ _ _ _ := rfl
  update status currentTime packet := by
    obtain ⟨_, _, _, _, _, heq⟩ := RPCPacketManager.updateStatus_eq status currentTime packet
    rw [heq]
    rfl

/-- What a response tells the client of the request that it answers. -/
structure Replies (C : Setting) (s : Nat) (y : Response) (c : Request) : Prop where
  session : c.session = s
  service : y.packet.service = c.received.service
  parameters : y.packet.parameters = c.received.parameters
  «from» : y.packet.from = c.received.to
  «to» : y.packet.to = c.received.from
  innerId : y.packet.innerId = C.uuid s
  status : y.packet.status = y.event.status
  error : y.packet.error = y.event.error

/-- Every response that is sent to a session tells the truth about a request received on it. -/
theorem Joined.replies (h : x.Joined runtime C) (s : Nat) {y : Response}
    (hy : y ∈ x.server.sentTo s) : ∃ c, x.server.packets[y.request]? = some c ∧ Replies C s y c := by
  obtain ⟨r, hr, hsession⟩ := (RPCServer.posting_of_reachable h.server).of_mem_sentTo hy
  have hkeeps := h.server.mono fun _ _ hok => hok.keeps
  have htruthful := RPCServer.truthful_of_reachable hkeeps r y hr
  obtain ⟨herror, c, hc, hsame, -⟩ := RPCServer.answered_of_reachable h.server r y hr
  have hevent := (RPCServer.parsed_of_reachable
    (h.server.mono fun _ _ hok => hok.parses)).responses r y hr
  obtain ⟨-, hreplies⟩ := RPCServer.repliesTo_of_reachable preserves_carriedBack
    (hkeeps.mono fun _ _ => RPCServer.leaves_of_keepsPackets fun _ _ => rfl)
  obtain ⟨c', request, hc', hkept, hpacket⟩ := hreplies r y hr
  cases hc.symm.trans hc'
  rw [response_eq_createReply hevent, RPCPacketFactory.createReply_eq] at hpacket
  simp only [carriedBack, Prod.mk.injEq] at hkept
  obtain ⟨hservice, hparameters, hfrom, hto⟩ := hkept
  refine ⟨c, hc, ?_⟩
  exact {
    session := hsame.trans hsession
    service := (congrArg RPCPacket.service hpacket).trans hservice
    parameters := (congrArg RPCPacket.parameters hpacket).trans hparameters
    «from» := (congrArg RPCPacket.from hpacket).trans hto
    «to» := (congrArg RPCPacket.to hpacket).trans hfrom
    innerId := hsession ▸ htruthful.innerId
    status := (htruthful.status hevent).1
    error := herror }

/-- The responses with a request's id come in the order of its life. -/
theorem Joined.statuses (h : x.Joined runtime C) (s : Nat) {responses : List Response}
    (hsublist : responses.Sublist (x.server.sentTo s)) {a : Nat} {c : Request}
    (hc : x.server.packets[a]? = some c) (hassigned : .assigned ∈ c.history) :
    let statuses := (responses.filter fun y => y.packet.requestId == c.packet.requestId).map
      fun y => y.packet.status
    statuses.Sublist [.submitted, .waiting, .commited, .completed] ∨
      statuses.Sublist [.submitted, .waiting, .commited, .failed] := by
  have hkeeps := h.server.mono fun _ _ hok => hok.keeps
  have hstamping := RPCServer.stamping_of_reachable hkeeps
  have hsent := hstamping.sentTo_sublist (RPCServer.posting_of_reachable h.server)
    (RPCServer.answered_of_reachable h.server) (RPCServer.truthful_of_reachable hkeeps) s hc
    hassigned
  have hmine := ((hsublist.filter fun y => y.packet.requestId == c.packet.requestId).map
    fun y => y.packet.status).trans hsent
  have hposted := beginnings_posted _ (hstamping.managed.beginning hc)
  split at hposted
  · exact .inr ((hmine.trans hposted).trans (by decide))
  · exact hposted.imp hmine.trans hmine.trans

/-- What a client keeps of what it has parsed. -/
theorem cached_of_parsed {bodies : List (List UInt8)} {responses : List Response}
    {parseFromArray : List UInt8 → Option RPCPacket}
    (h : bodies.map parseFromArray = responses.map fun y => some y.packet) (clientid : String) :
    ((RPCClientStub.new clientid).receive parseFromArray bodies).cachedRequestPacket =
      ((responses.map Response.packet).filter RPCClientStub.succeeds).getLast? := by
  have hsuccesses : bodies.filterMap (RPCClientStub.successOf parseFromArray) =
      (responses.map Response.packet).filter RPCClientStub.succeeds := by
    have hfilter : bodies.filterMap (RPCClientStub.successOf parseFromArray) =
        (bodies.map parseFromArray).filterMap fun p => p.filter RPCClientStub.succeeds := by
      rw [List.filterMap_map]
      rfl
    rw [hfilter, h, List.filterMap_map, ← List.filterMap_eq_filter, List.filterMap_map]
    rfl
  rw [RPCClientStub.cached_receive, hsuccesses]
  exact Option.or_none

/-- From the call to the client's stub, in every run of any clients and the server, whatever else
their threads do, however bytes and errors interleave and wherever queues drop: the server receives
on a session, in order, packets that its client was called with; what the client parses are, in
order and unchanged, responses that were sent to its session; each bears the parameters, the service
and, turned round, the addresses of a request received on the session, and the status and the error
of its event; those with the id of one request have, in order, some of the statuses of its life; and
the client keeps the last one without an error. -/
theorem replies_of_reachable
    (h : (machine (C.generated runtime) e).ReachableBy (Ok runtime) x) (s : Nat)
    (clientid : String) :
    (x.server.receivedOn s).Sublist (x.called s) ∧
      ∃ responses : List Response, responses.Sublist (x.server.sentTo s) ∧
        (x.down s).reader.onData.map (RPCPacket.parseFromArray runtime) =
          responses.map (fun y => some y.packet) ∧
        (∀ y ∈ responses, ∃ c, x.server.packets[y.request]? = some c ∧ Replies C s y c) ∧
        (∀ (a : Nat) c, x.server.packets[a]? = some c → .assigned ∈ c.history →
          let statuses := (responses.filter fun y =>
            y.packet.requestId == c.packet.requestId).map fun y => y.packet.status
          statuses.Sublist [.submitted, .waiting, .commited, .completed] ∨
            statuses.Sublist [.submitted, .waiting, .commited, .failed]) ∧
        ((RPCClientStub.new clientid).receive (RPCPacket.parseFromArray runtime)
          (x.down s).reader.onData).cachedRequestPacket =
            ((responses.map Response.packet).filter RPCClientStub.succeeds).getLast? := by
  have hjoined := joined_of_reachable h
  obtain ⟨responses, hsublist, hparsed⟩ := hjoined.onData s
  exact ⟨hjoined.receivedOn s, responses, hsublist, hparsed,
    fun y hy => hjoined.replies s (hsublist.mem hy),
    fun a c hc hassigned => hjoined.statuses s hsublist hc hassigned,
    cached_of_parsed hparsed clientid⟩

/-- Clients and the server, as the concrete run begins. -/
def sampleExchange : Exchange :=
  { server := RPCServer.new [.io 0, .worker] [("a", 0)]
    up := fun _ => Connection.fresh DSCommunication.Session.sendQueueMaxSize
    downlink := fun _ => ⟨0, [], Reader.start, false⟩
    called := fun _ => [] }

/-- The packet that the client of session 0 is called with. -/
def sampleCall : RPCPacket := { service := "a" }

/-- It is this packet in the server when it has been committed. -/
def sampleCommited : RPCPacket :=
  { requestId := "i", innerId := "session", service := "a", status := .commited,
    error := .pktNoError }

/-- The call arrives and is served, and its four responses arrive. -/
def sampleDelivery : List ExchangeLabel :=
  List.replicate 5 (ExchangeLabel.rise 0 .transmit) ++
    [.rise 0 (.complete 0 true), .rise 0 .read, .deliver 0 1] ++
    List.replicate 15 (.serve (.advance 1 { uid := "i" })) ++ [.serve (.take 0)] ++
    List.replicate 10 (.serve (.advance 0 { packet := sampleCommited })) ++ [.serve (.take 2)] ++
    List.replicate 9 (.serve (.advance 2 { packet := sampleCommited })) ++
    (RPCServer.sendResponses 4).map .serve ++
    (List.replicate 4 (List.replicate 21 (ExchangeLabel.fall 0 .transmit) ++
      [ExchangeLabel.fall 0 (.complete 0 true), .fall 0 .read, .fall 0 .read])).flatten

/-- A packet that fits into a frame and has nothing unknown in it. -/
def plain (packet : RPCPacket) : Bool :=
  packet.internalSerialize.length ≤ bodyMaxSize && packet.unknownFields == [] &&
    packet.parameters.all (fun m => m.unknownFields == []) &&
    packet.result.all fun m => m.unknownFields == []

/-- The condition, decided where it can be. -/
def keepsTo (x : Exchange) : ExchangeLabel → Bool
  | .call _ packet => plain packet
  | .serve l => x.server.keepsPackets l && x.server.fits l && match l with
    | .advance _ answer => plain answer.packet
    | _ => true
  | _ => true

theorem wellFormed_of_plain {packet : RPCPacket} (h : plain packet = true) :
    packet.WellFormed .wire ∧ packet.internalSerialize.length ≤ bodyMaxSize := by
  simp only [plain, Bool.and_eq_true, decide_eq_true_eq, beq_iff_eq, Option.all_eq_true] at h
  obtain ⟨⟨⟨hsize, hunknown⟩, hparameters⟩, hresult⟩ := h
  refine ⟨RPCPacket.wellFormed_of_nil ?_ hparameters hresult hunknown, hsize⟩
  rw [RPCPacket.length_internalSerialize] at hsize
  exact Nat.lt_of_le_of_lt hsize (by decide)

theorem ok_of_keepsTo (h : keepsTo x l = true) : Ok .wire x l := by
  cases l with
  | call s packet => exact wellFormed_of_plain h
  | rise | deliver | fall => trivial
  | serve l =>
    simp only [keepsTo, Bool.and_eq_true] at h
    obtain ⟨⟨hkeeps, hfits⟩, hpacket⟩ := h
    refine ⟨hkeeps, hfits, ?_⟩
    cases l with
    | advance t answer => exact (wellFormed_of_plain hpacket).1.toNormal
    | _ => trivial

/-- The client has parsed what the server has to say of its call. -/
theorem replies_of_reachable_one :
    ∃ x, (machine ((RPCServer.sampleSetting 8 8).generated .wire) fun _ => .big).run
        sampleExchange (.call 0 sampleCall :: sampleDelivery) = some x ∧
      x.server.receivedOn 0 = [sampleCall] ∧
      ((x.down 0).reader.onData.map (RPCPacket.parseFromArray .wire)).map
          (Option.map RPCPacket.status) =
        [some .submitted, some .waiting, some .commited, some .completed] ∧
      ∃ responses : List Response, responses.Sublist (x.server.sentTo 0) ∧
        (x.down 0).reader.onData.map (RPCPacket.parseFromArray .wire) =
          responses.map fun y => some y.packet := by
  have hruns : ((machine ((RPCServer.sampleSetting 8 8).generated .wire) fun _ => .big).run
      sampleExchange (.call 0 sampleCall :: sampleDelivery)).any (fun x =>
        x.server.receivedOn 0 = [sampleCall] ∧
        ((x.down 0).reader.onData.map (RPCPacket.parseFromArray .wire)).map
          (Option.map RPCPacket.status) =
        [some .submitted, some .waiting, some .commited, some .completed]) = true := by
    decide +kernel
  obtain ⟨x, hrun, hx⟩ := (Option.any_eq_true _ _).mp hruns
  obtain ⟨hreceived, hstatuses⟩ := of_decide_eq_true hx
  have hreachable : (machine ((RPCServer.sampleSetting 8 8).generated .wire)
      fun _ => .big).ReachableBy (Ok .wire) x :=
    .run (fun _ _ hok => ok_of_keepsTo hok)
      (.start ⟨⟨_, _, by decide, rfl⟩, rfl⟩) (by decide +kernel) hrun
  obtain ⟨-, responses, hsublist, hparsed, -⟩ := replies_of_reachable hreachable 0 "client"
  exact ⟨x, hrun, hreceived, hstatuses, responses, hsublist, hparsed⟩

end Exchange

end DSFramework.DSRPC
