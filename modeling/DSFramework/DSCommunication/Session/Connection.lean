import DSFramework.DSCommunication.Session.Lengths

/-!
# A connection

One direction of a connection: the write side of one session, the bytes under way, and the read
side of the session at the other end. The transport carries bytes in order and may break at any
time. An outstanding write hands its frame over byte by byte and completes when it has handed over
all of it, or with an error when it has handed over any part; an outstanding read completes when
its bytes have arrived, or with an error. All of this interleaves with `Send`.

`Flowing` is the invariant: the bytes that have left the writer are the bytes the reader has
consumed and then the bytes under way, and the reader stands at the boundary of a frame or between
the head and the body of one.
-/

namespace DSFramework.DSCommunication

/-- The bytes that the write of a frame sends. -/
def Frame.bytes (frame : Frame) : List UInt8 := frame.packet.buffer

/-- What a frame carries. -/
def Frame.body (frame : Frame) : List UInt8 := frame.bytes.drop headBytesSize

/-- The write side, how much of the frame at the front has been handed over, the bytes under way,
and the peer's read side. `cut` is a history: whether a read has ended with an error. -/
structure Connection where
  writer : Writer
  sent : Nat
  wire : List UInt8
  reader : Reader
  cut : Bool

inductive ConnectionLabel where
  | send (data : List UInt8) (dataLength : Int)
  /-- The outstanding write hands over one more byte. -/
  | transmit
  | complete (position : Nat) (success : Bool)
  /-- The bytes of the outstanding read have arrived. -/
  | read
  | readError
  deriving DecidableEq, Repr

/-- How many bytes the outstanding `async_read` asked for. -/
def Reader.wanted (r : Reader) : Option Nat :=
  r.awaiting.map fun
    | .headRead => headBytesSize
    | .bodyRead => r.bodyRecvPacket.dataSize.toNat

namespace Connection

def fresh (sendQMaxSize : UInt8) : Connection :=
  { writer := Writer.fresh sendQMaxSize
    sent := 0
    wire := []
    reader := Reader.start
    cut := false }

/-- Has the write at a position handed over its frame? -/
def handedOver (c : Connection) (position : Nat) : Bool :=
  (c.writer.writes[position]?).any fun frame => frame.bytes.length == c.sent

def step (e e' : Endian) (c : Connection) : ConnectionLabel → Option Connection
  | .send data dataLength =>
    ((Writer.machine e).step c.writer (.send data dataLength)).map fun w => { c with writer := w }
  | .transmit =>
    ((c.writer.writes.head?).bind fun frame => frame.bytes[c.sent]?).map fun b =>
      { c with sent := c.sent + 1, wire := c.wire ++ [b] }
  | .complete position success =>
    if success && !c.handedOver position then none
    else ((Writer.machine e).step c.writer (.complete position success)).map fun w =>
      { c with writer := w, sent := if success then 0 else c.sent }
  | .read =>
    if c.reader.wanted.any (· ≤ c.wire.length) then
      let (r, wire) := Reader.step e' (c.reader, c.wire)
      some { c with reader := r, wire := wire }
    else none
  | .readError =>
    if c.reader.awaiting.isSome then some { c with reader := c.reader.close, cut := true }
    else none

/-- The two hosts may differ in their byte order. -/
def machine (e e' : Endian) : Transition.Machine Connection ConnectionLabel where
  init c := ∃ sendQMaxSize, c = fresh sendQMaxSize
  step := step e e'

/-- `Send` is called with a length that its data has and that the reader admits. -/
def admitted : ConnectionLabel → Bool
  | .send data dataLength => 0 ≤ dataLength && dataLength ≤ data.length && dataLength ≤ bodyMaxSize
  | _ => true

theorem admitted_natCast {data : List UInt8} (h : data.length ≤ bodyMaxSize) :
    admitted (.send data data.length) = true := by
  simp only [admitted, Bool.and_eq_true, decide_eq_true_eq]
  exact ⟨⟨Int.natCast_nonneg _, Int.le_refl _⟩, Int.ofNat_le.mpr h⟩

/-! ## The bytes that have left -/

end Connection

/-- The frame at the front. -/
def Writer.outgoing (w : Writer) : List UInt8 := (w.sendQueue.take 1).flatMap Frame.bytes

/-- What the writer has handed over. -/
def Connection.stream (c : Connection) : List UInt8 :=
  c.writer.written.flatMap Frame.bytes ++ c.writer.outgoing.take c.sent

/-- A frame that the reader expects: a head that announces the body, and the body. -/
structure Frame.Admitted (frame : Frame) : Prop where
  bytes_eq : frame.bytes = networkBytes (UInt16.ofNat frame.body.length) ++ frame.body
  body_le : frame.body.length ≤ bodyMaxSize

/-- `Send` makes an admitted frame of admitted arguments, with the data as its body. -/
theorem admitted_frameOf (e : Endian) (w : Writer) {data : List UInt8} {dataLength : Int}
    (h : Connection.admitted (.send data dataLength) = true) :
    (w.frameOf e data dataLength).Admitted ∧
      (w.frameOf e data dataLength).body = data.take dataLength.toNat := by
  simp only [Connection.admitted, Bool.and_eq_true, decide_eq_true_eq] at h
  obtain ⟨⟨hpos, hdata⟩, hmax⟩ := h
  obtain ⟨n, rfl⟩ := Int.eq_ofNat_of_zero_le hpos
  have hn : n ≤ data.length := by omega
  have hbig : n ≤ 4096 := by
    have : bodyMaxSize = 4096 := rfl
    omega
  have hsize : (UInt16.ofInt n).toNat = n := by
    rw [toNat_ofInt_natCast]
    omega
  have hbuffer := dscSendPacket_buffer e (hsize ▸ hn) (by omega)
  rw [hsize] at hbuffer
  have hbytes : (w.frameOf e data n).bytes = networkBytes (UInt16.ofInt n) ++ data.take n := hbuffer
  have hbody : (w.frameOf e data n).body = data.take n := by
    rw [Frame.body, hbytes]
    exact List.drop_left' (networkBytes_length _)
  have hlen : (w.frameOf e data n).body.length = n := by
    rw [hbody, List.length_take]
    omega
  have hcast : UInt16.ofInt n = UInt16.ofNat n := by
    apply UInt16.toNat_inj.mp
    rw [hsize, UInt16.toNat_ofNat']
    omega
  refine ⟨⟨?_, ?_⟩, ?_⟩
  · rw [hlen, hbody, hbytes, hcast]
  · rw [hlen]
    exact hbig
  · exact hbody

theorem Frame.Admitted.length_bytes {frame : Frame} (h : frame.Admitted) :
    frame.bytes.length = headBytesSize + frame.body.length := by
  rw [h.bytes_eq, List.length_append, networkBytes_length]
  rfl

theorem Frame.Admitted.size {frame : Frame} (h : frame.Admitted) :
    wireFormat.size (networkBytes (UInt16.ofNat frame.body.length)) = frame.body.length := by
  have hle := h.body_le
  simp only [bodyMaxSize] at hle
  rw [wireFormat_size_networkBytes, UInt16.toNat_ofNat']
  omega

/-- `Send` leaves the written frames alone and puts its frame behind the others, or does nothing. -/
theorem Writer.send_cases (e : Endian) (w : Writer) (data : List UInt8) (dataLength : Int) :
    w.send e data dataLength = w ∨
      (w.send e data dataLength).accepted = w.accepted ++ [w.frameOf e data dataLength] ∧
        (w.send e data dataLength).sendQueue = w.sendQueue ++ [w.frameOf e data dataLength] ∧
        (w.send e data dataLength).written = w.written ∧
        (w.send e data dataLength).failed = w.failed := by
  by_cases hfull : w.sendQueueMaxSize.toNat ≤ w.sendQueue.length
  · exact .inl (send_full hfull e data dataLength)
  · have hroom := Nat.lt_of_not_le hfull
    refine .inr ?_
    by_cases hq : w.sendQueue = []
    · rw [hq, List.length_nil] at hroom
      rw [send_first hroom hq, hq]
      exact ⟨rfl, rfl, rfl, rfl⟩
    · rw [send_behind hroom hq]
      exact ⟨rfl, rfl, rfl, rfl⟩

/-- What a completion makes of the writer. -/
theorem Writer.complete_cases {e : Endian} {w w' : Writer} {position : Nat} {success : Bool}
    (hstep : (Writer.machine e).step w (.complete position success) = some w') :
    ∃ frame, w.writes[position]? = some frame ∧ w'.accepted = w.accepted ∧
      (success = true → w'.written = w.written ++ [frame] ∧
        w'.sendQueue = w.sendQueue.tail ∧ w'.failed = w.failed) ∧
      (success = false → w'.written = w.written ∧ w'.sendQueue = w.sendQueue ∧
        w'.failed = true) := by
  obtain ⟨frame, hget, rfl⟩ := Option.map_eq_some_iff.mp hstep
  refine ⟨frame, hget, ?_⟩
  cases success with
  | false => exact ⟨rfl, nofun, fun _ => ⟨rfl, rfl, Bool.or_true _⟩⟩
  | true =>
    cases htail : w.sendQueue.tail with
    | nil =>
      rw [Writer.handleWrite_last (by exact htail)]
      exact ⟨rfl, fun _ => ⟨rfl, rfl, Bool.or_false _⟩, nofun⟩
    | cons front rest =>
      rw [Writer.handleWrite_next (by exact htail)]
      exact ⟨rfl, fun _ => ⟨rfl, rfl, Bool.or_false _⟩, nofun⟩

/-- The arguments of a call of `Send`. -/
def WriterLabel.handed : WriterLabel → Option (List UInt8 × Int)
  | .send data dataLength => some (data, dataLength)
  | .complete _ _ => none

/-- In a run of the write side the accepted frames carry, in order, data that `Send` was called
with. -/
theorem Writer.bodies_of_run {e : Endian} {w w' : Writer} {ls : List WriterLabel}
    (hrun : (Writer.machine e).run w ls = some w')
    (hadmitted : ∀ p ∈ ls.filterMap WriterLabel.handed,
      Connection.admitted (.send p.1 p.2) = true)
    (hframes : ∀ frame ∈ w.accepted, frame.Admitted) :
    (∀ frame ∈ w'.accepted, frame.Admitted) ∧
      (w'.accepted.map Frame.body).Sublist (w.accepted.map Frame.body ++
        (ls.filterMap WriterLabel.handed).map fun p => p.1.take p.2.toNat) := by
  induction ls generalizing w with
  | nil =>
    cases hrun
    exact ⟨hframes, List.sublist_append_left _ _⟩
  | cons l ls ih =>
    obtain ⟨w₁, hl, hrest⟩ := Option.bind_eq_some_iff.mp hrun
    cases l with
    | complete position success =>
      obtain ⟨frame, -, haccepted, -⟩ := Writer.complete_cases hl
      have hkept := ih hrest hadmitted (haccepted ▸ hframes)
      rw [haccepted] at hkept
      exact hkept
    | send data dataLength =>
      cases hl
      obtain ⟨hok, hlater⟩ := List.forall_mem_cons.mp hadmitted
      obtain heq | ⟨haccepted, -⟩ := Writer.send_cases e w data dataLength
      · rw [heq] at hrest
        obtain ⟨hall, hsublist⟩ := ih hrest hlater hframes
        refine ⟨hall, hsublist.trans ?_⟩
        exact List.Sublist.append_left (List.sublist_cons_self _ _) _
      · obtain ⟨hnew, hbody⟩ := admitted_frameOf e w hok
        have hframes' : ∀ frame ∈ (w.send e data dataLength).accepted, frame.Admitted := by
          rw [haccepted]
          intro frame hframe
          rcases List.mem_append.mp hframe with hold | hlast
          · exact hframes frame hold
          · exact List.mem_singleton.mp hlast ▸ hnew
        obtain ⟨hall, hsublist⟩ := ih hrest hlater hframes'
        refine ⟨hall, ?_⟩
        rw [haccepted, List.map_append, List.map_singleton, hbody, List.append_assoc] at hsublist
        exact hsublist

namespace Connection

/-- Where the reader stands in the bytes that have left the writer: behind so many frames, with the
head of the next one taken or not. -/
inductive Stands (c : Connection) : Prop where
  | head : c.reader.awaiting = some .headRead →
      (c.writer.accepted.take c.reader.onData.length).flatMap Frame.bytes ++ c.wire = c.stream →
      Stands c
  | body {frame : Frame} : c.reader.awaiting = some .bodyRead →
      c.writer.accepted[c.reader.onData.length]? = some frame →
      c.reader.bodyRecvPacket = dscRecvPacket (UInt16.ofNat frame.body.length) →
      (c.writer.accepted.take c.reader.onData.length).flatMap Frame.bytes ++
        networkBytes (UInt16.ofNat frame.body.length) ++ c.wire = c.stream →
      Stands c

/-- THE INVARIANT of a connection. -/
structure Flowing (c : Connection) : Prop where
  chained : c.writer.Chained
  frames : ∀ frame ∈ c.writer.accepted, frame.Admitted
  sent_le : c.sent ≤ c.writer.outgoing.length
  delivered : c.reader.onData <+: c.writer.accepted.map Frame.body
  stands : c.cut = false → c.Stands
  broken : c.cut = true → c.reader.awaiting = none

theorem flowing_fresh (sendQMaxSize : UInt8) : (fresh sendQMaxSize).Flowing where
  chained := Writer.chained_fresh sendQMaxSize
  frames _ h := absurd h List.not_mem_nil
  sent_le := Nat.zero_le _
  delivered := List.nil_prefix
  stands _ := .head rfl rfl
  broken h := absurd h Bool.false_ne_true

variable {e e' : Endian} {c c' : Connection}

theorem Flowing.length_le (h : c.Flowing) :
    c.reader.onData.length ≤ c.writer.accepted.length := by
  have hle := h.delivered.length_le
  rwa [List.length_map] at hle

/-- The accepted frames are what has been handed over and what has not. -/
theorem Flowing.stream_prefix (h : c.Flowing) :
    c.stream <+: c.writer.accepted.flatMap Frame.bytes := by
  rw [stream, h.chained.history, List.flatMap_append, List.prefix_append_right_inj]
  refine (List.take_prefix _ _).trans ?_
  unfold Writer.outgoing
  cases c.writer.sendQueue with
  | nil => exact List.prefix_rfl
  | cons frame rest => simp

/-- A step of the writer that leaves the bytes and the frames before the reader's place alone. -/
theorem Stands.of_writer (h : c.Stands) {w : Writer} {sent : Nat}
    (hlength : c.reader.onData.length ≤ c.writer.accepted.length)
    (haccepted : c.writer.accepted <+: w.accepted)
    (hstream : Connection.stream { c with writer := w, sent := sent } = c.stream) :
    Stands { c with writer := w, sent := sent } := by
  obtain ⟨more, hmore⟩ := haccepted
  have htake : w.accepted.take c.reader.onData.length =
      c.writer.accepted.take c.reader.onData.length := by
    rw [← hmore, List.take_append_of_le_length hlength]
  cases h with
  | head hawaiting heq => exact .head hawaiting (by rw [hstream, htake]; exact heq)
  | @body frame hawaiting hframe hbody heq =>
    have hframe' : w.accepted[c.reader.onData.length]? = some frame := by
      rw [← hmore, List.getElem?_append_left (List.getElem?_eq_some_iff.mp hframe).1]
      exact hframe
    refine .body hawaiting hframe' hbody ?_
    rw [hstream, htake]
    exact heq

/-- A step of the writer keeps the invariant where the bytes handed over stay the same. -/
theorem Flowing.of_writer (h : c.Flowing) {w : Writer} {sent : Nat} (hchained : w.Chained)
    (hframes : ∀ frame ∈ w.accepted, frame.Admitted) (hsent : sent ≤ w.outgoing.length)
    (haccepted : c.writer.accepted <+: w.accepted)
    (hstream : Connection.stream { c with writer := w, sent := sent } = c.stream) :
    Flowing { c with writer := w, sent := sent } where
  chained := hchained
  frames := hframes
  sent_le := hsent
  delivered := h.delivered.trans (haccepted.map _)
  stands hcut := (h.stands hcut).of_writer h.length_le haccepted hstream
  broken := h.broken

theorem Flowing.send (h : c.Flowing) {data : List UInt8} {dataLength : Int}
    (hok : admitted (.send data dataLength) = true) :
    Flowing { c with writer := c.writer.send e data dataLength } := by
  have hchained := h.chained.send e data dataLength
  obtain heq | ⟨haccepted, hqueue, hwritten, -⟩ := Writer.send_cases e c.writer data dataLength
  · rw [heq]
    exact h
  · have houtgoing : c.writer.outgoing <+: (c.writer.send e data dataLength).outgoing := by
      unfold Writer.outgoing
      rw [hqueue]
      cases c.writer.sendQueue with
      | nil => exact List.nil_prefix
      | cons frame rest => exact List.prefix_rfl
    refine h.of_writer hchained ?_ (Nat.le_trans h.sent_le houtgoing.length_le)
      (haccepted ▸ List.prefix_append _ _) ?_
    · intro frame hframe
      rw [haccepted, List.mem_append, List.mem_singleton] at hframe
      obtain hframe | rfl := hframe
      · exact h.frames frame hframe
      · exact (admitted_frameOf e c.writer hok).1
    · obtain ⟨more, hmore⟩ := houtgoing
      rw [stream, stream, hwritten, ← hmore, List.take_append_of_le_length h.sent_le]

/-- The write that is outstanding is of the frame at the front. -/
theorem outgoing_of_writes (h : c.writer.Chained) {position : Nat} {frame : Frame}
    (hget : c.writer.writes[position]? = some frame) :
    c.writer.outgoing = frame.bytes ∧ c.writer.sendQueue = frame :: c.writer.sendQueue.tail ∧
      c.writer.failed = false ∧ position = 0 ∧ c.writer.writes = [frame] := by
  obtain ⟨hfailed, hposition, hwrites, hqueue⟩ := h.completing hget
  refine ⟨?_, hqueue, hfailed, hposition, hwrites⟩
  rw [Writer.outgoing, hqueue]
  simp

theorem Flowing.transmit (h : c.Flowing) {frame : Frame} {b : UInt8}
    (hhead : c.writer.writes.head? = some frame) (hb : frame.bytes[c.sent]? = some b) :
    Flowing { c with sent := c.sent + 1, wire := c.wire ++ [b] } := by
  have hget : c.writer.writes[0]? = some frame := by rwa [← List.head?_eq_getElem?]
  obtain ⟨houtgoing, -⟩ := outgoing_of_writes h.chained hget
  obtain ⟨hlt, hval⟩ := List.getElem?_eq_some_iff.mp hb
  have hstream : Connection.stream { c with sent := c.sent + 1, wire := c.wire ++ [b] } =
      c.stream ++ [b] := by
    simp only [stream, houtgoing, List.append_assoc]
    rw [List.take_add_one, hb, Option.toList_some]
  refine ⟨h.chained, h.frames, by rw [houtgoing]; exact hlt, h.delivered, fun hcut => ?_, h.broken⟩
  cases h.stands hcut with
  | head hawaiting heq => exact .head hawaiting (by rw [hstream, ← heq, List.append_assoc])
  | body hawaiting hframe hbody heq =>
    exact .body hawaiting hframe hbody (by rw [hstream, ← heq, ← List.append_assoc])

theorem Flowing.complete (h : c.Flowing) {w : Writer} {position : Nat} {success : Bool}
    (hover : success = true → c.handedOver position = true)
    (hstep : (Writer.machine e).step c.writer (.complete position success) = some w) :
    Flowing { c with writer := w, sent := if success then 0 else c.sent } := by
  have hchained := h.chained.step hstep
  obtain ⟨frame, hget, haccepted, hsuccess, hfailure⟩ := Writer.complete_cases hstep
  obtain ⟨houtgoing, hqueue, -⟩ := outgoing_of_writes h.chained hget
  have hframes : ∀ f ∈ w.accepted, f.Admitted := haccepted ▸ h.frames
  have hstarts : c.writer.accepted <+: w.accepted := haccepted ▸ List.prefix_rfl
  cases success with
  | false =>
    obtain ⟨hwritten, hsame, -⟩ := hfailure rfl
    have hout : w.outgoing = c.writer.outgoing := by rw [Writer.outgoing, hsame, Writer.outgoing]
    exact h.of_writer hchained hframes (hout ▸ h.sent_le) hstarts
      (by rw [stream, stream, hwritten, hout]; rfl)
  | true =>
    obtain ⟨hwritten, hsame, -⟩ := hsuccess rfl
    -- the frame has been handed over whole
    have hwhole : c.sent = frame.bytes.length := by
      have := hover rfl
      rw [handedOver, hget, Option.any_some, beq_iff_eq] at this
      exact this.symm
    refine h.of_writer hchained hframes (Nat.zero_le _) hstarts ?_
    rw [stream, stream, hwritten, houtgoing, hwhole]
    simp

/-! ## What the reader does -/

/-- What a list has behind a prefix goes to the prefix. -/
theorem prefix_concat {α : Type} {xs ys : List α} {y : α} (h : xs <+: ys)
    (hget : ys[xs.length]? = some y) : xs ++ [y] <+: ys := by
  obtain ⟨more, rfl⟩ := h
  rw [List.getElem?_append_right (Nat.le_refl _), Nat.sub_self] at hget
  cases more with
  | nil => cases hget
  | cons z more =>
    cases hget
    exact ⟨more, by simp⟩

theorem take_eq_of_isPrefix {α : Type} {xs ys : List α} {n : Nat} (h : xs <+: ys)
    (hlen : n ≤ xs.length) : xs.take n = ys.take n := by
  obtain ⟨more, rfl⟩ := h
  exact (List.take_append_of_le_length hlen).symm

/-- What is under way to a reader that waits for a head begins with the next frame. -/
theorem Flowing.wire_prefix (h : c.Flowing)
    (heq : (c.writer.accepted.take c.reader.onData.length).flatMap Frame.bytes ++ c.wire =
      c.stream) :
    c.wire <+: (c.writer.accepted.drop c.reader.onData.length).flatMap Frame.bytes := by
  have hstarts := h.stream_prefix
  rw [← heq] at hstarts
  conv at hstarts => rhs; rw [← List.take_append_drop c.reader.onData.length c.writer.accepted]
  rwa [List.flatMap_append, List.prefix_append_right_inj] at hstarts

/-- What is under way to a reader that waits for a body begins with it. -/
theorem Flowing.wire_prefix_body (h : c.Flowing) {frame : Frame}
    (hframe : c.writer.accepted[c.reader.onData.length]? = some frame)
    (heq : (c.writer.accepted.take c.reader.onData.length).flatMap Frame.bytes ++
      networkBytes (UInt16.ofNat frame.body.length) ++ c.wire = c.stream) :
    c.wire <+: frame.body ++
      (c.writer.accepted.drop (c.reader.onData.length + 1)).flatMap Frame.bytes := by
  have hstarts := h.stream_prefix
  have hadmitted := h.frames frame (List.mem_of_getElem? hframe)
  have hdrop : c.writer.accepted.drop c.reader.onData.length =
      frame :: c.writer.accepted.drop (c.reader.onData.length + 1) := by
    obtain ⟨hlt, hval⟩ := List.getElem?_eq_some_iff.mp hframe
    rw [List.drop_eq_getElem_cons hlt, hval]
  rw [← heq] at hstarts
  conv at hstarts => rhs; rw [← List.take_append_drop c.reader.onData.length c.writer.accepted]
  rw [List.flatMap_append, hdrop, List.flatMap_cons, hadmitted.bytes_eq, List.append_assoc,
    List.append_assoc, List.prefix_append_right_inj, List.prefix_append_right_inj] at hstarts
  exact hstarts

theorem Flowing.read_head (h : c.Flowing) (hcut : c.cut = false)
    (hawaiting : c.reader.awaiting = some .headRead)
    (heq : (c.writer.accepted.take c.reader.onData.length).flatMap Frame.bytes ++ c.wire =
      c.stream)
    (hlen : headBytesSize ≤ c.wire.length) :
    ∃ r wire, Reader.step e' (c.reader, c.wire) = (r, wire) ∧ r.awaiting = some .bodyRead ∧
      r.onData = c.reader.onData ∧ Flowing { c with reader := r, wire := wire } := by
  have hstarts := h.wire_prefix heq
  have htwo : headBytesSize = 2 := rfl
  cases hdrop : c.writer.accepted.drop c.reader.onData.length with
  | nil =>
    rw [hdrop, List.flatMap_nil, List.prefix_nil] at hstarts
    rw [hstarts, List.length_nil] at hlen
    omega
  | cons frame rest =>
    have hframe : c.writer.accepted[c.reader.onData.length]? = some frame := by
      have hzero : (c.writer.accepted.drop c.reader.onData.length)[0]? = some frame := by
        rw [hdrop]
        rfl
      rwa [List.getElem?_drop, Nat.add_zero] at hzero
    have hadmitted := h.frames frame (List.mem_of_getElem? hframe)
    rw [hdrop, List.flatMap_cons, hadmitted.bytes_eq, List.append_assoc] at hstarts
    have htake : c.wire.take headBytesSize = networkBytes (UInt16.ofNat frame.body.length) := by
      rw [take_eq_of_isPrefix hstarts hlen]
      exact List.take_left' (networkBytes_length _)
    obtain ⟨r, size, hstep, hsize, hbody, hawaiting', hdata⟩ :=
      Reader.step_headRead e' hawaiting hlen
        (by rw [htake, hadmitted.size]; exact Nat.not_lt.mpr hadmitted.body_le)
    rw [htake, hadmitted.size] at hsize
    have hsize' : size = UInt16.ofNat frame.body.length := by
      apply UInt16.toNat_inj.mp
      rw [UInt16.toNat_ofNat', hsize]
      have := size.toNat_lt
      omega
    refine ⟨r, _, hstep, hawaiting', hdata, h.chained, h.frames, h.sent_le, ?_, fun _ => ?_, ?_⟩
    · simp only [hdata]
      exact h.delivered
    · refine Stands.body hawaiting' (by simp only [hdata]; exact hframe)
        (by rw [← hsize']; exact hbody) ?_
      simp only [hdata]
      rw [← htake, List.append_assoc, List.take_append_drop]
      exact heq
    · intro hbroken
      rw [hcut] at hbroken
      cases hbroken

theorem Flowing.read_body (h : c.Flowing) (hcut : c.cut = false) {frame : Frame}
    (hawaiting : c.reader.awaiting = some .bodyRead)
    (hframe : c.writer.accepted[c.reader.onData.length]? = some frame)
    (hbody : c.reader.bodyRecvPacket = dscRecvPacket (UInt16.ofNat frame.body.length))
    (heq : (c.writer.accepted.take c.reader.onData.length).flatMap Frame.bytes ++
      networkBytes (UInt16.ofNat frame.body.length) ++ c.wire = c.stream)
    (hlen : frame.body.length ≤ c.wire.length) :
    ∃ r wire, Reader.step e' (c.reader, c.wire) = (r, wire) ∧ r.awaiting = some .headRead ∧
      r.onData = c.reader.onData ++ [frame.body] ∧ Flowing { c with reader := r, wire := wire } := by
  have hstarts := h.wire_prefix_body hframe heq
  have hadmitted := h.frames frame (List.mem_of_getElem? hframe)
  have hsize : (UInt16.ofNat frame.body.length).toNat = frame.body.length := by
    rw [← wireFormat_size_networkBytes, hadmitted.size]
  have htake : c.wire.take frame.body.length = frame.body := by
    rw [take_eq_of_isPrefix hstarts hlen]
    exact List.take_left' rfl
  obtain ⟨r, hstep, hawaiting', hdata⟩ :=
    Reader.step_bodyRead e' hawaiting hbody (hsize.symm ▸ hlen)
  rw [hsize] at hstep hdata
  rw [htake] at hdata
  have hnext : c.writer.accepted.take (c.reader.onData ++ [frame.body]).length =
      c.writer.accepted.take c.reader.onData.length ++ [frame] := by
    rw [List.length_append, List.length_singleton, List.take_add_one, hframe]
    rfl
  refine ⟨r, _, hstep, hawaiting', hdata, h.chained, h.frames, h.sent_le, ?_, fun _ => ?_, ?_⟩
  · simp only [hdata]
    exact prefix_concat h.delivered (by rw [List.getElem?_map, hframe]; rfl)
  · refine .head hawaiting' ?_
    simp only [hdata]
    rw [hnext, List.flatMap_append, List.flatMap_singleton, hadmitted.bytes_eq]
    have hsplit : c.wire = frame.body ++ c.wire.drop frame.body.length := by
      conv => lhs; rw [← List.take_append_drop frame.body.length c.wire, htake]
    rw [hsplit] at heq
    simp only [List.append_assoc] at heq ⊢
    exact heq
  · intro hbroken
    rw [hcut] at hbroken
    cases hbroken

/-- What an outstanding read does when its bytes have arrived. -/
theorem Flowing.read (h : c.Flowing) (hwanted : c.reader.wanted.any (· ≤ c.wire.length) = true) :
    c.cut = false ∧ ∃ r wire, Reader.step e' (c.reader, c.wire) = (r, wire) ∧
      Flowing { c with reader := r, wire := wire } ∧
      (c.reader.awaiting = some .headRead ∧ r.awaiting = some .bodyRead ∧
          r.onData = c.reader.onData ∧
          c.reader.onData.length < c.writer.accepted.length ∨
        c.reader.awaiting = some .bodyRead ∧ r.awaiting = some .headRead ∧
          ∃ frame, r.onData = c.reader.onData ++ [frame.body] ∧
            c.writer.accepted[c.reader.onData.length]? = some frame) := by
  have hcut : c.cut = false := by
    cases hc : c.cut with
    | false => rfl
    | true =>
      rw [Reader.wanted, h.broken hc] at hwanted
      cases hwanted
  refine ⟨hcut, ?_⟩
  cases h.stands hcut with
  | head hawaiting heq =>
    rw [Reader.wanted, hawaiting] at hwanted
    have hlen : headBytesSize ≤ c.wire.length := by simpa using hwanted
    obtain ⟨r, wire, hstep, hawaiting', hdata, hflowing⟩ :=
      @Flowing.read_head e' c h hcut hawaiting heq hlen
    have hlt : c.reader.onData.length < c.writer.accepted.length := by
      cases hflowing.stands hcut with
      | head hhead => rw [hawaiting'] at hhead; cases hhead
      | body _ hframe =>
        have := (List.getElem?_eq_some_iff.mp hframe).1
        simpa only [hdata] using this
    exact ⟨r, wire, hstep, hflowing, .inl ⟨hawaiting, hawaiting', hdata, hlt⟩⟩
  | @body frame hawaiting hframe hbody heq =>
    have hadmitted := h.frames frame (List.mem_of_getElem? hframe)
    have hsize : (UInt16.ofNat frame.body.length).toNat = frame.body.length := by
      rw [← wireFormat_size_networkBytes, hadmitted.size]
    rw [Reader.wanted, hawaiting, hbody] at hwanted
    have hlen : frame.body.length ≤ c.wire.length := by
      simpa [dscRecvPacket, DSCPacket.ofSize, hsize] using hwanted
    obtain ⟨r, wire, hstep, hawaiting', hdata, hflowing⟩ :=
      @Flowing.read_body e' c h hcut frame hawaiting hframe hbody heq hlen
    exact ⟨r, wire, hstep, hflowing, .inr ⟨hawaiting, hawaiting', frame, hdata, hframe⟩⟩

theorem Flowing.readError (h : c.Flowing) :
    Flowing { c with reader := c.reader.close, cut := true } where
  chained := h.chained
  frames := h.frames
  sent_le := h.sent_le
  delivered := h.delivered
  stands hcut := absurd hcut Bool.noConfusion
  broken _ := rfl

/-- One step of a connection keeps the invariant. -/
theorem Flowing.step {l : ConnectionLabel} (h : c.Flowing) (hok : admitted l = true)
    (hstep : (machine e e').step c l = some c') : c'.Flowing := by
  cases l with
  | send data dataLength =>
    cases hstep
    exact h.send hok
  | transmit =>
    obtain ⟨b, hb, rfl⟩ := Option.map_eq_some_iff.mp hstep
    obtain ⟨frame, hhead, hb⟩ := Option.bind_eq_some_iff.mp hb
    exact h.transmit hhead hb
  | complete position success =>
    simp only [machine, Connection.step] at hstep
    split at hstep
    · cases hstep
    · next hover =>
      obtain ⟨w, hw, rfl⟩ := Option.map_eq_some_iff.mp hstep
      exact h.complete (fun hsuccess => by simpa [hsuccess] using hover) hw
  | read =>
    simp only [machine, Connection.step] at hstep
    split at hstep
    · next hwanted =>
      obtain ⟨-, r, wire, hread, hflowing, -⟩ := @Flowing.read e' c h hwanted
      rw [hread] at hstep
      cases hstep
      exact hflowing
    · cases hstep
  | readError =>
    simp only [machine, Connection.step] at hstep
    split at hstep
    · cases hstep
      exact h.readError
    · cases hstep

theorem flowing_of_reachable
    (h : (machine e e').ReachableBy (fun _ l => admitted l = true) c) : c.Flowing :=
  h.invariant (fun _ ⟨sendQMaxSize, hc⟩ => hc ▸ flowing_fresh sendQMaxSize)
    fun _ _ _ hflowing hok hstep => hflowing.step hok hstep

/-! ## Safety -/

end Connection

/-- What a call of `Send` asks to deliver. -/
def ConnectionLabel.message : ConnectionLabel → Option (List UInt8)
  | .send data dataLength => some (data.take dataLength.toNat)
  | _ => none

namespace Connection

variable {e e' : Endian} {c c' : Connection}

/-- A step accepts at most what it asks to deliver. -/
theorem accepted_step {l : ConnectionLabel} (hok : admitted l = true)
    (hstep : (machine e e').step c l = some c') :
    (c'.writer.accepted.map Frame.body).Sublist
      (c.writer.accepted.map Frame.body ++ l.message.toList) := by
  cases l with
  | send data dataLength =>
    cases hstep
    obtain heq | ⟨haccepted, -⟩ := Writer.send_cases e c.writer data dataLength
    · simp only [heq]
      exact List.sublist_append_left _ _
    · obtain ⟨-, hbody⟩ := admitted_frameOf e c.writer hok
      simp only [haccepted, List.map_append, List.map_cons, List.map_nil, hbody]
      exact List.Sublist.refl _
  | transmit =>
    obtain ⟨b, -, rfl⟩ := Option.map_eq_some_iff.mp hstep
    exact List.sublist_append_left _ _
  | complete position success =>
    simp only [machine, Connection.step] at hstep
    split at hstep
    · cases hstep
    · obtain ⟨w, hw, rfl⟩ := Option.map_eq_some_iff.mp hstep
      obtain ⟨frame, -, haccepted, -⟩ := Writer.complete_cases hw
      simp only [haccepted]
      exact List.sublist_append_left _ _
  | read | readError =>
    simp only [machine, Connection.step] at hstep
    split at hstep
    · cases hstep
      exact List.sublist_append_left _ _
    · cases hstep

theorem accepted_run {ls : List ConnectionLabel} (hok : ∀ l ∈ ls, admitted l = true)
    (hrun : (machine e e').run c ls = some c') :
    (c'.writer.accepted.map Frame.body).Sublist
      (c.writer.accepted.map Frame.body ++ ls.filterMap ConnectionLabel.message) := by
  induction ls generalizing c with
  | nil =>
    cases hrun
    exact List.sublist_append_left _ _
  | cons l ls ih =>
    obtain ⟨c₁, hl, hrest⟩ := Option.bind_eq_some_iff.mp hrun
    have hfirst := accepted_step (hok l List.mem_cons_self) hl
    have hlater := ih (fun l' hl' => hok l' (List.mem_cons_of_mem l hl')) hrest
    refine hlater.trans ?_
    have hsplit : (l :: ls).filterMap ConnectionLabel.message =
        l.message.toList ++ ls.filterMap ConnectionLabel.message := by
      rw [List.filterMap_cons]
      cases l.message <;> rfl
    rw [hsplit, ← List.append_assoc]
    exact hfirst.append_right _

theorem cut_step {l : ConnectionLabel} (hstep : (machine e e').step c l = some c')
    (hcut : c'.cut = true) : c.cut = true ∨ l = .readError := by
  cases l with
  | send data dataLength =>
    cases hstep
    exact .inl hcut
  | transmit =>
    obtain ⟨b, -, rfl⟩ := Option.map_eq_some_iff.mp hstep
    exact .inl hcut
  | complete position success =>
    simp only [machine, Connection.step] at hstep
    split at hstep
    · cases hstep
    · obtain ⟨w, -, rfl⟩ := Option.map_eq_some_iff.mp hstep
      exact .inl hcut
  | read =>
    simp only [machine, Connection.step] at hstep
    split at hstep
    · cases hstep
      exact .inl hcut
    · cases hstep
  | readError => exact .inr rfl

/-- The transport and the reader leave the writer alone. -/
theorem writer_kept {l : ConnectionLabel} (hsend : ∀ data dataLength, l ≠ .send data dataLength)
    (hcomplete : ∀ position success, l ≠ .complete position success)
    (hstep : (machine e e').step c l = some c') : c'.writer = c.writer := by
  cases l with
  | send => exact absurd rfl (hsend _ _)
  | complete => exact absurd rfl (hcomplete _ _)
  | transmit =>
    obtain ⟨b, -, rfl⟩ := Option.map_eq_some_iff.mp hstep
    rfl
  | read | readError =>
    simp only [machine, Connection.step] at hstep
    split at hstep
    · cases hstep
      rfl
    · cases hstep

/-- Only the read of a body delivers. -/
theorem Flowing.onData_kept {l : ConnectionLabel} (h : c.Flowing)
    (hhead : l = .read → c.reader.awaiting = some .headRead)
    (hstep : (machine e e').step c l = some c') : c'.reader.onData = c.reader.onData := by
  cases l with
  | send =>
    cases hstep
    rfl
  | transmit =>
    obtain ⟨b, -, rfl⟩ := Option.map_eq_some_iff.mp hstep
    rfl
  | complete =>
    simp only [machine, Connection.step] at hstep
    split at hstep
    · cases hstep
    · obtain ⟨w, -, rfl⟩ := Option.map_eq_some_iff.mp hstep
      rfl
  | read =>
    simp only [machine, Connection.step] at hstep
    split at hstep
    · next hwanted =>
      obtain ⟨-, r, wire, hread, -, hcases⟩ := @Flowing.read e' c h hwanted
      rw [hread] at hstep
      cases hstep
      obtain ⟨-, -, hdata, -⟩ | ⟨hbody, -⟩ := hcases
      · exact hdata
      · rw [hhead rfl] at hbody
        cases hbody
    · cases hstep
  | readError =>
    simp only [machine, Connection.step] at hstep
    split at hstep
    · cases hstep
      rfl
    · cases hstep

/-- The read of a body delivers the body of the next accepted frame. -/
theorem Flowing.onData_read (h : c.Flowing) (hbody : c.reader.awaiting = some .bodyRead)
    (hstep : (machine e e').step c .read = some c') :
    ∃ frame ∈ c.writer.accepted, c'.reader.onData = c.reader.onData ++ [frame.body] := by
  simp only [machine, Connection.step] at hstep
  split at hstep
  · next hwanted =>
    obtain ⟨-, r, wire, hread, -, hcases⟩ := @Flowing.read e' c h hwanted
    rw [hread] at hstep
    cases hstep
    obtain ⟨hhead, -⟩ | ⟨-, -, frame, hdata, hframe⟩ := hcases
    · rw [hbody] at hhead
      cases hhead
    · exact ⟨frame, List.mem_of_getElem? hframe, hdata⟩
  · cases hstep

/-- What arrives, in every run in which `Send` is called with admitted lengths, however the calls,
the writes, the transport and the reads interleave and wherever the connection breaks: the bodies
handed to `OnData` are, byte by byte and in order, the first of the accepted messages, and these
are messages that `Send` was called with, in order and each once. The reader stops for no other
reason than an error of a read. -/
theorem exchange_of_run {sendQMaxSize : UInt8} {ls : List ConnectionLabel}
    (hadmitted : ∀ l ∈ ls, admitted l = true)
    (hrun : (machine e e').run (fresh sendQMaxSize) ls = some c) :
    c.reader.onData <+: c.writer.accepted.map Frame.body ∧
      (c.writer.accepted.map Frame.body).Sublist (ls.filterMap ConnectionLabel.message) ∧
      (c.reader.awaiting = none → .readError ∈ ls) := by
  have hreachable : (machine e e').ReachableBy (fun _ l => admitted l = true ∧ l ∈ ls) c :=
    .of_run (.start ⟨sendQMaxSize, rfl⟩) (fun l hl => ⟨hadmitted l hl, hl⟩) hrun
  have hflowing := flowing_of_reachable (hreachable.mono fun _ _ hok => hok.1)
  refine ⟨hflowing.delivered, accepted_run hadmitted hrun, fun hnone => ?_⟩
  have hcut : c.cut = true := by
    cases hc : c.cut with
    | true => rfl
    | false => cases hflowing.stands hc <;> simp_all
  refine hreachable.invariant (I := fun c => c.cut = true → .readError ∈ ls) ?_ ?_ hcut
  · rintro _ ⟨_, rfl⟩ hc
    cases hc
  · intro s l s' hs hok hstep hc
    obtain hbefore | rfl := cut_step hstep hc
    · exact hs hbefore
    · exact hok.2

/-- Two messages are sent. The connection breaks when the second has left in part. -/
theorem exchange_of_run_two :
    ∃ c, (machine .little .big).run (fresh 4)
        ([.send [7] 1, .send [8, 9] 2] ++ List.replicate 3 .transmit ++ [.read, .complete 0 true] ++
          List.replicate 3 .transmit ++ [.read, .complete 0 false, .read, .readError]) = some c ∧
      c.reader.onData = [[7]] ∧ c.reader.onData <+: c.writer.accepted.map Frame.body := by
  refine ⟨_, rfl, rfl, ?_⟩
  exact (@exchange_of_run .little .big _ 4
    ([.send [7] 1, .send [8, 9] 2] ++ List.replicate 3 .transmit ++ [.read, .complete 0 true] ++
      List.replicate 3 .transmit ++ [.read, .complete 0 false, .read, .readError])
    (by decide) rfl).1

/-! ## Progress -/

/-- The steps that bring what has been accepted to the other end. -/
def ofDelivery : ConnectionLabel → Bool
  | .transmit | .complete _ true | .read => true
  | _ => false

/-- How many of them are left: a byte each, a completion for every frame that waits, and two reads
for every frame that has not been delivered. -/
def stepsLeft (c : Connection) : Nat :=
  (c.writer.sendQueue.flatMap Frame.bytes).length - c.sent + c.writer.sendQueue.length +
    (2 * (c.writer.accepted.length - c.reader.onData.length) -
      if c.reader.awaiting = some .bodyRead then 1 else 0)

/-- Nothing has failed at either end. -/
structure Healthy (c : Connection) : Prop extends c.Flowing where
  uncut : c.cut = false
  unfailed : c.writer.failed = false

theorem outgoing_le (w : Writer) : w.outgoing.length ≤ (w.sendQueue.flatMap Frame.bytes).length := by
  unfold Writer.outgoing
  cases w.sendQueue with
  | nil => exact Nat.le_refl _
  | cons frame rest => simp

/-- Every step of the delivery takes one of the steps left, and leaves the accepted frames and the
health of the connection as they are. -/
theorem Healthy.pay {l : ConnectionLabel} (h : c.Healthy) (hl : ofDelivery l = true)
    (hstep : (machine e e').step c l = some c') :
    c'.Healthy ∧ c'.writer.accepted = c.writer.accepted ∧ c'.stepsLeft < c.stepsLeft := by
  have hflowing : c'.Flowing := h.toFlowing.step (by cases l <;> first | rfl | cases hl) hstep
  cases l with
  | send | readError => cases hl
  | transmit =>
    obtain ⟨b, hb, rfl⟩ := Option.map_eq_some_iff.mp hstep
    refine ⟨⟨hflowing, h.uncut, h.unfailed⟩, rfl, ?_⟩
    have hsent := Nat.le_trans hflowing.sent_le (outgoing_le _)
    simp only [stepsLeft] at hsent ⊢
    omega
  | complete position success =>
    cases success with
    | false => cases hl
    | true =>
      simp only [machine, Connection.step] at hstep
      split at hstep
      · cases hstep
      · next hover =>
        obtain ⟨w, hw, rfl⟩ := Option.map_eq_some_iff.mp hstep
        obtain ⟨frame, hget, haccepted, hsuccess, -⟩ := Writer.complete_cases hw
        obtain ⟨-, hqueue, hfailed⟩ := hsuccess rfl
        obtain ⟨-, hfront, -⟩ := outgoing_of_writes h.chained hget
        refine ⟨⟨hflowing, h.uncut, hfailed.trans h.unfailed⟩, haccepted, ?_⟩
        have hwhole : c.sent = frame.bytes.length := by
          simp only [handedOver, hget] at hover
          exact Eq.symm (by simpa using hover)
        simp only [stepsLeft, hqueue, haccepted, if_true]
        rw [hfront, List.tail_cons, List.flatMap_cons, List.length_append, List.length_cons]
        omega
  | read =>
    simp only [machine, Connection.step] at hstep
    split at hstep
    · next hwanted =>
      obtain ⟨-, r, wire, hread, -, hcases⟩ := @Flowing.read e' c h.toFlowing hwanted
      rw [hread] at hstep
      cases hstep
      refine ⟨⟨hflowing, h.uncut, h.unfailed⟩, rfl, ?_⟩
      obtain ⟨hbefore, hafter, hdata, hlt⟩ | ⟨hbefore, hafter, frame, hdata, hframe⟩ := hcases
      · simp only [stepsLeft, hbefore, hafter, hdata]
        simp
        omega
      · have hlt := (List.getElem?_eq_some_iff.mp hframe).1
        simp only [stepsLeft, hbefore, hafter, hdata, List.length_append, List.length_singleton]
        simp
        omega
    · cases hstep

/-- How many steps a frame can take. -/
def frameSteps : Nat := headBytesSize + bodyMaxSize + 3

/-- A message more takes the steps of a frame. -/
theorem Healthy.send (h : c.Healthy) {data : List UInt8} {dataLength : Int}
    (hok : admitted (.send data dataLength) = true) :
    Healthy { c with writer := c.writer.send e data dataLength } ∧
      stepsLeft { c with writer := c.writer.send e data dataLength } ≤
        c.stepsLeft + frameSteps := by
  obtain heq | ⟨haccepted, hqueue, -, hfailed⟩ := Writer.send_cases e c.writer data dataLength
  · rw [heq]
    exact ⟨h, Nat.le_add_right _ _⟩
  · refine ⟨⟨h.toFlowing.send hok, h.uncut, hfailed.trans h.unfailed⟩, ?_⟩
    have hframe := (admitted_frameOf e c.writer hok).1
    have hsent := Nat.le_trans h.sent_le (outgoing_le c.writer)
    have hbody := hframe.body_le
    have hbytes := hframe.length_bytes
    simp only [stepsLeft, frameSteps, haccepted, hqueue, List.flatMap_append, List.flatMap_cons,
      List.flatMap_nil, List.append_nil, List.length_append, List.length_cons, List.length_nil]
    omega

/-- Where nothing has been accepted there is nothing to do. -/
theorem Flowing.stepsLeft_eq (h : c.Flowing) (hnone : c.writer.accepted = []) :
    c.stepsLeft = 0 := by
  have hqueue : c.writer.sendQueue = [] := by
    have hhistory := h.chained.history
    rw [hnone] at hhistory
    exact (List.append_eq_nil_iff.mp hhistory.symm).2
  simp [stepsLeft, hnone, hqueue]

/-- Until everything has been delivered, one of the steps of the delivery can be taken. -/
theorem Healthy.progress (h : c.Healthy)
    (hleft : c.reader.onData.length < c.writer.accepted.length) :
    ∃ l, ofDelivery l = true ∧ ((machine e e').step c l).isSome = true := by
  cases hqueue : c.writer.sendQueue with
  | cons frame rest =>
    -- the front is being written
    have hwrites : c.writer.writes = [frame] := by
      rw [h.chained.writes_eq, h.unfailed, hqueue]
      rfl
    have houtgoing : c.writer.outgoing = frame.bytes := by
      rw [Writer.outgoing, hqueue]
      simp
    have hsent := h.sent_le
    rw [houtgoing] at hsent
    by_cases hwhole : c.sent = frame.bytes.length
    · have hover : c.handedOver 0 = true := by
        rw [handedOver, hwrites]
        simp [hwhole]
      refine ⟨.complete 0 true, rfl, ?_⟩
      simp only [machine, Connection.step, hover, Writer.machine, hwrites]
      rfl
    · have hlt : c.sent < frame.bytes.length := by omega
      refine ⟨.transmit, rfl, ?_⟩
      simp only [machine, Connection.step, hwrites, List.head?_cons, Option.bind_some,
        List.getElem?_eq_getElem hlt]
      rfl
  | nil =>
    -- everything has been handed over, so the next frame is under way
    have hstream : c.stream = c.writer.accepted.flatMap Frame.bytes := by
      rw [stream, Writer.outgoing, hqueue, h.chained.history, hqueue]
      simp
    obtain ⟨frame, hframe⟩ : ∃ frame, c.writer.accepted[c.reader.onData.length]? = some frame :=
      ⟨_, List.getElem?_eq_getElem hleft⟩
    have hadmitted := h.frames frame (List.mem_of_getElem? hframe)
    have hsplit : c.writer.accepted.flatMap Frame.bytes =
        (c.writer.accepted.take c.reader.onData.length).flatMap Frame.bytes ++ (frame.bytes ++
          (c.writer.accepted.drop (c.reader.onData.length + 1)).flatMap Frame.bytes) := by
      conv => lhs; rw [← List.take_append_drop c.reader.onData.length c.writer.accepted]
      obtain ⟨hlt, hval⟩ := List.getElem?_eq_some_iff.mp hframe
      rw [List.flatMap_append, List.drop_eq_getElem_cons hlt, hval, List.flatMap_cons]
    have hread : c.reader.wanted.any (· ≤ c.wire.length) = true := by
      cases h.stands h.uncut with
      | head hawaiting heq =>
        rw [hstream, hsplit, List.append_cancel_left_eq] at heq
        have hlen := congrArg List.length heq
        rw [List.length_append, hadmitted.length_bytes] at hlen
        simp only [Reader.wanted, hawaiting, Option.map_some, Option.any_some, decide_eq_true_eq]
        omega
      | @body frame' hawaiting hframe' hbody heq =>
        cases hframe.symm.trans hframe'
        rw [hstream, hsplit, hadmitted.bytes_eq, List.append_assoc, List.append_assoc,
          List.append_cancel_left_eq, List.append_cancel_left_eq] at heq
        have hlen := congrArg List.length heq
        have hsize : (UInt16.ofNat frame.body.length).toNat = frame.body.length := by
          rw [← wireFormat_size_networkBytes, hadmitted.size]
        rw [List.length_append] at hlen
        simp only [Reader.wanted, hawaiting, hbody, dscRecvPacket, DSCPacket.ofSize, hsize,
          Option.map_some, Option.any_some, decide_eq_true_eq]
        omega
    refine ⟨.read, rfl, ?_⟩
    simp only [machine, Connection.step, hread, if_true]
    rfl

/-- Everything that has been accepted arrives: in every state that is reached with admitted lengths
and without errors, the writes, the transport and the reads can take no more steps than are left,
and when they can take none, in whichever order they were taken, the bodies handed to `OnData` are
exactly the accepted messages. -/
theorem delivered_of_reachable
    (h : (machine e e').ReachableBy (fun _ l => admitted l = true) c) (hcut : c.cut = false)
    (hfailed : c.writer.failed = false) {ls : List ConnectionLabel}
    (hls : ∀ l ∈ ls, ofDelivery l = true) (hrun : (machine e e').run c ls = some c') :
    ls.length ≤ c.stepsLeft ∧
      ((∀ l, ofDelivery l = true → (machine e e').step c' l = none) →
        c'.reader.onData = c.writer.accepted.map Frame.body) := by
  have keep : ∀ s l s', (s.Healthy ∧ s.writer.accepted = c.writer.accepted) →
      ofDelivery l = true → (machine e e').step s l = some s' →
        s'.Healthy ∧ s'.writer.accepted = c.writer.accepted := by
    rintro s l s' ⟨hs, hsame⟩ hl hstep
    obtain ⟨hs', haccepted, -⟩ := hs.pay hl hstep
    exact ⟨hs', haccepted.trans hsame⟩
  have pay : ∀ s l s', (s.Healthy ∧ s.writer.accepted = c.writer.accepted) →
      ofDelivery l = true → (machine e e').step s l = some s' → s'.stepsLeft < s.stepsLeft :=
    fun _ _ _ hs hl hstep => (hs.1.pay hl hstep).2.2
  obtain ⟨⟨hhealthy, haccepted⟩, hlength⟩ := (Transition.Machine.RunBy.of_run hls hrun).drains keep
    pay ⟨⟨flowing_of_reachable h, hcut, hfailed⟩, rfl⟩
  refine ⟨Nat.le_trans (Nat.le_add_left _ _) hlength, fun hnone => ?_⟩
  rw [← haccepted]
  refine hhealthy.delivered.eq_of_length ?_
  rw [List.length_map]
  by_contra hne
  have hlt : c'.reader.onData.length < c'.writer.accepted.length :=
    Nat.lt_of_le_of_ne hhealthy.length_le hne
  obtain ⟨l, hl, hstep⟩ := @Healthy.progress e e' c' hhealthy hlt
  rw [hnone l hl] at hstep
  cases hstep

/-- Two messages, written and read to the end. -/
theorem delivered_of_reachable_two :
    ∃ c c', (machine .little .big).run (fresh 4) [.send [7] 1, .send [8, 9] 2] = some c ∧
      (machine .little .big).run c (List.replicate 3 .transmit ++ [.complete 0 true] ++
        List.replicate 4 .transmit ++ [.complete 0 true] ++ List.replicate 4 .read) = some c' ∧
      c'.reader.onData = [[7], [8, 9]] := by
  have hruns : ((machine .little .big).run (fresh 4) [.send [7] 1, .send [8, 9] 2]).any (fun c =>
      c.cut = false ∧ c.writer.failed = false ∧ c.writer.accepted.map Frame.body = [[7], [8, 9]] ∧
        ((machine .little .big).run c (List.replicate 3 .transmit ++ [.complete 0 true] ++
          List.replicate 4 .transmit ++ [.complete 0 true] ++ List.replicate 4 .read)).any (fun c' =>
            c'.writer.writes = [] ∧ c'.wire = [] ∧ c'.reader.awaiting = some .headRead) = true) =
      true := by
    decide
  obtain ⟨c, hrun, hc⟩ := (Option.any_eq_true _ _).mp hruns
  obtain ⟨hcut, hfailed, haccepted, hrest⟩ := of_decide_eq_true hc
  obtain ⟨c', hrun', hc'⟩ := (Option.any_eq_true _ _).mp hrest
  obtain ⟨hwrites, hwire, hawaiting⟩ := of_decide_eq_true hc'
  have hok : ∀ l ∈ [ConnectionLabel.send [7] 1, .send [8, 9] 2], admitted l = true := by decide
  have hreachable : (machine .little .big).ReachableBy (fun _ l => admitted l = true) c :=
    .of_run (.start ⟨4, rfl⟩) hok hrun
  refine ⟨c, c', hrun, hrun', ?_⟩
  rw [(delivered_of_reachable hreachable hcut hfailed (by decide) hrun').2 ?_, haccepted]
  intro l hl
  cases l with
  | send | readError => cases hl
  | transmit => simp only [machine, Connection.step, hwrites, List.head?_nil]; rfl
  | complete position success =>
    simp only [machine, Connection.step, hwrites, Writer.machine, List.getElem?_nil]
    split <;> rfl
  | read =>
    simp only [machine, Connection.step, Reader.wanted, hawaiting, hwire]
    rfl

end Connection

end DSFramework.DSCommunication
