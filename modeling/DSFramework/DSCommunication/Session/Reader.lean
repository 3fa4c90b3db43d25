import DSFramework.DSCommunication.DSCPacket
import DSFramework.Lib.Framing

/-!
# The read side of a session

`Session::Start` posts a read of the 2-byte head; `HandleHeadRead` takes the length out of it
and posts a read of the body; `HandleBodyRead` copies the body, hands the copy to
`EventHandler::OnData`, clears the head packet and posts the next head read. Every other exit
closes the session and posts nothing more.

`Reader` holds what the two handlers share, the head buffer that is reused for every frame
included. `boost::asio::async_read` is taken to complete with exactly the number of bytes it
asked for, or with an error at the end of the stream; a read of zero bytes completes at once.
The registered handlers return.

`readAll_onData` is the result: what reaches `OnData` is the reference reading of the stream,
`wireFormat.parse`. The sender is a separate piece of code (`dscSendPacket`), and
`wireFormat_frames` says that the two agree.
-/

namespace DSFramework.DSCommunication

/-- The handler the outstanding `async_read` is bound to. -/
inductive ReadHandler where
  | headRead
  | bodyRead
  deriving DecidableEq, Repr

/-- The members of `Session` that the read handlers use, the read that is outstanding, and the
bodies handed to `EventHandler::OnData` so far. -/
structure Reader where
  headRecvPacket : DSCPacket
  /-- A null pointer until the first head is read; nothing looks at it before. -/
  bodyRecvPacket : DSCPacket
  awaiting : Option ReadHandler
  closed : Bool
  onData : List (List UInt8)
  deriving DecidableEq, Repr

namespace Reader

/-- `Session::Start`, up to the first read. -/
def start : Reader :=
  { headRecvPacket := (dscRecvPacket (UInt16.ofNat headBytesSize)).clear
    bodyRecvPacket := dscRecvPacket 0
    awaiting := some .headRead
    closed := false
    onData := [] }

/-- `Session::Close`, as far as reading goes: no read is posted after it. -/
def close (r : Reader) : Reader := { r with awaiting := none, closed := true }

/-- `Session::HandleHeadRead`. The completion is `none` for an error code; on success the bytes
transferred are in the head packet's buffer already. -/
def handleHeadRead (e : Endian) (r : Reader) : Option (List UInt8) → Reader
  | none => r.close
  | some bytes =>
    let head := r.headRecvPacket.fill bytes
    let r := { r with headRecvPacket := head }
    if bytes.length < headBytesSize then r.close
    else
      let dataSize := e.networkToHostShort (e.short (head.data.take headBytesSize))
      if bodyMaxSize < dataSize.toNat then r.close
      else { r with bodyRecvPacket := dscRecvPacket dataSize, awaiting := some .bodyRead }

/-- `Session::HandleBodyRead`. `OnData` receives a deep copy of the body packet; the head packet
is cleared, which zeroes its `m_dataSize` as well, and read into again. -/
def handleBodyRead (r : Reader) : Option (List UInt8) → Reader
  | none => r.close
  | some bytes =>
    let body := r.bodyRecvPacket.fill bytes
    { r with
      bodyRecvPacket := body
      onData := r.onData ++ [body.copy.buffer]
      headRecvPacket := r.headRecvPacket.clear
      awaiting := some .headRead }

/-- `async_read` of `n` bytes: exactly `n` of them, or an error where the stream ends first. -/
def asyncRead (n : Nat) (stream : List UInt8) : Option (List UInt8) × List UInt8 :=
  if n ≤ stream.length then (some (stream.take n), stream.drop n) else (none, [])

/-- The outstanding read completes and its handler runs. -/
def step (e : Endian) : Reader × List UInt8 → Reader × List UInt8
  | (r, stream) =>
    match r.awaiting with
    | none => (r, stream)
    | some .headRead =>
      let (completion, rest) := asyncRead headBytesSize stream
      (r.handleHeadRead e completion, rest)
    | some .bodyRead =>
      let (completion, rest) := asyncRead r.bodyRecvPacket.dataSize.toNat stream
      (r.handleBodyRead completion, rest)

/-- `fuel` completions, one after another. -/
def run (e : Endian) : Nat → Reader × List UInt8 → Reader × List UInt8
  | 0, s => s
  | fuel + 1, s => run e fuel (step e s)

/-- The reader of a started session at the end of the peer's stream: no read takes more
completions than this. -/
def readAll (e : Endian) (stream : List UInt8) : Reader :=
  (run e (stream.length + 1) (start, stream)).1

end Reader

/-! ## The reference reading -/

/-- The framing of the wire: a 2-byte big-endian length, at most `DSC_PACKET_BODY_MAX_SIZE`. -/
def wireFormat : Framing.Format UInt8 where
  head := headBytesSize
  head_pos := by decide
  size
    | a :: b :: _ => 256 * a.toNat + b.toNat
    | _ => 0
  max := bodyMaxSize

/-- The frame that `Session::Send` enqueues for a body: the bytes its write sends. -/
def sendFrame (e : Endian) (body : List UInt8) : List UInt8 :=
  (dscSendPacket e body (UInt16.ofNat body.length)).buffer

/-- A sent frame is the header the reader expects and the body. -/
theorem sendFrame_eq (e : Endian) {body : List UInt8} (h : body.length ≤ bodyMaxSize) :
    sendFrame e body = networkBytes (UInt16.ofNat body.length) ++ body := by
  have hsize : (UInt16.ofNat body.length).toNat = body.length := by
    simp only [bodyMaxSize] at h
    simp only [UInt16.toNat_ofNat']
    omega
  rw [sendFrame, dscSendPacket_buffer e (by omega) (by simp only [bodyMaxSize] at h; omega),
    hsize, List.take_length]

/-- The length a header was written for is the length it announces. -/
theorem wireFormat_size_networkBytes (v : UInt16) : wireFormat.size (networkBytes v) = v.toNat := by
  have hv := v.toNat_lt
  simp only [wireFormat, networkBytes, UInt8.toNat_ofNat']
  omega

/-- Sender and reference reading agree on admitted bodies, whatever the sender's byte order. -/
theorem wireFormat_frames (e : Endian) {bodies : List (List UInt8)}
    (h : ∀ b ∈ bodies, b.length ≤ bodyMaxSize) :
    wireFormat.parse (bodies.flatMap (sendFrame e)) = bodies := by
  have hframes : bodies.flatMap (sendFrame e) =
      bodies.flatMap fun b => networkBytes (UInt16.ofNat b.length) ++ b := by
    induction bodies with
    | nil => rfl
    | cons b bodies ih =>
      rw [List.flatMap_cons, List.flatMap_cons, sendFrame_eq e (h b List.mem_cons_self),
        ih fun c hc => h c (List.mem_cons_of_mem _ hc)]
  rw [hframes]
  apply Framing.Format.parse_frames
  intro b hb
  have hmax := h b hb
  refine ⟨rfl, ?_, hmax⟩
  rw [wireFormat_size_networkBytes]
  simp only [bodyMaxSize] at hmax
  simp only [UInt16.toNat_ofNat']
  omega

/-! ## The reader computes the reference reading -/

namespace Reader

/-- Once closed, no completion is outstanding and nothing moves. -/
theorem run_closed (e : Endian) (fuel : Nat) {r : Reader} (h : r.awaiting = none)
    (stream : List UInt8) : run e fuel (r, stream) = (r, stream) := by
  induction fuel with
  | zero => rfl
  | succ fuel ih => rw [run, step, h]; exact ih

theorem asyncRead_of_le {n : Nat} {stream : List UInt8} (h : n ≤ stream.length) :
    asyncRead n stream = (some (stream.take n), stream.drop n) := if_pos h

theorem asyncRead_of_lt {n : Nat} {stream : List UInt8} (h : stream.length < n) :
    asyncRead n stream = (none, []) := if_neg (by omega)

/-- The head handler reads the length the reference reading reads, on every host. -/
theorem headSize_eq (e : Endian) (p : DSCPacket) {stream : List UInt8}
    (h : headBytesSize ≤ stream.length) :
    (e.networkToHostShort (e.short
      ((p.fill (stream.take headBytesSize)).data.take headBytesSize))).toNat =
        wireFormat.size (stream.take headBytesSize) := by
  have hlen : (stream.take headBytesSize).length = headBytesSize := by
    rw [List.length_take]
    omega
  rw [DSCPacket.fill_data, List.take_left' hlen]
  match stream, h with
  | a :: b :: rest, _ => exact e.networkToHostShort_short a b []

/-- A body read completes with the announced bytes and hands on exactly these. -/
theorem handleBodyRead_recv {r : Reader} {size : UInt16} {bytes : List UInt8}
    (hbody : r.bodyRecvPacket = dscRecvPacket size) (hlen : bytes.length = size.toNat) :
    (r.handleBodyRead (some bytes)).onData = r.onData ++ [bytes] := by
  have hdata : ((dscRecvPacket size).fill bytes).data = bytes := by
    rw [DSCPacket.fill_data, dscRecvPacket, DSCPacket.ofSize, List.drop_eq_nil_of_le,
      List.append_nil]
    rw [List.length_replicate]
    omega
  simp only [handleBodyRead, hbody, DSCPacket.copy, DSCPacket.buffer, hdata,
    DSCPacket.fill_dataSize, List.take_take]
  rw [List.take_of_length_le]
  simp only [dscRecvPacket, DSCPacket.ofSize]
  omega

/-- The first of a frame's two completions: an admitted head posts the read of its body. -/
theorem step_headRead (e : Endian) {r : Reader} {stream : List UInt8}
    (hawait : r.awaiting = some .headRead) (hlen : headBytesSize ≤ stream.length)
    (hmax : ¬ bodyMaxSize < wireFormat.size (stream.take headBytesSize)) :
    ∃ r' : Reader, ∃ size : UInt16,
      step e (r, stream) = (r', stream.drop headBytesSize) ∧
      size.toNat = wireFormat.size (stream.take headBytesSize) ∧
      r'.bodyRecvPacket = dscRecvPacket size ∧ r'.awaiting = some .bodyRead ∧
      r'.onData = r.onData := by
  have hsize := headSize_eq e r.headRecvPacket hlen
  have hfull : ¬ (stream.take headBytesSize).length < headBytesSize := by
    rw [List.length_take]
    omega
  simp only [step, hawait, asyncRead_of_le hlen, handleHeadRead, if_neg hfull, hsize,
    if_neg hmax]
  exact ⟨_, _, rfl, hsize, rfl, rfl, rfl⟩

/-- A head that cannot be read, or announces too much, closes the session. -/
theorem step_headRead_close (e : Endian) {r : Reader} {stream : List UInt8}
    (hawait : r.awaiting = some .headRead)
    (hbad : stream.length < headBytesSize ∨
      bodyMaxSize < wireFormat.size (stream.take headBytesSize)) :
    (step e (r, stream)).1.awaiting = none ∧ (step e (r, stream)).1.closed = true ∧
      (step e (r, stream)).1.onData = r.onData := by
  by_cases hlen : stream.length < headBytesSize
  · simp only [step, hawait, asyncRead_of_lt hlen, handleHeadRead, close, and_self]
  · have hbig := hbad.resolve_left hlen
    have hsize := headSize_eq e r.headRecvPacket (Nat.le_of_not_lt hlen)
    have hfull : ¬ (stream.take headBytesSize).length < headBytesSize := by
      rw [List.length_take]
      omega
    simp only [step, hawait, asyncRead_of_le (Nat.le_of_not_lt hlen), handleHeadRead,
      if_neg hfull, hsize, if_pos hbig, close, and_self]

/-- The second completion of a frame that is there whole: the body is handed on and the next
head read is posted. -/
theorem step_bodyRead (e : Endian) {r : Reader} {size : UInt16} {stream : List UInt8}
    (hawait : r.awaiting = some .bodyRead) (hbody : r.bodyRecvPacket = dscRecvPacket size)
    (hlen : size.toNat ≤ stream.length) :
    ∃ r' : Reader, step e (r, stream) = (r', stream.drop size.toNat) ∧
      r'.awaiting = some .headRead ∧ r'.onData = r.onData ++ [stream.take size.toNat] := by
  have hsize : r.bodyRecvPacket.dataSize.toNat = size.toNat := by
    rw [hbody, dscRecvPacket, DSCPacket.ofSize]
  have htake : (stream.take size.toNat).length = size.toNat := by
    rw [List.length_take]
    omega
  refine ⟨r.handleBodyRead (some (stream.take size.toNat)), ?_, rfl,
    handleBodyRead_recv hbody htake⟩
  simp only [step, hawait, hsize, asyncRead_of_le hlen]

/-- A body the stream does not hold closes the session. -/
theorem step_bodyRead_close (e : Endian) {r : Reader} {size : UInt16} {stream : List UInt8}
    (hawait : r.awaiting = some .bodyRead) (hbody : r.bodyRecvPacket = dscRecvPacket size)
    (hlen : stream.length < size.toNat) :
    (step e (r, stream)).1.awaiting = none ∧ (step e (r, stream)).1.closed = true ∧
      (step e (r, stream)).1.onData = r.onData := by
  have hsize : r.bodyRecvPacket.dataSize.toNat = size.toNat := by
    rw [hbody, dscRecvPacket, DSCPacket.ofSize]
  simp only [step, hawait, hsize, asyncRead_of_lt hlen, handleBodyRead, close, and_self]

/-- THE READER'S RUN, from any reader that waits for a head: with more completions than the
stream has bytes it ends closed, having handed on what the reference reading reads.

Induction on the stream: a frame takes two completions and at least two bytes, so the fuel
outlasts the stream, and the last, broken frame takes at most two completions. -/
theorem run_parse (e : Endian) (stream : List UInt8) :
    ∀ {r : Reader} {fuel : Nat}, r.awaiting = some .headRead → stream.length < fuel →
      (run e fuel (r, stream)).1.onData = r.onData ++ wireFormat.parse stream ∧
      (run e fuel (r, stream)).1.closed = true ∧
      (run e fuel (r, stream)).1.awaiting = none := by
  induction hn : stream.length using Nat.strongRecOn generalizing stream with
  | ind n ih =>
    intro r fuel hawait hfuel
    match fuel, hfuel with
    | fuel + 1, hfuel =>
      rw [run]
      by_cases hbad : stream.length < headBytesSize ∨
          bodyMaxSize < wireFormat.size (stream.take headBytesSize)
      · obtain ⟨hnone, hclosed, hdata⟩ := step_headRead_close e hawait hbad
        have hparse : wireFormat.parse stream = [] :=
          Framing.Format.parse_none (Framing.Format.next_refused hbad)
        rw [run_closed e fuel hnone, hdata, hparse, List.append_nil]
        exact ⟨rfl, hclosed, hnone⟩
      · obtain ⟨hlen, hmax⟩ := not_or.mp hbad
        have hlen' : headBytesSize ≤ stream.length := Nat.le_of_not_lt hlen
        obtain ⟨r₁, size, hstep, hsize, hbody, hawait₁, hdata₁⟩ :=
          step_headRead e hawait hlen' hmax
        rw [hstep]
        have hhead : headBytesSize = 2 := rfl
        match fuel, hfuel with
        | 0, hfuel => omega
        | fuel + 1, hfuel =>
          rw [run]
          by_cases hfit : stream.length < headBytesSize + size.toNat
          · have hshort : (stream.drop headBytesSize).length < size.toNat := by
              rw [List.length_drop]
              omega
            obtain ⟨hnone, hclosed, hdata⟩ := step_bodyRead_close e hawait₁ hbody hshort
            have hparse : wireFormat.parse stream = [] :=
              Framing.Format.parse_none (Framing.Format.next_cut (hsize ▸ hfit))
            rw [run_closed e fuel hnone, hdata, hdata₁, hparse, List.append_nil]
            exact ⟨rfl, hclosed, hnone⟩
          · have hfull : size.toNat ≤ (stream.drop headBytesSize).length := by
              rw [List.length_drop]
              omega
            obtain ⟨r₂, hstep₂, hawait₂, hdata₂⟩ := step_bodyRead e hawait₁ hbody hfull
            have hnext : wireFormat.next stream =
                some ((stream.drop headBytesSize).take size.toNat,
                  (stream.drop headBytesSize).drop size.toNat) := by
              rw [List.drop_drop, hsize]
              exact Framing.Format.next_whole (Nat.le_of_not_lt hmax)
                (Nat.le_of_not_lt (hsize ▸ hfit))
            have hless := Framing.Format.next_lt hnext
            rw [hstep₂]
            obtain ⟨hdata, hrest⟩ := @ih _ (hn ▸ hless) _ rfl r₂ fuel hawait₂
              (by rw [List.length_drop, List.length_drop]; omega)
            refine ⟨?_, hrest⟩
            rw [hdata, hdata₂, hdata₁, Framing.Format.parse_some hnext, List.append_assoc]
            rfl

theorem run_add (e : Endian) (n k : Nat) (s : Reader × List UInt8) :
    run e (n + k) s = run e k (run e n s) := by
  induction n generalizing s with
  | zero => rw [Nat.zero_add]; rfl
  | succ n ih => rw [Nat.succ_add]; exact ih (step e s)

/-- Further completions change nothing: `readAll` is where every longer run stands, too. -/
theorem run_eq_readAll (e : Endian) {stream : List UInt8} {fuel : Nat}
    (h : stream.length < fuel) : (run e fuel (start, stream)).1 = readAll e stream := by
  obtain ⟨extra, rfl⟩ := Nat.exists_eq_add_of_lt h
  have hnone := (@run_parse e stream start (stream.length + 1) rfl (Nat.lt_succ_self _)).2.2
  have hrun := run_closed e extra hnone (run e (stream.length + 1) (start, stream)).2
  rw [show stream.length + extra + 1 = stream.length + 1 + extra by omega, run_add]
  rw [hrun, readAll]

/-- What a session delivers, for every stream and for every list of frames sent to it.

The bodies handed to `OnData` are the reference reading of the stream, after which the session
is closed for good. A stream of frames that `dscSendPacket` built from admitted bodies delivers
these bodies, and any prefix of its bytes delivers a prefix of them. -/
theorem readAll_onData (e e' : Endian) :
    (∀ stream, (readAll e stream).onData = wireFormat.parse stream ∧
      (readAll e stream).closed = true ∧ (readAll e stream).awaiting = none ∧
      ∀ fuel, stream.length < fuel → (run e fuel (start, stream)).1 = readAll e stream) ∧
    (∀ bodies : List (List UInt8), (∀ b ∈ bodies, b.length ≤ bodyMaxSize) →
      (readAll e (bodies.flatMap (sendFrame e'))).onData = bodies ∧
      ∀ bytes, bytes <+: bodies.flatMap (sendFrame e') →
        (readAll e bytes).onData <+: bodies) := by
  have delivered : ∀ stream, (readAll e stream).onData = wireFormat.parse stream := fun stream =>
    (run_parse e stream (r := start) rfl (Nat.lt_succ_self _)).1
  refine ⟨fun stream => ?_, fun bodies h => ?_⟩
  · obtain ⟨_, hclosed, hnone⟩ := run_parse e stream (r := start) rfl (Nat.lt_succ_self _)
    exact ⟨delivered stream, hclosed, hnone, fun _ hfuel => run_eq_readAll e hfuel⟩
  · have whole := wireFormat_frames e' h
    refine ⟨by rw [delivered, whole], fun bytes hbytes => ?_⟩
    rw [delivered, ← whole]
    exact Framing.Format.parse_mono (whole.symm ▸ hbytes)

/-- Two frames from a big-endian sender, the second one empty, on a little-endian receiver. -/
theorem readAll_onData_two :
    (readAll .little ([[104, 105], []].flatMap (sendFrame .big))).onData = [[104, 105], []] :=
  ((readAll_onData .little .big).2 [[104, 105], []] (by decide)).1

end Reader

end DSFramework.DSCommunication
