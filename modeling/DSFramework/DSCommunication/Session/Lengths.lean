import DSFramework.DSCommunication.Session.Reader
import DSFramework.DSCommunication.Session.Writer

/-!
# The lengths that `Send` takes

A message's length is a `size_t` in `ResponseDispatcher::Send`, an `int` in `Session::Send`, a
`uint16_t` in the constructor of `DSCSendPacket` and two bytes in the header of the frame. Only the
reader compares it with `DSC_PACKET_BODY_MAX_SIZE`: `Send` enqueues a frame for every length, and
what it says above the limit is either refused by the peer, who closes the connection, or, where
the conversion to 16 bits wraps, the announcement of a shorter message. Just below the wrap the
sum with the header size wraps first, and the constructor writes past its allocation.
-/

namespace DSFramework.DSCommunication

/-- A frame that carries exactly the first `dataLength` bytes of `data`: its header announces that
length, these bytes follow it, and a peer that waits for a head takes the frame off its stream,
hands these bytes on and waits for the next head. -/
structure Carries (packet : DSCPacket) (data : List UInt8) (dataLength : Nat) : Prop where
  header : wireFormat.size (packet.buffer.take headBytesSize) = dataLength
  body : packet.buffer.drop headBytesSize = data.take dataLength
  delivered : ∀ (e : Endian) (r : Reader) stream, r.awaiting = some .headRead →
    ∃ r' : Reader, Reader.run e 2 (r, packet.buffer ++ stream) = (r', stream) ∧
      r'.awaiting = some .headRead ∧ r'.onData = r.onData ++ [data.take dataLength]

namespace Reader

/-- A reader that waits for a head takes an admitted frame in two completions. -/
theorem run_frame (e : Endian) {r : Reader} {header body : List UInt8} (stream : List UInt8)
    (hawait : r.awaiting = some .headRead) (hhead : header.length = headBytesSize)
    (hsize : wireFormat.size header = body.length) (hmax : body.length ≤ bodyMaxSize) :
    ∃ r' : Reader, run e 2 (r, header ++ body ++ stream) = (r', stream) ∧
      r'.awaiting = some .headRead ∧ r'.onData = r.onData ++ [body] := by
  have htake : (header ++ body ++ stream).take headBytesSize = header := by
    rw [List.append_assoc, List.take_left' hhead]
  have hdrop : (header ++ body ++ stream).drop headBytesSize = body ++ stream := by
    rw [List.append_assoc, List.drop_left' hhead]
  have hlen : headBytesSize ≤ (header ++ body ++ stream).length := by
    simp only [List.length_append]
    omega
  obtain ⟨r₁, size, hstep, hlength, hbody, hawait₁, hdata₁⟩ :=
    step_headRead e hawait hlen (by rw [htake, hsize]; omega)
  rw [htake, hsize] at hlength
  rw [hdrop] at hstep
  have hfull : size.toNat ≤ (body ++ stream).length := by
    rw [hlength, List.length_append]
    omega
  obtain ⟨r₂, hstep₂, hawait₂, hdata₂⟩ := step_bodyRead e hawait₁ hbody hfull
  rw [hlength, List.drop_left' rfl] at hstep₂
  rw [hlength, List.take_left' rfl, hdata₁] at hdata₂
  exact ⟨r₂, by rw [run, hstep, run, hstep₂, run], hawait₂, hdata₂⟩

/-- A head that announces too much leaves no read outstanding. -/
theorem run_refused (e : Endian) {r : Reader} {stream : List UInt8} (fuel : Nat)
    (hawait : r.awaiting = some .headRead)
    (hbig : bodyMaxSize < wireFormat.size (stream.take headBytesSize)) :
    (run e (fuel + 1) (r, stream)).1.awaiting = none := by
  obtain ⟨hnone, -, -⟩ := step_headRead_close e hawait (.inr hbig)
  rw [run]
  generalize step e (r, stream) = s at hnone
  rw [run_closed e fuel hnone]
  exact hnone

end Reader

/-- The peer takes no frame that announces more than `DSC_PACKET_BODY_MAX_SIZE`. -/
theorem Carries.le_bodyMaxSize {packet : DSCPacket} {data : List UInt8} {dataLength : Nat}
    (h : Carries packet data dataLength) : dataLength ≤ bodyMaxSize := by
  refine Nat.le_of_not_lt fun hbig => ?_
  obtain ⟨r', hrun, hawait, -⟩ := h.delivered .little Reader.start [] rfl
  have hrefused : (Reader.run .little 2 (Reader.start, packet.buffer ++ [])).1.awaiting = none :=
    Reader.run_refused .little 1 rfl (by rw [List.append_nil, h.header]; exact hbig)
  rw [hrun] at hrefused
  rw [hawait] at hrefused
  cases hrefused

/-- The conversion of an `int` to the constructor's `uint16_t`. -/
theorem toNat_ofInt_natCast (n : Nat) : (UInt16.ofInt n).toNat = n % 65536 := by
  have hcast : ((n : Int) % 2 ^ 16).toNat = n % 65536 := by omega
  rw [UInt16.ofInt, hcast, UInt16.toNat_ofNat']
  omega

/-- What `DSCSendPacket` makes of an `int` length: a frame for the length modulo `2 ^ 16`. -/
theorem carries_dscSendPacket (e : Endian) {data : List UInt8} {n : Nat}
    (hdata : n % 65536 ≤ data.length) (hmax : n % 65536 ≤ bodyMaxSize) :
    Carries (dscSendPacket e data (UInt16.ofInt n)) data (n % 65536) := by
  have hsize := toNat_ofInt_natCast n
  have hfit : (UInt16.ofInt n).toNat + 2 < 65536 := by
    simp only [bodyMaxSize] at hmax
    omega
  have hbuffer := dscSendPacket_buffer e (hsize ▸ hdata) hfit
  rw [hsize] at hbuffer
  have hbody : (data.take (n % 65536)).length = n % 65536 := by
    rw [List.length_take]
    omega
  have hheader : wireFormat.size (networkBytes (UInt16.ofInt n)) = n % 65536 := by
    rw [wireFormat_size_networkBytes, hsize]
  have hhead : (networkBytes (UInt16.ofInt n)).length = headBytesSize := networkBytes_length _
  refine ⟨?_, ?_, fun e' r stream hawait => ?_⟩
  · rw [hbuffer, List.take_left' hhead, hheader]
  · rw [hbuffer, List.drop_left' hhead]
  · rw [hbuffer]
    exact Reader.run_frame e' stream hawait hhead (hheader.trans hbody.symm)
      (Nat.le_trans (Nat.le_of_eq hbody) hmax)

/-- For every message and every `int` length of it: the constructor that `Send` calls writes inside
its allocation and counts what it wrote, if and only if the length modulo `2 ^ 16` leaves room for
the header in 16 bits. -/
theorem writesInside_ofInt_iff (e : Endian) {data : List UInt8} {dataLength : Nat}
    (hdata : dataLength ≤ data.length) :
    WritesInside e data (UInt16.ofInt dataLength) ↔ dataLength % 65536 < 65534 := by
  have hsize := toNat_ofInt_natCast dataLength
  have hlen : (UInt16.ofInt dataLength).toNat ≤ data.length := by
    rw [hsize]
    exact Nat.le_trans (Nat.mod_le _ _) hdata
  rw [writesInside_iff e hlen, hsize]
  omega

/-- A message of two bytes. -/
theorem writesInside_ofInt_iff_two :
    WritesInside .little [104, 105] (UInt16.ofInt (2 : Nat)) := by
  have hdata : 2 ≤ [(104 : UInt8), 105].length := by decide
  exact (writesInside_ofInt_iff .little hdata).mpr (by decide)

/-- A message of 65534 bytes: the allocation is empty, and all 65536 bytes of the frame go past
it. -/
theorem not_writesInside_of_wrapped :
    ¬ ∀ (e : Endian) (data : List UInt8) (dataLength : Nat),
      (dataLength : Int) ≤ Int32.maxValue.toInt → dataLength ≤ data.length →
        WritesInside e data (UInt16.ofInt dataLength) := by
  intro h
  have hlen : 65534 ≤ (List.replicate 65534 (0 : UInt8)).length := by
    rw [List.length_replicate]
  have hinside := h .little _ 65534 (by decide) hlen
  have hsize : (UInt16.ofInt (65534 : Nat)).toNat = 65534 := toNat_ofInt_natCast 65534
  obtain ⟨hpast, -⟩ := @sendCopies_past .little (List.replicate 65534 0)
    (UInt16.ofInt (65534 : Nat)) (by rw [hsize]; exact hlen) (by rw [hsize])
  exact absurd (hinside.inside _ List.mem_cons_self) (Nat.not_le.mpr (hpast _ List.mem_cons_self))

namespace Writer

/-- `Send` refuses the message, or enqueues a frame that carries exactly it. -/
def Sends (e : Endian) (data : List UInt8) (dataLength : Nat) (w : Writer) : Prop :=
  w.send e data dataLength = w ∨
    ∃ frame, (w.send e data dataLength).accepted = w.accepted ++ [frame] ∧
      (w.send e data dataLength).sendQueue = w.sendQueue ++ [frame] ∧
      Carries frame.packet data dataLength

/-- `Send` with room in the queue enqueues its frame. -/
theorem send_enqueues {w : Writer} (hroom : w.sendQueue.length < w.sendQueueMaxSize.toNat)
    (e : Endian) (data : List UInt8) (dataLength : Int) :
    (w.send e data dataLength).accepted = w.accepted ++ [w.frameOf e data dataLength] ∧
      (w.send e data dataLength).sendQueue = w.sendQueue ++ [w.frameOf e data dataLength] := by
  by_cases hq : w.sendQueue = []
  · rw [hq, List.length_nil] at hroom
    rw [send_first hroom hq, hq]
    exact ⟨rfl, rfl⟩
  · rw [send_behind hroom hq]
    exact ⟨rfl, rfl⟩

/-- For every queue, every message and every length of it: `Send` refuses it or enqueues a frame
that carries it and that the peer takes, if and only if the queue is full or the length is at most
`DSC_PACKET_BODY_MAX_SIZE`. -/
theorem sends_iff (e : Endian) (w : Writer) {data : List UInt8} {dataLength : Nat}
    (hdata : dataLength ≤ data.length) :
    w.Sends e data dataLength ↔
      w.sendQueueMaxSize.toNat ≤ w.sendQueue.length ∨ dataLength ≤ bodyMaxSize := by
  by_cases hfull : w.sendQueueMaxSize.toNat ≤ w.sendQueue.length
  · exact ⟨fun _ => .inl hfull, fun _ => .inl (send_full hfull e data dataLength)⟩
  · obtain ⟨haccepted, hqueue⟩ := send_enqueues (Nat.lt_of_not_le hfull) e data dataLength
    constructor
    · rintro (hsame | ⟨frame, hframe, -, hcarries⟩)
      · -- the frame was accepted, so something changed
        rw [hsame] at haccepted
        have hlen := congrArg List.length haccepted
        rw [List.length_append, List.length_singleton] at hlen
        omega
      · exact .inr hcarries.le_bodyMaxSize
    · rintro (h | hmax)
      · exact absurd h hfull
      · have hmod : dataLength % 65536 = dataLength := by
          simp only [bodyMaxSize] at hmax
          omega
        have hcarries : Carries (w.frameOf e data dataLength).packet data (dataLength % 65536) :=
          carries_dscSendPacket e (by rw [hmod]; exact hdata) (by rw [hmod]; exact hmax)
        rw [hmod] at hcarries
        exact .inr ⟨_, haccepted, hqueue, hcarries⟩

/-- A message of two bytes. -/
theorem sends_iff_two : (fresh 32).Sends .little [104, 105] 2 := by
  have hdata : 2 ≤ [(104 : UInt8), 105].length := by decide
  exact (sends_iff .little (fresh 32) hdata).mpr (.inr (by decide))

/-- A message of one byte more than the limit is enqueued, and the peer closes the connection on
its header. -/
theorem not_sends_of_long :
    ¬ ∀ (e : Endian) (w : Writer) (data : List UInt8) (dataLength : Nat),
      (dataLength : Int) ≤ Int32.maxValue.toInt → dataLength ≤ data.length → w.Sends e data dataLength := by
  intro h
  have hlen : 4097 ≤ (List.replicate 4097 (0 : UInt8)).length := by
    rw [List.length_replicate]
  obtain hsame | ⟨frame, -, -, hcarries⟩ := h .little (fresh 32) _ 4097 (by decide) hlen
  · have hroom : (fresh 32).sendQueue.length < (fresh 32).sendQueueMaxSize.toNat := by decide
    have haccepted := (send_enqueues hroom .little (List.replicate 4097 0) 4097).1
    rw [show ((4097 : Nat) : Int) = 4097 from rfl] at hsame
    rw [hsame] at haccepted
    cases haccepted
  · exact absurd hcarries.le_bodyMaxSize (by decide)

/-- Where the length wraps to an admitted one, `Send` enqueues the frame of a shorter message: the
peer takes the first bytes for the whole. -/
theorem send_wrapped {e : Endian} {w : Writer} {data : List UInt8} {dataLength : Nat}
    (hroom : w.sendQueue.length < w.sendQueueMaxSize.toNat) (hdata : dataLength ≤ data.length)
    (hmax : dataLength % 65536 ≤ bodyMaxSize) :
    ∃ frame, (w.send e data dataLength).sendQueue = w.sendQueue ++ [frame] ∧
      Carries frame.packet data (dataLength % 65536) :=
  ⟨_, (send_enqueues hroom e data dataLength).2,
    carries_dscSendPacket e (Nat.le_trans (Nat.mod_le _ _) hdata) hmax⟩

end Writer

end DSFramework.DSCommunication
