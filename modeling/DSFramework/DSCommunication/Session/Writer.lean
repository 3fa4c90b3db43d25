import Mathlib.Data.List.Nodup
import DSFramework.DSCommunication.DSCPacket
import DSFramework.Lib.Machine

/-!
# The write side of a session

`Session::Send` and `Session::HandleWrite` share `m_sendQueue` under `m_sendQueueMutex`. `Send`
starts a write only when the queue was empty before its push; `HandleWrite` pops the written
frame and starts the next write while frames remain. An error leaves the front where it is.

Each locked section is one step, so an interleaving of any number of sending threads with the
completions is a sequence of the two labels of `WriterLabel`. `writes` is the list of all writes
that were started and have not completed; that it never holds two is proved, not assumed.

`Writer.Chained` is the invariant. It says in one equation where the write chain stands: nothing
outstanding after an error, and otherwise exactly the front of the queue.
-/

namespace DSFramework.DSCommunication

/-- A `DSCSendPacket` in the queue. The number tells one object from another with the same
bytes: accepted frames are counted. -/
structure Frame where
  number : Nat
  packet : DSCPacket
  deriving DecidableEq, Repr

/-- The members of `Session` that `Send` and `HandleWrite` use, the outstanding writes, and the
history of the session: whether the write side has called `Close`, the frames `Send` accepted,
those written successfully, those a write was ever started for, and whether a write has
completed with an error. -/
structure Writer where
  sendQueueMaxSize : UInt8
  sendQueue : List Frame
  writes : List Frame
  closed : Bool
  accepted : List Frame
  written : List Frame
  started : List Frame
  failed : Bool
  deriving DecidableEq, Repr

/-- A call of `Send`, or the completion of the outstanding write at a position. -/
inductive WriterLabel where
  | send (data : List UInt8) (dataLength : Int)
  | complete (position : Nat) (success : Bool)
  deriving DecidableEq, Repr

/-- `SEND_QUEUE_MAX_SIZE`, with which the acceptor and the client construct their sessions. -/
def Session.sendQueueMaxSize : UInt8 := 32

namespace Writer

/-- A session as constructed. -/
def fresh (sendQMaxSize : UInt8) : Writer :=
  { sendQueueMaxSize := sendQMaxSize
    sendQueue := []
    closed := false
    writes := []
    accepted := []
    written := []
    started := []
    failed := false }

/-- `Session::Close`, as far as the write side sees it. -/
def close (w : Writer) : Writer := { w with closed := true }

/-- `m_sendQueue.push(std::make_shared<DSCSendPacket>(data, dataLength))`. -/
def push (w : Writer) (packet : DSCPacket) : Writer :=
  { w with
    sendQueue := w.sendQueue ++ [⟨w.accepted.length, packet⟩]
    accepted := w.accepted ++ [⟨w.accepted.length, packet⟩] }

/-- `async_write` of `m_sendQueue.front()`. -/
def asyncWrite (w : Writer) : Writer :=
  match w.sendQueue with
  | [] => w
  | front :: _ => { w with writes := w.writes ++ [front], started := w.started ++ [front] }

/-- `Session::Send`. The `int` length is converted to the constructor's `uint16_t`. -/
def send (e : Endian) (data : List UInt8) (dataLength : Int) (w : Writer) : Writer :=
  if w.sendQueueMaxSize.toNat ≤ w.sendQueue.length then w
  else
    let queuePending := !w.sendQueue.isEmpty
    let w := w.push (dscSendPacket e data (UInt16.ofInt dataLength))
    if queuePending then w else w.asyncWrite

/-- `Session::HandleWrite`. -/
def handleWrite (success : Bool) (w : Writer) : Writer :=
  if success then
    let w := { w with sendQueue := w.sendQueue.tail }
    if w.sendQueue.isEmpty then w else w.asyncWrite
  else w.close

/-- What becomes of the write at a position is recorded, whatever the handler will do. -/
def recordWrite (position : Nat) (frame : Frame) (success : Bool) (w : Writer) : Writer :=
  { w with
    writes := w.writes.eraseIdx position
    written := if success then w.written ++ [frame] else w.written
    failed := w.failed || !success }

/-- The session's write side as a machine: the sender's byte order is fixed, the rest is open. -/
def machine (e : Endian) : Transition.Machine Writer WriterLabel where
  init w := ∃ sendQMaxSize, w = fresh sendQMaxSize
  step w
    | .send data dataLength => some (w.send e data dataLength)
    | .complete position success =>
      (w.writes[position]?).map fun frame =>
        (w.recordWrite position frame success).handleWrite success

/-! ## The exits of the two functions -/

/-- The frame that `Send` makes of its arguments in `w`. -/
def frameOf (e : Endian) (data : List UInt8) (dataLength : Int) (w : Writer) : Frame :=
  ⟨w.accepted.length, dscSendPacket e data (UInt16.ofInt dataLength)⟩

/-- `Send` on a full queue drops the message. -/
theorem send_full {w : Writer} (h : w.sendQueueMaxSize.toNat ≤ w.sendQueue.length) (e : Endian)
    (data : List UInt8) (dataLength : Int) : w.send e data dataLength = w := if_pos h

/-- `Send` on an empty queue enqueues its frame and starts the write of it. -/
theorem send_first {w : Writer} (hroom : 0 < w.sendQueueMaxSize.toNat) (hq : w.sendQueue = [])
    (e : Endian) (data : List UInt8) (dataLength : Int) :
    w.send e data dataLength =
      { w with
        sendQueue := [w.frameOf e data dataLength]
        accepted := w.accepted ++ [w.frameOf e data dataLength]
        writes := w.writes ++ [w.frameOf e data dataLength]
        started := w.started ++ [w.frameOf e data dataLength] } := by
  have hfull : ¬ w.sendQueueMaxSize.toNat ≤ ([] : List Frame).length := Nat.not_le.mpr hroom
  simp only [send, hq, if_neg hfull, push, List.nil_append, asyncWrite, frameOf,
    List.isEmpty_nil, Bool.not_true, Bool.false_eq_true, if_false]

/-- `Send` behind other frames only enqueues. -/
theorem send_behind {w : Writer} (hroom : w.sendQueue.length < w.sendQueueMaxSize.toNat)
    (hq : w.sendQueue ≠ []) (e : Endian) (data : List UInt8) (dataLength : Int) :
    w.send e data dataLength =
      { w with
        sendQueue := w.sendQueue ++ [w.frameOf e data dataLength]
        accepted := w.accepted ++ [w.frameOf e data dataLength] } := by
  have hempty : w.sendQueue.isEmpty = false := by
    simpa using hq
  simp only [send, if_neg (Nat.not_le.mpr hroom), hempty, Bool.not_false, if_true, push, frameOf]

/-- A failed write leaves the queue alone. -/
theorem handleWrite_failure (w : Writer) : w.handleWrite false = { w with closed := true } := rfl

/-- Behind the last frame nothing is written. -/
theorem handleWrite_last {w : Writer} (htail : w.sendQueue.tail = []) :
    w.handleWrite true = { w with sendQueue := [] } := by
  simp only [handleWrite, htail, List.isEmpty_nil, if_true]

/-- Behind a frame with others behind it the write of the next is started. -/
theorem handleWrite_next {w : Writer} {front : Frame} {rest : List Frame}
    (htail : w.sendQueue.tail = front :: rest) :
    w.handleWrite true =
      { w with
        sendQueue := front :: rest
        writes := w.writes ++ [front]
        started := w.started ++ [front] } := by
  simp only [handleWrite, htail, List.isEmpty_cons, if_true, Bool.false_eq_true, if_false,
    asyncWrite]

/-! ## The chain invariant -/

/-- Where the write chain stands. -/
structure Chained (w : Writer) : Prop where
  /-- One write, of the front; none once a write has failed. -/
  writes_eq : w.writes = if w.failed then [] else w.sendQueue.take 1
  /-- A failed write leaves its frame at the front, so `Send` never finds the queue empty again. -/
  failed_keeps : w.failed = true → w.sendQueue ≠ []
  bounded : w.sendQueue.length ≤ w.sendQueueMaxSize.toNat
  history : w.accepted = w.written ++ w.sendQueue
  numbered : w.accepted.map Frame.number = List.range w.accepted.length

theorem chained_fresh (sendQMaxSize : UInt8) : Chained (fresh sendQMaxSize) where
  writes_eq := rfl
  failed_keeps := nofun
  bounded := Nat.zero_le _
  history := rfl
  numbered := rfl

/-- The next number goes to the next accepted frame. -/
theorem Chained.numbered_snoc {w : Writer} (h : w.Chained) (e : Endian) (data : List UInt8)
    (dataLength : Int) :
    (w.accepted ++ [w.frameOf e data dataLength]).map Frame.number =
      List.range (w.accepted ++ [w.frameOf e data dataLength]).length := by
  simp only [frameOf, List.map_append, List.map_cons, List.map_nil, List.length_append,
    List.length_singleton, List.range_succ, h.numbered]

/-- An empty queue means that no write has failed and none is outstanding. -/
theorem Chained.idle {w : Writer} (h : w.Chained) (hq : w.sendQueue = []) :
    w.failed = false ∧ w.writes = [] := by
  have hfailed : w.failed = false := by
    cases hf : w.failed with
    | false => rfl
    | true => exact absurd hq (h.failed_keeps hf)
  refine ⟨hfailed, ?_⟩
  rw [h.writes_eq, hfailed, hq]
  rfl

theorem Chained.send {w : Writer} (h : w.Chained) (e : Endian) (data : List UInt8)
    (dataLength : Int) : (w.send e data dataLength).Chained := by
  by_cases hfull : w.sendQueueMaxSize.toNat ≤ w.sendQueue.length
  · rw [send_full hfull]
    exact h
  have hroom : w.sendQueue.length < w.sendQueueMaxSize.toNat := Nat.lt_of_not_le hfull
  have hnumbered := h.numbered_snoc e data dataLength
  by_cases hq : w.sendQueue = []
  · obtain ⟨hfailed, hwrites⟩ := h.idle hq
    have hhistory := h.history
    rw [hq, List.append_nil] at hhistory
    rw [hq, List.length_nil] at hroom
    rw [send_first hroom hq]
    refine ⟨?_, nofun, hroom, ?_, hnumbered⟩
    · simp only [hwrites, hfailed, List.nil_append, Bool.false_eq_true, if_false,
        List.take_succ_cons, List.take_zero]
    · simp only [hhistory]
  · rw [send_behind hroom hq]
    refine ⟨?_, fun _ => List.append_ne_nil_of_left_ne_nil hq _, ?_, ?_, hnumbered⟩
    · have htake : (w.sendQueue ++ [w.frameOf e data dataLength]).take 1 = w.sendQueue.take 1 :=
        List.take_append_of_le_length (List.length_pos_iff.mpr hq)
      simp only [htake, h.writes_eq]
    · rw [List.length_append, List.length_singleton]
      exact hroom
    · simp only [h.history, List.append_assoc]

/-- A completion concerns the front of the queue, which is the only frame being written. -/
theorem Chained.completing {w : Writer} (h : w.Chained) {position : Nat} {frame : Frame}
    (hget : w.writes[position]? = some frame) :
    w.failed = false ∧ position = 0 ∧ w.writes = [frame] ∧
      w.sendQueue = frame :: w.sendQueue.tail := by
  have hfailed : w.failed = false := by
    cases hf : w.failed with
    | false => rfl
    | true =>
      rw [h.writes_eq, hf] at hget
      cases hget
  have heq := h.writes_eq
  rw [hfailed] at heq
  cases hq : w.sendQueue with
  | nil =>
    rw [heq, hq] at hget
    cases hget
  | cons front rest =>
    rw [hq] at heq
    have hwrites : w.writes = [front] := heq
    rw [hwrites] at hget
    cases position with
    | zero => cases hget; exact ⟨hfailed, rfl, hwrites, rfl⟩
    | succ position => cases hget

theorem Chained.complete {w : Writer} (h : w.Chained) {position : Nat} {frame : Frame}
    (hget : w.writes[position]? = some frame) (success : Bool) :
    ((w.recordWrite position frame success).handleWrite success).Chained := by
  obtain ⟨hfailed, rfl, hwrites, hqueue⟩ := h.completing hget
  have hhistory := h.history
  have hbounded := h.bounded
  rw [hqueue] at hhistory hbounded
  have hrecord : w.recordWrite 0 frame success = { w with
      writes := []
      written := if success then w.written ++ [frame] else w.written
      failed := !success } := by
    rw [recordWrite, hwrites, hfailed]
    rfl
  rw [hrecord]
  cases success with
  | false =>
    rw [handleWrite_failure]
    exact ⟨rfl, fun _ => hqueue ▸ List.cons_ne_nil _ _, h.bounded, h.history, h.numbered⟩
  | true =>
    cases htail : w.sendQueue.tail with
    | nil =>
      rw [htail] at hhistory
      rw [handleWrite_last (by exact htail)]
      refine ⟨rfl, nofun, Nat.zero_le _, ?_, h.numbered⟩
      simpa only [List.append_nil, if_true] using hhistory
    | cons front rest =>
      rw [htail] at hhistory hbounded
      rw [handleWrite_next (by exact htail)]
      refine ⟨rfl, fun _ => List.cons_ne_nil _ _, Nat.le_of_succ_le hbounded, ?_, h.numbered⟩
      simpa only [List.append_assoc, List.cons_append, List.nil_append, if_true] using hhistory

/-- One step of the write side keeps the chain. -/
theorem Chained.step {e : Endian} {w w' : Writer} {l : WriterLabel} (h : w.Chained)
    (hstep : (machine e).step w l = some w') : w'.Chained := by
  cases l with
  | send data dataLength =>
    cases hstep
    exact h.send e data dataLength
  | complete position success =>
    obtain ⟨frame, hget, rfl⟩ := Option.map_eq_some_iff.mp hstep
    exact h.complete hget success

/-- Every reachable session is chained. -/
theorem chained_of_reachable {e : Endian} {w : Writer} (h : (machine e).Reachable w) :
    w.Chained :=
  h.invariant (fun _ ⟨sendQMaxSize, hw⟩ => hw ▸ chained_fresh sendQMaxSize)
    fun _ _ _ hc _ hstep => hc.step hstep

/-- No step changes the limit of the queue or takes back what has been accepted. -/
theorem step_keeps {e : Endian} {w w' : Writer} {l : WriterLabel}
    (hstep : (machine e).step w l = some w') :
    w'.sendQueueMaxSize = w.sendQueueMaxSize ∧ w.accepted <+: w'.accepted := by
  have hstart : ∀ w : Writer, w.asyncWrite.sendQueueMaxSize = w.sendQueueMaxSize ∧
      w.asyncWrite.accepted = w.accepted := by
    intro w
    unfold asyncWrite
    split <;> exact ⟨rfl, rfl⟩
  cases l with
  | send data dataLength =>
    cases hstep
    simp only [send]
    split
    · exact ⟨rfl, List.prefix_rfl⟩
    split
    · exact ⟨rfl, List.prefix_append _ _⟩
    · obtain ⟨hmax, haccepted⟩ := hstart (w.push (dscSendPacket e data (UInt16.ofInt dataLength)))
      exact ⟨hmax, haccepted ▸ List.prefix_append _ _⟩
  | complete position success =>
    obtain ⟨frame, -, rfl⟩ := Option.map_eq_some_iff.mp hstep
    unfold handleWrite
    split
    · dsimp only
      split
      · exact ⟨rfl, List.prefix_rfl⟩
      · obtain ⟨hmax, haccepted⟩ := hstart
          { w.recordWrite position frame success with sendQueue := w.sendQueue.tail }
        exact ⟨hmax, haccepted.symm ▸ List.prefix_rfl⟩
    · exact ⟨rfl, List.prefix_rfl⟩

/-- `Send` accepts its frame where the queue has room. -/
theorem mem_accepted_send {w : Writer} (hroom : w.sendQueue.length < w.sendQueueMaxSize.toNat)
    (e : Endian) (data : List UInt8) (dataLength : Int) :
    w.frameOf e data dataLength ∈ (w.send e data dataLength).accepted := by
  by_cases hq : w.sendQueue = []
  · rw [hq, List.length_nil] at hroom
    rw [send_first hroom hq]
    exact List.mem_append_right _ (List.mem_singleton.mpr rfl)
  · rw [send_behind hroom hq]
    exact List.mem_append_right _ (List.mem_singleton.mpr rfl)

/-! ## After an error -/

/-- A chained session whose write failed starts none in its next step, and stays failed. -/
theorem Chained.step_failed {e : Endian} {w w' : Writer} {l : WriterLabel} (h : w.Chained)
    (hfailed : w.failed = true) (hstep : (machine e).step w l = some w') :
    w'.failed = true ∧ w'.started = w.started := by
  cases l with
  | send data dataLength =>
    cases hstep
    by_cases hfull : w.sendQueueMaxSize.toNat ≤ w.sendQueue.length
    · rw [send_full hfull]
      exact ⟨hfailed, rfl⟩
    · rw [send_behind (Nat.lt_of_not_le hfull) (h.failed_keeps hfailed)]
      exact ⟨hfailed, rfl⟩
  | complete position success =>
    obtain ⟨frame, hget, -⟩ := Option.map_eq_some_iff.mp hstep
    have := (h.completing hget).1
    rw [hfailed] at this
    cases this

/-- From a failed session on, no write is ever started. -/
theorem started_of_failed {e : Endian} {w w' : Writer} (h : (machine e).Reachable w)
    (hfailed : w.failed = true) (hsteps : (machine e).Steps (fun _ _ => True) w w') :
    w'.started = w.started := by
  have keep : w'.Chained ∧ w'.failed = true ∧ w'.started = w.started :=
    hsteps.invariant (I := fun v => v.Chained ∧ v.failed = true ∧ v.started = w.started)
      (fun _ _ _ ⟨hc, hf, hs⟩ _ hstep =>
        have ⟨hf', hs'⟩ := hc.step_failed hf hstep
        ⟨hc.step hstep, hf', hs'.trans hs⟩)
      ⟨chained_of_reachable h, hfailed, rfl⟩
  exact keep.2.2

/-! ## The write side in every reachable state -/

/-- The write chain under any interleaving of `Send` calls and completions: one write at most and
of the front; a write exactly when frames wait, until a write fails; the completion handler finds
a frame to pop and the queue keeps its limit; what was accepted is what was written and then what
waits, each frame once and in order; and after a failed write nothing is started any more. -/
theorem writeChain (e : Endian) {w : Writer} (h : (machine e).Reachable w) :
    (w.writes.length ≤ 1 ∧ ∀ frame ∈ w.writes, w.sendQueue.head? = some frame) ∧
    (w.failed = false → (w.writes ≠ [] ↔ w.sendQueue ≠ [])) ∧
    ((∀ (position : Nat) (frame : Frame), w.writes[position]? = some frame → w.sendQueue ≠ []) ∧
      w.sendQueue.length ≤ w.sendQueueMaxSize.toNat) ∧
    (w.accepted = w.written ++ w.sendQueue ∧ w.accepted.Nodup) ∧
    (w.failed = true → w.writes = [] ∧
      ∀ w', (machine e).Steps (fun _ _ => True) w w' → w'.started = w.started) := by
  have hc := chained_of_reachable h
  refine ⟨⟨?_, ?_⟩, ?_, ⟨?_, hc.bounded⟩, ⟨hc.history, ?_⟩, ?_⟩
  · rw [hc.writes_eq]
    split
    · exact Nat.zero_le _
    · exact List.length_take_le 1 _
  · intro frame hmem
    obtain ⟨position, hget⟩ := List.mem_iff_getElem?.mp hmem
    rw [(hc.completing hget).2.2.2, List.head?_cons]
  · intro hfailed
    rw [hc.writes_eq, hfailed]
    cases w.sendQueue <;> simp
  · intro position frame hget
    rw [(hc.completing hget).2.2.2]
    simp
  · have hnodup : (w.accepted.map Frame.number).Nodup := hc.numbered ▸ List.nodup_range
    exact List.Nodup.of_map _ hnodup
  · intro hfailed
    refine ⟨by rw [hc.writes_eq, hfailed]; rfl, fun w' => started_of_failed h hfailed⟩

/-- The chain after two sends and the first completion: the second frame is being written. -/
theorem writeChain_two_sends :
    ∃ w, (machine .little).run (fresh 32)
        [.send [7] 1, .send [8, 9] 2, .complete 0 true] = some w ∧
      w.accepted = w.written ++ w.sendQueue ∧ w.writes.length ≤ 1 := by
  refine ⟨_, rfl, ?_⟩
  have hrun : (machine .little).run (fresh 32)
      [.send [7] 1, .send [8, 9] 2, .complete 0 true] = some _ := rfl
  have h := writeChain .little (.run (.start ⟨32, rfl⟩) hrun)
  exact ⟨h.2.2.2.1.1, h.1.1⟩

end Writer

end DSFramework.DSCommunication
