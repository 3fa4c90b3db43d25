import DSFramework.DSRPC.Dispatcher.Limit
import DSFramework.DSRPC.RPCServer.Carriers

/-!
# The account of the two queues

Any thread of the server posts to the queues of the two dispatchers: it links an item and adds one
to `m_count` later. The dispatcher's thread takes an item and subtracts one later. How far a thread
is with its `Push` stands in the program that it has left: an addition without the linking before it
is of an item that has been linked and not yet counted.

`Counted` is the account of `Dispatcher`, of both queues and in the whole server: `m_count`, with
what is linked and not yet added, is what is linked or unlinked and not yet subtracted.
-/

namespace DSFramework.DSRPC

/-- The queue of the request dispatcher, and that of the response dispatcher. -/
inductive Line where
  | requests
  | responses
  deriving DecidableEq, Repr

namespace Line

/-- Does the operation link an item? -/
def links : Line → RPCOp → Bool
  | .requests, .requestLink => true
  | .responses, .responseLink _ _ => true
  | _, _ => false

/-- Does the operation add one to `m_count`? -/
def adds : Line → RPCOp → Bool
  | .requests, .requestAdd => true
  | .responses, .responseAdd => true
  | _, _ => false

/-- Does the operation subtract one from it? The response dispatcher's is a step of its own. -/
def subs : Line → RPCOp → Bool
  | .requests, .requestSub => true
  | _, _ => false

/-- What a thread has linked and not yet added: the additions that it has left, but for those of
items that it is still to link. -/
def lagging (line : Line) (ops : List RPCOp) : Nat := ops.countP line.adds - ops.countP line.links

/-- Every linking in a program has its addition behind it. -/
def Covered (line : Line) : List RPCOp → Prop
  | [] => True
  | op :: ops => (op :: ops).countP line.links ≤ (op :: ops).countP line.adds ∧ Covered line ops

variable {line : Line} {op : RPCOp} {ops rest : List RPCOp}

theorem Covered.le (h : line.Covered ops) : ops.countP line.links ≤ ops.countP line.adds := by
  cases ops with
  | nil => exact Nat.le_refl _
  | cons op ops => exact h.1

theorem covered_of_none (h : ops.countP line.links = 0) : line.Covered ops := by
  induction ops with
  | nil => trivial
  | cons op ops ih =>
    refine ⟨Nat.le_trans (Nat.le_of_eq h) (Nat.zero_le _), ih ?_⟩
    rw [List.countP_cons] at h
    omega

theorem Covered.append (h : line.Covered ops) (hrest : line.Covered rest) :
    line.Covered (ops ++ rest) := by
  induction ops with
  | nil => exact hrest
  | cons op ops ih =>
    refine ⟨?_, ih h.2⟩
    have hops := h.1
    have hle := hrest.le
    simp only [List.append_eq, List.countP_cons, List.countP_append] at hops ⊢
    omega

/-- What a thread that stands before an operation has linked and not yet added. -/
theorem Covered.lagging_cons (h : line.Covered (op :: rest)) :
    line.lagging rest + (line.adds op).toNat =
      line.lagging (op :: rest) + (line.links op).toNat := by
  have hle := h.le
  have hrest := h.2.le
  simp only [lagging, List.countP_cons] at hle ⊢
  cases hadds : line.adds op <;> cases hlinks : line.links op <;>
    simp only [hadds, hlinks, if_true, Bool.false_eq_true, if_false, Bool.toNat_true,
      Bool.toNat_false] at hle ⊢ <;> omega

/-- Whoever goes on with a linking goes on with its addition. -/
theorem lagging_append (h : ops.countP line.links = ops.countP line.adds) (rest : List RPCOp) :
    line.lagging (ops ++ rest) = line.lagging rest := by
  simp only [lagging, List.countP_append, h]
  omega

/-- Raising an event starts no posting to a queue. -/
theorem raise_plain (line : Line) (event : RPCEvent) : (raise event).countP line.links = 0 ∧
    (raise event).countP line.adds = 0 ∧ (raise event).countP line.subs = 0 := by
  cases line <;> cases event <;> decide

end Line

namespace RPCServer

/-- The queue of a dispatcher. -/
def queue (v : RPCServer) : Line → ItemQueue (Nat × Nat)
  | .requests => v.requestQueue
  | .responses => v.responseQueue

/-- What all threads have linked and not yet added. -/
def lagging (v : RPCServer) (line : Line) : Nat :=
  Threads.total (fun th => line.lagging th.call.ops) v.threads

/-- What a dispatcher's thread has unlinked and not yet subtracted. -/
def unlinked (v : RPCServer) : Line → Nat
  | .requests => Threads.total (fun th => th.call.ops.countP Line.requests.subs) v.threads
  | .responses => v.sending.toList.countP fun x => !x.counted

/-- What is linked, or unlinked and not yet subtracted. -/
def held (v : RPCServer) (line : Line) : Nat := (v.queue line).items.length + v.unlinked line

/-- THE ACCOUNT of a queue. -/
structure Counted (v : RPCServer) (line : Line) : Prop where
  covered : ∀ th ∈ v.threads, line.Covered th.call.ops
  count : (v.queue line).count + v.lagging line = v.held line

variable {C : Setting} {v v' : RPCServer} {l : RPCLabel} {line : Line}

/-- What an operation puts before the rest of its program links and adds, or has nothing to do with
the queue. -/
theorem Executes.program {s a : Nat} {answer : Answer} {op : RPCOp} {ops : List RPCOp}
    (h : Executes C v s a answer op v' ops) (line : Line) : line.Covered ops ∧
      ops.countP line.links = ops.countP line.adds ∧ ops.countP line.subs = 0 := by
  have hplain : ∀ {ops : List RPCOp}, ops.countP line.links = 0 ∧ ops.countP line.adds = 0 ∧
      ops.countP line.subs = 0 → line.Covered ops ∧ ops.countP line.links =
        ops.countP line.adds ∧ ops.countP line.subs = 0 :=
    fun ⟨hlinks, hadds, hsubs⟩ => ⟨Line.covered_of_none hlinks, hlinks.trans hadds.symm, hsubs⟩
  cases h with
  | initRPCPacket | addRequest | notFound | setStatus | setNothing | removeRequest | responseFull
  | responseLink | responseAdd | requestLink | requestAdd | requestSub | commit | escaped =>
    exact hplain ⟨rfl, rfl, rfl⟩
  | found | createResponse | knownService | terminate | valid | invoked =>
    refine hplain ?_
    cases line <;> exact ⟨rfl, rfl, rfl⟩
  | requestFull | emptyService | unknownService | notChecked | invalid | missing | returned
  | threw => exact hplain (line.raise_plain _)
  | responseRoom =>
    cases line with
    | requests => exact hplain ⟨rfl, rfl, rfl⟩
    | responses => exact ⟨⟨Nat.le_refl _, Nat.zero_le _, trivial⟩, rfl, rfl⟩
  | requestRoom =>
    obtain ⟨hlinks, -⟩ := line.raise_plain .onDispatched
    refine ⟨(Line.covered_of_none hlinks).append ?_, ?_, ?_⟩
    · cases line with
      | requests => exact ⟨Nat.le_refl _, Nat.zero_le _, trivial⟩
      | responses => exact Line.covered_of_none rfl
    · cases line <;> rfl
    · cases line <;> rfl

/-- What an operation does to a queue. -/
theorem Executes.queue {s a : Nat} {answer : Answer} {op : RPCOp} {ops : List RPCOp}
    (h : Executes C v s a answer op v' ops) (line : Line) :
    (v'.queue line).items.length = (v.queue line).items.length + (line.links op).toNat ∧
      (v'.queue line).count + (line.subs op).toNat = (v.queue line).count + (line.adds op).toNat ∧
      v'.sending = v.sending := by
  cases h with
  | requestLink =>
    cases line with
    | requests => exact ⟨List.length_append, rfl, rfl⟩
    | responses => exact ⟨rfl, rfl, rfl⟩
  | responseLink =>
    cases line with
    | requests => exact ⟨rfl, rfl, rfl⟩
    | responses => exact ⟨List.length_append, rfl, rfl⟩
  | requestAdd =>
    cases line with
    | requests => exact ⟨rfl, Int.add_zero _, rfl⟩
    | responses => exact ⟨rfl, rfl, rfl⟩
  | responseAdd =>
    cases line with
    | requests => exact ⟨rfl, rfl, rfl⟩
    | responses => exact ⟨rfl, Int.add_zero _, rfl⟩
  | requestSub =>
    cases line with
    | requests => exact ⟨rfl, (Int.sub_add_cancel _ _).trans (Int.add_zero _).symm, rfl⟩
    | responses => exact ⟨rfl, rfl, rfl⟩
  | initRPCPacket | addRequest | found | notFound | setStatus | setNothing | removeRequest
  | createResponse | responseRoom | responseFull | requestRoom | requestFull | emptyService
  | unknownService | knownService | notChecked | terminate | valid | invalid | commit | invoked
  | missing | returned | threw | escaped => cases line <;> exact ⟨rfl, rfl, rfl⟩

/-- The threads' part of the account, when one of them moves. -/
theorem lagging_goto {t : Nat} {th th' : RPCThread} (hat : v.threads[t]? = some th)
    (hthreads : v'.threads = v.threads.set t th') (line : Line) :
    v'.lagging line + line.lagging th.call.ops = v.lagging line + line.lagging th'.call.ops := by
  simp only [lagging, hthreads]
  exact Threads.total_set (fun th => line.lagging th.call.ops) hat th'

theorem unlinked_goto {t : Nat} {th th' : RPCThread} (hat : v.threads[t]? = some th)
    (hthreads : v'.threads = v.threads.set t th') (hsending : v'.sending = v.sending)
    (line : Line) : v'.unlinked line + th.call.ops.countP line.subs =
      v.unlinked line + th'.call.ops.countP line.subs := by
  cases line with
  | requests =>
    simp only [unlinked, hthreads]
    exact Threads.total_set (fun th => th.call.ops.countP Line.requests.subs) hat th'
  | responses =>
    have hnone : ∀ ops : List RPCOp, ops.countP Line.responses.subs = 0 := fun ops =>
      List.countP_eq_zero.mpr fun op _ => Bool.false_ne_true
    simp only [unlinked, hsending, hnone]

/-- A thread moves on. -/
theorem Counted.goto (h : v.Counted line) {t : Nat} {th th' : RPCThread}
    (hat : v.threads[t]? = some th) (hthreads : v'.threads = v.threads.set t th')
    (hsending : v'.sending = v.sending) (hcovered : line.Covered th'.call.ops)
    (hcount : (v'.queue line).count + line.lagging th'.call.ops + (v.queue line).items.length +
        th.call.ops.countP line.subs = (v.queue line).count + line.lagging th.call.ops +
        (v'.queue line).items.length + th'.call.ops.countP line.subs) : v'.Counted line := by
  constructor
  · intro th₁ hth₁
    rw [hthreads] at hth₁
    rcases List.mem_or_eq_of_mem_set hth₁ with hmem | rfl
    · exact h.covered th₁ hmem
    · exact hcovered
  · have hlagging := lagging_goto hat hthreads line
    have hunlinked := unlinked_goto hat hthreads hsending line
    have hbefore := h.count
    simp only [held] at hbefore ⊢
    omega

/-- A step that changes no thread's program. -/
theorem Counted.stays (h : v.Counted line) (hthreads : v'.threads = v.threads)
    (hcount : (v'.queue line).count + v.held line = (v.queue line).count + v'.held line) :
    v'.Counted line := by
  refine ⟨hthreads ▸ h.covered, ?_⟩
  have hlagging : v'.lagging line = v.lagging line := by rw [lagging, hthreads, lagging]
  have hbefore := h.count
  omega

theorem Counted.step (h : v.Counted line) (hmoves : Moves C v l v') : v'.Counted line := by
  cases hmoves with
  | @deliver t s s₀ a₀ body hat =>
    obtain ⟨hlinks, hadds, hsubs⟩ := line.raise_plain
      (if (C.parseFromArray body).isSome then .onDeserialized else .onDeserializedFailed)
    have hqueue : (v.onData C t s body).queue line = v.queue line := by cases line <;> rfl
    refine h.goto hat rfl rfl (Line.covered_of_none hlinks) ?_
    simp only [hqueue, Line.lagging, hadds, hsubs, List.countP_nil]
    omega
  | @takeRequest t s₀ a₀ s a items hat hitems =>
    obtain ⟨hlinks, hadds, hsubs⟩ := line.raise_plain .onCommited
    cases line with
    | requests =>
      refine h.goto hat rfl rfl (Line.covered_of_none hlinks) ?_
      have hnone : Line.requests.lagging (.requestSub :: raise .onCommited) = 0 := rfl
      have hone : (RPCOp.requestSub :: raise .onCommited).countP Line.requests.subs = 1 := rfl
      simp only [queue, ItemQueue.unlink, hitems, List.tail_cons, List.length_cons, hnone, hone,
        List.countP_nil]
      have hidle : Line.requests.lagging [] = 0 := rfl
      omega
    | responses =>
      refine h.goto hat rfl rfl (Line.covered_of_none hlinks) ?_
      rfl
  | @takeTask t s₀ a₀ s a serviceName tasks hat htasks =>
    refine h.goto hat rfl rfl (Line.covered_of_none ?_) ?_
    · cases line <;> rfl
    · cases line <;> rfl
  | @advance t s a role op rest ops answer v₁ hat hexecutes =>
    obtain ⟨hcovered, hpaired, hsubs⟩ := hexecutes.program line
    obtain ⟨hitems, hcount, hsending⟩ := hexecutes.queue line
    have hbefore := h.covered _ (List.mem_of_getElem? hat)
    have hlagging := hbefore.lagging_cons
    have hqueue : (v₁.goto t ⟨role, s, a, ops ++ rest⟩).queue line = v₁.queue line := by
      cases line <;> rfl
    have hthreads : (v₁.goto t ⟨role, s, a, ops ++ rest⟩).threads =
        v.threads.set t ⟨role, s, a, ops ++ rest⟩ := by
      simp only [RPCServer.goto, hexecutes.threads]
    refine h.goto hat hthreads hsending (hcovered.append hbefore.2) ?_
    simp only [hqueue, Line.lagging_append hpaired, List.countP_append, hsubs, List.countP_cons]
    cases hsub : line.subs op <;> simp only [hsub, if_true, Bool.false_eq_true, if_false,
      Bool.toNat_true, Bool.toNat_false] at hcount ⊢ <;> omega
  | takeResponse hsending hitems =>
    refine h.stays rfl ?_
    cases line with
    | requests => rfl
    | responses =>
      simp only [held, queue, unlinked, ItemQueue.unlink, hitems, hsending, List.tail_cons,
        List.length_cons, Option.toList_none, Option.toList_some]
      rfl
  | subtractResponse hsending =>
    refine h.stays rfl ?_
    cases line with
    | requests => rfl
    | responses =>
      have hbefore : v.unlinked .responses = 1 := by simp only [unlinked, hsending]; rfl
      simp only [held, hbefore, queue, ItemQueue.sub]
      simp only [unlinked, Option.toList_some, List.countP_cons, List.countP_nil, Bool.not_true,
        Bool.false_eq_true, if_false]
      omega
  | @sendResponse s r hsending =>
    have hqueue : (v.send C s r).queue line = v.queue line ∧
        (v.send C s r).threads = v.threads := by
      unfold send
      split <;> cases line <;> exact ⟨rfl, rfl⟩
    have hkept : queue { v.send C s r with sending := none } line = v.queue line := by
      cases line <;> exact hqueue.1
    refine h.stays hqueue.2 ?_
    have hheld : held { v.send C s r with sending := none } line = v.held line := by
      simp only [held, hkept]
      cases line with
      | requests => simp only [unlinked, hqueue.2]
      | responses =>
        simp only [unlinked, hsending]
        rfl
    rw [hkept, hheld]
  | completeWrite => exact h.stays rfl (by cases line <;> rfl)

/-- In every reachable state, for any number of threads. -/
theorem counted_of_reachable {ok : RPCServer → RPCLabel → Prop}
    (h : (machine C).ReachableBy ok v) (line : Line) : v.Counted line := by
  refine h.invariant (I := fun v => v.Counted line) ?_
    fun _ _ _ hcounted _ hstep => hcounted.step (moves_of_step hstep)
  rintro _ ⟨roles, services, -, rfl⟩
  have hidle : ∀ th ∈ (new roles services).threads, th.call.ops = [] := by
    intro th hth
    obtain ⟨role, -, rfl⟩ := List.mem_map.mp hth
    rfl
  have hlagging : (new roles services).lagging line = 0 := Threads.total_eq_zero.mpr
    fun th hth => by rw [hidle th hth]; rfl
  have hunlinked : (new roles services).held line = 0 := by
    cases line with
    | requests =>
      have hnone : (new roles services).unlinked .requests = 0 := Threads.total_eq_zero.mpr
        fun th hth => by rw [hidle th hth]; rfl
      rw [held, hnone]
      rfl
    | responses => rfl
  refine ⟨fun th hth => ?_, ?_⟩
  · rw [hidle th hth]
    trivial
  · rw [hlagging, hunlinked]
    cases line <;> rfl

/-- A response that finds no room on reading a count that is not negative, and that an `int` can
hold, finds as many responses as the limit linked, or unlinked and not yet subtracted. -/
theorem Counted.full (h : v.Counted .responses)
    (hfull : v.responseQueue.hasRoom C.maxResponsePaddingCount = false)
    (hpos : 0 ≤ v.responseQueue.count) (hmax : v.responseQueue.count ≤ Int32.maxValue.toInt) :
    C.maxResponsePaddingCount ≤ v.heldResponses := by
  have hread : C.maxResponsePaddingCount ≤ ItemQueue.sizeT v.responseQueue.count := by
    simpa only [ItemQueue.hasRoom, decide_eq_false_iff_not, Nat.not_lt] using hfull
  rw [Dispatcher.sizeT_of_nonneg hpos hmax] at hread
  have hcount : v.responseQueue.count + v.lagging .responses = v.heldResponses := h.count
  omega

end RPCServer

end DSFramework.DSRPC
