import DSFramework.DSRPC.RPCServer.Counts
import DSFramework.DSRPC.RPCServer.Posting

/-!
# What becomes of a response

A response that has been made is on its way to the session or its fate is settled: a thread is
about to post it, it is in the queue or in the response dispatcher's hands, or one of the guards on
the way has dropped it, or the session's send queue has accepted it. Nothing else happens to a
response, so what the guards say is all that can be said against a terminal answer's arrival.
-/

namespace DSFramework.DSRPC

open DSCommunication (Writer dscSendPacket)

/-- The event whose handler has removed the request's entry. -/
def Act.removal : Act → Option RPCEvent
  | .removed event => some event
  | _ => none

/-- The event that removes a request is terminal, and its response is made. -/
theorem lives_removed : ∀ h ∈ lives, ∀ event ∈ h.filterMap Act.removal,
    event.terminal = true ∧ .created event ∈ h := by
  decide +kernel

namespace RPCServer

/-- A response is on its way, or its fate is settled. -/
inductive Placed (v : RPCServer) (r : Nat) (x : Response) : Prop where
  | posting {th : RPCThread} {op : RPCOp} {event : RPCEvent} : th ∈ v.threads →
      op ∈ th.call.ops → op.awaits = some (event, r) → Placed v r x
  | queued : (x.session, r) ∈ v.responseQueue.items → Placed v r x
  | inHand : (x.session, r) ∈ v.inHand → Placed v r x
  | settled : x.fate.isSome = true → Placed v r x

/-- What a response's fate says of the server: which guard has dropped it, or that its frame has
been accepted. A queue was full if `m_count` could be trusted when it was read. -/
def Justified (C : Setting) (v : RPCServer) (x : Response) : Fate → Prop
  | .queueFull count held => C.maxResponsePaddingCount ≤ ItemQueue.sizeT count ∧
    (0 ≤ count → count ≤ Int32.maxValue.toInt → C.maxResponsePaddingCount ≤ held)
  | .notSerialized => C.serialize x.packet = none
  | .sendQueueFull waiting => (v.writers x.session).sendQueueMaxSize.toNat ≤ waiting
  | .accepted frame => frame ∈ (v.writers x.session).accepted ∧ ∃ data size,
      C.serialize x.packet = some (data, size) ∧
      frame.packet = dscSendPacket C.endian data (UInt16.ofInt size)

/-- What is to be posted is about the request. -/
theorem concerns_of_awaits {op : RPCOp} {event : RPCEvent} {r : Nat}
    (h : op.awaits = some (event, r)) : op.concerns = true := by
  cases op with
  | responseSize | responseLink => rfl
  | _ => cases h

/-- A response that an operation is to post is still so afterwards, or linked, or dropped. -/
theorem Executes.forward {C : Setting} {v v' : RPCServer} {s a r : Nat} {answer : Answer}
    {op : RPCOp} {ops : List RPCOp} {event : RPCEvent} (h : Executes C v s a answer op v' ops)
    (hawaits : op.awaits = some (event, r)) :
    (∃ op' ∈ ops, op'.awaits = some (event, r)) ∨ (s, r) ∈ v'.responseQueue.items ∨
      ∀ x, v'.responses[r]? = some x → x.fate.isSome = true := by
  cases h with
  | responseRoom => exact .inl ⟨_, List.mem_cons_self, hawaits⟩
  | responseFull =>
    cases hawaits
    refine .inr (.inr fun x hx => ?_)
    simp only [settle, List.getElem?_modify_eq] at hx
    obtain ⟨y, -, rfl⟩ := Option.map_eq_some_iff.mp hx
    rfl
  | responseLink =>
    cases hawaits
    exact .inr (.inl (List.mem_append_right _ (List.mem_singleton.mpr rfl)))
  | initRPCPacket | addRequest | found | notFound | setStatus | setNothing | removeRequest
  | createResponse | responseAdd | requestRoom | requestFull | requestLink | requestAdd
  | requestSub | emptyService | unknownService | knownService | notChecked | terminate | valid
  | invalid | commit | invoked | missing | returned | threw | escaped => cases hawaits

section Step

variable {C : Setting} {v v' : RPCServer} {l : RPCLabel} {r : Nat} {x x' : Response}

/-- A session's write side goes by its own steps. -/
theorem Moves.writers (h : Moves C v l v') (s : Nat) : v'.writers s = v.writers s ∨
    ∃ wl, (Writer.machine C.endian).step (v.writers s) wl = some (v'.writers s) := by
  cases h with
  | deliver | takeRequest | takeTask | takeResponse | subtractResponse => exact .inl rfl
  | advance hat hexecutes => exact .inl (congrFun hexecutes.sends.2.2 s)
  | @sendResponse s' r =>
    simp only [send]
    split
    case h_1 data size hserialize =>
      by_cases hs : s = s'
      · refine .inr ⟨.send data size, ?_⟩
        simp only [Writer.machine, setWriter, hs, if_true]
      · exact .inl (by simp only [setWriter, if_neg hs])
    case h_2 => exact .inl rfl
  | @completeWrite s' position success w hstep =>
    by_cases hs : s = s'
    · refine .inr ⟨.complete position success, ?_⟩
      simp only [setWriter, hs, if_true, hstep]
    · exact .inl (by simp only [setWriter, if_neg hs])

theorem chained_of_reachable {ok : RPCServer → RPCLabel → Prop}
    (h : (machine C).ReachableBy ok v) : ∀ s, (v.writers s).Chained := by
  refine h.invariant (I := fun v => ∀ s, (v.writers s).Chained) ?_ ?_
  · rintro _ ⟨_, _, -, rfl⟩ s
    exact Writer.chained_fresh _
  · intro v l v' hchained _ hstep s
    rcases (moves_of_step hstep).writers s with heq | ⟨wl, hwrite⟩
    · exact heq ▸ hchained s
    · exact (hchained s).step hwrite

/-- A fate stays justified. -/
theorem Justified.step {fate : Fate} (h : v.Justified C x fate) (hmoves : Moves C v l v') :
    v'.Justified C x fate := by
  have hkeeps : (v'.writers x.session).sendQueueMaxSize =
      (v.writers x.session).sendQueueMaxSize ∧
      (v.writers x.session).accepted <+: (v'.writers x.session).accepted := by
    rcases hmoves.writers x.session with heq | ⟨wl, hwrite⟩
    · rw [heq]
      exact ⟨rfl, List.prefix_rfl⟩
    · exact Writer.step_keeps hwrite
  cases fate with
  | queueFull | notSerialized => exact h
  | sendQueueFull waiting =>
    rw [Justified, hkeeps.1]
    exact h
  | accepted frame => exact ⟨hkeeps.2.mem h.1, h.2⟩

/-- A fate is justified when it is settled. -/
theorem Settles.justified {fate : Fate} (h : Settles C v v' r x fate) (hposting : v.Posting)
    (hcounted : v.Counted .responses) (hmoves : Moves C v l v')
    (hx : v.responses[r]? = some x) : v'.Justified C x fate := by
  have hsession : ∀ {s : Nat}, v.sending = some ⟨s, r, true⟩ → s = x.session := by
    intro s hsending
    obtain ⟨dealt, hline, -⟩ := hposting.inLine
    have hposted : (s, r) ∈ v.posts := by
      rw [hline]
      simp only [inHand, hsending, Option.toList_some, List.map_cons, List.map_nil,
        List.mem_append, List.mem_singleton, true_or, or_true]
    obtain ⟨y, hy, hsession⟩ := hposting.known _ hposted
    cases hx.symm.trans hy
    exact hsession.symm
  cases h with
  | queueFull hroom =>
    refine ⟨?_, hcounted.full hroom⟩
    simpa only [ItemQueue.hasRoom, decide_eq_false_iff_not, Nat.not_lt] using hroom
  | notSerialized hserialize => exact hserialize
  | sendQueueFull hsending hfull =>
    obtain rfl := hsession hsending
    have hnow : v.Justified C x (.sendQueueFull (v.writers x.session).sendQueue.length) := hfull
    exact hnow.step hmoves
  | accepted hsending hserialize hroom hwriter =>
    obtain rfl := hsession hsending
    refine ⟨?_, _, _, hserialize, rfl⟩
    rw [hwriter]
    exact Writer.mem_accepted_send hroom _ _ _

/-- A thread that a step does not set is there afterwards. -/
theorem mem_set_threads {t : Nat} {th th₀ : RPCThread} (hat : v.threads[t]? = some th₀)
    (hth : th ∈ v.threads) (th' : RPCThread) : th = th₀ ∨ th ∈ v.threads.set t th' := by
  obtain ⟨i, hi⟩ := List.mem_iff_getElem?.mp hth
  by_cases hti : t = i
  · subst hti
    exact .inl (Option.some.inj (hi.symm.trans hat))
  · exact .inr (List.mem_of_getElem? ((List.getElem?_set_ne hti).trans hi))

/-- What a thread is to post. -/
theorem Placed.posting_step {th : RPCThread} {op : RPCOp} {event : RPCEvent} (hth : th ∈ v.threads)
    (hop : op ∈ th.call.ops) (hawaits : op.awaits = some (event, r)) (hposting : v.Posting)
    (hx : v.responses[r]? = some x) (hmoves : Moves C v l v')
    (hx' : v'.responses[r]? = some x') (hsession : x'.session = x.session) :
    v'.Placed r x' := by
  cases hmoves with
  | takeResponse | subtractResponse | completeWrite => exact .posting hth hop hawaits
  | @sendResponse s p =>
    have hsame : th ∈ (v.send C s p).threads := (send_frame C v s p).2.1 ▸ hth
    exact .posting hsame hop hawaits
  | deliver hat | takeRequest hat | takeTask hat =>
    rcases mem_set_threads hat hth _ with rfl | hmem
    · cases hop
    · exact .posting hmem hop hawaits
  | @advance t s a role op₁ rest ops answer v₁ hat hexecutes =>
    rcases mem_set_threads hat hth ⟨role, s, a, ops ++ rest⟩ with rfl | hmem
    · have hmoved : ⟨role, s, a, ops ++ rest⟩ ∈ (v₁.goto t ⟨role, s, a, ops ++ rest⟩).threads := by
        rw [← hexecutes.threads] at hat
        exact List.mem_of_getElem? (List.getElem?_set_self (List.getElem?_eq_some_iff.mp hat).1)
      rcases List.mem_cons.mp hop with rfl | hrest
      · obtain ⟨y, hy, hsession', -⟩ :=
          hposting.awaited _ hth _ List.mem_cons_self event r hawaits
        cases hx.symm.trans hy
        have hto : x'.session = s := hsession.trans hsession'
        rcases hexecutes.forward hawaits with ⟨op', hop', hawaits'⟩ | hlinked | hdropped
        · exact .posting hmoved (List.mem_append_left _ hop') hawaits'
        · exact .queued (hto ▸ hlinked)
        · exact .settled (hdropped x' hx')
      · exact .posting hmoved (List.mem_append_right _ hrest) hawaits
    · rw [← hexecutes.threads] at hmem
      exact .posting hmem hop hawaits

/-- A response that is there stays placed. -/
theorem Placed.step (h : v.Placed r x) (hposting : v.Posting) (hx : v.responses[r]? = some x)
    (hmoves : Moves C v l v') {fate : Option Fate}
    (hx' : v'.responses[r]? = some { x with fate := fate })
    (hfate : fate = x.fate ∨ fate.isSome = true) : v'.Placed r { x with fate := fate } := by
  cases h with
  | posting hth hop hawaits => exact .posting_step hth hop hawaits hposting hx hmoves hx' rfl
  | settled hsome => exact .settled (hfate.elim (· ▸ hsome) id)
  | inHand hmem =>
    cases hmoves with
    | deliver | takeRequest | takeTask | completeWrite => exact .inHand hmem
    | takeResponse hsending =>
      simp only [RPCServer.inHand, hsending, Option.toList_none, List.map_nil,
        List.not_mem_nil] at hmem
    | subtractResponse hsending =>
      apply Placed.inHand
      simpa only [RPCServer.inHand, hsending, Option.toList_some, List.map_cons, List.map_nil]
        using hmem
    | @sendResponse s p hsending =>
      simp only [RPCServer.inHand, hsending, Option.toList_some, List.map_cons, List.map_nil,
        List.mem_singleton, Prod.mk.injEq] at hmem
      obtain ⟨-, rfl⟩ := hmem
      obtain ⟨settled, hsent, -⟩ := settles_send (C := C) hx hsending
      have heq : some { x with fate := fate } = some { x with fate := some settled } :=
        hx'.symm.trans hsent
      exact .settled (congrArg (fun y => (Option.map Response.fate y).join.isSome) heq)
    | advance hat hexecutes =>
      apply Placed.inHand
      simpa only [RPCServer.inHand, goto, hexecutes.sends.1] using hmem
  | queued hmem =>
    cases hmoves with
    | deliver | takeRequest | takeTask | completeWrite | subtractResponse => exact .queued hmem
    | takeResponse hsending hitems =>
      rw [hitems] at hmem
      rcases List.mem_cons.mp hmem with heq | htail
      · apply Placed.inHand
        simp only [RPCServer.inHand, Option.toList_some, List.map_cons, List.map_nil, heq,
          List.mem_singleton]
      · apply Placed.queued
        simpa only [ItemQueue.unlink, hitems, List.tail_cons] using htail
    | sendResponse hsending =>
      apply Placed.queued
      exact (send_frame C v _ _).2.2.2.1 ▸ hmem
    | advance hat hexecutes =>
      apply Placed.queued
      rcases hexecutes.posts with ⟨event, p, rfl, rfl⟩ | ⟨-, hitems, -⟩
      · exact List.mem_append_left _ hmem
      · exact hitems ▸ hmem

/-- THE INVARIANT of the delivery: every response is placed, and every settled fate justified. -/
structure Delivering (C : Setting) (v : RPCServer) : Prop where
  placed : ∀ (r : Nat) x, v.responses[r]? = some x → v.Placed r x
  justified : ∀ (r : Nat) x fate, v.responses[r]? = some x → x.fate = some fate →
    v.Justified C x fate

theorem Delivering.step (h : v.Delivering C) (hposting : v.Posting)
    (hcounted : v.Counted .responses) (hmoves : Moves C v l v') : v'.Delivering C := by
  have hcases : ∀ {r : Nat} {x' : Response}, v'.responses[r]? = some x' →
      v'.Placed r x' ∧ ∀ fate, x'.fate = some fate → v'.Justified C x' fate := by
    intro r x' hx'
    rcases response_cases hmoves hx' with ⟨x, _, hx, -⟩ |
      ⟨t, role, s, a, event, rest, answer, rfl, hat, rfl, -, -, -, -, -, hnone⟩
    · obtain ⟨fate, hfate, hkind⟩ := hmoves.fate hx
      obtain rfl := Option.some.inj (hx'.symm.trans hfate)
      refine ⟨(h.placed r x hx).step hposting hx hmoves hfate (hkind.imp_right ?_), fun f hf => ?_⟩
      · rintro ⟨settled, rfl, -⟩
        rfl
      · rcases hkind with rfl | ⟨settled, rfl, hsettles⟩
        · have hsame := (h.justified r x f hx hf).step hmoves
          cases f <;> exact hsame
        · cases hf
          have hnew := hsettles.justified hposting hcounted hmoves hx
          cases f <;> exact hnew
    · refine ⟨?_, fun fate hfate => ?_⟩
      · cases hmoves with
        | @advance _ _ _ _ _ rest₁ ops answer v₁ hat' hexecutes =>
          cases hat.symm.trans hat'
          have hawaits : (RPCOp.responseSize event v.responses.length).awaits =
              some (event, v.responses.length) := rfl
          refine .posting (List.mem_of_getElem? (List.getElem?_set_self ?_)) ?_ hawaits
          · rw [hexecutes.threads]
            exact (List.getElem?_eq_some_iff.mp hat).1
          · cases hexecutes
            exact List.mem_cons_self
      · rw [hnone] at hfate
        cases hfate
  exact ⟨fun r x hx => (hcases hx).1, fun r x fate hx hfate => (hcases hx).2 fate hfate⟩

theorem delivering_of_reachable {ok : RPCServer → RPCLabel → Prop}
    (h : (machine C).ReachableBy ok v) : v.Delivering C := by
  refine h.invariant_with (J := fun v => v.Posting ∧ v.Counted .responses)
    (fun s hs => ⟨posting_of_reachable hs, counted_of_reachable hs .responses⟩) ?_ ?_
  · rintro _ ⟨_, _, -, rfl⟩
    exact ⟨fun r x hx => (by cases hx), fun r x fate hx => (by cases hx)⟩
  · intro _ _ _ ⟨hposting, hcounted⟩ hdelivering _ hstep
    exact hdelivering.step hposting hcounted (moves_of_step hstep)

/-- The responses that the histories say have been made are there. -/
def Made (v : RPCServer) : Prop :=
  ∀ (a : Nat) c, v.packets[a]? = some c → ∀ event, .created event ∈ c.history →
    ∃ (r : Nat) (x : Response), v.responses[r]? = some x ∧ x.request = a ∧ x.event = event

theorem made_of_reachable {ok : RPCServer → RPCLabel → Prop}
    (h : (machine C).ReachableBy ok v) : v.Made := by
  refine h.invariant (I := Made) ?_ ?_
  · rintro _ ⟨_, _, -, rfl⟩ a c hc
    cases hc
  intro v l v' hmade _ hstep b c' hc' event hmem
  have hmoves := moves_of_step hstep
  have hold : ∀ {c : Request}, v.packets[b]? = some c → .created event ∈ c.history →
      ∃ (r : Nat) (x : Response), v'.responses[r]? = some x ∧ x.request = b ∧
        x.event = event := by
    intro c hc hbefore
    obtain ⟨r, x, hx, hrequest, hevent⟩ := hmade b c hc event hbefore
    obtain ⟨fate, hx'⟩ := hmoves.response hx
    exact ⟨r, _, hx', hrequest, hevent⟩
  rcases hmoves.history hc' with ⟨c, hc, heq⟩ | ⟨-, heq⟩ |
    ⟨t, role, s, op, rest, answer, ops, v₁, act, c, -, -, hexecutes, hresponses, htells, hc, heq⟩
  · exact hold hc (heq ▸ hmem)
  · rw [heq] at hmem
    cases hmem
  · rw [heq, List.mem_append, List.mem_singleton] at hmem
    rcases hmem with hmem | rfl
    · exact hold hc hmem
    · rw [hresponses]
      cases hexecutes with
      | createResponse =>
        obtain rfl := beq_iff_eq.mp htells
        exact ⟨_, _, List.getElem?_concat_length, rfl, rfl⟩
      | _ => cases htells

end Step

/-- What becomes of the terminal answers, in every reachable state, for any packets, threads and
interleaving and whatever the called functions do: once a request has been removed by the manager
and nobody has it in hand, there is a response to its terminal event for its session, and it is in
the response dispatcher's queue, or being sent, or its frame has been accepted by the session's
send queue and waits there or has been written, or one of three guards has dropped it: the response
queue was full (where `m_count` was not negative, and one that an `int` can hold, as many responses
as the limit were linked, or unlinked and not yet subtracted), the packet could not be serialized,
or the send queue was full. Where generated ids are fresh and the called functions leave the
request's id as it is, it bears the event's status. -/
theorem delivery_of_reachable (C : Setting) {v : RPCServer} (h : (machine C).Reachable v)
    {a : Nat} {c : Request} {event : RPCEvent} (hc : v.packets[a]? = some c)
    (hremoved : .removed event ∈ c.history) (hnobody : ∀ k ∈ v.carriers, k.holds ≠ some a) :
    ∃ r x, v.responses[r]? = some x ∧ x.session = c.session ∧ x.request = a ∧
      x.event = event ∧ event.terminal = true ∧
      ((machine C).ReachableBy (fun v l => v.keepsIds l = true) v →
        x.packet.status = event.status) ∧
      ((c.session, r) ∈ v.responseQueue.items ∨
        (∃ counted, v.sending = some ⟨c.session, r, counted⟩) ∨
        ∃ fate, x.fate = some fate ∧ match fate with
          | .accepted frame =>
            (∃ data size, C.serialize x.packet = some (data, size) ∧
              frame.packet = dscSendPacket C.endian data (UInt16.ofInt size)) ∧
            (frame ∈ (v.writers c.session).sendQueue ∨ frame ∈ (v.writers c.session).written)
          | .queueFull count held => C.maxResponsePaddingCount ≤ ItemQueue.sizeT count ∧
            (0 ≤ count → count ≤ Int32.maxValue.toInt → C.maxResponsePaddingCount ≤ held)
          | .notSerialized => C.serialize x.packet = none
          | .sendQueueFull waiting =>
            (v.writers c.session).sendQueueMaxSize.toNat ≤ waiting) := by
  have hover := (relayed_of_reachable h).done a c hc hnobody
  obtain ⟨hterminal, hcreated⟩ := lives_removed _ hover event
    (List.mem_filterMap.mpr ⟨_, hremoved, rfl⟩)
  obtain ⟨r, x, hx, rfl, rfl⟩ := made_of_reachable h a c hc event hcreated
  obtain ⟨-, c', hc', hsession, -⟩ := answered_of_reachable h r x hx
  cases hc.symm.trans hc'
  have hdelivering := delivering_of_reachable h
  refine ⟨r, x, hx, hsession.symm, rfl, rfl, hterminal,
    fun hkeeps => status_of_reachable hkeeps r x hx, ?_⟩
  rw [hsession]
  cases hdelivering.placed r x hx with
  | posting hth hop hawaits =>
    -- the thread would have the request in hand
    obtain ⟨y, hy, -, hrequest, -⟩ := (posting_of_reachable h).awaited _ hth _ hop _ _ hawaits
    cases hx.symm.trans hy
    refine absurd ?_ (hnobody _ (List.mem_append_left _ (List.mem_map.mpr ⟨_, hth, rfl⟩)))
    rw [hrequest]
    exact Call.holds_of_concerns hop (concerns_of_awaits hawaits)
  | queued hmem => exact .inl hmem
  | inHand hmem =>
    obtain ⟨sending, hsending, heq⟩ := List.mem_map.mp hmem
    obtain ⟨hs, hr⟩ := Prod.mk.inj heq
    refine .inr (.inl ⟨sending.counted, ?_⟩)
    rw [Option.mem_toList.mp hsending, ← hs, ← hr]
  | settled hsome =>
    obtain ⟨fate, hfate⟩ := Option.isSome_iff_exists.mp hsome
    have hjustified := hdelivering.justified r x fate hx hfate
    refine .inr (.inr ⟨fate, hfate, ?_⟩)
    cases fate with
    | queueFull | notSerialized | sendQueueFull => exact hjustified
    | accepted frame =>
      obtain ⟨haccepted, hserialized⟩ := hjustified
      rw [(chained_of_reachable h x.session).history, List.mem_append] at haccepted
      exact ⟨hserialized, haccepted.symm⟩

/-- A request is completed and its answer written to the session's queue. -/
theorem delivery_of_reachable_one :
    ∃ v, (machine (sampleSetting 8 8)).run (new [.io 0, .worker] [("a", 0)])
        (oneRequest samplePacket 15 10 9 ++ sendResponses 4) = some v ∧
      ∃ (r : Nat) (x : Response), v.responses[r]? = some x ∧ x.request = 0 ∧
        x.event = .onCompleted ∧ x.packet.status = .completed := by
  have hruns : ((machine (sampleSetting 8 8)).run (new [.io 0, .worker] [("a", 0)])
      (oneRequest samplePacket 15 10 9 ++ sendResponses 4)).any (fun v =>
        (v.packets[0]?).any (fun c => c.history.contains (.removed .onCompleted)) = true ∧
          ∀ k ∈ v.carriers, k.holds ≠ some 0) = true := by
    decide +kernel
  obtain ⟨v, hrun, hv⟩ := (Option.any_eq_true _ _).mp hruns
  obtain ⟨hremoved, hnobody⟩ := of_decide_eq_true hv
  obtain ⟨c, hc, hmem⟩ := (Option.any_eq_true _ _).mp hremoved
  have hstart : (machine (sampleSetting 8 8)).init (new [.io 0, .worker] [("a", 0)]) :=
    ⟨_, _, by decide, rfl⟩
  obtain ⟨r, x, hx, -, hrequest, hevent, -, hstatus, -⟩ :=
    delivery_of_reachable (sampleSetting 8 8) (.run (.start hstart) hrun) hc
      (List.contains_iff_mem.mp hmem) hnobody
  refine ⟨v, hrun, r, x, hx, hrequest, hevent, ?_⟩
  exact hstatus (.run (fun _ _ hok => hok) (.start hstart) (by decide +kernel) hrun)

/-- Is a request forgotten by the manager and out of everybody's hands, its session open, and its
answer to the event neither queued nor being sent nor among the accepted frames? -/
def unanswered (C : Setting) (v : RPCServer) (a : Nat) (event : RPCEvent) : Bool :=
  (v.packets[a]?).any fun c =>
    c.history.contains (.removed event) && v.carriers.all (fun k => k.holds != some a) &&
      !(v.writers c.session).closed && v.responses.zipIdx.all fun (x, r) =>
        x.request != a || x.event != event ||
          (!v.responseQueue.items.contains (c.session, r) && !v.inHand.contains (c.session, r) &&
            (C.serialize x.packet).all fun (data, size) => (v.writers c.session).accepted.all
              fun frame => frame.packet != dscSendPacket C.endian data (UInt16.ofInt size))

/-- So many frames that are no packets are received and answered, and no write completes. -/
def unparsed (count : Nat) : List RPCLabel :=
  (List.replicate count (.deliver 1 [0] :: List.replicate 4 (.advance 1 {}) ++
    sendResponses 1)).flatten

/-- A completed request is unanswered when the response queue has room for one response, which its
first response takes, and also when 29 frames wait in the session's send queue, whose last places
its first responses take. -/
theorem unanswered_of_full_queues :
    ((machine (sampleSetting 8 1)).run (new [.io 0, .worker] [("a", 0)])
      (oneRequest samplePacket 13 8 7)).any
        (fun v => unanswered (sampleSetting 8 1) v 0 .onCompleted) = true ∧
    ((machine (sampleSetting 8 8)).run (new [.io 0, .worker] [("a", 0)])
      (unparsed 29 ++ oneRequest samplePacket 15 10 9 ++ sendResponses 4)).any
        (fun v => unanswered (sampleSetting 8 8) v 29 .onCompleted) = true := by
  constructor <;> decide +kernel

end RPCServer

end DSFramework.DSRPC
