import DSFramework.DSRPC.RPCServer.Lives

/-!
# The responses and their requests

What a step can do to the record of any request and of any response: a request keeps its session
and what was received, and its history only grows; a response is made by one operation, from the
request as it is then, and afterwards only its fate is settled. So every response stands in the
history of the request that it answers, `Answered`.
-/

namespace DSFramework.DSRPC

/-- What every step keeps of a request. -/
structure Grows (c c' : Request) : Prop where
  session : c'.session = c.session
  received : c'.received = c.received
  history : c.history <+: c'.history

theorem Grows.refl (c : Request) : Grows c c := ⟨rfl, rfl, List.prefix_rfl⟩

/-- A response has the error code of its event. -/
theorem response_error (serverId uuid : String) (request : RPCPacket) (event : RPCEvent) :
    (ResponseDispatcher.response serverId uuid request event).error = event.error := by
  by_cases h : event = .onDeserializedFailed
  · rw [h]
    rfl
  · rw [response_eq_createReply h, RPCPacketFactory.createReply_eq]

namespace RPCServer

section Executes

variable {C : Setting} {v v' : RPCServer} {s a : Nat} {answer : Answer} {op : RPCOp}
  {ops : List RPCOp}

theorem Executes.received (h : Executes C v s a answer op v' ops) {b : Nat} {c c' : Request}
    (hc : v.packets[b]? = some c) (hc' : v'.packets[b]? = some c') :
    c'.received = c.received := by
  have hupdate : ∀ {f : Request → Request}, v'.packets = v.packets.modify a f →
      (∀ c, (f c).received = c.received) → c'.received = c.received := by
    intro f hf hreceived
    rw [hf, List.getElem?_modify, hc] at hc'
    by_cases hab : a = b
    · simp only [if_pos hab, Option.map_eq_map, Option.map_some, Option.some.injEq] at hc'
      rw [← hc']
      exact hreceived c
    · simp only [if_neg hab, Option.map_eq_map, Option.map_some, Option.some.injEq] at hc'
      rw [← hc']
  cases h with
  | setStatus =>
    rcases record_eq hc hc' with rfl | ⟨-, rfl⟩
    · rfl
    · rfl
  | setNothing | responseRoom | responseAdd | requestLink | requestAdd | requestSub
  | knownService | terminate =>
    cases hc.symm.trans hc'
    rfl
  | initRPCPacket | addRequest | found | notFound | removeRequest | createResponse
  | responseFull | responseLink | requestRoom | requestFull | emptyService | unknownService
  | notChecked | valid | invalid | commit | invoked | missing | returned | threw
  | escaped => exact hupdate rfl fun _ => rfl

theorem Executes.grows (h : Executes C v s a answer op v' ops) {b : Nat} {c : Request}
    (hc : v.packets[b]? = some c) : ∃ c', v'.packets[b]? = some c' ∧ Grows c c' := by
  have hsome : ∃ c', v'.packets[b]? = some c' := by
    rcases h.packets with ⟨f, hf⟩ | ⟨_, _, _, p, -, -, hf⟩
    · rw [hf, List.getElem?_modify, hc]
      exact ⟨_, rfl⟩
    · rw [hf, List.getElem?_modify, hc]
      exact ⟨_, rfl⟩
  obtain ⟨c', hc'⟩ := hsome
  refine ⟨c', hc', ?_⟩
  obtain ⟨acts, htells, -⟩ := h.tells
  by_cases hba : b = a
  · subst hba
    obtain ⟨hhistory, hsession⟩ := htells c c' hc hc'
    exact ⟨hsession, h.received hc hc', hhistory ▸ List.prefix_append _ _⟩
  · rcases h.packets with ⟨f, hf⟩ | ⟨_, _, _, p, -, -, hf⟩
    · rw [hf, List.getElem?_modify_ne _ _ (Ne.symm hba), hc] at hc'
      cases hc'
      exact .refl _
    · rw [hf] at hc'
      rcases record_eq hc hc' with rfl | ⟨-, rfl⟩
      · exact .refl _
      · exact ⟨rfl, rfl, List.prefix_rfl⟩

/-- What an operation makes of the responses: it makes one, it drops one, or it leaves them. -/
theorem Executes.responses (h : Executes C v s a answer op v' ops) :
    v'.responses = v.responses ∨
    (∃ event r, op = .responseSize event r ∧ ops = [] ∧
      v.responseQueue.hasRoom C.maxResponsePaddingCount = false ∧
      v'.responses = v.responses.modify r
        fun x => { x with fate := some (.queueFull v.responseQueue.count v.heldResponses) }) ∨
    ∃ event x, op = .createResponse event ∧ ops = [.responseSize event v.responses.length] ∧
      v'.responses = v.responses ++ [x] ∧ x.session = s ∧ x.request = a ∧ x.event = event ∧
      x.packet = ResponseDispatcher.response C.serverId (C.uuid s) (v.packet a) event ∧
      (x.recorded = (v.packets[a]?).bind fun c => c.recorded.getLast?) ∧ x.fate = none := by
  cases h with
  | createResponse => exact .inr (.inr ⟨_, _, rfl, rfl, rfl, rfl, rfl, rfl, rfl, rfl, rfl⟩)
  | responseFull hroom => exact .inr (.inl ⟨_, _, rfl, rfl, hroom, rfl⟩)
  | initRPCPacket | addRequest | found | notFound | setStatus | setNothing | removeRequest
  | responseRoom | responseLink | responseAdd | requestRoom | requestFull | requestLink
  | requestAdd | requestSub | emptyService | unknownService | knownService | notChecked
  | terminate | valid | invalid | commit | invoked | missing | returned | threw
  | escaped => exact .inl rfl

end Executes

section Step

variable {C : Setting} {v v' : RPCServer} {l : RPCLabel}

/-- No request is forgotten by the history, and its record only grows. -/
theorem Moves.grows (h : Moves C v l v') {a : Nat} {c : Request} (hc : v.packets[a]? = some c) :
    ∃ c', v'.packets[a]? = some c' ∧ Grows c c' := by
  cases h with
  | deliver =>
    have hlt := (List.getElem?_eq_some_iff.mp hc).1
    exact ⟨c, by simp only [onData, List.getElem?_append_left hlt, hc], .refl c⟩
  | advance hat hexecutes => exact hexecutes.grows hc
  | sendResponse =>
    refine ⟨c, ?_, .refl c⟩
    simp only [send]
    split <;> exact hc
  | takeRequest | takeTask | takeResponse | subtractResponse | completeWrite =>
    exact ⟨c, hc, .refl c⟩

/-- What a step makes of a response. -/
theorem send_responses (C : Setting) (v : RPCServer) (s r : Nat) :
    ∃ fate, (v.send C s r).responses =
      v.responses.modify r fun x => { x with fate := some fate } := by
  unfold send
  split
  · exact ⟨_, rfl⟩
  · exact ⟨_, rfl⟩

/-- The fate that a step settles for a response, where it is settled. -/
inductive Settles (C : Setting) (v v' : RPCServer) (r : Nat) (x : Response) : Fate → Prop where
  | queueFull : v.responseQueue.hasRoom C.maxResponsePaddingCount = false →
      Settles C v v' r x (.queueFull v.responseQueue.count v.heldResponses)
  | notSerialized : C.serialize x.packet = none → Settles C v v' r x .notSerialized
  | sendQueueFull {s : Nat} : v.sending = some ⟨s, r, true⟩ →
      (v.writers s).sendQueueMaxSize.toNat ≤ (v.writers s).sendQueue.length →
      Settles C v v' r x (.sendQueueFull (v.writers s).sendQueue.length)
  | accepted {s size : Nat} {data : List UInt8} : v.sending = some ⟨s, r, true⟩ →
      C.serialize x.packet = some (data, size) →
      (v.writers s).sendQueue.length < (v.writers s).sendQueueMaxSize.toNat →
      v'.writers s = (v.writers s).send C.endian data size →
      Settles C v v' r x (.accepted ((v.writers s).frameOf C.endian data size))

/-- Sending settles the fate of the response that is sent. -/
theorem settles_send {s r : Nat} {x : Response} (hx : v.responses[r]? = some x)
    (hsending : v.sending = some ⟨s, r, true⟩) :
    ∃ fate, (v.send C s r).responses[r]? = some { x with fate := some fate } ∧
      Settles C v { v.send C s r with sending := none } r x fate := by
  have hsettle : ∀ fate, (v.settle r fate).responses[r]? =
      some { x with fate := some fate } := by
    intro fate
    simp only [settle, List.getElem?_modify_eq, hx, Option.map_eq_map, Option.map_some]
  cases hserialize : C.serialize x.packet with
  | none =>
    refine ⟨.notSerialized, ?_, .notSerialized hserialize⟩
    simp only [send, hx, Option.bind_some, hserialize, hsettle]
  | some serialized =>
    obtain ⟨data, size⟩ := serialized
    by_cases hfull : (v.writers s).sendQueueMaxSize.toNat ≤ (v.writers s).sendQueue.length
    · refine ⟨.sendQueueFull (v.writers s).sendQueue.length, ?_, .sendQueueFull hsending hfull⟩
      simp only [send, hx, Option.bind_some, hserialize, if_pos hfull, hsettle]
    · refine ⟨.accepted ((v.writers s).frameOf C.endian data size), ?_,
        .accepted hsending hserialize (Nat.lt_of_not_le hfull) ?_⟩
      · simp only [send, hx, Option.bind_some, hserialize, if_neg hfull, hsettle]
      · simp only [send, hx, Option.bind_some, hserialize, setWriter, if_true]

/-- No response is forgotten, and only its fate changes, as the code has settled it. -/
theorem Moves.fate (h : Moves C v l v') {r : Nat} {x : Response}
    (hx : v.responses[r]? = some x) : ∃ fate, v'.responses[r]? = some { x with fate := fate } ∧
      (fate = x.fate ∨ ∃ settled, fate = some settled ∧ Settles C v v' r x settled) := by
  cases h with
  | deliver | takeRequest | takeTask | takeResponse | subtractResponse | completeWrite =>
    exact ⟨x.fate, hx, .inl rfl⟩
  | @sendResponse s p hsending =>
    by_cases hpr : p = r
    · subst hpr
      obtain ⟨fate, hsent, hsettles⟩ := settles_send hx hsending
      exact ⟨some fate, hsent, .inr ⟨fate, rfl, hsettles⟩⟩
    · obtain ⟨fate, heq⟩ := send_responses C v s p
      refine ⟨x.fate, ?_, .inl rfl⟩
      show (v.send C s p).responses[r]? = some x
      rw [heq, List.getElem?_modify_ne _ _ hpr, hx]
  | @advance t s a role op rest ops answer v₁ hat hexecutes =>
    rcases hexecutes.responses with heq | ⟨event, p, -, -, hroom, heq⟩ | ⟨event, y, -, -, heq, -⟩
    · exact ⟨x.fate, heq ▸ hx, .inl rfl⟩
    · change ∃ fate, v₁.responses[r]? = _ ∧ _
      rw [heq, List.getElem?_modify, hx]
      by_cases hpr : p = r
      · refine ⟨some (.queueFull v.responseQueue.count v.heldResponses), ?_,
          .inr ⟨_, rfl, .queueFull hroom⟩⟩
        simp only [if_pos hpr, Option.map_eq_map, Option.map_some]
      · refine ⟨x.fate, ?_, .inl rfl⟩
        simp only [if_neg hpr, Option.map_eq_map, Option.map_some]
    · refine ⟨x.fate, ?_, .inl rfl⟩
      have hlt := (List.getElem?_eq_some_iff.mp hx).1
      show v₁.responses[r]? = some x
      rw [heq, List.getElem?_append_left hlt, hx]

/-- No response is forgotten, and only its fate is settled. -/
theorem Moves.response (h : Moves C v l v') {r : Nat} {x : Response}
    (hx : v.responses[r]? = some x) :
    ∃ fate, v'.responses[r]? = some { x with fate := fate } := by
  obtain ⟨fate, hx', -⟩ := h.fate hx
  exact ⟨fate, hx'⟩

/-- THE RESPONSE'S VIEW OF A STEP: a response is new, made from the request as it was, or keeps
everything but its fate. -/
theorem response_cases (h : Moves C v l v') {r : Nat} {x' : Response}
    (hx' : v'.responses[r]? = some x') :
    (∃ x fate, v.responses[r]? = some x ∧ x' = { x with fate := fate }) ∨
    ∃ t role s a event rest answer, l = .advance t answer ∧
      v.threads[t]? = some ⟨role, s, a, .createResponse event :: rest⟩ ∧
      r = v.responses.length ∧ x'.session = s ∧ x'.request = a ∧ x'.event = event ∧
      x'.packet = ResponseDispatcher.response C.serverId (C.uuid s) (v.packet a) event ∧
      (x'.recorded = (v.packets[a]?).bind fun c => c.recorded.getLast?) ∧ x'.fate = none := by
  have hsettled : ∀ {p : Nat} {fate : Fate}, v'.responses = v.responses.modify p
      (fun x => { x with fate := some fate }) →
      ∃ x fate, v.responses[r]? = some x ∧ x' = { x with fate := fate } := by
    intro p fate heq
    rw [heq, List.getElem?_modify] at hx'
    obtain ⟨x, hx, rfl⟩ := Option.map_eq_some_iff.mp hx'
    split
    · exact ⟨x, some fate, hx, rfl⟩
    · exact ⟨x, x.fate, hx, rfl⟩
  have hsame : v'.responses = v.responses →
      ∃ x fate, v.responses[r]? = some x ∧ x' = { x with fate := fate } :=
    fun heq => ⟨x', x'.fate, heq ▸ hx', rfl⟩
  cases h with
  | deliver | takeRequest | takeTask | takeResponse | subtractResponse | completeWrite =>
    exact .inl (hsame rfl)
  | @sendResponse s r =>
    obtain ⟨fate, heq⟩ := send_responses C v s r
    exact .inl (hsettled heq)
  | @advance t s a role op rest ops answer v₁ hat hexecutes =>
    rcases hexecutes.responses with heq | ⟨event, p, -, -, -, heq⟩ |
      ⟨event, x, rfl, rfl, heq, hsession, hrequest, hevent, hpacket, hrecorded, hfate⟩
    · exact .inl (hsame heq)
    · exact .inl (hsettled heq)
    · have hx'' : (v.responses ++ [x])[r]? = some x' := heq ▸ hx'
      rcases Nat.lt_or_ge r v.responses.length with hlt | hge
      · rw [List.getElem?_append_left hlt] at hx''
        exact .inl ⟨x', x'.fate, hx'', rfl⟩
      · rw [List.getElem?_append_right hge, List.getElem?_singleton] at hx''
        split at hx''
        case isTrue hzero =>
          obtain rfl := Option.some.inj hx''
          exact .inr ⟨t, role, s, a, event, rest, answer, rfl, hat, by omega, hsession, hrequest,
            hevent, hpacket, hrecorded, hfate⟩
        case isFalse => cases hx''

/-- Every response stands in its request's history, goes to its session, and has the error code of
its event. -/
def Answered (v : RPCServer) : Prop :=
  ∀ (r : Nat) x, v.responses[r]? = some x → x.packet.error = x.event.error ∧
    ∃ c, v.packets[x.request]? = some c ∧ c.session = x.session ∧ .created x.event ∈ c.history

theorem Answered.step (h : v.Answered) (hrelayed : v.Relayed) (hmoves : Moves C v l v') :
    v'.Answered := by
  intro r x' hx'
  rcases response_cases hmoves hx' with ⟨x, fate, hx, rfl⟩ |
    ⟨t, role, s, a, event, rest, answer, rfl, hat, -, rfl, rfl, rfl, hpacket, -, -⟩
  · obtain ⟨herror, c, hc, hsession, hcreated⟩ := h r x hx
    obtain ⟨c', hc', hgrows⟩ := hmoves.grows hc
    exact ⟨herror, c', hc', hgrows.session.trans hsession, hgrows.history.mem hcreated⟩
  · obtain ⟨c, hc, htold⟩ := hrelayed.working hat rfl
    refine ⟨hpacket ▸ response_error _ _ _ _, ?_⟩
    cases hmoves with
    | advance hat' hexecutes =>
      cases hat.symm.trans hat'
      cases hexecutes with
      | createResponse =>
        refine ⟨{ c with history := c.history ++ [.created x'.event] }, ?_, htold.session,
          List.mem_append_right _ (List.mem_singleton.mpr rfl)⟩
        simp only [goto, createResponse, tell, update, List.getElem?_modify_eq, hc,
          Option.map_eq_map, Option.map_some]

theorem answered_of_reachable {ok : RPCServer → RPCLabel → Prop}
    (h : (machine C).ReachableBy ok v) : v.Answered := by
  refine h.invariant_with (fun s hs => relayed_of_reachable hs) ?_ ?_
  · rintro _ ⟨_, _, -, rfl⟩ r x hx
    cases hx
  · intro _ _ _ hrelayed hanswered _ hstep
    exact hanswered.step hrelayed (moves_of_step hstep)

end Step

end RPCServer

end DSFramework.DSRPC
