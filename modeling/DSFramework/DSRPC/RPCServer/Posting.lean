import DSFramework.DSRPC.RPCServer.Stamps

/-!
# The order of the responses

A request's responses are posted by up to three threads. They are posted in the order of its
history all the same, since the request is in one place at a time, and what has been posted passes
the queue and the response dispatcher in order: `posts` is what has been dealt with, what is being
sent and what waits. So the packets that a session is handed for one request are, in order, some of
those that its history has posted.
-/

namespace DSFramework.DSRPC

/-- The event whose response is posted in an act. -/
def Act.posts : Act → Option RPCEvent
  | .posted event => some event
  | _ => none

/-- The response that the operation is still to post. -/
def RPCOp.awaits : RPCOp → Option (RPCEvent × Nat)
  | .responseSize event r | .responseLink event r => some (event, r)
  | _ => none

/-- The statuses of what is posted: three announcements and an end, or an announcement and the
refusal. -/
theorem beginnings_posted : ∀ h ∈ beginnings,
    if .refused ∈ h then
      ((h.filterMap Act.posts).map RPCEvent.status).Sublist [.submitted, .failed]
    else
      ((h.filterMap Act.posts).map RPCEvent.status).Sublist
        [.submitted, .waiting, .commited, .completed] ∨
      ((h.filterMap Act.posts).map RPCEvent.status).Sublist
        [.submitted, .waiting, .commited, .failed] := by
  decide +kernel

/-- A frame that is no packet is given no id. -/
theorem beginnings_unnamed : ∀ h ∈ beginnings, .created .onDeserializedFailed ∈ h →
    .assigned ∉ h := by
  decide +kernel

/-- No handler starts in the middle of posting. -/
theorem raise_awaits (event : RPCEvent) : ∀ op ∈ raise event, op.awaits = none := by
  cases event <;> decide

namespace RPCServer

section Executes

variable {C : Setting} {v v' : RPCServer} {s a : Nat} {answer : Answer} {op : RPCOp}
  {ops : List RPCOp}

/-- What is to be posted after an operation was so before, or is the response just made. -/
theorem Executes.awaits (h : Executes C v s a answer op v' ops) {event : RPCEvent} {r : Nat}
    {op' : RPCOp} (hop' : op' ∈ ops) (hawaits : op'.awaits = some (event, r)) :
    op.awaits = some (event, r) ∨ (op = .createResponse event ∧ r = v.responses.length) := by
  have hraise : ∀ {e : RPCEvent}, op' ∈ raise e → False := by
    intro e hmem
    rw [raise_awaits e op' hmem] at hawaits
    cases hawaits
  cases h with
  | initRPCPacket | addRequest | notFound | setStatus | setNothing | removeRequest | responseFull
  | responseLink | responseAdd | requestLink | requestAdd | requestSub | commit | escaped =>
    cases hop'
  | found | knownService | terminate | valid | invoked =>
    rw [List.mem_singleton.mp hop'] at hawaits
    cases hawaits
  | createResponse =>
    rw [List.mem_singleton.mp hop'] at hawaits
    cases hawaits
    exact .inr ⟨rfl, rfl⟩
  | responseRoom =>
    rcases List.mem_pair.mp hop' with rfl | rfl
    · exact .inl hawaits
    · cases hawaits
  | requestRoom =>
    rcases List.mem_append.mp hop' with hmem | hmem
    · exact (hraise hmem).elim
    · rcases List.mem_pair.mp hmem with rfl | rfl <;> cases hawaits
  | requestFull | emptyService | unknownService | notChecked | invalid | missing | returned
  | threw => exact (hraise hop').elim

/-- One operation posts; the others leave the posts and what the histories say of them alone. -/
theorem Executes.posts (h : Executes C v s a answer op v' ops) :
    (∃ event r, op = .responseLink event r ∧ v' = v.responseLink s a event r) ∨
    (v'.posts = v.posts ∧ v'.responseQueue.items = v.responseQueue.items ∧
      ∀ (b : Nat) c', v'.packets[b]? = some c' → ∃ c, v.packets[b]? = some c ∧
        c'.history.filterMap Act.posts = c.history.filterMap Act.posts) := by
  by_cases hlink : ∃ event r, op = .responseLink event r
  · obtain ⟨event, r, rfl⟩ := hlink
    cases h
    exact .inl ⟨_, _, rfl, rfl⟩
  refine .inr ⟨?_, ?_, fun b c' hc' => ?_⟩
  · cases h <;> first | rfl | exact absurd ⟨_, _, rfl⟩ hlink
  · cases h <;> first | rfl | exact absurd ⟨_, _, rfl⟩ hlink
  · obtain ⟨c, hc, heq | ⟨act, htells, -, heq⟩⟩ := h.history hc'
    · exact ⟨c, hc, heq ▸ rfl⟩
    · have hact : act.posts = none := by
        cases act with
        | posted event =>
          cases op with
          | responseLink event' r => exact absurd ⟨_, _, rfl⟩ hlink
          | _ => cases htells
        | _ => rfl
      refine ⟨c, hc, ?_⟩
      rw [heq, List.filterMap_append, List.filterMap_cons_none hact, List.filterMap_nil,
        List.append_nil]

theorem Executes.sends (h : Executes C v s a answer op v' ops) :
    v'.sending = v.sending ∧ v'.sends = v.sends ∧ v'.writers = v.writers := by
  cases h <;> exact ⟨rfl, rfl, rfl⟩

end Executes

section Step

variable {C : Setting} {v v' : RPCServer} {l : RPCLabel}

/-- Every response that is still to be posted is one to its call's request. -/
def Awaited (v : RPCServer) : Prop :=
  ∀ th ∈ v.threads, ∀ op ∈ th.call.ops, ∀ event r, op.awaits = some (event, r) →
    ∃ x, v.responses[r]? = some x ∧ x.session = th.call.session ∧
      x.request = th.call.request ∧ x.event = event

theorem Awaited.step (h : v.Awaited) (hmoves : Moves C v l v') : v'.Awaited := by
  have hold : ∀ th ∈ v.threads, ∀ op ∈ th.call.ops, ∀ event r, op.awaits = some (event, r) →
      ∃ x, v'.responses[r]? = some x ∧ x.session = th.call.session ∧
        x.request = th.call.request ∧ x.event = event := by
    intro th hth op hop event r hawaits
    obtain ⟨x, hx, hfor⟩ := h th hth op hop event r hawaits
    obtain ⟨fate, hx'⟩ := hmoves.response hx
    exact ⟨_, hx', hfor⟩
  intro th hth op hop event r hawaits
  cases hmoves with
  | takeResponse | subtractResponse | completeWrite => exact hold th hth op hop event r hawaits
  | sendResponse =>
    refine hold th ?_ op hop event r hawaits
    simp only [send] at hth
    split at hth <;> exact hth
  | deliver =>
    rcases List.mem_or_eq_of_mem_set hth with hmem | rfl
    · exact hold th hmem op hop event r hawaits
    · rw [raise_awaits _ op hop] at hawaits
      cases hawaits
  | takeRequest =>
    rcases List.mem_or_eq_of_mem_set hth with hmem | rfl
    · exact hold th hmem op hop event r hawaits
    · rcases List.mem_cons.mp hop with rfl | hmem
      · cases hawaits
      · rw [raise_awaits _ op hmem] at hawaits
        cases hawaits
  | takeTask =>
    rcases List.mem_or_eq_of_mem_set hth with hmem | rfl
    · exact hold th hmem op hop event r hawaits
    · rw [List.mem_singleton.mp hop] at hawaits
      cases hawaits
  | @advance t s a role op₁ rest ops answer v₁ hat hexecutes =>
    simp only [goto, hexecutes.threads] at hth
    rcases List.mem_or_eq_of_mem_set hth with hmem | rfl
    · exact hold th hmem op hop event r hawaits
    · rcases List.mem_append.mp hop with hnew | hrest
      · rcases hexecutes.awaits hnew hawaits with hbefore | ⟨rfl, rfl⟩
        · exact hold _ (List.mem_of_getElem? hat) op₁ List.mem_cons_self event r hbefore
        · cases hexecutes
          exact ⟨_, List.getElem?_concat_length, rfl, rfl, rfl⟩
      · exact hold _ (List.mem_of_getElem? hat) op (List.mem_cons_of_mem _ hrest) event r hawaits

/-- The event of a posted response, if it answers request `a`. -/
def about (v : RPCServer) (a : Nat) (item : Nat × Nat) : Option RPCEvent :=
  (v.responses[item.2]?).bind fun x => if x.request = a then some x.event else none

/-- What the response dispatcher has in hand. -/
def inHand (v : RPCServer) : List (Nat × Nat) :=
  v.sending.toList.map fun x => (x.session, x.response)

/-- THE INVARIANT of the posts: what the histories say has been posted, in this order for each
request; and nothing overtakes on the way to the sessions. -/
structure Posting (v : RPCServer) : Prop where
  awaited : v.Awaited
  known : ∀ item ∈ v.posts, ∃ x, v.responses[item.2]? = some x ∧ x.session = item.1
  inLine : ∃ dealt, v.posts = dealt ++ v.inHand ++ v.responseQueue.items ∧ v.sends.Sublist dealt
  told : ∀ (a : Nat) c, v.packets[a]? = some c →
    v.posts.filterMap (v.about a) = c.history.filterMap Act.posts

/-- What a post is about never changes. -/
theorem Posting.about_eq (h : v.Posting) (hmoves : Moves C v l v') (a : Nat) :
    v.posts.filterMap (v'.about a) = v.posts.filterMap (v.about a) := by
  apply List.filterMap_congr
  intro item hitem
  obtain ⟨x, hx, -⟩ := h.known item hitem
  obtain ⟨fate, hx'⟩ := hmoves.response hx
  simp only [about, hx, hx', Option.bind_some]

theorem Posting.known_step (h : v.Posting) (hmoves : Moves C v l v') {item : Nat × Nat}
    (hitem : item ∈ v.posts) : ∃ x, v'.responses[item.2]? = some x ∧ x.session = item.1 := by
  obtain ⟨x, hx, hsession⟩ := h.known item hitem
  obtain ⟨fate, hx'⟩ := hmoves.response hx
  exact ⟨_, hx', hsession⟩

/-- A step that posts and sends nothing. -/
theorem Posting.still (h : v.Posting) (hmoves : Moves C v l v') (hposts : v'.posts = v.posts)
    (hitems : v'.inHand ++ v'.responseQueue.items = v.inHand ++ v.responseQueue.items)
    (hsends : v'.sends = v.sends)
    (htold : ∀ (a : Nat) c', v'.packets[a]? = some c' →
      v.posts.filterMap (v.about a) = c'.history.filterMap Act.posts) : v'.Posting := by
  refine ⟨h.awaited.step hmoves, fun item hitem => h.known_step hmoves (hposts ▸ hitem), ?_,
    fun a c' hc' => ?_⟩
  · obtain ⟨dealt, hline, hsent⟩ := h.inLine
    refine ⟨dealt, ?_, hsends ▸ hsent⟩
    rw [hposts, hline, List.append_assoc, List.append_assoc, hitems]
  · rw [hposts, h.about_eq hmoves, htold a c' hc']

/-- Nothing is posted about a request that has not been received. -/
theorem Posting.about_nothing (h : v.Posting) (hanswered : v.Answered) {a : Nat}
    (ha : v.packets.length ≤ a) : v.posts.filterMap (v.about a) = [] := by
  apply List.filterMap_eq_nil_iff.mpr
  intro item hitem
  obtain ⟨x, hx, -⟩ := h.known item hitem
  obtain ⟨-, c, hc, -⟩ := hanswered item.2 x hx
  have hlt := (List.getElem?_eq_some_iff.mp hc).1
  simp only [about, hx, Option.bind_some, if_neg (Nat.ne_of_lt (Nat.lt_of_lt_of_le hlt ha))]

/-- A response is posted: in the queue, and in its request's history. -/
theorem Posting.link (h : v.Posting) {t s a r : Nat} {role : Role} {event : RPCEvent}
    {rest : List RPCOp} (hmoves : Moves C v l v')
    (hat : v.threads[t]? = some ⟨role, s, a, .responseLink event r :: rest⟩)
    (hv' : v' = (v.responseLink s a event r).goto t ⟨role, s, a, rest⟩) : v'.Posting := by
  obtain ⟨x, hx, hsession, hrequest, hevent⟩ := h.awaited _ (List.mem_of_getElem? hat) _
    List.mem_cons_self event r rfl
  have habout : ∀ b : Nat, v.about b (s, r) = if a = b then some event else none := by
    intro b
    simp only [about, hx, Option.bind_some, hrequest, hevent]
  have hresponses : v'.about = v.about := by
    rw [hv']
    rfl
  have hposts : v'.posts = v.posts ++ [(s, r)] := by
    rw [hv']
    rfl
  refine ⟨h.awaited.step hmoves, fun item hitem => ?_, ?_, fun b c' hc' => ?_⟩
  · rw [hposts] at hitem
    rcases List.mem_append.mp hitem with hmem | hmem
    · exact h.known_step hmoves hmem
    · obtain rfl := List.mem_singleton.mp hmem
      obtain ⟨fate, hx'⟩ := hmoves.response hx
      exact ⟨_, hx', hsession⟩
  · obtain ⟨dealt, hline, hsent⟩ := h.inLine
    refine ⟨dealt, ?_, by rw [hv']; exact hsent⟩
    rw [hposts, hline, hv', List.append_assoc]
    rfl
  · have hc'' : (v.packets.modify a fun c => { c with
        history := c.history ++ [.posted event] })[b]? = some c' := by
      rw [hv'] at hc'
      exact hc'
    rw [List.getElem?_modify] at hc''
    obtain ⟨c, hc, rfl⟩ := Option.map_eq_some_iff.mp hc''
    rw [hposts, hresponses, List.filterMap_append, h.told b c hc, List.filterMap_cons, habout]
    by_cases hab : a = b
    · simp only [if_pos hab, List.filterMap_append, List.filterMap_cons, Act.posts,
        List.filterMap_nil]
    · simp only [if_neg hab, List.filterMap_nil, List.append_nil]

/-- Sending leaves what has been received and posted, and the threads, alone. -/
theorem send_frame (C : Setting) (v : RPCServer) (s r : Nat) :
    (v.send C s r).packets = v.packets ∧ (v.send C s r).threads = v.threads ∧
      (v.send C s r).posts = v.posts ∧ (v.send C s r).responseQueue = v.responseQueue ∧
      ((v.send C s r).sends = v.sends ∨ (v.send C s r).sends = v.sends ++ [(s, r)]) := by
  unfold send
  split
  · exact ⟨rfl, rfl, rfl, rfl, .inr rfl⟩
  · exact ⟨rfl, rfl, rfl, rfl, .inl rfl⟩

theorem Posting.step (h : v.Posting) (hanswered : v.Answered) (hmoves : Moves C v l v') :
    v'.Posting := by
  have hmoved := hmoves
  cases hmoves with
  | takeRequest | takeTask | completeWrite => exact h.still hmoved rfl rfl rfl h.told
  | deliver =>
    apply h.still hmoved rfl rfl rfl
    intro a c' hc'
    simp only [onData, List.getElem?_append] at hc'
    split at hc'
    case isTrue => exact h.told a c' hc'
    case isFalse hge =>
      rw [h.about_nothing hanswered (Nat.le_of_not_lt hge)]
      obtain ⟨-, rfl⟩ := List.getElem?_eq_some_iff.mp hc'
      simp only [List.getElem_singleton, List.filterMap_nil]
  | takeResponse hsending hitems =>
    refine h.still hmoved rfl ?_ rfl h.told
    simp only [inHand, hsending, hitems, ItemQueue.unlink, Option.toList_some, Option.toList_none,
      List.map_cons, List.map_nil, List.tail_cons, List.nil_append, List.singleton_append]
  | subtractResponse hsending =>
    refine h.still hmoved rfl ?_ rfl h.told
    simp only [inHand, hsending, ItemQueue.sub, Option.toList_some, List.map_cons, List.map_nil]
  | @sendResponse s r hsending =>
    obtain ⟨hpackets, -, hposts, hqueue, hsends⟩ := send_frame C v s r
    refine ⟨h.awaited.step hmoved, fun item hitem => h.known_step hmoved (hposts ▸ hitem), ?_,
      fun a c hc => ?_⟩
    · obtain ⟨dealt, hline, hsent⟩ := h.inLine
      refine ⟨dealt ++ [(s, r)], ?_, ?_⟩
      · simp only [inHand, hsending, Option.toList_some, List.map_cons, List.map_nil] at hline
        simp only [hposts, hline, hqueue, inHand, Option.toList_none, List.map_nil,
          List.append_nil]
      · rcases hsends with heq | heq
        · exact heq ▸ hsent.trans (List.sublist_append_left _ _)
        · exact heq ▸ hsent.append (List.Sublist.refl _)
    · have habout := h.about_eq hmoved a
      rw [h.told a c (hpackets ▸ hc)] at habout
      exact hposts ▸ habout
  | @advance t s a role op rest ops answer v₁ hat hexecutes =>
    rcases hexecutes.posts with ⟨event, r, rfl, rfl⟩ | ⟨hposts, hitems, htold⟩
    · cases hexecutes
      exact h.link hmoved hat rfl
    · obtain ⟨hsending, hsends, -⟩ := hexecutes.sends
      refine h.still hmoved hposts ?_ hsends fun b c' hc' => ?_
      · simp only [goto, inHand, hsending, hitems]
      · obtain ⟨c, hc, hhistory⟩ := htold b c' hc'
        rw [h.told b c hc, hhistory]

theorem posting_of_reachable {ok : RPCServer → RPCLabel → Prop}
    (h : (machine C).ReachableBy ok v) : v.Posting := by
  refine h.invariant_with (fun s hs => answered_of_reachable hs) ?_ ?_
  · rintro _ ⟨roles, _, -, rfl⟩
    refine ⟨fun th hth op hop => ?_, nofun, ⟨[], rfl, .slnil⟩, nofun⟩
    obtain ⟨role, -, rfl⟩ := List.mem_map.mp hth
    cases hop
  · intro _ _ _ hanswered hposting _ hstep
    exact hposting.step hanswered (moves_of_step hstep)

/-- The responses that the response dispatcher has handed to a session, in order. -/
def sentTo (v : RPCServer) (s : Nat) : List Response :=
  (v.sends.filter fun item => item.1 == s).filterMap fun item => v.responses[item.2]?

/-- A response answers request `a` exactly if it bears its id. -/
theorem Stamping.bears_iff (h : v.Stamping C) (hanswered : v.Answered) {r a : Nat} {x : Response}
    {c : Request} (hx : v.responses[r]? = some x) (htruthful : v.Truthful C x)
    (hc : v.packets[a]? = some c) (hassigned : .assigned ∈ c.history) :
    x.packet.requestId = c.packet.requestId ↔ x.request = a := by
  have hstamp := h.stamp hc hassigned
  constructor
  · intro hid
    by_cases hfailed : x.event = .onDeserializedFailed
    · exact absurd (hid.symm.trans (htruthful.unnamed hfailed)) hstamp.requestId
    · obtain ⟨c', hc', hassigned', hid'⟩ := htruthful.requestId hfailed
      exact h.managed.distinct hc' hc hassigned' hassigned (hid'.trans hid)
  · rintro rfl
    obtain ⟨-, c', hc', -, hcreated⟩ := hanswered r x hx
    cases hc.symm.trans hc'
    have hfailed : x.event ≠ .onDeserializedFailed := fun heq =>
      beginnings_unnamed _ (h.managed.beginning hc) (heq ▸ hcreated) hassigned
    obtain ⟨c', hc', -, hid⟩ := htruthful.requestId hfailed
    cases hc.symm.trans hc'
    exact hid.symm

/-- What a session is handed for a request comes, in order, from what its history has posted. -/
theorem Stamping.sentTo_sublist (h : v.Stamping C) (hposting : v.Posting) (hanswered : v.Answered)
    (htruthful : ∀ (r : Nat) x, v.responses[r]? = some x → v.Truthful C x) (s : Nat) {a : Nat}
    {c : Request} (hc : v.packets[a]? = some c) (hassigned : .assigned ∈ c.history) :
    (((v.sentTo s).filter fun x => x.packet.requestId == c.packet.requestId).map
      fun x => x.packet.status).Sublist ((c.history.filterMap Act.posts).map RPCEvent.status) := by
  obtain ⟨dealt, hline, hsent⟩ := hposting.inLine
  have hsends : v.sends.Sublist v.posts := by
    rw [hline, List.append_assoc]
    exact hsent.trans (List.sublist_append_left _ _)
  have hfirst : (v.sentTo s).Sublist (v.posts.filterMap fun item => v.responses[item.2]?) :=
    (List.filter_sublist.trans hsends).filterMap _
  -- of the posts, those with the request's id are those about the request
  have hposts : ((v.posts.filterMap fun item => v.responses[item.2]?).filter
      (fun x => x.packet.requestId == c.packet.requestId)).map (fun x => x.packet.status) =
      (c.history.filterMap Act.posts).map RPCEvent.status := by
    rw [← hposting.told a c hc, List.filter_filterMap, List.map_filterMap, List.map_filterMap]
    apply List.filterMap_congr
    intro item _
    cases hx : v.responses[item.2]? with
    | none => simp only [about, hx, Option.filter_none, Option.map_none, Option.bind_none]
    | some x =>
      have hbears := h.bears_iff hanswered hx (htruthful _ x hx) hc hassigned
      by_cases hxa : x.request = a
      · have hfailed : x.event ≠ .onDeserializedFailed := fun heq =>
          (h.stamp hc hassigned).requestId
            ((hbears.mpr hxa).symm.trans ((htruthful _ x hx).unnamed heq))
        simp only [about, hx, Option.bind_some, if_pos hxa, Option.map_some, Option.filter_some,
          beq_iff_eq.mpr (hbears.mpr hxa), if_true, ((htruthful _ x hx).status hfailed).1]
      · have hother : (x.packet.requestId == c.packet.requestId) = false :=
          beq_eq_false_iff_ne.mpr fun heq => hxa (hbears.mp heq)
        simp only [about, hx, Option.bind_some, if_neg hxa, Option.map_none, Option.filter_some,
          hother, Bool.false_eq_true, if_false]
  exact hposts ▸ (hfirst.filter _).map _

theorem Posting.of_mem_sentTo (h : v.Posting) {s : Nat} {x : Response} (hx : x ∈ v.sentTo s) :
    ∃ r : Nat, v.responses[r]? = some x ∧ x.session = s := by
  obtain ⟨item, hitem, hitem'⟩ := List.mem_filterMap.mp hx
  obtain ⟨hsent, hsession⟩ := List.mem_filter.mp hitem
  obtain ⟨dealt, hline, hdealt⟩ := h.inLine
  have hposted : item ∈ v.posts := by
    rw [hline, List.append_assoc]
    exact List.mem_append_left _ (hdealt.mem hsent)
  obtain ⟨x', hx', hsession'⟩ := h.known item hposted
  cases hitem'.symm.trans hx'
  exact ⟨item.2, hitem', hsession'.trans (beq_iff_eq.mp hsession)⟩

end Step

/-- What the response dispatcher hands to session `s`, in every reachable state, for any packets,
threads and interleaving, if generated ids are fresh and the called functions change at most the
packet's result: the packets bear the session's id and answer frames that were received on it; the
statuses of those with the id of one request are, in order, some of `SUBMITTED`, `WAITING`,
`COMMITED` and one of `COMPLETED` and `FAILED`, or of `SUBMITTED` and `FAILED` if it was refused; a
packet's status is the one the manager has recorded last, that of its event, but for the packets
without an id that answer no request; and without an error it is not `FAILED`. -/
theorem responses_of_reachable (C : Setting) {v : RPCServer}
    (h : (machine C).ReachableBy (fun v l => v.keepsPackets l = true) v) (s : Nat) :
    (∀ x ∈ v.sentTo s, x.packet.innerId = C.uuid s ∧
      ∃ c, v.packets[x.request]? = some c ∧ c.session = s ∧ .created x.event ∈ c.history) ∧
    (∀ (a : Nat) c, v.packets[a]? = some c → .assigned ∈ c.history →
      let statuses := ((v.sentTo s).filter fun x => x.packet.requestId == c.packet.requestId).map
        fun x => x.packet.status
      if .refused ∈ c.history then statuses.Sublist [.submitted, .failed]
      else statuses.Sublist [.submitted, .waiting, .commited, .completed] ∨
        statuses.Sublist [.submitted, .waiting, .commited, .failed]) ∧
    (∀ x ∈ v.sentTo s, if x.event = .onDeserializedFailed then x.packet.requestId = ""
      else x.recorded = some x.packet.status ∧ x.packet.status = x.event.status) ∧
    ∀ x ∈ v.sentTo s, x.packet.error = .pktNoError → x.packet.status ≠ .failed := by
  have hstamping := stamping_of_reachable h
  have htruthful := truthful_of_reachable h
  have hanswered := answered_of_reachable h
  have hposting := posting_of_reachable h
  refine ⟨fun x hx => ?_, fun a c hc hassigned => ?_, fun x hx => ?_, fun x hx herror => ?_⟩
  · obtain ⟨r, hr, rfl⟩ := hposting.of_mem_sentTo hx
    exact ⟨(htruthful r x hr).innerId, (hanswered r x hr).2⟩
  · have hsent := hstamping.sentTo_sublist hposting hanswered htruthful s hc hassigned
    have hposted := beginnings_posted _ (hstamping.managed.beginning hc)
    dsimp only
    split
    case isTrue hrefused =>
      rw [if_pos hrefused] at hposted
      exact hsent.trans hposted
    case isFalse hrefused =>
      rw [if_neg hrefused] at hposted
      exact hposted.imp hsent.trans hsent.trans
  · obtain ⟨r, hr, -⟩ := hposting.of_mem_sentTo hx
    split
    case isTrue hfailed => exact (htruthful r x hr).unnamed hfailed
    case isFalse hfailed => exact ((htruthful r x hr).status hfailed).symm
  · obtain ⟨r, hr, -⟩ := hposting.of_mem_sentTo hx
    have hevent : x.event.error = .pktNoError := (hanswered r x hr).1.symm.trans herror
    have hfailed : x.event ≠ .onDeserializedFailed := by
      intro heq
      rw [heq] at hevent
      cases hevent
    rw [((htruthful r x hr).status hfailed).1]
    exact status_ne_failed hevent

/-- A request is completed and its four responses are sent. -/
theorem responses_of_reachable_one :
    ∃ v, (machine (sampleSetting 8 8)).run (new [.io 0, .worker] [("a", 0)])
        (oneRequest samplePacket 15 10 9 ++ sendResponses 4) = some v ∧
      (v.sentTo 0).map (fun x => x.packet.status) =
        [.submitted, .waiting, .commited, .completed] ∧
      ∀ x ∈ v.sentTo 0, x.packet.innerId = "session" := by
  have hruns : ((machine (sampleSetting 8 8)).run (new [.io 0, .worker] [("a", 0)])
      (oneRequest samplePacket 15 10 9 ++ sendResponses 4)).any (fun v =>
        (v.sentTo 0).map (fun x => x.packet.status) =
        [.submitted, .waiting, .commited, .completed]) = true := by
    decide +kernel
  obtain ⟨v, hrun, hv⟩ := (Option.any_eq_true _ _).mp hruns
  refine ⟨v, hrun, of_decide_eq_true hv, fun x hx => ?_⟩
  refine ((responses_of_reachable (sampleSetting 8 8) ?_ 0).1 x hx).1
  exact .run (fun _ _ hok => hok) (.start ⟨_, _, by decide, rfl⟩) (by decide +kernel) hrun

end RPCServer

end DSFramework.DSRPC
