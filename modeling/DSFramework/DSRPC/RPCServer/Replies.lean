import DSFramework.DSRPC.RPCClientStub
import DSFramework.DSRPC.ResponseDispatcher.Sizes
import DSFramework.DSRPC.RPCServer.Responses

/-!
# The replies of a running server

What is said of the factory's replies, said of every response of a reachable server. A response is
made from the request's packet as it is at that moment, between other threads' operations; what
matters of it is what the manager's handlers never write. `Preserves` says that of a function of the
packet, and `Kept` that it is then, in every packet, what it was when the packet was received, as
long as the called functions leave it, too.
-/

namespace DSFramework.DSRPC

/-- Something of a packet that no handler of the manager changes. -/
structure Preserves {β : Type} (field : RPCPacket → β) : Prop where
  init : ∀ uid sessionID currentTime packet,
    field (RPCPacketManager.initRPCPacket uid sessionID currentTime packet) = field packet
  update : ∀ status currentTime packet,
    field (RPCPacketManager.updateStatus status currentTime packet) = field packet

theorem preserves_type : Preserves RPCPacket.type where
  init := fun _ _ _ _ => rfl
  update := fun status currentTime packet => by
    obtain ⟨_, _, _, _, _, heq⟩ := RPCPacketManager.updateStatus_eq status currentTime packet
    rw [heq]

theorem preserves_keptSize : Preserves RPCPacket.keptSize where
  init := fun _ _ _ _ => rfl
  update := fun status currentTime packet => by
    obtain ⟨_, _, _, _, _, heq⟩ := RPCPacketManager.updateStatus_eq status currentTime packet
    rw [heq]
    rfl

namespace RPCServer

variable {β : Type} [DecidableEq β] {field : RPCPacket → β}

/-- The environment in which the called functions leave that of the packet. -/
def leaves (field : RPCPacket → β) (v : RPCServer) (l : RPCLabel) : Bool :=
  v.answers l fun a answer op => match op with
    | .checkServiceParameter _ | .running => decide (field answer.packet = field (v.packet a))
    | _ => true

omit [DecidableEq β] in
/-- It is in every packet what it was when the packet was received. -/
def Kept (field : RPCPacket → β) (v : RPCServer) : Prop :=
  ∀ (a : Nat) c, v.packets[a]? = some c → field c.packet = field c.received

variable {C : Setting} {v v' : RPCServer}

theorem leaves_advance {t s a : Nat} {role : Role} {op : RPCOp} {rest : List RPCOp}
    {answer : Answer} (hat : v.threads[t]? = some ⟨role, s, a, op :: rest⟩)
    (hok : v.leaves field (.advance t answer) = true) :
    ((∃ serviceName, op = .checkServiceParameter serviceName) ∨ op = .running) →
      field answer.packet = field (v.packet a) := by
  simp only [leaves, answers, hat] at hok
  rintro (⟨serviceName, rfl⟩ | rfl) <;> exact of_decide_eq_true hok

omit [DecidableEq β] in
/-- One record changes, and not in this. -/
theorem Kept.modify (h : v.Kept field) {p : Nat} {f : Request → Request}
    (hpackets : v'.packets = v.packets.modify p f)
    (hf : ∀ c, v.packets[p]? = some c →
      (f c).received = c.received ∧ field (f c).packet = field c.packet) : v'.Kept field := by
  intro a c' hc'
  rw [hpackets, List.getElem?_modify] at hc'
  obtain ⟨c, hc, rfl⟩ := Option.map_eq_some_iff.mp hc'
  split
  case isTrue heq =>
    subst heq
    obtain ⟨hreceived, hfield⟩ := hf c hc
    rw [hreceived, hfield]
    exact h p c hc
  case isFalse => exact h a c hc

omit [DecidableEq β] in
/-- One operation keeps it. -/
theorem Executes.kept (hfield : Preserves field) {s a : Nat} {answer : Answer} {op : RPCOp}
    {ops : List RPCOp} (h : Executes C v s a answer op v' ops)
    (hleaves : ((∃ serviceName, op = .checkServiceParameter serviceName) ∨ op = .running) →
      field answer.packet = field (v.packet a)) (hkept : v.Kept field) : v'.Kept field := by
  cases h with
  | setNothing | responseRoom | responseAdd | requestLink | requestAdd | requestSub
  | knownService | terminate => exact hkept
  | initRPCPacket => exact hkept.modify rfl fun c _ => ⟨rfl, hfield.init _ _ _ c.packet⟩
  | setStatus => exact hkept.modify rfl fun c _ => ⟨rfl, hfield.update _ _ c.packet⟩
  | valid | invalid =>
    refine hkept.modify rfl fun c hc => ⟨rfl, ?_⟩
    rw [← packet_eq hc]
    exact hleaves (.inl ⟨_, rfl⟩)
  | returned | threw | escaped =>
    refine hkept.modify rfl fun c hc => ⟨rfl, ?_⟩
    rw [← packet_eq hc]
    exact hleaves (.inr rfl)
  | addRequest | found | notFound | removeRequest | createResponse | responseFull
  | responseLink | requestRoom | requestFull | emptyService | unknownService | notChecked
  | commit | invoked | missing => exact hkept.modify rfl fun _ _ => ⟨rfl, rfl⟩

/-- One step keeps it. -/
theorem Kept.step (hfield : Preserves field) {l : RPCLabel} (h : v.Kept field)
    (hok : v.leaves field l = true) (hmoves : Moves C v l v') : v'.Kept field := by
  cases hmoves with
  | @deliver t s s₀ a₀ body =>
    intro a c hc
    rcases Nat.lt_or_ge a v.packets.length with hlt | hge
    · apply h a c
      simpa only [onData, List.getElem?_append_left hlt] using hc
    · simp only [onData, List.getElem?_append_right hge, List.getElem?_singleton] at hc
      split at hc
      · cases hc
        rfl
      · cases hc
  | advance hat hexecutes =>
    have hkept := hexecutes.kept hfield (leaves_advance hat hok) h
    exact hkept
  | @sendResponse s r =>
    have hpackets : (v.send C s r).packets = v.packets := by
      unfold send
      split <;> rfl
    intro a c hc
    exact h a c (hpackets ▸ hc)
  | takeRequest | takeTask | takeResponse | subtractResponse | completeWrite => exact h

/-- Every response is the reply to its event, made of a packet that agrees in this with the one that
was received. -/
def RepliesTo (field : RPCPacket → β) (C : Setting) (v : RPCServer) : Prop :=
  ∀ (r : Nat) x, v.responses[r]? = some x → ∃ c request, v.packets[x.request]? = some c ∧
    field request = field c.received ∧
    x.packet = ResponseDispatcher.response C.serverId (C.uuid x.session) request x.event

omit [DecidableEq β] in
theorem RepliesTo.step {l : RPCLabel} (hrelayed : v.Relayed) (hkept : v.Kept field)
    (h : v.RepliesTo field C) (hmoves : Moves C v l v') : v'.RepliesTo field C := by
  intro r x' hx'
  rcases response_cases hmoves hx' with ⟨x, fate, hx, rfl⟩ |
    ⟨t, role, s, a, event, rest, answer, rfl, hat, -, rfl, rfl, rfl, hpacket, -, -⟩
  · obtain ⟨c, request, hc, hsame, hreply⟩ := h r x hx
    obtain ⟨c', hc', hgrows⟩ := hmoves.grows hc
    exact ⟨c', request, hc', hsame.trans (congrArg field hgrows.received.symm), hreply⟩
  · obtain ⟨c, hc, -⟩ := hrelayed.working hat rfl
    obtain ⟨c', hc', hgrows⟩ := hmoves.grows hc
    refine ⟨c', v.packet x'.request, hc', ?_, hpacket⟩
    rw [packet_eq hc, hkept _ c hc, hgrows.received]

/-- In every run in which the called functions leave it. -/
theorem repliesTo_of_reachable (hfield : Preserves field)
    (h : (machine C).ReachableBy (fun v l => v.leaves field l = true) v) :
    v.Kept field ∧ v.RepliesTo field C := by
  refine h.invariant_with (I := fun v => v.Kept field ∧ v.RepliesTo field C)
    (fun _ => relayed_of_reachable) ?_ ?_
  · rintro _ ⟨_, _, -, rfl⟩
    exact ⟨fun _ _ hc => (nomatch hc), fun _ _ hx => (nomatch hx)⟩
  · intro _ _ _ hrelayed ⟨hkept, hreplies⟩ hok hstep
    have hmoves := moves_of_step hstep
    exact ⟨hkept.step hfield hok hmoves, hreplies.step hrelayed hkept hmoves⟩

/-- THE CLIENT'S VIEW: whatever else the threads do, where the called functions leave a packet's
type the client takes every response to a `TASK_REQUEST` that was parsed, in the arm of its error
code, and its type is `TASK_RESPONSE`. -/
theorem taken_of_reachable (h : (machine C).ReachableBy
      (fun v l => v.leaves RPCPacket.type l = true) v) {r : Nat} {x : Response} {c : Request}
    (hx : v.responses[r]? = some x) (hc : v.packets[x.request]? = some c)
    (hevent : x.event ≠ .onDeserializedFailed) (htask : c.received.type = .taskRequest)
    {data : List UInt8} (hround : C.parseFromArray data = some x.packet) :
    x.packet.type = .taskResponse ∧
      ∃ action, RPCClientStub.armOfData C.parseFromArray data = .case x.packet.error action := by
  obtain ⟨c', request, hc', hsame, hreply⟩ :=
    (repliesTo_of_reachable preserves_type h).2 r x hx
  cases hc.symm.trans hc'
  have htype : x.packet.type = .taskResponse := by
    rw [hreply, response_type hevent]
    exact RPCPacketFactory.changeTypeToResponse_taskRequest (hsame.trans htask)
  have herror : x.packet.error = x.event.error := hreply ▸ response_error _ _ _ _
  refine ⟨htype, ?_⟩
  simp only [RPCClientStub.armOfData, hround]
  exact (RPCClientStub.armOf_event herror).mpr (.inl htype)

/-- Whatever else the threads do, where the called functions leave what is kept of a packet, a
response to a parsed request is as large as that and what the server has written into the packet. -/
theorem length_of_reachable (h : (machine C).ReachableBy
      (fun v l => v.leaves RPCPacket.keptSize l = true) v) {r : Nat} {x : Response} {c : Request}
    (hx : v.responses[r]? = some x) (hc : v.packets[x.request]? = some c)
    (hevent : x.event ≠ .onDeserializedFailed) :
    x.packet.internalSerialize.length = c.received.keptSize + enumSize x.packet.type.value + 2 +
      enumSize x.packet.status.value + x.packet.stampsSize := by
  obtain ⟨c', request, hc', hsame, hreply⟩ :=
    (repliesTo_of_reachable preserves_keptSize h).2 r x hx
  cases hc.symm.trans hc'
  have hcreated := response_eq_createReply hevent C.serverId (C.uuid x.session) request
  rw [RPCPacket.length_internalSerialize, hreply, hcreated, byteSizeLong_createReply,
    (enumSize_event x.event).1, hsame, RPCPacketFactory.createReply_eq,
    enumSize_changeTypeToResponse]
  rfl

end RPCServer

end DSFramework.DSRPC
