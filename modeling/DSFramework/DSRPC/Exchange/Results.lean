import DSFramework.DSRPC.Exchange

/-!
# The result of a call

A client asks with a packet, and what it keeps in the end is meant to be the packet with the result.
In every run of clients and server what a client parses with the status `COMPLETED` bears the service
and the parameters of one of its calls, which the service's check admits, and a result that its
execution leaves for them; and where the client has been called once, the statuses can only go
forward, and it is what the stub keeps.
-/

namespace DSFramework.DSRPC

open DSCommunication (Endian Connection Reader)

/-- Only the response of `OnCompleted` goes with the status `COMPLETED`. -/
theorem event_of_completed {event : RPCEvent} (h : event.status = .completed) :
    event = .onCompleted := by
  revert h
  cases event <;> decide

/-- What does not say that the request failed has no error. -/
theorem error_of_status {event : RPCEvent} (h : event.status ≠ .failed) :
    event.error = .pktNoError := by
  revert h
  cases event <;> decide

/-- In a list of packets whose statuses go forward to `COMPLETED`, the completed one is the last. -/
theorem getLast?_of_completed {packets : List RPCPacket} {packet : RPCPacket}
    (hforward : (packets.map RPCPacket.status).Sublist [.submitted, .waiting, .commited, .completed])
    (hmem : packet ∈ packets) (hstatus : packet.status = .completed) :
    packets.getLast? = some packet := by
  obtain ⟨before, behind, rfl⟩ := List.append_of_mem hmem
  have hpairs : (before ++ packet :: behind).Pairwise fun p _ => p.status ≠ .completed := by
    have hchain : [RPCPacketStatus.submitted, .waiting, .commited, .completed].Pairwise
        fun status _ => status ≠ .completed := by decide
    exact List.pairwise_map.mp (hchain.sublist hforward)
  have hnone : behind = [] := by
    rw [List.eq_nil_iff_forall_not_mem]
    intro p hp
    exact (List.pairwise_cons.mp (List.pairwise_append.mp hpairs).2.1).1 p hp hstatus
  rw [hnone, List.getLast?_concat]

namespace RPCServer

/-- Where a session has received one packet, there is one request of it. -/
theorem one_request {v : RPCServer} {s a b : Nat} {c d : Request}
    (hone : (v.receivedOn s).length ≤ 1) (hc : v.packets[a]? = some c)
    (hd : v.packets[b]? = some d) (hsc : c.session = s) (hsd : d.session = s) : a = b := by
  have hpairs : (v.packets.filter fun c => c.session == s).Pairwise fun _ _ => False := by
    rw [receivedOn, List.length_map] at hone
    cases hfilter : v.packets.filter fun c => c.session == s with
    | nil => exact .nil
    | cons c rest =>
      rw [hfilter, List.length_cons] at hone
      have hrest : rest = [] := List.length_eq_zero_iff.mp (by omega)
      rw [hrest]
      exact List.pairwise_singleton _ _
  rw [List.pairwise_filter, List.pairwise_iff_getElem] at hpairs
  obtain ⟨ha, hac⟩ := List.getElem?_eq_some_iff.mp hc
  obtain ⟨hb, hbd⟩ := List.getElem?_eq_some_iff.mp hd
  rcases Nat.lt_trichotomy a b with hlt | heq | hgt
  · exact (hpairs a b ha hb hlt (by simp [hac, hsc]) (by simp [hbd, hsd])).elim
  · exact heq
  · exact (hpairs b a hb ha hgt (by simp [hbd, hsd]) (by simp [hac, hsc])).elim

end RPCServer

namespace Exchange

variable {P : Contract} {C : Setting} {runtime : Runtime} {e : Nat → Endian} {x : Exchange}

/-- The called functions of the server keep to the contracts of the services. -/
def Promises (P : Contract) (x : Exchange) : ExchangeLabel → Prop
  | .serve l => x.server.promises P l
  | _ => True

/-- The server runs as it does alone. -/
theorem server_of_reachable (h : (machine (C.generated runtime) e).ReachableBy
      (fun x l => Ok runtime x l ∧ Promises P x l) x) :
    (RPCServer.machine (C.generated runtime)).ReachableBy
      (fun v l => v.keepsPackets l = true ∧ v.promises P l) x.server := by
  refine h.invariant (I := fun x => (RPCServer.machine (C.generated runtime)).ReachableBy
    (fun v l => v.keepsPackets l = true ∧ v.promises P l) x.server) ?_ ?_
  · rintro x ⟨hserver, -⟩
    exact .start hserver
  · rintro x l x' hv ⟨hok, hpromises⟩ hstep
    have hmoves : Moves (C.generated runtime) e x l x' := moves_of_step hstep
    cases hmoves with
    | call | notSerialized | rise | fall => exact hv
    | deliver _ _ _ _ hserves => exact hv.next (l := .deliver _ _) ⟨rfl, trivial⟩ hserves
    | serve _ _ hserves => exact hv.next ⟨hok.1, hpromises⟩ hserves
    | complete _ hserves => exact hv.next (l := .completeWrite _ _ _) ⟨rfl, trivial⟩ hserves

/-- What a request was received as is what the client of its session was called with. -/
theorem Joined.mem_called (h : x.Joined runtime C) {a : Nat} {c : Request}
    (hc : x.server.packets[a]? = some c) : c.received ∈ x.called c.session := by
  have hmem : c.received ∈ x.server.receivedOn c.session :=
    List.mem_map_of_mem (List.mem_filter.mpr ⟨List.mem_of_getElem? hc, beq_self_eq_true _⟩)
  exact (h.receivedOn c.session).mem hmem

/-- A completed response is to a call that meets the service's precondition, and its result meets
the postcondition. -/
theorem Joined.completed (h : x.Joined runtime C) (hdelivers : x.server.Delivers P) (s : Nat)
    {y : Response} (hy : y ∈ x.server.sentTo s) (hstatus : y.packet.status = .completed) :
    ∃ call ∈ x.called s, y.packet.service = call.service ∧
      y.packet.parameters = call.parameters ∧ P.pre call.service call.parameters ∧
      P.post call.service call.parameters y.packet.result := by
  obtain ⟨r, hr, -⟩ := (RPCServer.posting_of_reachable h.server).of_mem_sentTo hy
  obtain ⟨c, hc, hreplies⟩ := h.replies s hy
  have hevent := event_of_completed (hreplies.status.symm.trans hstatus)
  obtain ⟨c', hc', hresult⟩ := hdelivers r y hr hevent
  cases hc.symm.trans hc'
  exact ⟨c.received, hreplies.session ▸ h.mem_called hc, hreplies.service, hreplies.parameters,
    hresult⟩

/-- All responses that are sent to a client with one call answer the same request. -/
theorem Joined.alone (h : x.Joined runtime C) {s : Nat} {call : RPCPacket}
    (hcalled : x.called s = [call]) {y y' : Response} (hy : y ∈ x.server.sentTo s)
    (hy' : y' ∈ x.server.sentTo s) : y.request = y'.request := by
  obtain ⟨c, hc, hreplies⟩ := h.replies s hy
  obtain ⟨c', hc', hreplies'⟩ := h.replies s hy'
  refine RPCServer.one_request ?_ hc hc' hreplies.session hreplies'.session
  have hlength := (h.receivedOn s).length_le
  rwa [hcalled] at hlength

/-- The client's stub takes every response without an error to what was sent as a request. -/
theorem Joined.succeeds (h : x.Joined runtime C) {s : Nat} {y : Response}
    (hy : y ∈ x.server.sentTo s) (hstatus : y.packet.status ≠ .failed)
    (hrequests : ∀ call ∈ x.called s, call.type = .taskRequest ∨ call.type = .queryRequest) :
    RPCClientStub.succeeds y.packet = true := by
  obtain ⟨r, hr, -⟩ := (RPCServer.posting_of_reachable h.server).of_mem_sentTo hy
  obtain ⟨c, hc, hreplies⟩ := h.replies s hy
  have herror : y.packet.error = .pktNoError :=
    hreplies.error.trans (error_of_status (hreplies.status ▸ hstatus))
  have hevent := (RPCServer.parsed_of_reachable
    (h.server.mono fun _ _ hok => hok.parses)).responses r y hr
  obtain ⟨-, hreply⟩ := RPCServer.repliesTo_of_reachable preserves_type
    (h.server.mono fun _ _ hok => RPCServer.leaves_of_keepsPackets (fun _ _ => rfl) hok.keeps)
  obtain ⟨c', request, hc', hsame, hpacket⟩ := hreply r y hr
  cases hc.symm.trans hc'
  have htype : y.packet.type = .taskResponse := by
    rw [hpacket, response_type hevent]
    rcases hrequests _ (hreplies.session ▸ h.mem_called hc) with htask | hquery
    · exact RPCPacketFactory.changeTypeToResponse_taskRequest (hsame.trans htask)
    · exact RPCPacketFactory.changeTypeToResponse_queryRequest (hsame.trans hquery)
  rw [RPCClientStub.succeeds, htype, herror]
  rfl

/-- The statuses of the responses to a single call go forward to `COMPLETED` where one is that. -/
theorem Joined.forward (h : x.Joined runtime C) {s : Nat} {call : RPCPacket}
    (hcalled : x.called s = [call]) {responses : List Response}
    (hsublist : responses.Sublist (x.server.sentTo s)) {y : Response} (hy : y ∈ responses)
    (hstatus : y.packet.status = .completed) :
    (responses.map fun y => y.packet.status).Sublist
      [.submitted, .waiting, .commited, .completed] := by
  have hkeeps := h.server.mono fun _ _ hok => hok.keeps
  -- all of them bear the request's id
  have hid : ∀ y' ∈ responses, ∃ c, x.server.packets[y.request]? = some c ∧
      .assigned ∈ c.history ∧ c.packet.requestId = y'.packet.requestId := by
    intro y' hy'
    obtain ⟨r, hr, -⟩ :=
      (RPCServer.posting_of_reachable h.server).of_mem_sentTo (hsublist.mem hy')
    have hevent := (RPCServer.parsed_of_reachable
      (h.server.mono fun _ _ hok => hok.parses)).responses r y' hr
    rw [h.alone hcalled (hsublist.mem hy) (hsublist.mem hy')]
    exact (RPCServer.truthful_of_reachable hkeeps r y' hr).requestId hevent
  obtain ⟨c, hc, hassigned, -⟩ := hid y hy
  have hmine : responses.filter (fun y => y.packet.requestId == c.packet.requestId) =
      responses := by
    rw [List.filter_eq_self]
    intro y' hy'
    obtain ⟨c', hc', -, hid'⟩ := hid y' hy'
    cases hc.symm.trans hc'
    exact beq_iff_eq.mpr hid'.symm
  rcases h.statuses s hsublist hc hassigned with hgood | hbad
  · rwa [hmine] at hgood
  · rw [hmine] at hbad
    have hmem : RPCPacketStatus.completed ∈ responses.map fun y => y.packet.status :=
      List.mem_map.mpr ⟨y, hy, hstatus⟩
    exact absurd (hbad.mem hmem) (by decide)

/-- What a client parses with the status `COMPLETED` answers one of its calls as the service should,
and where there is only one call it is what the stub keeps. -/
theorem Joined.results (hjoined : x.Joined runtime C) (hdelivers : x.server.Delivers P) (s : Nat)
    {packet : RPCPacket}
    (hparsed : some packet ∈ (x.down s).reader.onData.map (RPCPacket.parseFromArray runtime))
    (hstatus : packet.status = .completed) :
    (∃ call ∈ x.called s, packet.service = call.service ∧ packet.parameters = call.parameters ∧
      P.pre call.service call.parameters ∧ P.post call.service call.parameters packet.result) ∧
    ∀ call, x.called s = [call] → call.type = .taskRequest ∨ call.type = .queryRequest →
      ∀ clientid, ((RPCClientStub.new clientid).receive (RPCPacket.parseFromArray runtime)
        (x.down s).reader.onData).cachedRequestPacket = some packet := by
  obtain ⟨responses, hsublist, hpackets⟩ := hjoined.onData s
  rw [hpackets] at hparsed
  obtain ⟨y, hy, heq⟩ := List.mem_map.mp hparsed
  obtain rfl : y.packet = packet := Option.some.inj heq
  refine ⟨hjoined.completed hdelivers s (hsublist.mem hy) hstatus, ?_⟩
  intro call hcalled hrequest clientid
  have hforward := hjoined.forward hcalled hsublist hy hstatus
  have hall : (responses.map Response.packet).filter RPCClientStub.succeeds =
      responses.map Response.packet := by
    rw [List.filter_eq_self]
    intro p hp
    obtain ⟨y', hy', rfl⟩ := List.mem_map.mp hp
    refine hjoined.succeeds (hsublist.mem hy') (fun hfailed => ?_) ?_
    · have hmem := hforward.mem (List.mem_map_of_mem hy')
      rw [hfailed] at hmem
      exact absurd hmem (by decide)
    · rw [hcalled]
      exact List.forall_mem_singleton.mpr hrequest
  rw [cached_of_parsed hpackets, hall]
  refine getLast?_of_completed ?_ (List.mem_map_of_mem hy) hstatus
  rw [List.map_map]
  exact hforward

/-- THE RESULT OF A CALL, in every run of any clients and the server in which the called functions
change at most a packet's result and keep to the contracts of their services: what a client parses
with the status `COMPLETED` bears the service and the parameters of one of its calls; these meet the
precondition and the result meets the postcondition. Where the client has been called once, with a
request, it is what its stub keeps, whatever has been parsed before and after it. -/
theorem completed_of_reachable (h : (machine (C.generated runtime) e).ReachableBy
      (fun x l => Ok runtime x l ∧ Promises P x l) x) (s : Nat) {packet : RPCPacket}
    (hparsed : some packet ∈ (x.down s).reader.onData.map (RPCPacket.parseFromArray runtime))
    (hstatus : packet.status = .completed) :
    (∃ call ∈ x.called s, packet.service = call.service ∧ packet.parameters = call.parameters ∧
      P.pre call.service call.parameters ∧ P.post call.service call.parameters packet.result) ∧
    ∀ call, x.called s = [call] → call.type = .taskRequest ∨ call.type = .queryRequest →
      ∀ clientid, ((RPCClientStub.new clientid).receive (RPCPacket.parseFromArray runtime)
        (x.down s).reader.onData).cachedRequestPacket = some packet := by
  have hjoined := joined_of_reachable (h.mono fun _ _ hok => hok.1)
  have hdelivers := RPCServer.delivers_of_reachable (server_of_reachable h)
  exact hjoined.results hdelivers s hparsed hstatus

/-- The request of the concrete run: for the service `a`, with a parameter of one byte. -/
def sampleRequest : RPCPacket :=
  { type := .taskRequest, service := "a", parameters := some { typeUrl := "t", value := [1] } }

/-- It is this packet in the server when it has been committed. -/
def sampleAccepted : RPCPacket :=
  { sampleRequest with
    requestId := "i", innerId := "session", status := .commited, error := .pktNoError }

/-- The service `a` needs parameters, and its result has the next bytes. -/
def nextByte : Contract where
  pre _ parameters := parameters.isSome
  post _ parameters result :=
    result = parameters.map fun m => { m with value := m.value.map (· + 1) }

/-- What its execute function leaves. -/
def sampleExecuted : RPCPacket :=
  { sampleAccepted with result := some { typeUrl := "t", value := [2] } }

/-- The frames of the responses to it. -/
def sampleFrames : List Nat := [29, 29, 29, 37]

/-- The request arrives and is executed, and the responses arrive. -/
def sampleComputation : List ExchangeLabel :=
  [.call 0 sampleRequest] ++ List.replicate 15 (ExchangeLabel.rise 0 .transmit) ++
    [.rise 0 (.complete 0 true), .rise 0 .read, .deliver 0 1] ++
    List.replicate 15 (.serve (.advance 1 { uid := "i" })) ++ [.serve (.take 0)] ++
    List.replicate 10 (.serve (.advance 0 { packet := sampleAccepted })) ++ [.serve (.take 2)] ++
    List.replicate 9 (.serve (.advance 2 { packet := sampleExecuted })) ++
    (RPCServer.sendResponses 4).map .serve ++
    (sampleFrames.map fun n => List.replicate (n + 2) (ExchangeLabel.fall 0 .transmit) ++
      [ExchangeLabel.fall 0 (.complete 0 true), .fall 0 .read, .fall 0 .read]).flatten

/-- Is the contract kept by what a check returns, and by what is left in a packet? -/
def keepsPromise (x : Exchange) : ExchangeLabel → Bool
  | .serve (.advance t answer) => match x.server.threads[t]? with
    | some ⟨_, _, a, .checkServiceParameter _ :: _⟩ => (x.server.packet a).parameters.isSome
    | some ⟨_, _, a, .running :: _⟩ => (x.server.packets[a]?).all fun c =>
      answer.packet.result == c.packet.parameters.map fun m =>
        { m with value := m.value.map (· + 1) }
    | _ => true
  | _ => true

theorem promises_of_keepsPromise {l : ExchangeLabel} (h : keepsPromise x l = true) :
    Promises nextByte x l := by
  cases l with
  | serve l =>
    cases l with
    | advance t answer =>
      intro role s a op rest hat
      cases op with
      | checkServiceParameter serviceName =>
        intro _
        simp only [keepsPromise, hat] at h
        exact h
      | running =>
        intro _ c name hc _ _
        simp only [keepsPromise, hat, hc, Option.all_some, beq_iff_eq] at h
        exact h
      | _ => trivial
    | _ => trivial
  | _ => trivial

/-- The client has what the service makes of its parameter. -/
theorem completed_of_reachable_one :
    ∃ x, (machine ((RPCServer.sampleSetting 8 8).generated .wire) fun _ => .big).run
        sampleExchange sampleComputation = some x ∧
      ∃ packet, some packet ∈
          (x.down 0).reader.onData.map (RPCPacket.parseFromArray .wire) ∧
        packet.status = .completed ∧ nextByte.post "a" sampleRequest.parameters packet.result ∧
        ((RPCClientStub.new "client").receive (RPCPacket.parseFromArray .wire)
          (x.down 0).reader.onData).cachedRequestPacket = some packet := by
  have hruns : ((machine ((RPCServer.sampleSetting 8 8).generated .wire) fun _ => .big).run
      sampleExchange sampleComputation).any (fun x => x.called 0 = [sampleRequest] ∧
        (((x.down 0).reader.onData.map (RPCPacket.parseFromArray .wire)).any fun p =>
          p.any fun packet => packet.status == .completed) = true) = true := by
    decide +kernel
  obtain ⟨x, hrun, hx⟩ := (Option.any_eq_true _ _).mp hruns
  obtain ⟨hcalled, hany⟩ := of_decide_eq_true hx
  obtain ⟨parsed, hparsed, hcompleted⟩ := List.any_eq_true.mp hany
  obtain ⟨packet, rfl, hstatus⟩ := (Option.any_eq_true _ _).mp hcompleted
  have hreachable : (machine ((RPCServer.sampleSetting 8 8).generated .wire)
      fun _ => .big).ReachableBy (fun x l => Ok .wire x l ∧ Promises nextByte x l) x := by
    refine .run (fun x l (h : (keepsTo x l && keepsPromise x l) = true) => ?_)
      (.start ⟨⟨_, _, by decide, rfl⟩, rfl⟩) (by decide +kernel) hrun
    obtain ⟨hkeeps, hpromise⟩ := Bool.and_eq_true_iff.mp h
    exact ⟨ok_of_keepsTo hkeeps, promises_of_keepsPromise hpromise⟩
  obtain ⟨⟨call, hcall, -, -, -, hresult⟩, hcached⟩ :=
    completed_of_reachable hreachable 0 hparsed (eq_of_beq hstatus)
  rw [hcalled, List.mem_singleton] at hcall
  subst hcall
  exact ⟨x, hrun, packet, hparsed, eq_of_beq hstatus, hresult,
    hcached _ hcalled (.inl rfl) "client"⟩

end Exchange

end DSFramework.DSRPC
