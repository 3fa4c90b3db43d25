import DSFramework.DSRPC.RPCServer.Lives

/-!
# The entries of the manager

`m_requests` against the requests' histories: there is an entry for a request from `AddRequest` to
the end of its terminal handler, and no other. The ledger of `RPCPacketManager` is read off the
records; that the map is booked correctly is an invariant as long as ids are given once and the
called functions do not change them.
-/

namespace DSFramework.DSRPC

/-- Is it the removal of the request's entry? -/
def Act.removes : Act → Bool
  | .removed _ => true
  | _ => false

/-- Has the entry been added and not been removed? -/
def alive (story : Story) : Bool := story.contains .added && !story.any Act.removes

/-- What the manager needs to know of a request. -/
def Request.ledger (c : Request) : Ledger :=
  { session := c.session
    id := c.packet.requestId
    assigned := c.history.contains .assigned
    live := alive c.history }

/-- What comes before what, as far as the manager's entries are concerned. -/
theorem beginnings_entries : ∀ h ∈ beginnings, h.countP Act.removes ≤ 1 ∧
    (h.getLast? = some .assigned → alive h.dropLast = false) ∧
    (h.getLast? = some .added → h.contains .assigned = true ∧ alive h = true ∧
      alive h.dropLast = false) ∧
    (∀ act ∈ h.getLast?, act.removes = true → alive h.dropLast = true) := by
  decide +kernel

/-- An event is handled while the entry is there. -/
theorem beginnings_handled : ∀ h ∈ beginnings, ∀ act ∈ h.getLast?,
    (match act with | .handled _ => true | _ => false) = true → alive h = true := by
  decide +kernel

/-- A complete life in which nothing has escaped removes the entry that it has added. -/
theorem lives_entries : ∀ h ∈ lives, .added ∈ h → .escaped ∉ h → h.countP Act.removes = 1 := by
  decide +kernel

/-- Is it the second half of `UpdateRequestStatus`? -/
def RPCOp.records : RPCOp → Bool
  | .setStatus _ _ => true
  | _ => false

/-- What a carrier and its request's record have to do with the manager's entries: a status that
has still to be recorded comes first, and is recorded through the request's own entry. -/
structure Filed (k : Call) (c : Request) : Prop where
  told : Told k c
  behind : ∀ op ∈ k.ops.tail, op.records = false
  found : ∀ event requestID rest, k.ops = .setStatus event requestID :: rest →
    requestID = c.packet.requestId ∧ alive c.history = true

/-- No handler starts with the second half of `UpdateRequestStatus`. -/
theorem raise_records (event : RPCEvent) : ∀ op ∈ raise event, op.records = false := by
  cases event <;> decide

/-- The request dispatcher's subtraction records nothing. -/
theorem Filed.taken {s a : Nat} {c : Request} (h : Filed ⟨s, a, raise .onCommited⟩ c) :
    Filed ⟨s, a, .requestSub :: raise .onCommited⟩ c :=
  ⟨h.told.taken, raise_records .onCommited, fun _ _ _ heq => nomatch heq⟩

/-- Where no operation records a status, recording one is not the next. -/
theorem ne_setStatus {ops rest : List RPCOp} {event : RPCEvent} {requestID : String}
    (h : ∀ op ∈ ops, op.records = false) : ops ≠ .setStatus event requestID :: rest := by
  rintro rfl
  cases h _ List.mem_cons_self

section Filed

variable {s a : Nat} {op : RPCOp} {rest ops : List RPCOp} {c c' : Request}

/-- Before an operation that records nothing, nothing is to be recorded. -/
theorem Filed.silent (h : Filed ⟨s, a, op :: rest⟩ c) (hop : op.records = false) :
    ∀ op' ∈ op :: rest, op'.records = false :=
  List.forall_mem_cons.mpr ⟨hop, h.behind⟩

/-- Nor is it where operations that record nothing have taken an operation's place. -/
theorem Filed.silent_append (h : Filed ⟨s, a, op :: rest⟩ c)
    (hops : ∀ op ∈ ops, op.records = false) : ∀ op' ∈ ops ++ rest, op'.records = false := by
  intro op' hop'
  rcases List.mem_append.mp hop' with hmem | hmem
  · exact hops op' hmem
  · exact h.behind op' hmem

/-- Behind an operation nothing new is to be recorded. -/
theorem Filed.goes (h : Filed ⟨s, a, op :: rest⟩ c) (ht : Told ⟨s, a, ops ++ rest⟩ c')
    (hops : ∀ op ∈ ops, op.records = false) : Filed ⟨s, a, ops ++ rest⟩ c' := by
  have hnone := h.silent_append hops
  refine ⟨ht, fun op' hop' => hnone op' (List.mem_of_mem_tail hop'), ?_⟩
  intro event requestID rest' heq
  exact absurd heq (ne_setStatus hnone)

end Filed

namespace RPCServer

section Executes

variable {C : Setting} {v v' : RPCServer} {s a t : Nat} {role : Role} {answer : Answer}
  {op : RPCOp} {ops rest : List RPCOp}

/-- What the environment of `keepsIds` answers to the operation that is carried out. -/
theorem keepsIds_advance (hat : v.threads[t]? = some ⟨role, s, a, op :: rest⟩)
    (hok : v.keepsIds (.advance t answer) = true) :
    (op = .initRPCPacket → v.fresh answer.uid = true) ∧
    (∀ serviceName, op = .checkServiceParameter serviceName →
      answer.packet.requestId = (v.packet a).requestId) ∧
    (op = .running → answer.packet.requestId = (v.packet a).requestId) := by
  simp only [keepsIds, answers, hat] at hok
  refine ⟨?_, ?_, ?_⟩
  · rintro rfl
    exact hok
  · rintro serviceName rfl
    exact beq_iff_eq.mp hok
  · rintro rfl
    exact beq_iff_eq.mp hok

/-- Only the lookup is followed by the second half of `UpdateRequestStatus`. -/
theorem Executes.records (h : Executes C v s a answer op v' ops) :
    (∀ op' ∈ ops, op'.records = false) ∨
      ∃ event entry, op = .findRequest event ∧
        RPCPacketManager.findRequest (v.packet a).requestId v.requests = some entry ∧
        ops = [.setStatus event (v.packet a).requestId] := by
  cases h with
  | @found event entry hfind => exact .inr ⟨event, entry, rfl, hfind, rfl⟩
  | initRPCPacket | addRequest | notFound | setStatus | setNothing | removeRequest | responseFull
  | responseLink | responseAdd | requestLink | requestAdd | requestSub | commit | escaped =>
    exact .inl nofun
  | createResponse | knownService | terminate | valid | invoked =>
    exact .inl (List.forall_mem_singleton.mpr rfl)
  | responseRoom =>
    refine .inl fun op hop => ?_
    rcases List.mem_pair.mp hop with rfl | rfl <;> rfl
  | requestRoom => exact .inl (by decide)
  | requestFull | emptyService | unknownService | notChecked | invalid | missing | returned
  | threw => exact .inl (raise_records _)

/-- One operation keeps what its carrier and its record have to do with the entries. -/
theorem Executes.filed (h : Executes C v s a answer op v' ops) {c c' : Request}
    (hc : v.packets[a]? = some c) (hc' : v'.packets[a]? = some c')
    (hf : Filed ⟨s, a, op :: rest⟩ c) : Filed ⟨s, a, v.onward a op ops rest⟩ c' := by
  have htold := h.told hc hc' hf.told
  have hrecords := h.records
  cases h with
  | @found event =>
    obtain rfl := own_eq hc hc'
    refine ⟨htold, hf.behind, ?_⟩
    rintro event' requestID rest' heq
    obtain ⟨heq, -⟩ := List.cons.inj heq
    cases heq
    rw [packet_eq hc]
    exact ⟨rfl, beginnings_handled _ htold.beginning (.handled event)
      (by simp only [List.getLast?_concat, Option.mem_def]) rfl⟩
  | requestLink =>
    refine ⟨htold, fun op hop => raise_records _ op (List.mem_of_mem_tail hop), ?_⟩
    exact fun _ _ _ heq => nomatch heq
  | commit =>
    refine ⟨htold, nofun, ?_⟩
    exact fun _ _ _ heq => nomatch heq
  | notFound => exact hf.goes htold nofun
  | _ =>
    rcases hrecords with hnone | ⟨_, _, heq, -⟩
    · exact hf.goes htold hnone
    · cases heq

/-- The ledger as the records have it. -/
def ledgers (v : RPCServer) : List Ledger := v.packets.map Request.ledger

theorem ledgers_at {c : Request} (hc : v.packets[a]? = some c) :
    v.ledgers[a]? = some c.ledger := by
  rw [ledgers, List.getElem?_map, hc]
  rfl

/-- A change of one record is a change of one line of the ledger. -/
theorem ledgers_modify {f : Request → Request} {g : Ledger → Ledger} {c : Request}
    (hc : v.packets[a]? = some c) (hg : (f c).ledger = g c.ledger) :
    (v.packets.modify a f).map Request.ledger = v.ledgers.modify a g := by
  ext p : 1
  rw [List.getElem?_map, List.getElem?_modify, ledgers, List.getElem?_modify, List.getElem?_map]
  by_cases hap : a = p
  · subst hap
    rw [hc]
    simp only [if_true, Option.map_eq_map, Option.map_some, hg]
  · simp only [if_neg hap, Option.map_eq_map, Option.map_id']

theorem contains_told {story : Story} {act act' : Act} (h : act ≠ act') :
    (story ++ [act]).contains act' = story.contains act' := by
  simp only [List.contains_eq_any_beq, List.any_append, List.any_cons, List.any_nil,
    Bool.or_false, beq_eq_false_iff_ne.mpr (Ne.symm h)]

/-- Only two acts make a request live or not. -/
theorem alive_told {story : Story} {act : Act} (hadded : act ≠ .added)
    (hremoves : act.removes = false) : alive (story ++ [act]) = alive story := by
  simp only [alive, contains_told hadded, List.any_append, List.any_cons, hremoves, List.any_nil,
    Bool.or_false]

/-- Nothing changes for the manager when a history grows by something else. -/
theorem ledger_told {c c' : Request} (hsession : c'.session = c.session)
    (hid : c'.packet.requestId = c.packet.requestId) {act : Act}
    (hhistory : c'.history = c.history ++ [act])
    (hact : act ≠ .assigned ∧ act ≠ .added ∧ act.removes = false) : c'.ledger = c.ledger := by
  obtain ⟨hassigned, hadded, hremoves⟩ := hact
  simp only [Request.ledger, hsession, hid, hhistory, contains_told hassigned,
    alive_told hadded hremoves]

/-- One operation for a request that is in hand keeps the book. -/
theorem Executes.booked (h : Executes C v s a answer op v' ops)
    (hat : v.threads[t]? = some ⟨role, s, a, op :: rest⟩)
    (hok : v.keepsIds (.advance t answer) = true) {c : Request} (hc : v.packets[a]? = some c)
    (hf : Filed ⟨s, a, op :: rest⟩ c) (hb : Booked C.uuid v.requests v.ledgers) :
    Booked C.uuid v'.requests v'.ledgers := by
  obtain ⟨hfresh, hchecks, hruns⟩ := keepsIds_advance hat hok
  have hpacket : v.packet a = c.packet := packet_eq hc
  -- an operation that leaves the line of its request as it is
  have hquiet : ∀ {f : Request → Request}, v'.packets = v.packets.modify a f →
      v'.requests = v.requests → (f c).ledger = c.ledger →
      Booked C.uuid v'.requests v'.ledgers := by
    intro f hpackets hrequests hledger
    rw [hrequests, ledgers, hpackets, ledgers_modify (g := id) hc hledger, List.modify_id]
    exact hb
  cases h with
  | setNothing | responseRoom | responseAdd | requestLink | requestAdd | requestSub
  | knownService | terminate => exact hb
  | found | notFound | createResponse | responseFull | responseLink | requestRoom | requestFull
  | emptyService | unknownService | notChecked | commit | invoked | missing =>
    exact hquiet rfl rfl (ledger_told rfl rfl rfl ⟨nofun, nofun, rfl⟩)
  | valid | invalid =>
    exact hquiet rfl rfl (ledger_told rfl ((hchecks _ rfl).trans (congrArg _ hpacket)) rfl
      ⟨nofun, nofun, rfl⟩)
  | returned | threw | escaped =>
    exact hquiet rfl rfl (ledger_told rfl ((hruns rfl).trans (congrArg _ hpacket)) rfl
      ⟨nofun, nofun, rfl⟩)
  | @setStatus event requestID sessionID p hfind =>
    have hsame : (v.packets.modify p (Request.record event answer.time)).map Request.ledger =
        v.ledgers := by
      ext q : 1
      rw [List.getElem?_map, List.getElem?_modify, ledgers, List.getElem?_map]
      by_cases hpq : p = q
      · simp only [if_pos hpq, Option.map_eq_map, Option.map_map]
        refine congrFun (congrArg _ (funext fun c => ?_)) _
        simp only [Function.comp_apply, Request.ledger, Request.record,
          RPCPacketManager.updateStatus_requestId]
      · simp only [if_neg hpq, Option.map_eq_map, Option.map_id']
    show Booked C.uuid v.requests ((v.packets.modify p _).map _)
    rw [hsame]
    exact hb
  | initRPCPacket =>
    have hbegin := hf.told.next_after rfl
    have hdead := (beginnings_entries _ hbegin).2.1 List.getLast?_concat
    rw [List.dropLast_concat] at hdead
    have hnew : ∀ (p : Nat) g, v.ledgers[p]? = some g → g.assigned = true → g.id ≠ answer.uid := by
      intro p g hg hassigned hid
      rw [ledgers, List.getElem?_map] at hg
      obtain ⟨c₁, hc₁, rfl⟩ := Option.map_eq_some_iff.mp hg
      have hfresh₁ := List.all_eq_true.mp (hfresh rfl) c₁ (List.mem_of_getElem? hc₁)
      simp only [Request.ledger] at hassigned hid
      simp only [hassigned, Bool.not_true, Bool.false_or, bne_iff_ne] at hfresh₁
      exact hfresh₁ hid
    have hassign := hb.assign (ledgers_at hc) hdead hnew
    rw [← ledgers_modify (f := fun c => { c with
      packet := RPCPacketManager.initRPCPacket answer.uid (C.uuid s) answer.time c.packet
      history := c.history ++ [.assigned]
      recorded := c.recorded ++ [.submitted] }) hc ?_] at hassign
    · exact hassign
    · simp only [Request.ledger, RPCPacketManager.initRPCPacket,
        alive_told (show Act.assigned ≠ .added from nofun) rfl, List.contains_append,
        List.contains_cons, BEq.rfl, Bool.true_or, Bool.or_true]
  | addRequest =>
    have hbegin := hf.told.next_after rfl
    obtain ⟨hassigned, halive, hdead⟩ := (beginnings_entries _ hbegin).2.2.1 List.getLast?_concat
    rw [List.dropLast_concat] at hdead
    have hother : Act.added ≠ .assigned := nofun
    rw [contains_told hother] at hassigned
    have hadd := hb.add (ledgers_at hc) hassigned hdead
    rw [← ledgers_modify (f := fun c => { c with history := c.history ++ [.added] }) hc ?_] at hadd
    · have hsession : c.session = s := hf.told.session
      rw [RPCServer.addRequest, hpacket, ← hsession]
      exact hadd
    · simp only [Request.ledger, halive, contains_told hother]
  | @removeRequest event =>
    have hbegin := hf.told.next_after rfl
    have halive := (beginnings_entries _ hbegin).2.2.2 (.removed event)
      (by simp only [List.getLast?_concat, Option.mem_def]) rfl
    rw [List.dropLast_concat] at halive
    have hremove := hb.remove (ledgers_at hc) halive
    rw [← ledgers_modify (f := fun c => { c with history := c.history ++ [.removed event] }) hc
      ?_] at hremove
    · rw [RPCServer.removeRequest, hpacket]
      exact hremove
    · have hother : Act.removed event ≠ .assigned := nofun
      simp only [Request.ledger, alive, contains_told hother, List.any_append, List.any_cons,
        Act.removes, Bool.true_or, Bool.or_true, Bool.not_true, Bool.and_false]

end Executes

section Step

variable {C : Setting} {v v' : RPCServer} {l : RPCLabel}

/-- THE INVARIANT of the manager: every carrier fits its record, and the map is booked. -/
structure Managed (C : Setting) (v : RPCServer) : Prop where
  filed : Relay.InOrder Call.holds Filed Over v.carriers v.packets
  booked : Booked C.uuid v.requests v.ledgers

/-- A thread that is to record a status finds its own request under the id. -/
theorem Managed.found_own (h : v.Managed C) {t s a : Nat} {role : Role} {event : RPCEvent}
    {requestID : String} {rest : List RPCOp}
    (hat : v.threads[t]? = some ⟨role, s, a, .setStatus event requestID :: rest⟩) :
    RPCPacketManager.findRequest requestID v.requests = some (C.uuid s, a) := by
  obtain ⟨c, hc, hfiled⟩ := fits_of_working h.filed hat List.mem_cons_self rfl
  obtain ⟨rfl, halive⟩ := hfiled.found event requestID rest rfl
  have hsession : c.session = s := hfiled.told.session
  rw [← hsession]
  exact h.booked.find_live (ledgers_at hc) halive

/-- The status is recorded in the thread's own request. -/
theorem Managed.records_own (h : v.Managed C) {t s a p : Nat} {role : Role} {event : RPCEvent}
    {requestID sessionID : String} {rest : List RPCOp}
    (hat : v.threads[t]? = some ⟨role, s, a, .setStatus event requestID :: rest⟩)
    (hfind : RPCPacketManager.findRequest requestID v.requests = some (sessionID, p)) : p = a := by
  rw [h.found_own hat] at hfind
  exact (Prod.mk.inj (Option.some.inj hfind)).2.symm

theorem Managed.not_strays (h : v.Managed C) (t : Nat) : ¬ v.Strays t := by
  rintro ⟨role, s, a, event, requestID, rest, sessionID, p, hat, hfind, hpa⟩
  exact hpa (h.records_own hat hfind)

theorem Managed.beginning (h : v.Managed C) {a : Nat} {c : Request}
    (hc : v.packets[a]? = some c) : c.history ∈ beginnings := by
  rcases h.filed.held_or_done hc with ⟨k, -, -, hfiled⟩ | ⟨-, hover⟩
  · exact hfiled.told.beginning
  · exact hover.beginning

theorem filed_onData (C : Setting) {v : RPCServer} {t s : Nat} {body : List UInt8} {c : Request}
    (hc : (v.onData C t s body).packets = v.packets ++ [c]) :
    Filed ⟨s, v.packets.length, raise (if (C.parseFromArray body).isSome then .onDeserialized
      else .onDeserializedFailed)⟩ c := by
  refine ⟨told_onData C hc, fun op hop => raise_records _ op (List.mem_of_mem_tail hop), ?_⟩
  intro event requestID rest heq
  exact absurd heq (ne_setStatus (raise_records _))

theorem Managed.filed_step (h : v.Managed C) (hmoves : Moves C v l v') :
    Relay.InOrder Call.holds Filed Over v'.carriers v'.packets := by
  refine inOrder_step h.filed hmoves (fun _ _ hk => hk.told.ordered)
    (fun _ _ _ _ _ hc => filed_onData C hc) (fun _ _ _ hk => hk.taken) ?_ ?_ ?_
  · intro t role s a op rest answer v₁ ops c c' _ _ hexecutes hc hc' hk
    exact hexecutes.filed hc hc' hk
  · intro t answer _ _ event time
    refine ⟨fun k c hk => ⟨⟨hk.told.ordered, hk.told.session, hk.told.goesOn⟩, hk.behind,
      fun event' requestID rest heq => ?_⟩, fun c hc => hc⟩
    obtain ⟨hid, halive⟩ := hk.found event' requestID rest heq
    exact ⟨hid.trans (RPCPacketManager.updateStatus_requestId _ _ _).symm, halive⟩
  · exact fun k c hk hnone => hk.told.over hnone

theorem Managed.booked_step (h : v.Managed C) (hok : v.keepsIds l = true)
    (hmoves : Moves C v l v') : Booked C.uuid v'.requests v'.ledgers := by
  cases hmoves with
  | @deliver t s s₀ a₀ body hat =>
    have harrive := h.booked.arrive (g := ⟨s, ((C.parseFromArray body).getD {}).requestId, false,
      false⟩) rfl rfl
    show Booked C.uuid v.requests ((v.packets ++ [_]).map Request.ledger)
    rw [List.map_append]
    exact harrive
  | takeRequest | takeTask | takeResponse | subtractResponse | completeWrite => exact h.booked
  | sendResponse =>
    simp only [send]
    split <;> exact h.booked
  | @advance t s a role op rest ops answer v₁ hat hexecutes =>
    cases hop : op.concerns with
    | true =>
      obtain ⟨c, hc, hfiled⟩ := fits_of_working h.filed hat List.mem_cons_self hop
      exact hexecutes.booked hat hok hc hfiled h.booked
    | false =>
      obtain ⟨hpackets, -⟩ := hexecutes.idle hop
      have hrequests : v₁.requests = v.requests := by
        cases hexecutes <;> first | rfl | cases hop
      show Booked C.uuid v₁.requests (v₁.packets.map _)
      rw [hrequests, hpackets]
      exact h.booked

theorem Managed.step (h : v.Managed C) (hok : v.keepsIds l = true) (hmoves : Moves C v l v') :
    v'.Managed C :=
  ⟨h.filed_step hmoves, h.booked_step hok hmoves⟩

theorem managed_of_reachable
    (h : (machine C).ReachableBy (fun v l => v.keepsIds l = true) v) : v.Managed C :=
  h.invariant (fun _ ⟨_, _, _, hv⟩ => hv ▸ ⟨inOrder_new _ _, .nil _⟩)
    fun _ _ _ hmanaged hok hstep => hmanaged.step hok (moves_of_step hstep)

/-- Nothing escapes where execute functions return or throw a `std::exception`. -/
theorem not_escaped_of_reachable
    (h : (machine C).ReachableBy (fun v l => v.functionsEnd l = true) v) :
    ∀ (a : Nat) c, v.packets[a]? = some c → .escaped ∉ c.history := by
  refine h.invariant (I := fun v => ∀ (a : Nat) c, v.packets[a]? = some c →
    .escaped ∉ c.history) ?_ ?_
  · rintro _ ⟨_, _, -, rfl⟩ a c hc
    cases hc
  · intro v l v' hnone hok hstep a c' hc' hmem
    rcases (moves_of_step hstep).history hc' with ⟨c, hc, heq⟩ | ⟨-, heq⟩ |
      ⟨t, role, s, op, rest, answer, -, -, act, c, rfl, hat, -, -, htells, hc, heq⟩
    · exact hnone a c hc (heq ▸ hmem)
    · rw [heq] at hmem
      cases hmem
    · rw [heq, List.mem_append, List.mem_singleton] at hmem
      rcases hmem with hmem | rfl
      · exact hnone a c hc hmem
      · cases op with
        | running =>
          simp only [functionsEnd, answers, hat, beq_iff_eq.mp htells] at hok
          cases hok
        | _ => cases htells

/-- The manager's entries are those of the requests that are alive. -/
theorem Managed.mem_requests (h : v.Managed C) {id sid : String} {a : Nat} :
    (id, sid, a) ∈ v.requests ↔ ∃ c, v.packets[a]? = some c ∧ alive c.history = true ∧
      c.packet.requestId = id ∧ C.uuid c.session = sid := by
  rw [h.booked.listed id sid a]
  constructor
  · rintro ⟨g, hg, hrest⟩
    rw [ledgers, List.getElem?_map] at hg
    obtain ⟨c, hc, rfl⟩ := Option.map_eq_some_iff.mp hg
    exact ⟨c, hc, hrest⟩
  · rintro ⟨c, hc, hrest⟩
    exact ⟨c.ledger, ledgers_at hc, hrest⟩

/-- The request that a step is for. -/
def requestOf (v : RPCServer) : RPCLabel → Option Nat
  | .advance t _ => (v.threads[t]?).map fun th => th.call.request
  | _ => none

/-- No step touches the record of another request. -/
theorem Managed.elsewhere (h : v.Managed C) (hmoves : Moves C v l v') {a : Nat} {c : Request}
    (hc : v.packets[a]? = some c) (hne : v.requestOf l ≠ some a) : v'.packets[a]? = some c := by
  cases hmoves with
  | deliver =>
    simp only [onData, List.getElem?_append_left (List.getElem?_eq_some_iff.mp hc).1, hc]
  | takeRequest | takeTask | takeResponse | subtractResponse | completeWrite => exact hc
  | sendResponse =>
    simp only [send]
    split <;> exact hc
  | @advance t s b role op rest ops answer v₁ hat hexecutes =>
    have hba : b ≠ a := by
      rintro rfl
      exact hne (by simp only [requestOf, hat, Option.map_some])
    show v₁.packets[a]? = some c
    rcases hexecutes.packets with ⟨f, hf⟩ | ⟨event, requestID, sessionID, p, rfl, hfind, hf⟩
    · rw [hf, List.getElem?_modify_ne _ _ hba, hc]
    · obtain rfl := h.records_own hat hfind
      rw [hf, List.getElem?_modify_ne _ _ hba, hc]

/-- A step makes nothing of a request, or what an operation about it makes of it. -/
theorem Managed.packet_cases (h : v.Managed C) (hmoves : Moves C v l v') {a : Nat}
    {c c' : Request} (hc : v.packets[a]? = some c) (hc' : v'.packets[a]? = some c') :
    c' = c ∨ ∃ t answer role s op rest v₁ ops, l = .advance t answer ∧
      v.threads[t]? = some ⟨role, s, a, op :: rest⟩ ∧ op.concerns = true ∧
      Executes C v s a answer op v₁ ops ∧ v₁.packets[a]? = some c' := by
  by_cases hfor : v.requestOf l = some a
  · cases hmoves with
    | @advance t s b role op rest ops answer v₁ hat hexecutes =>
      obtain rfl : b = a := by
        simpa only [requestOf, hat, Option.map_some, Option.some.injEq] using hfor
      have hown : v₁.packets[b]? = some c' := hc'
      cases hop : op.concerns with
      | true => exact .inr ⟨t, answer, role, s, op, rest, v₁, ops, rfl, hat, hop, hexecutes, hown⟩
      | false =>
        obtain ⟨hpackets, -⟩ := hexecutes.idle hop
        rw [hpackets, hc] at hown
        exact .inl (Option.some.inj hown).symm
    | _ => cases hfor
  · rw [h.elsewhere hmoves hc hfor] at hc'
    exact .inl (Option.some.inj hc').symm

end Step

/-- An entry is added and not removed. -/
theorem alive_iff {story : Story} :
    alive story = true ↔ .added ∈ story ∧ ∀ event, .removed event ∉ story := by
  simp only [alive, Bool.and_eq_true, List.contains_iff_mem, Bool.not_eq_true',
    List.any_eq_false]
  refine and_congr_right fun _ => ⟨fun h event hmem => ?_, fun h act hmem => ?_⟩
  · exact h _ hmem rfl
  · cases act with
    | removed event => exact absurd hmem (h event)
    | _ => exact Bool.false_ne_true

/-- The manager's entries in every reachable state, for any packets, threads and interleaving, if
generated ids are fresh, the called functions leave them alone, check functions return and execute
functions return or throw a `std::exception`: there is an entry
for exactly the ids of the requests that have been added and whose terminal event has not been
handled; an entry is removed at most once, and exactly once by the time the request is in nobody's
hands; no step changes the entry or the packet of another request than the one it is for; and
without a request that is handled, queued or committed there is no entry. -/
theorem requests_of_reachable (C : Setting) {v : RPCServer}
    (h : (machine C).ReachableBy
      (fun v l => v.keepsIds l = true ∧ v.functionsEnd l = true) v) :
    (∀ id, id ∈ v.requests.map Prod.fst ↔ ∃ (a : Nat) (c : Request), v.packets[a]? = some c ∧
      c.packet.requestId = id ∧ .added ∈ c.history ∧ ∀ event, .removed event ∉ c.history) ∧
    (∀ (a : Nat) c, v.packets[a]? = some c → c.history.countP Act.removes ≤ 1 ∧
      (.added ∈ c.history → (∀ k ∈ v.carriers, k.holds ≠ some a) →
        c.history.countP Act.removes = 1)) ∧
    (∀ l v', v.keepsIds l = true → step C v l = some v' → ∀ (a : Nat) c,
      v.packets[a]? = some c → v.requestOf l ≠ some a → v'.packets[a]? = some c ∧
        ∀ id sid, (id, sid, a) ∈ v'.requests ↔ (id, sid, a) ∈ v.requests) ∧
    (v.Quiet → v.requests = []) := by
  have hmanaged := managed_of_reachable (h.mono fun _ _ hok => hok.1)
  have hreturned := not_escaped_of_reachable (h.mono fun _ _ hok => hok.2)
  have honce : ∀ {a : Nat} {c : Request}, v.packets[a]? = some c → .added ∈ c.history →
      Over c → c.history.countP Act.removes = 1 :=
    fun hc hadded hover => lives_entries _ hover hadded (hreturned _ _ hc)
  refine ⟨fun id => ⟨fun hmem => ?_, ?_⟩, fun a c hc => ⟨?_, fun hadded hnobody => ?_⟩,
    fun l v' hok hstep a c hc hne => ?_, fun hquiet => ?_⟩
  · obtain ⟨⟨id, sid, a⟩, hlisted, rfl⟩ := List.mem_map.mp hmem
    obtain ⟨c, hc, halive, hid, -⟩ := hmanaged.mem_requests.mp hlisted
    exact ⟨a, c, hc, hid, alive_iff.mp halive⟩
  · rintro ⟨a, c, hc, rfl, halive⟩
    exact List.mem_map.mpr ⟨(_, _, a),
      hmanaged.mem_requests.mpr ⟨c, hc, alive_iff.mpr halive, rfl, rfl⟩,
      rfl⟩
  · exact (beginnings_entries _ ((relayed_of_reachable h).beginning hc)).1
  · exact honce hc hadded (hmanaged.filed.done a c hc hnobody)
  · have hmoves := moves_of_step hstep
    have hc' := hmanaged.elsewhere hmoves hc hne
    refine ⟨hc', fun id sid => ?_⟩
    have hledger : v'.ledgers[a]? = v.ledgers[a]? := by rw [ledgers_at hc, ledgers_at hc']
    rw [(hmanaged.booked_step hok hmoves).listed, hmanaged.booked.listed, hledger]
  · refine List.eq_nil_iff_forall_not_mem.mpr fun ⟨id, sid, a⟩ hmem => ?_
    obtain ⟨c, hc, halive, -⟩ := hmanaged.mem_requests.mp hmem
    obtain ⟨hadded, hremoved⟩ := alive_iff.mp halive
    have hcount := honce hc hadded (done_of_quiet hmanaged.filed hquiet hc)
    obtain ⟨act, hact, hremoves⟩ :=
      List.countP_pos_iff.mp (Nat.lt_of_lt_of_eq Nat.zero_lt_one hcount.symm)
    cases act with
    | removed event => exact hremoved event hact
    | _ => cases hremoves

/-- A request is completed, and the manager knows nothing of it any more. -/
theorem requests_of_reachable_one :
    ∃ v, (machine (sampleSetting 8 8)).run (new [.io 0, .worker] [("a", 0)])
        (oneRequest { requestId := "id", service := "a" } 15 10 9) = some v ∧
      (v.packets[0]?).any (fun c => c.history.contains .added) = true ∧ v.requests = [] := by
  have hruns : ((machine (sampleSetting 8 8)).run (new [.io 0, .worker] [("a", 0)])
      (oneRequest { requestId := "id", service := "a" } 15 10 9)).any (fun v =>
        v.Quiet ∧ (v.packets[0]?).any (fun c => c.history.contains .added) = true) = true := by
    decide +kernel
  obtain ⟨v, hrun, hv⟩ := (Option.any_eq_true _ _).mp hruns
  obtain ⟨hquiet, hadded⟩ := of_decide_eq_true hv
  refine ⟨v, hrun, hadded, (requests_of_reachable (sampleSetting 8 8) ?_).2.2.2 hquiet⟩
  have hsound : ∀ (v : RPCServer) l, (v.keepsIds l && v.functionsEnd l) = true →
      v.keepsIds l = true ∧ v.functionsEnd l = true := fun _ _ => Bool.and_eq_true_iff.mp
  exact .run hsound (.start ⟨_, _, by decide, rfl⟩) (by decide +kernel) hrun

end RPCServer

end DSFramework.DSRPC
