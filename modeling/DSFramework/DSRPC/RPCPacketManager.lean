import DSFramework.DSRPC.RPCPacket

/-!
# The packet manager's data

`m_requests` maps the id of a live request to its session's id and its packet. A packet is named
by its address, so that the entry and whoever else holds the pointer mean the same object.
-/

namespace DSFramework.DSRPC

/-- `m_requests`: request id, session id, packet. -/
abbrev Requests := List (String × String × Nat)

namespace RPCPacketManager

/-- `m_requests[requestID] = std::make_pair(sessionID, request)`. -/
def addRequest (requestID sessionID : String) (request : Nat) (requests : Requests) : Requests :=
  requests.filter (·.1 != requestID) ++ [(requestID, sessionID, request)]

/-- `m_requests.erase(requestID)`. -/
def removeRequest (requestID : String) (requests : Requests) : Requests :=
  requests.filter (·.1 != requestID)

/-- `m_requests.find(requestID)`. -/
def findRequest (requestID : String) (requests : Requests) : Option (String × Nat) :=
  (requests.find? (·.1 == requestID)).map Prod.snd

/-- `InitRPCPacket`: the fields it writes, with the generated id and the current time. -/
def initRPCPacket (uid sessionID currentTime : String) (packet : RPCPacket) : RPCPacket :=
  { packet with
    requestId := uid
    status := .submitted
    error := .pktNoError
    innerId := sessionID
    createdTime := currentTime
    commitedTime := ""
    completedTime := "" }

/-- The locked part of `UpdateRequestStatus`: the status, and the time that goes with it. -/
def updateStatus (status : RPCPacketStatus) (currentTime : String) (packet : RPCPacket) :
    RPCPacket :=
  let packet := { packet with status := status }
  if status = .submitted then { packet with createdTime := currentTime }
  else if status = .waiting then { packet with postTime := currentTime }
  else if status = .commited then { packet with commitedTime := currentTime }
  else if status = .completed then { packet with completedTime := currentTime }
  else if status = .failed then { packet with failedTime := currentTime }
  else packet

theorem updateStatus_waiting (currentTime : String) (packet : RPCPacket) :
    updateStatus .waiting currentTime packet =
      { packet with status := .waiting, postTime := currentTime } := rfl

theorem updateStatus_commited (currentTime : String) (packet : RPCPacket) :
    updateStatus .commited currentTime packet =
      { packet with status := .commited, commitedTime := currentTime } := rfl

theorem updateStatus_failed (currentTime : String) (packet : RPCPacket) :
    updateStatus .failed currentTime packet =
      { packet with status := .failed, failedTime := currentTime } := rfl

/-- An update sets the status, and the time that goes with it. -/
theorem updateStatus_times (status : RPCPacketStatus) (currentTime : String) (packet : RPCPacket) :
    updateStatus status currentTime packet = { packet with
      status := status
      createdTime := if status = .submitted then currentTime else packet.createdTime
      postTime := if status = .waiting then currentTime else packet.postTime
      commitedTime := if status = .commited then currentTime else packet.commitedTime
      completedTime := if status = .completed then currentTime else packet.completedTime
      failedTime := if status = .failed then currentTime else packet.failedTime } := by
  unfold updateStatus
  split
  case isTrue h => subst h; rfl
  split
  case isTrue h => subst h; rfl
  split
  case isTrue h => subst h; rfl
  split
  case isTrue h => subst h; rfl
  split
  case isTrue h => subst h; rfl
  rfl

/-- An update concerns the status and the times only. -/
theorem updateStatus_eq (status : RPCPacketStatus) (currentTime : String) (packet : RPCPacket) :
    ∃ createdTime postTime commitedTime completedTime failedTime,
      updateStatus status currentTime packet = { packet with
        status := status
        createdTime := createdTime
        postTime := postTime
        commitedTime := commitedTime
        completedTime := completedTime
        failedTime := failedTime } :=
  ⟨_, _, _, _, _, updateStatus_times status currentTime packet⟩

@[simp] theorem updateStatus_requestId (status : RPCPacketStatus) (currentTime : String)
    (packet : RPCPacket) :
    (updateStatus status currentTime packet).requestId = packet.requestId := by
  obtain ⟨_, _, _, _, _, heq⟩ := updateStatus_eq status currentTime packet
  rw [heq]

@[simp] theorem updateStatus_status (status : RPCPacketStatus) (currentTime : String)
    (packet : RPCPacket) : (updateStatus status currentTime packet).status = status := by
  obtain ⟨_, _, _, _, _, heq⟩ := updateStatus_eq status currentTime packet
  rw [heq]

@[simp] theorem updateStatus_innerId (status : RPCPacketStatus) (currentTime : String)
    (packet : RPCPacket) : (updateStatus status currentTime packet).innerId = packet.innerId := by
  obtain ⟨_, _, _, _, _, heq⟩ := updateStatus_eq status currentTime packet
  rw [heq]

@[simp] theorem updateStatus_service (status : RPCPacketStatus) (currentTime : String)
    (packet : RPCPacket) : (updateStatus status currentTime packet).service = packet.service := by
  obtain ⟨_, _, _, _, _, heq⟩ := updateStatus_eq status currentTime packet
  rw [heq]

end RPCPacketManager

/-! ## The ledger

What `m_requests` is for: to know the requests that are alive. The ledger says so of every
address, and `Booked` that the map agrees with it. Each of the manager's operations on the map is
one on the ledger. -/

/-- What the manager needs to know of the packet at an address: its session, its id, and whether it
has been given an id and is alive. -/
structure Ledger where
  session : Nat
  id : String
  assigned : Bool
  live : Bool
  deriving DecidableEq, Repr

/-- The map has exactly one entry for every live packet, under its own id; ids are given once. -/
structure Booked (uuid : Nat → String) (requests : Requests) (ledgers : List Ledger) : Prop where
  listed : ∀ id sid (p : Nat), (id, sid, p) ∈ requests ↔
    ∃ g, ledgers[p]? = some g ∧ g.live = true ∧ g.id = id ∧ uuid g.session = sid
  distinct : ∀ (p q : Nat) g g', ledgers[p]? = some g → ledgers[q]? = some g' →
    g.assigned = true → g'.assigned = true → g.id = g'.id → p = q
  assigned : ∀ (p : Nat) g, ledgers[p]? = some g → g.live = true → g.assigned = true

namespace Booked

open RPCPacketManager (addRequest removeRequest findRequest)

variable {uuid : Nat → String} {requests : Requests} {ledgers : List Ledger} {a : Nat}
  {g : Ledger}

theorem nil (uuid : Nat → String) : Booked uuid [] [] where
  listed := fun _ _ _ => ⟨nofun, fun ⟨_, hg, _⟩ => nomatch hg⟩
  distinct := fun _ _ _ _ hg => nomatch hg
  assigned := fun _ _ hg => nomatch hg

/-- What the ledger says after a change at one address. -/
theorem modify_cases {f : Ledger → Ledger} {p : Nat} {g' : Ledger}
    (h : (ledgers.modify a f)[p]? = some g') :
    (p = a ∧ ∃ g, ledgers[a]? = some g ∧ g' = f g) ∨ (p ≠ a ∧ ledgers[p]? = some g') := by
  rw [List.getElem?_modify] at h
  obtain ⟨g, hg, h⟩ := Option.map_eq_some_iff.mp h
  by_cases hap : a = p
  · subst hap
    exact .inl ⟨rfl, g, hg, by simpa only [if_true] using h.symm⟩
  · refine .inr ⟨Ne.symm hap, ?_⟩
    simp only [if_neg hap] at h
    exact h ▸ hg

/-- A live packet is found under its id. -/
theorem find_live (h : Booked uuid requests ledgers) (hg : ledgers[a]? = some g)
    (hlive : g.live = true) : findRequest g.id requests = some (uuid g.session, a) := by
  have hmem : (g.id, uuid g.session, a) ∈ requests :=
    (h.listed _ _ _).mpr ⟨g, hg, hlive, rfl, rfl⟩
  have hfind : (requests.find? (·.1 == g.id)).isSome = true := by
    rw [List.find?_isSome]
    exact ⟨_, hmem, beq_self_eq_true _⟩
  obtain ⟨⟨id, sid, p⟩, hentry⟩ := Option.isSome_iff_exists.mp hfind
  obtain rfl : id = g.id := by simpa using List.find?_some hentry
  obtain ⟨g', hg', hlive', hid, rfl⟩ := (h.listed _ _ _).mp (List.mem_of_find?_eq_some hentry)
  obtain rfl := h.distinct p a g' g hg' hg (h.assigned p g' hg' hlive') (h.assigned a g hg hlive)
    hid
  obtain rfl := Option.some.inj (hg.symm.trans hg')
  rw [findRequest, hentry]
  rfl

/-- A packet arrives. -/
theorem arrive (h : Booked uuid requests ledgers) (hlive : g.live = false)
    (hassigned : g.assigned = false) : Booked uuid requests (ledgers ++ [g]) := by
  have hcases : ∀ {p : Nat} {g' : Ledger}, (ledgers ++ [g])[p]? = some g' →
      g'.live = true ∨ g'.assigned = true → ledgers[p]? = some g' := by
    intro p g' hg' hkind
    rcases Nat.lt_or_ge p ledgers.length with hlt | hge
    · rwa [List.getElem?_append_left hlt] at hg'
    · rw [List.getElem?_append_right hge, List.getElem?_singleton] at hg'
      split at hg'
      · cases hg'
        simp only [hlive, hassigned, Bool.false_eq_true, or_self] at hkind
      · cases hg'
  have hkept : ∀ {p : Nat} {g' : Ledger}, ledgers[p]? = some g' →
      (ledgers ++ [g])[p]? = some g' := fun hg' => by
    rwa [List.getElem?_append_left (List.getElem?_eq_some_iff.mp hg').1]
  refine ⟨fun id sid p => (h.listed id sid p).trans ⟨?_, ?_⟩, ?_, ?_⟩
  · rintro ⟨g', hg', hrest⟩
    exact ⟨g', hkept hg', hrest⟩
  · rintro ⟨g', hg', hlive', hrest⟩
    exact ⟨g', hcases hg' (.inl hlive'), hlive', hrest⟩
  · intro p q g₁ g₂ hg₁ hg₂ h₁ h₂
    exact h.distinct p q g₁ g₂ (hcases hg₁ (.inr h₁)) (hcases hg₂ (.inr h₂)) h₁ h₂
  · intro p g' hg' hlive'
    exact h.assigned p g' (hcases hg' (.inl hlive')) hlive'

/-- `InitRPCPacket` gives a packet that is not in the map an id that nobody has. -/
theorem assign (h : Booked uuid requests ledgers) (hg : ledgers[a]? = some g)
    (hlive : g.live = false) {uid : String}
    (hfresh : ∀ (p : Nat) g', ledgers[p]? = some g' → g'.assigned = true → g'.id ≠ uid) :
    Booked uuid requests (ledgers.modify a fun g => { g with id := uid, assigned := true }) := by
  have hown : (ledgers.modify a fun g => { g with id := uid, assigned := true })[a]? =
      some { g with id := uid, assigned := true } := by
    rw [List.getElem?_modify_eq, hg]
    rfl
  refine ⟨fun id sid p => (h.listed id sid p).trans ⟨?_, ?_⟩, ?_, ?_⟩
  · rintro ⟨g', hg', hlive', hrest⟩
    have hpa : p ≠ a := by
      rintro rfl
      rw [hg] at hg'
      cases hg'
      rw [hlive] at hlive'
      cases hlive'
    exact ⟨g', by rw [List.getElem?_modify_ne _ _ (Ne.symm hpa), hg'], hlive', hrest⟩
  · rintro ⟨g', hg', hlive', hrest⟩
    rcases modify_cases hg' with ⟨rfl, g₀, hg₀, rfl⟩ | ⟨-, hg'⟩
    · rw [hg] at hg₀
      cases hg₀
      rw [hlive] at hlive'
      cases hlive'
    · exact ⟨g', hg', hlive', hrest⟩
  · intro p q g₁ g₂ hg₁ hg₂ h₁ h₂ hid
    rcases modify_cases hg₁ with ⟨hp, g₀, -, rfl⟩ | ⟨-, hold₁⟩
    · rcases modify_cases hg₂ with ⟨hq, -⟩ | ⟨-, hold₂⟩
      · rw [hp, hq]
      · exact absurd hid.symm (hfresh q g₂ hold₂ h₂)
    · rcases modify_cases hg₂ with ⟨-, g₀, -, rfl⟩ | ⟨-, hold₂⟩
      · exact absurd hid (hfresh p g₁ hold₁ h₁)
      · exact h.distinct p q g₁ g₂ hold₁ hold₂ h₁ h₂ hid
  · intro p g' hg' hlive'
    rcases modify_cases hg' with ⟨rfl, g₀, -, rfl⟩ | ⟨-, hg'⟩
    · rfl
    · exact h.assigned p g' hg' hlive'

/-- Whether a packet is alive has nothing to do with its id. -/
theorem distinct_live (h : Booked uuid requests ledgers) (a : Nat) (live : Bool) :
    ∀ (p q : Nat) g g', (ledgers.modify a fun g => { g with live := live })[p]? = some g →
      (ledgers.modify a fun g => { g with live := live })[q]? = some g' →
      g.assigned = true → g'.assigned = true → g.id = g'.id → p = q := by
  have hback : ∀ {p : Nat} {g : Ledger},
      (ledgers.modify a fun g => { g with live := live })[p]? = some g → g.assigned = true →
      ∃ g₀, ledgers[p]? = some g₀ ∧ g₀.assigned = true ∧ g₀.id = g.id := by
    intro p g hg hassigned
    rcases modify_cases hg with ⟨rfl, g₀, hg₀, rfl⟩ | ⟨-, hg₀⟩
    · exact ⟨g₀, hg₀, hassigned, rfl⟩
    · exact ⟨g, hg₀, hassigned, rfl⟩
  intro p q g g' hg hg' hassigned hassigned' hid
  obtain ⟨g₀, hg₀, h₀, hid₀⟩ := hback hg hassigned
  obtain ⟨g₁, hg₁, h₁, hid₁⟩ := hback hg' hassigned'
  exact h.distinct p q g₀ g₁ hg₀ hg₁ h₀ h₁ (hid₀.trans (hid.trans hid₁.symm))

/-- `AddRequest` makes a packet alive. -/
theorem add (h : Booked uuid requests ledgers) (hg : ledgers[a]? = some g)
    (hassigned : g.assigned = true) (hlive : g.live = false) :
    Booked uuid (addRequest g.id (uuid g.session) a requests)
      (ledgers.modify a fun g => { g with live := true }) := by
  have hother : ∀ {p : Nat} {g' : Ledger}, ledgers[p]? = some g' → g'.live = true →
      p ≠ a ∧ g'.id ≠ g.id := by
    intro p g' hg' hlive'
    have hpa : p ≠ a := by
      rintro rfl
      rw [hg] at hg'
      cases hg'
      rw [hlive] at hlive'
      cases hlive'
    exact ⟨hpa, fun hid => hpa (h.distinct p a g' g hg' hg (h.assigned p g' hg' hlive') hassigned
      hid)⟩
  have hadd : ∀ id sid p, (id, sid, p) ∈ addRequest g.id (uuid g.session) a requests ↔
      ((id, sid, p) ∈ requests ∧ id ≠ g.id) ∨ (id = g.id ∧ sid = uuid g.session ∧ p = a) := by
    intro id sid p
    simp only [addRequest, List.mem_append, List.mem_filter, bne_iff_ne, List.mem_singleton,
      Prod.mk.injEq]
  refine ⟨fun id sid p => (hadd id sid p).trans ⟨?_, ?_⟩, ?_, ?_⟩
  · rintro (⟨hmem, -⟩ | ⟨rfl, rfl, rfl⟩)
    · obtain ⟨g', hg', hlive', hrest⟩ := (h.listed _ _ _).mp hmem
      have hpa := (hother hg' hlive').1
      exact ⟨g', by rw [List.getElem?_modify_ne _ _ (Ne.symm hpa), hg'], hlive', hrest⟩
    · refine ⟨{ g with live := true }, ?_, rfl, rfl, rfl⟩
      rw [List.getElem?_modify_eq, hg]
      rfl
  · rintro ⟨g', hg', hlive', rfl, rfl⟩
    rcases modify_cases hg' with ⟨rfl, g₀, hg₀, rfl⟩ | ⟨-, hg'⟩
    · rw [hg] at hg₀
      cases hg₀
      exact .inr ⟨rfl, rfl, rfl⟩
    · exact .inl ⟨(h.listed _ _ _).mpr ⟨g', hg', hlive', rfl, rfl⟩, (hother hg' hlive').2⟩
  · exact h.distinct_live a true
  · intro p g' hg' hlive'
    rcases modify_cases hg' with ⟨rfl, g₀, hg₀, rfl⟩ | ⟨-, hg'⟩
    · rw [hg] at hg₀
      cases hg₀
      exact hassigned
    · exact h.assigned p g' hg' hlive'

/-- `RemoveRequest` forgets a live packet, and only that one. -/
theorem remove (h : Booked uuid requests ledgers) (hg : ledgers[a]? = some g)
    (hlive : g.live = true) : Booked uuid (removeRequest g.id requests)
      (ledgers.modify a fun g => { g with live := false }) := by
  have hremove : ∀ id sid p, (id, sid, p) ∈ removeRequest g.id requests ↔
      (id, sid, p) ∈ requests ∧ id ≠ g.id := by
    intro id sid p
    simp only [removeRequest, List.mem_filter, bne_iff_ne]
  refine ⟨fun id sid p => (hremove id sid p).trans ⟨?_, ?_⟩, ?_, ?_⟩
  · rintro ⟨hmem, hid⟩
    obtain ⟨g', hg', hlive', rfl, hsid⟩ := (h.listed _ _ _).mp hmem
    have hpa : p ≠ a := by
      rintro rfl
      rw [hg] at hg'
      cases hg'
      exact hid rfl
    exact ⟨g', by rw [List.getElem?_modify_ne _ _ (Ne.symm hpa), hg'], hlive', rfl, hsid⟩
  · rintro ⟨g', hg', hlive', rfl, hsid⟩
    rcases modify_cases hg' with ⟨rfl, g₀, -, rfl⟩ | ⟨hpa, hg'⟩
    · cases hlive'
    · refine ⟨(h.listed _ _ _).mpr ⟨g', hg', hlive', rfl, hsid⟩, fun hid => hpa ?_⟩
      exact h.distinct p a g' g hg' hg (h.assigned p g' hg' hlive') (h.assigned a g hg hlive) hid
  · exact h.distinct_live a false
  · intro p g' hg' hlive'
    rcases modify_cases hg' with ⟨rfl, g₀, -, rfl⟩ | ⟨-, hg'⟩
    · cases hlive'
    · exact h.assigned p g' hg' hlive'

end Booked

end DSFramework.DSRPC
