import DSFramework.DSRPC.RPCServer.Requests
import DSFramework.Lib.HashIterators

/-!
# The iterator of UpdateRequestStatus

`UpdateRequestStatus` looks the request up before it takes the lock, and dereferences the iterator
behind it. In between other threads go on adding and removing requests. That the request's own
element is not erased is the argument of the request's life: its entry is removed by whoever has the
request in hand, and that is the thread that holds the iterator. That the table is not rehashed
nobody sees to: `roomy` is the condition.

The server is the one of `RPCServer`, with the iterators into `m_requests` beside it.
-/

namespace DSFramework.DSRPC

/-- The server and the iterators that its threads hold into `m_requests`. -/
structure IteratorServer where
  server : RPCServer
  iterators : HashIterators Nat String

namespace RPCServer

/-- What a step does to the iterators into `m_requests`. `rehash` is the number of buckets that the
implementation makes. -/
def iterate (rehash : Nat → Nat → Nat) (v : RPCServer) (m : HashIterators Nat String) :
    RPCLabel → HashIterators Nat String
  | .advance t _ => match v.threads[t]? with
    | some ⟨_, _, a, op :: _⟩ => match op with
      | .findRequest _ =>
        if (RPCPacketManager.findRequest (v.packet a).requestId v.requests).isSome then
          m.take t (v.packet a).requestId
        else m
      | .setStatus _ _ => m.release t
      | .addRequest =>
        if (RPCPacketManager.findRequest (v.packet a).requestId v.requests).isSome then m
        else m.insert v.requests.length (rehash m.bucketCount (v.requests.length + 1))
      | .removeRequest _ => m.erase (v.packet a).requestId
      | _ => m
    | _ => m
  | _ => m

/-- Does a thread stand between the lookup and the update? -/
def updating (th : RPCThread) : Bool := th.call.ops.head?.any RPCOp.records

end RPCServer

namespace IteratorServer

open RPCServer (iterate updating)

variable {C : Setting} {rehash : Nat → Nat → Nat} {v v' : IteratorServer} {l : RPCLabel}

/-- One step of the server. -/
def step (C : Setting) (rehash : Nat → Nat → Nat) (v : IteratorServer) (l : RPCLabel) :
    Option IteratorServer :=
  (RPCServer.step C v.server l).map fun server => ⟨server, v.server.iterate rehash v.iterators l⟩

/-- The server as a machine, with any number of buckets at first. -/
def machine (C : Setting) (rehash : Nat → Nat → Nat) :
    Transition.Machine IteratorServer RPCLabel where
  init v := (RPCServer.machine C).init v.server ∧ ∃ bucketCount, v.iterators = .fresh bucketCount
  step := step C rehash

/-- The condition: a request that exceeds the load factor is added only when no thread stands
between the lookup and the update. -/
def roomy (v : IteratorServer) : RPCLabel → Bool
  | .advance t _ => match v.server.threads[t]? with
    | some ⟨_, _, _, .addRequest :: _⟩ =>
      !v.iterators.exceeds v.server.requests.length || !v.server.threads.any updating
    | _ => true
  | _ => true

/-- THE INVARIANT: whoever stands before the update holds a valid iterator. -/
def Pointed (v : IteratorServer) : Prop :=
  ∀ (t : Nat) role s a event requestID rest,
    v.server.threads[t]? = some ⟨role, s, a, .setStatus event requestID :: rest⟩ →
    v.iterators.Valid t requestID

end IteratorServer

namespace RPCServer

variable {C : Setting} {rehash : Nat → Nat → Nat} {v v' : RPCServer} {l : RPCLabel}
  {m : HashIterators Nat String}

/-- A thread that is to record a status has just looked the request up. -/
theorem Managed.found_of_records (h : v.Managed C) {t s a : Nat} {role : Role} {op : RPCOp}
    {rest ops rest' : List RPCOp} {answer : Answer} {v₁ : RPCServer} {event : RPCEvent}
    {requestID : String} (hat : v.threads[t]? = some ⟨role, s, a, op :: rest⟩)
    (hexecutes : Executes C v s a answer op v₁ ops)
    (hops : ops ++ rest = .setStatus event requestID :: rest') :
    op = .findRequest event ∧ requestID = (v.packet a).requestId ∧
      (RPCPacketManager.findRequest (v.packet a).requestId v.requests).isSome = true := by
  have hrest : .setStatus event requestID ∉ rest := by
    intro hmem
    obtain ⟨c, -, hfiled⟩ := fits_of_working h.filed hat (List.mem_cons_of_mem _ hmem) rfl
    cases hfiled.behind _ hmem
  rcases hexecutes.records with hnone | ⟨event', entry, rfl, hfind, rfl⟩
  · cases ops with
    | nil =>
      have heq : rest = .setStatus event requestID :: rest' := hops
      exact absurd (heq ▸ List.mem_cons_self) hrest
    | cons op' ops =>
      obtain ⟨rfl, -⟩ := List.cons.inj hops
      cases hnone _ List.mem_cons_self
  · obtain ⟨heq, -⟩ := List.cons.inj hops
    cases heq
    exact ⟨rfl, rfl, by rw [hfind]; rfl⟩

/-- Whoever removes an entry removes that of the request in its own hands. -/
theorem Managed.removes_own (h : v.Managed C) {t t' s s' a a' : Nat} {role role' : Role}
    {event event' : RPCEvent} {requestID : String} {rest rest' : List RPCOp}
    (hat : v.threads[t]? = some ⟨role, s, a, .setStatus event requestID :: rest⟩)
    (hat' : v.threads[t']? = some ⟨role', s', a', .removeRequest event' :: rest'⟩) :
    requestID ≠ (v.packet a').requestId := by
  have hholds : (Call.mk s a (.setStatus event requestID :: rest)).holds = some a :=
    Call.holds_of_concerns List.mem_cons_self rfl
  have hholds' : (Call.mk s' a' (.removeRequest event' :: rest')).holds = some a' :=
    Call.holds_of_concerns List.mem_cons_self rfl
  obtain ⟨c, hc, hfiled⟩ := fits_of_working h.filed hat List.mem_cons_self rfl
  obtain ⟨c', hc', hfiled'⟩ := fits_of_working h.filed hat' List.mem_cons_self rfl
  obtain ⟨rfl, halive⟩ := hfiled.found event requestID rest rfl
  have hbegin := hfiled'.told.next_after rfl
  have halive' := (beginnings_entries _ hbegin).2.2.2 (.removed event')
    (by simp only [List.getLast?_concat, Option.mem_def]) rfl
  rw [List.dropLast_concat] at halive'
  intro hid
  rw [packet_eq hc'] at hid
  have haa' : a = a' := h.booked.distinct a a' _ _ (ledgers_at hc) (ledgers_at hc')
    (h.booked.assigned a _ (ledgers_at hc) halive)
    (h.booked.assigned a' _ (ledgers_at hc') halive') hid
  subst haa'
  have htt' := h.filed.one_hand (carriers_at hat) (carriers_at hat') hholds hholds'
  subst htt'
  rw [hat] at hat'
  cases hat'

/-- What another thread's operation does to a valid iterator. -/
theorem Managed.valid_iterate (h : v.Managed C) {t t' s s' a a' : Nat} {role role' : Role}
    {event : RPCEvent} {requestID : String} {op : RPCOp} {rest rest' : List RPCOp}
    {answer : Answer}
    (hat : v.threads[t]? = some ⟨role, s, a, .setStatus event requestID :: rest⟩)
    (hat' : v.threads[t']? = some ⟨role', s', a', op :: rest'⟩) (hne : t ≠ t')
    (hroom : op = .addRequest → m.exceeds v.requests.length = false)
    (hvalid : m.Valid t requestID) :
    (v.iterate rehash m (.advance t' answer)).Valid t requestID := by
  simp only [iterate, hat']
  cases op with
  | findRequest =>
    dsimp only
    split
    · exact hvalid.take hne
    · exact hvalid
  | setStatus => exact hvalid.release hne
  | addRequest =>
    dsimp only
    split
    · exact hvalid
    · exact hvalid.insert (hroom rfl) _
  | removeRequest => exact hvalid.erase (h.removes_own hat hat')
  | _ => exact hvalid

end RPCServer

namespace IteratorServer

open RPCServer (iterate updating sampleSetting)

variable {C : Setting} {rehash : Nat → Nat → Nat} {v v' : IteratorServer} {l : RPCLabel}

/-- A thread that moves to another place than the update leaves the others' iterators to the
operation it has carried out. -/
theorem Pointed.moved (h : v.Pointed) {threads : List RPCThread} {t : Nat} {th : RPCThread}
    {m : HashIterators Nat String} (hset : threads = v.server.threads.set t th)
    (hown : ∀ event requestID rest, th.call.ops = .setStatus event requestID :: rest →
      m.Valid t requestID)
    (hothers : ∀ (t' : Nat) role s a event requestID rest, t' ≠ t →
      v.server.threads[t']? = some ⟨role, s, a, .setStatus event requestID :: rest⟩ →
      v.iterators.Valid t' requestID → m.Valid t' requestID) :
    ∀ (t' : Nat) role s a event requestID rest,
      threads[t']? = some ⟨role, s, a, .setStatus event requestID :: rest⟩ →
      m.Valid t' requestID := by
  subst hset
  intro t' role s a event requestID rest hat
  rcases Threads.at_set hat with ⟨rfl, rfl⟩ | ⟨hne, hat⟩
  · exact hown event requestID rest rfl
  · exact hothers t' role s a event requestID rest hne hat (h t' role s a event requestID rest hat)

theorem Pointed.step (h : v.Pointed) (hmanaged : v.server.Managed C) (hok : v.roomy l = true)
    (hstep : step C rehash v l = some v') : v'.Pointed := by
  obtain ⟨server, hserver, rfl⟩ := Option.map_eq_some_iff.mp hstep
  have hmoves := RPCServer.moves_of_step hserver
  show ∀ (t : Nat) role s a event requestID rest,
    server.threads[t]? = some ⟨role, s, a, .setStatus event requestID :: rest⟩ →
      (v.server.iterate rehash v.iterators l).Valid t requestID
  cases hmoves with
  | deliver hat =>
    refine h.moved rfl (fun _ _ _ heq => absurd heq (ne_setStatus (raise_records _))) ?_
    exact fun _ _ _ _ _ _ _ _ _ hvalid => hvalid
  | takeRequest hat | takeTask hat =>
    refine h.moved rfl (fun _ _ _ heq => nomatch heq) ?_
    exact fun _ _ _ _ _ _ _ _ _ hvalid => hvalid
  | takeResponse | subtractResponse | completeWrite => exact h
  | sendResponse =>
    simp only [RPCServer.send]
    split <;> exact h
  | @advance t s a role op rest ops answer v₁ hat hexecutes =>
    have hset : (v₁.goto t ⟨role, s, a, ops ++ rest⟩).threads =
        v.server.threads.set t ⟨role, s, a, ops ++ rest⟩ := by
      rw [RPCServer.goto, hexecutes.threads]
    refine h.moved hset ?_ ?_
    · intro event requestID rest' hops
      obtain ⟨rfl, rfl, hfound⟩ := hmanaged.found_of_records hat hexecutes hops
      simp only [iterate, hat, hfound, if_true]
      exact HashIterators.valid_take
    · intro t' role' s' a' event requestID rest' hne hat' hvalid
      refine hmanaged.valid_iterate hat' hat hne ?_ hvalid
      rintro rfl
      have hupdating : v.server.threads.any updating = true :=
        List.any_eq_true.mpr ⟨_, List.mem_of_getElem? hat', rfl⟩
      simpa only [roomy, hat, hupdating, Bool.not_true, Bool.or_false, Bool.not_eq_true'] using hok

/-- A run of the server with its iterators is a run of the server. -/
theorem server_of_reachable {ok : IteratorServer → RPCLabel → Prop}
    (weaker : ∀ v l, ok v l → v.server.keepsIds l = true)
    (h : (machine C rehash).ReachableBy ok v) :
    (RPCServer.machine C).ReachableBy (fun v l => v.keepsIds l = true) v.server := by
  refine h.invariant
    (I := fun v => (RPCServer.machine C).ReachableBy (fun v l => v.keepsIds l = true) v.server)
    ?_ ?_
  · rintro v ⟨hinit, -⟩
    exact .start hinit
  intro v l v' hreachable hok hstep
  obtain ⟨server, hserver, rfl⟩ := Option.map_eq_some_iff.mp hstep
  exact hreachable.next (weaker v l hok) hserver

/-- VALIDITY: in every run whose steps meet the condition, with fresh ids that the called
functions leave alone, a thread that is to dereference the iterator of `UpdateRequestStatus` holds a
valid one, to the entry of its own request. -/
theorem iterators_of_reachable
    (h : (machine C rehash).ReachableBy
      (fun v l => v.server.keepsIds l = true ∧ v.roomy l = true) v)
    (t s a : Nat) (role : Role) (event : RPCEvent) (requestID : String) (rest : List RPCOp)
    (hat : v.server.threads[t]? = some ⟨role, s, a, .setStatus event requestID :: rest⟩) :
    v.iterators.Valid t requestID ∧
      RPCPacketManager.findRequest requestID v.server.requests = some (C.uuid s, a) := by
  have hmanaged : ∀ v, (machine C rehash).ReachableBy
      (fun v l => v.server.keepsIds l = true ∧ v.roomy l = true) v → v.server.Managed C :=
    fun v h => RPCServer.managed_of_reachable (server_of_reachable (fun _ _ hok => hok.1) h)
  have hpointed : v.Pointed := by
    refine Transition.Machine.ReachableBy.invariant_with (J := fun v => v.server.Managed C)
      hmanaged ?_ ?_ h
    · rintro v ⟨⟨_, _, _, hv⟩, -⟩ t role s a event requestID rest hat
      rw [hv, RPCServer.new, List.getElem?_map] at hat
      obtain ⟨_, -, heq⟩ := Option.map_eq_some_iff.mp hat
      cases heq
    · intro v l v' hm hp hok hstep
      exact hp.step hm hok.2 hstep
  exact ⟨hpointed t role s a event requestID rest hat, (hmanaged v h).found_own hat⟩

/-- Two sessions deliver a packet each; the second is added while the thread of the first stands
between the lookup and the update. -/
def twoRequests : List RPCLabel :=
  .deliver 1 [] :: List.replicate 8 (.advance 1 { uid := "first" }) ++
    .deliver 2 [] :: List.replicate 2 (.advance 2 { uid := "second" })

/-- The server of these runs, with so many buckets. -/
def twoSessions (bucketCount : Nat) : IteratorServer :=
  ⟨RPCServer.new [.io 0, .io 1] [], .fresh bucketCount⟩

/-- The second request finds room in the table. -/
theorem iterators_of_reachable_room :
    ∃ v, (machine (sampleSetting 8 8) fun _ size => size).run (twoSessions 8) twoRequests = some v ∧
      v.iterators.Valid 1 "first" ∧
      RPCPacketManager.findRequest "first" v.server.requests = some ("session", 0) := by
  have hruns : ((machine (sampleSetting 8 8) fun _ size => size).run (twoSessions 8)
      twoRequests).any (fun v => decide (v.server.threads[1]? = some ⟨.io 0, 0, 0,
        .setStatus .onDispatched "first" :: ((raise .onDispatched).drop 1 ++
          [.requestLink, .requestAdd])⟩)) = true := by decide +kernel
  obtain ⟨v, hrun, hat⟩ := (Option.any_eq_true _ _).mp hruns
  have hsound : ∀ (v : IteratorServer) l, (v.server.keepsIds l && v.roomy l) = true →
      v.server.keepsIds l = true ∧ v.roomy l = true := fun _ _ => Bool.and_eq_true_iff.mp
  have hreachable : (machine (sampleSetting 8 8) fun _ size => size).ReachableBy
      (fun v l => v.server.keepsIds l = true ∧ v.roomy l = true) v :=
    .run hsound (.start ⟨⟨[.io 0, .io 1], [], by decide, rfl⟩, 8, rfl⟩) (by decide +kernel) hrun
  exact ⟨v, hrun, iterators_of_reachable hreachable 1 0 0 (.io 0) .onDispatched "first" _
    (of_decide_eq_true hat)⟩

/-- In a table with one bucket the second request makes the first one's iterator invalid. -/
theorem invalid_of_rehash :
    ∃ v, (machine (sampleSetting 8 8) fun _ size => size).run (twoSessions 1) twoRequests = some v ∧
      (v.server.threads[1]?).any updating = true ∧ v.iterators.held 1 = some ("first", false) := by
  have hruns : ((machine (sampleSetting 8 8) fun _ size => size).run (twoSessions 1)
      twoRequests).any (fun v => (v.server.threads[1]?).any updating &&
        v.iterators.held 1 == some ("first", false)) = true := by decide +kernel
  obtain ⟨v, hrun, hv⟩ := (Option.any_eq_true _ _).mp hruns
  obtain ⟨hupdating, hheld⟩ := Bool.and_eq_true_iff.mp hv
  exact ⟨v, hrun, hupdating, beq_iff_eq.mp hheld⟩

/-- The condition is exact: adding a request that exceeds the load factor leaves no valid iterator
to whoever stands before the update. -/
theorem not_valid_of_exceeded {t s a : Nat} {role : Role} {rest : List RPCOp} {answer : Answer}
    (hat : v.server.threads[t]? = some ⟨role, s, a, .addRequest :: rest⟩)
    (hnew : RPCPacketManager.findRequest (v.server.packet a).requestId v.server.requests = none)
    (hexceeds : v.iterators.exceeds v.server.requests.length = true)
    (hstep : step C rehash v (.advance t answer) = some v') (t' : Nat) (requestID : String) :
    ¬ v'.iterators.Valid t' requestID := by
  obtain ⟨server, -, rfl⟩ := Option.map_eq_some_iff.mp hstep
  show ¬ (v.server.iterate rehash v.iterators (.advance t answer)).Valid t' requestID
  simp only [iterate, hat, hnew, Option.isSome_none, Bool.false_eq_true, if_false]
  exact HashIterators.not_valid_insert hexceeds _

end IteratorServer

end DSFramework.DSRPC
