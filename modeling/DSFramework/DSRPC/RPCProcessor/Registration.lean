import DSFramework.DSRPC.RPCProcessor
import DSFramework.Lib.Machine

/-!
# Registering services while requests are processed

`m_serviceProcedures` is searched by name four times for a request: by `SearchService`, twice by
`CheckServiceParameter`, and by the task that `Execute` has committed, on another thread. In
between, `RegisterService` is called for any names, the request's among them. Every operation on the
map is a step of its own.

The first registration of a name is the one that counts, for all four, as long as the check
functions leave the service's name in the packet as it is: `Execute` takes the name from the packet
once more.
-/

namespace DSFramework.DSRPC

/-- How far a request has come. -/
inductive CommitPlace where
  /-- `CheckRequestService` and `SearchService`. -/
  | search
  /-- `find` in `CheckServiceParameter`. -/
  | find (serviceName : String)
  /-- `m_serviceProcedures[serviceName].first` behind it. -/
  | subscript (serviceName : String)
  /-- The end of the check function. -/
  | checking (functions : Option Nat)
  /-- `Execute`, which copies the name. -/
  | commit
  /-- `m_serviceProcedures[serviceName].second` in the task. -/
  | task (serviceName : String)
  | done
  deriving DecidableEq, Repr

/-- A request for which `OnCommited` has been called: the service's name as its packet has it now,
and the functions that have been called for it. -/
structure CommitedRequest where
  service : String
  place : CommitPlace
  checked : Option (Option Nat)
  executed : Option (Option Nat)
  deriving DecidableEq, Repr

/-- The name that a request has been given in an argument. -/
def CommitPlace.name : CommitPlace → Option String
  | .find serviceName | .subscript serviceName | .task serviceName => some serviceName
  | .search | .checking _ | .commit | .done => none

/-- Has the request's name been found in the table? -/
def CommitPlace.found : CommitPlace → Bool
  | .find _ | .subscript _ | .checking _ | .commit | .task _ => true
  | .search | .done => false

/-- A processor in use. `registering` is the call of `RegisterService` that has not found the name
and not yet inserted it; `registrations` lists all calls. -/
structure RegisteringProcessor where
  procedures : Procedures
  registering : Option (String × Nat)
  registrations : List (String × Nat)
  requests : List CommitedRequest
  terminated : Bool
  deriving DecidableEq, Repr

/-- What may happen next. -/
inductive RegistrationLabel where
  | registerService (serviceName : String) (functions : Nat)
  | insert
  | onCommited (service : String)
  | next (request : Nat)
  /-- A check function returns, and leaves this name in the packet. -/
  | checked (request : Nat) (service : String) (result : Bool)
  deriving DecidableEq, Repr

namespace RPCProcessor

/-- `m_serviceProcedures[serviceName] = std::make_pair(checkFunction, executeFunction)`. -/
def assign (serviceName : String) (functions : Nat) (procedures : Procedures) : Procedures :=
  if (find serviceName procedures).isSome then
    procedures.map fun entry =>
      if entry.1 == serviceName then (serviceName, some functions) else entry
  else procedures ++ [(serviceName, some functions)]

/-- `RegisterService` without anything in between. -/
theorem registerService_eq_assign (serviceName : String) (functions : Nat)
    (procedures : Procedures) : registerService serviceName functions procedures =
      if (find serviceName procedures).isNone then assign serviceName functions procedures
      else procedures := by
  unfold registerService assign
  cases find serviceName procedures <;> rfl

/-- `operator[]` inserts nothing where there is an entry. -/
theorem subscript_of_find {serviceName : String} {procedures : Procedures}
    {functions : Option Nat} (h : find serviceName procedures = some functions) :
    subscript serviceName procedures = (procedures, functions) := by
  rw [subscript, h]

/-- The functions of the first registration of a name. -/
def firstOf (name : String) (registrations : List (String × Nat)) : Option Nat :=
  (registrations.find? (·.1 == name)).map Prod.snd

theorem firstOf_append (name serviceName : String) (functions : Nat)
    (registrations : List (String × Nat)) :
    firstOf name (registrations ++ [(serviceName, functions)]) =
      (firstOf name registrations).or (if serviceName = name then some functions else none) :=
  lookup_append name serviceName functions registrations

end RPCProcessor

open RPCProcessor (find firstOf)

/-- What a request has to do with the table and the calls of `RegisterService`. -/
structure CommitedRequest.Consistent (r : CommitedRequest) (procedures : Procedures)
    (registrations : List (String × Nat)) : Prop where
  named : ∀ name, r.place.name = some name → name = r.service
  found : r.place.found = true → (find r.service procedures).isSome = true
  checked : ∀ functions, r.checked = some functions →
    functions.isSome = true ∧ firstOf r.service registrations = functions
  executed : ∀ functions, r.executed = some functions →
    functions.isSome = true ∧ firstOf r.service registrations = functions

namespace RegisteringProcessor

open RPCProcessor

variable {v v' : RegisteringProcessor} {l : RegistrationLabel}

/-- A processor as constructed. -/
def new : RegisteringProcessor :=
  { procedures := []
    registering := none
    registrations := []
    requests := []
    terminated := false }

/-- The search of `RegisterService`. The calls come one after another. -/
def register (v : RegisteringProcessor) (serviceName : String) (functions : Nat) :
    Option RegisteringProcessor :=
  match v.registering with
  | none => some { v with
      registering :=
        if (find serviceName v.procedures).isNone then some (serviceName, functions) else none
      registrations := v.registrations ++ [(serviceName, functions)] }
  | some _ => none

/-- Its insertion. -/
def insert (v : RegisteringProcessor) : Option RegisteringProcessor :=
  match v.registering with
  | some (serviceName, functions) => some { v with
      procedures := assign serviceName functions v.procedures
      registering := none }
  | none => none

/-- A request goes on. -/
def goto (v : RegisteringProcessor) (request : Nat) (r : CommitedRequest) :
    RegisteringProcessor :=
  { v with requests := v.requests.set request r }

/-- The next operation for a request. Calling an empty check function ends the process, calling an
empty execute function ends the task. -/
def advance (v : RegisteringProcessor) (request : Nat) (r : CommitedRequest) :
    Option RegisteringProcessor :=
  match r.place with
  | .search => some (v.goto request { r with
      place :=
        if r.service.isEmpty then .done
        else if searchService r.service v.procedures then .find r.service
        else .done })
  | .find serviceName => some (v.goto request { r with
      place := if (find serviceName v.procedures).isSome then .subscript serviceName else .done })
  | .subscript serviceName =>
    let found := subscript serviceName v.procedures
    some { v.goto request { r with place := .checking found.2, checked := some found.2 } with
      procedures := found.1
      terminated := found.2.isNone }
  | .commit => some (v.goto request { r with place := .task r.service })
  | .task serviceName =>
    let found := subscript serviceName v.procedures
    some { v.goto request { r with place := .done, executed := some found.2 } with
      procedures := found.1 }
  | .checking _ | .done => none

/-- The check function of a request returns. -/
def check (v : RegisteringProcessor) (request : Nat) (service : String) (result : Bool)
    (r : CommitedRequest) : Option RegisteringProcessor :=
  match r.place with
  | .checking _ => some (v.goto request { r with
      service := service
      place := if result then .commit else .done })
  | _ => none

/-- One step, in a process that has not been terminated. -/
def step (v : RegisteringProcessor) (l : RegistrationLabel) : Option RegisteringProcessor :=
  if v.terminated then none
  else match l with
    | .registerService serviceName functions => v.register serviceName functions
    | .insert => v.insert
    | .onCommited service =>
      some { v with requests := v.requests ++ [⟨service, .search, none, none⟩] }
    | .next request => (v.requests[request]?).bind (v.advance request)
    | .checked request service result =>
      (v.requests[request]?).bind (v.check request service result)

/-- A processor as a machine. -/
def machine : Transition.Machine RegisteringProcessor RegistrationLabel where
  init v := v = new
  step := step

/-- The condition: check functions leave the service's name as it is. -/
def keepsService (v : RegisteringProcessor) : RegistrationLabel → Bool
  | .checked request service _ => (v.requests[request]?).all fun r => r.service == service
  | _ => true

/-- THE INVARIANT: the table has the first registration of every name, except for the one that is
being inserted, and nothing else; every request goes by its own name, has found it, and has had the
functions of its first registration called. -/
structure FirstWins (v : RegisteringProcessor) : Prop where
  table : ∀ name, find name v.procedures =
    if v.registering.any (·.1 == name) then none
    else (firstOf name v.registrations).map some
  registering : ∀ serviceName functions, v.registering = some (serviceName, functions) →
    firstOf serviceName v.registrations = some functions
  requests : ∀ r ∈ v.requests, r.Consistent v.procedures v.registrations
  alive : v.terminated = false

theorem firstWins_new : new.FirstWins where
  table := fun _ => rfl
  registering := nofun
  requests := nofun
  alive := rfl

/-- What is in the table has been registered first under its name. -/
theorem FirstWins.first_of_find (h : v.FirstWins) {name : String} {functions : Option Nat}
    (hfind : find name v.procedures = some functions) :
    functions.isSome = true ∧ firstOf name v.registrations = functions := by
  rw [h.table name] at hfind
  split at hfind
  case isTrue => cases hfind
  case isFalse =>
    obtain ⟨n, hfirst, rfl⟩ := Option.map_eq_some_iff.mp hfind
    exact ⟨rfl, hfirst⟩

/-- A registration does not concern a name that has been registered before. -/
theorem firstOf_register {name : String} {registrations : List (String × Nat)} {first : Nat}
    (hfirst : firstOf name registrations = some first) (registration : String × Nat) :
    firstOf name (registrations ++ [registration]) = some first := by
  rw [firstOf_append, hfirst, Option.some_or]

/-- Consistency survives as long as the table and the registrations grow. -/
theorem consistent_mono {r : CommitedRequest} {procedures procedures' : Procedures}
    {registrations registrations' : List (String × Nat)}
    (h : r.Consistent procedures registrations)
    (hprocedures : ∀ name, (find name procedures).isSome = true →
      (find name procedures').isSome = true)
    (hregistrations : ∀ name first, firstOf name registrations = some first →
      firstOf name registrations' = some first) :
    r.Consistent procedures' registrations' := by
  have hcalled : ∀ functions : Option Nat,
      functions.isSome = true ∧ firstOf r.service registrations = functions →
      functions.isSome = true ∧ firstOf r.service registrations' = functions := by
    rintro functions ⟨hsome, hfirst⟩
    obtain ⟨n, rfl⟩ := Option.isSome_iff_exists.mp hsome
    exact ⟨rfl, hregistrations _ _ hfirst⟩
  exact ⟨h.named, fun hfound => hprocedures _ (h.found hfound),
    fun functions hchecked => hcalled functions (h.checked functions hchecked),
    fun functions hexecuted => hcalled functions (h.executed functions hexecuted)⟩

theorem FirstWins.register (h : v.FirstWins) {serviceName : String} {functions : Nat}
    (hstep : v.register serviceName functions = some v') : v'.FirstWins := by
  unfold RegisteringProcessor.register at hstep
  split at hstep
  case h_2 => cases hstep
  case h_1 hidle =>
    cases hstep
    have htable : ∀ name, find name v.procedures = (firstOf name v.registrations).map some := by
      intro name
      rw [h.table name, hidle]
      rfl
    have hrequests : ∀ r ∈ v.requests, r.Consistent v.procedures
        (v.registrations ++ [(serviceName, functions)]) := fun r hr =>
      consistent_mono (h.requests r hr) (fun _ hsome => hsome)
        fun _ _ hfirst => firstOf_register hfirst _
    cases hfirst : firstOf serviceName v.registrations with
    | none =>
      have hfind : find serviceName v.procedures = none := by
        rw [htable, hfirst, Option.map_none]
      simp only [hfind, Option.isNone_none, if_true]
      refine ⟨fun name => ?_, ?_, hrequests, h.alive⟩
      · by_cases heq : serviceName = name
        · subst heq
          simp only [Option.any_some, BEq.rfl, if_true, hfind]
        · simp only [Option.any_some, beq_eq_false_iff_ne.mpr heq, Bool.false_eq_true, if_false,
            firstOf_append, if_neg heq, Option.or_none, htable]
      · rintro _ _ heq
        cases heq
        rw [firstOf_append, hfirst, Option.none_or, if_pos rfl]
    | some first =>
      have hfind : find serviceName v.procedures = some (some first) := by
        rw [htable, hfirst, Option.map_some]
      simp only [hfind, Option.isNone_some, Bool.false_eq_true, if_false]
      refine ⟨fun name => ?_, nofun, hrequests, h.alive⟩
      simp only [Option.any_none, Bool.false_eq_true, if_false, htable, firstOf_append]
      by_cases heq : serviceName = name
      · subst heq
        rw [hfirst, Option.some_or]
      · rw [if_neg heq, Option.or_none]

/-- The name that is being inserted is new to the table. -/
theorem FirstWins.assign_eq (h : v.FirstWins) {serviceName : String} {functions : Nat}
    (hregistering : v.registering = some (serviceName, functions)) :
    assign serviceName functions v.procedures =
      v.procedures ++ [(serviceName, some functions)] := by
  have hnew : find serviceName v.procedures = none := by
    rw [h.table, hregistering, Option.any_some, BEq.rfl, if_pos rfl]
  rw [assign, hnew]
  rfl

theorem FirstWins.insert (h : v.FirstWins) (hstep : v.insert = some v') : v'.FirstWins := by
  unfold RegisteringProcessor.insert at hstep
  split at hstep
  case h_2 => cases hstep
  case h_1 serviceName functions hregistering =>
    cases hstep
    rw [h.assign_eq hregistering]
    refine ⟨fun name => ?_, nofun, fun r hr => ?_, h.alive⟩
    · show find name (v.procedures ++ [(serviceName, some functions)]) = _
      rw [find_append, h.table, hregistering, Option.any_some, Option.any_none]
      by_cases heq : serviceName = name
      · subst heq
        simp only [BEq.rfl, if_true, Option.none_or, Bool.false_eq_true, if_false,
          h.registering _ _ hregistering, Option.map_some]
      · simp only [beq_eq_false_iff_ne.mpr heq, Bool.false_eq_true, if_false, if_neg heq,
          Option.or_none]
    · refine consistent_mono (h.requests r hr) (fun name hsome => ?_) fun _ _ hfirst => hfirst
      rw [find_append, Option.isSome_or, hsome, Bool.true_or]

/-- A request goes on, and nothing else changes. -/
theorem FirstWins.goto (h : v.FirstWins) {request : Nat} {r' : CommitedRequest}
    (hr' : r'.Consistent v.procedures v.registrations) : (v.goto request r').FirstWins := by
  refine ⟨h.table, h.registering, fun r hr => ?_, h.alive⟩
  rcases List.mem_or_eq_of_mem_set hr with hmem | rfl
  · exact h.requests r hmem
  · exact hr'

/-- Where a name has been found, `operator[]` gives the functions of its first registration. -/
theorem FirstWins.subscript_eq (h : v.FirstWins) {name : String}
    (hfound : (find name v.procedures).isSome = true) :
    ∃ n, subscript name v.procedures = (v.procedures, some n) ∧
      firstOf name v.registrations = some n := by
  obtain ⟨functions, hfind⟩ := Option.isSome_iff_exists.mp hfound
  obtain ⟨hsome, hfirst⟩ := h.first_of_find hfind
  obtain ⟨n, rfl⟩ := Option.isSome_iff_exists.mp hsome
  exact ⟨n, subscript_of_find hfind, hfirst⟩

/-- The place of a request that has been looked up goes by the request's own name. -/
theorem consistent_goto {r : CommitedRequest} {procedures : Procedures}
    {registrations : List (String × Nat)} (h : r.Consistent procedures registrations)
    {place : CommitPlace} (hnamed : ∀ name, place.name = some name → name = r.service)
    (hfound : place.found = true → (find r.service procedures).isSome = true) :
    CommitedRequest.Consistent { r with place := place } procedures registrations :=
  ⟨hnamed, hfound, h.checked, h.executed⟩

/-- A request that has been found goes on under its own name. -/
theorem consistent_named {r : CommitedRequest} {procedures : Procedures}
    {registrations : List (String × Nat)} (h : r.Consistent procedures registrations)
    {place : CommitPlace} (hname : place.name = some r.service)
    (hfound : (find r.service procedures).isSome = true) :
    CommitedRequest.Consistent { r with place := place } procedures registrations :=
  consistent_goto h (fun _ heq => Option.some.inj (heq.symm.trans hname)) fun _ => hfound

theorem FirstWins.advance (h : v.FirstWins) {request : Nat} {r : CommitedRequest}
    (hr : r ∈ v.requests) (hstep : v.advance request r = some v') :
    v'.FirstWins ∧ v'.procedures = v.procedures := by
  have hconsistent := h.requests r hr
  unfold RegisteringProcessor.advance at hstep
  split at hstep
  case h_1 hat =>
    cases hstep
    refine ⟨h.goto ?_, rfl⟩
    split
    case isTrue => exact consistent_goto hconsistent nofun nofun
    split
    case isTrue hsearch => exact consistent_named hconsistent rfl hsearch
    case isFalse => exact consistent_goto hconsistent nofun nofun
  case h_2 serviceName hat =>
    cases hstep
    obtain rfl := hconsistent.named serviceName (by rw [hat]; rfl)
    refine ⟨h.goto ?_, rfl⟩
    split
    case isTrue hsome => exact consistent_named hconsistent rfl hsome
    case isFalse => exact consistent_goto hconsistent nofun nofun
  case h_3 serviceName hat =>
    cases hstep
    obtain rfl := hconsistent.named serviceName (by rw [hat]; rfl)
    have hfound := hconsistent.found (by rw [hat]; rfl)
    obtain ⟨n, hsubscript, hfirst⟩ := h.subscript_eq hfound
    rw [hsubscript]
    have hmoved : (v.goto request { r with
        place := .checking (some n)
        checked := some (some n) }).FirstWins := by
      refine h.goto ⟨nofun, fun _ => hfound, ?_, hconsistent.executed⟩
      rintro _ heq
      cases heq
      exact ⟨rfl, hfirst⟩
    exact ⟨⟨hmoved.table, hmoved.registering, hmoved.requests, rfl⟩, rfl⟩
  case h_4 hat =>
    cases hstep
    have hfound := hconsistent.found (by rw [hat]; rfl)
    exact ⟨h.goto (consistent_named hconsistent rfl hfound), rfl⟩
  case h_5 serviceName hat =>
    cases hstep
    obtain rfl := hconsistent.named serviceName (by rw [hat]; rfl)
    have hfound := hconsistent.found (by rw [hat]; rfl)
    obtain ⟨n, hsubscript, hfirst⟩ := h.subscript_eq hfound
    rw [hsubscript]
    refine ⟨h.goto ⟨nofun, nofun, hconsistent.checked, ?_⟩, rfl⟩
    rintro _ heq
    cases heq
    exact ⟨rfl, hfirst⟩
  case h_6 => cases hstep
  case h_7 => cases hstep

theorem FirstWins.check (h : v.FirstWins) {request : Nat} {r : CommitedRequest}
    (hr : v.requests[request]? = some r) {service : String} {result : Bool}
    (hok : v.keepsService (.checked request service result) = true)
    (hstep : v.check request service result r = some v') :
    v'.FirstWins ∧ v'.procedures = v.procedures := by
  have hconsistent := h.requests r (List.mem_of_getElem? hr)
  have hsame : r.service = service := by
    simpa only [keepsService, hr, Option.all_some, beq_iff_eq] using hok
  subst hsame
  unfold RegisteringProcessor.check at hstep
  split at hstep
  case h_1 functions hat =>
    cases hstep
    have hfound := hconsistent.found (by rw [hat]; rfl)
    refine ⟨h.goto ?_, rfl⟩
    cases result with
    | true => exact consistent_goto hconsistent nofun fun _ => hfound
    | false => exact consistent_goto hconsistent nofun nofun
  case h_2 => cases hstep

/-- One step keeps the invariant, and only the insertion of `RegisterService` changes the table. -/
theorem FirstWins.step (h : v.FirstWins) (hok : v.keepsService l = true)
    (hstep : v.step l = some v') :
    v'.FirstWins ∧ (l ≠ .insert → v'.procedures = v.procedures) := by
  unfold RegisteringProcessor.step at hstep
  rw [h.alive] at hstep
  cases l with
  | registerService serviceName functions =>
    refine ⟨h.register hstep, fun _ => ?_⟩
    simp only [Bool.false_eq_true, if_false, RegisteringProcessor.register] at hstep
    split at hstep
    case h_1 => cases hstep; rfl
    case h_2 => cases hstep
  | insert => exact ⟨h.insert hstep, fun hne => absurd rfl hne⟩
  | onCommited service =>
    cases hstep
    refine ⟨⟨h.table, h.registering, fun r hr => ?_, rfl⟩, fun _ => rfl⟩
    rcases List.mem_append.mp hr with hmem | hmem
    · exact h.requests r hmem
    · obtain rfl := List.mem_singleton.mp hmem
      exact ⟨nofun, nofun, nofun, nofun⟩
  | next request =>
    obtain ⟨r, hr, hadvance⟩ := Option.bind_eq_some_iff.mp hstep
    obtain ⟨hwins, hsame⟩ := h.advance (List.mem_of_getElem? hr) hadvance
    exact ⟨hwins, fun _ => hsame⟩
  | checked request service result =>
    obtain ⟨r, hr, hcheck⟩ := Option.bind_eq_some_iff.mp hstep
    obtain ⟨hwins, hsame⟩ := h.check hr hok hcheck
    exact ⟨hwins, fun _ => hsame⟩

theorem firstWins_of_reachable (h : machine.ReachableBy (fun v l => v.keepsService l = true) v) :
    v.FirstWins := by
  refine Transition.Machine.ReachableBy.invariant ?_ ?_ h
  · rintro _ rfl
    exact firstWins_new
  · intro v l v' hwins hok hstep
    exact (hwins.step hok hstep).1

/-- THE PROCEDURE: in every run whose check functions leave the service's name as it is, the check
and the execute function called for a request are those of the first registration of its service;
only the insertion of `RegisterService` changes the table, and every entry of it is a registered
one; and no empty check function has been called. -/
theorem registration_of_reachable
    (h : machine.ReachableBy (fun v l => v.keepsService l = true) v) :
    (∀ r ∈ v.requests,
      (∀ functions, r.checked = some functions →
        functions.isSome = true ∧ firstOf r.service v.registrations = functions) ∧
      (∀ functions, r.executed = some functions →
        functions.isSome = true ∧ firstOf r.service v.registrations = functions)) ∧
    (∀ l v', v.keepsService l = true → v.step l = some v' → l ≠ .insert →
      v'.procedures = v.procedures) ∧
    (∀ name functions, find name v.procedures = some functions →
      functions.isSome = true ∧ firstOf name v.registrations = functions) ∧
    v.terminated = false := by
  have hwins := firstWins_of_reachable h
  refine ⟨fun r hr => ?_, fun l v' hok hstep => (hwins.step hok hstep).2,
    fun _ _ => hwins.first_of_find, hwins.alive⟩
  have hconsistent := hwins.requests r hr
  exact ⟨hconsistent.checked, hconsistent.executed⟩

/-- The service `a` is registered, a request for it checked, `a` registered again, and the request
executed. -/
theorem registration_of_reachable_again :
    ∃ v : RegisteringProcessor, v.registrations = [("a", 0), ("a", 1)] ∧
      ∃ r ∈ v.requests, r.checked = some (some 0) ∧ r.executed = some (some 0) ∧
        firstOf r.service v.registrations = some 0 := by
  have hruns : (machine.run new
      [.registerService "a" 0, .insert, .onCommited "a", .next 0, .next 0, .next 0,
        .registerService "a" 1, .checked 0 "a" true, .next 0, .next 0]).any (fun v =>
      v.registrations = [("a", 0), ("a", 1)] ∧
        v.requests = [⟨"a", .done, some (some 0), some (some 0)⟩]) = true := by decide
  obtain ⟨v, hrun, hv⟩ := (Option.any_eq_true _ _).mp hruns
  obtain ⟨hregistrations, hrequests⟩ := of_decide_eq_true hv
  have hsound : ∀ (v : RegisteringProcessor) (l : RegistrationLabel), v.keepsService l = true →
      v.keepsService l = true := fun _ _ => id
  have hresult := registration_of_reachable (.run hsound (.start rfl) (by decide) hrun)
  refine ⟨v, hregistrations, _, by rw [hrequests]; exact List.mem_singleton_self _, rfl, rfl, ?_⟩
  exact ((hresult.1 _ (by rw [hrequests]; exact List.mem_singleton_self _)).2 _ rfl).2

/-- A check function that leaves another name in the packet makes the task insert it, and call the
empty function that it has inserted. -/
theorem inserted_of_rewritten_service :
    ∃ v : RegisteringProcessor, machine.run new
        [.registerService "a" 0, .insert, .onCommited "a", .next 0, .next 0, .next 0,
          .checked 0 "b" true, .next 0, .next 0] = some v ∧
      v.registrations = [("a", 0)] ∧ v.procedures = [("a", some 0), ("b", none)] ∧
      v.requests = [⟨"b", .done, some (some 0), some none⟩] := by
  refine ⟨_, rfl, ?_⟩
  decide

end RegisteringProcessor

end DSFramework.DSRPC
