import DSFramework.DSRPC.RPCServer

/-!
# What a committed request is answered with

`RPCProcessor::OnCommited` with everything that user code may do to it. It runs on the dispatcher's
thread, and the task that `Execute` commits runs on a worker. The check function is called outside
of any `try`, so whatever it throws leaves the dispatcher's loop; the execute function is called
inside one that catches `std::exception`, and what it throws beside that ends in the task's future.

The code of both is a program that reads and changes the state of one request, and may throw. Every
request that is answered is answered once; `FunctionsEnd` says which are answered at all.
-/

namespace DSFramework.DSRPC

/-- What C++ code throws: a `std::exception`, or something else. -/
inductive Thrown where
  | stdException
  | other
  deriving DecidableEq, Repr

/-- The registered functions by their numbers: what each leaves of a packet, and how it ends. -/
structure Functions where
  check : Nat → RPCPacket → RPCPacket × Outcome
  execute : Nat → RPCPacket → RPCPacket × Outcome

/-- A request in processing: the table of services, the packet, the events raised for it, and the
names with which tasks were committed for it. -/
structure Processing where
  procedures : Procedures
  packet : RPCPacket
  events : List RPCEvent
  tasks : List String
  deriving DecidableEq, Repr

/-- Code that works on a request and may throw. -/
abbrev Process := ExceptT Thrown (StateM Processing)

/-- How such code ends, and what it leaves. -/
def Process.ends {α : Type} (x : Process α) (st : Processing) : Except Thrown α × Processing :=
  Id.run (x.run.run st)

namespace Process

variable {α β : Type}

@[simp] theorem ends_pure (a : α) (st : Processing) : (pure a : Process α).ends st = (.ok a, st) :=
  rfl

@[simp] theorem ends_throw (thrown : Thrown) (st : Processing) :
    (throw thrown : Process α).ends st = (.error thrown, st) := rfl

@[simp] theorem ends_get (st : Processing) : (get : Process Processing).ends st = (.ok st, st) :=
  rfl

@[simp] theorem ends_modify (f : Processing → Processing) (st : Processing) :
    (modify f : Process PUnit).ends st = (.ok .unit, f st) := rfl

/-- What follows runs where the first part returned. -/
@[simp] theorem ends_bind (x : Process α) (f : α → Process β) (st : Processing) :
    (x >>= f).ends st = match x.ends st with
      | (.ok a, st') => (f a).ends st'
      | (.error thrown, st') => (.error thrown, st') := by
  have hrun : (x >>= f).run.run st = (do
      let (ended, st') ← x.run.run st
      match ended with
      | .ok a => (f a).run.run st'
      | .error thrown => pure (.error thrown, st')) := by
    simp only [ExceptT.run_bind, StateT.run_bind]
    congr 1
    funext ⟨ended, st'⟩
    cases ended <;> rfl
  simp only [ends, hrun]
  rcases x.run.run st with ⟨ended, st'⟩
  cases ended <;> rfl

/-- A handler runs where the first part threw, on what that left. -/
@[simp] theorem ends_tryCatch (x : Process α) (handle : Thrown → Process α) (st : Processing) :
    (tryCatch x handle).ends st = match x.ends st with
      | (.ok a, st') => (.ok a, st')
      | (.error thrown, st') => (handle thrown).ends st' := by
  have hrun : (tryCatch x handle).run.run st = (do
      let (ended, st') ← x.run.run st
      match ended with
      | .ok a => pure (.ok a, st')
      | .error thrown => (handle thrown).run.run st') := by
    simp only [ExceptT.run_tryCatch, StateT.run_bind]
    congr 1
    funext ⟨ended, st'⟩
    cases ended <;> rfl
  simp only [ends, hrun]
  rcases x.run.run st with ⟨ended, st'⟩
  cases ended <;> rfl

end Process

namespace RPCProcessor

/-- `RPCEventHandler` raises an event for the request. -/
def raiseEvent (event : RPCEvent) : Process Unit :=
  modify fun st => { st with events := st.events ++ [event] }

/-- A call of a `std::function` with the packet. Calling an empty one throws a
`std::bad_function_call`. -/
def call (function : Option (RPCPacket → RPCPacket × Outcome)) : Process Bool := do
  match function with
  | none => throw .stdException
  | some f =>
    let (packet, outcome) := f (← get).packet
    modify fun st => { st with packet := packet }
    match outcome with
    | .returned result => return result
    | .threw => throw .stdException
    | .escaped => throw .other

/-- `CheckRequestService`. -/
def checkRequestService (packet : RPCPacket) : Bool := !packet.service.isEmpty

/-- `CheckServiceParameter`. -/
def checkServiceParameter (F : Functions) (serviceName : String) : Process Bool := do
  match find serviceName (← get).procedures with
  | some functions => call (functions.map F.check)
  | none => return false

/-- `Execute`, whose task the pool accepts. -/
def execute (serviceName : String) : Process Unit :=
  modify fun st => { st with tasks := st.tasks ++ [serviceName] }

/-- `OnCommited`. The service's name is a reference into the packet, read anew at each use. -/
def onCommited (F : Functions) : Process Unit := do
  if !checkRequestService (← get).packet then
    raiseEvent .onServiceEmptyRequest
  else if !searchService (← get).packet.service (← get).procedures then
    raiseEvent .onServiceNotFound
  else if !(← checkServiceParameter F (← get).packet.service) then
    raiseEvent .onServiceParameterInvalid
  else execute (← get).packet.service

/-- The task that `Execute` commits. -/
def task (F : Functions) (serviceName : String) : Process Unit :=
  tryCatch (do
    let found := subscript serviceName (← get).procedures
    modify fun st => { st with procedures := found.1 }
    let _ ← call (found.2.map F.execute)
    raiseEvent .onCompleted)
  fun thrown => match thrown with
    | .stdException => raiseEvent .onServiceError
    | .other => throw .other

/-! ## How each part ends -/

section Ends

variable {F : Functions} {st st' : Processing} {serviceName : String}

theorem ends_raiseEvent (event : RPCEvent) (st : Processing) :
    (raiseEvent event).ends st = (.ok (), { st with events := st.events ++ [event] }) := rfl

theorem ends_call_none (st : Processing) : (call none).ends st = (.error .stdException, st) := rfl

theorem ends_call_some (f : RPCPacket → RPCPacket × Outcome) (st : Processing) :
    (call (some f)).ends st =
      (match (f st.packet).2 with
        | .returned result => .ok result
        | .threw => .error .stdException
        | .escaped => .error .other,
       { st with packet := (f st.packet).1 }) := by
  simp only [call, Process.ends_bind, Process.ends_get, Process.ends_modify]
  cases (f st.packet).2 with
  | returned result => rw [Process.ends_pure]
  | threw | escaped => rw [Process.ends_throw]

theorem onCommited_empty (F : Functions) (h : st.packet.service.isEmpty = true) :
    (onCommited F).ends st =
      (.ok (), { st with events := st.events ++ [.onServiceEmptyRequest] }) := by
  simp only [onCommited, Process.ends_bind, Process.ends_get, checkRequestService, h,
    Bool.not_true, Bool.not_false, if_true, ends_raiseEvent]

theorem onCommited_unknown (F : Functions) (h : st.packet.service.isEmpty = false)
    (hfind : find st.packet.service st.procedures = none) :
    (onCommited F).ends st = (.ok (), { st with events := st.events ++ [.onServiceNotFound] }) := by
  simp only [onCommited, Process.ends_bind, Process.ends_get, checkRequestService, h,
    Bool.not_true, Bool.not_false, if_true, Bool.false_eq_true, if_false, searchService, hfind,
    Option.isSome_none, ends_raiseEvent]

/-- A known service: the check decides. -/
theorem onCommited_known {functions : Option Nat} (h : st.packet.service.isEmpty = false)
    (hfind : find st.packet.service st.procedures = some functions) :
    (onCommited F).ends st = match (call (functions.map F.check)).ends st with
      | (.ok true, st') => (.ok (), { st' with tasks := st'.tasks ++ [st'.packet.service] })
      | (.ok false, st') =>
        (.ok (), { st' with events := st'.events ++ [.onServiceParameterInvalid] })
      | (.error thrown, st') => (.error thrown, st') := by
  simp only [onCommited, checkServiceParameter, Process.ends_bind, Process.ends_get,
    checkRequestService, h, Bool.not_true, Bool.not_false, Bool.false_eq_true, if_false,
    searchService, hfind, Option.isSome_some]
  rcases (call (functions.map F.check)).ends st with ⟨_ | result, st'⟩
  · rfl
  · cases result <;> rfl

/-- The task: what the execute function throws decides. -/
theorem task_ends (F : Functions) (serviceName : String) (st : Processing) :
    (task F serviceName).ends st =
      match (call ((subscript serviceName st.procedures).2.map F.execute)).ends
        { st with procedures := (subscript serviceName st.procedures).1 } with
      | (.ok _, st') => (.ok (), { st' with events := st'.events ++ [.onCompleted] })
      | (.error .stdException, st') =>
        (.ok (), { st' with events := st'.events ++ [.onServiceError] })
      | (.error .other, st') => (.error .other, st') := by
  simp only [task, Process.ends_tryCatch, Process.ends_bind, Process.ends_get,
    Process.ends_modify]
  rcases (call ((subscript serviceName st.procedures).2.map F.execute)).ends
    { st with procedures := (subscript serviceName st.procedures).1 } with ⟨_ | result, st'⟩
  case error thrown => cases thrown <;> rfl
  case ok => rfl

/-- A task raises one event, unless the execute function throws no `std::exception`. -/
theorem task_events (F : Functions) (serviceName : String) (st : Processing) :
    (∃ event, (event = .onCompleted ∨ event = .onServiceError) ∧
      ((task F serviceName).ends st).2.events = st.events ++ [event]) ∧
      (∀ f, (subscript serviceName st.procedures).2 = some f →
        (F.execute f st.packet).2 ≠ .escaped) ∨
    ((task F serviceName).ends st).2.events = st.events ∧
      ∃ f, (subscript serviceName st.procedures).2 = some f ∧
        (F.execute f st.packet).2 = .escaped := by
  rw [task_ends]
  cases hfound : (subscript serviceName st.procedures).2 with
  | none =>
    rw [Option.map_none, ends_call_none]
    exact .inl ⟨⟨.onServiceError, .inr rfl, rfl⟩, nofun⟩
  | some f =>
    rw [Option.map_some, ends_call_some]
    cases houtcome : (F.execute f st.packet).2 with
    | returned result =>
      refine .inl ⟨⟨.onCompleted, .inl rfl, rfl⟩, fun g hg => ?_⟩
      cases hg
      rw [houtcome]
      exact nofun
    | threw =>
      refine .inl ⟨⟨.onServiceError, .inr rfl, rfl⟩, fun g hg => ?_⟩
      cases hg
      rw [houtcome]
      exact nofun
    | escaped => exact .inr ⟨rfl, f, rfl, houtcome⟩

end Ends

/-! ## The answer to a request -/

/-- The dispatcher's thread calls `OnCommited`, and a worker runs what was committed. The table may
have changed in between. An exception of the task is kept in its future. -/
def process (F : Functions) (later : Procedures) (st : Processing) :
    Except Thrown Unit × Processing :=
  let dispatched := (onCommited F).ends st
  (dispatched.1, dispatched.2.tasks.foldl
    (fun st serviceName => ((task F serviceName).ends { st with procedures := later }).2)
    dispatched.2)

/-- The events that answer a request. -/
def answers : List RPCEvent :=
  [.onServiceEmptyRequest, .onServiceNotFound, .onServiceParameterInvalid, .onServiceError,
    .onCompleted]

/-- One event has been raised, one that answers, and no exception has left the dispatcher's
loop. -/
def Answered (r : Except Thrown Unit × Processing) : Prop :=
  (∃ event ∈ answers, r.2.events = [event]) ∧ r.1 = .ok ()

/-- The check function, where it is called, returns; and the execute function, where it is called,
returns or throws a `std::exception`. -/
def FunctionsEnd (F : Functions) (procedures later : Procedures) (packet : RPCPacket) : Prop :=
  packet.service.isEmpty = false →
    ∀ functions, find packet.service procedures = some functions →
      ∃ f result, functions = some f ∧ (F.check f packet).2 = .returned result ∧
        (result = true → ∀ g, (subscript (F.check f packet).1.service later).2 = some g →
          (F.execute g (F.check f packet).1).2 ≠ .escaped)

theorem functionsEnd_known {F : Functions} {procedures later : Procedures} {packet : RPCPacket}
    {f : Nat} (hempty : packet.service.isEmpty = false)
    (hfind : find packet.service procedures = some (some f)) :
    FunctionsEnd F procedures later packet ↔
      ∃ result, (F.check f packet).2 = .returned result ∧
        (result = true → ∀ g, (subscript (F.check f packet).1.service later).2 = some g →
          (F.execute g (F.check f packet).1).2 ≠ .escaped) := by
  refine ⟨fun h => ?_, fun ⟨result, hend⟩ _ functions h => ?_⟩
  · obtain ⟨_, result, hf, hend⟩ := h hempty (some f) hfind
    cases hf
    exact ⟨result, hend⟩
  · obtain rfl := Option.some.inj (hfind.symm.trans h)
    exact ⟨f, result, rfl, hend⟩

/-- For every table of services, every request and every behaviour of the registered functions:
exactly one event answers the request and no exception leaves the dispatcher's loop, if and only if
the functions that are called for it end in one of the ways that the code handles. -/
theorem answered_iff (F : Functions) (procedures later : Procedures) (packet : RPCPacket) :
    Answered (process F later ⟨procedures, packet, [], []⟩) ↔
      FunctionsEnd F procedures later packet := by
  cases hempty : packet.service.isEmpty with
  | true =>
    rw [Answered, process, onCommited_empty F hempty]
    refine ⟨fun _ h => ?_, fun _ => ⟨⟨_, by decide, rfl⟩, rfl⟩⟩
    rw [hempty] at h
    cases h
  | false =>
    cases hfind : find packet.service procedures with
    | none =>
      rw [Answered, process, onCommited_unknown F hempty hfind]
      refine ⟨fun _ _ functions h => ?_, fun _ => ⟨⟨_, by decide, rfl⟩, rfl⟩⟩
      rw [hfind] at h
      cases h
    | some functions =>
      rw [Answered, process, onCommited_known hempty hfind]
      cases functions with
      | none =>
        rw [Option.map_none, ends_call_none]
        refine ⟨fun h => (nomatch h.2), fun h => ?_⟩
        obtain ⟨f, _, hf, _⟩ := h hempty none hfind
        cases hf
      | some f =>
        rw [functionsEnd_known hempty hfind, Option.map_some, ends_call_some]
        cases houtcome : (F.check f packet).2 with
        | threw | escaped => exact ⟨fun h => (nomatch h.2), fun ⟨_, h, _⟩ => nomatch h⟩
        | returned result =>
          cases result with
          | false =>
            refine ⟨fun _ => ⟨false, rfl, nofun⟩, fun _ => ⟨⟨_, by decide, rfl⟩, rfl⟩⟩
          | true =>
            -- the committed task raises the event
            obtain ⟨⟨event, hevent, hraised⟩, hcaught⟩ | ⟨hnone, g, hg, hescaped⟩ :=
              task_events F (F.check f packet).1.service
                ⟨later, (F.check f packet).1, [], [(F.check f packet).1.service]⟩
            · refine ⟨fun _ => ⟨true, rfl, fun _ => hcaught⟩, fun _ => ⟨⟨event, ?_, hraised⟩, rfl⟩⟩
              obtain rfl | rfl := hevent <;> decide
            · refine ⟨fun h => ?_, fun ⟨result, hresult, hend⟩ => ?_⟩
              · obtain ⟨⟨event, _, hone⟩, -⟩ := h
                cases hnone.symm.trans hone
              · cases hresult
                exact absurd hescaped (hend rfl g hg)

/-- A check function that throws: its exception leaves the dispatcher's loop, and the request is
never answered. -/
theorem unanswered_of_throwing_check :
    ¬ ∀ F procedures later packet, Answered (process F later ⟨procedures, packet, [], []⟩) := by
  intro h
  have hanswered := h ⟨fun _ packet => (packet, .threw), fun _ packet => (packet, .returned true)⟩
    [("a", some 0)] [("a", some 0)] { service := "a" }
  exact nomatch hanswered.2

/-! ## The server's operations -/

/-- What the thread that ran such code does next: it raises the events, or commits. -/
def onward (st : Processing) : List RPCOp :=
  st.events.flatMap raise ++ st.tasks.map fun _ => .commit

/-- A request of the server as it goes into processing. -/
def intake (v : RPCServer) (a : Nat) : Processing := ⟨v.procedures, v.packet a, [], []⟩

/-- The server's dispatcher thread does what `onCommited` says: at once where there is no function
to call, and otherwise once the check function has ended. -/
theorem processorOnCommited_ends (F : Functions) (v : RPCServer) (a : Nat) :
    ((v.processorOnCommited a).2 = onward ((onCommited F).ends (intake v a)).2 ∧
      ((onCommited F).ends (intake v a)).1 = .ok ()) ∨
    (v.processorOnCommited a = (v, [.checkServiceParameter (v.packet a).service]) ∧
      ∀ answer : Answer,
        (∀ f, find (v.packet a).service v.procedures = some (some f) →
          (answer.packet, answer.outcome) = F.check f (v.packet a)) →
        let checked := v.checkServiceParameter a (v.packet a).service answer
        (checked.2 = onward ((onCommited F).ends (intake v a)).2 ∧
          ((onCommited F).ends (intake v a)).1 = .ok ()) ∨
        (checked.1.terminated = true ∧ ((onCommited F).ends (intake v a)).1 ≠ .ok ())) := by
  cases hempty : (v.packet a).service.isEmpty with
  | true =>
    refine .inl ?_
    have hends : (onCommited F).ends (intake v a) = _ := onCommited_empty F hempty
    rw [hends]
    simp only [RPCServer.processorOnCommited, hempty, if_true]
    exact ⟨(List.append_nil _).symm, trivial⟩
  | false =>
    cases hfind : find (v.packet a).service v.procedures with
    | none =>
      refine .inl ?_
      have hends : (onCommited F).ends (intake v a) = _ := onCommited_unknown F hempty hfind
      rw [hends]
      simp only [RPCServer.processorOnCommited, hempty, searchService, hfind, Option.isSome_none,
        Bool.not_false, Bool.false_eq_true, if_false, if_true]
      exact ⟨(List.append_nil _).symm, trivial⟩
    | some functions =>
      refine .inr ⟨?_, fun answer hanswer => ?_⟩
      · simp only [RPCServer.processorOnCommited, hempty, searchService, hfind,
          Option.isSome_some, Bool.not_true, Bool.false_eq_true, if_false]
      have hends : (onCommited F).ends (intake v a) = _ := onCommited_known hempty hfind
      rw [hends]
      cases functions with
      | none =>
        simp only [RPCServer.checkServiceParameter, hfind]
        exact .inr ⟨trivial, nofun⟩
      | some f =>
        have hcheck : F.check f (intake v a).packet = (answer.packet, answer.outcome) :=
          (hanswer f rfl).symm
        rw [Option.map_some, ends_call_some, hcheck]
        simp only [RPCServer.checkServiceParameter, hfind]
        cases answer.outcome with
        | returned result =>
          cases result with
          | true => exact .inl ⟨rfl, rfl⟩
          | false => exact .inl ⟨(List.append_nil _).symm, rfl⟩
        | threw | escaped => exact .inr ⟨rfl, nofun⟩

/-- A worker of the server does what `task` says: at once where the service is gone, and otherwise
once the execute function has ended. -/
theorem execute_ends (F : Functions) (v : RPCServer) (a : Nat) (serviceName : String) :
    (v.execute a serviceName).2 = onward ((task F serviceName).ends (intake v a)).2 ∨
    ((v.execute a serviceName).2 = [.running] ∧
      ∀ answer : Answer,
        (∀ f, (subscript serviceName v.procedures).2 = some f →
          (answer.packet, answer.outcome) = F.execute f (v.packet a)) →
        ((v.execute a serviceName).1.running a answer).2 =
          onward ((task F serviceName).ends (intake v a)).2) := by
  rw [task_ends]
  simp only [RPCServer.execute, intake]
  cases hfound : (subscript serviceName v.procedures).2 with
  | none => exact .inl (List.append_nil _).symm
  | some f =>
    refine .inr ⟨rfl, fun answer hanswer => ?_⟩
    rw [Option.map_some, ends_call_some]
    simp only [← hanswer f rfl, RPCServer.running]
    cases answer.outcome with
    | returned result | threw => exact (List.append_nil _).symm
    | escaped => rfl

end RPCProcessor

end DSFramework.DSRPC
