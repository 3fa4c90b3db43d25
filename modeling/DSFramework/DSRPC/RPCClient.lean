import DSFramework.DSCommunication.AsyncTcpClient
import DSFramework.DSRPC.RPCClientStub
import DSFramework.DSRPC.RPCPacket.Parse
import DSFramework.DSRPC.RPCPacket.Wire

/-!
# The life of a client

`RemoteCall` assigns a new thread to `m_rpcThread` without looking at the old one. The thread makes
the call and waits for the timer, and only the timer's handler disconnects `m_client`; a response
does not end the wait. The destructor joins the thread. Then the members go, the last one first:
`m_client`, the stub, which logs the packet that it keeps, and the thread object.

`m_client` is the machine of `AsyncTcpClient`, and this one uses it as its condition `settled` asks:
its thread object is never joinable where it is assigned to or destroyed. What is left of
`std::terminate` is the second `RemoteCall` (`ends_of_reachable`).
-/

namespace DSFramework.DSRPC

open DSCommunication (AsyncTcpClient ClientCaller ClientLabel)

/-- Where the thread of `RemoteCall` is. -/
inductive RPCClientThread where
  /-- Before `async_wait`. -/
  | created
  /-- In `CallProcedure`, before `Serialize`, `Connect` and `Send`. -/
  | serialize
  | connect
  | send
  /-- In `m_ioc.run()`. -/
  | run
  /-- In `StopCallProcedure`, before `Disconnect` and `m_ioc.stop()`. -/
  | disconnect
  | stop
  | ended
  deriving DecidableEq, Repr

/-- What the thread that uses the client stands before. -/
inductive RPCClientCaller where
  | idle
  /-- In the destructor: `m_rpcThread.join()`, then `~AsyncTcpClient`, `~RPCClientStub` and
  `~thread`. -/
  | join
  | client
  | destroying
  | stub
  | thread
  | gone
  /-- The stub has dereferenced a null pointer. -/
  | null
  deriving DecidableEq, Repr

/-- A client with its threads. `rpcThread` is `none` when the thread object is not joinable; `calls`
and `bodies` are histories: how often `RemoteCall` has been called, and what the stub has been
handed. -/
structure RPCClient where
  rpcThread : Option RPCClientThread
  client : AsyncTcpClient
  stub : RPCClientStub
  expired : Bool
  caller : RPCClientCaller
  calls : Nat
  bodies : List (List UInt8)
  terminated : Bool

/-- What may happen next. -/
inductive RPCClientLabel where
  | remoteCall
  | destroy
  /-- The destructor's next step. -/
  | caller
  /-- The thread of `RemoteCall` goes on; `Serialize` succeeds or not. -/
  | rpc (serialized : Bool)
  /-- It calls `m_client.Connect`. -/
  | connect (error : Bool)
  | expire
  /-- Whoever is in `m_client` goes on there, or its thread does. -/
  | client (l : ClientLabel)
  /-- The client's thread hands a body to the stub. -/
  | deliver (body : List UInt8)
  deriving DecidableEq, Repr

namespace RPCClient

variable {parseFromArray : List UInt8 → Option RPCPacket} {clientId : String}
  {v v' : RPCClient} {l : RPCClientLabel}

/-- `RPCClient::RPCClient`. -/
def new (clientId : String) : RPCClient :=
  { rpcThread := none
    client := .new
    stub := .new clientId
    expired := false
    caller := .idle
    calls := 0
    bodies := []
    terminated := false }

/-- `RemoteCall`: assigning to a joinable thread calls `std::terminate`. -/
def remoteCall (v : RPCClient) : RPCClient :=
  if v.rpcThread.isSome then { v with calls := v.calls + 1, terminated := true }
  else { v with calls := v.calls + 1, rpcThread := some .created }

/-- The destructor's next step. Nobody but `m_rpcClientStub` holds the stub once `m_client` is
gone. -/
def proceed (v : RPCClient) : Option RPCClient :=
  match v.caller with
  | .join => match v.rpcThread with
    | some .ended => some { v with rpcThread := none, caller := .client }
    | _ => none
  | .client => (v.client.step .destroy).map fun c => { v with client := c, caller := .destroying }
  | .destroying => if v.client.caller = .gone then some { v with caller := .stub } else none
  | .stub => some { v with
      caller := if v.stub.cachedRequestPacket.isSome then .thread else .null }
  | .thread => some (if v.rpcThread.isSome then { v with terminated := true }
      else { v with caller := .gone })
  | .idle | .gone | .null => none

/-- The next step of the thread of `RemoteCall`. It is in `Connect` or in `Disconnect` until the
caller of `m_client` is idle again; what they return is not asked. -/
def advance (v : RPCClient) (serialized : Bool) : Option RPCClient :=
  match v.rpcThread with
  | some .created => some { v with rpcThread := some .serialize }
  | some .serialize => some { v with rpcThread := some (if serialized then .connect else .run) }
  | some .send =>
    if v.client.caller = .idle then some { v with rpcThread := some .run } else none
  | some .run => if v.expired then some { v with rpcThread := some .disconnect } else none
  | some .disconnect => (v.client.step .disconnect).map fun c =>
      { v with client := c, rpcThread := some .stop }
  | some .stop =>
    if v.client.caller = .idle then some { v with rpcThread := some .ended } else none
  | some .connect | some .ended | none => none

/-- One step, in a process that goes on. -/
def step (parseFromArray : List UInt8 → Option RPCPacket) (v : RPCClient) (l : RPCClientLabel) :
    Option RPCClient :=
  if v.terminated || v.client.terminated then none
  else match l with
    | .remoteCall => if v.caller = .idle then some v.remoteCall else none
    | .destroy => if v.caller = .idle then
        some { v with caller := if v.rpcThread.isSome then .join else .client }
      else none
    | .caller => v.proceed
    | .rpc serialized => v.advance serialized
    | .connect error => if v.rpcThread = some .connect then
        (v.client.step (.connect error)).map fun c => { v with client := c, rpcThread := some .send }
      else none
    | .expire => match v.rpcThread with
      | none | some .created => none
      | some _ => if v.expired then none else some { v with expired := true }
    | .client l => match l with
      | .start _ | .caller | .thread | .read _ =>
        (v.client.step l).map fun c => { v with client := c }
      | .connect _ | .disconnect | .destroy => none
    | .deliver body => if v.client.clientThread = some (.handling false) then
        (v.client.step .thread).map fun c => { v with
          client := c
          stub := v.stub.onData parseFromArray body
          bodies := v.bodies ++ [body] }
      else none

/-- A client as a machine. -/
def machine (parseFromArray : List UInt8 → Option RPCPacket) (clientId : String) :
    Transition.Machine RPCClient RPCClientLabel where
  init v := v = new clientId
  step := step parseFromArray

end RPCClient

/-! ## The use of `m_client` -/

/-- Where the caller of an `AsyncTcpClient` goes to. -/
def nextCaller : ClientCaller → ClientCaller
  | .start => .assign
  | .assign => .idle
  | .clear destroying => .close destroying
  | .close destroying => .stop destroying
  | .stop destroying => .join destroying
  | .join true => .members
  | .join false => .idle
  | .members => .gone
  | .idle => .idle
  | .gone => .gone

/-- Does the caller go on of itself, without assigning the thread? -/
def goesOn : ClientCaller → Bool
  | .assign | .idle | .gone => false
  | _ => true

/-- Is a `Connect` still outstanding behind the caller's step? -/
def stillOutstanding (caller : ClientCaller) (outstanding : Bool) : Bool :=
  match caller with
  | .join _ => false
  | _ => outstanding

/-- What the caller's step makes of an `AsyncTcpClient`: the thread object gets a thread, or keeps the
one that it has, or loses it by the join. -/
inductive Proceeds (c c' : AsyncTcpClient) : Prop where
  | assign : c.caller = .assign → c.clientThread = none → c'.clientThread = some .created →
      c'.caller = .idle → c'.outstanding = c.outstanding → Proceeds c c'
  | other : goesOn c.caller = true → c'.caller = nextCaller c.caller →
      c'.outstanding = stillOutstanding c.caller c.outstanding →
      c'.clientThread = c.clientThread ∨ c'.clientThread = none → Proceeds c c'

/-- What `m_client` is used for. -/
inductive ClientUse where
  | unused
  | connecting
  | connected
  | disconnecting
  | destroying
  | destroyed
  deriving DecidableEq, Repr

section Client

variable {c c' : AsyncTcpClient} {l : ClientLabel}

theorem settled_next
    (h : AsyncTcpClient.machine.ReachableBy (fun c l => c.settled l = true) c)
    (hok : c.settled l = true) (hstep : c.step l = some c') :
    AsyncTcpClient.machine.ReachableBy (fun c l => c.settled l = true) c' :=
  h.next hok hstep

/-- The client's thread leaves the caller of the client where it is. -/
theorem same_of_thread (hstep : c.step l = some c')
    (hl : l = .thread ∨ ∃ error, l = .read error) : AsyncTcpClient.Same c c' := by
  unfold AsyncTcpClient.step at hstep
  split at hstep
  · cases hstep
  · obtain rfl | ⟨error, rfl⟩ := hl
    · exact AsyncTcpClient.advance_same hstep
    · exact AsyncTcpClient.read_same hstep

/-- A step of the caller in `m_client`. -/
theorem proceeds_of_step (hstep : c.step l = some c')
    (hl : l = .caller ∨ ∃ caught, l = .start caught) (halive : c'.terminated = false) :
    Proceeds c c' := by
  unfold AsyncTcpClient.step at hstep
  split at hstep
  · cases hstep
  · obtain rfl | ⟨caught, rfl⟩ := hl
    · simp only [AsyncTcpClient.proceed] at hstep
      split at hstep
      case h_1 hat =>
        split at hstep
        · cases hstep
          cases halive
        · next hnone =>
          cases hstep
          exact .assign hat (Option.not_isSome_iff_eq_none.mp hnone) rfl rfl rfl
      case h_5 destroying hat =>
        split at hstep
        case h_3 => cases hstep
        all_goals
          cases hstep
          refine .other (by rw [hat]; rfl) ?_ ?_ (.inr rfl) <;> rw [hat] <;>
            cases destroying <;> rfl
      case h_6 hat =>
        split at hstep
        · cases hstep
          cases halive
        · cases hstep
          refine .other (by rw [hat]; rfl) ?_ ?_ (.inl rfl) <;> rw [hat] <;> rfl
      case h_7 | h_8 | h_9 => cases hstep
      all_goals
        next hat =>
        cases hstep
        refine .other (by rw [hat]; rfl) ?_ ?_ (.inl rfl) <;> rw [hat] <;> rfl
    · simp only [AsyncTcpClient.start] at hstep
      split at hstep
      case h_1 hat =>
        cases hstep
        refine .other (by rw [hat]; rfl) ?_ ?_ (.inl rfl) <;> rw [hat] <;> rfl
      case h_2 => cases hstep

theorem Proceeds.caller (h : Proceeds c c') : c'.caller = nextCaller c.caller := by
  cases h with
  | assign hat _ _ hcaller => rw [hcaller, hat]; rfl
  | other _ hcaller => exact hcaller

theorem Proceeds.outstanding (h : Proceeds c c') :
    c'.outstanding = stillOutstanding c.caller c.outstanding := by
  cases h with
  | assign hat _ _ _ houtstanding => rw [houtstanding, hat]; rfl
  | other _ _ houtstanding => exact houtstanding

end Client

namespace ClientUse

/-- Where the caller of `m_client` may be. -/
def allows : ClientUse → ClientCaller → Bool
  | .unused, .idle | .connected, .idle | .destroyed, .gone => true
  | .connecting, .start | .connecting, .assign | .connecting, .idle => true
  | .disconnecting, .clear d | .disconnecting, .close d | .disconnecting, .stop d
  | .disconnecting, .join d => !d
  | .disconnecting, .idle => true
  | .destroying, .clear d | .destroying, .close d | .destroying, .stop d
  | .destroying, .join d => d
  | .destroying, .members | .destroying, .gone => true
  | _, _ => false

/-- Where no `Connect` may be outstanding. -/
def closed : ClientUse → ClientCaller → Bool
  | .unused, _ | .destroying, _ | .destroyed, _ | .disconnecting, .idle => true
  | _, _ => false

/-- An `m_client` that is used for this. -/
structure Admits (use : ClientUse) (c : AsyncTcpClient) : Prop where
  allows : use.allows c.caller = true
  closed : use.closed c.caller = true → c.outstanding = false

theorem allows_next {use : ClientUse} {caller : ClientCaller}
    (h : use.allows caller = true) : use.allows (nextCaller caller) = true := by
  cases use <;> cases caller <;> first
    | exact h
    | rfl
    | next d => cases d <;> first | exact h | rfl

/-- What the caller does in `m_client` keeps it in the use. -/
theorem Admits.next {use : ClientUse} {c c' : AsyncTcpClient} (h : use.Admits c)
    (hproceeds : Proceeds c c') : use.Admits c' where
  allows := by
    rw [hproceeds.caller]
    exact allows_next h.allows
  closed hclosed := by
    rw [hproceeds.caller] at hclosed
    rw [hproceeds.outstanding]
    have hallows := h.allows
    have hbefore := h.closed
    -- only the join of `Disconnect` comes to a place that is closed from one that is not
    cases hat : c.caller with
    | join d => rfl
    | start | assign | clear | close | stop | members | idle | gone =>
      rw [hat] at hallows hbefore hclosed
      refine hbefore ?_
      cases use <;> first
        | rfl
        | exact absurd hallows Bool.false_ne_true
        | exact absurd hclosed Bool.false_ne_true

/-- The steps of the client's thread do, too. -/
theorem Admits.same {use : ClientUse} {c c' : AsyncTcpClient} (h : use.Admits c)
    (hsame : AsyncTcpClient.Same c c') : use.Admits c' where
  allows := by
    rw [hsame.caller]
    exact h.allows
  closed hclosed := by
    rw [hsame.caller] at hclosed
    rw [hsame.outstanding]
    exact h.closed hclosed

/-- Nobody is in a client that is not used. -/
theorem Admits.idle {c : AsyncTcpClient} (h : ClientUse.unused.Admits c) : c.caller = .idle := by
  have hallows := h.allows
  revert hallows
  cases c.caller <;> first | exact fun _ => rfl | exact fun h => absurd h Bool.false_ne_true

theorem Admits.gone {c : AsyncTcpClient} (h : ClientUse.destroyed.Admits c) :
    c.caller = .gone := by
  have hallows := h.allows
  revert hallows
  cases c.caller <;> first | exact fun _ => rfl | exact fun h => absurd h Bool.false_ne_true

/-- A client that is not used has no thread. -/
theorem Admits.no_thread {use : ClientUse} {c : AsyncTcpClient} (h : use.Admits c)
    (huse : use = .unused ∨ use = .destroying ∨ use = .destroyed) (hjoinable : c.Joinable) :
    c.clientThread = none := by
  have hnone : c.outstanding = false := h.closed (by obtain rfl | rfl | rfl := huse <;> rfl)
  have howed : c.owed = false := by
    unfold AsyncTcpClient.owed
    rw [hnone]
    split <;> rfl
  exact Option.not_isSome_iff_eq_none.mp (hjoinable.owed.trans howed ▸ Bool.false_ne_true)

end ClientUse

section Client

variable {c c' : AsyncTcpClient}

/-- `Connect` has been called. -/
theorem connecting_of_step {error : Bool} (hstep : c.step (.connect error) = some c') :
    ClientUse.connecting.Admits c' := by
  simp only [AsyncTcpClient.step, AsyncTcpClient.connect] at hstep
  split at hstep
  · cases hstep
  · split at hstep
    case h_1 hat =>
      split at hstep
      · cases hstep
        exact ⟨by rw [hat]; rfl, Bool.noConfusion⟩
      · split at hstep
        · cases hstep
        · cases hstep
          exact ⟨rfl, Bool.noConfusion⟩
    case h_2 => cases hstep

/-- `Disconnect` has been called. -/
theorem disconnecting_of_step (hstep : c.step .disconnect = some c') :
    ClientUse.disconnecting.Admits c' := by
  simp only [AsyncTcpClient.step] at hstep
  split at hstep
  · cases hstep
  · split at hstep
    · cases hstep
      exact ⟨rfl, Bool.noConfusion⟩
    · cases hstep

/-- The destructor has been called. -/
theorem destroying_of_step (hstep : c.step .destroy = some c') (h : c.outstanding = false) :
    ClientUse.destroying.Admits c' := by
  simp only [AsyncTcpClient.step, AsyncTcpClient.destroy] at hstep
  split at hstep
  · cases hstep
  · split at hstep
    · cases hstep
      refine ⟨?_, fun _ => h⟩
      cases c.running <;> rfl
    · cases hstep

end Client

/-! ## The life of the client -/

/-- Has the timer's handler been called? -/
def RPCClientThread.late : RPCClientThread → Bool
  | .disconnect | .stop | .ended => true
  | _ => false

/-- What it uses `m_client` for. -/
def RPCClientThread.use : RPCClientThread → ClientUse
  | .created | .serialize | .connect | .ended => .unused
  | .send => .connecting
  | .run | .disconnect => .connected
  | .stop => .disconnecting

/-- Has the destructor joined the thread? -/
def RPCClientCaller.leaving : RPCClientCaller → Bool
  | .idle | .join => false
  | _ => true

/-- What it uses `m_client` for. -/
def RPCClientCaller.use : RPCClientCaller → ClientUse
  | .idle | .join | .client => .unused
  | .destroying => .destroying
  | .stub | .thread | .gone | .null => .destroyed

namespace RPCClient

variable {parseFromArray : List UInt8 → Option RPCPacket} {clientId : String}
  {v v' : RPCClient} {l : RPCClientLabel}

/-- How far it has come: there has been no call, or the one call has its thread, or the thread has
been joined. -/
inductive Stage (v : RPCClient) : Prop where
  | unused : v.caller = .idle → v.rpcThread = none → v.calls = 0 → Stage v
  | called {place : RPCClientThread} : v.caller.leaving = false → v.rpcThread = some place →
      v.calls = 1 → (place.late = true → v.expired = true) → Stage v
  | leaving : v.caller.leaving = true → v.rpcThread = none →
      v.calls = 0 ∨ v.calls = 1 ∧ v.expired = true → Stage v

/-- What the client uses `m_client` for. -/
def use (v : RPCClient) : ClientUse :=
  match v.rpcThread with
  | some place => place.use
  | none => v.caller.use

/-- THE INVARIANT. -/
structure Lasting (parseFromArray : List UInt8 → Option RPCPacket) (clientId : String)
    (v : RPCClient) : Prop where
  settled : AsyncTcpClient.machine.ReachableBy (fun c l => c.settled l = true) v.client
  uses : v.use.Admits v.client
  stage : v.terminated = false → v.Stage
  terminated : v.terminated = true → v.calls = 2 ∧ v.caller = .idle
  received : v.stub = (RPCClientStub.new clientId).receive parseFromArray v.bodies
  heard : v.calls = 0 → v.bodies = []
  kept : v.caller = .thread ∨ v.caller = .gone → v.stub.cachedRequestPacket.isSome = true
  null : v.caller = .null → v.stub.cachedRequestPacket = none

theorem lasting_new : (new clientId).Lasting parseFromArray clientId where
  settled := .start rfl
  uses := ⟨rfl, fun _ => rfl⟩
  stage _ := .unused rfl rfl rfl
  terminated h := absurd h Bool.false_ne_true
  received := rfl
  heard _ := rfl
  kept h := by rcases h with h | h <;> cases h
  null h := RPCClientCaller.noConfusion h

/-- Nothing in `m_client` terminates the process. -/
theorem Lasting.alive (h : v.Lasting parseFromArray clientId) : v.client.terminated = false :=
  (AsyncTcpClient.joinable_of_reachable h.settled).alive

theorem Stage.of_thread {place : RPCClientThread} (h : v.Stage) (hat : v.rpcThread = some place) :
    v.caller.leaving = false ∧ v.calls = 1 ∧ (place.late = true → v.expired = true) := by
  cases h with
  | unused _ hnone | leaving _ hnone =>
    rw [hat] at hnone
    cases hnone
  | called hcaller hthread hcalls hlate =>
    rw [hat] at hthread
    cases hthread
    exact ⟨hcaller, hcalls, hlate⟩

theorem Stage.of_leaving (h : v.Stage) (hleaving : v.caller.leaving = true) :
    v.rpcThread = none ∧ (v.calls = 0 ∨ v.calls = 1 ∧ v.expired = true) := by
  cases h with
  | unused hidle =>
    rw [hidle] at hleaving
    cases hleaving
  | called hcaller =>
    rw [hcaller] at hleaving
    cases hleaving
  | leaving _ hnone hcalls => exact ⟨hnone, hcalls⟩

/-- Where `m_client` has a thread, there is one of `RemoteCall`. -/
theorem Lasting.at_work (h : v.Lasting parseFromArray clientId) (hgoes : v.terminated = false)
    (hthread : v.client.clientThread ≠ none) : v.caller.leaving = false ∧ v.calls = 1 := by
  have hjoinable := AsyncTcpClient.joinable_of_reachable h.settled
  cases h.stage hgoes with
  | unused hidle hnone =>
    refine absurd (h.uses.no_thread ?_ hjoinable) hthread
    rw [use, hnone, hidle]
    exact .inl rfl
  | called hstays _ hcalls => exact ⟨hstays, hcalls⟩
  | leaving hleaving hnone =>
    refine absurd (h.uses.no_thread ?_ hjoinable) hthread
    rw [use, hnone]
    revert hleaving
    cases v.caller <;> decide

/-- Nobody but those who are in `m_client` moves. -/
theorem Lasting.inside (h : v.Lasting parseFromArray clientId) {c : AsyncTcpClient}
    {l : ClientLabel} (hsettled : v.client.settled l = true) (hstep : v.client.step l = some c)
    (huse : v.use.Admits c) : Lasting parseFromArray clientId { v with client := c } where
  settled := h.settled.next hsettled hstep
  uses := huse
  stage hgoes := by
    cases h.stage hgoes with
    | unused hcaller hthread hcalls => exact .unused hcaller hthread hcalls
    | called hcaller hthread hcalls hlate => exact .called hcaller hthread hcalls hlate
    | leaving hcaller hthread hcalls => exact .leaving hcaller hthread hcalls
  terminated := h.terminated
  received := h.received
  heard := h.heard
  kept := h.kept
  null := h.null

/-- The thread of `RemoteCall` moves, and leaves `m_client` in a use. -/
theorem Lasting.goto (h : v.Lasting parseFromArray clientId) {place place' : RPCClientThread}
    {c : AsyncTcpClient} (hat : v.rpcThread = some place) (hgoes : v.terminated = false)
    (hsettled : AsyncTcpClient.machine.ReachableBy (fun c l => c.settled l = true) c)
    (huse : place'.use.Admits c) (hlate : place'.late = true → v.expired = true) :
    Lasting parseFromArray clientId { v with client := c, rpcThread := some place' } where
  settled := hsettled
  uses := huse
  stage _ := by
    obtain ⟨hcaller, hcalls, -⟩ := (h.stage hgoes).of_thread hat
    exact .called hcaller rfl hcalls hlate
  terminated := h.terminated
  received := h.received
  heard := h.heard
  kept := h.kept
  null := h.null

/-- The destructor moves behind the join. -/
theorem Lasting.leave (h : v.Lasting parseFromArray clientId) {caller : RPCClientCaller}
    {c : AsyncTcpClient} (hgoes : v.terminated = false)
    (hcalls : v.calls = 0 ∨ v.calls = 1 ∧ v.expired = true) (hleaving : caller.leaving = true)
    (hsettled : AsyncTcpClient.machine.ReachableBy (fun c l => c.settled l = true) c)
    (huse : caller.use.Admits c)
    (hkept : caller = .thread ∨ caller = .gone → v.stub.cachedRequestPacket.isSome = true)
    (hnull : caller = .null → v.stub.cachedRequestPacket = none) :
    Lasting parseFromArray clientId
      { v with client := c, rpcThread := none, caller := caller } where
  settled := hsettled
  uses := huse
  stage _ := .leaving hleaving rfl hcalls
  terminated hterminated := absurd (hgoes.symm.trans hterminated) Bool.false_ne_true
  received := h.received
  heard := h.heard
  kept := hkept
  null := hnull

theorem Lasting.advance (h : v.Lasting parseFromArray clientId) (hgoes : v.terminated = false)
    {serialized : Bool} (hstep : v.advance serialized = some v') :
    v'.Lasting parseFromArray clientId := by
  have huse := h.uses
  unfold RPCClient.advance at hstep
  split at hstep
  case h_1 hat =>
    cases hstep
    rw [use, hat] at huse
    exact h.goto hat hgoes h.settled huse Bool.noConfusion
  case h_2 hat =>
    cases hstep
    rw [use, hat] at huse
    cases serialized with
    | true => exact h.goto hat hgoes h.settled huse Bool.noConfusion
    | false =>
      exact h.goto hat hgoes h.settled ⟨by rw [huse.idle]; rfl, Bool.noConfusion⟩ Bool.noConfusion
  case h_3 hat =>
    split at hstep
    case isTrue hidle =>
      cases hstep
      exact h.goto hat hgoes h.settled ⟨by rw [hidle]; rfl, Bool.noConfusion⟩ Bool.noConfusion
    case isFalse => cases hstep
  case h_4 hat =>
    split at hstep
    case isTrue hexpired =>
      cases hstep
      rw [use, hat] at huse
      exact h.goto hat hgoes h.settled huse fun _ => hexpired
    case isFalse => cases hstep
  case h_5 hat =>
    obtain ⟨c, hc, rfl⟩ := Option.map_eq_some_iff.mp hstep
    have hlate := ((h.stage hgoes).of_thread hat).2.2
    exact h.goto hat hgoes (settled_next h.settled rfl hc) (disconnecting_of_step hc)
      fun _ => hlate rfl
  case h_6 hat =>
    split at hstep
    case isTrue hidle =>
      cases hstep
      rw [use, hat] at huse
      have hlate := ((h.stage hgoes).of_thread hat).2.2
      refine h.goto hat hgoes h.settled ⟨by rw [hidle]; rfl, fun _ => ?_⟩ fun _ => hlate rfl
      exact huse.closed (by rw [hidle]; rfl)
    case isFalse => cases hstep
  case h_7 | h_8 | h_9 => cases hstep

theorem Lasting.proceed (h : v.Lasting parseFromArray clientId) (hgoes : v.terminated = false)
    (hstep : v.proceed = some v') : v'.Lasting parseFromArray clientId := by
  have huse := h.uses
  have hleave := (h.stage hgoes).of_leaving
  unfold RPCClient.proceed at hstep
  split at hstep
  case h_1 hat =>
    split at hstep
    case h_1 hended =>
      cases hstep
      obtain ⟨-, hcalls, hlate⟩ := (h.stage hgoes).of_thread hended
      rw [use, hended] at huse
      exact h.leave hgoes (.inr ⟨hcalls, hlate rfl⟩) rfl h.settled huse
        (fun hc => by rcases hc with hc | hc <;> cases hc) RPCClientCaller.noConfusion
    case h_2 => cases hstep
  case h_2 hat =>
    obtain ⟨c, hc, rfl⟩ := Option.map_eq_some_iff.mp hstep
    obtain ⟨hnone, hcalls⟩ := hleave (by rw [hat]; rfl)
    rw [use, hnone, hat] at huse
    have hclosed := huse.closed rfl
    have hsettled : v.client.settled .destroy = true := by
      rw [AsyncTcpClient.settled, hclosed]
      exact Bool.or_true _
    rw [hnone]
    exact h.leave hgoes hcalls rfl (settled_next h.settled hsettled hc)
      (destroying_of_step hc hclosed)
      (fun hc => by rcases hc with hc | hc <;> cases hc) RPCClientCaller.noConfusion
  case h_3 hat =>
    split at hstep
    case isTrue hgone =>
      cases hstep
      obtain ⟨hnone, hcalls⟩ := hleave (by rw [hat]; rfl)
      rw [use, hnone, hat] at huse
      have hdestroyed : ClientUse.destroyed.Admits v.client :=
        ⟨by rw [hgone]; rfl, fun _ => huse.closed rfl⟩
      rw [hnone]
      exact h.leave hgoes hcalls rfl h.settled hdestroyed
        (fun hc => by rcases hc with hc | hc <;> cases hc) RPCClientCaller.noConfusion
    case isFalse => cases hstep
  case h_4 hat =>
    cases hstep
    obtain ⟨hnone, hcalls⟩ := hleave (by rw [hat]; rfl)
    rw [use, hnone, hat] at huse
    rw [hnone]
    cases hcached : v.stub.cachedRequestPacket.isSome with
    | true =>
      exact h.leave hgoes hcalls rfl h.settled huse (fun _ => hcached) RPCClientCaller.noConfusion
    | false =>
      exact h.leave hgoes hcalls rfl h.settled huse
        (fun hc => by rcases hc with hc | hc <;> cases hc)
        fun _ => Option.not_isSome_iff_eq_none.mp (hcached ▸ Bool.false_ne_true)
  case h_5 hat =>
    obtain ⟨hnone, hcalls⟩ := hleave (by rw [hat]; rfl)
    rw [hnone, if_neg (by decide)] at hstep
    cases hstep
    rw [use, hnone, hat] at huse
    exact h.leave hgoes hcalls rfl h.settled huse (fun _ => h.kept (.inl hat))
      RPCClientCaller.noConfusion
  case h_6 | h_7 | h_8 => cases hstep

/-- The second call terminates the process. -/
theorem Lasting.remoteCall (h : v.Lasting parseFromArray clientId) (hgoes : v.terminated = false)
    (hidle : v.caller = .idle) : v.remoteCall.Lasting parseFromArray clientId := by
  have huse := h.uses
  unfold RPCClient.remoteCall
  cases h.stage hgoes with
  | unused _ hnone hcalls =>
    rw [use, hnone, hidle] at huse
    rw [hnone, hcalls, if_neg (by decide)]
    constructor
    · exact h.settled
    · exact huse
    · exact fun _ => .called (by rw [hidle]; rfl) rfl rfl Bool.noConfusion
    · exact fun hterminated => absurd (hgoes.symm.trans hterminated) Bool.false_ne_true
    · exact h.received
    · exact fun hcalled => absurd hcalled Nat.one_ne_zero
    · exact h.kept
    · exact h.null
  | called _ hsome hcalls =>
    rw [hsome, hcalls, if_pos Option.isSome_some]
    constructor
    · exact h.settled
    · rw [use, hsome] at huse
      exact huse
    · exact fun hgoes => absurd hgoes.symm Bool.false_ne_true
    · exact fun _ => ⟨rfl, hidle⟩
    · exact h.received
    · exact fun hcalled => absurd hcalled (Nat.succ_ne_zero 1)
    · exact h.kept
    · exact h.null
  | leaving hleaving =>
    rw [hidle] at hleaving
    cases hleaving

theorem Lasting.destroy (h : v.Lasting parseFromArray clientId) (hgoes : v.terminated = false)
    (hidle : v.caller = .idle) :
    Lasting parseFromArray clientId
      { v with caller := if v.rpcThread.isSome then .join else .client } := by
  have huse := h.uses
  cases h.stage hgoes with
  | unused _ hnone hcalls =>
    rw [use, hnone, hidle] at huse
    rw [hnone]
    exact h.leave hgoes (.inl hcalls) rfl h.settled huse
      (fun hc => by rcases hc with hc | hc <;> cases hc) RPCClientCaller.noConfusion
  | called _ hsome hcalls hlate =>
    rw [use, hsome] at huse
    rw [hsome]
    constructor
    · exact h.settled
    · exact huse
    · exact fun _ => .called rfl rfl hcalls hlate
    · exact fun hterminated => absurd (hgoes.symm.trans hterminated) Bool.false_ne_true
    · exact h.received
    · exact h.heard
    · exact fun hc => by rcases hc with hc | hc <;> cases hc
    · exact RPCClientCaller.noConfusion
  | leaving hleaving =>
    rw [hidle] at hleaving
    cases hleaving

theorem Lasting.expire (h : v.Lasting parseFromArray clientId) (hgoes : v.terminated = false)
    {place : RPCClientThread} (hat : v.rpcThread = some place) :
    Lasting parseFromArray clientId { v with expired := true } where
  settled := h.settled
  uses := h.uses
  stage _ := by
    obtain ⟨hcaller, hcalls, -⟩ := (h.stage hgoes).of_thread hat
    exact .called hcaller hat hcalls fun _ => rfl
  terminated := h.terminated
  received := h.received
  heard := h.heard
  kept := h.kept
  null := h.null

/-- The stub is handed a body. -/
theorem Lasting.deliver (h : v.Lasting parseFromArray clientId) (hgoes : v.terminated = false)
    (hthread : v.client.clientThread ≠ none) (body : List UInt8) :
    Lasting parseFromArray clientId { v with
      stub := v.stub.onData parseFromArray body
      bodies := v.bodies ++ [body] } where
  settled := h.settled
  uses := h.uses
  stage _ := by
    cases h.stage hgoes with
    | unused hcaller hnone hcalls => exact .unused hcaller hnone hcalls
    | called hcaller hsome hcalls hlate => exact .called hcaller hsome hcalls hlate
    | leaving hcaller hnone hcalls => exact .leaving hcaller hnone hcalls
  terminated := h.terminated
  received := by
    rw [RPCClientStub.receive, List.foldl_append, h.received]
    rfl
  heard hnone := by
    obtain ⟨-, hone⟩ := h.at_work hgoes hthread
    exact absurd (hone.symm.trans hnone) Nat.one_ne_zero
  kept hc := by
    obtain ⟨hstays, -⟩ := h.at_work hgoes hthread
    rcases hc with hc | hc <;> rw [hc] at hstays <;> cases hstays
  null hc := by
    obtain ⟨hstays, -⟩ := h.at_work hgoes hthread
    rw [hc] at hstays
    cases hstays

theorem Lasting.step (h : v.Lasting parseFromArray clientId)
    (hstep : v.step parseFromArray l = some v') : v'.Lasting parseFromArray clientId := by
  unfold RPCClient.step at hstep
  split at hstep
  case isTrue => cases hstep
  case isFalse hends =>
    obtain ⟨hgoes, -⟩ := Bool.or_eq_false_iff.mp (Bool.not_eq_true _ ▸ hends)
    cases l with
    | remoteCall =>
      simp only at hstep
      split at hstep
      · next hidle =>
        cases hstep
        exact h.remoteCall hgoes hidle
      · cases hstep
    | destroy =>
      simp only at hstep
      split at hstep
      · next hidle =>
        cases hstep
        exact h.destroy hgoes hidle
      · cases hstep
    | caller => exact h.proceed hgoes hstep
    | rpc serialized => exact h.advance hgoes hstep
    | connect error =>
      simp only at hstep
      split at hstep
      · next hat =>
        obtain ⟨c, hc, rfl⟩ := Option.map_eq_some_iff.mp hstep
        have huse := h.uses
        rw [use, hat] at huse
        have hsettled : v.client.settled (.connect error) = true := by
          rw [AsyncTcpClient.settled, huse.closed rfl]
          exact Bool.or_true _
        exact h.goto hat hgoes (settled_next h.settled hsettled hc) (connecting_of_step hc)
          Bool.noConfusion
      · cases hstep
    | expire =>
      simp only at hstep
      split at hstep
      case h_1 | h_2 => cases hstep
      case h_3 place _ hat =>
        split at hstep
        · cases hstep
        · cases hstep
          exact h.expire hgoes hat
    | client l =>
      cases l with
      | start caught =>
        obtain ⟨c, hc, rfl⟩ := Option.map_eq_some_iff.mp hstep
        have hjoinable := AsyncTcpClient.joinable_of_reachable (settled_next h.settled rfl hc)
        have hproceeds := proceeds_of_step hc (.inr ⟨caught, rfl⟩) hjoinable.alive
        exact h.inside rfl hc (h.uses.next hproceeds)
      | caller =>
        obtain ⟨c, hc, rfl⟩ := Option.map_eq_some_iff.mp hstep
        have hjoinable := AsyncTcpClient.joinable_of_reachable (settled_next h.settled rfl hc)
        have hproceeds := proceeds_of_step hc (.inl rfl) hjoinable.alive
        exact h.inside rfl hc (h.uses.next hproceeds)
      | thread =>
        obtain ⟨c, hc, rfl⟩ := Option.map_eq_some_iff.mp hstep
        exact h.inside rfl hc (h.uses.same (same_of_thread hc (.inl rfl)))
      | read error =>
        obtain ⟨c, hc, rfl⟩ := Option.map_eq_some_iff.mp hstep
        exact h.inside rfl hc (h.uses.same (same_of_thread hc (.inr ⟨error, rfl⟩)))
      | connect | disconnect | destroy => cases hstep
    | deliver body =>
      simp only at hstep
      split at hstep
      · next hat =>
        obtain ⟨c, hc, rfl⟩ := Option.map_eq_some_iff.mp hstep
        have hdelivered := h.deliver hgoes (by rw [hat]; exact Option.some_ne_none _) body
        exact hdelivered.inside rfl hc (h.uses.same (same_of_thread hc (.inl rfl)))
      · cases hstep

theorem lasting_of_reachable (h : (machine parseFromArray clientId).Reachable v) :
    v.Lasting parseFromArray clientId := by
  refine Transition.Machine.ReachableBy.invariant ?_ ?_ h
  · rintro _ rfl
    exact lasting_new
  · intro v l v' hlasting _ hstep
    exact hlasting.step hstep

/-- THE LIFE OF A CLIENT: in every run, the thread object of `m_client` is never joinable where it
is assigned to or destroyed, and the process is terminated by the second `RemoteCall` and by nothing
else. The stub's destructor dereferences a null pointer exactly if no body that it was handed was a
reply without an error; and a client that has been destroyed has been called once, has waited for
the timer, keeps the last such reply, and has no thread left. -/
theorem ends_of_reachable (h : (machine parseFromArray clientId).Reachable v) :
    v.client.terminated = false ∧ (v.terminated = true ↔ 2 ≤ v.calls) ∧
      (v.caller = .null → v.bodies.filterMap (RPCClientStub.successOf parseFromArray) = []) ∧
      (v.caller = .gone → v.calls = 1 ∧ v.expired = true ∧ v.rpcThread = none ∧
        v.client.clientThread = none ∧ ∃ response, v.stub.cachedRequestPacket = some response ∧
          (v.bodies.filterMap (RPCClientStub.successOf parseFromArray)).getLast? =
            some response) := by
  have hlasting := lasting_of_reachable h
  have hjoinable := AsyncTcpClient.joinable_of_reachable hlasting.settled
  have hcached : v.stub.cachedRequestPacket =
      (v.bodies.filterMap (RPCClientStub.successOf parseFromArray)).getLast? := by
    rw [hlasting.received, RPCClientStub.cached_receive]
    exact Option.or_none
  refine ⟨hjoinable.alive, ?_, fun hnull => ?_, fun hgone => ?_⟩
  · cases hgoes : v.terminated with
    | true =>
      rw [(hlasting.terminated hgoes).1]
      exact iff_of_true rfl (Nat.le_refl 2)
    | false =>
      refine iff_of_false Bool.false_ne_true ?_
      cases hlasting.stage hgoes with
      | unused _ _ hcalls | called _ _ hcalls => omega
      | leaving _ _ hcalls => omega
  · rw [hlasting.null hnull] at hcached
    exact List.getLast?_eq_none_iff.mp hcached.symm
  · have hgoes : v.terminated = false := by
      cases hterminated : v.terminated with
      | false => rfl
      | true =>
        have hidle := (hlasting.terminated hterminated).2
        rw [hgone] at hidle
        cases hidle
    obtain ⟨hnone, hcalls⟩ := (hlasting.stage hgoes).of_leaving (by rw [hgone]; rfl)
    obtain ⟨response, hresponse⟩ := Option.isSome_iff_exists.mp (hlasting.kept (.inr hgone))
    have hcalled : v.calls ≠ 0 := by
      intro hcalls
      rw [hlasting.heard hcalls, hresponse] at hcached
      cases hcached
    obtain ⟨hone, hexpired⟩ := hcalls.resolve_left hcalled
    have huse := hlasting.uses
    rw [use, hnone, hgone] at huse
    exact ⟨hone, hexpired, hnone, huse.no_thread (.inr (.inr rfl)) hjoinable, response, hresponse,
      hcached.symm.trans hresponse⟩

/-- The reply of the concrete run. -/
def samplePacket : RPCPacket := { type := .taskResponse, error := .pktNoError }

/-- One call, one reply, and the destruction behind the timer. -/
def sampleLife : List RPCClientLabel :=
  [.remoteCall, .rpc true, .rpc true, .connect false, .client (.start false), .client .caller,
    .client .thread, .rpc true, .client (.read false), .deliver samplePacket.internalSerialize,
    .destroy, .expire, .rpc true, .rpc true, .client .caller, .client .caller, .client .caller,
    .client .thread, .client .caller, .rpc true, .caller, .caller, .client .caller, .caller,
    .caller, .caller]

theorem ends_of_reachable_one :
    ∃ v, (machine (RPCPacket.parseFromArray .wire) "client").run (new "client") sampleLife =
        some v ∧
      v.caller = .gone ∧ v.calls = 1 ∧ v.terminated = false ∧ v.rpcThread = none ∧
      v.client.clientThread = none ∧
      (v.bodies.filterMap (RPCClientStub.successOf (RPCPacket.parseFromArray .wire))).getLast? =
        v.stub.cachedRequestPacket := by
  have hruns : ((machine (RPCPacket.parseFromArray .wire) "client").run (new "client")
      sampleLife).any (fun v => v.caller = .gone ∧ v.terminated = false) = true := by
    decide +kernel
  obtain ⟨v, hrun, hv⟩ := (Option.any_eq_true _ _).mp hruns
  obtain ⟨hgone, hgoes⟩ := of_decide_eq_true hv
  have hreachable : (machine (RPCPacket.parseFromArray .wire) "client").Reachable v :=
    .run (.start rfl) hrun
  obtain ⟨-, -, -, hends⟩ := ends_of_reachable hreachable
  obtain ⟨hone, -, hnone, hthread, response, hresponse, hlast⟩ := hends hgone
  exact ⟨v, hrun, hgone, hone, hgoes, hnone, hthread, hlast.trans hresponse.symm⟩

end RPCClient

end DSFramework.DSRPC
