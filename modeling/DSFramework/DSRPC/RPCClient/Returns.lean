import DSFramework.DSRPC.RPCClient

/-!
# The destructor returns

Everything that a client and its threads do has a price, and only a read that completes, which the
server has to answer for, adds to it. Where nobody can go on there is no place left in which anybody
waits: the thread of `RemoteCall` waits for the timer, the destructor for that thread, and whoever
is in `Disconnect` for the thread of `m_client`, whose context is stopped by then.
-/

namespace DSFramework.DSRPC

open DSCommunication (AsyncTcpClient ClientThread ClientCaller ClientLabel)

/-! ## The steps that are left -/

/-- What the caller of `m_client` has left; the assignment starts a thread. -/
def clientCallerLeft : ClientCaller → Nat
  | .idle | .gone => 0
  | .start => 4
  | .assign => 3
  | .clear d => 4 + d.toNat
  | .close d => 3 + d.toNat
  | .stop d => 2 + d.toNat
  | .join d => 1 + d.toNat
  | .members => 1

/-- What the thread of `m_client` has left, when no read completes. -/
def clientThreadLeft : Option ClientThread → Nat
  | none | some .ended => 0
  | some .created | some (.handling _) => 2
  | some .running => 1

/-- What is left in `m_client`. -/
def clientLeft (c : AsyncTcpClient) : Nat :=
  clientCallerLeft c.caller + clientThreadLeft c.clientThread

def RPCClientThread.stepsLeft : RPCClientThread → Nat
  | .created => 15
  | .serialize => 14
  | .connect => 13
  | .send => 8
  | .run => 7
  | .disconnect => 6
  | .stop => 1
  | .ended => 0

def RPCClientCaller.stepsLeft : RPCClientCaller → Nat
  | .idle => 11
  | .join => 10
  | .client => 9
  | .destroying => 3
  | .stub => 2
  | .thread => 1
  | .gone | .null => 0

section Client

variable {c c' : AsyncTcpClient} {l : ClientLabel}

/-- The client's thread takes a step, or a read completes. -/
theorem clientLeft_thread (hstep : c.step .thread = some c') :
    clientLeft c' + 1 ≤ clientLeft c := by
  simp only [AsyncTcpClient.step, AsyncTcpClient.advance] at hstep
  split at hstep
  · cases hstep
  · split at hstep
    case h_1 hat =>
      cases hstep
      simp only [clientLeft, hat, clientThreadLeft]
      omega
    case h_2 hat =>
      split at hstep
      · cases hstep
        simp only [clientLeft, hat, clientThreadLeft]
        omega
      · cases hstep
    case h_3 hat =>
      cases hstep
      simp only [clientLeft, hat]
      split <;> simp only [clientThreadLeft] <;> omega
    case h_4 | h_5 => cases hstep

theorem clientLeft_read {error : Bool} (hstep : c.step (.read error) = some c') :
    clientLeft c' ≤ clientLeft c + 1 := by
  simp only [AsyncTcpClient.step, AsyncTcpClient.read] at hstep
  split at hstep
  · cases hstep
  · split at hstep
    case h_1 hat =>
      split at hstep
      · cases hstep
        simp only [clientLeft, hat, clientThreadLeft]
        omega
      · cases hstep
    case h_2 => cases hstep

theorem clientLeft_caller (h : Proceeds c c') : clientLeft c' + 1 ≤ clientLeft c := by
  cases h with
  | assign hat hnone hcreated hidle =>
    simp only [clientLeft, hat, hnone, hcreated, hidle, clientCallerLeft, clientThreadLeft]
    omega
  | other hgoes hcaller _ hthread =>
    have hthreadLeft : clientThreadLeft c'.clientThread ≤ clientThreadLeft c.clientThread := by
      obtain hsame | hnone := hthread
      · rw [hsame]
      · rw [hnone]
        exact Nat.zero_le _
    have hcallerLeft : clientCallerLeft c'.caller + 1 ≤ clientCallerLeft c.caller := by
      rw [hcaller]
      cases hat : c.caller with
      | assign | idle | gone =>
        rw [hat] at hgoes
        cases hgoes
      | join d => cases d <;> simp [nextCaller, clientCallerLeft]
      | start | members => simp [nextCaller, clientCallerLeft]
      | clear | close | stop =>
        simp only [nextCaller, clientCallerLeft]
        omega
    simp only [clientLeft]
    omega

/-- What the calls of `Connect` and `Disconnect` and the destructor add. -/
theorem clientLeft_connect {error : Bool} (hstep : c.step (.connect error) = some c') :
    clientLeft c' ≤ clientLeft c + 4 := by
  simp only [AsyncTcpClient.step, AsyncTcpClient.connect] at hstep
  split at hstep
  · cases hstep
  · split at hstep
    case h_1 hat =>
      split at hstep
      · cases hstep
        omega
      · split at hstep
        · cases hstep
        · cases hstep
          simp only [clientLeft, hat, clientCallerLeft]
          omega
    case h_2 => cases hstep

theorem clientLeft_disconnect (hstep : c.step .disconnect = some c') :
    clientLeft c' ≤ clientLeft c + 4 := by
  simp only [AsyncTcpClient.step] at hstep
  split at hstep
  · cases hstep
  · split at hstep
    case h_1 hat =>
      cases hstep
      simp only [clientLeft, hat, clientCallerLeft, Bool.toNat_false]
      omega
    case h_2 => cases hstep

theorem clientLeft_destroy (hstep : c.step .destroy = some c') :
    clientLeft c' ≤ clientLeft c + 5 := by
  simp only [AsyncTcpClient.step, AsyncTcpClient.destroy] at hstep
  split at hstep
  · cases hstep
  · split at hstep
    case h_1 hat =>
      cases hstep
      simp only [clientLeft, hat]
      split <;> simp only [clientCallerLeft, Bool.toNat_true] <;> omega
    case h_2 => cases hstep

/-- Whoever joins the thread has stopped its context. -/
def JoinsStopped (c : AsyncTcpClient) : Prop :=
  ∀ destroying, c.caller = .join destroying → c.stopped = true

theorem joinsStopped_of_proceed (hstep : c.proceed = some c') : JoinsStopped c' := by
  unfold AsyncTcpClient.proceed at hstep
  intro destroying hat
  split at hstep
  case h_1 hcaller =>
    split at hstep
    all_goals
      cases hstep
      first | cases hat | cases hcaller.symm.trans hat
  case h_2 | h_3 =>
    cases hstep
    cases hat
  case h_4 =>
    cases hstep
    rfl
  case h_5 d _ =>
    split at hstep
    case h_3 => cases hstep
    all_goals
      cases hstep
      cases d <;> cases hat
  case h_6 hcaller =>
    split at hstep
    all_goals
      cases hstep
      first | cases hat | cases hcaller.symm.trans hat
  case h_7 | h_8 | h_9 => cases hstep

theorem JoinsStopped.step (h : JoinsStopped c) (hstep : c.step l = some c') :
    JoinsStopped c' := by
  unfold AsyncTcpClient.step at hstep
  split at hstep
  · cases hstep
  · cases l with
    | connect error =>
      simp only [AsyncTcpClient.connect] at hstep
      split at hstep
      · split at hstep
        · cases hstep
          exact h
        · split at hstep
          · cases hstep
          · cases hstep
            exact fun _ hat => ClientCaller.noConfusion hat
      · cases hstep
    | disconnect =>
      simp only at hstep
      split at hstep
      · cases hstep
        exact fun _ hat => ClientCaller.noConfusion hat
      · cases hstep
    | destroy =>
      simp only [AsyncTcpClient.destroy] at hstep
      split at hstep
      · cases hstep
        intro _ hat
        dsimp only at hat
        split at hat <;> cases hat
      · cases hstep
    | start caught =>
      simp only [AsyncTcpClient.start] at hstep
      split at hstep
      · cases hstep
        exact fun _ hat => ClientCaller.noConfusion hat
      · cases hstep
    | caller => exact joinsStopped_of_proceed hstep
    | thread =>
      simp only [AsyncTcpClient.advance] at hstep
      split at hstep
      case h_1 =>
        cases hstep
        exact h
      case h_2 =>
        split at hstep
        · cases hstep
          exact fun _ _ => rfl
        · cases hstep
      case h_3 =>
        cases hstep
        split <;> exact h
      case h_4 | h_5 => cases hstep
    | read error =>
      simp only [AsyncTcpClient.read] at hstep
      split at hstep
      · split at hstep
        · cases hstep
          exact h
        · cases hstep
      · cases hstep

theorem joinsStopped_of_reachable {ok : AsyncTcpClient → ClientLabel → Prop}
    (h : AsyncTcpClient.machine.ReachableBy ok c) : JoinsStopped c := by
  refine h.invariant ?_ fun _ _ _ hc _ hstep => hc.step hstep
  rintro _ rfl
  exact fun _ hat => ClientCaller.noConfusion hat

/-- Whoever is in `m_client` can go on, or its thread can. -/
theorem client_progress (hgoes : c.terminated = false) (hjoins : JoinsStopped c)
    (hidle : c.caller ≠ .idle) (hgone : c.caller ≠ .gone) :
    (∃ c', c.step .caller = some c') ∨ (∃ c', c.step (.start false) = some c') ∨
      ∃ c', c.step .thread = some c' := by
  simp only [AsyncTcpClient.step, hgoes, Bool.false_eq_true, if_false, AsyncTcpClient.proceed,
    AsyncTcpClient.start, AsyncTcpClient.advance]
  cases hat : c.caller with
  | idle => exact absurd hat hidle
  | gone => exact absurd hat hgone
  | assign | clear | close | stop | members => exact .inl ⟨_, rfl⟩
  | start => exact .inr (.inl ⟨_, rfl⟩)
  | join destroying =>
    cases hthread : c.clientThread with
    | none => exact .inl ⟨_, rfl⟩
    | some place =>
      cases place with
      | ended => exact .inl ⟨_, rfl⟩
      | created | handling => exact .inr (.inr ⟨_, rfl⟩)
      | running =>
        have hstopped := hjoins _ hat
        exact .inr (.inr ⟨_, by rw [hstopped]; rfl⟩)

end Client

namespace RPCClient

variable {parseFromArray : List UInt8 → Option RPCPacket} {clientId : String}
  {v v' : RPCClient} {l : RPCClientLabel}

/-- Does a read complete? -/
def reads : RPCClientLabel → Bool
  | .client (.read _) => true
  | _ => false

/-- What the thread of `RemoteCall` has left. -/
def rpcLeft (v : RPCClient) : Nat := (v.rpcThread.map RPCClientThread.stepsLeft).getD 0

/-- What is left, when no read completes. -/
def stepsLeft (v : RPCClient) : Nat :=
  16 * (2 - v.calls) + v.caller.stepsLeft + v.rpcLeft + clientLeft v.client + (!v.expired).toNat

theorem pay_advance {serialized : Bool} (hstep : v.advance serialized = some v') :
    v'.stepsLeft + 1 ≤ v.stepsLeft := by
  unfold RPCClient.advance at hstep
  split at hstep
  case h_1 hat =>
    cases hstep
    simp only [stepsLeft, rpcLeft, hat, Option.map_some, Option.getD_some,
      RPCClientThread.stepsLeft]
    omega
  case h_2 hat =>
    cases hstep
    simp only [stepsLeft, rpcLeft, hat, Option.map_some, Option.getD_some]
    split <;> simp only [RPCClientThread.stepsLeft] <;> omega
  case h_3 hat | h_4 hat | h_6 hat =>
    split at hstep
    case isTrue =>
      cases hstep
      simp only [stepsLeft, rpcLeft, hat, Option.map_some, Option.getD_some,
        RPCClientThread.stepsLeft]
      omega
    case isFalse => cases hstep
  case h_5 hat =>
    obtain ⟨c, hc, rfl⟩ := Option.map_eq_some_iff.mp hstep
    have hleft := clientLeft_disconnect hc
    simp only [stepsLeft, rpcLeft, hat, Option.map_some, Option.getD_some,
      RPCClientThread.stepsLeft]
    omega
  case h_7 | h_8 | h_9 => cases hstep

theorem Lasting.pay_proceed (h' : v'.Lasting parseFromArray clientId)
    (hstep : v.proceed = some v') : v'.stepsLeft + 1 ≤ v.stepsLeft := by
  unfold RPCClient.proceed at hstep
  split at hstep
  case h_1 hat =>
    split at hstep
    case h_1 hended =>
      cases hstep
      simp only [stepsLeft, rpcLeft, hat, hended, Option.map_none, Option.getD_none,
        RPCClientCaller.stepsLeft]
      omega
    case h_2 => cases hstep
  case h_2 hat =>
    obtain ⟨c, hc, rfl⟩ := Option.map_eq_some_iff.mp hstep
    have hleft := clientLeft_destroy hc
    simp only [stepsLeft, rpcLeft, hat, RPCClientCaller.stepsLeft]
    omega
  case h_3 hat =>
    split at hstep
    case isTrue =>
      cases hstep
      simp only [stepsLeft, rpcLeft, hat, RPCClientCaller.stepsLeft]
      omega
    case isFalse => cases hstep
  case h_4 hat =>
    cases hstep
    simp only [stepsLeft, rpcLeft, hat]
    split <;> simp only [RPCClientCaller.stepsLeft] <;> omega
  case h_5 hat =>
    split at hstep
    case isTrue =>
      cases hstep
      cases hat.symm.trans (h'.terminated rfl).2
    case isFalse =>
      cases hstep
      simp only [stepsLeft, rpcLeft, hat, RPCClientCaller.stepsLeft]
      omega
  case h_6 | h_7 | h_8 => cases hstep

theorem Lasting.pay_remoteCall (h : v.Lasting parseFromArray clientId)
    (hgoes : v.terminated = false) (hidle : v.caller = .idle) :
    v.remoteCall.stepsLeft + 1 ≤ v.stepsLeft := by
  unfold RPCClient.remoteCall
  cases h.stage hgoes with
  | unused _ hnone hcalls =>
    simp only [stepsLeft, rpcLeft, hnone, hcalls, Option.isSome_none, Bool.false_eq_true, if_false,
      Option.map_none, Option.map_some, Option.getD_some, Option.getD_none,
      RPCClientThread.stepsLeft]
    omega
  | called _ hsome hcalls =>
    simp only [stepsLeft, rpcLeft, hsome, hcalls, Option.isSome_some, if_true, Option.map_some,
      Option.getD_some]
    omega
  | leaving hleaving =>
    rw [hidle] at hleaving
    cases hleaving

/-- Every step pays, and a read that completes adds one. -/
theorem Lasting.pay (h : v.Lasting parseFromArray clientId)
    (h' : v'.Lasting parseFromArray clientId) (hstep : v.step parseFromArray l = some v') :
    v'.stepsLeft + (!reads l).toNat ≤ v.stepsLeft + (reads l).toNat := by
  unfold RPCClient.step at hstep
  split at hstep
  case isTrue => cases hstep
  case isFalse hends =>
    obtain ⟨hgoes, -⟩ := Bool.or_eq_false_iff.mp (Bool.not_eq_true _ ▸ hends)
    cases l with
    | remoteCall =>
      simp only at hstep
      split at hstep
      · next hidle =>
        cases hstep
        exact h.pay_remoteCall hgoes hidle
      · cases hstep
    | destroy =>
      simp only at hstep
      split at hstep
      · next hidle =>
        cases hstep
        simp only [stepsLeft, rpcLeft, hidle, reads]
        split <;> simp only [RPCClientCaller.stepsLeft, Bool.not_false, Bool.toNat_true] <;> omega
      · cases hstep
    | caller => exact h'.pay_proceed hstep
    | rpc serialized => exact pay_advance hstep
    | connect error =>
      simp only at hstep
      split at hstep
      · next hat =>
        obtain ⟨c, hc, rfl⟩ := Option.map_eq_some_iff.mp hstep
        have hleft := clientLeft_connect hc
        simp only [stepsLeft, rpcLeft, hat, Option.map_some, Option.getD_some,
          RPCClientThread.stepsLeft, reads, Bool.not_false, Bool.toNat_true]
        omega
      · cases hstep
    | expire =>
      simp only at hstep
      split at hstep
      case h_1 | h_2 => cases hstep
      case h_3 =>
        split at hstep
        · cases hstep
        · next hwaits =>
          cases hstep
          simp only [stepsLeft, rpcLeft, hwaits, reads, Bool.not_true, Bool.not_false,
            Bool.toNat_true, Bool.toNat_false]
          omega
    | client l =>
      cases l with
      | start caught =>
        obtain ⟨c, hc, rfl⟩ := Option.map_eq_some_iff.mp hstep
        have hproceeds := proceeds_of_step hc (.inr ⟨caught, rfl⟩) h'.alive
        have hleft := clientLeft_caller hproceeds
        simp only [stepsLeft, rpcLeft, reads, Bool.not_false, Bool.toNat_true]
        omega
      | caller =>
        obtain ⟨c, hc, rfl⟩ := Option.map_eq_some_iff.mp hstep
        have hproceeds := proceeds_of_step hc (.inl rfl) h'.alive
        have hleft := clientLeft_caller hproceeds
        simp only [stepsLeft, rpcLeft, reads, Bool.not_false, Bool.toNat_true]
        omega
      | thread =>
        obtain ⟨c, hc, rfl⟩ := Option.map_eq_some_iff.mp hstep
        have hleft := clientLeft_thread hc
        simp only [stepsLeft, rpcLeft, reads, Bool.not_false, Bool.toNat_true]
        omega
      | read error =>
        obtain ⟨c, hc, rfl⟩ := Option.map_eq_some_iff.mp hstep
        have hleft := clientLeft_read hc
        simp only [stepsLeft, rpcLeft, reads, Bool.not_true, Bool.toNat_true, Bool.toNat_false]
        omega
      | connect | disconnect | destroy => cases hstep
    | deliver body =>
      simp only at hstep
      split at hstep
      · obtain ⟨c, hc, rfl⟩ := Option.map_eq_some_iff.mp hstep
        have hleft := clientLeft_thread hc
        simp only [stepsLeft, rpcLeft, reads, Bool.not_false, Bool.toNat_true]
        omega
      · cases hstep

/-- Nobody can go on, but for a read that may complete. -/
def Stuck (parseFromArray : List UInt8 → Option RPCPacket) (v : RPCClient) : Prop :=
  ∀ l, reads l = false → v.step parseFromArray l = none

/-- Nobody is stuck in `m_client`. -/
theorem Lasting.client_idle (h : v.Lasting parseFromArray clientId) (hgoes : v.terminated = false)
    (hstuck : v.Stuck parseFromArray) : v.client.caller = .idle ∨ v.client.caller = .gone := by
  have hjoins := joinsStopped_of_reachable h.settled
  by_contra hother
  obtain ⟨hidle, hgone⟩ := not_or.mp hother
  obtain ⟨c, hc⟩ | ⟨c, hc⟩ | ⟨c, hc⟩ := client_progress h.alive hjoins hidle hgone
  · have hnone := hstuck (.client .caller) rfl
    simp only [RPCClient.step, hgoes, h.alive, Bool.or_self, Bool.false_eq_true, if_false, hc,
      Option.map_some, reduceCtorEq] at hnone
  · have hnone := hstuck (.client (.start false)) rfl
    simp only [RPCClient.step, hgoes, h.alive, Bool.or_self, Bool.false_eq_true, if_false, hc,
      Option.map_some, reduceCtorEq] at hnone
  · have hnone := hstuck (.client .thread) rfl
    simp only [RPCClient.step, hgoes, h.alive, Bool.or_self, Bool.false_eq_true, if_false, hc,
      Option.map_some, reduceCtorEq] at hnone

/-- The thread of `RemoteCall` ends. -/
theorem Lasting.thread_ended (h : v.Lasting parseFromArray clientId) (hgoes : v.terminated = false)
    (hstuck : v.Stuck parseFromArray) {place : RPCClientThread} (hat : v.rpcThread = some place) :
    place = .ended := by
  have halive := h.alive
  have huse := h.uses
  rw [use, hat] at huse
  have hidle := h.client_idle hgoes hstuck
  have hrpc := hstuck (.rpc true) rfl
  simp only [RPCClient.step, hgoes, halive, Bool.or_self, Bool.false_eq_true, if_false,
    RPCClient.advance, hat] at hrpc
  cases place with
  | created | serialize => cases hrpc
  | connect =>
    have hconnect := hstuck (.connect true) rfl
    simp only [RPCClient.step, hgoes, halive, Bool.or_self, Bool.false_eq_true, if_false, hat,
      if_true, AsyncTcpClient.step, AsyncTcpClient.connect, huse.idle, Option.map_some,
      reduceCtorEq] at hconnect
  | send =>
    obtain hidle | hgone := hidle
    · simp only [hidle, if_true, reduceCtorEq] at hrpc
    · have hallows := huse.allows
      rw [hgone] at hallows
      cases hallows
  | run =>
    cases hexpired : v.expired with
    | true =>
      rw [hexpired] at hrpc
      cases hrpc
    | false =>
      have hexpire := hstuck .expire rfl
      simp only [RPCClient.step, hgoes, halive, Bool.or_self, Bool.false_eq_true, if_false, hat,
        hexpired, reduceCtorEq] at hexpire
  | disconnect =>
    obtain hidle | hgone := hidle
    · simp only [AsyncTcpClient.step, halive, Bool.false_eq_true, if_false, hidle, Option.map_some,
        reduceCtorEq] at hrpc
    · have hallows := huse.allows
      rw [hgone] at hallows
      cases hallows
  | stop =>
    obtain hidle | hgone := hidle
    · simp only [hidle, if_true, reduceCtorEq] at hrpc
    · have hallows := huse.allows
      rw [hgone] at hallows
      cases hallows
  | ended => rfl

/-- WITHOUT A DEADLOCK: whoever waits waits for somebody who can go on. -/
theorem Lasting.progress (h : v.Lasting parseFromArray clientId) (hgoes : v.terminated = false)
    (hstuck : v.Stuck parseFromArray) : v.caller = .gone ∨ v.caller = .null := by
  have halive := h.alive
  have huse := h.uses
  have hcaller := hstuck .caller rfl
  simp only [RPCClient.step, hgoes, halive, Bool.or_self, Bool.false_eq_true, if_false,
    RPCClient.proceed] at hcaller
  cases hat : v.caller with
  | idle =>
    have hdestroy := hstuck .destroy rfl
    simp only [RPCClient.step, hgoes, halive, Bool.or_self, Bool.false_eq_true, if_false, hat,
      if_true, reduceCtorEq] at hdestroy
  | join =>
    cases h.stage hgoes with
    | unused hidle => cases hat.symm.trans hidle
    | called _ hsome =>
      obtain rfl := h.thread_ended hgoes hstuck hsome
      rw [hat, hsome] at hcaller
      cases hcaller
    | leaving hleaving =>
      rw [hat] at hleaving
      cases hleaving
  | client =>
    obtain ⟨hnone, -⟩ := (h.stage hgoes).of_leaving (by rw [hat]; rfl)
    rw [use, hnone, hat] at huse
    simp only [hat, AsyncTcpClient.step, halive, Bool.false_eq_true, if_false,
      AsyncTcpClient.destroy, huse.idle, Option.map_some, reduceCtorEq] at hcaller
  | destroying =>
    obtain ⟨hnone, -⟩ := (h.stage hgoes).of_leaving (by rw [hat]; rfl)
    rw [use, hnone, hat] at huse
    obtain hidle | hgone := h.client_idle hgoes hstuck
    · have hallows := huse.allows
      rw [hidle] at hallows
      cases hallows
    · simp only [hat, hgone, if_true, reduceCtorEq] at hcaller
  | stub | thread =>
    rw [hat] at hcaller
    cases hcaller
  | gone => exact .inl rfl
  | null => exact .inr rfl

/-- Behind the destructor there is nothing left to do. -/
theorem Lasting.stuck (h : v.Lasting parseFromArray clientId) (hgoes : v.terminated = false)
    (hends : v.caller = .gone ∨ v.caller = .null) : v.Stuck parseFromArray := by
  have hleaving : v.caller.leaving = true := by obtain hat | hat := hends <;> rw [hat] <;> rfl
  have hcaller : v.caller ≠ .idle := by
    intro hidle
    rw [hidle] at hleaving
    cases hleaving
  obtain ⟨hnone, -⟩ := (h.stage hgoes).of_leaving hleaving
  have huse := h.uses
  have hdestroyed : v.use = .destroyed := by
    rw [use, hnone]
    obtain hat | hat := hends <;> rw [hat] <;> rfl
  rw [hdestroyed] at huse
  have hthread := huse.no_thread (.inr (.inr rfl)) (AsyncTcpClient.joinable_of_reachable h.settled)
  have hgone := huse.gone
  intro l hl
  simp only [RPCClient.step, hgoes, h.alive, Bool.or_self, Bool.false_eq_true, if_false]
  cases l with
  | remoteCall | destroy => exact if_neg hcaller
  | caller => obtain hat | hat := hends <;> simp only [RPCClient.proceed, hat]
  | rpc serialized => simp only [RPCClient.advance, hnone]
  | connect error => simp only [hnone, reduceCtorEq, if_false]
  | expire => simp only [hnone]
  | client l =>
    cases l with
    | read => cases hl
    | start | caller | thread =>
      simp only [AsyncTcpClient.step, h.alive, Bool.false_eq_true, if_false, AsyncTcpClient.start,
        AsyncTcpClient.proceed, AsyncTcpClient.advance, hgone, hthread, Option.map_none]
    | connect | disconnect | destroy => rfl
  | deliver body => simp only [hthread, reduceCtorEq, if_false]

/-- THE DESTRUCTOR RETURNS: in every run, with so many reads that complete there are at most 44 more
steps of anybody; and nobody can go on exactly where the client is gone, or a second `RemoteCall` has
terminated the process, or the stub has dereferenced a null pointer. -/
theorem returns_of_run {ls : List RPCClientLabel}
    (hrun : (machine parseFromArray clientId).run (new clientId) ls = some v) :
    ls.countP (fun l => !reads l) ≤ 44 + ls.countP reads ∧
      (v.Stuck parseFromArray ↔ v.terminated = true ∨ v.caller = .gone ∨ v.caller = .null) := by
  have hruns : (machine parseFromArray clientId).RunBy (fun _ _ => True) (new clientId) ls v :=
    .of_run (fun _ _ => trivial) hrun
  obtain ⟨hlasting, hsum⟩ := hruns.account
    (I := Lasting parseFromArray clientId)
    (fun _ _ _ h _ hstep => h.step hstep)
    (fun _ _ _ h _ hstep => h.pay (h.step hstep) hstep) lasting_new
  refine ⟨?_, ?_⟩
  · have hstart : (new clientId).stepsLeft = 44 := rfl
    rw [hstart, Transition.Machine.sum_map_toNat, Transition.Machine.sum_map_toNat] at hsum
    omega
  · cases hgoes : v.terminated with
    | true =>
      refine iff_of_true (fun l _ => ?_) (.inl rfl)
      simp only [RPCClient.step, hgoes, Bool.true_or, if_true]
    | false =>
      exact ⟨fun hstuck => .inr (hlasting.progress hgoes hstuck), fun hends =>
        hlasting.stuck hgoes (hends.resolve_left Bool.false_ne_true)⟩

/-- A call that is not even sent: the destructor joins the thread and disconnects all the same, and
then the stub has nothing to log. -/
def unansweredLife : List RPCClientLabel :=
  [.remoteCall, .destroy, .rpc true, .rpc false, .expire, .rpc true, .rpc true, .client .caller,
    .client .caller, .client .caller, .client .caller, .rpc true, .caller, .caller,
    .client .caller, .caller, .caller]

theorem returns_of_run_unanswered :
    ∃ v, (machine (RPCPacket.parseFromArray .wire) "client").run (new "client") unansweredLife =
        some v ∧
      v.caller = .null ∧ v.Stuck (RPCPacket.parseFromArray .wire) := by
  have hruns : ((machine (RPCPacket.parseFromArray .wire) "client").run (new "client")
      unansweredLife).any (fun v => v.caller = .null) = true := by
    decide
  obtain ⟨v, hrun, hv⟩ := (Option.any_eq_true _ _).mp hruns
  have hnull : v.caller = .null := of_decide_eq_true hv
  exact ⟨v, hrun, hnull, (returns_of_run hrun).2.mpr (.inr (.inr hnull))⟩

end RPCClient

end DSFramework.DSRPC
