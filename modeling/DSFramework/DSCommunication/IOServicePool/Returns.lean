import DSFramework.DSCommunication.IOServicePool.Stop

/-!
# What `Stop` waits for

`Start`, the destructor of the server and `Stop` take a number of steps of their own that is known
beforehand, and so do the threads that they join. Where none of them can go on, `Start` waits for a
signal, and `Stop` for a context with a session that has something outstanding: the process does not
end before the last client has hung up.
-/

namespace DSFramework.DSCommunication

namespace AsyncTcpServer

variable {e : Endian} {v v' : AsyncTcpServer} {l : AsyncTcpServerLabel}

/-- The steps of the caller and of the thread of `Start`. -/
def own : AsyncTcpServerLabel → Bool
  | .caller | .thread => true
  | _ => false

/-- How many of them a call of `Start` or of the destructor brings. -/
def allowed : AsyncTcpServerLabel → Nat
  | .start => 6
  | .destroy => 3
  | _ => 0

/-- How many are left. -/
def stepsLeft (v : AsyncTcpServer) : Nat :=
  if v.terminated then 0
  else match v.caller with
    | .idle | .gone => 0
    | .wait => 6
    | .assign => 5
    | .join false => match v.serverThread with
      | some .created => 4
      | some .running => 3
      | some .ended | none => 2
    | .signals | .members => 1
    | .join true => 2
    | .stop => 3

/-- Every step of their own takes from what is left. -/
theorem Living.pay (h : v.Living e) (hstep : v.step e l = some v') :
    v'.stepsLeft + (own l).toNat ≤ v.stepsLeft + allowed l := by
  unfold AsyncTcpServer.step at hstep
  split at hstep
  case isTrue => cases hstep
  case isFalse halive =>
    rw [Bool.or_eq_true, not_or, Bool.not_eq_true] at halive
    obtain ⟨hgoes, -⟩ := halive
    cases l with
    | start =>
      dsimp only at hstep
      split at hstep
      case h_1 =>
        cases hstep
        simp only [stepsLeft, hgoes, own, allowed, Bool.toNat_false]
        exact Nat.le_add_left _ _
      case h_2 => cases hstep
    | destroy =>
      dsimp only [AsyncTcpServer.destroy] at hstep
      split at hstep
      case h_1 =>
        cases hstep
        refine Nat.le_trans ?_ (Nat.le_add_left _ _)
        simp only [stepsLeft, hgoes, own, allowed, Bool.toNat_false]
        cases v.running <;> exact Nat.le_of_ble_eq_true rfl
      case h_2 => cases hstep
    | caller =>
      dsimp only [AsyncTcpServer.proceed] at hstep
      split at hstep
      case h_1 hat =>
        cases hstep
        simp only [stepsLeft, hgoes, hat]
        decide
      case h_2 hat =>
        have hnone := h.no_thread (by rw [hat]; exact AsyncTcpServerCaller.noConfusion)
        rw [hnone, if_neg (by decide)] at hstep
        cases hstep
        simp only [stepsLeft, hgoes, hat]
        decide
      case h_3 destroying hat =>
        split at hstep
        case h_1 hended =>
          cases hstep
          cases destroying <;> simp only [stepsLeft, hgoes, hat, hended] <;> decide
        case h_2 hnone =>
          cases hstep
          cases destroying <;> simp only [stepsLeft, hgoes, hat, hnone] <;>
            exact Nat.le_of_ble_eq_true rfl
        case h_3 | h_4 => cases hstep
      case h_4 hat =>
        cases hstep
        simp only [stepsLeft, returned, hgoes, hat]
        decide
      case h_5 hat =>
        cases hstep
        simp only [stepsLeft, hgoes, hat]
        decide
      case h_6 hat =>
        have hnone := h.no_thread (by rw [hat]; exact AsyncTcpServerCaller.noConfusion)
        rw [hnone, if_neg (by decide)] at hstep
        cases hstep
        simp only [stepsLeft, hgoes, hat]
        decide
      case h_7 | h_8 => cases hstep
    | thread =>
      dsimp only [AsyncTcpServer.advance] at hstep
      split at hstep
      case h_1 hat =>
        cases hstep
        simp only [stepsLeft, hgoes, h.joining (by rw [hat]; rfl), hat]
        decide
      case h_2 hat =>
        split at hstep
        · cases hstep
          simp only [stepsLeft, hgoes, h.joining (by rw [hat]; rfl), hat]
          decide
        · cases hstep
      case h_3 | h_4 => cases hstep
    | signal cancelled =>
      rw [Option.ite_none_right_eq_some, Option.some.injEq] at hstep
      obtain ⟨-, rfl⟩ := hstep
      exact Nat.le_refl _
    | serve l =>
      rw [Option.ite_none_right_eq_some, Option.map_eq_some_iff] at hstep
      obtain ⟨-, s, -, rfl⟩ := hstep
      exact Nat.le_refl _

/-- Where the server waits for somebody else: nowhere, or `Start` for a signal. -/
inductive Waits (v : AsyncTcpServer) : Prop where
  | idle : v.caller = .idle → Waits v
  | gone : v.caller = .gone → Waits v
  | signal : v.caller = .join false → v.serverThread = some .running → v.signalled = false → Waits v

/-- These are the places where neither the caller nor the thread of `Start` can go on. -/
theorem Living.waits_iff (h : v.Living e) :
    v.Waits ↔ v.proceed = none ∧ v.advance = none := by
  constructor
  · intro hwaits
    cases hwaits with
    | idle hat =>
      have hnone := h.no_thread (by rw [hat]; exact AsyncTcpServerCaller.noConfusion)
      simp only [AsyncTcpServer.proceed, AsyncTcpServer.advance, hat, hnone, and_self]
    | gone hat =>
      have hnone := h.no_thread (by rw [hat]; exact AsyncTcpServerCaller.noConfusion)
      simp only [AsyncTcpServer.proceed, AsyncTcpServer.advance, hat, hnone, and_self]
    | signal hat hrunning hsignalled =>
      have hstopped := h.stopped.trans hsignalled
      simp only [AsyncTcpServer.proceed, AsyncTcpServer.advance, hat, hrunning, hstopped,
        Bool.false_and, Bool.false_eq_true, if_false, and_self]
  · rintro ⟨hproceed, hadvance⟩
    unfold AsyncTcpServer.proceed at hproceed
    split at hproceed
    case h_3 destroying hat =>
      split at hproceed
      case h_3 hthread =>
        simp only [AsyncTcpServer.advance, hthread, reduceCtorEq] at hadvance
      case h_4 hthread =>
        refine .signal (h.joining (by rw [hthread]; rfl)) hthread ?_
        cases hsignalled : v.signalled with
        | false => rfl
        | true =>
          simp only [AsyncTcpServer.advance, hthread, h.stopped.trans hsignalled,
            h.silent hsignalled, Option.isNone_none, Bool.and_self, if_true, reduceCtorEq]
            at hadvance
      case h_1 | h_2 => cases hproceed
    case h_7 hat => exact .idle hat
    case h_8 hat => exact .gone hat
    all_goals cases hproceed

end AsyncTcpServer

namespace ServerProcess

variable {e : Endian} {v v' : ServerProcess} {l : ProcessLabel} {poolSize : Nat}

/-- The steps of the threads of `Start` and `Stop`, and of those that they join. -/
def own : ProcessLabel → Bool
  | .server l => AsyncTcpServer.own l
  | .caller | .run _ => true
  | .stop => false

/-- How many of them a call brings. -/
def allowed (poolSize : Nat) : ProcessLabel → Nat
  | .server l => AsyncTcpServer.allowed l
  | .stop => 2 * poolSize + 2
  | .caller | .run _ => 0

/-- How many `Stop` has left. -/
def callerLeft (poolSize : Nat) : PoolCaller → Nat
  | .idle | .returned => 0
  | .reset i => (poolSize - i) + poolSize + 2
  | .join i => (poolSize - i) + 1

/-- How many are left in the pool. -/
def poolLeft (v : ServerProcess) (poolSize : Nat) : Nat :=
  if v.terminated then 0
  else v.threads.countP (· == .running) + callerLeft poolSize v.caller

/-- How many works have been reset when `Stop` has come so far. -/
def resetTo (poolSize : Nat) : PoolCaller → Nat
  | .idle => 0
  | .reset i => i
  | .join _ | .returned => poolSize

/-- A pool of so many contexts; the works that `Stop` has been at have been reset. -/
structure Sized (poolSize : Nat) (v : ServerProcess) : Prop where
  works : v.works.length = poolSize
  threads : v.threads.length = poolSize
  reset : ∀ (i : Nat) work, v.works[i]? = some work → i < resetTo poolSize v.caller → work = false

theorem sized_new (poolSize maxSessionCount others : Nat) :
    (new poolSize maxSessionCount others).Sized poolSize where
  works := List.length_replicate
  threads := List.length_replicate
  reset i _ _ hlt := absurd hlt (Nat.not_lt_zero i)

theorem Sized.step (h : v.Sized poolSize) (hstep : Moves e v l v') : v'.Sized poolSize := by
  cases hstep with
  | server => exact ⟨h.works, h.threads, h.reset⟩
  | stop => exact ⟨h.works, h.threads, fun i _ _ hlt => absurd hlt (Nat.not_lt_zero i)⟩
  | @reset i work hat =>
    refine ⟨(List.length_set ..).trans h.works, h.threads, fun j work' hj hlt => ?_⟩
    obtain ⟨rfl, rfl⟩ | ⟨hne, hbefore⟩ := Threads.at_set hj
    · rfl
    · refine h.reset j work' hbefore ?_
      rw [hat]
      exact Nat.lt_of_le_of_ne (Nat.le_of_lt_succ hlt) hne
  | @resets i hat hnone =>
    refine ⟨h.works, h.threads, fun j work hj _ => h.reset j work hj ?_⟩
    have hlt := (List.getElem?_eq_some_iff.mp hj).1
    have hle := List.getElem?_eq_none_iff.mp hnone
    rw [hat]
    exact Nat.lt_of_lt_of_le hlt hle
  | @join i hat =>
    refine ⟨h.works, (List.length_set ..).trans h.threads, fun j work hj hlt => ?_⟩
    exact h.reset j work hj (by rw [hat]; exact hlt)
  | again hat => exact ⟨h.works, h.threads, h.reset⟩
  | joins hat =>
    exact ⟨h.works, h.threads, fun j work hj hlt => h.reset j work hj (by rw [hat]; exact hlt)⟩
  | run => exact ⟨h.works, (List.length_set ..).trans h.threads, h.reset⟩

/-- What is left of the steps of their own. -/
def stepsLeft (v : ServerProcess) (poolSize : Nat) : Nat := v.server.stepsLeft + v.poolLeft poolSize

theorem Pooled.pay (h : v.Pooled e) (hsized : v.Sized poolSize) (hstep : v.step e l = some v') :
    v'.stepsLeft poolSize + (own l).toNat ≤ v.stepsLeft poolSize + allowed poolSize l := by
  obtain ⟨hgoes, hmoves⟩ := moves_of_step hstep
  cases hmoves with
  | @server l s hcarries hs =>
    have hpaid := (AsyncTcpServer.living_of_reachable h.server).pay hs
    simp only [stepsLeft, poolLeft, own, allowed] at hpaid ⊢
    omega
  | stop _ hat =>
    simp only [stepsLeft, poolLeft, own, allowed, hgoes, Bool.toNat_false, Bool.false_eq_true,
      if_false, callerLeft]
    omega
  | @reset i work hat hwork =>
    have hlt := (List.getElem?_eq_some_iff.mp hwork).1
    rw [hsized.works] at hlt
    simp only [stepsLeft, poolLeft, own, allowed, hgoes, hat, Bool.toNat_true, Bool.false_eq_true,
      if_false, callerLeft]
    omega
  | resets hat =>
    simp only [stepsLeft, poolLeft, own, allowed, hgoes, hat, Bool.toNat_true, Bool.false_eq_true,
      if_false, callerLeft]
    omega
  | @join i hat hended =>
    have hlt := (List.getElem?_eq_some_iff.mp hended).1
    rw [hsized.threads] at hlt
    have hcount : (v.threads.set i .joined).countP (· == .running) + 0 =
        v.threads.countP (· == .running) + 0 := Threads.countP_set _ hended _
    simp only [stepsLeft, poolLeft, own, allowed, hgoes, hat, Bool.toNat_true, Bool.false_eq_true,
      if_false, callerLeft]
    omega
  | again hat =>
    simp only [stepsLeft, poolLeft, own, allowed, hgoes, hat, Bool.toNat_true, Bool.false_eq_true,
      if_true, if_false, callerLeft]
    omega
  | joins hat =>
    simp only [stepsLeft, poolLeft, own, allowed, hgoes, hat, Bool.toNat_true, Bool.false_eq_true,
      if_false, callerLeft]
    omega
  | @run i hat =>
    have hcount : (v.threads.set i .ended).countP (· == .running) + 1 =
        v.threads.countP (· == .running) + 0 := Threads.countP_set _ hat _
    simp only [stepsLeft, poolLeft, own, allowed, hgoes, Bool.toNat_true, Bool.false_eq_true,
      if_false]
    omega

/-- Has nothing terminated the process? -/
def alive (v : ServerProcess) : Bool :=
  !(v.terminated || v.server.terminated || v.server.server.terminated)

/-- None of the steps of their own is possible. -/
def Stuck (e : Endian) (v : ServerProcess) : Prop := ∀ l, own l = true → v.step e l = none

/-- Where the process waits for somebody else: `Stop` for a session of the next context. -/
structure Waits (v : ServerProcess) : Prop where
  server : v.server.Waits
  pool : v.caller = .idle ∨ v.caller = .returned ∨ ∃ (i s : Nat) (c : Session),
    v.caller = .join i ∧ v.threads[i]? = some .running ∧
      v.server.server.created[s]? = some c ∧ v.contextOf s = i ∧ c.outstanding = true
  contexts : ∀ i : Nat, v.threads[i]? = some .running → v.works[i]? = some false →
    v.busy i = true

theorem stuck_iff (halive : v.alive = true) :
    v.Stuck e ↔ (v.server.proceed = none ∧ v.server.advance = none) ∧
      v.proceed = none ∧ ∀ i, v.endRun i = none := by
  have hdead : (v.terminated || v.server.terminated || v.server.server.terminated) = false :=
    (Bool.not_eq_true' _).mp halive
  have hinside : (v.server.terminated || v.server.server.terminated) = false := by
    rw [Bool.or_assoc, Bool.or_eq_false_iff] at hdead
    exact hdead.2
  have hcaller : v.step e .caller = v.proceed := by
    rw [ServerProcess.step, hdead]
    rfl
  have hrun : ∀ i, v.step e (.run i) = v.endRun i := fun i => by
    rw [ServerProcess.step, hdead]
    rfl
  have hserver : v.step e (.server .caller) = none ↔ v.server.proceed = none := by
    rw [ServerProcess.step, hdead]
    show (v.server.step e .caller).map _ = none ↔ _
    rw [Option.map_eq_none_iff, AsyncTcpServer.step, hinside]
    rfl
  have hthread : v.step e (.server .thread) = none ↔ v.server.advance = none := by
    rw [ServerProcess.step, hdead]
    show (v.server.step e .thread).map _ = none ↔ _
    rw [Option.map_eq_none_iff, AsyncTcpServer.step, hinside]
    rfl
  constructor
  · intro hstuck
    refine ⟨⟨?_, ?_⟩, ?_, fun i => ?_⟩
    · exact hserver.mp (hstuck _ rfl)
    · exact hthread.mp (hstuck _ rfl)
    · exact hcaller.symm.trans (hstuck _ rfl)
    · exact (hrun i).symm.trans (hstuck _ rfl)
  · rintro ⟨⟨hproceed, hadvance⟩, hnext, hends⟩ l hl
    cases l with
    | server l =>
      cases l with
      | caller => exact hserver.mpr hproceed
      | thread => exact hthread.mpr hadvance
      | start | destroy | signal | serve => cases hl
    | stop => cases hl
    | caller => exact hcaller.trans hnext
    | run i => exact (hrun i).trans (hends i)

/-- Nobody can go on exactly where the process waits. -/
theorem Pooled.waits_iff (h : v.Pooled e) (hsized : v.Sized poolSize) (halive : v.alive = true) :
    v.Stuck e ↔ v.Waits := by
  rw [stuck_iff halive, ← (AsyncTcpServer.living_of_reachable h.server).waits_iff]
  constructor
  · rintro ⟨hserver, hproceed, hrun⟩
    have hbusy : ∀ i : Nat, v.threads[i]? = some .running → v.works[i]? = some false →
        v.busy i = true := by
      intro i hat hreset
      cases hidle : v.busy i with
      | true => rfl
      | false =>
        have hends := hrun i
        simp only [ServerProcess.endRun, hat, hreset, hidle, and_self, if_true, reduceCtorEq]
          at hends
    refine ⟨hserver, ?_, hbusy⟩
    unfold ServerProcess.proceed at hproceed
    split at hproceed
    case h_1 => split at hproceed <;> cases hproceed
    case h_2 i hat =>
      split at hproceed
      case h_3 hrunning =>
        have hlt := (List.getElem?_eq_some_iff.mp hrunning).1
        rw [hsized.threads] at hlt
        have hwork := List.getElem?_eq_getElem (hsized.works.symm ▸ hlt)
        have hreset := hsized.reset i _ hwork (by rw [hat]; exact hlt)
        obtain ⟨s, c, hc, hs, hout⟩ := busy_iff.mp (hbusy i hrunning (hreset ▸ hwork))
        exact .inr (.inr ⟨i, s, c, hat, hrunning, hc, hs, hout⟩)
      all_goals cases hproceed
    case h_3 hat => exact .inl hat
    case h_4 hat => exact .inr (.inl hat)
  · rintro ⟨hserver, hpool, hcontexts⟩
    refine ⟨hserver, ?_, fun i => ?_⟩
    · obtain hat | hat | ⟨i, s, c, hat, hrunning, -⟩ := hpool
      · simp only [ServerProcess.proceed, hat]
      · simp only [ServerProcess.proceed, hat]
      · simp only [ServerProcess.proceed, hat, hrunning]
    · unfold ServerProcess.endRun
      split
      case h_1 hat =>
        refine if_neg ?_
        rintro ⟨hreset, hidle⟩
        rw [hcontexts i hat hreset] at hidle
        cases hidle
      case h_2 => rfl

/-- WHAT THE PROCESS WAITS FOR: in every run, with any number of contexts, sessions and other
threads, the threads of `Start` and `Stop` and those that they join take no more steps than the
contexts and the calls have brought. Where none of them can go on, and nowhere else, `Start` waits
for a signal or has returned, and `Stop` waits for a context with a session that has something
outstanding, or has returned. -/
theorem waits_of_run {maxSessionCount others : Nat} (hpool : 0 < poolSize) {ls : List ProcessLabel}
    (hrun : (machine e).run (new poolSize maxSessionCount others) ls = some v) :
    ls.countP own ≤ poolSize + (ls.map (allowed poolSize)).sum ∧
      (v.alive = true → (v.Stuck e ↔ v.Waits)) := by
  have hruns : (machine e).RunBy (fun _ _ => True) (new poolSize maxSessionCount others) ls v :=
    .of_run (fun _ _ => trivial) hrun
  obtain ⟨⟨hpooled, hsized⟩, hsum⟩ := hruns.account
    (I := fun v => v.Pooled e ∧ v.Sized poolSize)
    (fun _ _ _ h _ hstep => ⟨h.1.step hstep, h.2.step (moves_of_step hstep).2⟩)
    (fun _ _ _ h _ hstep => h.1.pay h.2 hstep)
    ⟨pooled_new hpool maxSessionCount others, sized_new poolSize maxSessionCount others⟩
  refine ⟨?_, hpooled.waits_iff hsized⟩
  have hstart : (new poolSize maxSessionCount others).stepsLeft poolSize = poolSize := by
    show 0 + ((List.replicate poolSize PoolThread.running).countP (· == .running) + 0) = poolSize
    rw [List.countP_replicate, Nat.zero_add, Nat.add_zero]
    rfl
  rw [hstart, Transition.Machine.sum_map_toNat] at hsum
  exact Nat.le_trans (Nat.le_add_left _ _) hsum

/-- A client connects and stays: `Stop` waits for its context, and the other one has returned. -/
def connectedProcess : List ProcessLabel :=
  [.server .start, .server .caller, .server .caller, .server .thread] ++
    (hangUp.take 9).map (fun l => .server (.serve l)) ++
    [.server (.signal false), .server .thread, .server .caller, .server .caller, .server .destroy,
      .server .caller, .stop, .caller, .caller, .caller, .run 1]

theorem waits_of_run_connected :
    ∃ v, (machine .little).run (new 2 4 0) connectedProcess = some v ∧ v.caller = .join 0 ∧
      v.Stuck .little := by
  have hruns : ((machine .little).run (new 2 4 0) connectedProcess).any (fun v =>
      v.alive && v.caller == .join 0 && v.threads == [.running, .ended] &&
        v.server.caller == .gone && v.busy 0) = true := by
    decide +kernel
  obtain ⟨v, hrun, hv⟩ := (Option.any_eq_true _ _).mp hruns
  simp only [Bool.and_eq_true, beq_iff_eq] at hv
  obtain ⟨⟨⟨⟨halive, hcaller⟩, hthreads⟩, hgone⟩, hbusy⟩ := hv
  obtain ⟨s, c, hc, hs, hout⟩ := busy_iff.mp hbusy
  have hfirst : v.threads[0]? = some .running := by
    rw [hthreads]
    rfl
  refine ⟨v, hrun, hcaller, ((waits_of_run (by decide) hrun).2 halive).mpr ?_⟩
  refine ⟨.gone hgone, .inr (.inr ⟨0, s, c, hcaller, hfirst, hc, hs, hout⟩), fun i hat _ => ?_⟩
  rw [hthreads] at hat
  obtain _ | _ | i := i
  · exact hbusy
  · cases hat
  · cases hat

end ServerProcess

end DSFramework.DSCommunication
