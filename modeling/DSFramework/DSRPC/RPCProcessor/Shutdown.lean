import DSFramework.DSCommunication.ThreadPool.Shutdown
import DSFramework.DSRPC.RPCProcessor.Answers

/-!
# Committed requests at shutdown

`RPCProcessor::Execute` commits its task to the pool that everything in the process shares. A
task that the pool accepted and did not run is a request that nobody answers.
-/

namespace DSFramework.DSRPC

open DSCommunication (PoolTask ThreadPool)
open DSCommunication.ThreadPool (machine)

namespace RPCProcessor

variable {τ : Type} {p : ThreadPool τ}

/-- The events that a task of the pool has raised, where it is the one that `Execute` committed for
a request: none before it has been run, and then those of the run. `requestOf` tells which tasks
are of this kind, and `procedures` is the table it was run with. -/
def raisedBy (F : Functions) (procedures : Procedures) (requestOf : τ → Option (String × RPCPacket))
    (r : PoolTask τ) : List RPCEvent :=
  match requestOf r.work with
  | some (serviceName, packet) =>
    if r.ended then ((task F serviceName).ends ⟨procedures, packet, [], []⟩).2.events else []
  | none => []

/-- The task of a request that has been run has raised the event that answers it, unless its
execute function threw no `std::exception`. -/
theorem raisedBy_ended {F : Functions} {procedures : Procedures}
    {requestOf : τ → Option (String × RPCPacket)} {r : PoolTask τ} (hended : r.ended = true)
    {serviceName : String} {packet : RPCPacket}
    (hrequest : requestOf r.work = some (serviceName, packet))
    (hcaught : ∀ f, (subscript serviceName procedures).2 = some f →
      (F.execute f packet).2 ≠ .escaped) :
    raisedBy F procedures requestOf r = [.onCompleted] ∨
      raisedBy F procedures requestOf r = [.onServiceError] := by
  simp only [raisedBy, hrequest, hended, if_true]
  obtain ⟨⟨event, hevent, hraised⟩, -⟩ | ⟨-, f, hfound, hescaped⟩ :=
    task_events F serviceName ⟨procedures, packet, [], []⟩
  · rw [hraised]
    obtain rfl | rfl := hevent
    · exact .inl rfl
    · exact .inr rfl
  · exact absurd hescaped (hcaught f hfound)

/-- In every run in which the last worker to leave leaves no task in the queue and no `Commit`
between its test of `m_stop` and its push: when `Stop` has returned, every task with a valid future
has been run, once, and where it is that of a request it has raised `OnCompleted` or
`OnServiceError`, unless the execute function threw no `std::exception`. No task is accepted any
more: a `Commit` that finds the pool stopped returns an invalid future. -/
theorem accepted_of_returned
    (h : (machine τ).ReachableBy (fun p l => p.drained l = true) p)
    (hstopping : p.stopping = .returned) :
    (∀ task ∈ p.futures, ∃ r, p.records[task]? = some r ∧ r.ended = true ∧
      r.invocations.length = 1 ∧
      ∀ F procedures requestOf serviceName packet,
        requestOf r.work = some (serviceName, packet) →
        (∀ f, (subscript serviceName procedures).2 = some f →
          (F.execute f packet).2 ≠ .escaped) →
        raisedBy F procedures requestOf r = [.onCompleted] ∨
          raisedBy F procedures requestOf r = [.onServiceError]) ∧
    (∀ p', (machine τ).Steps (fun _ _ => True) p p' → p'.records = p.records) ∧
    ∀ (p p' : ThreadPool τ) (t : Nat) (work : τ), p.stop = true →
      p.committers[t]? = some (.testing work) → p.step (.commit t) = some p' →
      p'.refused = p.refused ++ [work] ∧ p'.records = p.records ∧ p'.futures = p.futures := by
  refine ⟨fun task hmem => ?_, fun p' => ThreadPool.records_of_returned h hstopping,
    fun p p' t work hstop hat => ThreadPool.refused_of_stop hstop hat⟩
  obtain ⟨r, hr, hended, honce⟩ := ThreadPool.ended_of_returned h hstopping hmem
  exact ⟨r, hr, hended, honce, fun F procedures requestOf serviceName packet hrequest =>
    raisedBy_ended hended hrequest⟩

/-- A task is committed and run before the pool is stopped. -/
theorem accepted_of_returned_one :
    ∃ p : ThreadPool Nat, (machine Nat).run (.new 2 1)
        ([.call 0 7, .commit 0, .commit 0, .notifyOne 0 none] ++ List.replicate 8 (.work 0) ++
          [.stop, .work 0, .work 1, .stop, .stop, .stop, .stop]) = some p ∧
      p.futures = [0] ∧ ∀ task ∈ p.futures, ∃ r, p.records[task]? = some r ∧ r.ended = true := by
  have hrun : (machine Nat).run (.new 2 1)
      ([.call 0 7, .commit 0, .commit 0, .notifyOne 0 none] ++ List.replicate 8 (.work 0) ++
        [.stop, .work 0, .work 1, .stop, .stop, .stop, .stop]) = some _ := rfl
  have hreachable : (machine Nat).ReachableBy (fun p l => p.drained l = true) _ :=
    .run (fun _ _ hok => hok) (.start ⟨2, 1, rfl⟩) (by decide) hrun
  have haccepted := accepted_of_returned hreachable rfl
  refine ⟨_, hrun, rfl, fun task hmem => ?_⟩
  exact (haccepted.1 task hmem).imp fun r hr => ⟨hr.1, hr.2.1⟩

/-- A task is committed, and `Stop` is called before a worker has looked: the workers find `m_stop`
set at the head of their loops and leave, and the task stays in the queue. -/
theorem dropped_of_stop_before_test :
    ¬ ∀ p : ThreadPool Nat, (machine Nat).Reachable p → p.stopping = .returned →
      ∀ task ∈ p.futures, ∃ r, p.records[task]? = some r ∧ r.ended = true := by
  intro h
  have hrun : (machine Nat).run (.new 2 1)
      [.call 0 7, .commit 0, .commit 0, .notifyOne 0 none, .stop, .work 0, .work 1, .stop, .stop,
        .stop, .stop] = some _ := rfl
  obtain ⟨r, hr, hended⟩ := h _ (.run (.start ⟨2, 1, rfl⟩) hrun) rfl 0 (by decide)
  cases hr
  cases hended

end RPCProcessor

end DSFramework.DSRPC
