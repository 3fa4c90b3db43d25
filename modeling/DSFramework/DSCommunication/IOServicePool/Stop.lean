import DSFramework.DSCommunication.AsyncTcpServer
import DSFramework.DSCommunication.IOServicePool
import DSFramework.DSCommunication.Session.Destruction
import DSFramework.DSCommunication.SessionManager

/-!
# The end of the pool

`Stop` gives up the works and joins the threads. Without its work a context returns from `run` as
soon as none of its sessions has a read, a write or a handler outstanding, and a session that nobody
closes always has a read. So `Stop` comes back only when every session has been closed; nothing in
the program closes one at the end of a server.

The pool is a singleton, whose destructor calls `Stop` at the end of the process, behind the
destruction of the server in `TestRPCServer`. A `Stop` before that leaves the destructor to join
threads that have been joined.
-/

namespace DSFramework.DSCommunication

namespace Session

/-- Does the session keep its context at work? -/
def outstanding (c : Session) : Bool :=
  c.read.isSome || !c.writer.writes.isEmpty || !c.io.isEmpty

/-- Its reads are over, and its thread is in none of its handlers. -/
structure Rests (c : Session) : Prop where
  read : c.read = none
  io : c.io = []

theorem rests_of_outstanding {c : Session} (h : c.outstanding = false) : c.Rests := by
  simp only [outstanding, Bool.or_eq_false_iff, Bool.not_eq_false', List.isEmpty_iff,
    Option.isSome_eq_false_iff, Option.isNone_iff_eq_none] at h
  exact ⟨h.1.1, h.2⟩

end Session

namespace Server

variable {e : Endian} {v v' : Server} {l : ServerLabel} {s : Nat} {c c' : Session}

/-- The session whose context runs this. -/
def handles : ServerLabel → Option Nat
  | .advance (.io s) _ | .completeRead s _ | .completeWrite s _ _ => some s
  | _ => none

theorem placed_of_reachable (h : (machine e).Reachable v) : v.Placed :=
  h.invariant (fun _ ⟨maxSessionCount, others, hv⟩ => hv ▸ placed_new maxSessionCount others)
    fun _ _ _ hplaced _ hstep => hplaced.step (moves_of_step hstep)

/-- Nobody but the acceptor and the session's own thread gives a resting session anything to do. -/
theorem Becomes.rests (h : Becomes e v l s c c') (hplaced : v.Placed) (hnone : v.handling = none)
    (hl : handles l ≠ some s) (hrests : c.Rests) : c'.Rests := by
  cases h with
  | same => exact hrests
  | accept | startAccept => exact ⟨hrests.read, hrests.io⟩
  | @advance thread throws op rest ops heq hprogram =>
    cases thread with
    | acceptor =>
      rw [program, hnone] at hprogram
      cases hprogram
    | io r =>
      obtain ⟨c₀, -, hpair⟩ := Option.map_eq_some_iff.mp hprogram
      obtain rfl : r = s := congrArg Prod.fst hpair
      exact absurd (congrArg handles heq) hl
    | other t =>
      have hmember : op ∈ Session.close :=
        (hplaced.calls t s _ hprogram).subset (List.mem_cons_self ..)
      have hread : (c.exec op).read = c.read := by
        simp only [Session.close, List.mem_cons, List.not_mem_nil, or_false] at hmember
        obtain rfl | rfl | rfl | rfl | rfl := hmember <;> rfl
      exact ⟨hread.trans hrests.read, (io_exec c op).trans hrests.io⟩
  | escape _ _ hremaining =>
    obtain ⟨-, hread, hio⟩ := Session.exec_of_mayThrow (mayThrow_of_remaining hremaining)
    exact ⟨hread.trans hrests.read, hio.trans hrests.io⟩
  | change hchange =>
    cases hchange with
    | readDue hread | completeRead hread =>
      rw [hrests.read] at hread
      cases hread
    | completeWrite => exact absurd rfl hl
    | writeDue | send | acquire | release => exact ⟨hrests.read, hrests.io⟩

/-- Only the completion of an accept accepts a session. -/
theorem Becomes.accepted (h : Becomes e v l s c c') (haccepted : c'.accepted = true) :
    c.accepted = true ∨ l = .accept true ∧ v.accepting = s := by
  cases h with
  | same | startAccept => exact .inl haccepted
  | @accept success hl _ hat => exact .inr ⟨hl.trans (congrArg _ haccepted), hat⟩
  | @advance thread throws op =>
    refine .inl (Eq.trans ?_ haccepted)
    cases thread <;> cases op <;> rfl
  | @escape thread throws op => exact .inl (Eq.trans (by cases op <;> rfl) haccepted)
  | change hchange => cases hchange <;> exact .inl haccepted

/-- What a step of its own record does not do is end the chain of reads. -/
theorem Changes.reading (h : Changes e c l s c') (hreading : c.reading = true) :
    c'.reading = true := by
  cases h with
  | readDue => rfl
  | writeDue | send | acquire | release => exact hreading
  | @completeRead s outcome read =>
    exact (Bool.or_eq_true ..).mpr (.inr (Session.chained_handleRead read.kind outcome))
  | @completeWrite s position success writer hio =>
    cases success with
    | true =>
      rw [Session.reading, hio] at hreading
      exact hreading
    | false => exact Bool.or_true _

/-- THE INVARIANT OF THE READS: an accepted session that nobody has closed is being read, unless its
`Start` is still to come. -/
def Watched (v : Server) : Prop :=
  ∀ (s : Nat) c, v.created[s]? = some c → c.accepted = true → c.closeCalled = false →
    c.reading = true ∨ v.program .acceptor = some (s, Session.start)

/-- `Start` begins with a read. -/
theorem reading_of_start (h : Moves e v l v') (hstart : v.program .acceptor = some (s, Session.start))
    (hc : v.created[s]? = some c) (hc' : v'.created[s]? = some c') :
    c'.reading = true ∨ v'.program .acceptor = some (s, Session.start) := by
  by_cases hl : ∃ throws, l = .advance .acceptor throws
  · obtain ⟨throws, rfl⟩ := hl
    have hremaining : v.remaining .asyncReadHead throws Session.start.tail =
        some Session.start.tail := remaining_eq _ nofun (Bool.and_false _)
    rw [created_advance h hstart hremaining, List.getElem?_modify_eq, hc] at hc'
    cases hc'
    exact .inl rfl
  · exact .inr (program_stays h hstart fun throws heq => hl ⟨throws, heq⟩)

theorem Watched.step (h : v.Watched) (hstep : Moves e v l v') : v'.Watched := by
  intro s c' hc' haccepted hopen'
  obtain ⟨-, rfl⟩ | ⟨c, hc, hbecomes⟩ := session_cases hstep hc'
  · cases haccepted
  have hopen : c.closeCalled = false := by
    cases hclosed : c.closeCalled with
    | false => rfl
    | true =>
      rw [hbecomes.closeCalled hclosed] at hopen'
      cases hopen'
  obtain hbefore | ⟨rfl, rfl⟩ := hbecomes.accepted haccepted
  · obtain hreading | hstart := h s c hc hbefore hopen
    · refine .inl ?_
      cases hbecomes with
      | same | accept | startAccept => exact hreading
      | @advance thread throws op rest ops _ hprogram hremaining =>
        refine reading_advance hc hprogram hremaining ?_ hreading
        rintro rfl
        cases thread <;> cases hopen'
      | escape _ _ hremaining =>
        obtain ⟨-, hread, hio⟩ := Session.exec_of_mayThrow (mayThrow_of_remaining hremaining)
        rw [Session.reading, hread, hio]
        exact hreading
      | change hchange => exact hchange.reading hreading
    · exact reading_of_start hstep hstart hc hc'
  · cases hstep with
    | accept => exact .inr rfl
    | change _ hchange => cases hchange

theorem watched_of_reachable (h : (machine e).Reachable v) : v.Watched := by
  refine h.invariant ?_ fun _ _ _ hwatched _ hstep => hwatched.step (moves_of_step hstep)
  rintro _ ⟨maxSessionCount, others, rfl⟩ s c hc haccepted
  obtain rfl := List.mem_singleton.mp (List.mem_of_getElem? hc)
  cases haccepted

end Server

/-- Where a thread of the pool is. -/
inductive PoolThread where
  /-- In `run` of its context. -/
  | running
  | ended
  | joined
  deriving DecidableEq, Repr

/-- What the thread that calls `Stop` stands before: the next work to reset, the next thread to
join. -/
inductive PoolCaller where
  | idle
  | reset (context : Nat)
  | join (context : Nat)
  | returned
  deriving DecidableEq, Repr

/-- The process of a server, with the pool that its sessions run on. `works` says which works have
not been reset; `stops` counts the calls of `Stop`. -/
structure ServerProcess where
  server : AsyncTcpServer
  works : List Bool
  threads : List PoolThread
  caller : PoolCaller
  stops : Nat
  terminated : Bool

/-- What may happen next. -/
inductive ProcessLabel where
  | server (l : AsyncTcpServerLabel)
  /-- `Stop` is called, or the pool's destructor calls it. -/
  | stop
  | caller
  /-- `run` of a context returns. -/
  | run (context : Nat)
  deriving DecidableEq, Repr

namespace ServerProcess

variable {e : Endian} {v v' : ServerProcess} {l : ProcessLabel}

/-- A pool of so many contexts, which the constructor of the server has made. -/
def new (poolSize maxSessionCount others : Nat) : ServerProcess :=
  { server := .new maxSessionCount others
    works := List.replicate poolSize true
    threads := List.replicate poolSize .running
    caller := .idle
    stops := 0
    terminated := false }

/-- The context that `getIOContext` has given to a session. -/
def contextOf (v : ServerProcess) (s : Nat) : Nat := s % v.threads.length

/-- Has a context work but for its `Work`? -/
def busy (v : ServerProcess) (context : Nat) : Bool :=
  v.server.server.created.zipIdx.any fun (c, s) => v.contextOf s == context && c.outstanding

/-- The next step of `Stop`. -/
def proceed (v : ServerProcess) : Option ServerProcess :=
  match v.caller with
  | .reset i => match v.works[i]? with
    | some _ => some { v with works := v.works.set i false, caller := .reset (i + 1) }
    | none => some { v with caller := .join 0 }
  | .join i => match v.threads[i]? with
    | some .ended => some { v with threads := v.threads.set i .joined, caller := .join (i + 1) }
    | some .joined => some { v with terminated := true }
    | some .running => none
    | none => some { v with caller := .returned }
  | .idle | .returned => none

/-- `run` of a context returns when it has no work left. -/
def endRun (v : ServerProcess) (context : Nat) : Option ServerProcess :=
  match v.threads[context]? with
  | some .running => if v.works[context]? = some false ∧ v.busy context = false then
      some { v with threads := v.threads.set context .ended }
    else none
  | _ => none

/-- Is the thread that this takes in `run`? -/
def carries (v : ServerProcess) : AsyncTcpServerLabel → Bool
  | .serve l => match Server.handles l with
    | some s => v.threads[v.contextOf s]? == some .running
    | none => true
  | _ => true

/-- One step, in a process that has not been terminated. -/
def step (e : Endian) (v : ServerProcess) (l : ProcessLabel) : Option ServerProcess :=
  if v.terminated || v.server.terminated || v.server.server.terminated then none
  else match l with
    | .server l => if v.carries l then (v.server.step e l).map fun s => { v with server := s }
      else none
    | .stop => if v.server.caller = .gone ∧ (v.caller = .idle ∨ v.caller = .returned) then
        some { v with caller := .reset 0, stops := v.stops + 1 }
      else none
    | .caller => v.proceed
    | .run context => v.endRun context

/-- A server process as a machine: any number of contexts but none, any limit, any number of other
threads. -/
def machine (e : Endian) : Transition.Machine ServerProcess ProcessLabel where
  init v := ∃ poolSize maxSessionCount others, 0 < poolSize ∧
    v = new poolSize maxSessionCount others
  step := step e

/-- Every way a label can take one process to the next. -/
inductive Moves (e : Endian) (v : ServerProcess) : ProcessLabel → ServerProcess → Prop where
  | server {l : AsyncTcpServerLabel} {s : AsyncTcpServer} : v.carries l = true →
      v.server.step e l = some s → Moves e v (.server l) { v with server := s }
  | stop : v.server.caller = .gone → v.caller = .idle ∨ v.caller = .returned →
      Moves e v .stop { v with caller := .reset 0, stops := v.stops + 1 }
  | reset {i : Nat} {work : Bool} : v.caller = .reset i → v.works[i]? = some work →
      Moves e v .caller { v with works := v.works.set i false, caller := .reset (i + 1) }
  | resets {i : Nat} : v.caller = .reset i → v.works[i]? = none →
      Moves e v .caller { v with caller := .join 0 }
  | join {i : Nat} : v.caller = .join i → v.threads[i]? = some .ended →
      Moves e v .caller { v with threads := v.threads.set i .joined, caller := .join (i + 1) }
  | again {i : Nat} : v.caller = .join i → v.threads[i]? = some .joined →
      Moves e v .caller { v with terminated := true }
  | joins {i : Nat} : v.caller = .join i → v.threads[i]? = none →
      Moves e v .caller { v with caller := .returned }
  | run {i : Nat} : v.threads[i]? = some .running → v.works[i]? = some false →
      v.busy i = false → Moves e v (.run i) { v with threads := v.threads.set i .ended }

theorem moves_of_step (hstep : v.step e l = some v') : v.terminated = false ∧ Moves e v l v' := by
  unfold ServerProcess.step at hstep
  split at hstep
  case isTrue => cases hstep
  case isFalse halive =>
    simp only [Bool.or_eq_true, not_or, Bool.not_eq_true] at halive
    refine ⟨halive.1.1, ?_⟩
    cases l with
    | server l =>
      rw [Option.ite_none_right_eq_some, Option.map_eq_some_iff] at hstep
      obtain ⟨hcarries, s, hs, rfl⟩ := hstep
      exact .server hcarries hs
    | stop =>
      rw [Option.ite_none_right_eq_some, Option.some.injEq] at hstep
      obtain ⟨⟨hgone, hcaller⟩, rfl⟩ := hstep
      exact .stop hgone hcaller
    | caller =>
      dsimp only [ServerProcess.proceed] at hstep
      split at hstep
      case h_1 i hat =>
        split at hstep
        case h_1 hwork => cases hstep; exact .reset hat hwork
        case h_2 hnone => cases hstep; exact .resets hat hnone
      case h_2 i hat =>
        split at hstep
        case h_1 hended => cases hstep; exact .join hat hended
        case h_2 hjoined => cases hstep; exact .again hat hjoined
        case h_3 => cases hstep
        case h_4 hnone => cases hstep; exact .joins hat hnone
      case h_3 | h_4 => cases hstep
    | run i =>
      dsimp only [ServerProcess.endRun] at hstep
      split at hstep
      case h_1 hat =>
        rw [Option.ite_none_right_eq_some, Option.some.injEq] at hstep
        obtain ⟨⟨hreset, hidle⟩, rfl⟩ := hstep
        exact .run hat hreset hidle
      case h_2 => cases hstep

theorem busy_iff {context : Nat} : v.busy context = true ↔
    ∃ (s : Nat) (c : Session), v.server.server.created[s]? = some c ∧ v.contextOf s = context ∧
      c.outstanding = true := by
  simp only [busy, List.any_eq_true, Prod.exists, List.mem_zipIdx_iff_getElem?, Bool.and_eq_true,
    beq_iff_eq]
  exact ⟨fun ⟨c, s, hc, hs, ho⟩ => ⟨s, c, hc, hs, ho⟩, fun ⟨s, c, hc, hs, ho⟩ => ⟨c, s, hc, hs, ho⟩⟩

/-- The sessions that are made get their contexts in turn. -/
theorem getIOContexts_contextOf {poolSize : UInt64} (hpool : 0 < poolSize.toNat)
    (hsize : v.threads.length = poolSize.toNat) {sessions s : Nat} (hs : s < sessions) :
    ((IOServicePool.new poolSize).getIOContexts sessions).1[s]? = some (some ⟨v.contextOf s⟩) := by
  rw [(IOServicePool.getIOContexts_eq hpool sessions).1, contextOf, hsize, RoundRobin.turns,
    List.map_map, List.getElem?_map, List.getElem?_range hs]
  rfl

/-! ## Where `Stop` is -/

/-- The threads before the `k`-th have been joined. -/
def JoinedTo (v : ServerProcess) (k : Nat) : Prop :=
  ∀ (i : Nat) place, v.threads[i]? = some place → (place = .joined ↔ i < k)

/-- How far `Stop` has come, in a pool of so many threads: its caller, how often it has been called
and how many threads have been joined. Behind the first `Stop` these are all. -/
inductive Place (poolSize : Nat) : PoolCaller → Nat → Nat → Prop where
  | idle : Place poolSize .idle 0 0
  | reset (i : Nat) : Place poolSize (.reset i) 1 0
  | join (i : Nat) : Place poolSize (.join i) 1 i
  | returned : Place poolSize .returned 1 poolSize
  | resetAgain (i : Nat) : Place poolSize (.reset i) 2 poolSize
  | joinAgain : Place poolSize (.join 0) 2 poolSize

/-- How far it has come in this process. -/
def Staged (v : ServerProcess) : Prop :=
  ∃ k, Place v.threads.length v.caller v.stops k ∧ v.JoinedTo k

/-- A thread that is not joined becomes another that is not. -/
theorem JoinedTo.run {i k : Nat} (h : v.JoinedTo k) (hat : v.threads[i]? = some .running) :
    JoinedTo { v with threads := v.threads.set i .ended } k := by
  intro j place hj
  obtain ⟨rfl, rfl⟩ | ⟨-, hbefore⟩ := Threads.at_set hj
  · exact ⟨nofun, fun hlt => absurd ((h j _ hat).mpr hlt) nofun⟩
  · exact h j place hbefore

/-- The next thread is joined. -/
theorem JoinedTo.join {i : Nat} (h : v.JoinedTo i) :
    JoinedTo { v with threads := v.threads.set i .joined, caller := .join (i + 1) } (i + 1) := by
  intro j place hj
  obtain ⟨rfl, rfl⟩ | ⟨hne, hbefore⟩ := Threads.at_set hj
  · exact ⟨fun _ => Nat.lt_succ_self j, fun _ => rfl⟩
  · rw [h j place hbefore]
    omega

/-- Behind the last thread all of them have been joined. -/
theorem JoinedTo.all {i : Nat} (h : v.JoinedTo i) (hnone : v.threads[i]? = none) :
    v.JoinedTo v.threads.length := by
  intro j place hj
  have hlt := (List.getElem?_eq_some_iff.mp hj).1
  have hle := List.getElem?_eq_none_iff.mp hnone
  rw [h j place hj]
  omega

theorem Staged.step (h : v.Staged) (hpool : 0 < v.threads.length) (hstep : Moves e v l v') :
    v'.Staged := by
  obtain ⟨k, hplace, hjoined⟩ := h
  cases hstep with
  | server => exact ⟨k, hplace, hjoined⟩
  | stop _ hat =>
    refine ⟨k, ?_, hjoined⟩
    show Place v.threads.length (.reset 0) (v.stops + 1) k
    obtain hat | hat := hat <;> rw [hat] at hplace
    · generalize v.stops = stops at hplace
      cases hplace
      exact .reset 0
    · generalize v.stops = stops at hplace
      cases hplace
      exact .resetAgain 0
  | reset hat =>
    rw [hat] at hplace
    refine ⟨k, ?_, hjoined⟩
    show Place v.threads.length (.reset _) v.stops k
    generalize v.stops = stops at hplace
    cases hplace with
    | reset => exact .reset _
    | resetAgain => exact .resetAgain _
  | resets hat =>
    rw [hat] at hplace
    refine ⟨k, ?_, hjoined⟩
    show Place v.threads.length (.join 0) v.stops k
    generalize v.stops = stops at hplace
    cases hplace with
    | reset => exact .join 0
    | resetAgain => exact .joinAgain
  | join hat hended =>
    rw [hat] at hplace
    generalize v.stops = stops at hplace
    cases hplace with
    | join => exact ⟨k + 1, .join (k + 1), hjoined.join⟩
    | joinAgain => cases (hjoined 0 _ hended).mpr hpool
  | again => exact ⟨k, hplace, hjoined⟩
  | joins hat hnone =>
    rw [hat] at hplace
    generalize v.stops = stops at hplace
    cases hplace with
    | join => exact ⟨v.threads.length, .returned, hjoined.all hnone⟩
    | joinAgain =>
      rw [List.getElem?_eq_none_iff] at hnone
      omega
  | @run i hat =>
    refine ⟨k, ?_, hjoined.run hat⟩
    show Place (v.threads.set i .ended).length v.caller v.stops k
    rw [List.length_set]
    exact hplace

/-! ## The sessions of a context that has returned -/

/-- A session whose context has returned from `run`, or has been joined. -/
structure Over (c : Session) : Prop where
  rests : c.Rests
  closed : c.accepted = true → c.closeCalled = true

/-- THE INVARIANT. -/
structure Pooled (e : Endian) (v : ServerProcess) : Prop where
  server : (AsyncTcpServer.machine e).Reachable v.server
  pool : 0 < v.threads.length
  gone : v.caller ≠ .idle → v.server.caller = .gone
  resets : ∀ i : Nat, v.works[i]? = some false → v.caller ≠ .idle
  ended : ∀ (i : Nat) place, v.threads[i]? = some place → place ≠ .running → v.caller ≠ .idle
  finished : ∀ (s : Nat) c place, v.server.server.created[s]? = some c →
    v.threads[v.contextOf s]? = some place → place ≠ .running → Over c
  staged : v.Staged
  terminated : v.terminated = true → v.stops = 2

theorem pooled_new {poolSize : Nat} (hpool : 0 < poolSize) (maxSessionCount others : Nat) :
    (new poolSize maxSessionCount others).Pooled e := by
  have hrunning : ∀ (i : Nat) place,
      (new poolSize maxSessionCount others).threads[i]? = some place → place = .running := by
    intro i place hat
    exact (List.mem_replicate.mp (List.mem_of_getElem? hat)).2
  constructor
  · exact .start ⟨maxSessionCount, others, rfl⟩
  · rw [new, List.length_replicate]
    exact hpool
  · exact fun hcaller => absurd rfl hcaller
  · intro i hreset
    cases (List.mem_replicate.mp (List.mem_of_getElem? hreset)).2
  · exact fun i place hat hplace => absurd (hrunning i place hat) hplace
  · exact fun s c place _ hat hplace => absurd (hrunning _ place hat) hplace
  · refine ⟨0, .idle, fun i place hat => ?_⟩
    rw [hrunning i place hat]
    exact ⟨nofun, fun hlt => absurd hlt (Nat.not_lt_zero i)⟩
  · exact fun hterminated => Bool.noConfusion hterminated

/-- The acceptor of a server that is gone is in no handler. -/
theorem Pooled.no_handler (h : v.Pooled e) (hcaller : v.caller ≠ .idle) :
    v.server.server.handling = none := by
  have hliving := AsyncTcpServer.living_of_reachable h.server
  exact hliving.no_handler (by rw [h.gone hcaller]; exact AsyncTcpServerCaller.noConfusion)

/-- The server or one of its sessions goes on, but for those whose contexts have returned. -/
theorem Pooled.serve (h : v.Pooled e) {l : AsyncTcpServerLabel} {s : AsyncTcpServer}
    (hcarries : v.carries l = true) (hstep : v.server.step e l = some s) :
    Pooled e { v with server := s } where
  server := h.server.next trivial hstep
  pool := h.pool
  gone hcaller := AsyncTcpServer.gone_of_step (h.gone hcaller) hstep
  resets := h.resets
  ended := h.ended
  finished r c' place hc' hat hplace := by
    have hcaller := h.ended _ place hat hplace
    have hliving := AsyncTcpServer.living_of_reachable h.server
    cases AsyncTcpServer.goes_of_step hstep with
    | beside hserver =>
      rw [hserver] at hc'
      exact h.finished r c' place hc' hat hplace
    | @serve l' s' haccepts hs =>
      obtain ⟨-, rfl⟩ | ⟨c, hc, hbecomes⟩ := Server.session_cases (Server.moves_of_step hs) hc'
      · exact ⟨⟨rfl, rfl⟩, fun haccepted => Bool.noConfusion haccepted⟩
      have hover := h.finished r c place hc hat hplace
      have hhandles : Server.handles l' ≠ some r := by
        intro heq
        have hrunning : v.threads[v.contextOf r]? = some .running := by
          simpa only [carries, heq, beq_iff_eq] using hcarries
        exact hplace (Option.some.inj (Eq.trans (Eq.symm hat) hrunning))
      refine ⟨hbecomes.rests (Server.placed_of_reachable hliving.served) (h.no_handler hcaller)
        hhandles hover.rests, fun haccepted => ?_⟩
      obtain hbefore | ⟨rfl, -⟩ := hbecomes.accepted haccepted
      · exact hbecomes.closeCalled (hover.closed hbefore)
      · -- a server that is gone has no thread to accept on
        have hnone := hliving.no_thread (by
          rw [h.gone hcaller]
          exact AsyncTcpServerCaller.noConfusion)
        rw [AsyncTcpServer.carries, hnone] at haccepts
        cases haccepts
  staged := h.staged
  terminated := h.terminated

/-- A context that returns leaves its sessions closed. -/
theorem Pooled.over_of_idle (h : v.Pooled e) {s : Nat} {c : Session}
    (hc : v.server.server.created[s]? = some c) (hcaller : v.caller ≠ .idle)
    (hidle : v.busy (v.contextOf s) = false) : Over c := by
  have houtstanding : c.outstanding = false := by
    cases hout : c.outstanding with
    | false => rfl
    | true =>
      rw [busy_iff.mpr ⟨s, c, hc, rfl, hout⟩] at hidle
      cases hidle
  have hrests := Session.rests_of_outstanding houtstanding
  refine ⟨hrests, fun haccepted => ?_⟩
  cases hclosed : c.closeCalled with
  | true => rfl
  | false =>
    have hliving := AsyncTcpServer.living_of_reachable h.server
    obtain hreading | hstart :=
      Server.watched_of_reachable hliving.served s c hc haccepted hclosed
    · rw [Session.reading, hrests.read, hrests.io] at hreading
      cases hreading
    · rw [Server.program, h.no_handler hcaller] at hstart
      cases hstart

/-- A thread of the pool moves on; its context stays the same. -/
theorem Pooled.thread (h : v.Pooled e) {i : Nat} {place : PoolThread} {caller : PoolCaller}
    (hcaller : v.caller ≠ .idle) (hcaller' : caller ≠ .idle)
    (hover : ∀ (s : Nat) c, v.server.server.created[s]? = some c → v.contextOf s = i → Over c)
    (hstaged : Staged { v with threads := v.threads.set i place, caller := caller }) :
    Pooled e { v with threads := v.threads.set i place, caller := caller } where
  server := h.server
  pool := by
    rw [List.length_set]
    exact h.pool
  gone _ := h.gone hcaller
  resets _ _ := hcaller'
  ended _ _ _ _ := hcaller'
  finished s c place' hc hat hplace := by
    simp only [contextOf, List.length_set] at hat
    obtain ⟨heq, -⟩ | ⟨-, hbefore⟩ := Threads.at_set hat
    · exact hover s c hc heq
    · exact h.finished s c place' hc hbefore hplace
  staged := hstaged
  terminated := h.terminated

/-- The caller of `Stop` moves on, behind the destruction of the server. -/
theorem Pooled.goto (h : v.Pooled e) (hgoes : v.terminated = false)
    (hgone : v.server.caller = .gone) {works : List Bool} {caller : PoolCaller} {stops : Nat}
    (hcaller : caller ≠ .idle)
    (hstaged : Staged { v with works := works, caller := caller, stops := stops }) :
    Pooled e { v with works := works, caller := caller, stops := stops } where
  server := h.server
  pool := h.pool
  gone _ := hgone
  resets _ _ := hcaller
  ended _ _ _ _ := hcaller
  finished := h.finished
  staged := hstaged
  terminated hterminated := absurd (hgoes.symm.trans hterminated) Bool.false_ne_true

theorem Pooled.step (h : v.Pooled e) (hstep : v.step e l = some v') : v'.Pooled e := by
  obtain ⟨hgoes, hmoves⟩ := moves_of_step hstep
  have hstaged := h.staged.step h.pool hmoves
  cases hmoves with
  | server hcarries hs => exact h.serve hcarries hs
  | stop hgone => exact h.goto hgoes hgone PoolCaller.noConfusion hstaged
  | reset hat | resets hat | joins hat =>
    have hgone := h.gone (by rw [hat]; exact PoolCaller.noConfusion)
    exact h.goto hgoes hgone PoolCaller.noConfusion hstaged
  | @join i hat hended =>
    have hcaller : v.caller ≠ .idle := by rw [hat]; exact PoolCaller.noConfusion
    refine h.thread hcaller PoolCaller.noConfusion (fun s c hc heq => ?_) hstaged
    exact h.finished s c .ended hc (heq ▸ hended) nofun
  | again hat hdone =>
    refine ⟨h.server, h.pool, h.gone, h.resets, h.ended, h.finished, hstaged, fun _ => ?_⟩
    obtain ⟨k, hplace, hjoined⟩ := h.staged
    rw [hat] at hplace
    show v.stops = 2
    generalize v.stops = stops at hplace
    cases hplace with
    | join => exact absurd ((hjoined _ _ hdone).mp rfl) (Nat.lt_irrefl _)
    | joinAgain => rfl
  | @run i hat hreset hidle =>
    have hcaller := h.resets i hreset
    refine h.thread hcaller hcaller (fun s c hc heq => ?_) hstaged
    exact h.over_of_idle hc hcaller (heq ▸ hidle)

theorem pooled_of_reachable (h : (machine e).Reachable v) : v.Pooled e := by
  refine h.invariant ?_ fun _ _ _ hpooled _ hstep => hpooled.step hstep
  rintro _ ⟨poolSize, maxSessionCount, others, hpool, rfl⟩
  exact pooled_new hpool maxSessionCount others

/-- What is said of a process at any time. -/
structure Ending (e : Endian) (v : ServerProcess) : Prop where
  server : (AsyncTcpServer.machine e).Reachable v.server
  finished : ∀ (s : Nat) c, v.server.server.created[s]? = some c →
    v.threads[v.contextOf s]? ≠ some .running → Over c
  returned : v.caller = .returned → v.server.caller = .gone ∧
    ∀ (s : Nat) c, v.server.server.created[s]? = some c → Over c
  terminated : v.terminated = true → v.stops = 2

/-- THE END OF THE POOL: in every run, with any number of contexts, sessions and other threads, a
context returns from `run` only when each of its sessions has been closed and has no read and no
handler left, and none of them gets one again. So it is with all sessions when `Stop` comes back. A
second `Stop` throws; nothing else in the pool does. -/
theorem ending_of_reachable (e : Endian) {v : ServerProcess} (h : (machine e).Reachable v) :
    v.Ending e := by
  have hpooled := pooled_of_reachable h
  have hplace : ∀ s, ∃ place, v.threads[v.contextOf s]? = some place := fun s =>
    ⟨_, List.getElem?_eq_getElem (Nat.mod_lt s hpooled.pool)⟩
  have hover : ∀ (s : Nat) c, v.server.server.created[s]? = some c →
      v.threads[v.contextOf s]? ≠ some .running → Over c := by
    intro s c hc hrunning
    obtain ⟨place, hat⟩ := hplace s
    refine hpooled.finished s c place hc hat ?_
    rintro rfl
    exact hrunning hat
  refine ⟨hpooled.server, hover, fun hreturned => ?_, hpooled.terminated⟩
  refine ⟨hpooled.gone (by rw [hreturned]; exact PoolCaller.noConfusion), fun s c hc => ?_⟩
  obtain ⟨place, hat⟩ := hplace s
  obtain ⟨k, hstage, hjoined⟩ := hpooled.staged
  rw [hreturned] at hstage
  generalize v.stops = stops at hstage
  cases hstage
  have hend := (hjoined _ _ hat).mpr (Nat.mod_lt s hpooled.pool)
  refine hover s c hc ?_
  rw [hat, hend]
  exact nofun

/-- A client connects and hangs up. -/
def hangUp : List ServerLabel :=
  [.accept true] ++ List.replicate 7 (.advance .acceptor false) ++
    [.startAccept, .completeRead 0 .error] ++ List.replicate 6 (.advance (.io 0) false)

/-- The server serves it until the signal, is destroyed, and the pool is stopped. -/
def quietProcess : List ProcessLabel :=
  [.server .start, .server .caller, .server .caller, .server .thread] ++
    hangUp.map (fun l => .server (.serve l)) ++
    [.server (.signal false), .server .thread, .server .caller, .server .caller, .server .destroy,
      .server .caller, .stop, .caller, .caller, .caller, .run 1, .run 0, .caller, .caller, .caller]

theorem ending_of_reachable_two :
    ∃ v, (machine .little).run (new 2 4 0) quietProcess = some v ∧ v.caller = .returned ∧
      ∀ (s : Nat) c, v.server.server.created[s]? = some c → Over c := by
  have hruns : ((machine .little).run (new 2 4 0) quietProcess).any
      (fun v => v.caller = .returned) = true := by
    decide +kernel
  obtain ⟨v, hrun, hv⟩ := (Option.any_eq_true _ _).mp hruns
  have hreturned : v.caller = .returned := of_decide_eq_true hv
  have hreachable : (machine .little).Reachable v :=
    .run (.start ⟨2, 4, 0, by decide, rfl⟩) hrun
  exact ⟨v, hrun, hreturned, ((ending_of_reachable .little hreachable).returned hreturned).2⟩

end ServerProcess

end DSFramework.DSCommunication
