import DSFramework.DSCommunication.ConAcceptor

/-!
# The end of a session

`~Session` calls `Close` when `m_closed` is false, and `Close` calls `shared_from_this`, which in a
destructor throws `bad_weak_ptr`. So `m_closed` must be true when the last pointer goes.

Two threads write it: every `Close` sets it, and the tail of `Start` clears it after `OnConnect`.
A session that stays referenced by its reads ends with a `Close` of a read handler, which is the
last write unless the tail of `Start` comes after it. `tailInTime` is that condition.
-/

namespace DSFramework.DSCommunication

namespace Session

/-- Is this an operation that the read chain goes on with, or ends with? -/
def chained : SessionOp → Bool
  | .asyncReadHead | .asyncReadBody | .setClosed => true
  | _ => false

/-- The read chain is going: a read is outstanding, or a completion handler has still to start
one or to carry out the `m_closed = true` of a `Close`. -/
def reading (c : Session) : Bool := c.read.isSome || c.io.any chained

/-- What `~Session` carries out. -/
def destroy (c : Session) : List SessionOp := if c.closed then [] else close

/-- An operation never takes the outstanding read away. -/
theorem read_exec {c : Session} (op : SessionOp) (h : c.read.isSome = true) :
    (c.exec op).read.isSome = true := by
  cases op <;> first | exact h | rfl

/-- Starting a read, the chain goes on. -/
theorem read_exec_of_chained {c : Session} {op : SessionOp} (h : chained op = true)
    (hop : op ≠ .setClosed) : (c.exec op).read.isSome = true := by
  cases op with
  | asyncReadHead | asyncReadBody => rfl
  | setClosed => exact absurd rfl hop
  | _ => cases h

/-- The operations that may throw leave these fields alone. -/
theorem exec_of_mayThrow {c : Session} {op : SessionOp} (h : op.mayThrow = true) :
    (c.exec op).closed = c.closed ∧ (c.exec op).read = c.read ∧ (c.exec op).io = c.io := by
  cases op <;> first | exact ⟨rfl, rfl, rfl⟩ | cases h

/-- `m_closed` after an operation other than the two that write it. -/
theorem closed_exec {c : Session} {op : SessionOp} (hopen : op ≠ .setOpen)
    (hclosed : op ≠ .setClosed) : (c.exec op).closed = c.closed := by
  cases op <;> first | rfl | exact absurd rfl hopen | exact absurd rfl hclosed

/-- Every completion handler of a read goes on reading or closes. -/
theorem chained_handleRead (kind : ReadKind) (outcome : ReadOutcome) :
    (handleRead kind outcome).any chained = true := by
  cases kind <;> cases outcome <;> rfl

end Session

namespace Server

/-- The condition: the tail of `Start` clears `m_closed` only while the read chain is going. -/
def tailInTime (v : Server) : ServerLabel → Bool
  | .advance thread _ => match v.program thread with
    | some (s, .setOpen :: _) => (v.created[s]?).any Session.reading
    | _ => true
  | _ => true

/-- Whoever holds a pointer to the session: the acceptor, its I/O thread, its outstanding
operations, the manager's map, other threads. -/
def referenced (v : Server) (s : Nat) (c : Session) : Bool :=
  v.accepting == s || !c.io.isEmpty || c.read.isSome || !c.writer.writes.isEmpty ||
    decide (s ∈ v.sessions) || decide (0 < c.references) ||
    v.others.any fun call => call.any fun (r, _) => r == s

/-- The last pointer to session `s` is gone. -/
def released (v : Server) (s : Nat) : Bool :=
  (v.created[s]?).any fun c => !v.referenced s c

/-- Where a session is open, its read chain is going. -/
def Attended (v : Server) : Prop :=
  ∀ (s : Nat) c, v.created[s]? = some c → c.closed = false → c.reading = true

theorem attended_new (maxSessionCount others : Nat) : (new maxSessionCount others).Attended := by
  intro s c hc hclosed
  match s, hc with
  | 0, hc => cases hc; cases hclosed

/-- What a thread is left with keeps what the chain has still to do, once `op` is done. -/
theorem any_chained_remaining {v : Server} {op : SessionOp} {throws : Bool}
    {rest ops : List SessionOp} (h : v.remaining op throws rest = some ops)
    (hrest : rest.any Session.chained = true) : ops.any Session.chained = true := by
  obtain rfl | ⟨-, -, rfl⟩ | ⟨-, -, rfl⟩ | ⟨-, -, hunwind⟩ := remaining_cases h
  · exact hrest
  · rfl
  · rw [List.any_cons, hrest, Bool.or_true]
  · obtain ⟨-, after, -, rfl⟩ := unwind_eq hunwind
    rfl

/-- Every operation but `m_closed = true` keeps the chain going. -/
theorem reading_advance {v : Server} {thread : ServerThread} {throws : Bool} {s : Nat}
    {op : SessionOp} {rest ops : List SessionOp} {c : Session} (hc : v.created[s]? = some c)
    (hprogram : v.program thread = some (s, op :: rest))
    (hremaining : v.remaining op throws rest = some ops) (hop : op ≠ .setClosed)
    (h : c.reading = true) : (moved thread ops (c.exec op)).reading = true := by
  have hread : c.read.isSome = true → (c.exec op).read.isSome = true := Session.read_exec op
  simp only [Session.reading, Bool.or_eq_true] at h ⊢
  cases thread with
  | acceptor | other t =>
    simp only [moved, io_exec]
    exact h.imp_left hread
  | io r =>
    simp only [moved]
    obtain h | h := h
    · exact .inl (hread h)
    · have hio : c.io = op :: rest := by
        obtain ⟨c₀, hc₀, heq⟩ := Option.map_eq_some_iff.mp hprogram
        rw [Prod.mk.injEq] at heq
        obtain ⟨rfl, hio⟩ := heq
        rw [hc] at hc₀
        cases hc₀
        exact hio
      rw [hio, List.any_cons, Bool.or_eq_true] at h
      exact h.imp (fun h => Session.read_exec_of_chained h hop) (any_chained_remaining hremaining)

theorem Attended.step {e : Endian} {v v' : Server} {l : ServerLabel} (h : v.Attended)
    (hok : v.tailInTime l = true) (hstep : Moves e v l v') : v'.Attended := by
  intro s c' hc' hopen
  obtain ⟨-, rfl⟩ | ⟨c, hc, hbecomes⟩ := session_cases hstep hc'
  · cases hopen
  cases hbecomes with
  | same => exact h s _ hc hopen
  | accept | startAccept => exact h s c hc hopen
  | @advance thread throws op rest ops hl hprogram hremaining =>
    have hclosed : (moved thread ops (c.exec op)).closed = (c.exec op).closed := by
      cases thread <;> rfl
    rw [hclosed] at hopen
    have hset : op ≠ .setClosed := by
      rintro rfl
      cases hopen
    have hreading : c.reading = true := by
      by_cases hsetOpen : op = .setOpen
      · subst hl hsetOpen
        simpa only [tailInTime, hprogram, hc, Option.any_some] using hok
      · rw [Session.closed_exec hsetOpen hset] at hopen
        exact h s c hc hopen
    exact reading_advance hc hprogram hremaining hset hreading
  | escape _ _ hremaining =>
    obtain ⟨hclosed, hread, hio⟩ := Session.exec_of_mayThrow (mayThrow_of_remaining hremaining)
    rw [hclosed] at hopen
    simpa only [Session.reading, hread, hio] using h s c hc hopen
  | change hchange =>
    cases hchange with
    | readDue => rfl
    | writeDue | send | acquire | release => exact h s c hc hopen
    | @completeRead outcome read hread hio =>
      simp only [Session.reading, Session.chained_handleRead, Bool.or_true]
    | @completeWrite _ _ success writer hio =>
      cases success with
      | true =>
        have hreading := h s c hc hopen
        simp only [Session.reading, hio] at hreading
        exact hreading
      | false => exact Bool.or_true _

theorem attended_of_reachable {e : Endian} {v : Server}
    (h : (machine e).ReachableBy (fun v l => v.tailInTime l = true) v) : v.Attended :=
  h.invariant (fun _ ⟨maxSessionCount, others, hv⟩ => hv ▸ attended_new maxSessionCount others)
    fun _ _ _ hi hok hstep => hi.step hok (moves_of_step hstep)

/-- In every run in which the tail of `Start` comes in time, for any sessions, threads and limit,
a session that nobody refers to any more is closed: its destructor does nothing. -/
theorem destroy_of_released (e : Endian) {v : Server} {s : Nat} {c : Session}
    (h : (machine e).ReachableBy (fun v l => v.tailInTime l = true) v)
    (hc : v.created[s]? = some c) (hreleased : v.released s = true) : c.destroy = [] := by
  have hnobody : v.referenced s c = false := by
    simpa only [released, hc, Option.any_some, Bool.not_eq_true'] using hreleased
  have hclosed : c.closed = true := by
    cases hopen : c.closed with
    | true => rfl
    | false =>
      have hreading := attended_of_reachable h s c hc hopen
      simp only [Session.reading, Bool.or_eq_true, referenced, Bool.or_eq_false_iff,
        Bool.not_eq_false', List.isEmpty_iff] at hreading hnobody
      obtain hread | hio := hreading
      · rw [hnobody.1.1.1.1.2] at hread
        cases hread
      · rw [hnobody.1.1.1.1.1.2] at hio
        cases hio
  simp only [Session.destroy, hclosed, if_true]

/-- A session that lives and ends as intended: it connects, the peer hangs up, and the error of
its read closes it. -/
theorem destroy_of_released_hang_up :
    ∃ v, (machine .little).run (new 4 0)
        ([.accept true] ++ List.replicate 7 (.advance .acceptor false) ++ [.startAccept,
          .completeRead 0 .error] ++ List.replicate 6 (.advance (.io 0) false)) = some v ∧
      v.released 0 = true ∧ ∀ c, v.created[0]? = some c → c.destroy = [] := by
  have hrun : (machine .little).run (new 4 0)
      ([.accept true] ++ List.replicate 7 (.advance .acceptor false) ++ [.startAccept,
        .completeRead 0 .error] ++ List.replicate 6 (.advance (.io 0) false)) = some _ := rfl
  refine ⟨_, hrun, by decide, fun c hc => destroy_of_released .little ?_ hc (by decide)⟩
  exact .run (fun _ _ hok => hok) (.start ⟨4, 0, rfl⟩) (by decide) hrun

/-- The peer hangs up while `OnConnect` is being delivered: its read closes the session and gives
up the last pointer but the acceptor's, whose tail of `Start` then clears `m_closed`. -/
theorem destroy_of_early_close :
    ¬ ∀ v s c, (machine .little).Reachable v → v.created[s]? = some c → v.released s = true →
      c.destroy = [] := by
  intro h
  have hrun : (machine .little).run (new 4 0)
      ([.accept true] ++ List.replicate 4 (.advance .acceptor false) ++ [.completeRead 0 .error] ++
        List.replicate 6 (.advance (.io 0) false) ++
        List.replicate 3 (.advance .acceptor false) ++ [.startAccept]) = some _ := rfl
  have hdestroy := h _ 0 _ (.run (.start ⟨4, 0, rfl⟩) hrun) rfl (by decide)
  exact absurd hdestroy (by decide)

end Server

end DSFramework.DSCommunication
