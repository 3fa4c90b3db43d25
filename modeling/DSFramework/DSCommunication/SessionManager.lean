import DSFramework.DSCommunication.ConAcceptor

/-!
# The session manager's map

`AddSession` runs inside `OnConnect` on the acceptor thread, `RemoveSession` inside every `Close`,
wherever that runs. Only the acceptor inserts, so the limit needs no lock; a session leaves the
map only by a `Close` of its own, so an open one stays.

What the order of threads can break is the end: a `Close` whose `RemoveSession` comes before the
insertion leaves the session in the map for good. `insertedInTime` excludes that.
-/

namespace DSFramework.DSCommunication

namespace Session

/-- The two operations of `AddSession` that let a session in. -/
def admits : SessionOp → Bool
  | .addSession | .insertSession => true
  | _ => false

/-- Is the next `RemoveSession` that of a `Close` already begun? -/
def midClose : List SessionOp → Bool
  | [] => false
  | .setClosed :: _ => false
  | .removeSession :: _ => true
  | _ :: rest => midClose rest

/-- Does every `Close` among the operations still have its `RemoveSession` before it? -/
def closesWhole : List SessionOp → Bool
  | [] => true
  | .setClosed :: rest => rest.contains .removeSession && closesWhole rest
  | _ :: rest => closesWhole rest

/-- After `op` a `Close` is in progress only if it was before, or `op` began one. -/
theorem midClose_cons {op : SessionOp} {rest : List SessionOp} (h : midClose rest = true) :
    op = .setClosed ∨ midClose (op :: rest) = true := by
  cases op with
  | setClosed => exact .inl rfl
  | removeSession => exact .inr rfl
  | _ => exact .inr h

theorem closesWhole_cons {op : SessionOp} {rest : List SessionOp}
    (h : closesWhole (op :: rest) = true) : closesWhole rest = true := by
  cases op with
  | setClosed => exact (Bool.and_eq_true_iff.mp h).2
  | _ => exact h

theorem closesWhole_append {skipped rest : List SessionOp}
    (h : closesWhole (skipped ++ rest) = true) : closesWhole rest = true := by
  induction skipped with
  | nil => exact h
  | cons op skipped ih => exact ih (closesWhole_cons h)

/-- Two records agree about what only operations change, and only to `true`. -/
structure SameMarks (c c' : Session) : Prop where
  admitted : c'.admitted = c.admitted
  closeCalled : c'.closeCalled = c.closeCalled
  removed : c'.removed = c.removed

/-- A call of `Close` that throws has carried out its `RemoveSession`. -/
theorem removeSession_of_mayThrow {op : SessionOp} {rest : List SessionOp}
    (h : (op :: rest) <:+ close) (hop : op.mayThrow = true) : .removeSession ∉ op :: rest := by
  simp only [close, List.suffix_cons_iff, List.suffix_nil, List.cons.injEq, reduceCtorEq,
    or_false] at h
  obtain ⟨rfl, rfl⟩ | ⟨rfl, rfl⟩ | ⟨rfl, rfl⟩ | ⟨rfl, rfl⟩ | ⟨rfl, rfl⟩ := h
  all_goals first | decide | cases hop

end Session

namespace Server

/-- The condition: a session is inserted only while no `Close` of it has removed it. -/
def insertedInTime (v : Server) : ServerLabel → Bool
  | .advance thread _ => match v.program thread with
    | some (s, .insertSession :: _) => (v.created[s]?).all fun c => !c.removed
    | _ => true
  | _ => true

/-! ## The history of one session -/

section History

variable {e : Endian} {v : Server} {l : ServerLabel} {s : Nat} {c c' : Session}

/-- The marks of a session stay, or are those that an operation leaves. -/
theorem Becomes.marks (h : Becomes e v l s c c') :
    c.SameMarks c' ∨ ∃ thread throws op rest, l = .advance thread throws ∧
      v.program thread = some (s, op :: rest) ∧ (c.exec op).SameMarks c' := by
  cases h with
  | same | accept | startAccept => exact .inl ⟨rfl, rfl, rfl⟩
  | @advance thread throws op rest ops hl hprogram =>
    refine .inr ⟨thread, throws, op, rest, hl, hprogram, ?_⟩
    cases thread <;> exact ⟨rfl, rfl, rfl⟩
  | escape hl hprogram => exact .inr ⟨_, _, _, _, hl, hprogram, rfl, rfl, rfl⟩
  | change hchange => cases hchange <;> exact .inl ⟨rfl, rfl, rfl⟩

/-- A `Close` that has begun has begun for good. -/
theorem Becomes.closeCalled (h : Becomes e v l s c c') (hc : c.closeCalled = true) :
    c'.closeCalled = true := by
  obtain hsame | ⟨-, -, op, -, -, -, hsame⟩ := h.marks
  · exact hsame.closeCalled.trans hc
  · rw [hsame.closeCalled]
    cases op <;> first | exact hc | rfl

/-- Once removed, always removed. -/
theorem Becomes.stays_removed (h : Becomes e v l s c c') (hc : c.removed = true) :
    c'.removed = true := by
  obtain hsame | ⟨-, -, op, -, -, -, hsame⟩ := h.marks
  · exact hsame.removed.trans hc
  · rw [hsame.removed]
    cases op <;> first | exact hc | rfl

/-- Only the insertion admits a session. -/
theorem Becomes.admitted (h : Becomes e v l s c c') (hc' : c'.admitted = true) :
    c.admitted = true ∨ ∃ thread throws rest, l = .advance thread throws ∧
      v.program thread = some (s, .insertSession :: rest) := by
  obtain hsame | ⟨thread, throws, op, rest, hl, hprogram, hsame⟩ := h.marks
  · exact .inl (hsame.admitted ▸ hc')
  rw [hsame.admitted] at hc'
  cases op with
  | insertSession => exact .inr ⟨thread, throws, rest, hl, hprogram⟩
  | _ => exact .inl hc'

/-- Only `m_closed = true` begins a `Close`. -/
theorem Becomes.of_closeCalled (h : Becomes e v l s c c') (hc' : c'.closeCalled = true) :
    c.closeCalled = true ∨ ∃ thread throws rest, l = .advance thread throws ∧
      v.program thread = some (s, .setClosed :: rest) := by
  obtain hsame | ⟨thread, throws, op, rest, hl, hprogram, hsame⟩ := h.marks
  · exact .inl (hsame.closeCalled ▸ hc')
  rw [hsame.closeCalled] at hc'
  cases op with
  | setClosed => exact .inr ⟨thread, throws, rest, hl, hprogram⟩
  | _ => exact .inl hc'

/-- Only `RemoveSession` removes a session. -/
theorem Becomes.removed (h : Becomes e v l s c c') (hc' : c'.removed = true) :
    c.removed = true ∨ ∃ thread throws rest, l = .advance thread throws ∧
      v.program thread = some (s, .removeSession :: rest) := by
  obtain hsame | ⟨thread, throws, op, rest, hl, hprogram, hsame⟩ := h.marks
  · exact .inl (hsame.removed ▸ hc')
  rw [hsame.removed] at hc'
  cases op with
  | removeSession => exact .inr ⟨thread, throws, rest, hl, hprogram⟩
  | _ => exact .inl hc'

end History

/-! ## The map after a step -/

section Map

variable {e : Endian} {v v' : Server} {l : ServerLabel}

/-- An operation of a thread changes the map as the operation does. -/
theorem sessions_advance {thread : ServerThread} {throws : Bool} {s : Nat} {op : SessionOp}
    {rest : List SessionOp} (h : Moves e v (.advance thread throws) v')
    (hprogram : v.program thread = some (s, op :: rest)) :
    v'.sessions = mapAfter op s v.sessions := by
  cases h with
  | advance hprogram' =>
    rw [hprogram] at hprogram'
    cases hprogram'
    cases thread <;> rfl
  | escape hprogram' =>
    rw [hprogram] at hprogram'
    cases hprogram'
    cases thread <;> rfl
  | change _ hchange => cases hchange

/-- The map after any step: that of an operation, or unchanged. -/
theorem sessions_cases (h : Moves e v l v') :
    (∃ thread throws s op rest, l = .advance thread throws ∧
      v.program thread = some (s, op :: rest) ∧ v'.sessions = mapAfter op s v.sessions) ∨
    v'.sessions = v.sessions := by
  have hmoves := h
  cases h with
  | advance hprogram => exact .inl ⟨_, _, _, _, _, rfl, hprogram, sessions_advance hmoves hprogram⟩
  | escape hprogram => exact .inl ⟨_, _, _, _, _, rfl, hprogram, sessions_advance hmoves hprogram⟩
  | accept | startAccept | change | callClose => exact .inr rfl

/-- Apart from the insertion, no operation makes the map larger. -/
theorem length_mapAfter_le {op : SessionOp} (s : Nat) (sessions : List Nat)
    (hop : op ≠ .insertSession) : (mapAfter op s sessions).length ≤ sessions.length := by
  cases op with
  | insertSession => exact absurd rfl hop
  | removeSession => exact List.length_filter_le _ _
  | _ => exact Nat.le_refl _

theorem length_mapAfter_insert (s : Nat) (sessions : List Nat) :
    (mapAfter .insertSession s sessions).length ≤ sessions.length + 1 := by
  simp only [mapAfter]
  split
  · exact Nat.le_succ _
  · rw [List.length_append, List.length_singleton]

/-- An operation takes no session out of the map but the one it removes. -/
theorem mem_mapAfter {op : SessionOp} {r s : Nat} {sessions : List Nat} (h : s ∈ sessions)
    (hop : op = .removeSession → r ≠ s) : s ∈ mapAfter op r sessions := by
  cases op with
  | insertSession =>
    simp only [mapAfter]
    split
    · exact h
    · exact List.mem_append_left _ h
  | removeSession => exact List.mem_filter.mpr ⟨h, by simpa using (hop rfl).symm⟩
  | _ => exact h

/-- An operation puts no session into the map but the one it inserts. -/
theorem of_mem_mapAfter {op : SessionOp} {r s : Nat} {sessions : List Nat}
    (h : s ∈ mapAfter op r sessions) :
    (op ≠ .removeSession ∨ r ≠ s) ∧ (s ∈ sessions ∨ op = .insertSession ∧ r = s) := by
  cases op with
  | insertSession =>
    refine ⟨.inl nofun, ?_⟩
    simp only [mapAfter] at h
    split at h
    · exact .inl h
    · obtain h | h := List.mem_append.mp h
      · exact .inl h
      · exact .inr ⟨rfl, (List.mem_singleton.mp h).symm⟩
  | removeSession =>
    obtain ⟨hmem, hne⟩ := List.mem_filter.mp h
    exact ⟨.inr fun heq => by simp [heq] at hne, .inl hmem⟩
  | _ => exact ⟨.inl nofun, .inl h⟩

theorem mem_mapAfter_insert (s : Nat) (sessions : List Nat) :
    s ∈ mapAfter .insertSession s sessions := by
  simp only [mapAfter]
  split
  case isTrue h => exact h
  case isFalse => exact List.mem_append_right _ (List.mem_singleton.mpr rfl)

end Map

/-! ## The invariants -/

/-- Where the threads stand: only the acceptor lets a session in, one at a time and with room for
it, and whoever is about to remove a session has begun to close it. -/
structure Placed (v : Server) : Prop where
  bounded : v.sessions.length ≤ v.maxSessionCount
  known : v.accepting < v.created.length
  programs_known : ∀ thread s ops, v.program thread = some (s, ops) → s < v.created.length
  admits_le : ∀ thread s ops, v.program thread = some (s, ops) →
    ops.countP Session.admits ≤ if thread = .acceptor then 1 else 0
  room : ∀ ops, v.handling = some ops → .insertSession ∈ ops →
    ops.head? = some .insertSession ∧ v.sessions.length < v.maxSessionCount
  closing : ∀ thread s ops c, v.program thread = some (s, ops) → Session.midClose ops = true →
    v.created[s]? = some c → c.closeCalled = true
  whole : ∀ thread s ops, v.program thread = some (s, ops) → Session.closesWhole ops = true
  calls : ∀ t s ops, v.program (.other t) = some (s, ops) → ops <:+ Session.close

theorem placed_new (maxSessionCount others : Nat) : (new maxSessionCount others).Placed := by
  have hnobody : ∀ thread s ops, (new maxSessionCount others).program thread = some (s, ops) →
      s = 0 ∧ ops = [] := by
    intro thread s ops h
    cases thread with
    | acceptor => cases h
    | io r =>
      match r, h with
      | 0, h => cases h; exact ⟨rfl, rfl⟩
    | other t =>
      have hcall := Option.join_eq_some_iff.mp h
      cases (List.mem_replicate.mp (List.mem_of_getElem? hcall)).2
  refine ⟨Nat.zero_le _, Nat.one_pos, ?_, ?_, nofun, ?_, ?_, ?_⟩
  · intro thread s ops h
    rw [(hnobody thread s ops h).1]
    exact Nat.one_pos
  · intro thread s ops h
    rw [(hnobody thread s ops h).2]
    exact Nat.zero_le _
  · intro thread s ops c h hmid
    rw [(hnobody thread s ops h).2] at hmid
    cases hmid
  · intro thread s ops h
    rw [(hnobody thread s ops h).2]
    rfl
  · intro t s ops h
    rw [(hnobody (.other t) s ops h).2]
    exact List.nil_suffix

section Step

variable {e : Endian} {v v' : Server} {l : ServerLabel}

theorem maxSessionCount_step (h : Moves e v l v') : v'.maxSessionCount = v.maxSessionCount := by
  cases h with
  | @advance thread | @escape thread => cases thread <;> rfl
  | accept | startAccept | change | callClose => rfl

theorem Placed.known_step (hp : v.Placed) (h : Moves e v l v') :
    v'.accepting < v'.created.length := by
  have hgrows := length_created_le h
  have hknown := hp.known
  cases h with
  | @advance thread | @escape thread => cases thread <;> exact Nat.lt_of_lt_of_le hknown hgrows
  | startAccept =>
    simp only [startAccept, update, List.length_append, List.length_modify,
      List.length_singleton, Nat.lt_succ_self]
  | accept | change | callClose => exact Nat.lt_of_lt_of_le hknown hgrows

theorem Placed.programs_known_step (hp : v.Placed) (h : Moves e v l v') {thread : ServerThread}
    {s : Nat} {ops : List SessionOp} (hprogram : v'.program thread = some (s, ops)) :
    s < v'.created.length := by
  cases thread with
  | acceptor =>
    obtain ⟨_, -, heq⟩ := Option.map_eq_some_iff.mp hprogram
    cases heq
    exact hp.known_step h
  | io r =>
    obtain ⟨c, hc, heq⟩ := Option.map_eq_some_iff.mp hprogram
    cases heq
    exact (List.getElem?_eq_some_iff.mp hc).1
  | other t =>
    refine Nat.lt_of_lt_of_le ?_ (length_created_le h)
    obtain hsame | ⟨op, rest, throws, -, hbefore, -⟩ | henters := comes_of_program h hprogram
    · exact hp.programs_known _ s _ hsame
    · exact hp.programs_known _ s _ hbefore
    · cases henters with
      | call _ hlt => exact hlt

/-- What is left lets in no more sessions than what was left before. -/
theorem countP_admits_remaining {op : SessionOp} {throws : Bool} {rest ops : List SessionOp}
    (h : v.remaining op throws rest = some ops) :
    ops.countP Session.admits ≤ (op :: rest).countP Session.admits := by
  obtain rfl | ⟨-, -, rfl⟩ | ⟨rfl, -, rfl⟩ | ⟨-, -, hunwind⟩ := remaining_cases h
  · rw [List.countP_cons]
    exact Nat.le_add_right _ _
  · rw [List.countP_append, List.countP_cons]
    exact Nat.le_trans (Nat.le_of_eq (Nat.zero_add _)) (Nat.le_add_right _ _)
  · exact Nat.le_refl _
  · obtain ⟨skipped, after, rfl, rfl⟩ := unwind_eq hunwind
    have hclose : Session.close.countP Session.admits = 0 := rfl
    simp only [List.countP_append, List.countP_cons, hclose]
    omega

theorem Placed.admits_le_step (hp : v.Placed) (h : Moves e v l v') {thread : ServerThread}
    {s : Nat} {ops : List SessionOp} (hprogram : v'.program thread = some (s, ops)) :
    ops.countP Session.admits ≤ if thread = .acceptor then 1 else 0 := by
  obtain hsame | ⟨op, rest, throws, -, hbefore, hremaining⟩ | henters :=
    comes_of_program h hprogram
  · exact hp.admits_le thread s ops hsame
  · exact Nat.le_trans (countP_admits_remaining hremaining) (hp.admits_le thread s _ hbefore)
  · cases henters with
    | start => decide
    | refused | idle | handleWrite | call => exact Nat.zero_le _
    | handleRead kind outcome => cases kind <;> cases outcome <;> exact Nat.le_refl _

/-- An insertion is always the acceptor's. -/
theorem Placed.acceptor_of_insert (hp : v.Placed) {thread : ServerThread} {s : Nat}
    {rest : List SessionOp} (h : v.program thread = some (s, .insertSession :: rest)) :
    thread = .acceptor ∧ v.sessions.length < v.maxSessionCount := by
  have hcount := hp.admits_le thread s _ h
  rw [List.countP_cons_of_pos rfl] at hcount
  have hthread : thread = .acceptor := by
    by_contra hne
    rw [if_neg hne] at hcount
    exact absurd hcount (Nat.not_succ_le_zero _)
  subst hthread
  obtain ⟨ops, hops, heq⟩ := Option.map_eq_some_iff.mp h
  cases heq
  exact ⟨rfl, (hp.room _ hops (List.mem_cons_self ..)).2⟩

/-- The map keeps its limit, whoever carries out the operation. -/
theorem Placed.bounded_step (hp : v.Placed) (h : Moves e v l v') :
    v'.sessions.length ≤ v'.maxSessionCount := by
  rw [maxSessionCount_step h]
  obtain ⟨thread, throws, s, op, rest, -, hprogram, hsessions⟩ | hsessions := sessions_cases h
  · rw [hsessions]
    by_cases hop : op = .insertSession
    · subst hop
      exact Nat.le_trans (length_mapAfter_insert s v.sessions) (hp.acceptor_of_insert hprogram).2
    · exact Nat.le_trans (length_mapAfter_le s v.sessions hop) hp.bounded
  · rw [hsessions]
    exact hp.bounded

/-- What an operation of the acceptor leaves: an insertion only right after `AddSession` has
found room. -/
theorem Placed.room_remaining (hp : v.Placed) {op : SessionOp} {throws : Bool}
    {rest ops : List SessionOp} (hops : v.handling = some (op :: rest))
    (hremaining : v.remaining op throws rest = some ops) (hinsert : .insertSession ∈ ops) :
    op = .addSession ∧ ops.head? = some .insertSession ∧
      v.sessions.length < v.maxSessionCount := by
  have hprogram : v.program .acceptor = some (v.accepting, op :: rest) := by
    simp only [program, hops, Option.map_some]
  -- an insertion further down would be a second operation that lets a session in
  have hrest : .insertSession ∉ rest := by
    intro hmem
    obtain ⟨hhead, -⟩ := hp.room _ hops (List.mem_cons_of_mem _ hmem)
    cases hhead
    have hcount := hp.admits_le _ _ _ hprogram
    rw [List.countP_cons_of_pos rfl, if_pos rfl] at hcount
    have hpos : 0 < rest.countP Session.admits := List.countP_pos_iff.mpr ⟨_, hmem, rfl⟩
    omega
  have hclose : SessionOp.insertSession ∉ Session.close := by decide
  obtain rfl | ⟨-, -, rfl⟩ | ⟨rfl, hroom, rfl⟩ | ⟨-, -, hunwind⟩ := remaining_cases hremaining
  · exact absurd hinsert hrest
  · exact absurd hinsert (List.not_mem_append hclose hrest)
  · exact ⟨rfl, rfl, hroom⟩
  · obtain ⟨skipped, after, rfl, rfl⟩ := unwind_eq hunwind
    refine absurd hinsert (List.not_mem_append hclose fun hmem => hrest ?_)
    exact List.mem_append_right _ (List.mem_cons_of_mem _ hmem)

theorem Placed.room_step (hp : v.Placed) (h : Moves e v l v') {ops : List SessionOp}
    (hops : v'.handling = some ops) (hinsert : .insertSession ∈ ops) :
    ops.head? = some .insertSession ∧ v'.sessions.length < v'.maxSessionCount := by
  rw [maxSessionCount_step h]
  have unchanged : v.handling = some ops → v'.sessions.length ≤ v.sessions.length →
      ops.head? = some .insertSession ∧ v'.sessions.length < v.maxSessionCount := fun hv hle =>
    ⟨(hp.room ops hv hinsert).1, Nat.lt_of_le_of_lt hle (hp.room ops hv hinsert).2⟩
  -- an operation that is no insertion does not make the map larger
  have smaller : ∀ {thread throws s op rest}, l = .advance thread throws →
      v.program thread = some (s, op :: rest) → thread ≠ .acceptor →
      v'.sessions.length ≤ v.sessions.length := by
    rintro thread throws s op rest rfl hprogram hthread
    rw [sessions_advance h hprogram]
    refine length_mapAfter_le s v.sessions ?_
    rintro rfl
    exact hthread (hp.acceptor_of_insert hprogram).1
  have hmoves := h
  cases h with
  | @accept success =>
    cases hops
    cases success <;> exact absurd hinsert (by decide)
  | startAccept => cases hops
  | @advance thread throws s op rest ops' hprogram hremaining =>
    cases thread with
    | acceptor =>
      obtain ⟨ops₀, hops₀, heq⟩ := Option.map_eq_some_iff.mp hprogram
      cases heq
      cases hops
      obtain ⟨rfl, hhead, hroom⟩ := hp.room_remaining hops₀ hremaining hinsert
      rw [sessions_advance hmoves hprogram]
      exact ⟨hhead, hroom⟩
    | io r | other t => exact unchanged hops (smaller rfl hprogram nofun)
  | @escape thread throws s op rest hprogram hremaining =>
    have hthrow := mayThrow_of_remaining hremaining
    have hhandling : ((v.exec s op).escape thread).handling = v.handling := by
      cases thread <;> rfl
    refine unchanged (hhandling ▸ hops) ?_
    rw [sessions_advance hmoves hprogram]
    refine length_mapAfter_le s v.sessions ?_
    rintro rfl
    cases hthrow
  | change | callClose => exact unchanged hops (Nat.le_refl _)

theorem Placed.closing_step (hp : v.Placed) (h : Moves e v l v') {thread : ServerThread} {s : Nat}
    {ops : List SessionOp} {c' : Session} (hprogram : v'.program thread = some (s, ops))
    (hmid : Session.midClose ops = true) (hc' : v'.created[s]? = some c') :
    c'.closeCalled = true := by
  obtain hsame | ⟨op, rest, throws, hl, hbefore, hremaining⟩ | henters :=
    comes_of_program h hprogram
  · obtain ⟨hs, -⟩ | ⟨c, hc, hbecomes⟩ := session_cases h hc'
    · exact absurd (hp.programs_known thread s ops hsame) (by omega)
    · exact hbecomes.closeCalled (hp.closing thread s ops c hsame hmid hc)
  · obtain ⟨hs, -⟩ | ⟨c, hc, hbecomes⟩ := session_cases h hc'
    · exact absurd (hp.programs_known thread s _ hbefore) (by omega)
    · have keeps : Session.midClose (op :: rest) = true → c'.closeCalled = true := fun hmid =>
        hbecomes.closeCalled (hp.closing thread s _ c hbefore hmid hc)
      have hrest : Session.midClose rest = true := by
        obtain rfl | ⟨-, -, rfl⟩ | ⟨-, -, rfl⟩ | ⟨-, -, hunwind⟩ := remaining_cases hremaining
        · exact hmid
        · cases hmid
        · exact hmid
        · obtain ⟨-, after, -, rfl⟩ := unwind_eq hunwind
          cases hmid
      obtain hop | hmid := @Session.midClose_cons op rest hrest
      · subst hl hop
        rw [created_advance h hbefore hremaining, List.getElem?_modify_eq, hc] at hc'
        cases hc'
        cases thread <;> rfl
      · exact keeps hmid
  · cases henters with
    | start | refused | idle | handleWrite | call => cases hmid
    | handleRead kind outcome => cases kind <;> cases outcome <;> cases hmid

theorem Placed.whole_step (hp : v.Placed) (h : Moves e v l v') {thread : ServerThread} {s : Nat}
    {ops : List SessionOp} (hprogram : v'.program thread = some (s, ops)) :
    Session.closesWhole ops = true := by
  obtain hsame | ⟨op, rest, throws, -, hbefore, hremaining⟩ | henters :=
    comes_of_program h hprogram
  · exact hp.whole thread s ops hsame
  · have hrest := Session.closesWhole_cons (hp.whole thread s _ hbefore)
    obtain rfl | ⟨-, -, rfl⟩ | ⟨-, -, rfl⟩ | ⟨-, -, hunwind⟩ := remaining_cases hremaining
    · exact hrest
    · exact hrest
    · exact hrest
    · obtain ⟨skipped, after, rfl, rfl⟩ := unwind_eq hunwind
      have hafter : Session.closesWhole after = true :=
        Session.closesWhole_cons (Session.closesWhole_append hrest)
      exact hafter
  · cases henters with
    | start | refused | idle | handleWrite | call => rfl
    | handleRead kind outcome => cases kind <;> cases outcome <;> rfl

theorem Placed.calls_step (hp : v.Placed) (h : Moves e v l v') {t s : Nat}
    {ops : List SessionOp} (hprogram : v'.program (.other t) = some (s, ops)) :
    ops <:+ Session.close := by
  obtain hsame | ⟨op, rest, throws, -, hbefore, hremaining⟩ | henters :=
    comes_of_program h hprogram
  · exact hp.calls t s ops hsame
  · have hsuffix := hp.calls t s _ hbefore
    have hops : ops = rest := by
      obtain rfl | ⟨rfl, -, -⟩ | ⟨rfl, -, -⟩ | ⟨-, -, hunwind⟩ := remaining_cases hremaining
      · rfl
      · exact absurd (hsuffix.subset (List.mem_cons_self ..)) (by decide)
      · exact absurd (hsuffix.subset (List.mem_cons_self ..)) (by decide)
      · -- a call of `Close` is in no `try`
        obtain ⟨skipped, after, rfl, -⟩ := unwind_eq hunwind
        refine absurd (hsuffix.subset (List.mem_cons_of_mem _ ?_)) (by decide : .endTry ∉ _)
        exact List.mem_append_right _ (List.mem_cons_self ..)
    rw [hops]
    exact (List.suffix_cons _ _).trans hsuffix
  · cases henters with
    | call => exact List.suffix_rfl

theorem Placed.step (hp : v.Placed) (h : Moves e v l v') : v'.Placed where
  bounded := hp.bounded_step h
  known := hp.known_step h
  programs_known _ _ _ := hp.programs_known_step h
  admits_le _ _ _ := hp.admits_le_step h
  room _ := hp.room_step h
  closing _ _ _ _ := hp.closing_step h
  whole _ _ _ := hp.whole_step h
  calls _ _ _ := hp.calls_step h

end Step

/-! ## Who is in the map -/

/-- An admitted session stays in the map until it is closed. -/
def Kept (v : Server) : Prop :=
  ∀ (s : Nat) c, v.created[s]? = some c → c.admitted = true → c.closeCalled = false →
    s ∈ v.sessions

/-- A closed session has been removed, or somebody still has to carry out its `RemoveSession`. -/
def Leaving (v : Server) : Prop :=
  ∀ (s : Nat) c, v.created[s]? = some c → c.closeCalled = true →
    c.removed = true ∨ ∃ thread ops, v.program thread = some (s, ops) ∧ .removeSession ∈ ops

/-- A session that was removed is not in the map. -/
def Gone (v : Server) : Prop :=
  ∀ (s : Nat) c, v.created[s]? = some c → c.removed = true → s ∉ v.sessions

section Members

variable {e : Endian} {v v' : Server} {l : ServerLabel}

theorem Kept.step (hk : v.Kept) (hp : v.Placed) (h : Moves e v l v') : v'.Kept := by
  intro s c' hc' hadmitted hopen
  obtain ⟨-, rfl⟩ | ⟨c, hc, hbecomes⟩ := session_cases h hc'
  · cases hadmitted
  have hopen' : c.closeCalled = false := by
    cases hcalled : c.closeCalled with
    | false => rfl
    | true =>
      rw [hbecomes.closeCalled hcalled] at hopen
      cases hopen
  obtain hbefore | ⟨thread, throws, rest, rfl, hprogram⟩ := hbecomes.admitted hadmitted
  · have hmem := hk s c hc hbefore hopen'
    obtain ⟨thread, throws, r, op, rest, -, hprogram, hsessions⟩ | hsessions := sessions_cases h
    · rw [hsessions]
      refine mem_mapAfter hmem ?_
      rintro rfl rfl
      -- only a `Close` that has begun removes the session
      have := hp.closing thread r _ c hprogram rfl hc
      rw [hopen'] at this
      cases this
    · rw [hsessions]
      exact hmem
  · rw [sessions_advance h hprogram]
    exact mem_mapAfter_insert s v.sessions

/-- A `RemoveSession` that a thread still has to carry out is kept, or carried out. -/
theorem removeSession_step (hp : v.Placed) (h : Moves e v l v') {thread : ServerThread} {s : Nat}
    {ops : List SessionOp} {c' : Session} (hprogram : v.program thread = some (s, ops))
    (hmem : .removeSession ∈ ops) (hc' : v'.created[s]? = some c') :
    c'.removed = true ∨ ∃ ops', v'.program thread = some (s, ops') ∧ .removeSession ∈ ops' := by
  cases ops with
  | nil => cases hmem
  | cons op rest =>
    by_cases hl : ∀ throws, l ≠ .advance thread throws
    · exact .inr ⟨_, program_stays h hprogram hl, hmem⟩
    obtain ⟨throws, hl⟩ := Classical.not_forall.mp hl
    obtain rfl := Classical.not_not.mp hl
    cases hremaining : v.remaining op throws rest with
    | none =>
      have hthrow := mayThrow_of_remaining hremaining
      refine .inr ⟨_, program_escape h hprogram hremaining ?_, hmem⟩
      rintro t rfl
      exact Session.removeSession_of_mayThrow (hp.calls t s _ hprogram) hthrow hmem
    | some ops' =>
      by_cases hop : op = .removeSession
      · subst hop
        rw [created_advance h hprogram hremaining, List.getElem?_modify] at hc'
        obtain ⟨c, -, rfl⟩ := Option.map_eq_some_iff.mp hc'
        rw [if_pos rfl]
        cases thread <;> exact .inl rfl
      · have hrest : .removeSession ∈ rest :=
          (List.mem_cons.mp hmem).resolve_left (Ne.symm hop)
        have hclose : SessionOp.removeSession ∈ Session.close := by decide
        have hops' : .removeSession ∈ ops' := by
          obtain rfl | ⟨-, -, rfl⟩ | ⟨-, -, rfl⟩ | ⟨-, -, hunwind⟩ := remaining_cases hremaining
          · exact hrest
          · exact List.mem_append_left _ hclose
          · exact List.mem_cons_of_mem _ hrest
          · obtain ⟨-, after, -, rfl⟩ := unwind_eq hunwind
            exact List.mem_append_left _ hclose
        exact .inr ⟨ops', program_advance h hprogram hremaining (List.ne_nil_of_mem hops'), hops'⟩

theorem Leaving.step (hv : v.Leaving) (hp : v.Placed) (h : Moves e v l v') : v'.Leaving := by
  intro s c' hc' hclosed
  obtain ⟨-, rfl⟩ | ⟨c, hc, hbecomes⟩ := session_cases h hc'
  · cases hclosed
  obtain hbefore | ⟨thread, throws, rest, rfl, hprogram⟩ := hbecomes.of_closeCalled hclosed
  · obtain hremoved | ⟨thread, ops, hprogram, hmem⟩ := hv s c hc hbefore
    · exact .inl (hbecomes.stays_removed hremoved)
    · obtain hremoved | ⟨ops', hprogram', hmem'⟩ := removeSession_step hp h hprogram hmem hc'
      · exact .inl hremoved
      · exact .inr ⟨thread, ops', hprogram', hmem'⟩
  · have hwhole := hp.whole thread s _ hprogram
    rw [Session.closesWhole, Bool.and_eq_true, List.contains_iff_mem] at hwhole
    have hremaining : v.remaining .setClosed throws rest = some rest :=
      remaining_eq rest nofun (Bool.and_false _)
    exact .inr ⟨thread, rest,
      program_advance h hprogram hremaining (List.ne_nil_of_mem hwhole.1), hwhole.1⟩

theorem Gone.step (hg : v.Gone) (hok : v.insertedInTime l = true)
    (h : Moves e v l v') : v'.Gone := by
  intro s c' hc' hremoved hmem
  obtain ⟨hs, rfl⟩ | ⟨c, hc, hbecomes⟩ := session_cases h hc'
  · cases hremoved
  have hbefore : c.removed = true → s ∉ v.sessions := hg s c hc
  obtain ⟨thread, throws, r, op, rest, rfl, hprogram, hsessions⟩ | hsessions := sessions_cases h
  · rw [hsessions] at hmem
    obtain ⟨hkept, hin | ⟨rfl, rfl⟩⟩ := of_mem_mapAfter hmem
    · obtain hwas | ⟨thread', throws', rest', hl, hprogram'⟩ := hbecomes.removed hremoved
      · exact hbefore hwas hin
      · cases hl
        rw [hprogram] at hprogram'
        cases hprogram'
        exact hkept.elim (fun hne => hne rfl) fun hne => hne rfl
    · obtain hwas | ⟨thread', throws', rest', hl, hprogram'⟩ := hbecomes.removed hremoved
      · -- the insertion comes in time: the session has not been removed
        simp only [insertedInTime, hprogram, hc, Option.all_some, hwas, Bool.not_true,
          Bool.false_eq_true] at hok
      · cases hl
        rw [hprogram] at hprogram'
        cases hprogram'
  · obtain hwas | ⟨thread', throws', rest', rfl, hprogram'⟩ := hbecomes.removed hremoved
    · rw [hsessions] at hmem
      exact hbefore hwas hmem
    · rw [sessions_advance h hprogram'] at hmem
      obtain ⟨hkept, -⟩ := of_mem_mapAfter hmem
      exact hkept.elim (fun hne => hne rfl) fun hne => hne rfl

end Members

/-- Every invariant of the map at once, for the run that the condition restricts. -/
structure Managed (v : Server) : Prop where
  placed : v.Placed
  kept : v.Kept
  leaving : v.Leaving
  gone : v.Gone

theorem managed_new (maxSessionCount others : Nat) : (new maxSessionCount others).Managed := by
  have hfresh : ∀ (s : Nat) c, (new maxSessionCount others).created[s]? = some c →
      c = Session.new := fun s c hc => List.mem_singleton.mp (List.mem_of_getElem? hc)
  refine ⟨placed_new maxSessionCount others, ?_, ?_, ?_⟩
  · intro s c hc hadmitted
    cases hfresh s c hc
    cases hadmitted
  · intro s c hc hclosed
    cases hfresh s c hc
    cases hclosed
  · intro s c hc hremoved
    cases hfresh s c hc
    cases hremoved

theorem managed_of_reachable {e : Endian} {v : Server}
    (h : (machine e).ReachableBy (fun v l => v.insertedInTime l = true) v) : v.Managed :=
  h.invariant (fun _ ⟨maxSessionCount, others, hv⟩ => hv ▸ managed_new maxSessionCount others)
    fun _ _ _ ⟨hp, hk, hv, hg⟩ hok hstep =>
      have hmoves := moves_of_step hstep
      ⟨hp.step hmoves, hk.step hp hmoves, hv.step hp hmoves, hg.step hok hmoves⟩

/-- The map in every run in which sessions are inserted in time, for any limit and any sessions
and threads: it keeps its limit; an admitted session that nobody has closed is in it; and a closed
one whose `Start` has returned is not, unless a `Close` of it has still to remove it. -/
theorem sessions_of_reachable (e : Endian) {v : Server}
    (h : (machine e).ReachableBy (fun v l => v.insertedInTime l = true) v) :
    v.sessions.length ≤ v.maxSessionCount ∧
    (∀ (s : Nat) c, v.created[s]? = some c → c.admitted = true → c.closeCalled = false →
      s ∈ v.sessions) ∧
    ∀ (s : Nat) c, v.created[s]? = some c → c.closeCalled = true → c.startReturned = true →
      s ∉ v.sessions ∨
        ∃ thread ops, v.program thread = some (s, ops) ∧ .removeSession ∈ ops := by
  have hm := managed_of_reachable h
  refine ⟨hm.placed.bounded, hm.kept, fun s c hc hclosed _ => ?_⟩
  exact (hm.leaving s c hc hclosed).imp_left (hm.gone s c hc)

/-- Two sessions connect and the first is closed again by its read. -/
theorem sessions_of_reachable_two :
    ∃ v, (machine .little).run (new 2 0)
        ([.accept true] ++ List.replicate 7 (.advance .acceptor false) ++ [.startAccept,
          .accept true] ++ List.replicate 7 (.advance .acceptor false) ++ [.startAccept,
          .completeRead 0 .error] ++ List.replicate 6 (.advance (.io 0) false)) = some v ∧
      v.sessions = [1] ∧ v.sessions.length ≤ v.maxSessionCount := by
  have hrun : (machine .little).run (new 2 0)
      ([.accept true] ++ List.replicate 7 (.advance .acceptor false) ++ [.startAccept,
        .accept true] ++ List.replicate 7 (.advance .acceptor false) ++ [.startAccept,
        .completeRead 0 .error] ++ List.replicate 6 (.advance (.io 0) false)) = some _ := rfl
  refine ⟨_, hrun, by decide, (sessions_of_reachable .little ?_).1⟩
  exact .run (fun _ _ hok => hok) (.start ⟨2, 0, rfl⟩) (by decide) hrun

/-- The peer hangs up before `OnConnect`: the removal of the session comes before its insertion,
and it occupies its place from then on. -/
theorem sessions_of_early_close :
    ¬ ∀ v, (machine .little).Reachable v → ∀ (s : Nat) c, v.created[s]? = some c →
      c.closeCalled = true → c.removed = true → c.startReturned = true → s ∉ v.sessions := by
  intro h
  have hrun : (machine .little).run (new 2 0)
      ([.accept true, .advance .acceptor false, .completeRead 0 .error] ++
        List.replicate 6 (.advance (.io 0) false) ++
        List.replicate 6 (.advance .acceptor false) ++ [.startAccept]) = some _ := rfl
  have hgone := h _ (.run (.start ⟨2, 0, rfl⟩) hrun) 0 _ rfl rfl rfl rfl
  exact absurd hgone (by decide)

end Server

end DSFramework.DSCommunication
