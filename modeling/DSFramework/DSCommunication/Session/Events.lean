import DSFramework.DSCommunication.ConAcceptor

/-!
# The events of a session

What the registered handlers of one session are meant to hear: `OnConnect`, then any number of
`OnData`, then one `OnClose`. Nothing in the source keeps the two threads apart that raise them,
and `Close` has no guard. `orderly` collects, for one session, the steps that must not happen:
a read that ends while `OnConnect` has not been raised, and every `Close` but that of a read
handler.

Under it a session goes through the phases of `Phase`, and its read chain through those of
`Chain`, which says what has been raised and what is about to be.
-/

namespace DSFramework.DSCommunication

namespace Session

/-- The order of the events of one session. -/
def InOrder (events : List Event) : Prop :=
  ∃ n, events <+: .onConnect :: (List.replicate n .onData ++ [.onClose])

/-- The events of a connected session after `n` bodies, with or without the last. -/
def raised (n : Nat) (closed : Bool) : List Event :=
  .onConnect :: (List.replicate n .onData ++ if closed then [.onClose] else [])

theorem inOrder_nil : InOrder [] := ⟨0, List.nil_prefix⟩

theorem inOrder_raised (n : Nat) (closed : Bool) : InOrder (raised n closed) := by
  refine ⟨n, ?_⟩
  cases closed with
  | true => exact List.prefix_rfl
  | false =>
    simp only [raised, Bool.false_eq_true, if_false, List.append_nil, List.cons_prefix_cons,
      true_and]
    exact List.prefix_append _ _

theorem raised_onData (n : Nat) : raised n false ++ [.onData] = raised (n + 1) false := by
  simp only [raised, Bool.false_eq_true, if_false, List.append_nil, List.cons_append,
    List.replicate_succ']

theorem raised_onClose (n : Nat) : raised n false ++ [.onClose] = raised n true := by
  simp only [raised, Bool.false_eq_true, if_false, if_true, List.append_nil, List.cons_append]

/-- Where the read chain stands: the outstanding read, what its handler has left, whether
`OnClose` has been raised, and whether the handler at work raises an event at all. -/
inductive Chain : Option PendingRead → List SessionOp → Bool → Bool → Prop where
  | waiting (read : PendingRead) : Chain (some read) [] false false
  | posted (read : PendingRead) : Chain (some read) [.endTry] false false
  | body : Chain none [.asyncReadBody, .endTry] false false
  | deliver : Chain none [.onData, .dataHandlers, .asyncReadHead, .endTry] false true
  | delivered : Chain none [.dataHandlers, .asyncReadHead, .endTry] false true
  | again : Chain none [.asyncReadHead, .endTry] false true
  | closing {ops tail : List SessionOp} : ops <:+ close → tail = [] ∨ tail = [.endTry] →
      Chain none (ops ++ tail) (!ops.contains .onClose) true

/-- The chain does not look into the outstanding read. -/
theorem Chain.read {read : PendingRead} {ops : List SessionOp} {closed loud : Bool}
    (h : Chain (some read) ops closed loud) (read' : PendingRead) :
    Chain (some read') ops closed loud := by
  cases h with
  | waiting => exact .waiting read'
  | posted => exact .posted read'

/-- The handlers of a read take the chain on. Only a good head is followed by no event. -/
theorem chain_handleRead (kind : ReadKind) (outcome : ReadOutcome) :
    Chain none (handleRead kind outcome) false (!(kind == .head && outcome == .success)) := by
  have hclose : Chain none (close ++ [.endTry]) (!close.contains .onClose) true :=
    .closing List.suffix_rfl (.inr rfl)
  cases kind <;> cases outcome <;> first | exact .body | exact .deliver | exact hclose

end Session

namespace Server

/-- The condition on a step, for session `s`: no read of it ends in an event before `OnConnect`
has been raised, and nobody but its read handlers calls `Close`, from which nothing is thrown. -/
def orderly (s : Nat) (v : Server) : ServerLabel → Bool
  | .advance thread throws => match v.program thread with
    | some (r, op :: _) => r != s || (match op with
      | .addSession => decide (v.sessions.length < v.maxSessionCount)
      | .connectHandlers | .closeHandlers | .closeSocket => !throws
      | _ => true)
    | _ => true
  | .completeRead r outcome => r != s || (v.created[s]?).all fun c =>
      c.events.contains .onConnect || c.read.any (·.kind == .head) && outcome == .success
  | .completeWrite r _ success => r != s || success
  | .callClose _ r => r != s
  | _ => true

/-- What an operation of the read chain has to keep: the chain goes on to `ops`; a handler that
raises no event stays so; and the events stay in order. -/
def GoesOn (c : Session) (op : SessionOp) (ops : List SessionOp) (closed loud : Bool) : Prop :=
  ∃ closed' loud', Session.Chain (c.exec op).read ops closed' loud' ∧
    (loud = false → loud' = false ∧ closed' = closed ∧ (c.exec op).events = c.events) ∧
    ∀ n, c.events = Session.raised n closed → ∃ n', (c.exec op).events = Session.raised n' closed'

/-- An operation that raises nothing. -/
theorem GoesOn.quietly {c : Session} {op : SessionOp} {ops : List SessionOp}
    {closed loud loud' : Bool}
    (h : Session.Chain (c.exec op).read ops closed loud') (hloud : loud = false → loud' = false)
    (hevents : (c.exec op).events = c.events) : GoesOn c op ops closed loud :=
  ⟨closed, loud', h, fun hl => ⟨hloud hl, rfl, hevents⟩, fun n hn => ⟨n, hevents.trans hn⟩⟩

/-- The operations of a `Close` by a read handler: `OnClose` is raised by one of them. -/
theorem goesOn_close {c : Session} {op : SessionOp} {rest ops tail : List SessionOp}
    (hread : c.read = none) (hops : ops <:+ Session.close) (htail : tail = [] ∨ tail = [.endTry])
    (hprogram : ops ++ tail = op :: rest) : GoesOn c op rest (!ops.contains .onClose) true := by
  cases ops with
  | nil =>
    obtain rfl | rfl := htail
    · cases hprogram
    · cases hprogram
      have hdone : Session.Chain none ([] ++ []) (!([] : List SessionOp).contains .onClose) true :=
        .closing List.nil_suffix (.inl rfl)
      exact .quietly (hread ▸ hdone) (fun hl => hl) rfl
  | cons x xs =>
    cases hprogram
    have hxs : xs <:+ Session.close := (List.suffix_cons _ _).trans hops
    have hchain : Session.Chain none (xs ++ tail) (!xs.contains .onClose) true :=
      .closing hxs htail
    simp only [Session.close, List.suffix_cons_iff, List.suffix_nil, List.cons.injEq,
      reduceCtorEq, or_false] at hops
    obtain ⟨rfl, rfl⟩ | ⟨rfl, rfl⟩ | ⟨rfl, rfl⟩ | ⟨rfl, rfl⟩ | ⟨rfl, rfl⟩ := hops
    · exact .quietly (hread ▸ hchain) (fun hl => hl) rfl
    · refine ⟨true, true, hread ▸ hchain, nofun, fun n hn => ⟨n, ?_⟩⟩
      exact (congrArg (· ++ [Event.onClose]) hn).trans (Session.raised_onClose n)
    · exact .quietly (hread ▸ hchain) (fun hl => hl) rfl
    · exact .quietly (hread ▸ hchain) (fun hl => hl) rfl
    · exact .quietly (hread ▸ hchain) (fun hl => hl) rfl

/-- Carrying out one operation, the read chain goes on. -/
theorem goesOn_of_chain {v : Server} {c : Session} {op : SessionOp} {throws closed loud : Bool}
    {rest ops : List SessionOp} (h : Session.Chain c.read (op :: rest) closed loud)
    (hremaining : v.remaining op throws rest = some ops)
    (hthrows : (throws && op.mayThrow) = true → op = .dataHandlers) :
    GoesOn c op ops closed loud := by
  generalize hread : c.read = read at h
  generalize hprogram : op :: rest = program at h
  cases h with
  | waiting => cases hprogram
  | posted =>
    cases hprogram
    obtain rfl := eq_of_remaining hremaining nofun (Bool.and_false _)
    exact .quietly (hread ▸ .waiting _) (fun hl => hl) rfl
  | body =>
    cases hprogram
    obtain rfl := eq_of_remaining hremaining nofun (Bool.and_false _)
    exact .quietly (.posted _) (fun hl => hl) rfl
  | deliver =>
    cases hprogram
    obtain rfl := eq_of_remaining hremaining nofun (Bool.and_false _)
    refine ⟨false, true, hread ▸ .delivered, nofun, fun n hn => ⟨n + 1, ?_⟩⟩
    exact (congrArg (· ++ [Event.onData]) hn).trans (Session.raised_onData n)
  | delivered =>
    cases hprogram
    cases throws with
    | false =>
      cases hremaining
      exact .quietly (hread ▸ .again) (fun hl => hl) rfl
    | true =>
      -- a data handler throws: the `catch` of `HandleBodyRead` closes
      cases hremaining
      have hclose : Session.Chain none (Session.close ++ [])
          (!Session.close.contains .onClose) true := .closing List.suffix_rfl (.inl rfl)
      exact .quietly (hread ▸ hclose) (fun hl => hl) rfl
  | again =>
    cases hprogram
    obtain rfl := eq_of_remaining hremaining nofun (Bool.and_false _)
    exact .quietly (.posted _) (fun _ => rfl) rfl
  | @closing ops₀ tail hops htail =>
    have hmember : op ∈ Session.close ++ [.endTry] := by
      have hop : op ∈ ops₀ ++ tail := hprogram ▸ List.mem_cons_self ..
      obtain hop | hop := List.mem_append.mp hop
      · exact List.mem_append_left _ (hops.subset hop)
      · obtain rfl | rfl := htail
        · cases hop
        · exact List.mem_append_right _ hop
    have hquiet : (throws && op.mayThrow) = false := by
      cases hthrow : throws && op.mayThrow with
      | false => rfl
      | true =>
        rw [hthrows hthrow] at hmember
        exact absurd hmember (by decide)
    have hadd : op ≠ .addSession := by
      rintro rfl
      exact absurd hmember (by decide)
    obtain rfl := eq_of_remaining hremaining hadd hquiet
    exact goesOn_close hread hops htail hprogram.symm

/-! ## The phases of a session -/

/-- What the acceptor can have left of `Start` after `OnConnect` has been raised. -/
def AfterConnect (ops : List SessionOp) : Prop :=
  ops = [.insertSession, .connectHandlers, .setOpen, .endTry] ∨
    ops <:+ [.addSession, .connectHandlers, .setOpen, .endTry]

/-- Where the acceptor is with session `s`: nowhere, waiting for its connection, or inside
`HandleAccept`. -/
def position (v : Server) (s : Nat) : Option (Option (List SessionOp)) :=
  if v.accepting = s then some v.handling else none

/-- The life of a session, by where the acceptor is with it. -/
inductive Phase (position : Option (Option (List SessionOp))) (c : Session) : Prop where
  | refused : c.accepted = false → position ≠ some none → Phase position c
  | waiting : position = some none → c.read = none → c.io = [] → c.events = [] → Phase position c
  | starting : position = some (some Session.start) → c.read = none → c.io = [] → c.events = [] →
      Phase position c
  | connecting : position = some (some Session.start.tail) →
      Session.Chain c.read c.io false false → c.events = [] → Phase position c
  | connected {n : Nat} {closed loud : Bool} :
      (∀ left, position = some left → ∃ ops, left = some ops ∧ AfterConnect ops) →
      Session.Chain c.read c.io closed loud → c.events = Session.raised n closed →
      Phase position c

section Phase

variable {v : Server} {c c' : Session} {at' : Option (Option (List SessionOp))}

/-- A phase only looks at these fields. -/
theorem Phase.of_eq (h : Phase at' c) (haccepted : c'.accepted = c.accepted)
    (hread : c'.read = c.read) (hio : c'.io = c.io) (hevents : c'.events = c.events) :
    Phase at' c' := by
  cases h with
  | refused h₁ h₂ => exact .refused (haccepted.trans h₁) h₂
  | waiting h₁ h₂ h₃ h₄ =>
    exact .waiting h₁ (hread.trans h₂) (hio.trans h₃) (hevents.trans h₄)
  | starting h₁ h₂ h₃ h₄ =>
    exact .starting h₁ (hread.trans h₂) (hio.trans h₃) (hevents.trans h₄)
  | connecting h₁ h₂ h₃ => exact .connecting h₁ (by rwa [hread, hio]) (hevents.trans h₃)
  | connected h₁ h₂ h₃ => exact .connected h₁ (by rwa [hread, hio]) (hevents.trans h₃)

/-- The events of an accepted session are in order. -/
theorem Phase.inOrder (h : Phase at' c) (haccepted : c.accepted = true) :
    Session.InOrder c.events := by
  cases h with
  | refused h => rw [haccepted] at h; cases h
  | waiting _ _ _ h | starting _ _ _ h | connecting _ _ h => rw [h]; exact Session.inOrder_nil
  | connected _ _ h => rw [h]; exact Session.inOrder_raised _ _

/-- The acceptor is done with the session. -/
theorem Phase.leave (h : Phase (some (some [])) c) : Phase none c := by
  cases h with
  | refused h => exact .refused h nofun
  | waiting h | starting h | connecting h => cases h
  | connected _ hchain hevents => exact .connected nofun hchain hevents

/-- The acceptor carries out its next operation for the session. -/
theorem Phase.acceptor {op : SessionOp} {rest ops : List SessionOp} {throws : Bool}
    (h : Phase (some (some (op :: rest))) c) (hremaining : v.remaining op throws rest = some ops)
    (hroom : op = .addSession → v.sessions.length < v.maxSessionCount)
    (hthrows : (throws && op.mayThrow) = true → op = .dataHandlers) :
    Phase (some (some ops)) (c.exec op) := by
  have accepted : (c.exec op).accepted = c.accepted := by cases op <;> rfl
  cases h with
  | refused h => exact .refused (accepted.trans h) (by simp)
  | waiting h => cases h
  | starting hat hread hio hevents =>
    cases hat
    obtain rfl := eq_of_remaining hremaining (by simp) (Bool.and_false _)
    exact .connecting rfl (hio ▸ .waiting _) hevents
  | connecting hat hchain hevents =>
    cases hat
    obtain rfl := eq_of_remaining hremaining (by simp) (Bool.and_false _)
    refine .connected (n := 0) ?_ hchain (congrArg (· ++ [Event.onConnect]) hevents)
    rintro _ ⟨⟩
    exact ⟨_, rfl, .inr List.suffix_rfl⟩
  | connected hat hchain hevents =>
    obtain ⟨_, ⟨⟩, hops⟩ := hat _ rfl
    suffices hafter : AfterConnect ops ∧ (c.exec op).read = c.read ∧
        (c.exec op).events = c.events by
      refine .connected ?_ (by rw [hafter.2.1, io_exec]; exact hchain) (hafter.2.2.trans hevents)
      rintro _ ⟨⟩
      exact ⟨_, rfl, hafter.1⟩
    have hquiet : op ≠ .dataHandlers → (throws && op.mayThrow) = false := fun hop => by
      cases hthrow : throws && op.mayThrow with
      | false => rfl
      | true => exact absurd (hthrows hthrow) hop
    simp only [AfterConnect, List.suffix_cons_iff, List.suffix_nil, List.cons.injEq,
      reduceCtorEq, or_false] at hops
    obtain ⟨rfl, rfl⟩ | ⟨rfl, rfl⟩ | ⟨rfl, rfl⟩ | ⟨rfl, rfl⟩ | ⟨rfl, rfl⟩ := hops
    · obtain rfl := eq_of_remaining hremaining (by simp) (hquiet (by simp))
      exact ⟨.inr (List.suffix_cons _ _), rfl, rfl⟩
    · have hle := Nat.not_le.mpr (hroom rfl)
      simp only [remaining, if_neg hle, Option.some.injEq] at hremaining
      exact ⟨.inl hremaining.symm, rfl, rfl⟩
    · obtain rfl := eq_of_remaining hremaining (by simp) (hquiet (by simp))
      exact ⟨.inr ⟨[_, _], rfl⟩, rfl, rfl⟩
    · obtain rfl := eq_of_remaining hremaining (by simp) (hquiet (by simp))
      exact ⟨.inr ⟨[_, _, _], rfl⟩, rfl, rfl⟩
    · obtain rfl := eq_of_remaining hremaining (by simp) (hquiet (by simp))
      exact ⟨.inr ⟨[_, _, _, _], rfl⟩, rfl, rfl⟩

/-- The I/O thread carries out its next operation for the session. -/
theorem Phase.io {op : SessionOp} {rest ops : List SessionOp} {throws : Bool}
    (h : Phase at' c) (hio : c.io = op :: rest) (hremaining : v.remaining op throws rest = some ops)
    (hthrows : (throws && op.mayThrow) = true → op = .dataHandlers) :
    Phase at' { c.exec op with io := ops } := by
  have accepted : (c.exec op).accepted = c.accepted := by cases op <;> rfl
  cases h with
  | refused h hat => exact .refused (accepted.trans h) hat
  | waiting _ _ hidle | starting _ _ hidle => rw [hio] at hidle; cases hidle
  | connecting hat hchain hevents =>
    rw [hio] at hchain
    obtain ⟨closed', loud', hchain', hquiet, -⟩ := goesOn_of_chain hchain hremaining hthrows
    obtain ⟨rfl, rfl, hsame⟩ := hquiet rfl
    exact .connecting hat hchain' (hsame.trans hevents)
  | connected hat hchain hevents =>
    rw [hio] at hchain
    obtain ⟨closed', loud', hchain', -, hraised⟩ := goesOn_of_chain hchain hremaining hthrows
    obtain ⟨n', hevents'⟩ := hraised _ hevents
    exact .connected hat hchain' hevents'

/-- The outstanding read is due. -/
theorem Phase.due {read : PendingRead} (h : Phase at' c) (hread : c.read = some read) :
    Phase at' { c with read := some { read with due := true } } := by
  cases h with
  | refused h hat => exact .refused h hat
  | waiting _ hnone | starting _ hnone => rw [hread] at hnone; cases hnone
  | connecting hat hchain hevents =>
    rw [hread] at hchain
    exact .connecting hat (hchain.read _) hevents
  | connected hat hchain hevents =>
    rw [hread] at hchain
    exact .connected hat (hchain.read _) hevents

/-- The outstanding read completes. -/
theorem Phase.completeRead {read : PendingRead} {outcome : ReadOutcome} (h : Phase at' c)
    (hread : c.read = some read) (hio : c.io = [])
    (hearly : c.events = [] → (read.kind == .head && outcome == .success) = true) :
    Phase at' { c with read := none, io := Session.handleRead read.kind outcome } := by
  have hhandler := Session.chain_handleRead read.kind outcome
  cases h with
  | refused h hat => exact .refused h hat
  | waiting _ hnone | starting _ hnone => rw [hread] at hnone; cases hnone
  | connecting hat hchain hevents =>
    rw [hearly hevents] at hhandler
    exact .connecting hat hhandler hevents
  | connected hat hchain hevents =>
    rw [hread, hio] at hchain
    cases hchain
    exact .connected hat hhandler hevents

end Phase

/-! ## The phases through a run -/

/-- Session `s` is in a phase, and no other thread calls `Close` on it. -/
structure Undisturbed (s : Nat) (v : Server) : Prop where
  phase : ∀ c, v.created[s]? = some c → Phase (v.position s) c
  calls : ∀ t ops, v.program (.other t) ≠ some (s, ops)

section Step

variable {e : Endian} {v v' : Server} {l : ServerLabel} {s : Nat}

theorem undisturbed_new (s maxSessionCount others : Nat) :
    (new maxSessionCount others).Undisturbed s where
  phase c hc := by
    match s, hc with
    | 0, hc => cases hc; exact .waiting rfl rfl rfl rfl
  calls t ops h := by
    have hcall := Option.join_eq_some_iff.mp h
    cases (List.mem_replicate.mp (List.mem_of_getElem? hcall)).2

theorem Undisturbed.calls_step (h : v.Undisturbed s) (hok : v.orderly s l = true)
    (hmoves : Moves e v l v') (t : Nat) (ops : List SessionOp) :
    v'.program (.other t) ≠ some (s, ops) := by
  intro hprogram
  obtain hsame | ⟨op, rest, throws, -, hbefore, -⟩ | henters := comes_of_program hmoves hprogram
  · exact h.calls t ops hsame
  · exact h.calls t _ hbefore
  · cases henters with
    | call hl => simp [hl, orderly] at hok

/-- What the condition says about an operation that is carried out for the session. -/
theorem throws_of_orderly {thread : ServerThread} {throws : Bool} {op : SessionOp}
    {rest : List SessionOp} (hok : v.orderly s (.advance thread throws) = true)
    (hprogram : v.program thread = some (s, op :: rest)) :
    (op = .addSession → v.sessions.length < v.maxSessionCount) ∧
      ((throws && op.mayThrow) = true → op = .dataHandlers) := by
  simp only [orderly, hprogram, bne_self_eq_false, Bool.false_or] at hok
  refine ⟨?_, fun hthrow => ?_⟩
  · rintro rfl
    simpa using hok
  · obtain ⟨rfl, hop⟩ := Bool.and_eq_true_iff.mp hthrow
    cases op <;> first | rfl | exact absurd hop (by decide) | exact absurd hok Bool.false_ne_true

/-- A thread that works on another session leaves this one where it was. -/
theorem position_resume_ne {r : Nat} {op : SessionOp} {rest ops : List SessionOp}
    {thread : ServerThread} (hprogram : v.program thread = some (r, op :: rest)) (hne : r ≠ s) :
    ((v.exec r op).resume r ops thread).position s = v.position s := by
  cases thread with
  | acceptor =>
    obtain ⟨ops₀, -, heq⟩ := Option.map_eq_some_iff.mp hprogram
    cases heq
    exact (if_neg hne).trans (if_neg hne).symm
  | io r' | other t => rfl

/-- The steps of the session's own record. -/
theorem Phase.changes {at' : Option (Option (List SessionOp))} {c c' : Session}
    (h : Phase at' c) (hok : v.orderly s l = true) (hc : v.created[s]? = some c)
    (hchange : Changes e c l s c') : Phase at' c' := by
  cases hchange with
  | writeDue | send | acquire | release => exact h.of_eq rfl rfl rfl rfl
  | readDue hread => exact h.due hread
  | completeRead hread hio =>
    apply h.completeRead hread hio
    intro hevents
    simpa [orderly, hc, hevents, hread] using hok
  | @completeWrite _ _ success writer hio =>
    have hsuccess : success = true := by
      simpa [orderly] using hok
    rw [hsuccess]
    exact h.of_eq rfl rfl hio.symm rfl

theorem Undisturbed.phase_step (h : v.Undisturbed s) (hok : v.orderly s l = true)
    (hmoves : Moves e v l v') {c' : Session} (hc' : v'.created[s]? = some c') :
    Phase (v'.position s) c' := by
  cases hmoves with
  | @accept success hwaiting =>
    obtain ⟨c, hc, ⟨hat, rfl⟩ | ⟨hat, rfl⟩⟩ := created_modify hc'
    · have hphase := h.phase c hc
      have hposition : v.position s = some none := (if_pos hat).trans (congrArg some hwaiting)
      have hposition' : (v.handleAccept success).position s =
          some (some (if success then Session.start else Session.close)) := if_pos hat
      rw [hposition] at hphase
      rw [hposition']
      cases hphase with
      | refused _ hne => exact absurd rfl hne
      | starting hne | connecting hne => cases hne
      | connected hne => obtain ⟨_, ⟨⟩, -⟩ := hne _ rfl
      | waiting _ hread hio hevents =>
        cases success with
        | true => exact .starting rfl hread hio hevents
        | false => exact .refused rfl nofun
    · have hphase := h.phase c' hc
      have hposition : v.position s = none := if_neg hat
      have hposition' : (v.handleAccept success).position s = none := if_neg hat
      rwa [hposition', ← hposition]
  | startAccept hdone =>
    obtain ⟨hs, rfl⟩ | ⟨c, hc, hbecomes⟩ := session_cases (Moves.startAccept hdone (e := e)) hc'
    · exact .waiting (if_pos ((accepting_startAccept v).trans hs.symm)) rfl rfl rfl
    · have hlt := (List.getElem?_eq_some_iff.mp hc).1
      have hposition' : v.startAccept.position s = none := by
        refine if_neg (Nat.ne_of_gt ?_)
        rwa [accepting_startAccept]
      have hphase : Phase none c := by
        have hphase := h.phase c hc
        by_cases hat : v.accepting = s
        · rw [position, if_pos hat, hdone] at hphase
          exact hphase.leave
        · rwa [position, if_neg hat] at hphase
      rw [hposition']
      cases hbecomes with
      | same => exact hphase
      | startAccept => exact hphase.of_eq rfl rfl rfl rfl
      | accept hl | advance hl | escape hl => cases hl
      | change hchange => cases hchange
  | @advance thread throws r op rest ops hprogram hremaining =>
    rw [created_resume] at hc'
    obtain ⟨c, hc, ⟨rfl, rfl⟩ | ⟨hne, rfl⟩⟩ := created_modify hc'
    · have hphase := h.phase c hc
      obtain ⟨hroom, hthrows⟩ := throws_of_orderly hok hprogram
      cases thread with
      | acceptor =>
        obtain ⟨ops₀, hops₀, heq⟩ := Option.map_eq_some_iff.mp hprogram
        cases heq
        rw [position, if_pos rfl, hops₀] at hphase
        have hposition' : ((v.exec v.accepting op).resume v.accepting ops .acceptor).position
            v.accepting = some (some ops) := if_pos rfl
        rw [hposition']
        exact hphase.acceptor hremaining hroom hthrows
      | io r' =>
        obtain ⟨c₀, hc₀, heq⟩ := Option.map_eq_some_iff.mp hprogram
        rw [Prod.mk.injEq] at heq
        obtain ⟨rfl, hio⟩ := heq
        rw [hc] at hc₀
        cases hc₀
        exact hphase.io hio hremaining hthrows
      | other t => exact absurd hprogram (h.calls t _)
    · rw [position_resume_ne hprogram hne]
      exact h.phase _ hc
  | @escape thread throws r op rest hprogram hremaining =>
    have hposition' : ((v.exec r op).escape thread).position s = v.position s := by
      cases thread <;> rfl
    rw [created_escape] at hc'
    rw [hposition']
    obtain ⟨c, hc, ⟨rfl, rfl⟩ | ⟨-, rfl⟩⟩ := created_modify hc'
    · have hthrow := mayThrow_of_remaining hremaining
      refine (h.phase c hc).of_eq ?_ ?_ ?_ ?_ <;> cases op <;> first | rfl | cases hthrow
    · exact h.phase _ hc
  | @change _ r c₀ c₁ hr hchange =>
    obtain ⟨c, hc, ⟨rfl, rfl⟩ | ⟨-, rfl⟩⟩ := created_modify hc'
    · rw [hr] at hc
      cases hc
      exact (h.phase c₀ hr).changes hok hr hchange
    · exact h.phase _ hc
  | callClose => exact h.phase c' hc'

theorem undisturbed_of_reachable
    (h : (machine e).ReachableBy (fun v l => v.orderly s l = true) v) : v.Undisturbed s :=
  h.invariant
    (fun _ ⟨maxSessionCount, others, hv⟩ => hv ▸ undisturbed_new s maxSessionCount others)
    fun _ _ _ hu hok hstep =>
      have hmoves := moves_of_step hstep
      ⟨fun _ => hu.phase_step hok hmoves, hu.calls_step hok hmoves⟩

end Step

/-- The events of every accepted session are in order in every run that is orderly for it,
whatever the other sessions and threads do. -/
theorem events_inOrder (e : Endian) {v : Server} {s : Nat} {c : Session}
    (h : (machine e).ReachableBy (fun v l => v.orderly s l = true) v)
    (hc : v.created[s]? = some c) (haccepted : c.accepted = true) : Session.InOrder c.events :=
  ((undisturbed_of_reachable h).phase c hc).inOrder haccepted

/-- A session that connects, hands on a body and is closed by the error of its next read. -/
theorem events_inOrder_one_body :
    ∃ v, (machine .little).run (new 2 0)
        ([.accept true] ++ List.replicate 7 (.advance .acceptor false) ++
          [.completeRead 0 .success, .advance (.io 0) false, .advance (.io 0) false,
            .completeRead 0 .success] ++ List.replicate 4 (.advance (.io 0) false) ++
          [.completeRead 0 .error] ++ List.replicate 6 (.advance (.io 0) false)) = some v ∧
      (v.created[0]?).map Session.events = some [.onConnect, .onData, .onClose] ∧
      ∀ c, v.created[0]? = some c → Session.InOrder c.events := by
  have hrun : (machine .little).run (new 2 0)
      ([.accept true] ++ List.replicate 7 (.advance .acceptor false) ++
        [.completeRead 0 .success, .advance (.io 0) false, .advance (.io 0) false,
          .completeRead 0 .success] ++ List.replicate 4 (.advance (.io 0) false) ++
        [.completeRead 0 .error] ++ List.replicate 6 (.advance (.io 0) false)) = some _ := rfl
  refine ⟨_, hrun, rfl, fun c hc => events_inOrder .little ?_ hc (by cases hc; rfl)⟩
  exact .run (fun _ _ hok => hok) (.start ⟨2, 0, rfl⟩) (by decide) hrun

/-- The peer hangs up at once: the I/O thread raises `OnClose` before the acceptor thread has
raised `OnConnect`. -/
theorem events_of_early_close :
    ¬ ∀ (v : Server) (s : Nat) c, (machine .little).Reachable v → v.created[s]? = some c →
      c.accepted = true → Session.InOrder c.events := by
  intro h
  have hrun : (machine .little).run (new 2 0)
      [.accept true, .advance .acceptor false, .completeRead 0 .error, .advance (.io 0) false,
        .advance (.io 0) false, .advance .acceptor false] = some _ := rfl
  obtain ⟨n, hn⟩ := h _ 0 _ (.run (.start ⟨2, 0, rfl⟩) hrun) rfl rfl
  have hhead := (List.cons_prefix_cons.mp hn).1
  cases hhead

end Server

end DSFramework.DSCommunication
