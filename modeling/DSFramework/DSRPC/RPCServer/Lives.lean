import Mathlib.Data.List.Infix
import DSFramework.DSRPC.RPCServer.Carriers
import DSFramework.Lib.Machine

/-!
# The life of a request

From the operations that are left for a request one can read off every way its history may go on,
`futures`. There are finitely many, since the server has no loop in which it keeps a request. Those
of a frame that has just been delivered are the `lives`.

`Relayed` is the invariant that everything about requests rests on: no request is in two places,
and every history, continued in any way its carrier allows, is a life. So what all beginnings of
lives have in common holds of every request in every reachable state, and is decided by going
through them.
-/

namespace DSFramework.DSRPC

/-- A request's history, or a part of one. -/
abbrev Story := List Act

/-- An act before each of the stories. -/
def after (act : Act) (stories : List Story) : List Story := stories.map (act :: ·)

/-- A response meets with room in the queue or not. -/
def posting (event : RPCEvent) (next : List Story) : List Story :=
  after (.posted event) next ++ after (.dropped event) next

/-- The stories of an event that the manager handles without forgetting the request. -/
def announcing (event : RPCEvent) (next : List Story) : List Story :=
  after (.handled event) (after (.created event) (posting event next))

/-- The stories of a terminal event. -/
def ending (event : RPCEvent) (next : List Story) : List Story :=
  after (.handled event) (after (.removed event) (after (.created event) (posting event next)))

/-- The stories of a running execute function. -/
def returning (next : List Story) : List Story :=
  after .returned (ending .onCompleted next) ++ after .threw (ending .onServiceError next) ++
    after .escaped next

/-- The stories of a task. -/
def executing (next : List Story) : List Story :=
  after .invoked (returning next) ++ after .missing (ending .onServiceError next)

/-- The stories of the check of the parameters. -/
def checking (next : List Story) : List Story :=
  after (.checked false) (ending .onServiceParameterInvalid next) ++
    after (.checked true) (after .committed (executing [[]]))

/-- The stories of `RPCProcessor::OnCommited`. -/
def processing (next : List Story) : List Story :=
  after .emptyService (ending .onServiceEmptyRequest next) ++
    after .unknownService (ending .onServiceNotFound next) ++ checking next

/-- The stories of a request in the request dispatcher's queue. -/
def dispatching : List Story := announcing .onCommited (processing [[]])

/-- Every way a request's history may go on from what is left to do for it. -/
def futures : List RPCOp → List Story
  | [] => [[]]
  | .initRPCPacket :: rest => after .assigned (futures rest)
  | .addRequest :: rest => after .added (futures rest)
  | .findRequest event :: rest => after (.handled event) (futures rest)
  | .setStatus _ _ :: rest => futures rest
  | .removeRequest event :: rest => after (.removed event) (futures rest)
  | .createResponse event :: rest => after (.created event) (posting event (futures rest))
  | .responseSize event _ :: rest => posting event (futures rest)
  | .responseLink event _ :: rest => after (.posted event) (futures rest)
  | .responseAdd :: rest | .requestAdd :: rest | .requestSub :: rest => futures rest
  | .requestSize :: rest =>
    after .accepted (announcing .onDispatched dispatching) ++
      after .refused (ending .onDispatchFailed (futures rest))
  | .requestLink :: _ => dispatching
  | .processorOnCommited :: rest => processing (futures rest)
  | .checkServiceParameter _ :: rest => checking (futures rest)
  | .commit :: _ => after .committed (executing [[]])
  | .execute _ :: rest => executing (futures rest)
  | .running :: rest => returning (futures rest)

/-- The complete stories: of a frame that is a packet, and of one that is none. -/
def lives : List Story := futures (raise .onDeserialized) ++ futures (raise .onDeserializedFailed)

/-- What a request's history can be at any time. -/
def beginnings : List Story := lives.flatMap List.inits

theorem mem_after {act : Act} {story : Story} {stories : List Story} :
    act :: story ∈ after act stories ↔ story ∈ stories := by
  simp only [after, List.mem_map, List.cons.injEq, true_and, exists_eq_right]

theorem after_ne_nil {act : Act} {stories : List Story} (h : stories ≠ []) :
    after act stories ≠ [] := fun heq => h (List.map_eq_nil_iff.mp heq)

theorem dropped_mem {event : RPCEvent} {story : Story} {stories : List Story}
    (h : story ∈ stories) : .dropped event :: story ∈ posting event stories :=
  List.mem_append_right _ (mem_after.mpr h)

/-- What is in a longer history and not its last act was there before. -/
theorem told_before {act act' : Act} {story : Story} (h : act ∈ story ++ [act'])
    (hne : act ≠ act') : act ∈ story :=
  (List.mem_append.mp h).resolve_right fun heq => hne (List.mem_singleton.mp heq)

theorem ordered_raise (event : RPCEvent) : Ordered (raise event) := by
  cases event <;> decide

theorem ending_ne_nil (event : RPCEvent) {stories : List Story} (h : stories ≠ []) :
    ending event stories ≠ [] :=
  after_ne_nil (after_ne_nil (after_ne_nil
    (List.append_ne_nil_of_left_ne_nil (after_ne_nil h) _)))

theorem futures_ne_nil (ops : List RPCOp) : futures ops ≠ [] := by
  induction ops with
  | nil => exact List.cons_ne_nil _ _
  | cons op rest ih =>
    have hposting : ∀ event, posting event (futures rest) ≠ [] := fun event =>
      List.append_ne_nil_of_left_ne_nil (after_ne_nil ih) _
    have hending : ∀ event, ending event (futures rest) ≠ [] := fun event =>
      ending_ne_nil event ih
    cases op with
    | initRPCPacket | addRequest | findRequest | removeRequest | responseLink =>
      exact after_ne_nil ih
    | setStatus | responseAdd | requestAdd | requestSub => exact ih
    | createResponse event => exact after_ne_nil (hposting event)
    | responseSize event r => exact hposting event
    | requestSize => exact List.append_ne_nil_of_right_ne_nil _ (after_ne_nil (hending _))
    | requestLink | commit => exact List.cons_ne_nil _ _
    | processorOnCommited =>
      exact List.append_ne_nil_of_left_ne_nil
        (List.append_ne_nil_of_left_ne_nil (after_ne_nil (hending _)) _) _
    | checkServiceParameter serviceName =>
      exact List.append_ne_nil_of_left_ne_nil (after_ne_nil (hending _)) _
    | execute serviceName =>
      exact List.append_ne_nil_of_right_ne_nil _ (after_ne_nil (hending _))
    | running => exact List.append_ne_nil_of_right_ne_nil _ (after_ne_nil ih)

/-- Where only counters are left to be changed, nothing more is told. -/
theorem futures_of_counters {ops : List RPCOp} (h : ops.any RPCOp.concerns = false) :
    futures ops = [[]] := by
  induction ops with
  | nil => rfl
  | cons op rest ih =>
    rw [List.any_cons, Bool.or_eq_false_iff] at h
    cases op with
    | responseAdd | requestAdd | requestSub => exact ih h.2
    | initRPCPacket | addRequest | findRequest | setStatus | removeRequest | createResponse
    | responseSize | responseLink | requestSize | requestLink | processorOnCommited
    | checkServiceParameter | commit | execute | running => cases h.1

/-- A carrier and its request's record: the session is the same, and every future completes the
history to a life. -/
structure Told (k : Call) (c : Request) : Prop where
  ordered : Ordered k.ops
  session : c.session = k.session
  goesOn : ∀ f ∈ futures k.ops, c.history ++ f ∈ lives

/-- The record of a request that nobody has in hand. -/
def Over (c : Request) : Prop := c.history ∈ lives

/-- Without a request in hand a call's record is complete. -/
theorem Told.over {k : Call} {c : Request} (h : Told k c) (hk : k.holds = none) : Over c := by
  have hops : k.ops.any RPCOp.concerns = false := by
    unfold Call.holds at hk
    split at hk
    · cases hk
    · simpa using ‹¬ k.ops.any RPCOp.concerns = true›
  have hgoes := h.goesOn []
  rw [futures_of_counters hops, List.append_nil] at hgoes
  exact hgoes (List.mem_singleton.mpr rfl)

/-- A carried history, and any way it may go on, begins a life. -/
theorem Told.beginning {k : Call} {c : Request} (h : Told k c) : c.history ∈ beginnings := by
  obtain ⟨f, hf⟩ := List.exists_mem_of_ne_nil _ (futures_ne_nil k.ops)
  exact List.mem_flatMap.mpr ⟨_, h.goesOn f hf, (List.mem_inits _ _).mpr (List.prefix_append _ _)⟩

/-- The same with the act that comes next. -/
theorem Told.next {k : Call} {c : Request} (h : Told k c) {act : Act} {stories : List Story}
    (hne : stories ≠ []) (hnext : ∀ f ∈ stories, act :: f ∈ futures k.ops) :
    c.history ++ [act] ∈ beginnings := by
  obtain ⟨f, hf⟩ := List.exists_mem_of_ne_nil _ hne
  refine List.mem_flatMap.mpr ⟨_, h.goesOn _ (hnext f hf), (List.mem_inits _ _).mpr ⟨f, ?_⟩⟩
  rw [List.append_assoc, List.singleton_append]

/-- The same where only one act can come next. -/
theorem Told.next_after {k : Call} {c : Request} (h : Told k c) {act : Act} {rest : List RPCOp}
    (hfutures : futures k.ops = after act (futures rest)) : c.history ++ [act] ∈ beginnings :=
  h.next (futures_ne_nil rest) fun _ hmem => hfutures ▸ mem_after.mpr hmem

/-- The request dispatcher's subtraction tells nothing. -/
theorem Told.taken {s a : Nat} {c : Request} (h : Told ⟨s, a, raise .onCommited⟩ c) :
    Told ⟨s, a, .requestSub :: raise .onCommited⟩ c :=
  ⟨List.pairwise_cons.mpr ⟨nofun, h.ordered⟩, h.session, h.goesOn⟩

/-- A complete history is the beginning of a life. -/
theorem Over.beginning {c : Request} (h : Over c) : c.history ∈ beginnings :=
  List.mem_flatMap.mpr ⟨_, h, (List.mem_inits _ _).mpr List.prefix_rfl⟩

/-- What an operation may tell of its request. -/
def RPCOp.tells (answer : Answer) : RPCOp → Act → Bool
  | .initRPCPacket, .assigned | .addRequest, .added => true
  | .findRequest event, .handled event' | .removeRequest event, .removed event'
  | .createResponse event, .created event' | .responseSize event _, .dropped event'
  | .responseLink event _, .posted event' => event == event'
  | .requestSize, .accepted | .requestSize, .refused => true
  | .processorOnCommited, .emptyService | .processorOnCommited, .unknownService => true
  | .checkServiceParameter _, .checked _ | .commit, .committed => true
  | .execute _, .invoked | .execute _, .missing => true
  | .running, .returned | .running, .threw => true
  | .running, .escaped => answer.outcome == .escaped
  | _, _ => false

namespace RPCServer

/-- THE INVARIANT of the requests: no request is in two places, and every history is that of a
life as far as it has come. -/
def Relayed (v : RPCServer) : Prop :=
  Relay.InOrder Call.holds Told Over v.carriers v.packets

section Executes

variable {C : Setting} {v v' : RPCServer} {s a : Nat} {answer : Answer} {op : RPCOp}
  {ops : List RPCOp}

/-- The packet at an address where there is one. -/
theorem packet_eq {c : Request} (hc : v.packets[a]? = some c) : v.packet a = c.packet := by
  simp only [packet, hc, Option.map_some, Option.getD_some]

/-- The record that an update at the request's own address leaves. -/
theorem own_eq {packets : List Request} {c c' : Request} {f : Request → Request}
    (hc : packets[a]? = some c) (hc' : (packets.modify a f)[a]? = some c') : c' = f c := by
  rw [List.getElem?_modify_eq, hc] at hc'
  exact (Option.some.inj hc').symm

/-- The record that an operation on something else leaves. -/
theorem same_eq {packets packets' : List Request} {c c' : Request} (hc : packets[a]? = some c)
    (hc' : packets'[a]? = some c') (h : packets' = packets) : c' = c := by
  rw [h, hc] at hc'
  exact (Option.some.inj hc').symm

/-- A record that a status is recorded in keeps everything that is told of it. -/
theorem record_eq {packets : List Request} {p : Nat} {event : RPCEvent} {time : String}
    {c c' : Request} (hc : packets[a]? = some c)
    (hc' : (packets.modify p (Request.record event time))[a]? = some c') :
    c' = c ∨ (p = a ∧ c' = c.record event time) := by
  rw [List.getElem?_modify, hc] at hc'
  by_cases hpa : p = a
  · simp only [if_pos hpa, Option.map_eq_map, Option.map_some, Option.some.injEq] at hc'
    exact .inr ⟨hpa, hc'.symm⟩
  · simp only [if_neg hpa, Option.map_eq_map, Option.map_some, Option.some.injEq] at hc'
    exact .inl hc'.symm

/-- What an operation tells of its request, and that the futures before it allow this. -/
theorem Executes.tells (h : Executes C v s a answer op v' ops) :
    ∃ acts : Story,
      (∀ c c', v.packets[a]? = some c → v'.packets[a]? = some c' →
        c'.history = c.history ++ acts ∧ c'.session = c.session) ∧
      ∀ rest, ∀ f ∈ futures (v.onward a op ops rest), acts ++ f ∈ futures (op :: rest) := by
  have hupdate : ∀ {f : Request → Request} {acts : Story}, v'.packets = v.packets.modify a f →
      (∀ c, (f c).history = c.history ++ acts) → (∀ c, (f c).session = c.session) →
      ∀ c c', v.packets[a]? = some c → v'.packets[a]? = some c' →
        c'.history = c.history ++ acts ∧ c'.session = c.session := by
    intro f acts hf hhistory hsession c c' hc hc'
    rw [hf] at hc'
    obtain rfl := own_eq hc hc'
    exact ⟨hhistory c, hsession c⟩
  have hsame : v'.packets = v.packets → ∀ c c', v.packets[a]? = some c →
      v'.packets[a]? = some c' → c'.history = c.history ++ [] ∧ c'.session = c.session := by
    intro heq c c' hc hc'
    obtain rfl := same_eq hc hc' heq
    exact ⟨(List.append_nil _).symm, rfl⟩
  cases h with
  | initRPCPacket =>
    exact ⟨[.assigned], hupdate rfl (fun _ => rfl) fun _ => rfl,
      fun _ _ => mem_after.mpr⟩
  | addRequest =>
    exact ⟨[.added], hupdate rfl (fun _ => rfl) fun _ => rfl, fun _ _ => mem_after.mpr⟩
  | @found event | @notFound event =>
    exact ⟨[.handled event], hupdate rfl (fun _ => rfl) fun _ => rfl,
      fun _ _ => mem_after.mpr⟩
  | setStatus hfind =>
    refine ⟨[], fun c c' hc hc' => ?_, fun _ _ hf => hf⟩
    rw [List.append_nil]
    rcases record_eq hc hc' with rfl | ⟨-, rfl⟩
    · exact ⟨rfl, rfl⟩
    · exact ⟨rfl, rfl⟩
  | setNothing => exact ⟨[], hsame rfl, fun _ _ hf => hf⟩
  | @removeRequest event =>
    exact ⟨[.removed event], hupdate rfl (fun _ => rfl) fun _ => rfl,
      fun _ _ => mem_after.mpr⟩
  | @createResponse event =>
    exact ⟨[.created event], hupdate rfl (fun _ => rfl) fun _ => rfl,
      fun _ _ => mem_after.mpr⟩
  | responseRoom => exact ⟨[], hsame rfl, fun _ _ hf => List.mem_append_left _ hf⟩
  | @responseFull event =>
    exact ⟨[.dropped event], hupdate rfl (fun _ => rfl) fun _ => rfl,
      fun _ _ => dropped_mem⟩
  | @responseLink event =>
    exact ⟨[.posted event], hupdate rfl (fun _ => rfl) fun _ => rfl,
      fun _ _ => mem_after.mpr⟩
  | responseAdd | requestAdd | requestSub => exact ⟨[], hsame rfl, fun _ _ hf => hf⟩
  | requestRoom =>
    exact ⟨[.accepted], hupdate rfl (fun _ => rfl) fun _ => rfl,
      fun _ _ hf => List.mem_append_left _ (mem_after.mpr hf)⟩
  | requestFull =>
    refine ⟨[.refused], hupdate rfl (fun _ => rfl) fun _ => rfl, fun _ _ hf => ?_⟩
    exact List.mem_append_right _ (mem_after.mpr hf)
  | requestLink => exact ⟨[], hsame rfl, fun _ _ hf => hf⟩
  | emptyService =>
    refine ⟨[.emptyService], hupdate rfl (fun _ => rfl) fun _ => rfl, fun _ _ hf => ?_⟩
    exact List.mem_append_left _ (List.mem_append_left _ (mem_after.mpr hf))
  | unknownService =>
    refine ⟨[.unknownService], hupdate rfl (fun _ => rfl) fun _ => rfl, fun _ _ hf => ?_⟩
    exact List.mem_append_left _ (List.mem_append_right _ (mem_after.mpr hf))
  | knownService => exact ⟨[], hsame rfl, fun _ _ hf => List.mem_append_right _ hf⟩
  | notChecked | invalid =>
    refine ⟨[.checked false], hupdate rfl (fun _ => rfl) fun _ => rfl, fun _ _ hf => ?_⟩
    exact List.mem_append_left _ (mem_after.mpr hf)
  | terminate => exact ⟨[], hsame rfl, fun _ _ hf => hf⟩
  | valid =>
    refine ⟨[.checked true], hupdate rfl (fun _ => rfl) fun _ => rfl, fun _ _ hf => ?_⟩
    exact List.mem_append_right _ (mem_after.mpr hf)
  | commit =>
    exact ⟨[.committed], hupdate rfl (fun _ => rfl) fun _ => rfl,
      fun _ _ => mem_after.mpr⟩
  | invoked =>
    refine ⟨[.invoked], hupdate rfl (fun _ => rfl) fun _ => rfl, fun _ _ hf => ?_⟩
    exact List.mem_append_left _ (mem_after.mpr hf)
  | missing =>
    refine ⟨[.missing], hupdate rfl (fun _ => rfl) fun _ => rfl, fun _ _ hf => ?_⟩
    exact List.mem_append_right _ (mem_after.mpr hf)
  | returned =>
    refine ⟨[.returned], hupdate rfl (fun _ => rfl) fun _ => rfl, fun _ _ hf => ?_⟩
    exact List.mem_append_left _ (List.mem_append_left _ (mem_after.mpr hf))
  | threw =>
    refine ⟨[.threw], hupdate rfl (fun _ => rfl) fun _ => rfl, fun _ _ hf => ?_⟩
    exact List.mem_append_left _ (List.mem_append_right _ (mem_after.mpr hf))
  | escaped =>
    refine ⟨[.escaped], hupdate rfl (fun _ => rfl) fun _ => rfl, fun _ _ hf => ?_⟩
    exact List.mem_append_right _ (mem_after.mpr hf)

/-- THE HISTORIES' VIEW OF AN OPERATION: none changes, or that of its request goes on by one act. -/
theorem Executes.history (h : Executes C v s a answer op v' ops) {b : Nat} {c' : Request}
    (hc' : v'.packets[b]? = some c') : ∃ c, v.packets[b]? = some c ∧
      (c'.history = c.history ∨
        ∃ act, op.tells answer act = true ∧ b = a ∧ c'.history = c.history ++ [act]) := by
  have hupdate : ∀ {f : Request → Request} {act : Act}, v'.packets = v.packets.modify a f →
      (∀ c, (f c).history = c.history ++ [act]) → op.tells answer act = true →
      ∃ c, v.packets[b]? = some c ∧ (c'.history = c.history ∨
        ∃ act, op.tells answer act = true ∧ b = a ∧ c'.history = c.history ++ [act]) := by
    intro f act hf hhistory htells
    rw [hf, List.getElem?_modify] at hc'
    obtain ⟨c, hc, rfl⟩ := Option.map_eq_some_iff.mp hc'
    refine ⟨c, hc, ?_⟩
    split
    case isTrue hab => exact .inr ⟨act, htells, hab.symm, hhistory c⟩
    case isFalse => exact .inl rfl
  cases h with
  | setNothing | responseRoom | responseAdd | requestLink | requestAdd | requestSub
  | knownService | terminate => exact ⟨c', hc', .inl rfl⟩
  | setStatus =>
    obtain ⟨c, hc, rfl⟩ := Option.map_eq_some_iff.mp (List.getElem?_modify .. ▸ hc')
    refine ⟨c, hc, .inl ?_⟩
    split <;> rfl
  | initRPCPacket | addRequest | requestRoom | requestFull | emptyService | unknownService
  | notChecked | valid | invalid | commit | invoked | missing | returned | threw =>
    exact hupdate rfl (fun _ => rfl) rfl
  | found | notFound | removeRequest | createResponse | responseFull | responseLink =>
    exact hupdate rfl (fun _ => rfl) (beq_self_eq_true _)
  | escaped houtcome => exact hupdate rfl (fun _ => rfl) (beq_iff_eq.mpr houtcome)

/-- What comes of an operation keeps the order of the program. -/
theorem Executes.ordered (h : Executes C v s a answer op v' ops) {rest : List RPCOp}
    (ho : Ordered (op :: rest)) : Ordered (v.onward a op ops rest) := by
  cases h with
  | requestLink => exact ordered_raise .onCommited
  | commit => exact List.pairwise_singleton _ _
  | found | createResponse => exact ho.replace (List.pairwise_singleton _ _) (.inr rfl)
  | initRPCPacket | addRequest | notFound | setStatus | setNothing | removeRequest
  | responseFull | responseLink | responseAdd | requestAdd | requestSub =>
    exact (List.pairwise_cons.mp ho).2
  | responseRoom =>
    refine ho.replace ?_ (.inr rfl)
    exact List.pairwise_pair.mpr nofun
  | requestRoom | requestFull | emptyService | unknownService | notChecked | invalid | missing
  | returned | threw => exact ho.replace (by decide) (.inl rfl)
  | knownService | terminate | valid | invoked =>
    exact ho.replace (List.pairwise_singleton _ _) (.inl rfl)
  | escaped => exact (List.pairwise_cons.mp ho).2

/-- An operation keeps what its carrier and its record have to do with each other. -/
theorem Executes.told (h : Executes C v s a answer op v' ops) {rest : List RPCOp}
    {c c' : Request} (hc : v.packets[a]? = some c) (hc' : v'.packets[a]? = some c')
    (ht : Told ⟨s, a, op :: rest⟩ c) : Told ⟨s, a, v.onward a op ops rest⟩ c' := by
  obtain ⟨acts, htells, hgoes⟩ := h.tells
  obtain ⟨hhistory, hsession⟩ := htells c c' hc hc'
  refine ⟨h.ordered ht.ordered, hsession.trans ht.session, fun f hf => ?_⟩
  rw [hhistory, List.append_assoc]
  exact ht.goesOn _ (hgoes rest f hf)

end Executes

/-- THE HISTORIES' VIEW OF A STEP: a history stays, is that of a frame just delivered, or goes on by
one act of the operation that a thread carries out for its request. -/
theorem Moves.history {C : Setting} {v v' : RPCServer} {l : RPCLabel} (h : Moves C v l v')
    {b : Nat} {c' : Request} (hc' : v'.packets[b]? = some c') :
    (∃ c, v.packets[b]? = some c ∧ c'.history = c.history) ∨
    (v.packets.length ≤ b ∧ c'.history = []) ∨
    ∃ t role s op rest answer ops v₁ act c, l = .advance t answer ∧
      v.threads[t]? = some ⟨role, s, b, op :: rest⟩ ∧ Executes C v s b answer op v₁ ops ∧
      v'.responses = v₁.responses ∧ op.tells answer act = true ∧ v.packets[b]? = some c ∧
      c'.history = c.history ++ [act] := by
  cases h with
  | takeRequest | takeTask | takeResponse | subtractResponse | completeWrite =>
    exact .inl ⟨c', hc', rfl⟩
  | sendResponse =>
    refine .inl ⟨c', ?_, rfl⟩
    simp only [send] at hc'
    split at hc' <;> exact hc'
  | deliver =>
    simp only [onData, List.getElem?_append] at hc'
    split at hc'
    case isTrue => exact .inl ⟨c', hc', rfl⟩
    case isFalse hge =>
      obtain ⟨hlt, rfl⟩ := List.getElem?_eq_some_iff.mp hc'
      exact .inr (.inl ⟨Nat.le_of_not_lt hge, by rw [List.getElem_singleton]⟩)
  | advance hat hexecutes =>
    obtain ⟨c, hc, heq | ⟨act, htells, rfl, heq⟩⟩ := hexecutes.history hc'
    · exact .inl ⟨c, hc, heq⟩
    · exact .inr (.inr ⟨_, _, _, _, _, _, _, _, act, c, rfl, hat, hexecutes, rfl, htells, hc, heq⟩)

/-- What a session delivers begins a life. -/
theorem told_onData (C : Setting) {v : RPCServer} {t s : Nat} {body : List UInt8} {c : Request}
    (hc : (v.onData C t s body).packets = v.packets ++ [c]) :
    Told ⟨s, v.packets.length, raise (if (C.parseFromArray body).isSome then .onDeserialized
      else .onDeserializedFailed)⟩ c := by
  obtain rfl := List.singleton_inj.mp (List.append_cancel_left hc)
  cases (C.parseFromArray body).isSome with
  | true => exact ⟨ordered_raise .onDeserialized, rfl, fun f hf => List.mem_append_left _ hf⟩
  | false =>
    exact ⟨ordered_raise .onDeserializedFailed, rfl, fun f hf => List.mem_append_right _ hf⟩

theorem Relayed.step {C : Setting} {v v' : RPCServer} {l : RPCLabel} (h : v.Relayed)
    (hmoves : Moves C v l v') : v'.Relayed :=
  inOrder_step h hmoves (fun _ _ hk => hk.ordered)
    (fun _ _ _ _ _ hc => told_onData C hc) (fun _ _ _ hk => Told.taken hk)
    (fun _ _ _ _ _ _ _ _ _ _ _ _ _ hexecutes hc hc' hk => hexecutes.told hc hc' hk)
    (fun _ _ _ _ _ _ => ⟨fun _ _ hk => ⟨hk.ordered, hk.session, hk.goesOn⟩, fun _ hc => hc⟩)
    fun _ _ hk hnone => hk.over hnone

theorem relayed_of_reachable {C : Setting} {ok : RPCServer → RPCLabel → Prop} {v : RPCServer}
    (h : (machine C).ReachableBy ok v) : v.Relayed :=
  h.invariant (fun _ ⟨_, _, _, hv⟩ => hv ▸ inOrder_new _ _)
    fun _ _ _ hrelayed _ hstep => hrelayed.step (moves_of_step hstep)

/-! ## What is read off a history -/

/-- Every history begins a life. -/
theorem Relayed.beginning {v : RPCServer} (h : v.Relayed) {a : Nat} {c : Request}
    (hc : v.packets[a]? = some c) : c.history ∈ beginnings := by
  rcases h.held_or_done hc with ⟨k, -, -, htold⟩ | ⟨-, hover⟩
  · exact htold.beginning
  · exact hover.beginning

/-- The thread that works on a request has it in hand. -/
theorem Relayed.working {v : RPCServer} (h : v.Relayed) {t s a : Nat} {role : Role}
    {op : RPCOp} {rest : List RPCOp} (hat : v.threads[t]? = some ⟨role, s, a, op :: rest⟩)
    (hop : op.concerns = true) :
    ∃ c, v.packets[a]? = some c ∧ Told ⟨s, a, op :: rest⟩ c :=
  fits_of_working h hat List.mem_cons_self hop

end RPCServer

end DSFramework.DSRPC
