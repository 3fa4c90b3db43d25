import DSFramework.Lib.Machine
import DSFramework.Lib.Threads

/-!
# The concurrent queue

The queue behind all three dispatch loops: a chain of nodes with a dummy at its end, `m_head`
under `m_headMutex`, `m_tail` under `m_tailMutex`, an atomic `m_count`, and a condition variable
that `WaitPop` waits on with `m_headMutex` and `Push` notifies holding no mutex at all.

A node's address is its place in `nodes`; nodes are appended when they are linked and stay, so
an address is never used twice. Each locked section of `m_tailMutex` is one step (`get_tail`
inside the wait predicate, the linking inside `Push`); a section of `m_headMutex` spans several
steps, because the predicate is evaluated inside it.

`Linked` is the invariant of the chain: it holds what was pushed, in order, and `m_head` stands
after as many nodes as were popped.
-/

namespace DSFramework.DSCommunication

/-- A node of the chain. The last node, the dummy, has neither data nor a successor. -/
structure Node (α : Type) where
  data : Option α
  next : Option Nat
  deriving DecidableEq, Repr

/-- What a thread of the queue stands before.

`Push`: the tail section, `fetch_add`, `notify_one`. `WaitPop`: taking `m_headMutex`, the
predicate, the unlock-and-block, a wake-up, taking the mutex again, `pop_head`, `fetch_sub`. -/
inductive QueueThread (α : Type) where
  | outside
  | linking (newValue : α)
  | adding
  | notifying
  | locking
  | evaluating
  | blocking
  | blocked
  | relocking
  | popping
  | subtracting (oldHead : Node α)
  deriving DecidableEq, Repr

/-- The queue with the threads that use it, and its history: the values in the order of their
tail sections, and what `pop_head` took off in the order of the removals. `count` is what was added
to `m_count` less what was subtracted; `m_count` is an `int` and holds it modulo `2 ^ 32`. -/
structure ConcurrentQueue (α : Type) where
  nodes : List (Node α)
  head : Option Nat
  tail : Nat
  count : Int
  headMutex : Option Nat
  threads : List (QueueThread α)
  pushed : List α
  popped : List (Option α)
  deriving DecidableEq, Repr

/-- Who moves: a thread calls `Push` or `WaitPop`, takes its next step, notifies (waking the
given blocked thread, or nobody), or wakes up by itself. -/
inductive QueueLabel (α : Type) where
  | push (thread : Nat) (newValue : α)
  | waitPop (thread : Nat)
  | next (thread : Nat)
  | notifyOne (thread : Nat) (woken : Option Nat)
  | wakeUp (thread : Nat)
  deriving DecidableEq, Repr

namespace ConcurrentQueue

variable {α : Type}

/-- The constructor, for `n` threads that will use the queue. The source does not initialise
`m_count`, so its first value is open. -/
def new (n : Nat) (count : Int) : ConcurrentQueue α :=
  { nodes := [⟨none, none⟩]
    head := some 0
    tail := 0
    count := count
    headMutex := none
    threads := List.replicate n .outside
    pushed := []
    popped := [] }

/-- Thread `t` moves on to `pc`. -/
def goto (q : ConcurrentQueue α) (t : Nat) (pc : QueueThread α) : ConcurrentQueue α :=
  { q with threads := q.threads.set t pc }

/-- The tail section of `Push`: the dummy takes the value and a new dummy follows it. -/
def link (q : ConcurrentQueue α) (newValue : α) : ConcurrentQueue α :=
  let newTail := q.nodes.length
  { q with
    nodes := q.nodes.modify q.tail (fun _ => ⟨some newValue, some newTail⟩) ++ [⟨none, none⟩]
    tail := newTail
    pushed := q.pushed ++ [newValue] }

/-- `m_head.get() != get_tail()`. -/
def ready (q : ConcurrentQueue α) : Bool := q.head != some q.tail

/-- `pop_head`: the chain goes on at the successor of the old head, whatever that is. -/
def popHead (q : ConcurrentQueue α) : Option (ConcurrentQueue α × Node α) :=
  q.head.bind fun address =>
    (q.nodes[address]?).map fun oldHead =>
      ({ q with head := oldHead.next, popped := q.popped ++ [oldHead.data] }, oldHead)

/-- `size()`: the `int` in `m_count`, whose `fetch_add` and `fetch_sub` wrap around. -/
def size (q : ConcurrentQueue α) : Int32 := Int32.ofInt q.count

/-- `empty()`, when nobody moves during the call. -/
def empty (q : ConcurrentQueue α) : Bool := q.head == some q.tail

/-- Taking `m_headMutex`, when it is free. -/
def lock (q : ConcurrentQueue α) (t : Nat) : Option (ConcurrentQueue α) :=
  if q.headMutex = none then some { q with headMutex := some t } else none

/-- Releasing `m_headMutex`. -/
def unlock (q : ConcurrentQueue α) : ConcurrentQueue α := { q with headMutex := none }

/-- The next step of thread `t`, which stands before `pc`. `notify_one` and the wake-ups are not
here: what they do is not the thread's choice alone. -/
def advance (q : ConcurrentQueue α) (t : Nat) : QueueThread α → Option (ConcurrentQueue α)
  | .linking newValue => some ((q.link newValue).goto t .adding)
  | .adding => some ({ q with count := q.count + 1 }.goto t .notifying)
  | .locking | .relocking => (q.lock t).map fun q => q.goto t .evaluating
  | .evaluating => some (q.goto t (if q.ready then .popping else .blocking))
  | .blocking => some (q.unlock.goto t .blocked)
  | .popping => q.popHead.map fun (q, oldHead) => q.unlock.goto t (.subtracting oldHead)
  | .subtracting _ => some ({ q with count := q.count - 1 }.goto t .outside)
  | .outside | .notifying | .blocked => none

/-- Is any thread blocked in `m_dataCondi.wait`? -/
def waited (q : ConcurrentQueue α) : Bool := q.threads.any (· matches .blocked)

/-- `notify_one` wakes one of the blocked threads; where there is none it is lost. -/
def notify (q : ConcurrentQueue α) : Option Nat → Option (ConcurrentQueue α)
  | some woken => match q.threads[woken]? with
    | some .blocked => some (q.goto woken .relocking)
    | _ => none
  | none => if q.waited then none else some q

/-- One step of the queue and its threads. -/
def step (q : ConcurrentQueue α) : QueueLabel α → Option (ConcurrentQueue α)
  | .push t newValue => match q.threads[t]? with
    | some .outside => some (q.goto t (.linking newValue))
    | _ => none
  | .waitPop t => match q.threads[t]? with
    | some .outside => some (q.goto t .locking)
    | _ => none
  | .next t => (q.threads[t]?).bind (q.advance t)
  | .notifyOne t woken => match q.threads[t]? with
    | some .notifying => (q.goto t .outside).notify woken
    | _ => none
  | .wakeUp t => match q.threads[t]? with
    | some .blocked => some (q.goto t .relocking)
    | _ => none

/-- The queue as a machine, for any number of threads. -/
def machine (α : Type) : Transition.Machine (ConcurrentQueue α) (QueueLabel α) where
  init q := ∃ n count, q = new n count
  step := step

/-! ## What one step does -/

/-- Every way a label can take one queue to the next, one constructor per step of the source. -/
inductive Moves (q : ConcurrentQueue α) : QueueLabel α → ConcurrentQueue α → Prop where
  | push {t : Nat} {newValue : α} : q.threads[t]? = some .outside →
      Moves q (.push t newValue) (q.goto t (.linking newValue))
  | waitPop {t : Nat} : q.threads[t]? = some .outside → Moves q (.waitPop t) (q.goto t .locking)
  | link {t : Nat} {newValue : α} : q.threads[t]? = some (.linking newValue) →
      Moves q (.next t) ((q.link newValue).goto t .adding)
  | add {t : Nat} : q.threads[t]? = some .adding →
      Moves q (.next t) ({ q with count := q.count + 1 }.goto t .notifying)
  | lock {t : Nat} {pc : QueueThread α} : q.threads[t]? = some pc →
      pc = .locking ∨ pc = .relocking → q.headMutex = none →
      Moves q (.next t) ({ q with headMutex := some t }.goto t .evaluating)
  | found {t : Nat} : q.threads[t]? = some .evaluating → q.ready = true →
      Moves q (.next t) (q.goto t .popping)
  | empty {t : Nat} : q.threads[t]? = some .evaluating → q.ready = false →
      Moves q (.next t) (q.goto t .blocking)
  | block {t : Nat} : q.threads[t]? = some .blocking →
      Moves q (.next t) (q.unlock.goto t .blocked)
  | popHead {t : Nat} {q₁ : ConcurrentQueue α} {oldHead : Node α} :
      q.threads[t]? = some QueueThread.popping → q.popHead = some (q₁, oldHead) →
      Moves q (.next t) (q₁.unlock.goto t (.subtracting oldHead))
  | subtract {t : Nat} {oldHead : Node α} : q.threads[t]? = some (.subtracting oldHead) →
      Moves q (.next t) ({ q with count := q.count - 1 }.goto t .outside)
  | wake {t woken : Nat} : q.threads[t]? = some .notifying →
      (q.goto t .outside).threads[woken]? = some .blocked →
      Moves q (.notifyOne t (some woken)) ((q.goto t .outside).goto woken .relocking)
  | lose {t : Nat} : q.threads[t]? = some .notifying → (q.goto t .outside).waited = false →
      Moves q (.notifyOne t none) (q.goto t .outside)
  | wakeUp {t : Nat} : q.threads[t]? = some .blocked →
      Moves q (.wakeUp t) (q.goto t .relocking)

theorem moves_of_advance {q q' : ConcurrentQueue α} {t : Nat} {pc : QueueThread α}
    (hat : q.threads[t]? = some pc) (h : q.advance t pc = some q') : Moves q (.next t) q' := by
  cases pc with
  | outside | notifying | blocked => cases h
  | linking newValue => cases h; exact .link hat
  | adding => cases h; exact .add hat
  | locking | relocking =>
    obtain ⟨q₁, hlock, rfl⟩ := Option.map_eq_some_iff.mp h
    simp only [lock, Option.ite_none_right_eq_some, Option.some.injEq] at hlock
    obtain ⟨hfree, rfl⟩ := hlock
    exact .lock hat (by simp) hfree
  | evaluating =>
    cases h
    cases hready : q.ready with
    | false => exact .empty hat hready
    | true => exact .found hat hready
  | blocking => cases h; exact .block hat
  | popping =>
    obtain ⟨⟨q₁, oldHead⟩, hpop, rfl⟩ := Option.map_eq_some_iff.mp h
    exact .popHead hat hpop
  | subtracting oldHead => cases h; exact .subtract hat

theorem moves_of_step {q q' : ConcurrentQueue α} {l : QueueLabel α} (h : q.step l = some q') :
    Moves q l q' := by
  cases l with
  | push t newValue | waitPop t | wakeUp t =>
    simp only [step] at h
    split at h
    case h_1 hat => cases h; first | exact .push hat | exact .waitPop hat | exact .wakeUp hat
    case h_2 => cases h
  | next t =>
    obtain ⟨pc, hat, hadvance⟩ := Option.bind_eq_some_iff.mp h
    exact moves_of_advance hat hadvance
  | notifyOne t woken =>
    simp only [step] at h
    split at h
    case h_2 => cases h
    case h_1 hat =>
      cases woken with
      | none =>
        simp only [notify] at h
        split at h
        case isTrue => cases h
        case isFalse hnone => cases h; exact .lose hat (by simpa using hnone)
      | some woken =>
        simp only [notify] at h
        split at h
        case h_1 hwoken => cases h; exact .wake hat hwoken
        case h_2 => cases h

/-! ## The chain -/

/-- The nodes of a queue that has seen exactly the values `xs`: one for each, then the dummy. -/
def chain (xs : List α) : List (Node α) :=
  xs.mapIdx (fun k x => ⟨some x, some (k + 1)⟩) ++ [⟨none, none⟩]

@[simp] theorem length_chain (xs : List α) : (chain xs).length = xs.length + 1 := by
  simp only [chain, List.length_append, List.length_mapIdx, List.length_singleton]

/-- The node of the `k`-th value leads to the next one. -/
theorem chain_getElem? {xs : List α} {k : Nat} {x : α} (h : xs[k]? = some x) :
    (chain xs)[k]? = some ⟨some x, some (k + 1)⟩ := by
  obtain ⟨hlt, rfl⟩ := List.getElem?_eq_some_iff.mp h
  rw [chain, List.getElem?_append_left (by rwa [List.length_mapIdx]), List.getElem?_mapIdx,
    List.getElem?_eq_getElem hlt, Option.map_some]

/-- Linking a value turns the dummy into its node and adds a dummy. -/
theorem chain_link (xs : List α) (x : α) :
    (chain xs).modify xs.length (fun _ => ⟨some x, some (chain xs).length⟩) ++ [⟨none, none⟩] =
      chain (xs ++ [x]) := by
  have hlen : (xs.mapIdx fun k x => (⟨some x, some (k + 1)⟩ : Node α)).length = xs.length :=
    List.length_mapIdx
  rw [length_chain, chain, chain, List.mapIdx_concat, List.modify_eq_take_drop,
    List.take_left' hlen, List.drop_left' hlen]
  rfl

/-- The values linked and not yet unlinked. -/
def linkedItems (q : ConcurrentQueue α) : Nat := q.pushed.length - q.popped.length

/-- THE CHAIN: it holds what was pushed, `m_tail` is its dummy, and `m_head` has passed the nodes
of the values that were popped, which are the first ones pushed. -/
structure Linked (q : ConcurrentQueue α) : Prop where
  nodes_eq : q.nodes = chain q.pushed
  tail_eq : q.tail = q.pushed.length
  head_eq : q.head = some q.popped.length
  popped_eq : q.popped = (q.pushed.take q.popped.length).map some

theorem linked_new (n : Nat) (count : Int) : (new n count : ConcurrentQueue α).Linked :=
  ⟨rfl, rfl, rfl, rfl⟩

theorem Linked.popped_le {q : ConcurrentQueue α} (h : q.Linked) :
    q.popped.length ≤ q.pushed.length := by
  have hlen := congrArg List.length h.popped_eq
  rw [List.length_map, List.length_take] at hlen
  exact Nat.le_trans (Nat.le_of_eq hlen) (Nat.min_le_right _ _)

/-- The predicate of `WaitPop` tells whether there is an item. -/
theorem Linked.ready_iff {q : ConcurrentQueue α} (h : q.Linked) :
    q.ready = true ↔ 0 < q.linkedItems := by
  have hle := h.popped_le
  simp only [ready, h.head_eq, h.tail_eq, bne_iff_ne, ne_eq, Option.some.injEq, linkedItems]
  omega

theorem Linked.link {q : ConcurrentQueue α} (h : q.Linked) (newValue : α) :
    (q.link newValue).Linked where
  nodes_eq := by
    simp only [ConcurrentQueue.link, h.nodes_eq, h.tail_eq]
    exact chain_link q.pushed newValue
  tail_eq := by
    simp only [ConcurrentQueue.link, h.nodes_eq, length_chain, List.length_append,
      List.length_singleton]
  head_eq := h.head_eq
  popped_eq := by
    simp only [ConcurrentQueue.link]
    rw [List.take_append_of_le_length h.popped_le]
    exact h.popped_eq

theorem Linked.linkedItems_link {q : ConcurrentQueue α} (h : q.Linked) (newValue : α) :
    (q.link newValue).linkedItems = q.linkedItems + 1 := by
  have hle := h.popped_le
  simp only [linkedItems, ConcurrentQueue.link, List.length_append, List.length_singleton]
  omega

/-- With an item in the queue `pop_head` takes the oldest one off the chain. -/
theorem Linked.popHead {q q' : ConcurrentQueue α} {oldHead : Node α} (h : q.Linked)
    (hready : 0 < q.linkedItems) (hpop : q.popHead = some (q', oldHead)) :
    ∃ x, q.pushed[q.popped.length]? = some x ∧
      q' = { q with head := some (q.popped.length + 1), popped := q.popped ++ [some x] } := by
  have hlt : q.popped.length < q.pushed.length := Nat.lt_of_sub_pos hready
  have hx : q.pushed[q.popped.length]? = some q.pushed[q.popped.length] :=
    List.getElem?_eq_getElem hlt
  refine ⟨_, hx, ?_⟩
  have hnode : q.nodes[q.popped.length]? = some ⟨some _, some (q.popped.length + 1)⟩ :=
    h.nodes_eq ▸ chain_getElem? hx
  simp only [ConcurrentQueue.popHead, h.head_eq, Option.bind_some, hnode, Option.map_some,
    Option.some.injEq, Prod.mk.injEq] at hpop
  exact hpop.1.symm

theorem Linked.pop {q q' : ConcurrentQueue α} {oldHead : Node α} (h : q.Linked)
    (hready : 0 < q.linkedItems) (hpop : q.popHead = some (q', oldHead)) : q'.Linked := by
  obtain ⟨x, hx, rfl⟩ := h.popHead hready hpop
  refine ⟨h.nodes_eq, h.tail_eq, ?_, ?_⟩
  · simp only [List.length_append, List.length_singleton]
  · simp only [List.length_append, List.length_singleton, List.take_add_one, hx, List.map_append,
      ← h.popped_eq, Option.toList_some, List.map_cons, List.map_nil]

theorem Linked.linkedItems_pop {q q' : ConcurrentQueue α} {oldHead : Node α} (h : q.Linked)
    (hready : 0 < q.linkedItems) (hpop : q.popHead = some (q', oldHead)) :
    q.linkedItems = q'.linkedItems + 1 := by
  obtain ⟨x, -, rfl⟩ := h.popHead hready hpop
  simp only [linkedItems, List.length_append, List.length_singleton] at hready ⊢
  omega

/-! ## The head mutex -/

/-- Is the thread inside a section of `m_headMutex`? -/
def holds : QueueThread α → Bool
  | .evaluating | .blocking | .popping => true
  | _ => false

/-- Whoever is inside a section of the mutex has it. -/
def Held (threads : List (QueueThread α)) (mutex : Option Nat) : Prop :=
  ∀ (t : Nat) pc, threads[t]? = some pc → holds pc = true → mutex = some t

section Held

variable {threads : List (QueueThread α)} {mutex : Option Nat} {t : Nat} {pc : QueueThread α}

theorem Held.goto (h : Held threads mutex) {pc' : QueueThread α}
    (hpc' : holds pc' = true → mutex = some t) : Held (threads.set t pc') mutex :=
  Threads.Held.goto h hpc'

theorem Held.lock (h : Held threads none) (pc' : QueueThread α) :
    Held (threads.set t pc') (some t) := Threads.Held.lock h pc'

theorem Held.unlock (h : Held threads mutex) (hat : threads[t]? = some pc)
    (hpc : holds pc = true) {pc' : QueueThread α} (hpc' : holds pc' = false) :
    Held (threads.set t pc') none := Threads.Held.unlock h hat hpc hpc'

end Held

/-- The chain together with the mutex: a thread about to pop has found an item, and nobody else
can have taken it in between. -/
structure Sound (q : ConcurrentQueue α) : Prop where
  linked : q.Linked
  held : Held q.threads q.headMutex
  found : ∀ t : Nat, q.threads[t]? = some QueueThread.popping → 0 < q.linkedItems

theorem sound_new (n : Nat) (count : Int) : (new n count : ConcurrentQueue α).Sound := by
  have houtside : ∀ (t : Nat) pc, (new n count : ConcurrentQueue α).threads[t]? = some pc →
      pc = .outside := by
    intro t pc hat
    exact (List.mem_replicate.mp (List.mem_of_getElem? hat)).2
  refine ⟨linked_new n count, ?_, ?_⟩
  · intro t pc hat hholds
    cases houtside t pc hat
    cases hholds
  · intro t hat
    cases houtside t _ hat

/-- A thread that moves to another place than `popping` changes nothing about the others. -/
theorem Sound.found_goto {q : ConcurrentQueue α} (h : q.Sound) {pc : QueueThread α} (t : Nat)
    (hpc : pc ≠ .popping) :
    ∀ i : Nat, (q.threads.set t pc)[i]? = some QueueThread.popping → 0 < q.linkedItems := by
  intro i hi
  exact h.found i (Threads.at_of_set hi hpc)

theorem Sound.goto {q : ConcurrentQueue α} (h : q.Sound) {pc : QueueThread α} (t : Nat)
    (hpc : holds pc = true → q.headMutex = some t) (hpop : pc ≠ .popping) : (q.goto t pc).Sound :=
  ⟨⟨h.linked.nodes_eq, h.linked.tail_eq, h.linked.head_eq, h.linked.popped_eq⟩, h.held.goto hpc,
    h.found_goto t hpop⟩

/-- One step keeps the chain, the mutex and what was found. -/
theorem Sound.step {q q' : ConcurrentQueue α} {l : QueueLabel α} (h : q.Sound)
    (hstep : Moves q l q') : q'.Sound := by
  cases hstep with
  | push | waitPop | wakeUp | lose => exact h.goto _ nofun nofun
  | @wake t woken =>
    have hout : (q.goto t .outside).Sound := h.goto t nofun nofun
    exact hout.goto woken nofun nofun
  | add | subtract =>
    exact ⟨⟨h.linked.nodes_eq, h.linked.tail_eq, h.linked.head_eq, h.linked.popped_eq⟩,
      h.held.goto nofun, h.found_goto _ nofun⟩
  | @link t newValue hat =>
    have hlinked := h.linked.link newValue
    refine ⟨⟨hlinked.nodes_eq, hlinked.tail_eq, hlinked.head_eq, hlinked.popped_eq⟩,
      h.held.goto nofun, fun i _ => ?_⟩
    exact Nat.lt_of_lt_of_eq (Nat.succ_pos _) (h.linked.linkedItems_link newValue).symm
  | lock hat hpc hfree =>
    exact ⟨⟨h.linked.nodes_eq, h.linked.tail_eq, h.linked.head_eq, h.linked.popped_eq⟩,
      (hfree ▸ h.held).lock _, h.found_goto _ nofun⟩
  | empty hat => exact h.goto _ (fun _ => h.held _ _ hat rfl) nofun
  | found hat hready =>
    refine ⟨⟨h.linked.nodes_eq, h.linked.tail_eq, h.linked.head_eq, h.linked.popped_eq⟩,
      h.held.goto fun _ => h.held _ _ hat rfl, fun _ _ => h.linked.ready_iff.mp hready⟩
  | block hat =>
    exact ⟨⟨h.linked.nodes_eq, h.linked.tail_eq, h.linked.head_eq, h.linked.popped_eq⟩,
      h.held.unlock hat rfl rfl, h.found_goto _ nofun⟩
  | @popHead t q₁ oldHead hat hpop =>
    have hready := h.found t hat
    have hlinked := h.linked.pop hready hpop
    obtain ⟨x, -, rfl⟩ := h.linked.popHead hready hpop
    have hheld : Held (q.threads.set t (.subtracting oldHead)) none := h.held.unlock hat rfl rfl
    refine ⟨⟨hlinked.nodes_eq, hlinked.tail_eq, hlinked.head_eq, hlinked.popped_eq⟩, hheld, ?_⟩
    intro i hi
    -- the mutex was this thread's, so no other thread stands before `pop_head`
    obtain ⟨-, heq⟩ | ⟨hne, hi⟩ := Threads.at_set hi
    · cases heq
    · cases hheld i .popping ((Threads.at_set_ne _ hne).trans hi) rfl

theorem sound_of_reachable {ok : ConcurrentQueue α → QueueLabel α → Prop} {q : ConcurrentQueue α}
    (h : (machine α).ReachableBy ok q) : q.Sound :=
  h.invariant (fun _ ⟨n, count, hq⟩ => hq ▸ sound_new n count)
    fun _ _ _ hs _ hstep => hs.step (moves_of_step hstep)

end ConcurrentQueue
end DSFramework.DSCommunication
