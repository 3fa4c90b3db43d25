import DSFramework.DSCommunication.ConcurrentQueue

/-!
# The concurrent queue as a queue

A producer holds the tail mutex only and a consumer the head mutex only, and the two meet in no
node: the dummy at the end keeps the node that `Push` writes behind every node that `pop_head`
takes. Seen through the chain that `m_head` owns, the queue is first in, first out, in the order
of the tail sections and of the removals.

`Owns` reads that chain off the nodes, from `m_head` along the successors. What was taken off it is
`Unlinked`: nobody writes those nodes any more, so what `WaitPop` returns is what was pushed.
-/

namespace DSFramework.DSCommunication

namespace ConcurrentQueue

variable {α : Type} {q q' : ConcurrentQueue α}

/-- The chain from an address on: nodes with the data `xs`, each owning the next one, and at its
end the node at `last`, with neither data nor a successor. -/
inductive Owns (nodes : List (Node α)) : Option Nat → List α → Nat → Prop where
  | dummy {address : Nat} : nodes[address]? = some ⟨none, none⟩ →
      Owns nodes (some address) [] address
  | node {address last : Nat} {x : α} {xs : List α} {next : Option Nat} :
      nodes[address]? = some ⟨some x, next⟩ → Owns nodes next xs last →
      Owns nodes (some address) (x :: xs) last

/-- The dummy of a chain stands behind the nodes of all its values. -/
theorem chain_dummy (xs : List α) : (chain xs)[xs.length]? = some ⟨none, none⟩ := by
  have hlen : (xs.mapIdx fun k x => (⟨some x, some (k + 1)⟩ : Node α)).length = xs.length :=
    List.length_mapIdx
  rw [chain, List.getElem?_append_right (Nat.le_of_eq hlen), hlen, Nat.sub_self]
  rfl

/-- Behind the first `k` values the chain owns the others, up to the dummy. -/
theorem owns_chain (xs : List α) (k : Nat) (hk : k ≤ xs.length) :
    Owns (chain xs) (some k) (xs.drop k) xs.length := by
  induction hn : xs.length - k generalizing k with
  | zero =>
    obtain rfl : k = xs.length := by omega
    rw [List.drop_length]
    exact .dummy (chain_dummy xs)
  | succ n ih =>
    have hlt : k < xs.length := by omega
    rw [List.drop_eq_getElem_cons hlt]
    exact .node (chain_getElem? (List.getElem?_eq_getElem hlt)) (ih (k + 1) hlt (by omega))

/-- `m_head` owns what was pushed and not popped, and `m_tail` is the end of it. -/
theorem Linked.owns (h : q.Linked) :
    Owns q.nodes q.head (q.pushed.drop q.popped.length) q.tail := by
  rw [h.nodes_eq, h.head_eq, h.tail_eq]
  exact owns_chain q.pushed q.popped.length h.popped_le

/-- The `k`-th node, unlinked: it holds the value pushed `k`-th and removed `k`-th, and stays as
it was when it was taken off. -/
structure Unlinked (q : ConcurrentQueue α) (k : Nat) (oldHead : Node α) : Prop where
  lt : k < q.popped.length
  node : q.nodes[k]? = some oldHead
  data : q.pushed[k]? = oldHead.data
  removed : q.popped[k]? = some oldHead.data

/-- Whoever has unlinked a node and not yet returned its data: it is one of the nodes taken off,
and no other thread has the same one. -/
structure Returning (q : ConcurrentQueue α) : Prop where
  unlinked : ∀ (t : Nat) oldHead, q.threads[t]? = some (.subtracting oldHead) →
    ∃ k, q.Unlinked k oldHead
  alone : ∀ (t i : Nat) oldHead k, q.threads[t]? = some (.subtracting oldHead) →
    q.threads[i]? = some (.subtracting oldHead) → q.Unlinked k oldHead → i = t

/-- Where nothing was pushed or removed the unlinked nodes are the same. -/
theorem Unlinked.of_eq {k : Nat} {oldHead : Node α} (h : q.Unlinked k oldHead)
    (hpushed : q'.pushed = q.pushed) (hpopped : q'.popped = q.popped)
    (hnodes : q'.nodes = q.nodes) : q'.Unlinked k oldHead :=
  ⟨hpopped ▸ h.lt, hnodes ▸ h.node, hpushed ▸ h.data, hpopped ▸ h.removed⟩

/-- An unlinked node has a value, never a null pointer. -/
theorem Unlinked.isSome {k : Nat} {oldHead : Node α} (hs : q.Linked) (h : q.Unlinked k oldHead) :
    oldHead.data.isSome = true := by
  have hlt : k < q.pushed.length := Nat.lt_of_lt_of_le h.lt hs.popped_le
  rw [← h.data, List.getElem?_eq_getElem hlt]
  rfl

/-- `Push` writes behind every node that was unlinked. -/
theorem Unlinked.link {k : Nat} {oldHead : Node α} (hs : q.Linked) (h : q.Unlinked k oldHead)
    (newValue : α) : (q.link newValue).Unlinked k oldHead := by
  have hlt : k < q.pushed.length := Nat.lt_of_lt_of_le h.lt hs.popped_le
  have hold : q.pushed[k]? = some q.pushed[k] := List.getElem?_eq_getElem hlt
  have hnew : (q.pushed ++ [newValue])[k]? = q.pushed[k]? := List.getElem?_append_left hlt
  refine ⟨h.lt, ?_, hnew.trans h.data, h.removed⟩
  rw [(hs.link newValue).nodes_eq]
  calc (chain (q.pushed ++ [newValue]))[k]?
      = some ⟨some q.pushed[k], some (k + 1)⟩ := chain_getElem? (hnew.trans hold)
    _ = (chain q.pushed)[k]? := (chain_getElem? hold).symm
    _ = some oldHead := by rw [← hs.nodes_eq, h.node]

/-- A later removal leaves it as it was. -/
theorem Unlinked.pop {k : Nat} {oldHead : Node α} (h : q.Unlinked k oldHead) {data : Option α}
    (hpushed : q'.pushed = q.pushed) (hpopped : q'.popped = q.popped ++ [data])
    (hnodes : q'.nodes = q.nodes) : q'.Unlinked k oldHead := by
  refine ⟨?_, hnodes ▸ h.node, hpushed ▸ h.data, ?_⟩
  · rw [hpopped, List.length_append]
    exact Nat.lt_add_right _ h.lt
  · rw [hpopped, List.getElem?_append_left h.lt, h.removed]

/-- The successor of an unlinked node tells which one it is. -/
theorem Unlinked.next_eq {k : Nat} {oldHead : Node α} (hs : q.Linked) (h : q.Unlinked k oldHead) :
    oldHead.next = some (k + 1) := by
  have hlt : k < q.pushed.length := Nat.lt_of_lt_of_le h.lt hs.popped_le
  have hnode := h.node
  rw [hs.nodes_eq, chain_getElem? (List.getElem?_eq_getElem hlt), Option.some.injEq] at hnode
  rw [← hnode]

/-- `pop_head` on a chain with an item unlinks the node that `m_head` owned. -/
theorem Linked.unlinked {oldHead : Node α} (h : q.Linked) (hready : 0 < q.linkedItems)
    (hpop : q.popHead = some (q', oldHead)) : q'.Unlinked q.popped.length oldHead := by
  obtain ⟨x, hx, rfl⟩ := h.popHead hready hpop
  have hnode : q.nodes[q.popped.length]? = some ⟨some x, some (q.popped.length + 1)⟩ :=
    h.nodes_eq ▸ chain_getElem? hx
  simp only [ConcurrentQueue.popHead, h.head_eq, Option.bind_some, hnode, Option.map_some,
    Option.some.injEq, Prod.mk.injEq] at hpop
  obtain ⟨-, rfl⟩ := hpop
  refine ⟨?_, hnode, hx, List.getElem?_concat_length⟩
  rw [List.length_append]
  exact Nat.lt_succ_self _

/-- A step that links and pops nothing leaves the unlinked nodes to their threads. -/
theorem Returning.goto (h : q.Returning) {t : Nat} {pc : QueueThread α}
    (hthreads : q'.threads = q.threads.set t pc) (hpushed : q'.pushed = q.pushed)
    (hpopped : q'.popped = q.popped) (hnodes : q'.nodes = q.nodes)
    (hpc : ∀ oldHead, pc ≠ .subtracting oldHead) : q'.Returning := by
  have hback : ∀ (i : Nat) node, q'.threads[i]? = some (.subtracting node) →
      q.threads[i]? = some (.subtracting node) := by
    intro i node hi
    rw [hthreads] at hi
    exact Threads.at_of_set hi (hpc node)
  constructor
  · intro i node hi
    obtain ⟨k, hk⟩ := h.unlinked i node (hback i node hi)
    exact ⟨k, hk.of_eq hpushed hpopped hnodes⟩
  · intro i j node k hi hj hk
    exact h.alone i j node k (hback i node hi) (hback j node hj)
      (hk.of_eq hpushed.symm hpopped.symm hnodes.symm)

/-- One step leaves the threads that return with the nodes they unlinked. -/
theorem Returning.step {l : QueueLabel α} (hs : q.Sound) (h : q.Returning)
    (hstep : Moves q l q') : q'.Returning := by
  have hs' := hs.step hstep
  cases hstep with
  | push | waitPop | add | lock | found | empty | block | subtract | lose | wakeUp =>
    exact h.goto rfl rfl rfl rfl nofun
  | @wake t woken =>
    have hout : (q.goto t .outside).Returning := h.goto rfl rfl rfl rfl nofun
    exact hout.goto rfl rfl rfl rfl nofun
  | @link t newValue hat =>
    have hback : ∀ (i : Nat) node,
        (q.threads.set t .adding)[i]? = some (.subtracting node) →
          q.threads[i]? = some (.subtracting node) :=
      fun i node hi => Threads.at_of_set hi nofun
    constructor
    · intro i node hi
      obtain ⟨k, hk⟩ := h.unlinked i node (hback i node hi)
      have hlink := hk.link hs.linked newValue
      exact ⟨k, hlink.of_eq rfl rfl rfl⟩
    · intro i j node k hi hj hk
      obtain ⟨k₀, hk₀⟩ := h.unlinked i node (hback i node hi)
      exact h.alone i j node k₀ (hback i node hi) (hback j node hj) hk₀
  | @popHead t q₁ oldHead hat hpop =>
    have hready := hs.found t hat
    have hunlinked : q₁.Unlinked q.popped.length oldHead := hs.linked.unlinked hready hpop
    have hlinked : q₁.Linked := hs.linked.pop hready hpop
    obtain ⟨x, hx, rfl⟩ := hs.linked.popHead hready hpop
    -- the node just taken off is behind all those that were taken off before
    have hfresh : ∀ (i : Nat), q.threads[i]? ≠ some (.subtracting oldHead) := by
      intro i hi
      obtain ⟨k, hk⟩ := h.unlinked i oldHead hi
      have hnext := hunlinked.next_eq hlinked
      rw [hk.next_eq hs.linked] at hnext
      cases hnext
      exact absurd hk.lt (Nat.lt_irrefl _)
    constructor
    · intro i node hi
      obtain ⟨-, heq⟩ | ⟨-, hi⟩ := Threads.at_set hi
      · cases heq
        exact ⟨_, hunlinked.of_eq rfl rfl rfl⟩
      · obtain ⟨k, hk⟩ := h.unlinked i node hi
        exact ⟨k, hk.pop rfl rfl rfl⟩
    · intro i j node k hi hj _
      obtain ⟨rfl, heq⟩ | ⟨-, hi⟩ := Threads.at_set hi
      · cases heq
        obtain ⟨rfl, -⟩ | ⟨-, hj⟩ := Threads.at_set hj
        · rfl
        · exact absurd hj (hfresh j)
      · obtain ⟨-, heq⟩ | ⟨-, hj⟩ := Threads.at_set hj
        · cases heq
          exact absurd hi (hfresh i)
        · obtain ⟨k, hk⟩ := h.unlinked i node hi
          exact h.alone i j node k hi hj hk

theorem returning_of_reachable {ok : ConcurrentQueue α → QueueLabel α → Prop}
    (h : (machine α).ReachableBy ok q) : q.Returning := by
  refine h.invariant_with (fun _ => sound_of_reachable) ?_ fun _ _ _ hs hr _ hstep =>
    hr.step hs (moves_of_step hstep)
  rintro _ ⟨n, count, rfl⟩
  have houtside : ∀ (t : Nat) (node : Node α),
      (new n count : ConcurrentQueue α).threads[t]? ≠ some (.subtracting node) := by
    intro t node hat
    cases (List.mem_replicate.mp (List.mem_of_getElem? hat)).2
  exact ⟨fun t node hat => absurd hat (houtside t node),
    fun t _ node _ hat => absurd hat (houtside t node)⟩

/-- The queue as a queue. `removals`: what `pop_head` took off is, in order, a beginning of what
was pushed, and the rest is the chain that `m_head` owns, with `m_tail` at its end. `popping`:
`pop_head` never meets the dummy alone. `returning`: what a `WaitPop` returns is never null, is
the value of its own removal, and of no other thread's. -/
structure FirstInFirstOut (q : ConcurrentQueue α) : Prop where
  removals : ∃ rest, q.pushed.map some = q.popped ++ rest.map some ∧ Owns q.nodes q.head rest q.tail
  popping : ∀ t : Nat, q.threads[t]? = some .popping →
    q.head ≠ some q.tail ∧ (q.step (.next t)).isSome = true
  returning : ∀ (t : Nat) oldHead, q.threads[t]? = some (.subtracting oldHead) →
    oldHead.data.isSome = true ∧ ∃ k, q.Unlinked k oldHead ∧
      ∀ i : Nat, q.threads[i]? = some (.subtracting oldHead) → i = t

/-- What was removed and what is still owned are together what was pushed. -/
theorem Linked.removals (h : q.Linked) :
    q.pushed.map some = q.popped ++ (q.pushed.drop q.popped.length).map some := by
  calc q.pushed.map some
      = (q.pushed.take q.popped.length ++ q.pushed.drop q.popped.length).map some := by
        rw [List.take_append_drop]
    _ = (q.pushed.take q.popped.length).map some ++
          (q.pushed.drop q.popped.length).map some := List.map_append
    _ = q.popped ++ (q.pushed.drop q.popped.length).map some := by rw [← h.popped_eq]

/-- A thread that has found an item can take it. -/
theorem Sound.isSome_next (h : q.Sound) {t : Nat} (hat : q.threads[t]? = some .popping) :
    (q.step (.next t)).isSome = true := by
  have hlt : q.popped.length < q.pushed.length := Nat.lt_of_sub_pos (h.found t hat)
  have hnode : q.nodes[q.popped.length]? = some ⟨some _, some (q.popped.length + 1)⟩ :=
    h.linked.nodes_eq ▸ chain_getElem? (List.getElem?_eq_getElem hlt)
  simp only [ConcurrentQueue.step, hat, Option.bind_some, advance, ConcurrentQueue.popHead,
    h.linked.head_eq, hnode, Option.map_some, Option.isSome_some]

/-- LINEARIZABILITY: for any number of threads and any interleaving of the two mutexes' sections
the queue is first in, first out. -/
theorem firstInFirstOut_of_reachable (h : (machine α).Reachable q) : q.FirstInFirstOut := by
  have hs := sound_of_reachable h
  have hr := returning_of_reachable h
  refine ⟨⟨_, hs.linked.removals, hs.linked.owns⟩, fun t hat => ⟨?_, hs.isSome_next hat⟩, ?_⟩
  · exact bne_iff_ne.mp (hs.linked.ready_iff.mpr (hs.found t hat))
  · intro t oldHead hat
    obtain ⟨k, hk⟩ := hr.unlinked t oldHead hat
    exact ⟨hk.isSome hs.linked, k, hk, fun i hi => hr.alone t i oldHead k hat hi hk⟩

/-- A `Push` between the removal of the only item and the return of its value: the removed node
stays as it was, and the new value waits behind the old dummy. -/
theorem firstInFirstOut_of_reachable_between :
    ∃ q : ConcurrentQueue Nat, (machine Nat).run (new 2 0)
        [.push 0 7, .next 0, .waitPop 1, .next 1, .next 1, .next 1, .next 0, .notifyOne 0 none,
          .push 0 8, .next 0] = some q ∧
      q.threads[1]? = some (.subtracting ⟨some 7, some 1⟩) ∧ q.popped = [some 7] ∧
      q.pushed = [7, 8] ∧ q.FirstInFirstOut := by
  have hrun : (machine Nat).run (new 2 0)
      [.push 0 7, .next 0, .waitPop 1, .next 1, .next 1, .next 1, .next 0, .notifyOne 0 none,
        .push 0 8, .next 0] = some _ := rfl
  exact ⟨_, hrun, rfl, rfl, rfl, firstInFirstOut_of_reachable (.run (.start ⟨2, 0, rfl⟩) hrun)⟩

end ConcurrentQueue

end DSFramework.DSCommunication
