import Mathlib.Algebra.BigOperators.Group.Finset.Basic
import DSFramework.DSRPC.Exchange
import DSFramework.DSRPC.RPCServer.WakeUps

/-!
# Every call is answered

What clients, transport and server have to do once no more calls are made. Each connection has the
steps of its own frames left, the server those of its requests, and what one hands over it pays for:
a frame that is delivered costs its connection what the request costs the server, a response that is
sent costs the server what its frame costs the connection. Only the sessions that have been called
count, and these are finitely many.

So all of it ends, and where it has ended every call that a client's send queue had accepted has
been received, and its last response has been parsed by the client or has been dropped by a full
queue. `watched` has the dispatchers' waits beside it all, as `RPCServer.watched` has: they take
boundedly many steps, too, and sleep at the end where they have not lost an item's last hope.
-/

namespace DSFramework.DSRPC

open DSCommunication (Endian Writer Frame Reader Connection ConnectionLabel)

namespace Exchange

open DSCommunication.Connection (frameSteps)

/-- The steps that bring calls to the server and responses to clients: all but calls and errors. -/
def ofDelivery : ExchangeLabel → Bool
  | .call _ _ => false
  | .rise _ l | .fall _ l => Connection.ofDelivery l
  | .deliver _ _ => true
  | .serve l => RPCServer.own l

/-- How many steps are left on a session's connections, and for the server from what they carry. -/
def costAt (x : Exchange) (s : Nat) : Nat :=
  (x.up s).stepsLeft +
    (4 * frameSteps + 48) * ((x.up s).writer.accepted.length - (x.up s).reader.onData.length) +
    (x.down s).stepsLeft

/-- How many steps are left. -/
def cost (sessions : Finset Nat) (x : Exchange) : Nat :=
  ∑ s ∈ sessions, x.costAt s + x.server.stepsLeft frameSteps

/-- What changes at one place of a sum. -/
theorem sum_at {sessions : Finset Nat} {f f' : Nat → Nat} {s : Nat} (hs : s ∈ sessions)
    (hoff : ∀ s', s' ≠ s → f' s' = f s') :
    ∑ s' ∈ sessions, f' s' + f s = ∑ s' ∈ sessions, f s' + f' s := by
  have hrest : ∑ s' ∈ sessions.erase s, f' s' = ∑ s' ∈ sessions.erase s, f s' :=
    Finset.sum_congr rfl fun s' hs' => hoff s' (Finset.ne_of_mem_erase hs')
  rw [← Finset.sum_erase_add _ f' hs, ← Finset.sum_erase_add _ f hs, hrest]
  omega

/-- The same where the place need not be in the sum. -/
theorem sum_le_at {sessions : Finset Nat} {f f' : Nat → Nat} {s k : Nat}
    (hoff : ∀ s', s' ≠ s → f' s' = f s') (hle : f' s ≤ f s + k) :
    ∑ s' ∈ sessions, f' s' ≤ ∑ s' ∈ sessions, f s' + k := by
  by_cases hs : s ∈ sessions
  · have hsum := sum_at hs hoff
    omega
  · have hsame : ∑ s' ∈ sessions, f' s' = ∑ s' ∈ sessions, f s' :=
      Finset.sum_congr rfl fun s' hs' => hoff s' fun heq => hs (heq ▸ hs')
    omega

variable {runtime : Runtime} {C : Setting} {e : Nat → Endian} {x x' : Exchange}
  {l : ExchangeLabel} {sessions : Finset Nat}

/-- Nothing has failed, and calls have been made on these sessions. -/
structure Whole (runtime : Runtime) (C : Setting) (sessions : Finset Nat) (x : Exchange) : Prop where
  joined : x.Joined runtime C
  up : ∀ s, (x.up s).cut = false ∧ (x.up s).writer.failed = false
  down : ∀ s, (x.down s).cut = false ∧ (x.down s).writer.failed = false
  within : ∀ s, x.called s ≠ [] → s ∈ sessions

theorem Whole.healthy_up (h : x.Whole runtime C sessions) (s : Nat) : (x.up s).Healthy :=
  ⟨h.joined.up s, (h.up s).1, (h.up s).2⟩

theorem Whole.healthy_down (h : x.Whole runtime C sessions) (s : Nat) : (x.down s).Healthy :=
  ⟨h.joined.down s, (h.down s).1, (h.down s).2⟩

/-- Where a client has not been called, nothing is under way. -/
theorem Joined.silent (h : x.Joined runtime C) {s : Nat} (hs : x.called s = []) :
    (x.up s).stepsLeft = 0 ∧ (x.down s).stepsLeft = 0 := by
  constructor
  · refine (h.up s).stepsLeft_eq ?_
    have hcalled := h.called s
    rw [hs, List.map_nil, List.sublist_nil, List.map_eq_nil_iff] at hcalled
    exact hcalled
  · refine (h.down s).stepsLeft_eq ?_
    have hsent : x.server.sentTo s = [] := by
      apply List.eq_nil_iff_forall_not_mem.mpr
      intro y hy
      obtain ⟨c, hc, hreplies⟩ := h.replies s hy
      have hreceived : c.received ∈ x.server.receivedOn s :=
        List.mem_map_of_mem (List.mem_filter.mpr
          ⟨List.mem_of_getElem? hc, beq_iff_eq.mpr hreplies.session⟩)
      have hcalled := (h.receivedOn s).mem hreceived
      rw [hs] at hcalled
      cases hcalled
    have hcarried := RPCServer.carried_of_reachable (h.server.mono fun _ _ hok => hok.fits)
    have hbodies := hcarried.bodies s
    rw [hsent, List.map_nil, List.map_nil, List.sublist_nil, List.map_eq_nil_iff] at hbodies
    exact hbodies

/-- A session on which something is left has been called. -/
theorem Whole.mem (h : x.Whole runtime C sessions) {s : Nat}
    (hleft : 0 < (x.up s).stepsLeft ∨ 0 < (x.down s).stepsLeft) : s ∈ sessions := by
  by_contra hs
  have hcalled : x.called s = [] := by
    by_contra hne
    exact hs (h.within s hne)
  obtain ⟨hup, hdown⟩ := h.joined.silent hcalled
  omega

/-- A step that changes one session's part of the connections, and lowers it. -/
theorem cost_at (spent : Nat) {s : Nat} (hs : s ∈ sessions)
    (hoff : ∀ s', s' ≠ s → x'.costAt s' = x.costAt s') (hat : x'.costAt s + spent < x.costAt s)
    (hserver : x'.server.stepsLeft frameSteps ≤ x.server.stepsLeft frameSteps + spent) :
    x'.cost sessions < x.cost sessions := by
  have hsum := sum_at hs hoff
  unfold cost
  omega

/-- A step of a client's connection that delivers nothing. -/
theorem Whole.rise (h : x.Whole runtime C sessions) {s : Nat} {l : ConnectionLabel}
    {c : Connection} (hl : Connection.ofDelivery l = true)
    (hhead : l = .read → (x.up s).reader.awaiting = some .headRead)
    (hstep : (Connection.machine (e s) C.endian).step (x.up s) l = some c)
    (hjoined : Joined runtime C { x with up := setAt x.up s c }) :
    Whole runtime C sessions { x with up := setAt x.up s c } ∧
      cost sessions { x with up := setAt x.up s c } < x.cost sessions := by
  obtain ⟨hhealthy, haccepted, hlt⟩ := (h.healthy_up s).pay hl hstep
  have hdata := (h.joined.up s).onData_kept hhead hstep
  refine ⟨⟨hjoined, ?_, h.down, h.within⟩, ?_⟩
  · exact setAt_all (P := fun _ (c : Connection) => c.cut = false ∧ c.writer.failed = false) h.up
      ⟨hhealthy.uncut, hhealthy.unfailed⟩
  · refine cost_at 0 (s := s) (h.mem (.inl (Nat.zero_lt_of_lt hlt))) (fun s' hs => ?_) ?_
      (Nat.le_refl _)
    · simp only [costAt, setAt_of_ne hs]
      rfl
    · have hdown : Exchange.down { x with up := setAt x.up s c } s = x.down s := rfl
      simp only [costAt, setAt_self, haccepted, hdata, hdown]
      omega

/-- The delivery of a body pays for what the server does with it. -/
theorem Whole.deliver (h : x.Whole runtime C sessions) {s t : Nat} {body : List UInt8}
    {c : Connection} {v : RPCServer} (hbody : (x.up s).reader.awaiting = some .bodyRead)
    (hstep : (Connection.machine (e s) C.endian).step (x.up s) .read = some c)
    (hv : (RPCServer.machine (C.generated runtime)).step x.server (.deliver t body) = some v)
    (hjoined : Joined runtime C { x with server := v, up := setAt x.up s c }) :
    Whole runtime C sessions { x with server := v, up := setAt x.up s c } ∧
      cost sessions { x with server := v, up := setAt x.up s c } < x.cost sessions := by
  obtain ⟨hhealthy, haccepted, hlt⟩ := (h.healthy_up s).pay rfl hstep
  obtain ⟨frame, -, hdata⟩ := (h.joined.up s).onData_read hbody hstep
  have hmoves : RPCServer.Moves (C.generated runtime) x.server (.deliver t body) v :=
    RPCServer.moves_of_step hv
  have hpay := hmoves.pay frameSteps (RPCServer.running_of_step hv)
  have hwriters : v.writers = x.server.writers := by
    cases hmoves
    rfl
  have hdown : ∀ s', Exchange.down { x with server := v, up := setAt x.up s c } s' = x.down s' := by
    intro s'
    simp only [Exchange.down, hwriters]
  refine ⟨⟨hjoined, ?_, fun s' => ?_, h.within⟩, ?_⟩
  · exact setAt_all (P := fun _ (c : Connection) => c.cut = false ∧ c.writer.failed = false) h.up
      ⟨hhealthy.uncut, hhealthy.unfailed⟩
  · rw [hdown]
    exact h.down s'
  · refine cost_at (4 * frameSteps + 48) (h.mem (.inl (Nat.zero_lt_of_lt hlt)))
      (fun s' hs => ?_) ?_ hpay
    · simp only [costAt, setAt_of_ne hs, hdown]
    · have hle := hhealthy.toFlowing.length_le
      rw [haccepted, hdata, List.length_append, List.length_singleton] at hle
      have hless : (x.up s).writer.accepted.length - (x.up s).reader.onData.length =
          (x.up s).writer.accepted.length - ((x.up s).reader.onData.length + 1) + 1 := by omega
      simp only [costAt, setAt_self, haccepted, hdata, hdown, List.length_append,
        List.length_singleton, hless, Nat.mul_add, Nat.mul_one]
      omega

/-- A step of the server's own pays for the frame that it may put on the way. -/
theorem Whole.serve (h : x.Whole runtime C sessions) {l : RPCLabel} {v : RPCServer}
    (hown : RPCServer.own l = true) (hfits : x.server.fits l = true)
    (hv : (RPCServer.machine (C.generated runtime)).step x.server l = some v)
    (hjoined : Joined runtime C { x with server := v }) :
    Whole runtime C sessions { x with server := v } ∧
      cost sessions { x with server := v } < x.cost sessions := by
  have hmoves : RPCServer.Moves (C.generated runtime) x.server l v := RPCServer.moves_of_step hv
  have hpay := hmoves.pay frameSteps (RPCServer.running_of_step hv)
  have hcomplete : ∀ s position success, l ≠ .completeWrite s position success := by
    rintro s position success rfl
    cases hown
  have hearned : RPCServer.earned frameSteps l = 0 := by
    cases l with
    | deliver => cases hown
    | _ => rfl
  have hspent : 1 ≤ RPCServer.spent frameSteps l := by
    cases l with
    | deliver | completeWrite => cases hown
    | sendResponse => exact Nat.le_add_left 1 _
    | _ => exact Nat.le_refl 1
  have hdown : ∀ s, Exchange.down { x with server := v } s =
      { x.down s with writer := v.writers s } := fun _ => rfl
  rcases hmoves.writers_own hcomplete hfits with heq | ⟨rfl, s, data, hok, heq⟩
  · have hsame : ∀ s, Exchange.down { x with server := v } s = x.down s := by
      intro s
      rw [hdown, heq]
      rfl
    refine ⟨⟨hjoined, h.up, fun s => ?_, h.within⟩, ?_⟩
    · rw [hsame]
      exact h.down s
    · have hsum : ∑ s ∈ sessions, costAt { x with server := v } s = ∑ s ∈ sessions, x.costAt s :=
        Finset.sum_congr rfl fun s _ => by simp only [costAt, hsame]
      simp only [cost, hsum]
      omega
  · obtain ⟨hhealthy, hle⟩ := (h.healthy_down s).send (e := C.endian) hok
    have hoff : ∀ s', s' ≠ s → Exchange.down { x with server := v } s' = x.down s' := by
      intro s' hs
      rw [hdown, heq]
      simp only [RPCServer.setWriter, if_neg hs]
      rfl
    have hat : Exchange.down { x with server := v } s = { x.down s with
        writer := (x.down s).writer.send C.endian data data.length } := by
      rw [hdown, heq]
      simp only [RPCServer.setWriter, if_true]
      rfl
    refine ⟨⟨hjoined, h.up, fun s' => ?_, h.within⟩, ?_⟩
    · by_cases hs : s' = s
      · subst hs
        rw [hat]
        exact ⟨hhealthy.uncut, hhealthy.unfailed⟩
      · rw [hoff s' hs]
        exact h.down s'
    · have hsum : ∑ s' ∈ sessions, costAt { x with server := v } s' ≤
          ∑ s' ∈ sessions, x.costAt s' + frameSteps := by
        refine sum_le_at (s := s) (fun s' hs => ?_) ?_
        · simp only [costAt, hoff s' hs]
        · simp only [costAt, hat]
          omega
      simp only [RPCServer.spent, RPCServer.earned] at hpay
      simp only [cost]
      omega

/-- A step of a connection to a client. -/
theorem Whole.fall (h : x.Whole runtime C sessions) {s : Nat} {l : ConnectionLabel}
    {c : Connection} {v : RPCServer} {downlink : Nat → Downlink}
    (hl : Connection.ofDelivery l = true)
    (hstep : (Connection.machine C.endian (e s)).step (x.down s) l = some c)
    (hdown : ∀ s', Exchange.down { x with server := v, downlink := downlink } s' =
      if s' = s then c else x.down s')
    (hserver : v.stepsLeft frameSteps ≤ x.server.stepsLeft frameSteps)
    (hjoined : Joined runtime C { x with server := v, downlink := downlink }) :
    Whole runtime C sessions { x with server := v, downlink := downlink } ∧
      cost sessions { x with server := v, downlink := downlink } < x.cost sessions := by
  obtain ⟨hhealthy, -, hlt⟩ := (h.healthy_down s).pay hl hstep
  refine ⟨⟨hjoined, h.up, fun s' => ?_, h.within⟩, ?_⟩
  · rw [hdown]
    split
    · exact ⟨hhealthy.uncut, hhealthy.unfailed⟩
    · exact h.down s'
  · refine cost_at 0 (s := s) (h.mem (.inr (Nat.zero_lt_of_lt hlt)))
      (fun s' hs => ?_) ?_ hserver
    · simp only [costAt, hdown, if_neg hs]
    · simp only [costAt, hdown, if_true]
      omega

/-- A completion of the server's is one of the connection. -/
theorem completes (e : Nat → Endian) {s position : Nat} {success : Bool} {w : Writer}
    (hover : success = true → (x.down s).handedOver position = true)
    (hw : (Writer.machine C.endian).step (x.server.writers s) (.complete position success) =
      some w) :
    (Connection.machine C.endian (e s)).step (x.down s) (.complete position success) =
      some { x.down s with writer := w, sent := if success then 0 else (x.down s).sent } := by
  have hready : (success && !(x.down s).handedOver position) = false := by
    cases success with
    | false => rfl
    | true => simp [hover rfl]
  simp only [Connection.machine, Connection.step, hready, Bool.false_eq_true, if_false]
  exact Option.map_eq_some_iff.mpr ⟨w, hw, rfl⟩

/-- Every step of the delivery takes one of the steps left. -/
theorem Whole.step (h : x.Whole runtime C sessions) (hok : Ok runtime x l)
    (hl : ofDelivery l = true) (hstep : (machine (C.generated runtime) e).step x l = some x') :
    x'.Whole runtime C sessions ∧ x'.cost sessions < x.cost sessions := by
  have hmoves := moves_of_step hstep
  have hjoined := h.joined.step hok hmoves
  cases hmoves with
  | call | notSerialized => cases hl
  | rise hsend hhead hc => exact h.rise hl hhead hc hjoined
  | deliver hbody hthread hc harrived hv => exact h.deliver hbody hc hv hjoined
  | serve hdeliver hcomplete hv => exact h.serve hl hok.2.1 hv hjoined
  | @complete s position success v hover hv =>
    have hmoves : RPCServer.Moves (C.generated runtime) x.server
        (.completeWrite s position success) v := RPCServer.moves_of_step hv
    cases hmoves with
    | @completeWrite _ _ _ w hw =>
      have hc := completes e hover hw
      refine h.fall hl hc (fun s' => ?_) (Nat.le_refl _) hjoined
      by_cases hs : s' = s
      · subst hs
        simp only [Exchange.down, setAt_self, RPCServer.setWriter, if_true]
      · simp only [Exchange.down, setAt_of_ne hs, RPCServer.setWriter, if_neg hs]
  | @fall s l c hsend hcomplete hc =>
    have hwriter : c.writer = x.server.writers s := Connection.writer_kept hsend hcomplete hc
    refine h.fall hl hc (fun s' => ?_) (Nat.le_refl _) hjoined
    by_cases hs : s' = s
    · subst hs
      simp only [Exchange.down, setAt_self, rest, ← hwriter, if_true]
    · simp only [Exchange.down, setAt_of_ne hs, if_neg hs]

/-! ## At the end -/

/-- Nothing can be done but to call. -/
def Stuck (C : Setting) (e : Nat → Endian) (x : Exchange) : Prop :=
  ∀ l, ofDelivery l = true → (machine C e).step x l = none

theorem serve_eq_none {l : RPCLabel} (hl : RPCServer.own l = true) :
    (machine C e).step x (.serve l) = none ↔ (RPCServer.machine C).step x.server l = none := by
  cases l with
  | deliver | completeWrite => cases hl
  | take | advance | takeResponse | subtractResponse | sendResponse => exact Option.map_eq_none_iff

/-- All frames of a client's have been delivered. -/
theorem Whole.received (h : x.Whole runtime C sessions) (hstuck : x.Stuck (C.generated runtime) e)
    (hrests : x.server.Rests) (hrunning : x.server.terminated = false)
    (hio : ∀ s, x.called s ≠ [] → .io s ∈ x.server.threads.map RPCThread.role) (s : Nat) :
    (x.up s).reader.onData = (x.up s).writer.accepted.map Frame.body := by
  refine (h.joined.up s).delivered.eq_of_length ?_
  rw [List.length_map]
  by_contra hne
  have hlt : (x.up s).reader.onData.length < (x.up s).writer.accepted.length :=
    Nat.lt_of_le_of_ne (h.joined.up s).length_le hne
  obtain ⟨l, hl, hsome⟩ := @Connection.Healthy.progress (e s) C.endian _ (h.healthy_up s) hlt
  obtain ⟨c, hc⟩ := Option.isSome_iff_exists.mp hsome
  have hc' : (x.up s).step (e s) C.endian l = some c := hc
  have hnone := hstuck (.rise s l) hl
  cases l with
  | send | readError => cases hl
  | transmit | complete =>
    simp only [machine, Exchange.step, Setting.generated, hc', Option.map_some] at hnone
    cases hnone
  | read =>
    by_cases hhead : (x.up s).reader.awaiting = some .headRead
    · simp only [machine, Exchange.step, Setting.generated, hhead, if_true, hc',
        Option.map_some] at hnone
      cases hnone
    · have hbody : (x.up s).reader.awaiting = some .bodyRead := by
        cases (h.joined.up s).stands (h.up s).1 with
        | head hhead' => exact absurd hhead' hhead
        | body hbody => exact hbody
      -- a thread of the session is idle
      have hcalled : x.called s ≠ [] := by
        intro hnil
        have hleft := (h.joined.silent hnil).1
        have hpaid := ((h.healthy_up s).pay rfl hc).2.2
        omega
      obtain ⟨th, hth, hrole⟩ := List.mem_map.mp (hio s hcalled)
      obtain ⟨t, hat⟩ := List.mem_iff_getElem?.mp hth
      obtain ⟨role, s₀, a₀, ops⟩ := th
      obtain rfl : ops = [] := hrests.quiet.1 _ hth
      obtain rfl : role = .io s := hrole
      obtain ⟨frame, -, hdata⟩ := (h.joined.up s).onData_read hbody hc
      have harrived : arrived (x.up s) c = [frame.body] := by
        rw [arrived, hdata, List.drop_left' rfl]
      have hdelivered := hstuck (.deliver s t) rfl
      simp only [machine, Exchange.step, Setting.generated, hbody, hat, Option.map_some, and_self,
        if_true, hc', Option.bind_some, harrived, RPCServer.step, hrunning, Bool.false_eq_true,
        if_false] at hdelivered
      cases hdelivered

/-- All frames of the server's have been delivered. -/
theorem Whole.delivered (h : x.Whole runtime C sessions)
    (hstuck : x.Stuck (C.generated runtime) e) (hrunning : x.server.terminated = false) (s : Nat) :
    (x.down s).reader.onData = (x.server.writers s).accepted.map Frame.body := by
  refine (h.joined.down s).delivered.eq_of_length ?_
  rw [List.length_map]
  by_contra hne
  have hlt : (x.down s).reader.onData.length < (x.down s).writer.accepted.length :=
    Nat.lt_of_le_of_ne (h.joined.down s).length_le hne
  obtain ⟨l, hl, hsome⟩ := @Connection.Healthy.progress C.endian (e s) _ (h.healthy_down s) hlt
  obtain ⟨c, hc⟩ := Option.isSome_iff_exists.mp hsome
  have hc' : (x.down s).step C.endian (e s) l = some c := hc
  have hnone := hstuck (.fall s l) hl
  cases l with
  | send | readError => cases hl
  | transmit | read =>
    simp only [machine, Exchange.step, Setting.generated, hc', Option.map_some] at hnone
    cases hnone
  | complete position success =>
    simp only [Connection.step] at hc'
    split at hc'
    · cases hc'
    · next hover =>
      obtain ⟨w, hw, -⟩ := Option.map_eq_some_iff.mp hc'
      have hw' : (Writer.machine C.endian).step (x.server.writers s)
          (.complete position success) = some w := hw
      simp only [machine, Exchange.step, hover, if_false, RPCServer.step, hrunning,
        Setting.generated, Bool.false_eq_true, hw', Option.map_some] at hnone
      cases hnone

/-- A call adds its session to those that have been called. -/
theorem mem_of_called (hsessions : ∀ s, x.called s ≠ [] → s ∈ sessions) {s : Nat}
    {packets : List RPCPacket} (s' : Nat) (hne : setAt x.called s packets s' ≠ []) :
    s' ∈ insert s sessions := by
  by_cases hs : s' = s
  · exact hs ▸ Finset.mem_insert_self s sessions
  · rw [setAt_of_ne hs] at hne
    exact Finset.mem_insert_of_mem (hsessions s' hne)

/-- Finitely many clients have been called. -/
theorem called_of_reachable {ok : Exchange → ExchangeLabel → Prop}
    (h : (machine C e).ReachableBy ok x) :
    ∃ sessions : Finset Nat, ∀ s, x.called s ≠ [] → s ∈ sessions := by
  refine h.invariant (I := fun x => ∃ sessions : Finset Nat, ∀ s, x.called s ≠ [] → s ∈ sessions)
    ?_ ?_
  · intro x ⟨_, heq⟩
    refine ⟨∅, fun s hs => ?_⟩
    rw [heq] at hs
    exact absurd rfl hs
  · rintro x l x' ⟨sessions, hsessions⟩ - hstep
    cases moves_of_step hstep with
    | @call s | @notSerialized s => exact ⟨insert s sessions, mem_of_called hsessions⟩
    | rise | deliver | serve | complete | fall => exact ⟨sessions, hsessions⟩

/-- What has become of a response, for its client. -/
def Arrived (runtime : Runtime) (C : Setting) (x : Exchange) (y : Response) : Fate → Prop
  | .accepted _ =>
    some y.packet ∈ (x.down y.session).reader.onData.map (RPCPacket.parseFromArray runtime)
  | fate => x.server.Justified (C.generated runtime) y fate

/-- At the end every response that a send queue has accepted has been parsed by its client. -/
theorem Whole.arrived (h : x.Whole runtime C sessions) (hstuck : x.Stuck (C.generated runtime) e)
    (hrunning : x.server.terminated = false) {r : Nat} {y : Response} {fate : Fate}
    (hy : x.server.responses[r]? = some y) (hfate : y.fate = some fate)
    (hjustified : x.server.Justified (C.generated runtime) y fate) :
    Arrived runtime C x y fate := by
  cases fate with
  | queueFull | notSerialized | sendQueueFull => exact hjustified
  | accepted frame =>
    have hframed := RPCServer.framed_of_reachable (h.joined.server.mono fun _ _ hok => hok.fits)
    have hnormal := RPCServer.everywhere_of_reachable (closed_normal runtime)
      (fun _ _ hparse => RPCPacket.normal_parseFromArray hparse)
      (h.joined.server.mono fun _ _ hok => hok.answers)
    have hbody := hframed r y frame hy hfate
    have hle := ((h.joined.down y.session).frames frame hjustified.1).body_le
    rw [hbody, RPCPacket.length_internalSerialize] at hle
    have hparsed := RPCPacket.parseFromArray_internalSerialize
      ⟨hnormal.responses r y hy, Nat.lt_of_le_of_lt hle (by decide)⟩
    rw [Arrived, ← hparsed, h.delivered hstuck hrunning, ← hbody]
    exact List.mem_map_of_mem (List.mem_map_of_mem hjustified.1)

/-- Where nothing is left there is nothing to do. -/
theorem Whole.stuck (h : x.Whole runtime C sessions) (hrests : x.server.Rests)
    (hcost : ∀ s ∈ sessions, x.costAt s = 0) : x.Stuck (C.generated runtime) e := by
  have hup : ∀ {s : Nat} {l : ConnectionLabel} {c : Connection}, Connection.ofDelivery l = true →
      (Connection.machine (e s) C.endian).step (x.up s) l = some c → False := by
    intro s l c hl hc
    have hlt := ((h.healthy_up s).pay hl hc).2.2
    have hzero := hcost s (h.mem (.inl (Nat.zero_lt_of_lt hlt)))
    unfold costAt at hzero
    omega
  have hdown : ∀ {s : Nat} {l : ConnectionLabel} {c : Connection}, Connection.ofDelivery l = true →
      (Connection.machine C.endian (e s)).step (x.down s) l = some c → False := by
    intro s l c hl hc
    have hlt := ((h.healthy_down s).pay hl hc).2.2
    have hzero := hcost s (h.mem (.inr (Nat.zero_lt_of_lt hlt)))
    unfold costAt at hzero
    omega
  intro l hl
  cases hstep : (machine (C.generated runtime) e).step x l with
  | none => rfl
  | some x' =>
    exfalso
    cases moves_of_step hstep with
    | call | notSerialized => cases hl
    | rise hsend hhead hc => exact hup hl hc
    | deliver hbody hthread hc => exact hup rfl hc
    | serve hdeliver hcomplete hv =>
      rw [hrests.stuck hl] at hv
      cases hv
    | @complete s position success v hover hv =>
      have hmoves : RPCServer.Moves (C.generated runtime) x.server
          (.completeWrite s position success) v := RPCServer.moves_of_step hv
      cases hmoves with
      | completeWrite hw => exact hdown hl (completes e hover hw)
    | fall hsend hcomplete hc => exact hdown hl hc

/-- At the end every call that has got through has been received, and has had its last response. -/
theorem Whole.answered (h : x.Whole runtime C sessions) (hstuck : x.Stuck (C.generated runtime) e)
    (hrests : x.server.Rests) (hrunning : x.server.terminated = false)
    (hio : ∀ s, x.called s ≠ [] → .io s ∈ x.server.threads.map RPCThread.role) :
    (∀ s, (x.server.receivedOn s).map RPCPacket.internalSerialize =
      (x.up s).writer.accepted.map Frame.body) ∧
    ∀ (a : Nat) c, x.server.packets[a]? = some c → .escaped ∉ c.history →
      ∃ (r : Nat) (y : Response) (fate : Fate), x.server.responses[r]? = some y ∧
        y.request = a ∧ y.session = c.session ∧ y.event.terminal = true ∧
        y.fate = some fate ∧ Arrived runtime C x y fate := by
  have hserver := h.joined.server
  constructor
  · intro s
    rw [h.joined.received s]
    exact h.received hstuck hrests hrunning hio s
  · intro a c hc hescaped
    obtain ⟨r, y, fate, hy, rfl, hlast, hfate, hjustified⟩ := hrests.answered hserver hc hescaped
    obtain ⟨-, c', hc', hsession, -⟩ := RPCServer.answered_of_reachable hserver r y hy
    cases hc.symm.trans hc'
    have hevent := (RPCServer.parsed_of_reachable
      (hserver.mono fun _ _ hok => hok.parses)).responses r y hy
    have hterminal : y.event.terminal = true := by
      rw [RPCEvent.last, Bool.or_eq_true, beq_iff_eq] at hlast
      exact hlast.resolve_right hevent
    exact ⟨r, y, fate, hy, rfl, hsession.symm, hterminal, hfate,
      h.arrived hstuck hrunning hy hfate hjustified⟩

/-- A call leaves everything whole. -/
theorem Whole.call (h : x.Whole runtime C sessions) {s : Nat} {packet : RPCPacket}
    (hok : Ok runtime x (.call s packet))
    (hstep : (machine (C.generated runtime) e).step x (.call s packet) = some x') :
    x'.Whole runtime C (insert s sessions) := by
  have hmoves := moves_of_step hstep
  have hjoined := h.joined.step hok hmoves
  have hwithin : ∀ s', setAt x.called s (x.called s ++ [packet]) s' ≠ [] →
      s' ∈ insert s sessions := mem_of_called h.within
  cases hmoves with
  | notSerialized => exact ⟨hjoined, h.up, h.down, hwithin⟩
  | @call _ _ data size c hserialize hc =>
    refine ⟨hjoined, ?_, h.down, hwithin⟩
    refine setAt_all (P := fun _ (c : Connection) => c.cut = false ∧ c.writer.failed = false) h.up ?_
    have hserialized := Prod.mk.inj (serialize_generated hserialize hok.2)
    have hadmitted : Connection.admitted (.send data size) = true := by
      rw [hserialized.1, hserialized.2]
      exact Connection.admitted_natCast hok.2
    cases hc
    obtain ⟨hhealthy, -⟩ := (h.healthy_up s).send (e := e s) hadmitted
    exact ⟨hhealthy.uncut, hhealthy.unfailed⟩

/-! ## With the dispatchers' waits -/

/-- What becomes of the waits in a step: the server's own it may have to wait for. The body of a
delivery makes no difference to them. -/
def follow (x : Exchange) (l : ExchangeLabel) (w : Waits) : Option Waits :=
  match l with
  | .deliver _ t => Waits.follow x.server (.deliver t []) w
  | .serve l => Waits.follow x.server l w
  | .call _ _ | .rise _ _ | .fall _ _ => some w

/-- Clients and the server with its dispatchers' waits. -/
def watched (C : Setting) (e : Nat → Endian) :
    Transition.Machine (Exchange × Waits) (ExchangeLabel ⊕ WaitLabel) :=
  (machine C e).beside .start follow fun x => Waits.tick x.server

/-- The environment keeps to what it has to, and a notification that is lost is not the last hope of
an item. -/
def Noticed (runtime : Runtime) (x : Exchange × Waits) : ExchangeLabel ⊕ WaitLabel → Prop :=
  Sum.elim (Ok runtime x.1) fun k => Waits.noticed x.1.server x.2 k = true

/-- What clients and server do by themselves: no call, no error of a connection, no wake-up without
a notification. -/
def ofProgram : ExchangeLabel ⊕ WaitLabel → Bool := Sum.elim ofDelivery fun k => !k.spurious

/-- Neither a call nor an error of a connection. -/
def afterCalls : ExchangeLabel ⊕ WaitLabel → Bool := Sum.elim ofDelivery fun _ => true

open Transition.Machine (beside_cases beside_inl beside_inr step_of_beside beside_inl_eq_none
  beside_inr_eq_none)

variable {y y' : Exchange × Waits}

/-- A step can add a notification. -/
theorem follow_pay {w w' : Waits} (h : follow x l w = some w') :
    w'.stepsLeft ≤ w.stepsLeft + 3 * true.toNat := by
  cases l with
  | call | rise | fall =>
    cases h
    exact Nat.le_add_right _ _
  | deliver s t =>
    have hpaid := Waits.follow_pay h
    exact Nat.le_trans hpaid (Nat.add_le_add_left (Nat.zero_le _) _)
  | serve l =>
    have hpaid := Waits.follow_pay h
    have hown := Bool.toNat_le (RPCServer.own l)
    simp only [Bool.toNat_true]
    omega

/-- The server and its waits run as they do alone. -/
theorem watched_of_reachable (h : (watched C e).ReachableBy (Noticed runtime) y) :
    (RPCServer.watched C).ReachableBy (fun x l => RPCServer.noticed x l = true)
      (y.1.server, y.2) := by
  refine h.invariant (I := fun y => (RPCServer.watched C).ReachableBy
    (fun x l => RPCServer.noticed x l = true) (y.1.server, y.2)) ?_ ?_
  · exact fun y ⟨hinit, hstart⟩ => .start ⟨hinit.1, hstart⟩
  intro y l y' hserver hok hstep
  rcases beside_cases hstep with ⟨l, rfl, hexchange, hfollow⟩ | ⟨k, rfl, htick, hsame⟩
  · obtain ⟨x, w⟩ := y
    obtain ⟨x', w'⟩ := y'
    cases moves_of_step hexchange with
    | call | notSerialized | rise | fall =>
      cases hfollow
      exact hserver
    | deliver hbody hthread hstep harrived hv => exact hserver.next rfl (beside_inl hv hfollow)
    | serve hdeliver hcomplete hv => exact hserver.next rfl (beside_inl hv hfollow)
    | @complete s position success v hover hv =>
      cases hfollow
      exact hserver.next rfl (beside_inl hv (Waits.follow_completeWrite ..))
  · rw [hsame]
    exact hserver.next (l := .inr k) hok (beside_inr htick)

/-- Where the program can do nothing, the server and its waits cannot go on. -/
theorem still_of_stuck (h : ∀ l, ofProgram l = true → (watched C e).step y l = none) :
    RPCServer.Still C y.1.server y.2 := by
  constructor
  · intro l hl
    exact (beside_inl_eq_none.mp (h (.inl (.serve l)) hl)).imp_left (serve_eq_none hl).mp
  · intro k hk
    exact beside_inr_eq_none.mp (h (.inr k) (by simp [ofProgram, hk]))

/-- And where the server has nothing left to do, the connections cannot go on, either. -/
theorem stuck_of_rests (h : ∀ l, ofProgram l = true → (watched C e).step y l = none)
    (hserver : ∀ l, RPCServer.own l = true → (RPCServer.machine C).step y.1.server l = none)
    (hasleep : y.2.Asleep) : y.1.Stuck C e := by
  intro l hl
  rcases beside_inl_eq_none.mp (h (.inl l) hl) with hnone | hnone
  · exact hnone
  cases l with
  | call | rise | fall => cases hnone
  | deliver s t =>
    simp only [follow, Waits.follow, RPCLabel.thread, RPCServer.takes, Waits.busy,
      hasleep.notifying, List.any_nil, Option.any_some, Option.any_none, Bool.or_self,
      Bool.false_eq_true, if_false] at hnone
    cases hnone
  | serve l => exact (serve_eq_none hl).mpr (hserver l hl)

/-- Every call is answered: from every state that clients and server reach without an error of a
connection, whatever is under way, the threads, the transport, the writes and the reads can take
only boundedly many steps without another call, and the dispatchers' waits only boundedly many more,
but for two for each wake-up without a notification. And where they can take none, in whichever
order they were taken, the server has received every frame that a client's send queue had accepted,
and each request whose execute function has not thrown something else than a `std::exception` has
its last response, which its client has parsed, or which a full queue has dropped or the packet's
size. -/
theorem calls_answered
    (h : (watched (C.generated runtime) e).ReachableBy (Noticed runtime) y)
    (hup : ∀ s, (y.1.up s).cut = false ∧ (y.1.up s).writer.failed = false)
    (hdown : ∀ s, (y.1.down s).cut = false ∧ (y.1.down s).writer.failed = false) :
    ∃ bound, ∀ ls y', (watched (C.generated runtime) e).RunBy
        (fun y l => Noticed runtime y l ∧ afterCalls l = true) y ls y' →
      ls.countP (Sum.elim (fun _ => true) fun _ => false) ≤ bound ∧
        ls.countP (Sum.elim (fun _ => false) fun k => !k.spurious) ≤
          bound + 2 * ls.countP (Sum.elim (fun _ => false) WaitLabel.spurious) ∧
        ((∀ l, ofProgram l = true → (watched (C.generated runtime) e).step y' l = none) →
          y'.1.server.terminated = false → .worker ∈ y'.1.server.threads.map RPCThread.role →
          (∀ s, y'.1.called s ≠ [] → .io s ∈ y'.1.server.threads.map RPCThread.role) →
          (∀ s, (y'.1.server.receivedOn s).map RPCPacket.internalSerialize =
            (y'.1.up s).writer.accepted.map Frame.body) ∧
          ∀ (a : Nat) c, y'.1.server.packets[a]? = some c → .escaped ∉ c.history →
            ∃ (r : Nat) (z : Response) (fate : Fate), y'.1.server.responses[r]? = some z ∧
              z.request = a ∧ z.session = c.session ∧ z.event.terminal = true ∧
              z.fate = some fate ∧ Arrived runtime C y'.1 z fate) := by
  have hexchange : (machine (C.generated runtime) e).ReachableBy (Ok runtime) y.1 :=
    h.fst fun _ _ hok => hok
  obtain ⟨sessions, hsessions⟩ := called_of_reachable hexchange
  have hwhole : y.1.Whole runtime C sessions :=
    ⟨joined_of_reachable hexchange, hup, hdown, hsessions⟩
  refine ⟨y.2.stepsLeft + 3 * y.1.cost sessions, fun ls y' hruns => ?_⟩
  have hbase : (machine (C.generated runtime) e).RunBy
      (fun x l => Ok runtime x l ∧ ofDelivery l = true) y.1 (ls.filterMap Sum.getLeft?) y'.1 :=
    hruns.fst fun _ _ hok => hok
  obtain ⟨hwhole', hlength⟩ := hbase.drains (I := Whole runtime C sessions)
    (fun _ _ _ hs hok hstep => (hs.step hok.1 hok.2 hstep).1)
    (fun _ _ _ hs hok hstep => (hs.step hok.1 hok.2 hstep).2) hwhole
  have hwaits := Waits.waits_le (fun _ _ _ _ hfollow => follow_pay hfollow) hruns
  rw [← List.countP_true, Transition.Machine.countP_getLeft?] at hlength
  refine ⟨by omega, by omega, fun hstuck hrunning hworker hio => ?_⟩
  have hnoticed := h.runBy (fun _ _ hok => hok.1) hruns
  have hheard := RPCServer.heard_of_reachable (watched_of_reachable hnoticed)
  obtain ⟨hserver, hrests, hasleep⟩ :=
    (still_of_stuck hstuck).rests hheard hwhole'.joined.server hworker hrunning
  exact hwhole'.answered (stuck_of_rests hstuck hserver hasleep) hrests hrunning hio

/-- The condition, decided where it can be. -/
def noticesTo (y : Exchange × Waits) : ExchangeLabel ⊕ WaitLabel → Bool :=
  Sum.elim (fun l => keepsTo y.1 l && ofDelivery l) (Waits.noticed y.1.server y.2)

theorem noticed_of_noticesTo {l : ExchangeLabel ⊕ WaitLabel} (h : noticesTo y l = true) :
    Noticed .wire y l ∧ afterCalls l = true := by
  cases l with
  | inl l =>
    obtain ⟨hkeeps, hdelivery⟩ := Bool.and_eq_true_iff.mp h
    exact ⟨ok_of_keepsTo hkeeps, hdelivery⟩
  | inr k => exact ⟨h, rfl⟩

/-- Where the connections cannot go on and the dispatchers sleep, the program can do nothing. -/
theorem Stuck.watched (h : y.1.Stuck C e) (hasleep : y.2.Asleep)
    (hrests : y.1.server.Rests) {l : ExchangeLabel ⊕ WaitLabel} (hl : ofProgram l = true) :
    (watched C e).step y l = none := by
  cases l with
  | inl l => exact beside_inl_eq_none.mpr (.inl (h l hl))
  | inr k =>
    have hstill : RPCServer.Still C y.1.server y.2 := hrests.still hasleep
    exact beside_inr_eq_none.mpr (hstill.waits k (by simpa [ofProgram] using hl))

/-- `sampleDelivery` with the notifications of its pushes, which wake the dispatchers. -/
def notifiedDelivery : List (ExchangeLabel ⊕ WaitLabel) :=
  let asleep : List WaitLabel :=
    [.doze .requests, .block .requests, .doze .responses, .block .responses]
  let rises : List ExchangeLabel :=
    List.replicate 5 (.rise 0 .transmit) ++ [.rise 0 (.complete 0 true), .rise 0 .read]
  let falls : List ExchangeLabel :=
    List.replicate 21 (.fall 0 .transmit) ++
      [.fall 0 (.complete 0 true), .fall 0 .read, .fall 0 .read]
  let submits (n : Nat) : List ExchangeLabel :=
    List.replicate n (.serve (.advance 1 { uid := "i" }))
  let works (t n : Nat) : List ExchangeLabel :=
    List.replicate n (.serve (.advance t { packet := sampleCommited }))
  List.flatten [
    asleep.map .inr, rises.map .inl, [.inl (.deliver 0 1)],
    (submits 6).map .inl, [.inr (.notify 1 .responses)],
    (submits 7).map .inl, [.inr (.notify 1 .responses)],
    (submits 2).map .inl, [.inr (.notify 1 .requests), .inl (.serve (.take 0))],
    (works 0 7).map .inl, [.inr (.notify 0 .responses)],
    (works 0 3).map .inl, [.inl (.serve (.take 2))],
    (works 2 9).map .inl, [.inr (.notify 2 .responses)],
    (RPCServer.sendResponses 4).map fun l => .inl (.serve l),
    (List.replicate 4 falls).flatten.map .inl, asleep.map .inr]

/-- One call: everything that can be done has been done, and the client has parsed its last
response. -/
theorem calls_answered_one :
    ∃ y y', (watched ((RPCServer.sampleSetting 8 8).generated .wire) fun _ => .big).step
        (sampleExchange, .start) (.inl (.call 0 sampleCall)) = some y ∧
      (watched ((RPCServer.sampleSetting 8 8).generated .wire) fun _ => .big).run y
        notifiedDelivery = some y' ∧
      (∀ l, ofProgram l = true →
        (watched ((RPCServer.sampleSetting 8 8).generated .wire) fun _ => .big).step y' l = none) ∧
      ∃ (r : Nat) (z : Response) (fate : Fate), y'.1.server.responses[r]? = some z ∧
        z.request = 0 ∧ z.event.terminal = true ∧
        Arrived .wire (RPCServer.sampleSetting 8 8) y'.1 z fate := by
  have hinit : (watched ((RPCServer.sampleSetting 8 8).generated .wire) fun _ => .big).init
      (sampleExchange, .start) := ⟨⟨⟨_, _, by decide, rfl⟩, rfl⟩, rfl⟩
  have hruns : ((watched ((RPCServer.sampleSetting 8 8).generated .wire) fun _ => .big).step
      (sampleExchange, .start) (.inl (.call 0 sampleCall))).any (fun y =>
        ((watched ((RPCServer.sampleSetting 8 8).generated .wire) fun _ => .big).run y
          notifiedDelivery).any (fun y' => y'.1.costAt 0 = 0 ∧ y'.1.server.Quiet ∧
            y'.1.server.sending = none ∧ y'.1.server.responseQueue.items = [] ∧
            y'.2.watch .requests = .blocked ∧ y'.2.watch .responses = .blocked ∧
            y'.2.notifying = [] ∧ y'.1.server.terminated = false ∧
            y'.1.server.threads.map RPCThread.role = [.requestDispatcher, .io 0, .worker] ∧
            (y'.1.server.packets[0]?).any (fun c => !c.history.contains .escaped) = true) = true ∧
        (watched ((RPCServer.sampleSetting 8 8).generated .wire) fun _ => .big).runMeets
          noticesTo y notifiedDelivery = true) = true := by
    decide +kernel
  obtain ⟨y, hstep, hy⟩ := (Option.any_eq_true _ _).mp hruns
  obtain ⟨hrest, hmeets⟩ := of_decide_eq_true hy
  obtain ⟨y', hrun, hy'⟩ := (Option.any_eq_true _ _).mp hrest
  obtain ⟨hcost, hquiet, hsending, hresponses, hblocked, hblocked', hnotifying, hrunning, hroles,
    hpacket⟩ := of_decide_eq_true hy'
  obtain ⟨c, hc, hescaped⟩ := (Option.any_eq_true _ _).mp hpacket
  have hok : Ok .wire sampleExchange (.call 0 sampleCall) := ok_of_keepsTo rfl
  have hruns : (watched ((RPCServer.sampleSetting 8 8).generated .wire) fun _ => .big).RunBy
      (fun y l => Noticed .wire y l ∧ afterCalls l = true) y notifiedDelivery y' :=
    .run (fun _ _ => noticed_of_noticesTo) hmeets hrun
  have hreachable : (watched ((RPCServer.sampleSetting 8 8).generated .wire)
      fun _ => .big).ReachableBy (Noticed .wire) y :=
    .next (.start hinit) (l := .inl (.call 0 sampleCall)) hok hstep
  -- session 0 alone is called
  have hfresh : sampleExchange.Whole .wire (RPCServer.sampleSetting 8 8) ∅ :=
    ⟨joined_init hinit.1, fun _ => ⟨rfl, rfl⟩, fun _ => ⟨rfl, rfl⟩, fun _ hne => absurd rfl hne⟩
  have hwhole := hfresh.call hok (step_of_beside hstep)
  have hbase : (machine ((RPCServer.sampleSetting 8 8).generated .wire) fun _ => .big).RunBy
      (fun x l => Ok .wire x l ∧ ofDelivery l = true) y.1
        (notifiedDelivery.filterMap Sum.getLeft?) y'.1 :=
    hruns.fst fun _ _ hok => hok
  obtain ⟨hwhole', -⟩ := hbase.drains
    (I := Whole .wire (RPCServer.sampleSetting 8 8) (insert 0 ∅))
    (fun _ _ _ hs hok hstep => (hs.step hok.1 hok.2 hstep).1)
    (fun _ _ _ hs hok hstep => (hs.step hok.1 hok.2 hstep).2) hwhole
  have hrests : y'.1.server.Rests := ⟨hquiet, hsending, hresponses⟩
  have hasleep : y'.2.Asleep := by
    refine ⟨fun line => ?_, hnotifying⟩
    cases line with
    | requests => exact hblocked
    | responses => exact hblocked'
  have hconnections : y'.1.Stuck ((RPCServer.sampleSetting 8 8).generated .wire) fun _ => .big :=
    hwhole'.stuck hrests fun s hs => by
      rcases Finset.mem_insert.mp hs with rfl | hnone
      · exact hcost
      · exact absurd hnone (Finset.notMem_empty s)
  have hstuck := fun l hl => hconnections.watched hasleep hrests (l := l) hl
  obtain ⟨bound, hall⟩ := calls_answered hreachable hwhole.up hwhole.down
  obtain ⟨-, -, hend⟩ := hall _ _ hruns
  obtain ⟨-, hanswered⟩ := hend hstuck hrunning (by rw [hroles]; decide) fun s hne => by
    rcases Finset.mem_insert.mp (hwhole'.within s hne) with rfl | hnone
    · rw [hroles]
      decide
    · exact absurd hnone (Finset.notMem_empty s)
  obtain ⟨r, z, fate, hz, hrequest, -, hterminal, -, harrived⟩ :=
    hanswered 0 c hc (by simpa using hescaped)
  exact ⟨y, y', hstep, hrun, hstuck, r, z, fate, hz, hrequest, hterminal, harrived⟩

end Exchange

end DSFramework.DSRPC
