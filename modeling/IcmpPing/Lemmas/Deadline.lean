import IcmpPing.Lemmas.Probe
import IcmpPing.Linux
import Mathlib.Order.Interval.Finset.Nat
import Mathlib.Data.Finset.Card

/-!
# Loops under a deadline

Neither the receive loop of a probe nor the loop of `Ping::receive` makes progress in every turn: what ends them is the distance
between the clock and the deadline, which each turn tests.
-/

namespace IcmpPing

/-- Readings of a clock that advances are no more than the time they are in. -/
theorem length_le_of_advances {readings : List Instant} {first last : Instant} (hadvances : readings.IsChain (· < ·))
    (hfirst : ∀ t ∈ readings, first ≤ t) (hlast : ∀ t ∈ readings, t < last) : readings.length ≤ last - first := by
  have hnodup : readings.Nodup := (List.isChain_iff_pairwise.1 hadvances).imp Nat.ne_of_lt
  have hsub : readings.toFinset ⊆ Finset.Ico first last := by
    intro t ht
    rw [List.mem_toFinset] at ht
    exact Finset.mem_Ico.2 ⟨hfirst t ht, hlast t ht⟩
  calc
    readings.length = readings.toFinset.card := (List.toFinset_card_of_nodup hnodup).symm
    _ ≤ (Finset.Ico first last).card := Finset.card_le_card hsub
    _ = last - first := Nat.card_Ico first last

/-! ## `Ping::receive` -/

namespace Ping

open Method

/-- The readings of the clock at the deadline test of these turns. -/
def turnTests (turns : List (List (Exchange Syscall.Answer))) : List Instant :=
  turns.filterMap fun
    | ⟨.now, now⟩ :: _ => some now
    | _ => none

/-- A turn tests the deadline first, and goes on only before it. -/
theorem test_of_receiveTurn {deadline : Instant} {ping ping' : Ping} {calls : List (Exchange Syscall.Answer)}
    (h : (receiveTurn deadline).Runs ping calls (.ok none) ping') : ∃ now rest, calls = ⟨.now, now⟩ :: rest ∧ now < deadline := by
  obtain ⟨now, rest, rfl, hrest⟩ := runs_call_bind.1 h
  refine ⟨now, rest, rfl, Nat.lt_of_not_le fun hnow => ?_⟩
  rw [if_pos hnow] at hrest
  cases (runs_throw.1 hrest).2.1

/-- Each turn tests the deadline, and finds it still to come. -/
theorem turnTests_spec {deadline : Instant} {ping ping' : Ping} {turns : List (List (Exchange Syscall.Answer))}
    (h : Turns (receiveTurn deadline) ping turns ping') :
    (turnTests turns).length = turns.length ∧ ∀ t ∈ turnTests turns, t < deadline := by
  induction h with
  | nil ping => exact ⟨rfl, List.forall_mem_nil _⟩
  | cons hfirst _ ih =>
    obtain ⟨now, rest, rfl, hnow⟩ := test_of_receiveTurn hfirst
    exact ⟨congrArg Nat.succ ih.1, List.forall_mem_cons.2 ⟨hnow, ih.2⟩⟩

/-- The clock does not go back behind the start of a receive, as `Instant` promises, and it advances between successive
evaluations of the deadline test. -/
structure TurnsAdvance (start : Instant) (turns : List (List (Exchange Syscall.Answer))) : Prop where
  start_le : ∀ t ∈ turnTests turns, start ≤ t
  advances : (turnTests turns).IsChain (· < ·)

/-- No more turns go on than there are ticks of the clock before the deadline. -/
theorem TurnsAdvance.length_le {start : Instant} {wait : Duration} {ping ping' : Ping}
    {turns : List (List (Exchange Syscall.Answer))} (hclock : TurnsAdvance start turns)
    (h : Turns (receiveTurn (start + wait)) ping turns ping') : turns.length ≤ wait := by
  obtain ⟨hlength, hdeadline⟩ := turnTests_spec h
  rw [← hlength, ← Nat.add_sub_cancel_left (n := start) (m := wait)]
  exact length_le_of_advances hclock.advances hclock.start_le hdeadline

end Ping

/-! ## The receive loop of a probe -/

namespace Probe

/-- A reading of the clock at the deadline test of this attempt. -/
def testReading (seq : UInt16) (s : State) (e : Event) : List Instant :=
  match s.point, e with
  | .test seq' _, .clock now => if seq' = seq then [now] else []
  | _, _ => []

/-- The timeout of a receive call of this attempt. -/
def receiveWait (seq : UInt16) (s : State) : List Duration :=
  match s.point with
  | .receive seq' _ wait => if seq' = seq then [wait] else []
  | _ => []

/-- The readings of the clock at the deadline test of an attempt. -/
def tests (p : Probe) (seq : UInt16) (events : List Event) : List Instant := p.machine.outputs (testReading seq) p.init events

/-- The receive calls of an attempt, each with its timeout. -/
def receives (p : Probe) (seq : UInt16) (events : List Event) : List Duration :=
  p.machine.outputs (fun s _ => receiveWait seq s) p.init events

/-- All readings of the clock. -/
def readings (events : List Event) : List Instant :=
  events.filterMap fun
    | .clock now => some now
    | _ => none

/-- The clock never goes back, as `Instant` promises, and it advances between successive evaluations of the deadline test of an
attempt. -/
structure Ticks (p : Probe) (events : List Event) : Prop where
  monotone : (readings events).IsChain (· ≤ ·)
  advances : ∀ seq, (p.tests seq events).IsChain (· < ·)

/-- An event adds the reading of its deadline test, if it is one. -/
theorem tests_snoc {p : Probe} {events : List Event} {s : State} (h : p.Runs events s) (seq : UInt16) (e : Event) :
    p.tests seq (events ++ [e]) = p.tests seq events ++ testReading seq s e :=
  Machine.outputs_snoc _ h e

/-- An event adds the wait of its receive call, if it is one. -/
theorem receives_snoc {p : Probe} {events : List Event} {s : State} (h : p.Runs events s) (seq : UInt16) (e : Event) :
    p.receives seq (events ++ [e]) = p.receives seq events ++ receiveWait seq s :=
  Machine.outputs_snoc _ h e

/-- The clock has ticked before the last event too. -/
theorem Ticks.before {p : Probe} {events : List Event} {s : State} {e : Event} (h : p.Runs events s)
    (hticks : Ticks p (events ++ [e])) : Ticks p events where
  monotone := by
    have hmonotone := hticks.monotone
    rw [readings, List.filterMap_append] at hmonotone
    exact hmonotone.left_of_append
  advances seq := by
    have hadvances := hticks.advances seq
    rw [tests_snoc h] at hadvances
    exact hadvances.left_of_append

/-- The attempt that goes on was started by a reading of the clock. -/
theorem clock_mem_of_attemptStart {events : List Event} {start : Instant} (h : attemptStart events = some start) :
    .clock start ∈ events := by
  unfold attemptStart at h
  split at h
  · rename_i hdrop
    cases h
    have hmem : Event.clock start ∈ events.reverse.dropWhile fun e => !e.isSent := by
      rw [hdrop]
      simp
    exact List.mem_reverse.1 ((List.dropWhile_sublist _).subset hmem)
  · cases h

/-- A reading of the clock is not before the start of the attempt it belongs to. -/
theorem Ticks.start_le {p : Probe} {events : List Event} {start now : Instant} (hticks : Ticks p (events ++ [.clock now]))
    (hstart : attemptStart events = some start) : start ≤ now := by
  have hmem : start ∈ readings events := List.mem_filterMap.2 ⟨_, clock_mem_of_attemptStart hstart, rfl⟩
  have hpairwise := List.isChain_iff_pairwise.1 hticks.monotone
  rw [readings, List.filterMap_append, List.pairwise_append] at hpairwise
  exact hpairwise.2.2 start hmem now (by simp)

/-! ### How far a run has come -/

/-- After so many attempts: none later has begun its loop, and these have made no more receive calls than their time allows. -/
structure Past (p : Probe) (events : List Event) (attempts : Nat) : Prop where
  later : ∀ seq, attempts < seq.toNat → p.tests seq events = [] ∧ p.receives seq events = []
  total : events.countP Event.isReceived ≤ attempts * (p.options.timeout + 1)

/-- In the loop of an attempt: each receive call so far, and the one that is due, comes after a test of the deadline. -/
structure Looping (p : Probe) (events : List Event) (seq : UInt16) (start : Instant) (due : Nat) : Prop where
  later : ∀ seq', seq.toNat < seq'.toNat → p.tests seq' events = [] ∧ p.receives seq' events = []
  range : ∀ t ∈ p.tests seq events, start ≤ t ∧ t ≤ p.deadline start
  tested : (p.receives seq events).length + due = (p.tests seq events).length
  total : events.countP Event.isReceived ≤ (seq.toNat - 1) * (p.options.timeout + 1) + (p.receives seq events).length

/-- The receive calls at each point of a run. -/
def Paced (p : Probe) (events : List Event) (s : State) : Prop :=
  (∀ seq, (p.receives seq events).length ≤ p.options.timeout + 1) ∧
  match s.point with
  | .start seq => Past p events (seq.toNat - 1)
  | .send seq _ => Past p events (seq.toNat - 1)
  | .test seq start => Looping p events seq start 0
  | .receive seq start _ => Looping p events seq start 1
  | .elapsed seq start _ _ => Looping p events seq start 0
  | .late seq start _ _ _ => Looping p events seq start 0
  | .judge seq start _ _ _ => Looping p events seq start 0
  | .done _ => events.countP Event.isReceived ≤ p.options.attempts.toNat * (p.options.timeout + 1)

/-- An attempt makes no more receive calls than its time allows. -/
theorem Looping.length_le {p : Probe} {events : List Event} {seq : UInt16} {start : Instant} {due : Nat} (hticks : Ticks p events)
    (h : Looping p events seq start due) : (p.receives seq events).length + due ≤ p.options.timeout + 1 := by
  have hle := length_le_of_advances (hticks.advances seq) (fun t ht => (h.range t ht).1)
    fun t ht => Nat.lt_succ_of_le (h.range t ht).2
  rw [h.tested]
  exact hle.trans (by unfold deadline; omega)

/-- The event is neither a test of a deadline nor a receive. -/
structure Quiet (p : Probe) (events : List Event) (e : Event) : Prop where
  tests : ∀ seq, p.tests seq (events ++ [e]) = p.tests seq events
  receives : ∀ seq, p.receives seq (events ++ [e]) = p.receives seq events
  total : (events ++ [e]).countP Event.isReceived = events.countP Event.isReceived

section Steps

variable {p : Probe} {events : List Event} {s : State} {e : Event} {seq : UInt16} {start : Instant} {due : Nat}

/-- An event at a place that neither tests nor receives is quiet. -/
theorem quiet_of_step (hrun : p.Runs events s) (htest : ∀ seq, testReading seq s e = [])
    (hreceive : ∀ seq, receiveWait seq s = []) (he : e.isReceived = false) : Quiet p events e where
  tests seq := by rw [tests_snoc hrun, htest, List.append_nil]
  receives seq := by rw [receives_snoc hrun, hreceive, List.append_nil]
  total := by simp [List.countP_append, he]

/-- A quiet event leaves the attempts that are past as they are. -/
theorem Past.quiet {attempts : Nat} (h : Past p events attempts) (hquiet : Quiet p events e) :
    Past p (events ++ [e]) attempts where
  later seq hseq := by
    rw [hquiet.tests, hquiet.receives]
    exact h.later seq hseq
  total := hquiet.total.trans_le h.total

/-- A quiet event leaves the loop of an attempt as it is. -/
theorem Looping.quiet (h : Looping p events seq start due) (hquiet : Quiet p events e) :
    Looping p (events ++ [e]) seq start due where
  later seq' hseq := by
    rw [hquiet.tests, hquiet.receives]
    exact h.later seq' hseq
  range := by
    rw [hquiet.tests]
    exact h.range
  tested := by
    rw [hquiet.tests, hquiet.receives]
    exact h.tested
  total := by
    rw [hquiet.total, hquiet.receives]
    exact h.total

/-- The request of an attempt is sent: its loop begins. -/
theorem Past.looping (hpos : 0 < seq.toNat) (h : Past p events (seq.toNat - 1)) (start : Instant) :
    Looping p events seq start 0 := by
  obtain ⟨htests, hreceives⟩ := h.later seq (Nat.sub_lt hpos Nat.one_pos)
  refine ⟨fun seq' hseq => h.later seq' (by omega), ?_, ?_, ?_⟩
  · rw [htests]
    exact List.forall_mem_nil _
  · rw [htests, hreceives]
    rfl
  · exact h.total.trans (Nat.le_add_right _ _)

/-- An attempt that is over has made no more receive calls than its time allows. -/
theorem Looping.past (hpos : 0 < seq.toNat) (hticks : Ticks p events) (h : Looping p events seq start due) :
    Past p events seq.toNat where
  later := h.later
  total := by
    have hle := h.length_le hticks
    calc
      events.countP Event.isReceived ≤ (seq.toNat - 1) * (p.options.timeout + 1) + (p.receives seq events).length := h.total
      _ ≤ (seq.toNat - 1) * (p.options.timeout + 1) + (p.options.timeout + 1) := by omega
      _ = seq.toNat * (p.options.timeout + 1) := by rw [← Nat.succ_mul, Nat.succ_eq_add_one, Nat.sub_add_cancel hpos]

/-- After more attempts there may be more receive calls. -/
theorem Past.total_le {attempts attempts' : Nat} (h : Past p events attempts) (hle : attempts ≤ attempts') :
    events.countP Event.isReceived ≤ attempts' * (p.options.timeout + 1) :=
  h.total.trans (Nat.mul_le_mul_right _ hle)

/-- A test of the deadline of one attempt is none of another. -/
theorem tests_of_test {b : Buffer} (hrun : p.Runs events ⟨.test seq start, b⟩) (now : Instant) (seq' : UInt16) :
    p.tests seq' (events ++ [.clock now]) = p.tests seq' events ++ (if seq = seq' then [now] else []) ∧
      p.receives seq' (events ++ [.clock now]) = p.receives seq' events := by
  refine ⟨tests_snoc hrun seq' _, ?_⟩
  rw [receives_snoc hrun, receiveWait, List.append_nil]

/-- A test that the deadline passes makes a receive call due. -/
theorem Looping.waits {b : Buffer} {now : Instant} (hrun : p.Runs events ⟨.test seq start, b⟩) (hstart : start ≤ now)
    (hnow : now ≤ p.deadline start) (h : Looping p events seq start 0) : Looping p (events ++ [.clock now]) seq start 1 where
  later seq' hseq := by
    obtain ⟨htests, hreceives⟩ := tests_of_test hrun now seq'
    rw [htests, hreceives, if_neg (by rintro rfl; omega), List.append_nil]
    exact h.later seq' hseq
  range := by
    rw [(tests_of_test hrun now seq).1, if_pos rfl]
    intro t ht
    rcases List.mem_append.1 ht with ht | ht
    · exact h.range t ht
    · rw [List.mem_singleton.1 ht]
      exact ⟨hstart, hnow⟩
  tested := by
    obtain ⟨htests, hreceives⟩ := tests_of_test hrun now seq
    rw [htests, hreceives, if_pos rfl, List.length_append, ← h.tested]
    rfl
  total := by
    rw [(tests_of_test hrun now seq).2, List.countP_append]
    exact h.total

/-- A test after the deadline ends the attempt. -/
theorem Past.expired {b : Buffer} {now : Instant} (hrun : p.Runs events ⟨.test seq start, b⟩) (h : Past p events seq.toNat) :
    Past p (events ++ [.clock now]) seq.toNat where
  later seq' hseq := by
    obtain ⟨htests, hreceives⟩ := tests_of_test hrun now seq'
    rw [htests, hreceives, if_neg (by rintro rfl; omega), List.append_nil]
    exact h.later seq' hseq
  total := by
    rw [List.countP_append]
    exact h.total

/-- A receive call of one attempt is none of another. -/
theorem tests_of_receive {b : Buffer} {wait : Duration} (hrun : p.Runs events ⟨.receive seq start wait, b⟩) (e : Event)
    (seq' : UInt16) : p.tests seq' (events ++ [e]) = p.tests seq' events ∧
      p.receives seq' (events ++ [e]) = p.receives seq' events ++ (if seq = seq' then [wait] else []) := by
  refine ⟨?_, receives_snoc hrun seq' _⟩
  have hnone : testReading seq' ⟨.receive seq start wait, b⟩ e = [] := rfl
  rw [tests_snoc hrun, hnone, List.append_nil]

/-- The receive call that was due. -/
theorem Looping.received {b : Buffer} {wait : Duration} (hrun : p.Runs events ⟨.receive seq start wait, b⟩)
    (he : e.isReceived = true) (h : Looping p events seq start 1) : Looping p (events ++ [e]) seq start 0 where
  later seq' hseq := by
    obtain ⟨htests, hreceives⟩ := tests_of_receive hrun e seq'
    rw [htests, hreceives, if_neg (by rintro rfl; omega), List.append_nil]
    exact h.later seq' hseq
  range := by
    rw [(tests_of_receive hrun e seq).1]
    exact h.range
  tested := by
    obtain ⟨htests, hreceives⟩ := tests_of_receive hrun e seq
    rw [htests, hreceives, if_pos rfl, List.length_append, ← h.tested]
    rfl
  total := by
    rw [(tests_of_receive hrun e seq).2, if_pos rfl, List.countP_append, List.length_append, List.countP_singleton, he]
    exact Nat.add_le_add_right h.total 1

end Steps

/-- A receive call keeps to the time of its attempt. -/
theorem bounded_of_received {p : Probe} {events : List Event} {seq : UInt16} {start : Instant} {wait : Duration} {b : Buffer}
    {e : Event} (hrun : p.Runs events ⟨.receive seq start wait, b⟩) (hticks : Ticks p (events ++ [e]))
    (hall : ∀ seq, (p.receives seq events).length ≤ p.options.timeout + 1) (h : Looping p (events ++ [e]) seq start 0)
    (seq' : UInt16) :
    (p.receives seq' (events ++ [e])).length ≤ p.options.timeout + 1 := by
  by_cases hseq : seq = seq'
  · rw [← hseq]
    exact h.length_le hticks
  · rw [(tests_of_receive hrun e seq').2, if_neg hseq, List.append_nil]
    exact hall seq'

/-- The end of an attempt. -/
theorem paced_nextAttempt {p : Probe} {events : List Event} {seq : UInt16} {start : Instant} (b : Buffer)
    (hall : ∀ seq, (p.receives seq events).length ≤ p.options.timeout + 1) (hduring : During p events seq start)
    (h : Past p events seq.toNat) : Paced p events ⟨p.nextAttempt seq, b⟩ := by
  refine ⟨hall, ?_⟩
  rcases hduring.nextAttempt_cases with ⟨-, hsucc, hnext⟩ | ⟨-, hnext⟩
  · rw [hnext]
    simp only [hsucc, Nat.add_sub_cancel]
    exact h
  · rw [hnext]
    exact h.total_le hduring.le

/-- Each step keeps to the time there is. -/
theorem Paced.step {p : Probe} {events : List Event} {s s' : State} {e : Event} (hrun : p.Runs events s)
    (hticks : Ticks p (events ++ [e])) (hhistory : History p events s) (hhistory' : History p (events ++ [e]) s')
    (h : Paced p events s) (hmoves : Moves p s e s') : Paced p (events ++ [e]) s' := by
  obtain ⟨hall, h⟩ := h
  have hbefore := hticks.before hrun
  have hkeep : (∀ seq, p.receives seq (events ++ [e]) = p.receives seq events) →
      ∀ seq, (p.receives seq (events ++ [e])).length ≤ p.options.timeout + 1 := by
    intro hreceives seq
    rw [hreceives]
    exact hall seq
  cases hmoves with
  | started b seq now =>
    have hquiet : Quiet p events (.clock now) := quiet_of_step hrun (fun _ => rfl) (fun _ => rfl) rfl
    exact ⟨hkeep hquiet.receives, Past.quiet h hquiet⟩
  | sent b seq start packet hpacket =>
    have hquiet : Quiet p events (.sent packet p.target (.ok ())) := quiet_of_step hrun (fun _ => rfl) (fun _ => rfl) rfl
    exact ⟨hkeep hquiet.receives, (Past.quiet h hquiet).looping hhistory'.pos start⟩
  | sendFailed b seq start packet error hpacket =>
    have hquiet : Quiet p events (.sent packet p.target (.error error)) := quiet_of_step hrun (fun _ => rfl) (fun _ => rfl) rfl
    obtain ⟨_, -, hfresh⟩ := hhistory
    exact ⟨hkeep hquiet.receives, (Past.quiet h hquiet).total_le ((Nat.sub_le _ _).trans hfresh.le)⟩
  | waits b seq start now hnow =>
    exact ⟨hkeep fun seq' => (tests_of_test hrun now seq').2, Looping.waits hrun (hticks.start_le hhistory.started) hnow h⟩
  | expired b seq start now hnow =>
    have hduring : During p (events ++ [.clock now]) seq start := During.append (not_isSent_of_mem _ rfl) hhistory
    exact paced_nextAttempt b (hkeep fun seq' => (tests_of_test hrun now seq').2) hduring
      (Past.expired hrun (Looping.past hhistory.pos hbefore h))
  | received b seq start wait written length source =>
    have hloop := Looping.received (e := .received wait written (.ok (length, source))) hrun rfl h
    exact ⟨bounded_of_received hrun hticks hall hloop, hloop⟩
  | timedOut b seq start wait written error hkind =>
    have hloop := Looping.received (e := .received wait written (.error error)) hrun rfl h
    have hduring : During p (events ++ [.received wait written (.error error)]) seq start :=
      During.append (not_isSent_of_mem _ rfl) hhistory
    exact paced_nextAttempt _ (bounded_of_received hrun hticks hall hloop) hduring (hloop.past hhistory.pos hticks)
  | interrupted b seq start wait written error hkind =>
    have hloop := Looping.received (e := .received wait written (.error error)) hrun rfl h
    exact ⟨bounded_of_received hrun hticks hall hloop, hloop⟩
  | receiveFailed b seq start wait written error h₁ h₂ h₃ =>
    have hloop := Looping.received (e := .received wait written (.error error)) hrun rfl h
    exact ⟨bounded_of_received hrun hticks hall hloop, (hloop.past hhistory.pos hticks).total_le hhistory.le⟩
  | elapsed b seq start length source now =>
    have hquiet : Quiet p events (.clock now) := quiet_of_step hrun (fun _ => rfl) (fun _ => rfl) rfl
    exact ⟨hkeep hquiet.receives, Looping.quiet h hquiet⟩
  | late b seq start length source elapsed now hnow =>
    have hquiet : Quiet p events (.clock now) := quiet_of_step hrun (fun _ => rfl) (fun _ => rfl) rfl
    obtain ⟨first, hafter, -⟩ := hhistory
    have hduring := hafter.during (not_isSent_of_mem _ rfl)
    exact paced_nextAttempt b (hkeep hquiet.receives) (hduring.append (not_isSent_of_mem _ rfl))
      ((Looping.quiet h hquiet).past hduring.pos hticks)
  | tooLong b seq start length source elapsed now hnow hlength =>
    have hquiet : Quiet p events (.clock now) := quiet_of_step hrun (fun _ => rfl) (fun _ => rfl) rfl
    obtain ⟨first, hafter, -⟩ := hhistory
    have hduring := hafter.during (not_isSent_of_mem _ rfl)
    exact ⟨hkeep hquiet.receives, ((Looping.quiet h hquiet).past hduring.pos hticks).total_le hduring.le⟩
  | inTime b seq start length source elapsed now hnow hlength =>
    have hquiet : Quiet p events (.clock now) := quiet_of_step hrun (fun _ => rfl) (fun _ => rfl) rfl
    exact ⟨hkeep hquiet.receives, Looping.quiet h hquiet⟩
  | judged b seq start length source elapsed reply =>
    have hquiet : Quiet p events (.judged (b.bytes.take length) source (p.expected seq) reply) :=
      quiet_of_step hrun (fun _ => rfl) (fun _ => rfl) rfl
    have hloop := Looping.quiet h hquiet
    obtain ⟨first, second, hafter, -⟩ := hhistory
    have hduring := hafter.during (by simp [Event.isSent])
    refine ⟨hkeep hquiet.receives, ?_⟩
    cases reply with
    | none => exact hloop
    | some reply =>
      cases reply with
      | echo => exact (hloop.past hduring.pos hticks).total_le hduring.le
      | negative message => exact (hloop.past hduring.pos hticks).total_le hduring.le

/-- The receive calls of every run keep to the time there is. -/
theorem Runs.paced {p : Probe} (hoptions : p.options.validate = .ok ()) (hpayload : p.payload.length = p.options.payloadSize)
    {events : List Event} {s : State} (h : p.Runs events s) (hticks : Ticks p events) : Paced p events s := by
  revert hticks
  refine Machine.run_history (P := fun events s => Ticks p events → Paced p events s) ?_ ?_ h
  · rw [init_of_valid hoptions hpayload]
    intro _
    exact ⟨fun _ => Nat.zero_le _, fun _ _ => ⟨rfl, rfl⟩, Nat.zero_le _⟩
  · intro events t e t' hrun ih hstep hticks
    have hrun' : p.Runs (events ++ [e]) t' := Machine.run_append_eq_some.2 ⟨t, hrun, Machine.run_singleton.2 hstep⟩
    exact (ih (hticks.before hrun)).step hrun hticks (Runs.history hoptions hpayload hrun) (Runs.history hoptions hpayload hrun')
      (moves_of_step hstep)

/-- The attempt that a point belongs to, and how many events it has at most before its next receive or its end. -/
def Point.place : Point → Option (UInt16 × Nat)
  | .start seq => some (seq, 3)
  | .send seq _ => some (seq, 2)
  | .test seq _ => some (seq, 1)
  | .receive seq _ _ => some (seq, 0)
  | .elapsed seq _ _ _ => some (seq, 4)
  | .late seq _ _ _ _ => some (seq, 3)
  | .judge seq _ _ _ _ => some (seq, 2)
  | .done _ => none

/-- An attempt is one of those the options allow. -/
theorem History.place {p : Probe} {events : List Event} {s : State} {seq : UInt16} {left : Nat} (h : History p events s)
    (hplace : s.point.place = some (seq, left)) : 0 < seq.toNat ∧ seq.toNat ≤ p.options.attempts.toNat := by
  obtain ⟨point, b⟩ := s
  cases point with
  | start seq =>
    cases hplace
    exact ⟨h.pos, h.le⟩
  | send seq start =>
    cases hplace
    obtain ⟨_, -, hfresh⟩ := h
    exact ⟨hfresh.pos, hfresh.le⟩
  | test seq start =>
    cases hplace
    exact ⟨h.pos, h.le⟩
  | receive seq start wait =>
    cases hplace
    exact ⟨h.pos, h.le⟩
  | elapsed seq start length source =>
    cases hplace
    have hduring := AfterReceive.during (List.forall_mem_nil _) h
    exact ⟨hduring.pos, hduring.le⟩
  | late seq start length source elapsed =>
    cases hplace
    obtain ⟨first, hafter, -⟩ := h
    have hduring := hafter.during (by simp [Event.isSent])
    exact ⟨hduring.pos, hduring.le⟩
  | judge seq start length source elapsed =>
    cases hplace
    obtain ⟨first, second, hafter, -⟩ := h
    have hduring := hafter.during (by simp [Event.isSent])
    exact ⟨hduring.pos, hduring.le⟩
  | done result => cases hplace

/-- The receive calls of a run are no more than the time of its attempts allows. -/
theorem Paced.total_le {p : Probe} {events : List Event} {s : State} (hticks : Ticks p events) (hhistory : History p events s)
    (h : Paced p events s) : events.countP Event.isReceived ≤ p.options.attempts.toNat * (p.options.timeout + 1) := by
  obtain ⟨point, b⟩ := s
  have hlooping : ∀ {seq start due}, 0 < seq.toNat ∧ seq.toNat ≤ p.options.attempts.toNat → Looping p events seq start due →
      events.countP Event.isReceived ≤ p.options.attempts.toNat * (p.options.timeout + 1) :=
    fun hseq hloop => (hloop.past hseq.1 hticks).total_le hseq.2
  cases point with
  | start seq => exact h.2.total_le ((Nat.sub_le _ _).trans (hhistory.place rfl).2)
  | send seq start => exact h.2.total_le ((Nat.sub_le _ _).trans (hhistory.place rfl).2)
  | test seq start => exact hlooping (hhistory.place rfl) h.2
  | receive seq start wait => exact hlooping (hhistory.place rfl) h.2
  | elapsed seq start length source => exact hlooping (hhistory.place rfl) h.2
  | late seq start length source elapsed => exact hlooping (hhistory.place rfl) h.2
  | judge seq start length source elapsed => exact hlooping (hhistory.place rfl) h.2
  | done result => exact h.2

/-- A run has no more events than five for each receive call and three for each attempt. -/
def Spent (p : Probe) (events : List Event) (s : State) : Prop :=
  match s.point.place with
  | some (seq, left) => events.length + left ≤ 5 * events.countP Event.isReceived + 3 * seq.toNat
  | none => events.length ≤ 5 * events.countP Event.isReceived + 3 * p.options.attempts.toNat

/-- The bound holds where the next attempt begins. -/
theorem spent_nextAttempt {p : Probe} {events events' : List Event} {seq : UInt16} {start : Instant} (b : Buffer)
    (hduring : During p events' seq start) (h : events.length ≤ 5 * events.countP Event.isReceived + 3 * seq.toNat) :
    Spent p events ⟨p.nextAttempt seq, b⟩ := by
  have hle := hduring.le
  rcases hduring.nextAttempt_cases with ⟨-, hsucc, hnext⟩ | ⟨-, hnext⟩
  · simp only [Spent, hnext, Point.place, hsucc]
    omega
  · simp only [Spent, hnext, Point.place]
    omega

section Spent

variable {p : Probe} {events : List Event} {s s' : State} {e : Event} {seq : UInt16} {left : Nat}

/-- An event within an attempt. -/
theorem Spent.go (hplace : s.point.place = some (seq, left + 1)) (hplace' : s'.point.place = some (seq, left))
    (h : Spent p events s) : Spent p (events ++ [e]) s' := by
  simp only [Spent, hplace] at h
  simp only [Spent, hplace', List.length_append, List.length_singleton, List.countP_append]
  omega

/-- An event that ends an attempt. -/
theorem Spent.leave (hplace : s.point.place = some (seq, left + 1)) (h : Spent p events s) :
    (events ++ [e]).length ≤ 5 * (events ++ [e]).countP Event.isReceived + 3 * seq.toNat := by
  simp only [Spent, hplace] at h
  rw [List.length_append, List.length_singleton, List.countP_append]
  omega

/-- A receive. -/
theorem Spent.receive (hplace : s.point.place = some (seq, 0)) (he : e.isReceived = true) (h : Spent p events s) :
    (events ++ [e]).length + 4 ≤ 5 * (events ++ [e]).countP Event.isReceived + 3 * seq.toNat := by
  simp only [Spent, hplace] at h
  rw [List.length_append, List.length_singleton, List.countP_append, List.countP_singleton, if_pos he]
  omega

/-- The bound holds where the probe is done. -/
theorem spent_done {result : Except String Outcome} {b : Buffer} (hseq : seq.toNat ≤ p.options.attempts.toNat)
    (h : events.length ≤ 5 * events.countP Event.isReceived + 3 * seq.toNat) : Spent p events ⟨.done result, b⟩ := by
  simp only [Spent, Point.place]
  omega

/-- Each step is paid for. -/
theorem Spent.step (hhistory : History p events s) (h : Spent p events s) (hmoves : Moves p s e s') :
    Spent p (events ++ [e]) s' := by
  cases hmoves with
  | started b seq now => exact h.go rfl rfl
  | sent b seq start packet hpacket => exact h.go rfl rfl
  | sendFailed b seq start packet error hpacket => exact spent_done (hhistory.place rfl).2 (h.leave rfl)
  | waits b seq start now hnow => exact h.go rfl rfl
  | expired b seq start now hnow => exact spent_nextAttempt b hhistory (h.leave rfl)
  | received b seq start wait written length source => exact h.receive rfl rfl
  | timedOut b seq start wait written error hkind =>
    exact spent_nextAttempt _ hhistory ((Nat.le_add_right _ 4).trans (h.receive rfl rfl))
  | interrupted b seq start wait written error hkind =>
    exact (Nat.add_le_add_left (by decide : 1 ≤ 4) _).trans (h.receive rfl rfl)
  | receiveFailed b seq start wait written error h₁ h₂ h₃ =>
    exact spent_done (hhistory.place rfl).2 ((Nat.le_add_right _ 4).trans (h.receive rfl rfl))
  | elapsed b seq start length source now => exact h.go rfl rfl
  | late b seq start length source elapsed now hnow =>
    obtain ⟨first, hafter, -⟩ := hhistory
    exact spent_nextAttempt b (hafter.during (not_isSent_of_mem _ rfl)) (h.leave rfl)
  | tooLong b seq start length source elapsed now hnow hlength => exact spent_done (hhistory.place rfl).2 (h.leave rfl)
  | inTime b seq start length source elapsed now hnow hlength => exact h.go rfl rfl
  | judged b seq start length source elapsed reply =>
    cases reply with
    | none => exact h.go rfl rfl
    | some reply =>
      cases reply with
      | echo => exact spent_done (hhistory.place rfl).2 (h.leave rfl)
      | negative message => exact spent_done (hhistory.place rfl).2 (h.leave rfl)

/-- The events of every run are paid for. -/
theorem Runs.spent (hoptions : p.options.validate = .ok ()) (hpayload : p.payload.length = p.options.payloadSize)
    (h : p.Runs events s) : Spent p events s := by
  refine Machine.run_history ?_ (fun es t e t' ht hspent he => ?_) h
  · rw [init_of_valid hoptions hpayload]
    exact Nat.le_refl 3
  · exact hspent.step (Runs.history hoptions hpayload ht) (moves_of_step he)

/-- So many events, at most, as five for each receive call and three for each attempt. -/
theorem Spent.length_le (hhistory : History p events s) (h : Spent p events s) :
    events.length ≤ 5 * events.countP Event.isReceived + 3 * p.options.attempts.toNat := by
  cases hplace : s.point.place with
  | none =>
    simp only [Spent, hplace] at h
    exact h
  | some place =>
    have hseq := (hhistory.place hplace).2
    simp only [Spent, hplace] at h
    omega

end Spent

end Probe

end IcmpPing
