import IcmpPing.Lemmas.Deadline
import IcmpPing.Lemmas.Message
import IcmpPing.Theorems.Ping

/-!
# A probe ends under any traffic

Whatever the transport does, and whatever the kernel answers to the ping socket: as long as the clock advances between the
tests of a deadline, the loops that test it end.
-/

namespace IcmpPing

open Probe Ping

/-! ## A probe returns -/

/-- How the transport and the clock behave: what they answer after these events. -/
structure Behaviour where
  clock : List Event → Instant
  send : List Event → Except IoError Unit
  receive : List Event → Bytes × Except IoError (Nat × IpAddr)
  judge : List Event → Option Reply

namespace Behaviour

/-- The event is what they answer. -/
def Answers (behaviour : Behaviour) (past : List Event) : Event → Prop
  | .clock now => now = behaviour.clock past
  | .sent _ _ result => result = behaviour.send past
  | .received _ written result => (written, result) = behaviour.receive past
  | .judged _ _ _ reply => reply = behaviour.judge past

/-- All events are what they answer. -/
def Follows (behaviour : Behaviour) (events : List Event) : Prop :=
  ∀ before e after, events = before ++ e :: after → behaviour.Answers before e

/-- Nothing has happened yet. -/
theorem follows_nil (behaviour : Behaviour) : behaviour.Follows [] := by
  intro before e after h
  cases before <;> cases h

/-- The behaviour is followed by one more event that it answers with. -/
theorem Follows.snoc {behaviour : Behaviour} {events : List Event} {e : Event} (h : behaviour.Follows events)
    (he : behaviour.Answers events e) : behaviour.Follows (events ++ [e]) := by
  intro before e' after heq
  rcases List.eq_nil_or_concat after with rfl | ⟨rest, last, rfl⟩
  · obtain ⟨rfl, hlast⟩ := List.append_inj' heq rfl
    cases hlast
    exact he
  · rw [List.concat_eq_append, ← List.cons_append, ← List.append_assoc] at heq
    exact h before e' rest (List.append_inj' heq rfl).1

end Behaviour

/-- A probe that is not at its end goes on with whatever the transport and the clock answer. -/
theorem exists_step {p : Probe} (hpayload : p.payload.length ≤ 65527) (behaviour : Behaviour) (past : List Event) (s : State)
    (hdone : ¬∃ result, s.point = .done result) : ∃ e s', p.machine.step s e = some s' ∧ behaviour.Answers past e := by
  obtain ⟨point, b⟩ := s
  cases point with
  | start seq => exact ⟨_, _, step_of_moves (.started b seq _), rfl⟩
  | send seq start =>
    have hpacket : p.request seq = .ok _ := echo_of_length _ _ _ _ hpayload
    cases hresult : behaviour.send past with
    | ok value => exact ⟨_, _, step_of_moves (.sent b seq start _ hpacket), hresult.symm⟩
    | error error => exact ⟨_, _, step_of_moves (.sendFailed b seq start _ error hpacket), hresult.symm⟩
  | test seq start =>
    rcases Nat.lt_or_ge (p.deadline start) (behaviour.clock past) with hnow | hnow
    · exact ⟨_, _, step_of_moves (.expired b seq start _ hnow), rfl⟩
    · exact ⟨_, _, step_of_moves (.waits b seq start _ hnow), rfl⟩
  | receive seq start wait => exact ⟨.received wait (behaviour.receive past).1 (behaviour.receive past).2, _, if_pos rfl, rfl⟩
  | elapsed seq start length source => exact ⟨_, _, step_of_moves (.elapsed b seq start length source _), rfl⟩
  | late seq start length source elapsed =>
    rcases Nat.lt_or_ge (p.deadline start) (behaviour.clock past) with hnow | hnow
    · exact ⟨_, _, step_of_moves (.late b seq start length source elapsed _ hnow), rfl⟩
    rcases Nat.lt_or_ge 65535 length with hlength | hlength
    · exact ⟨_, _, step_of_moves (.tooLong b seq start length source elapsed _ hnow hlength), rfl⟩
    · exact ⟨_, _, step_of_moves (.inTime b seq start length source elapsed _ hnow hlength), rfl⟩
  | judge seq start length source elapsed => exact ⟨_, _, step_of_moves (.judged b seq start length source elapsed _), rfl⟩
  | done result => exact absurd ⟨result, rfl⟩ hdone

/-- A call whose payload does not have the length of its options ends at once. -/
theorem init_of_payload {p : Probe} (hoptions : p.options.validate = .ok ())
    (hpayload : p.payload.length ≠ p.options.payloadSize) :
    p.init.point = .done (.error "Invalid internal ICMP payload length") := by
  simp only [init, hoptions, ne_eq, hpayload, not_false_eq_true, if_true]

/-- Where the clock advances, a run stays within these bounds. -/
theorem Probe.Runs.bounded {p : Probe} (hoptions : p.options.validate = .ok ()) {events : List Event} {s : State}
    (h : p.Runs events s) (hticks : Ticks p events) :
    (∀ seq, (p.receives seq events).length ≤ p.options.timeout + 1) ∧
    (sentPackets events).length ≤ p.options.attempts.toNat ∧
    events.countP Event.isReceived ≤ p.options.attempts.toNat * (p.options.timeout + 1) ∧
    events.length ≤ p.options.attempts.toNat * (5 * p.options.timeout + 8) := by
  by_cases hpayload : p.payload.length = p.options.payloadSize
  swap
  · rw [run_done (init_of_payload hoptions hpayload) h]
    exact ⟨fun _ => Nat.zero_le _, Nat.zero_le _, Nat.zero_le _, Nat.zero_le _⟩
  have hhistory := Runs.history hoptions hpayload h
  have hpaced := h.paced hoptions hpayload hticks
  have htotal := hpaced.total_le hticks hhistory
  obtain ⟨k, hk, hsent⟩ := hhistory.sentRequests
  refine ⟨hpaced.1, hsent.length.trans_le hk, htotal, ?_⟩
  calc
    events.length ≤ 5 * events.countP Event.isReceived + 3 * p.options.attempts.toNat :=
      (h.spent hoptions hpayload).length_le hhistory
    _ ≤ 5 * (p.options.attempts.toNat * (p.options.timeout + 1)) + 3 * p.options.attempts.toNat := by omega
    _ = p.options.attempts.toNat * (5 * p.options.timeout + 8) := by ring

/-- Where the clock advances, a probe returns, whatever the transport does. -/
theorem probe_returns {p : Probe} (hoptions : p.options.validate = .ok ()) (behaviour : Behaviour)
    (hclock : ∀ events s, p.Runs events s → behaviour.Follows events → Ticks p events) :
    ∃ events s result, p.Runs events s ∧ behaviour.Follows events ∧ s.point = .done result := by
  by_cases hpayload : p.payload.length = p.options.payloadSize
  · obtain ⟨-, -, -, -, -, hsize⟩ := validate_bounds hoptions
    obtain ⟨events, s, hfollows, hrun, result, hdone⟩ := Machine.exists_final (M := p.machine) (P := behaviour.Follows)
      (s := p.init) behaviour.follows_nil
      (fun events s hfollows hrun => (Runs.bounded hoptions hrun (hclock events s hrun hfollows)).2.2.2)
      fun events s hfollows _ hdone => by
        obtain ⟨e, s', hstep, hanswers⟩ := exists_step (p := p) (by omega) behaviour events s hdone
        exact ⟨e, s', hstep, hfollows.snoc hanswers⟩
    exact ⟨events, s, result, hrun, hfollows, hdone⟩
  · exact ⟨[], p.init, _, rfl, behaviour.follows_nil, init_of_payload hoptions hpayload⟩

/-! ## `Ping::receive` returns -/

/-- A receive turn by turn: those that go on, and the one that ends it. -/
def ReceiveTurns (wait : Duration) (start : Instant) (ping : Ping) (turns : List (List (Exchange Syscall.Answer)))
    (last : List (Exchange Syscall.Answer)) (result : Except IoError Received) (ping' : Ping) : Prop :=
  ∃ ping₁, Method.Turns (receiveTurn (start + wait)) ping turns ping₁ ∧
    (receiveTurn (start + wait)).Runs ping₁ last (result.map some) ping'

/-- The runs of `receive`, turn by turn. -/
theorem receiveRuns_iff {wait : Duration} {ping ping' : Ping} {calls : List (Exchange Syscall.Answer)}
    {result : Except IoError Received} : ReceiveRuns wait ping calls result ping' ↔
      ∃ start turns last, calls = ⟨.now, start⟩ :: (turns.flatten ++ last) ∧
        ReceiveTurns wait start ping turns last result ping' := by
  constructor
  · rintro ⟨start, rest, rfl, hloop⟩
    obtain ⟨turns, last, ping₁, rfl, hturns, hlast⟩ := Method.loopRuns_iff.1 hloop
    exact ⟨start, turns, last, rfl, ping₁, hturns, hlast⟩
  · rintro ⟨start, turns, last, rfl, ping₁, hturns, hlast⟩
    exact ⟨start, _, rfl, Method.loopRuns_iff.2 ⟨turns, last, ping₁, rfl, hturns, hlast⟩⟩

/-- Where the clock advances, a receive returns, whatever the kernel answers. -/
theorem receive_returns {kernel : Environment Syscall.Answer} {past : List (Exchange Syscall.Answer)} {wait : Duration}
    {ping : Ping} (hclock : ∀ turns ping₁, Method.Turns (receiveTurn (kernel past .now + wait)) ping turns ping₁ →
      kernel.Gives past (⟨.now, kernel past .now⟩ :: turns.flatten) → TurnsAdvance (kernel past .now) turns) :
    ∃ calls result ping', ReceiveRuns wait ping calls result ping' ∧ kernel.Gives past calls := by
  have hbound : ∀ turns ping₁, Method.Turns (receiveTurn (kernel past .now + wait)) ping turns ping₁ →
      kernel.Gives (past ++ [⟨.now, kernel past .now⟩]) turns.flatten → turns.length ≤ wait :=
    fun turns ping₁ hturns hgives => (hclock turns ping₁ hturns ⟨rfl, hgives⟩).length_le hturns
  obtain ⟨turns, last, ping₁, result, ping', hturns, hlast, hgives, -⟩ := Method.exists_loopRuns hbound
  exact ⟨_, result, ping', receiveRuns_iff.2 ⟨_, turns, last, rfl, ping₁, hturns, hlast⟩, rfl, hgives⟩

/-! ## Both loops -/

/-- A probe ends under any traffic. Where the clock advances between successive tests of the deadline of a loop:
1. in every run over any transport, each attempt makes at most as many receive calls as its timeout has ticks, and one, and the
   whole probe sends at most once for each attempt;
2. whatever the transport and the clock answer, a run comes to an end;
3. every `Ping::receive` ends within as many turns of its own loop as its wait has ticks, and one;
4. whatever the kernel answers, a `Ping::receive` ends. -/
theorem probe_ends (p : Probe) (hoptions : p.options.validate = .ok ()) :
    (∀ events s, p.Runs events s → Ticks p events →
      (∀ seq, (p.receives seq events).length ≤ p.options.timeout + 1) ∧
      (sentPackets events).length ≤ p.options.attempts.toNat ∧
      events.countP Event.isReceived ≤ p.options.attempts.toNat * (p.options.timeout + 1) ∧
      events.length ≤ p.options.attempts.toNat * (5 * p.options.timeout + 8)) ∧
    (∀ behaviour : Behaviour, (∀ events s, p.Runs events s → behaviour.Follows events → Ticks p events) →
      ∃ events s result, p.Runs events s ∧ behaviour.Follows events ∧ s.point = .done result) ∧
    (∀ wait ping calls result ping', ReceiveRuns wait ping calls result ping' → ∃ start turns last,
      calls = ⟨.now, start⟩ :: (turns.flatten ++ last) ∧ ReceiveTurns wait start ping turns last result ping' ∧
        (TurnsAdvance start turns → (turns ++ [last]).length ≤ wait + 1)) ∧
    ∀ (kernel : Environment Syscall.Answer) past wait ping,
      (∀ turns ping₁, Method.Turns (receiveTurn (kernel past .now + wait)) ping turns ping₁ →
        kernel.Gives past (⟨.now, kernel past .now⟩ :: turns.flatten) → TurnsAdvance (kernel past .now) turns) →
      ∃ calls result ping', ReceiveRuns wait ping calls result ping' ∧ kernel.Gives past calls := by
  refine ⟨fun events s h hticks => h.bounded hoptions hticks, fun behaviour hclock => probe_returns hoptions behaviour hclock, ?_,
    fun kernel past wait ping hclock => receive_returns hclock⟩
  intro wait ping calls result ping' h
  obtain ⟨start, turns, last, hcalls, hturns⟩ := receiveRuns_iff.1 h
  refine ⟨start, turns, last, hcalls, hturns, fun hclock => ?_⟩
  obtain ⟨ping₁, hturns, -⟩ := hturns
  rw [List.length_append, List.length_singleton]
  exact Nat.succ_le_succ (hclock.length_le hturns)

/-! ## A clock that counts -/

/-- The behaviour was followed before the last event too. -/
theorem Behaviour.Follows.of_snoc {behaviour : Behaviour} {events : List Event} {e : Event}
    (h : behaviour.Follows (events ++ [e])) : behaviour.Follows events ∧ behaviour.Answers events e := by
  refine ⟨fun before e' after heq => h before e' (after ++ [e]) ?_, h events e [] rfl⟩
  rw [heq, List.append_assoc, List.cons_append]

/-- A clock that counts the events advances at each of its readings. -/
theorem readings_of_counting {behaviour : Behaviour} (hclock : ∀ past, behaviour.clock past = past.length) {events : List Event}
    (h : behaviour.Follows events) : (readings events).Pairwise (· < ·) ∧ ∀ t ∈ readings events, t < events.length := by
  induction events using List.reverseRecOn with
  | nil => exact ⟨List.Pairwise.nil, List.forall_mem_nil _⟩
  | append_singleton events e ih =>
    obtain ⟨hbefore, hanswers⟩ := h.of_snoc
    obtain ⟨hpairwise, hlt⟩ := ih hbefore
    have hlast : ∀ t ∈ readings [e], t = events.length := by
      intro t ht
      cases e with
      | clock now =>
        rw [List.mem_singleton.1 ht]
        exact hanswers.trans (hclock events)
      | _ => cases ht
    have hone : (readings [e]).Pairwise (· < ·) := by
      cases e with
      | clock now => exact List.pairwise_singleton _ _
      | _ => exact List.Pairwise.nil
    rw [readings, List.filterMap_append, List.pairwise_append, List.length_append]
    refine ⟨⟨hpairwise, hone, fun t ht t' ht' => ?_⟩, fun t ht => ?_⟩
    · rw [hlast t' ht']
      exact hlt t ht
    · rcases List.mem_append.1 ht with ht | ht
      · exact Nat.lt_succ_of_lt (hlt t ht)
      · rw [hlast t ht]
        exact Nat.lt_succ_self _

/-- The tests of a deadline are readings of the clock. -/
theorem tests_sublist {p : Probe} {events : List Event} {s : State} (h : p.Runs events s) (seq : UInt16) :
    (p.tests seq events).Sublist (readings events) := by
  refine Machine.run_history (P := fun events _ => (p.tests seq events).Sublist (readings events)) (List.Sublist.refl _) ?_ h
  intro events s e s' hrun ih _
  rw [tests_snoc hrun, readings, List.filterMap_append]
  refine ih.append ?_
  unfold testReading
  split
  · split
    · exact List.Sublist.refl _
    · exact List.nil_sublist _
  · exact List.nil_sublist _

/-- A clock that counts the events ticks. -/
theorem ticks_of_counting {p : Probe} {behaviour : Behaviour} (hclock : ∀ past, behaviour.clock past = past.length)
    {events : List Event} {s : State} (h : p.Runs events s) (hfollows : behaviour.Follows events) : Ticks p events := by
  have hreadings := (readings_of_counting hclock hfollows).1
  exact ⟨(hreadings.imp Nat.le_of_lt).isChain, fun seq => (hreadings.sublist (tests_sublist h seq)).isChain⟩

/-- A clock that counts the calls of the adapter advances between the turns of a receive. -/
theorem turnTests_of_counting {kernel : Environment Syscall.Answer} (hclock : ∀ past, kernel past .now = past.length)
    {deadline : Instant} {ping ping' : Ping} {turns : List (List (Exchange Syscall.Answer))}
    (h : Method.Turns (receiveTurn deadline) ping turns ping') {past : List (Exchange Syscall.Answer)}
    (hgives : kernel.Gives past turns.flatten) :
    (turnTests turns).Pairwise (· < ·) ∧ ∀ t ∈ turnTests turns, past.length ≤ t := by
  induction h generalizing past with
  | nil ping => exact ⟨List.Pairwise.nil, List.forall_mem_nil _⟩
  | cons hfirst _ ih =>
    obtain ⟨now, rest, rfl, -⟩ := test_of_receiveTurn hfirst
    obtain ⟨hfirst, hrest⟩ := Environment.gives_append.1 hgives
    obtain ⟨hpairwise, hle⟩ := ih hrest
    obtain rfl : now = past.length := hfirst.1.trans (hclock past)
    rw [List.length_append, List.length_cons] at hle
    refine ⟨List.pairwise_cons.2 ⟨fun t ht => ?_, hpairwise⟩, List.forall_mem_cons.2 ⟨Nat.le_refl _, fun t ht => ?_⟩⟩
    · exact (Nat.lt_add_of_pos_right (Nat.succ_pos _)).trans_le (hle t ht)
    · exact (Nat.le_add_right _ _).trans (hle t ht)

/-- Every receive is interrupted, for ever. -/
def sampleInterrupted : Behaviour where
  clock past := past.length
  send _ := .ok ()
  receive _ := ([], .error { kind := .interrupted, rawOsError := some 4, text := "Interrupted system call (os error 4)" })
  judge _ := none

/-- The socket is always ready, and there is never data, a record of the error queue or a pending error. -/
def sampleWakeups : Environment Syscall.Answer := fun past c =>
  match c with
  | .now => past.length
  | .recvmsg => sampleEmpty.2
  | .takeError => .ok none
  | .sendTo packet _ => .ok packet.length
  | .poll _ => .ok (1, 8)
  | .setReadTimeout _ => .ok ()
  | .recvFrom => .error IoError.timedOut

theorem probe_ends_sample :
    (∃ events s result, sampleProbe.Runs events s ∧ sampleInterrupted.Follows events ∧ s.point = .done result) ∧
      ∃ calls result ping', ReceiveRuns 50 samplePing calls result ping' ∧ sampleWakeups.Gives [] calls := by
  obtain ⟨-, hreturns, -, hreceive⟩ := probe_ends sampleProbe (by decide)
  refine ⟨hreturns sampleInterrupted fun events s h hfollows => ticks_of_counting (fun _ => rfl) h hfollows, ?_⟩
  refine hreceive sampleWakeups [] 50 samplePing fun turns ping₁ hturns hgives => ?_
  obtain ⟨hpairwise, hle⟩ := turnTests_of_counting (fun _ => rfl) hturns hgives.2
  exact ⟨fun t ht => (Nat.zero_le 1).trans (hle t ht), hpairwise.isChain⟩

end IcmpPing
