import IcmpPing.Lemmas.Probe

/-!
# Whole runs of a probe

What a probe has sent and when, what ends it, and when its result has a latency, over every sequence of events: any behaviour of
the transport and of the clock.
-/

namespace IcmpPing

open Probe

/-- The event settles the probe, given those before and after it: a send error; a receive error that is not a timeout or an
interruption; or the receive of a packet that is too long, or that is judged a reply or an error, where the second reading of
the clock after it is not past the deadline of the attempt. -/
def Decides (p : Probe) (before : List Event) (e : Event) (after : List Event) : Prop :=
  match e with
  | .sent _ _ (.error _) => True
  | .received _ _ (.error error) => error.kind ≠ .timedOut ∧ error.kind ≠ .wouldBlock ∧ error.kind ≠ .interrupted
  | .received _ _ (.ok (length, _)) => ∃ start first second rest, attemptStart before = some start ∧
    after = .clock first :: .clock second :: rest ∧ second ≤ p.deadline start ∧
    (65535 < length ∨ ∃ bytes source expected reply rest', rest = .judged bytes source expected (some reply) :: rest')
  | _ => False

section Run

variable {p : Probe} (hoptions : p.options.validate = .ok ()) (hpayload : p.payload.length = p.options.payloadSize)

include hoptions hpayload

/-- A packet is sent to the target, as the first one or once the attempt before is over. -/
theorem sent_after_expiry {before after : List Event} {packet : Bytes} {target : IpAddr} {result : Except IoError Unit}
    {s : State} (h : p.Runs (before ++ .sent packet target result :: after) s) :
    target = p.target ∧ (sentPackets before = [] ∨ Expired p before) := by
  obtain ⟨t, ht, h⟩ := Machine.run_append_eq_some.1 h
  obtain ⟨t', ht', -⟩ := Machine.run_cons_eq_some.1 h
  have hhistory := Runs.history hoptions hpayload ht
  have hcases : target = p.target ∧ ∃ seq, Fresh p before seq := by
    cases moves_of_step ht' with
    | sent b seq start packet hpacket =>
      obtain ⟨_, _, hfresh⟩ := hhistory
      exact ⟨rfl, seq, hfresh⟩
    | sendFailed b seq start packet error hpacket =>
      obtain ⟨_, _, hfresh⟩ := hhistory
      exact ⟨rfl, seq, hfresh⟩
  obtain ⟨htarget, seq, hfresh⟩ := hcases
  refine ⟨htarget, hfresh.first_or_expired.imp_left fun hseq => ?_⟩
  have hlength := hfresh.sent.length
  rw [hseq] at hlength
  exact List.eq_nil_of_length_eq_zero hlength

/-- After an event that settles the probe, nothing is sent or received. -/
theorem nothing_after_decision {before after : List Event} {e : Event} {s : State} (h : p.Runs (before ++ e :: after) s)
    (hdecides : Decides p before e after) : ∀ e' ∈ after, e'.isSent = false ∧ e'.isReceived = false := by
  obtain ⟨t, ht, h⟩ := Machine.run_append_eq_some.1 h
  obtain ⟨t', ht', hafter⟩ := Machine.run_cons_eq_some.1 h
  have hhistory := Runs.history hoptions hpayload ht
  cases moves_of_step ht' with
  | sendFailed b seq start packet error hpacket =>
    obtain rfl := run_done rfl hafter
    exact List.forall_mem_nil _
  | receiveFailed b seq start wait written error h₁ h₂ h₃ =>
    obtain rfl := run_done rfl hafter
    exact List.forall_mem_nil _
  | timedOut b seq start wait written error hkind =>
    rcases hkind with hkind | hkind
    · exact absurd hkind hdecides.1
    · exact absurd hkind hdecides.2.1
  | interrupted b seq start wait written error hkind => exact absurd hkind hdecides.2.2
  | received b seq start wait written length source =>
    obtain ⟨start', first, second, rest, hstart, rfl, hsecond, hcause⟩ := hdecides
    obtain rfl : start = start' := Option.some.inj (hhistory.started.symm.trans hstart)
    obtain ⟨t₁, ht₁, hafter⟩ := Machine.run_cons_eq_some.1 hafter
    obtain ⟨t₂, ht₂, hafter⟩ := Machine.run_cons_eq_some.1 hafter
    cases moves_of_step ht₁
    have hrest : ∀ e' ∈ rest, e'.isSent = false ∧ e'.isReceived = false := by
      cases moves_of_step ht₂ with
      | late _ _ _ _ _ _ _ hlate => exact absurd hsecond (Nat.not_le.2 hlate)
      | tooLong =>
        obtain rfl := run_done rfl hafter
        exact List.forall_mem_nil _
      | inTime _ _ _ _ _ _ _ _ hlength =>
        rcases hcause with hlong | ⟨bytes, source', expected, reply, rest', rfl⟩
        · exact absurd hlength (Nat.not_le.2 hlong)
        obtain ⟨t₃, ht₃, hafter⟩ := Machine.run_cons_eq_some.1 hafter
        cases moves_of_step ht₃
        have hnil : rest' = [] := by
          cases reply with
          | echo => exact run_done rfl hafter
          | negative text => exact run_done rfl hafter
        subst hnil
        intro e' he'
        rw [List.mem_singleton.1 he']
        exact ⟨rfl, rfl⟩
    intro e' he'
    rcases List.mem_cons.1 he' with rfl | he'
    · exact ⟨rfl, rfl⟩
    rcases List.mem_cons.1 he' with rfl | he'
    · exact ⟨rfl, rfl⟩
    · exact hrest e' he'
  | _ => exact hdecides.elim

/-- A probe that has settled on a reply has its latency. -/
theorem latency_of_settled {events : List Event} {s : State} {latency : Duration} (h : p.Runs events s)
    (hsettled : Settled p events latency) : s.point = .done (.ok { latency := some latency, message := "" }) := by
  obtain ⟨before, wait, written, length, source, first, second, bytes, seq, start, rfl, -, hstart, hsecond, hlength, -, rfl⟩ :=
    hsettled
  obtain ⟨t, ht, h⟩ := Machine.run_append_eq_some.1 h
  have hhistory := Runs.history hoptions hpayload ht
  obtain ⟨t₁, ht₁, h⟩ := Machine.run_cons_eq_some.1 h
  obtain ⟨t₂, ht₂, h⟩ := Machine.run_cons_eq_some.1 h
  obtain ⟨t₃, ht₃, h⟩ := Machine.run_cons_eq_some.1 h
  obtain ⟨t₄, ht₄, h⟩ := Machine.run_cons_eq_some.1 h
  cases h
  cases moves_of_step ht₁ with
  | received b seq' start' =>
    obtain rfl : start' = start := Option.some.inj (hhistory.started.symm.trans hstart)
    cases moves_of_step ht₂
    cases moves_of_step ht₃ with
    | late _ _ _ _ _ _ _ hlate => exact absurd hsecond (Nat.not_le.2 hlate)
    | tooLong _ _ _ _ _ _ _ _ hlong => exact absurd hlength (Nat.not_le.2 hlong)
    | inTime =>
      cases moves_of_step ht₄
      rfl

end Run

/-- Whole-run correctness of `probe`. The packets sent are the requests of the first `k` attempts, in order, with `k` at most
`attempts`; each goes to the target, the first at once and every other only after the attempt before it has timed out or its
deadline has passed; nothing is sent or received after an event that settles the probe; and the result has a latency exactly
when the probe has settled on a reply to the request of its last attempt, which is then the first reading of the clock after
that receive less the start of the attempt. -/
theorem probe_correct (p : Probe) (hoptions : p.options.validate = .ok ())
    (hpayload : p.payload.length = p.options.payloadSize) (events : List Event) (s : State) (h : p.Runs events s) :
    (∃ k ≤ p.options.attempts.toNat, SentRequests p events k) ∧
    (∀ before packet target result after, events = before ++ .sent packet target result :: after →
      target = p.target ∧ (sentPackets before = [] ∨ Expired p before)) ∧
    (∀ before e after, events = before ++ e :: after → Decides p before e after →
      ∀ e' ∈ after, e'.isSent = false ∧ e'.isReceived = false) ∧
    (∀ latency, (∃ message, s.point = .done (.ok { latency := some latency, message := message })) ↔
      Settled p events latency) := by
  have hhistory := Runs.history hoptions hpayload h
  refine ⟨hhistory.sentRequests, ?_, ?_, fun latency => ⟨?_, fun hsettled => ?_⟩⟩
  · rintro before packet target result after rfl
    exact sent_after_expiry hoptions hpayload h
  · rintro before e after rfl hdecides
    exact nothing_after_decision hoptions hpayload h hdecides
  · rintro ⟨message, hpoint⟩
    unfold History at hhistory
    rw [hpoint] at hhistory
    exact hhistory.2 latency message rfl
  · exact ⟨"", latency_of_settled hoptions hpayload h hsettled⟩

/-- A probe of 192.0.2.2 from 192.0.2.1 with the default options, over a transport that keeps the leased identifier. -/
def sampleProbe : Probe where
  target := .v4 ⟨192, 0, 2, 2⟩
  localAddr := .v4 ⟨192, 0, 2, 1⟩
  identifier := fun leased => leased
  leased := 0x1234
  payload := List.replicate 56 7
  options := .default

/-- The datagram that answers the first request of the sample probe. -/
def sampleAnswer : Bytes :=
  [69, 0, 0, 84, 0, 0, 0, 0, 64, 1, 0, 0, 192, 0, 2, 2, 192, 0, 2, 1] ++ [0, 0, 41, 6, 18, 52, 0, 1] ++ List.replicate 56 7

/-- The sample probe sends its first request. -/
def sampleStart : List Event :=
  [.clock 100, .sent ([8, 0, 33, 6, 18, 52, 0, 1] ++ List.replicate 56 7) sampleProbe.target (.ok ())]

/-- The sample probe settles on the answer. -/
def sampleEnd : List Event :=
  [.clock 200, .received 999999900 sampleAnswer (.ok (84, sampleProbe.target)), .clock 5000, .clock 5001,
    .judged sampleAnswer sampleProbe.target (sampleProbe.expected 1) (some .echo)]

theorem probe_correct_sample : Settled sampleProbe (sampleStart ++ sampleEnd) 4900 := by
  have hrun : (sampleProbe.machine.run sampleProbe.init (sampleStart ++ sampleEnd)).map State.point =
      some (.done (.ok { latency := some 4900, message := "" })) := by decide +kernel
  obtain ⟨s, hs, hpoint⟩ := Option.map_eq_some_iff.1 hrun
  exact ((probe_correct sampleProbe (by decide) (by decide) (sampleStart ++ sampleEnd) s hs).2.2.2 4900).1 ⟨"", hpoint⟩

end IcmpPing
