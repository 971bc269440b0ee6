import IcmpPing.Lemmas.Raw
import IcmpPing.Theorems.Probe

/-!
# Foreign traffic

A probe that parses packets goes on as if nothing had happened after an interrupted receive and after a packet that is not for
it, although such a packet stays in the receive buffer.
-/

namespace IcmpPing

open Probe

/-- What may come between two turns of the receive loop: an interrupted receive, or the receive of a packet that is not for the
probe, with the readings of the clock around it. -/
inductive Noise where
  | interrupted (now : Instant) (written : Bytes) (error : IoError)
  | packet (now : Instant) (bytes : Bytes) (source : IpAddr) (first second : Instant)

namespace Noise

/-- The events of a turn of noise, in an attempt. -/
def events (p : Probe) (seq : UInt16) (start : Instant) : Noise → List Event
  | .interrupted now written error => [.clock now, .received (p.deadline start - now) written (.error error)]
  | .packet now bytes source first second =>
    [.clock now, .received (p.deadline start - now) bytes (.ok (bytes.length, source)), .clock first, .clock second,
      .judged bytes source (p.expected seq) none]

/-- The noise is an interruption, or a packet that fits the buffer and is nothing to the attempt; the clock is not past the
deadline. -/
def Foreign (p : Probe) (seq : UInt16) (start : Instant) : Noise → Prop
  | .interrupted now _ error => error.kind = .interrupted ∧ now ≤ p.deadline start
  | .packet now bytes source _ second =>
    bytes.length ≤ 65535 ∧ parse bytes source (p.expected seq) = .ok none ∧ now ≤ p.deadline start ∧ second ≤ p.deadline start

end Noise

/-- A receive that reports so many bytes has written them. -/
def WritesReported (events : List Event) : Prop :=
  ∀ wait written length source, .received wait written (.ok (length, source)) ∈ events → length ≤ 65535 →
    length ≤ written.length

/-! ## The noise -/

/-- Noise sends nothing. -/
theorem Noise.not_isSent {p : Probe} {seq : UInt16} {start : Instant} {noise : List Noise} {e : Event}
    (he : e ∈ noise.flatMap (Noise.events p seq start)) : e.isSent = false := by
  obtain ⟨n, -, he⟩ := List.mem_flatMap.1 he
  cases n with
  | interrupted now written error =>
    simp only [Noise.events, List.mem_cons, List.not_mem_nil, or_false] at he
    rcases he with rfl | rfl <;> rfl
  | packet now bytes source first second =>
    simp only [Noise.events, List.mem_cons, List.not_mem_nil, or_false] at he
    rcases he with rfl | rfl | rfl | rfl | rfl <;> rfl

/-- Noise is judged as `parse` judges it. -/
theorem Noise.parsesPackets {p : Probe} {seq : UInt16} {start : Instant} {noise : List Noise}
    (h : ∀ n ∈ noise, n.Foreign p seq start) : ParsesPackets (noise.flatMap (Noise.events p seq start)) := by
  intro bytes source expected reply hmem
  obtain ⟨n, hn, hmem⟩ := List.mem_flatMap.1 hmem
  cases n with
  | interrupted now written error => simp [Noise.events] at hmem
  | packet now bytes' source' first second =>
    simp only [Noise.events, List.mem_cons, List.not_mem_nil, or_false, reduceCtorEq, false_or] at hmem
    cases hmem
    exact (h _ hn).2.1

/-- A turn of noise leads back to where it started, but for the buffer. -/
theorem run_noise {p : Probe} {seq : UInt16} {start : Instant} {n : Noise} (h : n.Foreign p seq start) (b : Buffer) :
    ∃ b', p.machine.run ⟨.test seq start, b⟩ (n.events p seq start) = some ⟨.test seq start, b'⟩ := by
  cases n with
  | interrupted now written error =>
    obtain ⟨hkind, hnow⟩ := h
    refine ⟨b.write written, ?_⟩
    exact Machine.run_cons_eq_some.2 ⟨_, step_of_moves (.waits b seq start now hnow),
      Machine.run_singleton.2 (step_of_moves (.interrupted b seq start _ written error hkind))⟩
  | packet now bytes source first second =>
    obtain ⟨hlength, -, hnow, hsecond⟩ := h
    have hjudged := Moves.judged (p := p) (b.write bytes) seq start bytes.length source (first - start) none
    rw [b.take_write hlength (Nat.le_refl _), List.take_length] at hjudged
    refine ⟨b.write bytes, ?_⟩
    exact Machine.run_cons_eq_some.2 ⟨_, step_of_moves (.waits b seq start now hnow),
      Machine.run_cons_eq_some.2 ⟨_, step_of_moves (.received b seq start _ bytes bytes.length source),
        Machine.run_cons_eq_some.2 ⟨_, step_of_moves (.elapsed _ seq start bytes.length source first),
          Machine.run_cons_eq_some.2 ⟨_, step_of_moves (.inTime _ seq start bytes.length source _ second hsecond hlength),
            Machine.run_singleton.2 (step_of_moves hjudged)⟩⟩⟩⟩

/-- Any number of turns of noise lead back to where they started, but for the buffer. -/
theorem run_noises {p : Probe} {seq : UInt16} {start : Instant} {noise : List Noise} (h : ∀ n ∈ noise, n.Foreign p seq start)
    (b : Buffer) :
    ∃ b', p.machine.run ⟨.test seq start, b⟩ (noise.flatMap (Noise.events p seq start)) = some ⟨.test seq start, b'⟩ := by
  induction noise generalizing b with
  | nil => exact ⟨b, rfl⟩
  | cons n noise ih =>
    obtain ⟨b₁, h₁⟩ := run_noise (h n (List.mem_cons_self ..)) b
    obtain ⟨b₂, h₂⟩ := ih (fun n hn => h n (List.mem_cons_of_mem _ hn)) b₁
    exact ⟨b₂, Machine.run_append_eq_some.2 ⟨_, h₁, h₂⟩⟩

/-! ## What comes after it -/

/-- Two states at one point, whose buffers agree on the packet that is to be judged there. -/
def SameButBuffer (s t : State) : Prop :=
  s.point = t.point ∧
    match s.point with
    | .elapsed _ _ length _ => length ≤ 65535 → s.buffer.bytes.take length = t.buffer.bytes.take length
    | .late _ _ length _ _ => length ≤ 65535 → s.buffer.bytes.take length = t.buffer.bytes.take length
    | .judge _ _ length _ _ => s.buffer.bytes.take length = t.buffer.bytes.take length
    | _ => True

/-- At a point where no packet is to be judged, only the point matters. -/
theorem sameButBuffer_nextAttempt (p : Probe) (seq : UInt16) (b c : Buffer) :
    SameButBuffer ⟨p.nextAttempt seq, b⟩ ⟨p.nextAttempt seq, c⟩ := by
  unfold nextAttempt
  by_cases hseq : seq < p.options.attempts
  · rw [if_pos hseq]
    exact ⟨rfl, trivial⟩
  · rw [if_neg hseq]
    exact ⟨rfl, trivial⟩

/-- Each step is the same whatever else the buffer holds. -/
theorem SameButBuffer.step {p : Probe} {s s' t : State} {e : Event} (hwrites : WritesReported [e]) (hsame : SameButBuffer s t)
    (h : p.machine.step s e = some s') : ∃ t', p.machine.step t e = some t' ∧ SameButBuffer s' t' := by
  obtain ⟨point, c⟩ := t
  obtain ⟨hpoint, hbuffer⟩ := hsame
  cases moves_of_step h with
  | started b seq now =>
    cases hpoint
    exact ⟨_, step_of_moves (.started c seq now), rfl, trivial⟩
  | sent b seq start packet hpacket =>
    cases hpoint
    exact ⟨_, step_of_moves (.sent c seq start packet hpacket), rfl, trivial⟩
  | sendFailed b seq start packet error hpacket =>
    cases hpoint
    exact ⟨_, step_of_moves (.sendFailed c seq start packet error hpacket), rfl, trivial⟩
  | waits b seq start now hnow =>
    cases hpoint
    exact ⟨_, step_of_moves (.waits c seq start now hnow), rfl, trivial⟩
  | expired b seq start now hnow =>
    cases hpoint
    exact ⟨_, step_of_moves (.expired c seq start now hnow), sameButBuffer_nextAttempt ..⟩
  | received b seq start wait written length source =>
    cases hpoint
    refine ⟨_, step_of_moves (.received c seq start wait written length source), rfl, fun hlength => ?_⟩
    have hwritten := hwrites wait written length source (List.mem_singleton_self _) hlength
    rw [b.take_write hlength hwritten, c.take_write hlength hwritten]
  | timedOut b seq start wait written error hkind =>
    cases hpoint
    exact ⟨_, step_of_moves (.timedOut c seq start wait written error hkind), sameButBuffer_nextAttempt ..⟩
  | interrupted b seq start wait written error hkind =>
    cases hpoint
    exact ⟨_, step_of_moves (.interrupted c seq start wait written error hkind), rfl, trivial⟩
  | receiveFailed b seq start wait written error h₁ h₂ h₃ =>
    cases hpoint
    exact ⟨_, step_of_moves (.receiveFailed c seq start wait written error h₁ h₂ h₃), rfl, trivial⟩
  | elapsed b seq start length source now =>
    cases hpoint
    exact ⟨_, step_of_moves (.elapsed c seq start length source now), rfl, hbuffer⟩
  | late b seq start length source elapsed now hnow =>
    cases hpoint
    exact ⟨_, step_of_moves (.late c seq start length source elapsed now hnow), sameButBuffer_nextAttempt ..⟩
  | tooLong b seq start length source elapsed now hnow hlength =>
    cases hpoint
    exact ⟨_, step_of_moves (.tooLong c seq start length source elapsed now hnow hlength), rfl, trivial⟩
  | inTime b seq start length source elapsed now hnow hlength =>
    cases hpoint
    exact ⟨_, step_of_moves (.inTime c seq start length source elapsed now hnow hlength), rfl, hbuffer hlength⟩
  | judged b seq start length source elapsed reply =>
    cases hpoint
    have hjudged := Moves.judged (p := p) c seq start length source elapsed reply
    rw [← show b.bytes.take length = c.bytes.take length from hbuffer] at hjudged
    refine ⟨_, step_of_moves hjudged, ?_⟩
    cases reply with
    | none => exact ⟨rfl, trivial⟩
    | some reply => cases reply <;> exact ⟨rfl, trivial⟩

/-- The run goes through the same events after the noise, and comes to the same point. -/
theorem Probe.Runs.insert_noise {p : Probe} {before after : List Event} {noise : List Noise} {seq : UInt16} {start : Instant} {t s : State}
    (hbefore : p.Runs before t) (hturn : t.point = .test seq start) (hrun : p.Runs (before ++ after) s) (hwrites : WritesReported after)
    (hnoise : ∀ n ∈ noise, n.Foreign p seq start) :
    ∃ s', p.Runs (before ++ noise.flatMap (Noise.events p seq start) ++ after) s' ∧ s'.point = s.point := by
  obtain ⟨t', ht', hafter⟩ := Machine.run_append_eq_some.1 hrun
  cases hbefore.symm.trans ht'
  obtain ⟨point, b⟩ := t
  obtain rfl : point = .test seq start := hturn
  obtain ⟨c, hc⟩ := run_noises hnoise b
  have hinit : SameButBuffer ⟨.test seq start, b⟩ ⟨.test seq start, c⟩ := ⟨rfl, trivial⟩
  obtain ⟨s', hs', hsame⟩ := Machine.run_lockstep hinit (fun e he u u' v huv hu =>
    huv.step (fun wait written length source hmem => hwrites wait written length source
      (List.mem_singleton.1 hmem ▸ he)) hu) hafter
  exact ⟨s', Machine.run_append_eq_some.2 ⟨_, Machine.run_append_eq_some.2 ⟨_, hbefore, hc⟩, hs'⟩, hsame.1.symm⟩

/-- Foreign traffic cannot change a probe's outcome. Before any turn of the receive loop of any attempt, any number of
interrupted receives and of packets that are not for the attempt may be inserted, with the clock not past the deadline: the probe
can still go through the same events, comes to the same point (in particular to the same result), and sends the same packets. -/
theorem run_insert_noise (p : Probe) (before after : List Event) (noise : List Noise) (seq : UInt16) (start : Instant)
    (t s : State) (hbefore : p.Runs before t) (hturn : t.point = .test seq start) (hrun : p.Runs (before ++ after) s)
    (hparses : ParsesPackets (before ++ after)) (hwrites : WritesReported after)
    (hnoise : ∀ n ∈ noise, n.Foreign p seq start) :
    (∃ s', p.Runs (before ++ noise.flatMap (Noise.events p seq start) ++ after) s' ∧ s'.point = s.point) ∧
    sentPackets (before ++ noise.flatMap (Noise.events p seq start) ++ after) = sentPackets (before ++ after) ∧
    ParsesPackets (before ++ noise.flatMap (Noise.events p seq start) ++ after) := by
  refine ⟨?_, ?_, ?_⟩
  · exact hbefore.insert_noise hturn hrun hwrites hnoise
  · rw [sentPackets_append, sentPackets_append_silent fun e he => Noise.not_isSent he, ← sentPackets_append]
  · intro bytes source expected reply hmem
    rcases List.mem_append.1 hmem with hmem | hmem
    · rcases List.mem_append.1 hmem with hmem | hmem
      · exact hparses bytes source expected reply (List.mem_append_left _ hmem)
      · exact Noise.parsesPackets hnoise bytes source expected reply hmem
    · exact hparses bytes source expected reply (List.mem_append_right _ hmem)

/-- An interrupted receive, and a packet that is too short to be anything. -/
def sampleNoise : List Noise :=
  [.interrupted 110 [] { kind := .interrupted, rawOsError := some 4, text := "Interrupted system call (os error 4)" },
    .packet 120 (List.replicate 100 255) (.v4 ⟨192, 0, 2, 9⟩) 130 140]

theorem run_insert_noise_sample :
    ∃ s, sampleProbe.Runs (sampleStart ++ sampleNoise.flatMap (Noise.events sampleProbe 1 100) ++ sampleEnd) s ∧
      s.point = .done (.ok { latency := some 4900, message := "" }) := by
  have hbefore : (sampleProbe.machine.run sampleProbe.init sampleStart).map State.point = some (.test 1 100) := by
    decide +kernel
  have hrun : (sampleProbe.machine.run sampleProbe.init (sampleStart ++ sampleEnd)).map State.point =
      some (.done (.ok { latency := some 4900, message := "" })) := by decide +kernel
  obtain ⟨t, ht, hturn⟩ := Option.map_eq_some_iff.1 hbefore
  obtain ⟨s, hs, hpoint⟩ := Option.map_eq_some_iff.1 hrun
  have hparses : ParsesPackets (sampleStart ++ sampleEnd) := by
    intro bytes source expected reply hmem
    simp only [sampleStart, sampleEnd, List.cons_append, List.nil_append, List.mem_cons, List.not_mem_nil, reduceCtorEq,
      false_or, or_false] at hmem
    cases hmem
    decide +kernel
  have hwrites : WritesReported sampleEnd := by
    intro wait written length source hmem _
    simp only [sampleEnd, List.mem_cons, List.not_mem_nil, reduceCtorEq, false_or, or_false] at hmem
    cases hmem
    decide
  have hnoise : ∀ n ∈ sampleNoise, n.Foreign sampleProbe 1 100 := by
    intro n hn
    simp only [sampleNoise, List.mem_cons, List.not_mem_nil, or_false] at hn
    rcases hn with rfl | rfl
    · exact ⟨rfl, by decide⟩
    · exact ⟨by decide, by decide +kernel, by decide, by decide⟩
  obtain ⟨⟨s', hs', hsame⟩, -⟩ :=
    run_insert_noise sampleProbe sampleStart sampleEnd sampleNoise 1 100 t s ht hturn hs hparses hwrites hnoise
  exact ⟨s', hs', hsame.trans hpoint⟩

/-! ## Over a raw socket -/

/-- The events of a turn of noise, and the calls that each takes of a raw socket. -/
def Noise.log (p : Probe) (seq : UInt16) (start : Instant) : Noise → RawLog
  | .interrupted now written error => [(.clock now, [⟨.now, now⟩]),
    (.received (p.deadline start - now) written (.error error),
      [⟨.setReadTimeout (max (p.deadline start - now) (fromMillis 1)), .ok ()⟩, ⟨.recvFrom, .error error⟩])]
  | .packet now bytes source first second => [(.clock now, [⟨.now, now⟩]),
    (.received (p.deadline start - now) bytes (.ok (bytes.length, source)),
      [⟨.setReadTimeout (max (p.deadline start - now) (fromMillis 1)), .ok ()⟩, ⟨.recvFrom, .ok (bytes, source)⟩]),
    (.clock first, [⟨.now, first⟩]), (.clock second, [⟨.now, second⟩]), (.judged bytes source (p.expected seq) none, [])]

/-- The events of a noisy log. -/
theorem Noise.map_log (p : Probe) (seq : UInt16) (start : Instant) (noise : List Noise) :
    (noise.flatMap (Noise.log p seq start)).map Prod.fst = noise.flatMap (Noise.events p seq start) := by
  rw [List.map_flatMap]
  refine congrArg (List.flatMap · noise) (funext fun n => ?_)
  cases n <;> rfl

/-- A raw socket that delivers datagrams in wire form serves noise. -/
theorem Noise.serves {os : TargetOs} (hos : os = .linux ∨ os = .windows) {p : Probe} {seq : UInt16} {start : Instant} {noise : List Noise}
    (h : ∀ n ∈ noise, n.Foreign p seq start) : ∀ entry ∈ noise.flatMap (Noise.log p seq start), Raw.Serves os entry.2 entry.1 := by
  intro entry hentry
  obtain ⟨n, hn, hentry⟩ := List.mem_flatMap.1 hentry
  cases n with
  | interrupted now written error =>
    simp only [Noise.log, List.mem_cons, List.not_mem_nil, or_false] at hentry
    rcases hentry with rfl | rfl
    · exact rfl
    · exact Raw.serves_of_receives (.failed error) nofun
  | packet now bytes source first second =>
    have hreceives : Raw.Receives os (p.deadline start - now) _ _ := .received bytes source
    rw [Raw.restored_of_wire hos] at hreceives
    simp only [Noise.log, List.mem_cons, List.not_mem_nil, or_false] at hentry
    rcases hentry with rfl | rfl | rfl | rfl | rfl
    · exact rfl
    · exact Raw.serves_of_receives hreceives fun received heq => congrArg Received.written (Except.ok.inj heq)
    · exact rfl
    · exact rfl
    · exact ⟨rfl, (h _ hn).2.1⟩

/-- A receive from a raw socket writes what it reports. -/
theorem RawRuns.writesReported {p : Probe} {os : TargetOs} {log : RawLog} {s : State} (h : RawRuns p os log s) :
    WritesReported (log.map Prod.fst) := by
  intro wait written length source hmem _
  obtain ⟨⟨e, calls⟩, hentry, rfl⟩ := List.mem_map.1 hmem
  obtain ⟨bytes, -, rfl, rfl⟩ := (h.serves _ hentry).packet
  exact (Raw.length_restored os bytes source).ge

/-- Over a raw socket that delivers datagrams in wire form, noise may come before any turn of the receive loop of a run: there is a run
with the noise, and with the same calls and answers before and after it, that comes to the same point. -/
theorem RawRuns.insert_noise {p : Probe} {os : TargetOs} (hos : os = .linux ∨ os = .windows) {before after : RawLog} {noise : List Noise}
    {seq : UInt16} {start : Instant} {t s : State} (hbefore : RawRuns p os before t) (hturn : t.point = .test seq start)
    (hrun : RawRuns p os (before ++ after) s) (hnoise : ∀ n ∈ noise, n.Foreign p.overRaw seq start) :
    ∃ s', RawRuns p os (before ++ noise.flatMap (Noise.log p.overRaw seq start) ++ after) s' ∧ s'.point = s.point := by
  have hruns := hrun.runs
  have hwrites : WritesReported (after.map Prod.fst) := fun wait written length source hmem =>
    hrun.writesReported wait written length source (by rw [List.map_append]; exact List.mem_append_right _ hmem)
  rw [List.map_append] at hruns
  obtain ⟨s', hs', hpoint⟩ := hbefore.runs.insert_noise hturn hruns hwrites hnoise
  refine ⟨s', ⟨?_, ?_⟩, hpoint⟩
  · rwa [List.map_append, List.map_append, Noise.map_log]
  · exact List.forall_mem_append.2 ⟨List.forall_mem_append.2 ⟨hbefore.serves, Noise.serves hos hnoise⟩,
      fun entry hentry => hrun.serves entry (List.mem_append_right _ hentry)⟩

end IcmpPing
