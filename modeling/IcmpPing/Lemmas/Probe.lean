import IcmpPing.Engine
import Mathlib.Data.UInt

/-!
# What a probe has done

What each step of a probe can be, what the events so far tell of it, and the invariant that connects the two.
-/

namespace IcmpPing

/-- The reported bytes of a receive are those written, whatever was in the buffer. -/
theorem Buffer.take_write (b : Buffer) {written : Bytes} {length : Nat} (hlength : length ≤ 65535)
    (hwritten : length ≤ written.length) : (b.write written).bytes.take length = written.take length := by
  have hle : length ≤ (written.take 65535).length := by
    rw [List.length_take]
    omega
  rw [write, List.take_append_of_le_length hle, List.take_take, Nat.min_eq_left hlength]

namespace Probe

/-! ## The steps -/

/-- The steps of a probe, one rule for each way it can go on. -/
inductive Moves (p : Probe) : State → Event → State → Prop where
  | started (b : Buffer) (seq : UInt16) (now : Instant) : Moves p ⟨.start seq, b⟩ (.clock now) ⟨.send seq now, b⟩
  | sent (b : Buffer) (seq : UInt16) (start : Instant) (packet : Bytes) :
    p.request seq = .ok packet → Moves p ⟨.send seq start, b⟩ (.sent packet p.target (.ok ())) ⟨.test seq start, b⟩
  | sendFailed (b : Buffer) (seq : UInt16) (start : Instant) (packet : Bytes) (error : IoError) :
    p.request seq = .ok packet →
      Moves p ⟨.send seq start, b⟩ (.sent packet p.target (.error error)) ⟨.done (failed "send" error), b⟩
  | waits (b : Buffer) (seq : UInt16) (start now : Instant) : now ≤ p.deadline start →
      Moves p ⟨.test seq start, b⟩ (.clock now) ⟨.receive seq start (p.deadline start - now), b⟩
  | expired (b : Buffer) (seq : UInt16) (start now : Instant) : p.deadline start < now →
      Moves p ⟨.test seq start, b⟩ (.clock now) ⟨p.nextAttempt seq, b⟩
  | received (b : Buffer) (seq : UInt16) (start : Instant) (wait : Duration) (written : Bytes) (length : Nat)
      (source : IpAddr) :
    Moves p ⟨.receive seq start wait, b⟩ (.received wait written (.ok (length, source)))
      ⟨.elapsed seq start length source, b.write written⟩
  | timedOut (b : Buffer) (seq : UInt16) (start : Instant) (wait : Duration) (written : Bytes) (error : IoError) :
    error.kind = .timedOut ∨ error.kind = .wouldBlock →
      Moves p ⟨.receive seq start wait, b⟩ (.received wait written (.error error)) ⟨p.nextAttempt seq, b.write written⟩
  | interrupted (b : Buffer) (seq : UInt16) (start : Instant) (wait : Duration) (written : Bytes) (error : IoError) :
    error.kind = .interrupted →
      Moves p ⟨.receive seq start wait, b⟩ (.received wait written (.error error)) ⟨.test seq start, b.write written⟩
  | receiveFailed (b : Buffer) (seq : UInt16) (start : Instant) (wait : Duration) (written : Bytes) (error : IoError) :
    error.kind ≠ .timedOut → error.kind ≠ .wouldBlock → error.kind ≠ .interrupted →
      Moves p ⟨.receive seq start wait, b⟩ (.received wait written (.error error))
        ⟨.done (failed "receive" error), b.write written⟩
  | elapsed (b : Buffer) (seq : UInt16) (start : Instant) (length : Nat) (source : IpAddr) (now : Instant) :
    Moves p ⟨.elapsed seq start length source, b⟩ (.clock now) ⟨.late seq start length source (now - start), b⟩
  | late (b : Buffer) (seq : UInt16) (start : Instant) (length : Nat) (source : IpAddr) (elapsed : Duration) (now : Instant) :
    p.deadline start < now →
      Moves p ⟨.late seq start length source elapsed, b⟩ (.clock now) ⟨p.nextAttempt seq, b⟩
  | tooLong (b : Buffer) (seq : UInt16) (start : Instant) (length : Nat) (source : IpAddr) (elapsed : Duration)
      (now : Instant) : now ≤ p.deadline start → 65535 < length →
      Moves p ⟨.late seq start length source elapsed, b⟩ (.clock now)
        ⟨.done (.error "ICMP receive returned invalid length"), b⟩
  | inTime (b : Buffer) (seq : UInt16) (start : Instant) (length : Nat) (source : IpAddr) (elapsed : Duration)
      (now : Instant) : now ≤ p.deadline start → length ≤ 65535 →
      Moves p ⟨.late seq start length source elapsed, b⟩ (.clock now) ⟨.judge seq start length source elapsed, b⟩
  | judged (b : Buffer) (seq : UInt16) (start : Instant) (length : Nat) (source : IpAddr) (elapsed : Duration)
      (reply : Option Reply) :
    Moves p ⟨.judge seq start length source elapsed, b⟩ (.judged (b.bytes.take length) source (p.expected seq) reply)
      ⟨afterJudgement seq start elapsed reply, b⟩

/-- Every step follows one of the rules. -/
theorem moves_of_step {p : Probe} {s s' : State} {e : Event} (h : p.machine.step s e = some s') : Moves p s e s' := by
  change p.step s e = some s' at h
  obtain ⟨point, b⟩ := s
  cases point with
  | start seq =>
    cases e with
    | clock now =>
      cases h
      exact .started b seq now
    | _ => cases h
  | send seq start =>
    cases e with
    | sent packet target result =>
      simp only [step] at h
      split at h
      · rename_i hcall
        obtain ⟨hpacket, rfl⟩ := hcall
        cases result with
        | ok value =>
          cases h
          exact .sent b seq start packet hpacket
        | error error =>
          cases h
          exact .sendFailed b seq start packet error hpacket
      · cases h
    | _ => cases h
  | test seq start =>
    cases e with
    | clock now =>
      simp only [step, checkedDurationSince] at h
      by_cases hnow : now ≤ p.deadline start
      · simp only [if_pos hnow] at h
        cases h
        exact .waits b seq start now hnow
      · simp only [if_neg hnow] at h
        cases h
        exact .expired b seq start now (Nat.lt_of_not_le hnow)
    | _ => cases h
  | receive seq start wait =>
    cases e with
    | received wait' written result =>
      simp only [step] at h
      split at h
      · rename_i hwait
        subst hwait
        cases h
        cases result with
        | ok value => exact .received b seq start _ written value.1 value.2
        | error error =>
          simp only [afterReceive]
          split
          · rename_i hkind
            exact .timedOut b seq start _ written error hkind
          split
          · rename_i hkind
            exact .interrupted b seq start _ written error hkind
          · rename_i htimeout hinterrupted
            rw [not_or] at htimeout
            exact .receiveFailed b seq start _ written error htimeout.1 htimeout.2 hinterrupted
      · cases h
    | _ => cases h
  | elapsed seq start length source =>
    cases e with
    | clock now =>
      cases h
      exact .elapsed b seq start length source now
    | _ => cases h
  | late seq start length source elapsed =>
    cases e with
    | clock now =>
      simp only [step] at h
      split at h
      · rename_i hnow
        cases h
        exact .late b seq start length source elapsed now hnow
      split at h
      · rename_i hnow hlength
        cases h
        exact .tooLong b seq start length source elapsed now (Nat.le_of_not_lt hnow) hlength
      · rename_i hnow hlength
        cases h
        exact .inTime b seq start length source elapsed now (Nat.le_of_not_lt hnow) (Nat.le_of_not_lt hlength)
    | _ => cases h
  | judge seq start length source elapsed =>
    cases e with
    | judged bytes source' expected reply =>
      simp only [step] at h
      split at h
      · rename_i hcall
        obtain ⟨rfl, rfl, rfl⟩ := hcall
        cases h
        exact .judged b seq start length _ elapsed reply
      · cases h
    | _ => cases h
  | done result => cases h

/-- Every rule is a step. -/
theorem step_of_moves {p : Probe} {s s' : State} {e : Event} (h : Moves p s e s') : p.machine.step s e = some s' := by
  show p.step s e = some s'
  cases h with
  | started b seq now => rfl
  | sent b seq start packet hpacket => exact if_pos ⟨hpacket, rfl⟩
  | sendFailed b seq start packet error hpacket => exact if_pos ⟨hpacket, rfl⟩
  | waits b seq start now hnow => simp only [step, checkedDurationSince, if_pos hnow]
  | expired b seq start now hnow => simp only [step, checkedDurationSince, if_neg (Nat.not_le.2 hnow)]
  | received b seq start wait written length source => exact if_pos rfl
  | timedOut b seq start wait written error hkind => simp only [step, if_true, afterReceive, if_pos hkind]
  | interrupted b seq start wait written error hkind =>
    have htimeout : ¬(error.kind = .timedOut ∨ error.kind = .wouldBlock) := by
      rw [hkind]
      exact nofun
    simp only [step, if_true, afterReceive, if_neg htimeout, if_pos hkind]
  | receiveFailed b seq start wait written error h₁ h₂ h₃ =>
    simp only [step, if_true, afterReceive, if_neg (not_or.2 ⟨h₁, h₂⟩), if_neg h₃]
  | elapsed b seq start length source now => rfl
  | late b seq start length source elapsed now hnow => exact if_pos hnow
  | tooLong b seq start length source elapsed now hnow hlength =>
    exact (if_neg (Nat.not_lt.2 hnow)).trans (if_pos hlength)
  | inTime b seq start length source elapsed now hnow hlength =>
    exact (if_neg (Nat.not_lt.2 hnow)).trans (if_neg (Nat.not_lt.2 hlength))
  | judged b seq start length source elapsed reply => exact if_pos ⟨rfl, rfl, rfl⟩

/-- Nothing happens after the end of a probe. -/
theorem run_done {p : Probe} {s s' : State} {result : Except String Outcome} {events : List Event}
    (hdone : s.point = .done result) (h : p.machine.run s events = some s') : events = [] := by
  cases events with
  | nil => rfl
  | cons e events =>
    obtain ⟨t, ht, -⟩ := Machine.run_cons_eq_some.1 h
    obtain ⟨point, b⟩ := s
    obtain rfl : point = .done result := hdone
    cases ht

/-! ## What the events tell -/

def Event.isSent : Event → Bool
  | .sent .. => true
  | _ => false

def Event.isReceived : Event → Bool
  | .received .. => true
  | _ => false

/-- The packets sent, in order. -/
def sentPackets (events : List Event) : List Bytes :=
  events.filterMap fun
    | .sent packet _ _ => some packet
    | _ => none

/-- The packets sent are the requests of the first `k` attempts, in order. -/
def SentRequests (p : Probe) (events : List Event) (k : Nat) : Prop :=
  (sentPackets events).map Except.ok = (List.range k).map fun i => p.request (.ofNat (i + 1))

/-- The events since the last packet was sent, newest first. -/
def sinceSent (events : List Event) : List Event := events.reverse.takeWhile fun e => !e.isSent

/-- The start of the attempt that the last packet belongs to: the reading of the clock before it was sent. -/
def attemptStart (events : List Event) : Option Instant :=
  match events.reverse.dropWhile fun e => !e.isSent with
  | _ :: .clock start :: _ => some start
  | _ => none

/-- The last attempt is over: a receive timed out, or its deadline has passed. -/
def Expired (p : Probe) (events : List Event) : Prop :=
  ∃ start, attemptStart events = some start ∧
    ((∃ wait written error, .received wait written (.error error) ∈ sinceSent events ∧
        (error.kind = .timedOut ∨ error.kind = .wouldBlock)) ∨
      ∃ now, .clock now ∈ sinceSent events ∧ p.deadline start < now)

/-- The events end with the receive of a packet that is judged to be the reply to the last request, no later than the deadline
of its attempt, and `latency` is the first reading of the clock after it less the start of the attempt. -/
def Settled (p : Probe) (events : List Event) (latency : Duration) : Prop :=
  ∃ before wait written length source first second bytes seq start,
    events = before ++ [.received wait written (.ok (length, source)), .clock first, .clock second,
      .judged bytes source (p.expected seq) (some .echo)] ∧
    SentRequests p events seq.toNat ∧ attemptStart before = some start ∧ second ≤ p.deadline start ∧ length ≤ 65535 ∧
    (length ≤ written.length → bytes = written.take length) ∧ latency = first - start

/-- What was sent, event by event. -/
theorem sentPackets_append (events more : List Event) :
    sentPackets (events ++ more) = sentPackets events ++ sentPackets more := List.filterMap_append

section Append

variable {p : Probe} {events more : List Event} (hmore : ∀ e ∈ more, e.isSent = false)

include hmore

/-- Events that send nothing add nothing to what was sent. -/
theorem sentPackets_append_silent : sentPackets (events ++ more) = sentPackets events := by
  have hnone : sentPackets more = [] := by
    refine List.filterMap_eq_nil_iff.2 fun e he => ?_
    have := hmore e he
    cases e <;> first | rfl | cases this
  rw [sentPackets_append, hnone, List.append_nil]

/-- Events that send nothing add no request. -/
theorem sentRequests_append {k : Nat} : SentRequests p (events ++ more) k ↔ SentRequests p events k := by
  rw [SentRequests, SentRequests, sentPackets_append_silent hmore]

/-- Events that send nothing are since the last one that did. -/
theorem sinceSent_append : sinceSent (events ++ more) = more.reverse ++ sinceSent events := by
  rw [sinceSent, List.reverse_append, List.takeWhile_append_of_pos]
  · rfl
  · intro e he
    rw [hmore e (List.mem_reverse.1 he)]
    rfl

/-- Events that send nothing leave the start of the attempt where it is. -/
theorem attemptStart_append : attemptStart (events ++ more) = attemptStart events := by
  have hdrop : (events ++ more).reverse.dropWhile (fun e => !e.isSent) = events.reverse.dropWhile fun e => !e.isSent := by
    rw [List.reverse_append, List.dropWhile_append_of_pos]
    intro e he
    rw [hmore e (List.mem_reverse.1 he)]
    rfl
  rw [attemptStart, hdrop, attemptStart]

/-- An attempt that is over stays over until the next packet is sent. -/
theorem Expired.append (h : Expired p events) : Expired p (events ++ more) := by
  obtain ⟨start, hstart, h⟩ := h
  refine ⟨start, (attemptStart_append hmore).trans hstart, ?_⟩
  rw [sinceSent_append hmore]
  rcases h with ⟨wait, written, error, he, hkind⟩ | ⟨now, hclock, hnow⟩
  · exact Or.inl ⟨wait, written, error, List.mem_append_right _ he, hkind⟩
  · exact Or.inr ⟨now, List.mem_append_right _ hclock, hnow⟩

end Append

/-- A reading of the clock past its deadline ends an attempt. -/
theorem expired_clock {p : Probe} {events : List Event} {start now : Instant} (hstart : attemptStart events = some start)
    (hnow : p.deadline start < now) : Expired p (events ++ [.clock now]) := by
  have hmore : ∀ e ∈ [Event.clock now], e.isSent = false := by simp [Event.isSent]
  refine ⟨start, (attemptStart_append hmore).trans hstart, Or.inr ⟨now, ?_, hnow⟩⟩
  rw [sinceSent_append hmore]
  exact List.mem_cons_self ..

/-- A receive that times out ends an attempt. -/
theorem expired_receive {p : Probe} {events : List Event} {start : Instant} {wait : Duration} {written : Bytes} {error : IoError}
    (hstart : attemptStart events = some start) (hkind : error.kind = .timedOut ∨ error.kind = .wouldBlock) :
    Expired p (events ++ [.received wait written (.error error)]) := by
  have hmore : ∀ e ∈ [Event.received wait written (.error error)], e.isSent = false := by simp [Event.isSent]
  refine ⟨start, (attemptStart_append hmore).trans hstart, Or.inl ⟨wait, written, error, ?_, hkind⟩⟩
  rw [sinceSent_append hmore]
  exact List.mem_cons_self ..

/-- There are as many packets as requests. -/
theorem SentRequests.length {p : Probe} {events : List Event} {k : Nat} (h : SentRequests p events k) :
    (sentPackets events).length = k := by
  have := congrArg List.length h
  rwa [List.length_map, List.length_map, List.length_range] at this

/-- Sending the request of the next attempt. -/
theorem SentRequests.sent {p : Probe} {events : List Event} {k : Nat} {packet : Bytes} (h : SentRequests p events k)
    (hpacket : p.request (.ofNat (k + 1)) = .ok packet) (target : IpAddr) (result : Except IoError Unit) :
    SentRequests p (events ++ [.sent packet target result]) (k + 1) := by
  rw [SentRequests, sentPackets_append, List.map_append, h, List.range_succ, List.map_append]
  exact congrArg (_ ++ [·]) hpacket.symm

/-- A packet that is sent starts an attempt at the reading of the clock before it. -/
theorem attemptStart_sent (events : List Event) (start : Instant) (packet : Bytes) (target : IpAddr)
    (result : Except IoError Unit) :
    attemptStart (events ++ [.clock start] ++ [.sent packet target result]) = some start := by
  rw [attemptStart, List.reverse_append, List.reverse_append]
  rfl

/-! ## The invariant -/

/-- Before the request of an attempt is sent: those before it were, and the one before is over. -/
structure Fresh (p : Probe) (events : List Event) (seq : UInt16) : Prop where
  pos : 0 < seq.toNat
  le : seq.toNat ≤ p.options.attempts.toNat
  sent : SentRequests p events (seq.toNat - 1)
  first_or_expired : seq.toNat = 1 ∨ Expired p events

/-- Once the request of an attempt is sent. -/
structure During (p : Probe) (events : List Event) (seq : UInt16) (start : Instant) : Prop where
  pos : 0 < seq.toNat
  le : seq.toNat ≤ p.options.attempts.toNat
  sent : SentRequests p events seq.toNat
  started : attemptStart events = some start

/-- The last event before `more` is the receive of so many bytes during an attempt, and the buffer is what it left. -/
def AfterReceive (p : Probe) (events : List Event) (seq : UInt16) (start : Instant) (length : Nat) (source : IpAddr)
    (buffer : Buffer) (more : List Event) : Prop :=
  ∃ before wait written old, events = before ++ [.received wait written (.ok (length, source))] ++ more ∧
    During p before seq start ∧ buffer = Buffer.write old written

/-- What the events so far tell at each point of a probe. -/
def History (p : Probe) (events : List Event) (s : State) : Prop :=
  match s.point with
  | .start seq => Fresh p events seq
  | .send seq start => ∃ before, events = before ++ [.clock start] ∧ Fresh p events seq
  | .test seq start => During p events seq start
  | .receive seq start _ => During p events seq start
  | .elapsed seq start length source => AfterReceive p events seq start length source s.buffer []
  | .late seq start length source elapsed =>
    ∃ first, AfterReceive p events seq start length source s.buffer [.clock first] ∧ elapsed = first - start
  | .judge seq start length source elapsed =>
    ∃ first second, AfterReceive p events seq start length source s.buffer [.clock first, .clock second] ∧
      elapsed = first - start ∧ second ≤ p.deadline start ∧ length ≤ 65535
  | .done result => (∃ k ≤ p.options.attempts.toNat, SentRequests p events k) ∧
    ∀ latency message, result = .ok { latency := some latency, message := message } → Settled p events latency

/-- An attempt goes on through events that send nothing. -/
theorem During.append {p : Probe} {events more : List Event} {seq : UInt16} {start : Instant}
    (hmore : ∀ e ∈ more, e.isSent = false) (h : During p events seq start) : During p (events ++ more) seq start where
  pos := h.pos
  le := h.le
  sent := (sentRequests_append hmore).2 h.sent
  started := (attemptStart_append hmore).trans h.started

/-- The attempt goes on through a receive and what follows it. -/
theorem AfterReceive.during {p : Probe} {events : List Event} {seq : UInt16} {start : Instant} {length : Nat}
    {source : IpAddr} {buffer : Buffer} {more : List Event} (hmore : ∀ e ∈ more, e.isSent = false)
    (h : AfterReceive p events seq start length source buffer more) : During p events seq start := by
  obtain ⟨before, wait, written, old, rfl, hduring, -⟩ := h
  refine (hduring.append fun e he => ?_).append hmore
  rw [List.mem_singleton.1 he]
  rfl

/-- The end of an attempt is the start of another, or the end of the last one. -/
theorem During.nextAttempt_cases {p : Probe} {events : List Event} {seq : UInt16} {start : Instant}
    (h : During p events seq start) :
    (seq.toNat < p.options.attempts.toNat ∧ (seq + 1).toNat = seq.toNat + 1 ∧ p.nextAttempt seq = .start (seq + 1)) ∨
      (SentRequests p events p.options.attempts.toNat ∧ p.nextAttempt seq = .done (.ok (.negative p.timeoutMessage))) := by
  unfold nextAttempt
  by_cases hseq : seq < p.options.attempts
  · rw [if_pos hseq]
    have hlt : seq.toNat < p.options.attempts.toNat := UInt16.lt_iff_toNat_lt.1 hseq
    have hmax := p.options.attempts.toNat_lt
    have hsucc : (seq + 1).toNat = (seq.toNat + 1) % 2 ^ 16 := UInt16.toNat_add ..
    rw [Nat.mod_eq_of_lt (by omega)] at hsucc
    exact Or.inl ⟨hlt, hsucc, rfl⟩
  · rw [if_neg hseq]
    have hle : p.options.attempts.toNat ≤ seq.toNat := UInt16.le_iff_toNat_le.1 (UInt16.not_lt.1 hseq)
    rw [Nat.le_antisymm hle h.le]
    exact Or.inr ⟨h.sent, rfl⟩

/-- The attempt after one that is over, or the end. -/
theorem History.next {p : Probe} {events : List Event} {seq : UInt16} {start : Instant} (b : Buffer)
    (h : During p events seq start) (hexpired : Expired p events) : History p events ⟨p.nextAttempt seq, b⟩ := by
  rcases h.nextAttempt_cases with ⟨hlt, hsucc, hnext⟩ | ⟨hsent, hnext⟩
  · rw [hnext]
    refine ⟨by omega, by omega, ?_, Or.inr hexpired⟩
    rw [hsucc, Nat.add_sub_cancel]
    exact h.sent
  · rw [hnext]
    refine ⟨⟨_, Nat.le_refl _, hsent⟩, fun latency message hresult => ?_⟩
    cases hresult

/-- A probe that ends without a latency leaves nothing to be shown of its last packet. -/
theorem History.failed {p : Probe} {events : List Event} {k : Nat} (b : Buffer) (stage : String) (error : IoError)
    (hk : k ≤ p.options.attempts.toNat) (h : SentRequests p events k) :
    History p events ⟨.done (IcmpPing.failed stage error), b⟩ := by
  refine ⟨⟨k, hk, h⟩, fun latency message hresult => ?_⟩
  unfold IcmpPing.failed at hresult
  split at hresult <;> cases hresult

/-- At every point the packets sent are the requests of so many attempts. -/
theorem History.sentRequests {p : Probe} {events : List Event} {s : State} (h : History p events s) :
    ∃ k ≤ p.options.attempts.toNat, SentRequests p events k := by
  obtain ⟨point, b⟩ := s
  cases point with
  | start seq => exact ⟨seq.toNat - 1, (Nat.sub_le _ _).trans h.le, h.sent⟩
  | send seq start =>
    obtain ⟨_, _, hfresh⟩ := h
    exact ⟨seq.toNat - 1, (Nat.sub_le _ _).trans hfresh.le, hfresh.sent⟩
  | test seq start => exact ⟨seq.toNat, h.le, h.sent⟩
  | receive seq start wait => exact ⟨seq.toNat, h.le, h.sent⟩
  | elapsed seq start length source =>
    have hduring := AfterReceive.during (List.forall_mem_nil _) h
    exact ⟨seq.toNat, hduring.le, hduring.sent⟩
  | late seq start length source elapsed =>
    obtain ⟨first, hafter, -⟩ := h
    have hduring := hafter.during (by simp [Event.isSent])
    exact ⟨seq.toNat, hduring.le, hduring.sent⟩
  | judge seq start length source elapsed =>
    obtain ⟨first, second, hafter, -⟩ := h
    have hduring := hafter.during (by simp [Event.isSent])
    exact ⟨seq.toNat, hduring.le, hduring.sent⟩
  | done result => exact h.1

theorem not_isSent_of_mem (e : Event) (h : e.isSent = false) : ∀ e' ∈ [e], e'.isSent = false := by
  intro e' he
  rw [List.mem_singleton.1 he]
  exact h

/-- Each step keeps what the events tell. -/
theorem History.step {p : Probe} {events : List Event} {s s' : State} {e : Event} (h : History p events s)
    (hmoves : Moves p s e s') : History p (events ++ [e]) s' := by
  cases hmoves with
  | started b seq now =>
    have hmore : ∀ e' ∈ [Event.clock now], e'.isSent = false := not_isSent_of_mem _ rfl
    refine ⟨events, rfl, h.pos, h.le, (sentRequests_append hmore).2 h.sent, ?_⟩
    exact h.first_or_expired.imp_right fun hexpired => hexpired.append hmore
  | sent b seq start packet hpacket =>
    obtain ⟨before, rfl, hfresh⟩ := h
    have hseq : seq.toNat - 1 + 1 = seq.toNat := Nat.sub_add_cancel hfresh.pos
    refine ⟨hfresh.pos, hfresh.le, ?_, attemptStart_sent ..⟩
    rw [← hseq]
    exact hfresh.sent.sent (by rw [hseq, UInt16.ofNat_toNat]; exact hpacket) _ _
  | sendFailed b seq start packet error hpacket =>
    obtain ⟨before, rfl, hfresh⟩ := h
    have hseq : seq.toNat - 1 + 1 = seq.toNat := Nat.sub_add_cancel hfresh.pos
    refine History.failed b "send" error hfresh.le ?_
    rw [← hseq]
    exact hfresh.sent.sent (by rw [hseq, UInt16.ofNat_toNat]; exact hpacket) _ _
  | waits b seq start now hnow => exact During.append (not_isSent_of_mem _ rfl) h
  | expired b seq start now hnow =>
    have hmore : ∀ e' ∈ [Event.clock now], e'.isSent = false := not_isSent_of_mem _ rfl
    exact History.next b (During.append hmore h) (expired_clock h.started hnow)
  | received b seq start wait written length source =>
    exact ⟨events, wait, written, b, (List.append_nil _).symm, h, rfl⟩
  | timedOut b seq start wait written error hkind =>
    have hmore : ∀ e' ∈ [Event.received wait written (.error error)], e'.isSent = false := not_isSent_of_mem _ rfl
    exact History.next _ (During.append hmore h) (expired_receive h.started hkind)
  | interrupted b seq start wait written error hkind => exact During.append (not_isSent_of_mem _ rfl) h
  | receiveFailed b seq start wait written error h₁ h₂ h₃ =>
    exact History.failed _ "receive" error h.le ((sentRequests_append (not_isSent_of_mem _ rfl)).2 h.sent)
  | elapsed b seq start length source now =>
    obtain ⟨before, wait, written, old, rfl, hduring, hbuffer⟩ := h
    exact ⟨now, ⟨before, wait, written, old, by rw [List.append_nil], hduring, hbuffer⟩, rfl⟩
  | late b seq start length source elapsed now hnow =>
    obtain ⟨first, hafter, -⟩ := h
    have hmore : ∀ e' ∈ [Event.clock now], e'.isSent = false := not_isSent_of_mem _ rfl
    have hduring := hafter.during (not_isSent_of_mem _ rfl)
    exact History.next b (hduring.append hmore) (expired_clock hduring.started hnow)
  | tooLong b seq start length source elapsed now hnow hlength =>
    obtain ⟨first, hafter, -⟩ := h
    have hduring := hafter.during (not_isSent_of_mem _ rfl)
    refine ⟨⟨seq.toNat, hduring.le, (sentRequests_append (not_isSent_of_mem _ rfl)).2 hduring.sent⟩, fun _ _ hresult => ?_⟩
    cases hresult
  | inTime b seq start length source elapsed now hnow hlength =>
    obtain ⟨first, ⟨before, wait, written, old, rfl, hduring, hbuffer⟩, helapsed⟩ := h
    exact ⟨first, now, ⟨before, wait, written, old, by rw [List.append_assoc]; rfl, hduring, hbuffer⟩, helapsed, hnow, hlength⟩
  | judged b seq start length source elapsed reply =>
    obtain ⟨first, second, ⟨before, wait, written, old, rfl, hduring, rfl⟩, helapsed, hsecond, hlength⟩ := h
    have hall : During p (before ++ [.received wait written (.ok (length, source))] ++ [.clock first, .clock second] ++
        [.judged ((old.write written).bytes.take length) source (p.expected seq) reply]) seq start := by
      refine ((hduring.append ?_).append ?_).append ?_ <;> simp [Event.isSent]
    cases reply with
    | none => exact hall
    | some reply =>
      cases reply with
      | negative text =>
        refine ⟨⟨seq.toNat, hall.le, hall.sent⟩, fun latency message hresult => ?_⟩
        cases hresult
      | echo =>
        refine ⟨⟨seq.toNat, hall.le, hall.sent⟩, fun latency message hresult => ?_⟩
        cases hresult
        refine ⟨before, wait, written, length, source, first, second, (old.write written).bytes.take length, seq, start, ?_,
          hall.sent, hduring.started, hsecond, hlength, fun hwritten => ?_, helapsed⟩
        · simp only [List.append_assoc, List.cons_append, List.nil_append]
        · exact old.take_write hlength hwritten

/-- Options that pass their check. -/
theorem validate_bounds {options : Options} (h : options.validate = .ok ()) :
    0 < options.timeout ∧ options.timeout ≤ fromSecs 10 ∧ 0 < options.attempts.toNat ∧ options.attempts.toNat ≤ 10 ∧
      16 ≤ options.payloadSize ∧ options.payloadSize ≤ 1200 := by
  unfold Options.validate at h
  split at h
  · cases h
  · rename_i hbad
    simp only [not_or, not_not] at hbad
    obtain ⟨htimeout, hmax, hattempts, hattempts', -, -, hsize⟩ := hbad
    have hzero : options.attempts.toNat ≠ 0 := fun h0 => hattempts (UInt16.toNat_inj.1 h0)
    have hten : options.attempts.toNat ≤ 10 := UInt16.le_iff_toNat_le.1 (UInt16.not_lt.1 hattempts')
    exact ⟨Nat.pos_of_ne_zero htimeout, Nat.le_of_not_lt hmax, Nat.pos_of_ne_zero hzero, hten, hsize.1, hsize.2⟩

/-- A call whose arguments pass the checks starts with the first attempt. -/
theorem init_of_valid {p : Probe} (hoptions : p.options.validate = .ok ()) (hpayload : p.payload.length = p.options.payloadSize) :
    p.init = ⟨.start 1, .zero⟩ := by
  simp only [init, hoptions, hpayload, ne_eq, not_true_eq_false, if_false]

/-- What the events of every run tell. -/
theorem Runs.history {p : Probe} (hoptions : p.options.validate = .ok ()) (hpayload : p.payload.length = p.options.payloadSize)
    {events : List Event} {s : State} (h : p.Runs events s) : History p events s := by
  refine Machine.run_history ?_ (fun es t e t' _ ht he => ht.step (moves_of_step he)) h
  rw [init_of_valid hoptions hpayload]
  obtain ⟨-, -, hattempts, -⟩ := validate_bounds hoptions
  exact ⟨Nat.one_pos, hattempts, rfl, Or.inl rfl⟩

/-! ## The end of a probe -/

/-- How a probe ends with an event, after those before it: a request was not sent, a receive failed, the last attempt is over, a receive
reported more than the buffer holds, or what it read was judged in time. -/
inductive Ending (p : Probe) (events : List Event) : Event → Except String Outcome → Prop where
  | unsent (packet : Bytes) (error : IoError) : Ending p events (.sent packet p.target (.error error)) (failed "send" error)
  | unreceived (wait : Duration) (written : Bytes) (error : IoError)
    (hkind : error.kind ∉ [ErrorKind.timedOut, .wouldBlock, .interrupted]) :
    Ending p events (.received wait written (.error error)) (failed "receive" error)
  | timedOut (e : Event) (hsent : SentRequests p (events ++ [e]) p.options.attempts.toNat) (hexpired : Expired p (events ++ [e])) :
    Ending p events e (.ok (.negative p.timeoutMessage))
  | overrun {seq : UInt16} {start first now : Instant} {length : Nat} {source : IpAddr} {b : Buffer}
    (hafter : AfterReceive p events seq start length source b [.clock first]) (hlength : 65535 < length) :
    Ending p events (.clock now) (.error "ICMP receive returned invalid length")
  | judged {before : List Event} {wait : Duration} {written : Bytes} {length : Nat} {source : IpAddr} {old : Buffer} {seq : UInt16}
    {start first second : Instant} {reply : Reply} {result : Except String Outcome}
    (hevents : events = before ++ [.received wait written (.ok (length, source))] ++ [.clock first, .clock second])
    (hduring : During p (events ++ [.judged ((old.write written).bytes.take length) source (p.expected seq) (some reply)]) seq start)
    (hsecond : second ≤ p.deadline start) (hlength : length ≤ 65535)
    (hresult : afterJudgement seq start (first - start) (some reply) = .done result) :
    Ending p events (.judged ((old.write written).bytes.take length) source (p.expected seq) (some reply)) result

/-- An attempt that is over and is followed by the end was the last one. -/
theorem Ending.of_nextAttempt {p : Probe} {events : List Event} {e : Event} {seq : UInt16} {start : Instant}
    {result : Except String Outcome} (hduring : During p (events ++ [e]) seq start) (hexpired : Expired p (events ++ [e]))
    (hdone : p.nextAttempt seq = .done result) : Ending p events e result := by
  rcases hduring.nextAttempt_cases with ⟨-, -, hnext⟩ | ⟨hsent, hnext⟩
  · rw [hnext] at hdone
    cases hdone
  · rw [hnext] at hdone
    cases hdone
    exact .timedOut e hsent hexpired

/-- A step that ends a probe ends it in one of these ways. -/
theorem History.ending {p : Probe} {events : List Event} {s s' : State} {e : Event} {result : Except String Outcome}
    (h : History p events s) (hmoves : Moves p s e s') (hdone : s'.point = .done result) : Ending p events e result := by
  cases hmoves with
  | sendFailed b seq start packet error hpacket =>
    cases hdone
    exact .unsent packet error
  | expired b seq start now hnow =>
    exact .of_nextAttempt (During.append (not_isSent_of_mem _ rfl) h) (expired_clock h.started hnow) hdone
  | timedOut b seq start wait written error hkind =>
    exact .of_nextAttempt (During.append (not_isSent_of_mem _ rfl) h) (expired_receive h.started hkind) hdone
  | receiveFailed b seq start wait written error h₁ h₂ h₃ =>
    cases hdone
    exact .unreceived wait written error (by simp [h₁, h₂, h₃])
  | late b seq start length source elapsed now hnow =>
    obtain ⟨first, hafter, -⟩ := h
    have hduring := hafter.during (not_isSent_of_mem _ rfl)
    exact .of_nextAttempt (hduring.append (not_isSent_of_mem _ rfl)) (expired_clock hduring.started hnow) hdone
  | tooLong b seq start length source elapsed now hnow hlength =>
    obtain ⟨first, hafter, -⟩ := h
    cases hdone
    exact .overrun hafter hlength
  | judged b seq start length source elapsed reply =>
    obtain ⟨first, second, ⟨before, wait, written, old, rfl, hduring, rfl⟩, rfl, hsecond, hlength⟩ := h
    cases reply with
    | none => cases hdone
    | some reply =>
      refine .judged rfl ?_ hsecond hlength hdone
      refine ((hduring.append ?_).append ?_).append ?_ <;> simp [Event.isSent]
  | _ => cases hdone

end Probe

end IcmpPing
