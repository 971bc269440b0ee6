import IcmpPing.Lemmas.Probe

/-!
# Two probes side by side

Two probes of the same target that send the same requests, over different transports. As long as the clock and the transports
give them the same, and whatever packets they receive are judged the same, they stay at the same place and end alike. The second
one parses its packets.
-/

namespace IcmpPing

namespace Probe

/-- The two probes ask for the same. -/
structure Alike (p q : Probe) : Prop where
  target : q.target = p.target
  localAddr : q.localAddr = p.localAddr
  id : q.id = p.id
  payload : q.payload = p.payload
  options : q.options = p.options

section Alike

variable {p q : Probe} (h : Alike p q)

include h

/-- Probes that ask for the same send the same requests. -/
theorem Alike.request (seq : UInt16) : q.request seq = p.request seq := by
  rw [Probe.request, h.target, h.localAddr, h.id, h.payload, Probe.request]

/-- Probes that ask for the same expect the same replies. -/
theorem Alike.expected (seq : UInt16) : q.expected seq = p.expected seq := by
  rw [Probe.expected, h.target, h.localAddr, h.id, h.payload, Probe.expected]

/-- Probes that ask for the same have the same deadlines. -/
theorem Alike.deadline (start : Instant) : q.deadline start = p.deadline start := by
  rw [Probe.deadline, h.options, Probe.deadline]

/-- Probes that ask for the same go on to the same attempt. -/
theorem Alike.nextAttempt (seq : UInt16) : q.nextAttempt seq = p.nextAttempt seq := by
  have hmessage : q.timeoutMessage = p.timeoutMessage := by
    unfold timeoutMessage
    rw [h.options]
  unfold Probe.nextAttempt
  rw [h.options, hmessage]

/-- Probes that ask for the same start at the same place. -/
theorem Alike.init : q.init = p.init := by
  simp only [Probe.init, h.options, h.payload]

end Alike

/-- What a transport makes of a packet. -/
abbrev Judge := Bytes → IpAddr → Expected → Checked (Option Reply)

/-- Whatever the first transport makes of its packet, the second one's packet is parsed to the same. -/
def JudgedAlike (p : Probe) (judge : Judge) (bytes : Bytes) (source : IpAddr) (bytes' : Bytes) (source' : IpAddr) : Prop :=
  ∀ seq reply, judge bytes source (p.expected seq) = .ok reply → parse bytes' source' (p.expected seq) = .ok reply

/-- The packets at the start of the two buffers are judged alike, or are too long for both. -/
structure Fits (p : Probe) (judge : Judge) (b : Buffer) (length : Nat) (source : IpAddr) (b' : Buffer) (length' : Nat)
    (source' : IpAddr) : Prop where
  bound : length ≤ 65535 ↔ length' ≤ 65535
  judged : length ≤ 65535 → JudgedAlike p judge (b.bytes.take length) source (b'.bytes.take length') source'

/-- The point is not one between a receive and the judgement of the packet. -/
def Point.Clear : Point → Prop
  | .elapsed .. | .late .. | .judge .. => False
  | _ => True

/-- The two probes are at the same place. -/
inductive Beside (p : Probe) (judge : Judge) : State → State → Prop where
  | clear (point : Point) (b b' : Buffer) (hclear : point.Clear) : Beside p judge ⟨point, b⟩ ⟨point, b'⟩
  | elapsed (seq : UInt16) (start : Instant) {b b' : Buffer} {length length' : Nat} {source source' : IpAddr}
    (hfits : Fits p judge b length source b' length' source') :
    Beside p judge ⟨.elapsed seq start length source, b⟩ ⟨.elapsed seq start length' source', b'⟩
  | late (seq : UInt16) (start : Instant) (elapsed : Duration) {b b' : Buffer} {length length' : Nat} {source source' : IpAddr}
    (hfits : Fits p judge b length source b' length' source') :
    Beside p judge ⟨.late seq start length source elapsed, b⟩ ⟨.late seq start length' source' elapsed, b'⟩
  | judge (seq : UInt16) (start : Instant) (elapsed : Duration) {b b' : Buffer} {length length' : Nat} {source source' : IpAddr}
    (hfits : Fits p judge b length source b' length' source') (hlength : length ≤ 65535) :
    Beside p judge ⟨.judge seq start length source elapsed, b⟩ ⟨.judge seq start length' source' elapsed, b'⟩

/-- Where an attempt begins nothing is to be judged. -/
theorem clear_nextAttempt (p : Probe) (seq : UInt16) : (p.nextAttempt seq).Clear := by
  unfold nextAttempt
  split <;> exact trivial

/-- After a judgement nothing is to be judged. -/
theorem clear_afterJudgement (seq : UInt16) (start : Instant) (elapsed : Duration) (reply : Option Reply) :
    (afterJudgement seq start elapsed reply).Clear := by
  rcases reply with _ | _ | message <;> exact trivial

/-- At the start nothing is to be judged. -/
theorem clear_init (p : Probe) : p.init.point.Clear := by
  simp only [init]
  split
  · exact trivial
  · split <;> exact trivial

/-- Probes that ask for the same start side by side. -/
theorem Alike.beside_init {p q : Probe} (h : Alike p q) (judge : Judge) : Beside p judge p.init q.init := by
  rw [h.init]
  exact .clear p.init.point _ _ (clear_init p)

/-- Where no packet waits to be judged, it does not matter how packets are judged. -/
theorem Beside.rejudge {p : Probe} {judge : Judge} {s t : State} (h : Beside p judge s t) (hclear : s.point.Clear)
    (judge' : Judge) : Beside p judge' s t := by
  cases h with
  | clear point b b' hpoint => exact .clear point b b' hpoint
  | elapsed seq start hfits => exact hclear.elim
  | late seq start elapsed hfits => exact hclear.elim
  | judge seq start elapsed hfits hlength => exact hclear.elim

/-- Of two probes side by side, one is done when the other is, and with the same result. -/
theorem Beside.done_iff {p : Probe} {judge : Judge} {s t : State} (h : Beside p judge s t) (result : Except String Outcome) :
    s.point = .done result ↔ t.point = .done result := by
  cases h with
  | clear point b b' hpoint => rfl
  | elapsed seq start hfits => simp
  | late seq start elapsed hfits => simp
  | judge seq start elapsed hfits hlength => simp

/-- The event can be the same for both: it is neither a packet that was received nor the judgement of one. -/
def Event.Common : Event → Prop
  | .received _ _ (.ok _) | .judged .. => False
  | _ => True

/-- The events are the same, but for the packets that were received. -/
inductive Event.Alike : Event → Event → Prop where
  | common (e : Event) (hcommon : e.Common) : Alike e e
  | received (wait : Duration) (written written' : Bytes) (packet packet' : Nat × IpAddr) :
    Alike (.received wait written (.ok packet)) (.received wait written' (.ok packet'))
  | judged (bytes bytes' : Bytes) (source source' : IpAddr) (expected : Expected) (reply : Option Reply) :
    Alike (.judged bytes source expected reply) (.judged bytes' source' expected reply)

/-- The second probe follows the first on a common event. -/
theorem Beside.common {p q : Probe} (hpq : Alike p q) {judge : Judge} {s s' t : State} {e : Event} (h : Beside p judge s t)
    (hmoves : Moves p s e s') (hcommon : e.Common) : ∃ t', Moves q t e t' ∧ Beside p judge s' t' := by
  cases hmoves with
  | started b seq now =>
    cases h with
    | clear _ _ b' => exact ⟨_, .started b' seq now, .clear _ _ _ trivial⟩
  | sent b seq start packet hpacket =>
    cases h with
    | clear _ _ b' =>
      rw [← hpq.target]
      exact ⟨_, .sent b' seq start packet ((hpq.request seq).trans hpacket), .clear _ _ _ trivial⟩
  | sendFailed b seq start packet error hpacket =>
    cases h with
    | clear _ _ b' =>
      rw [← hpq.target]
      exact ⟨_, .sendFailed b' seq start packet error ((hpq.request seq).trans hpacket), .clear _ _ _ trivial⟩
  | waits b seq start now hnow =>
    cases h with
    | clear _ _ b' =>
      rw [← hpq.deadline] at hnow ⊢
      exact ⟨_, .waits b' seq start now hnow, .clear _ _ _ trivial⟩
  | expired b seq start now hnow =>
    cases h with
    | clear _ _ b' =>
      rw [← hpq.deadline] at hnow
      rw [← hpq.nextAttempt]
      exact ⟨_, .expired b' seq start now hnow, .clear _ _ _ (clear_nextAttempt q seq)⟩
  | received b seq start wait written length source => exact hcommon.elim
  | timedOut b seq start wait written error hkind =>
    cases h with
    | clear _ _ b' =>
      rw [← hpq.nextAttempt]
      exact ⟨_, .timedOut b' seq start wait written error hkind, .clear _ _ _ (clear_nextAttempt q seq)⟩
  | interrupted b seq start wait written error hkind =>
    cases h with
    | clear _ _ b' => exact ⟨_, .interrupted b' seq start wait written error hkind, .clear _ _ _ trivial⟩
  | receiveFailed b seq start wait written error h₁ h₂ h₃ =>
    cases h with
    | clear _ _ b' => exact ⟨_, .receiveFailed b' seq start wait written error h₁ h₂ h₃, .clear _ _ _ trivial⟩
  | elapsed b seq start length source now =>
    cases h with
    | clear _ _ b' hclear => exact hclear.elim
    | elapsed _ _ hfits => exact ⟨_, .elapsed _ seq start _ _ now, .late seq start _ hfits⟩
  | late b seq start length source elapsed now hnow =>
    cases h with
    | clear _ _ b' hclear => exact hclear.elim
    | late _ _ _ hfits =>
      rw [← hpq.deadline] at hnow
      rw [← hpq.nextAttempt]
      exact ⟨_, .late _ seq start _ _ elapsed now hnow, .clear _ _ _ (clear_nextAttempt q seq)⟩
  | tooLong b seq start length source elapsed now hnow hlength =>
    cases h with
    | clear _ _ b' hclear => exact hclear.elim
    | late _ _ _ hfits =>
      rw [← hpq.deadline] at hnow
      have hlength' := Nat.lt_of_not_le (mt hfits.bound.2 (Nat.not_le.2 hlength))
      exact ⟨_, .tooLong _ seq start _ _ elapsed now hnow hlength', .clear _ _ _ trivial⟩
  | inTime b seq start length source elapsed now hnow hlength =>
    cases h with
    | clear _ _ b' hclear => exact hclear.elim
    | late _ _ _ hfits =>
      rw [← hpq.deadline] at hnow
      exact ⟨_, .inTime _ seq start _ _ elapsed now hnow (hfits.bound.1 hlength), .judge seq start _ hfits hlength⟩
  | judged b seq start length source elapsed reply => exact hcommon.elim

/-- The second probe follows the first where both receive a packet, and the two packets are judged alike. -/
theorem Beside.received {p q : Probe} {judge : Judge} {s s' t : State} {wait : Duration} {written : Bytes} {length : Nat}
    {source : IpAddr} (h : Beside p judge s t) (hmoves : Moves p s (.received wait written (.ok (length, source))) s')
    (judge' : Judge) (written' : Bytes) (length' : Nat) (source' : IpAddr) (hbound : length ≤ 65535 ↔ length' ≤ 65535)
    (hlength : length ≤ written.length) (hlength' : length' ≤ written'.length)
    (hjudged : length ≤ 65535 → JudgedAlike p judge' (written.take length) source (written'.take length') source') :
    ∃ t', Moves q t (.received wait written' (.ok (length', source'))) t' ∧ Beside p judge' s' t' := by
  cases hmoves with
  | received b seq start _ _ _ _ =>
    cases h with
    | clear _ _ b' =>
      refine ⟨_, .received b' seq start wait written' length' source', .elapsed seq start ⟨hbound, fun hle => ?_⟩⟩
      rw [b.take_write hle hlength, b'.take_write (hbound.1 hle) hlength']
      exact hjudged hle

/-- The second probe follows the first through a judgement. -/
theorem Beside.judged {p q : Probe} (hpq : Alike p q) {judge : Judge} {s s' t : State} {bytes : Bytes} {source : IpAddr}
    {expected : Expected} {reply : Option Reply} (h : Beside p judge s t)
    (hmoves : Moves p s (.judged bytes source expected reply) s') (hjudge : judge bytes source expected = .ok reply) :
    ∃ bytes' source' t', Moves q t (.judged bytes' source' expected reply) t' ∧ parse bytes' source' expected = .ok reply ∧
      Beside p judge s' t' := by
  cases hmoves with
  | judged b seq start length _ elapsed _ =>
    cases h with
    | clear _ _ b' hclear => exact hclear.elim
    | judge _ _ _ hfits hlength =>
      rename_i b' length' source'
      have hparse := hfits.judged hlength seq reply hjudge
      have hmoves := Moves.judged (p := q) b' seq start length' source' elapsed reply
      rw [hpq.expected] at hmoves
      exact ⟨_, _, _, hmoves, hparse, .clear _ _ _ (clear_afterJudgement ..)⟩

end Probe

end IcmpPing
