import IcmpPing.Lemmas.Probe
import IcmpPing.Lemmas.Queue
import IcmpPing.Lemmas.Send
import IcmpPing.Theorems.Probe

/-!
# Negatives over the ping socket

A probe over the Linux ping socket comes to an ICMP negative only from a record of the socket's error queue that holds the start
of its request; an errno that no record explains is an error of the probe.
-/

namespace IcmpPing

open Probe Ping

/-! ## Where a negative comes from -/

/-- The calls a run over a ping socket makes are as assumed. -/
def CallsAssumed (log : PingLog) : Prop := ∀ entry ∈ log, ∀ x ∈ entry.2, Assumed x

/-- The last receive of the log may be judged as a record of the error queue: the socket holds no error, or that of a record
among the calls of that receive, whose data and destination it reports. -/
def Linked (log : PingLog) (b : Buffer) (length : Nat) (source : IpAddr) (ping : Ping) : Prop :=
  ping.error = none ∨ ∃ wait record error calls,
    (.received wait record.data (.ok (record.data.length, source)), calls) ∈ log ∧ ⟨.recvmsg, .ok record⟩ ∈ calls ∧
    usable ping.target record = some (error, source) ∧ ping.error = some error ∧ length = record.data.length ∧
    (length ≤ 65535 → b.bytes.take length = record.data)

/-- What a log tells of the last receive stays told as it goes on. -/
theorem Linked.append {log : PingLog} {b : Buffer} {length : Nat} {source : IpAddr} {ping : Ping}
    (h : Linked log b length source ping) (more : PingLog) : Linked (log ++ more) b length source ping := by
  rcases h with h | ⟨wait, record, error, calls, hmem, h⟩
  · exact Or.inl h
  · exact Or.inr ⟨wait, record, error, calls, List.mem_append_left _ hmem, h⟩

/-- The negative comes from `parse_error` applied to the data, the destination and the metadata of one record of the error queue,
which was read by a receive: the destination is the target, and the data are the first bytes, at least eight, of the request of
the current attempt. -/
def NegativeFromRecord (p : Probe) (log : PingLog) (ping : Ping) (message : String) : Prop :=
  ∃ wait record error destination calls seq request,
    (.received wait record.data (.ok (record.data.length, destination)), calls) ∈ log ∧ ⟨.recvmsg, .ok record⟩ ∈ calls ∧
    usable ping.target record = some (error, destination) ∧
    parseError record.data destination error (p.expected seq) = .ok (some (.negative message)) ∧
    SentRequests p (log.map Prod.fst) seq.toNat ∧ destination = p.target ∧ p.request seq = .ok request ∧
    8 ≤ record.data.length ∧ record.data <+: request

/-- What a log tells of the socket and of the result. -/
def PingHistory (p : Probe) (log : PingLog) (s : State) (ping : Ping) : Prop :=
  match s.point with
  | .elapsed _ _ length source => Linked log s.buffer length source ping
  | .late _ _ length source _ => Linked log s.buffer length source ping
  | .judge _ _ length source _ => Linked log s.buffer length source ping
  | .done (.ok outcome) => outcome.latency = none →
    (outcome.message = p.timeoutMessage ∧ SentRequests p (log.map Prod.fst) p.options.attempts.toNat) ∨
      NegativeFromRecord p log ping outcome.message
  | _ => True

/-- The end of an attempt. -/
theorem pingHistory_nextAttempt {p : Probe} {log : PingLog} {seq : UInt16} {start : Instant} (b : Buffer) (ping : Ping)
    (h : During p (log.map Prod.fst) seq start) : PingHistory p log ⟨p.nextAttempt seq, b⟩ ping := by
  unfold PingHistory
  rcases h.nextAttempt_cases with ⟨-, -, hnext⟩ | ⟨hsent, hnext⟩
  · rw [hnext]
    exact trivial
  · rw [hnext]
    exact fun _ => Or.inl ⟨rfl, hsent⟩

/-- An error of the transport that is not taken for a negative is an error of the probe. -/
theorem failed_of_harmless (stage : String) {error : IoError} (h : ¬Unreachable error) :
    IcmpPing.failed stage error = .error (operationError stage error) := by
  rw [IcmpPing.failed, networkError_eq_none h]

/-- A probe that fails with another error keeps its history. -/
theorem pingHistory_failed {p : Probe} {log : PingLog} (b : Buffer) (ping : Ping) (stage : String) {error : IoError}
    (h : ¬Unreachable error) : PingHistory p log ⟨.done (IcmpPing.failed stage error), b⟩ ping := by
  rw [failed_of_harmless stage h]
  exact trivial

/-- A receive over the ping socket leaves what it reports. -/
theorem linked_received {log : PingLog} {b : Buffer} {wait : Duration} {written : Bytes} {length : Nat} {source : IpAddr}
    {calls : List (Exchange Syscall.Answer)} {ping ping' : Ping}
    (h : ping.Serves calls ping' (.received wait written (.ok (length, source)))) :
    Linked (log ++ [(.received wait written (.ok (length, source)), calls)]) (b.write written) length source ping' := by
  obtain ⟨outcome, hruns, hresult, hwritten⟩ := h
  cases outcome with
  | error error => cases hresult
  | ok received =>
    obtain ⟨rfl, rfl⟩ := Prod.mk.inj (Except.ok.inj hresult)
    obtain rfl : written = received.written := hwritten
    rcases hruns.stems with herror | ⟨record, error, hmem, husable, herror, hdata, hlength⟩
    · exact Or.inl herror
    · refine Or.inr ⟨wait, record, error, calls, ?_, hmem, husable, herror, hlength, fun hle => ?_⟩
      · rw [hdata, hlength]
        exact List.mem_append_right _ (List.mem_singleton_self _)
      · rw [b.take_write hle (by rw [hdata, hlength]), hdata, hlength, List.take_length]

/-- A packet the ping socket judges a negative is a record of its error queue. -/
theorem negative_of_linked {p : Probe} {log : PingLog} {b : Buffer} {seq : UInt16} {length : Nat} {source : IpAddr}
    {ping : Ping} {message : String} (hlinked : Linked log b length source ping) (hlength : length ≤ 65535)
    (hsent : SentRequests p (log.map Prod.fst) seq.toNat)
    (h : ping.parseReply (b.bytes.take length) source (p.expected seq) = .ok (some (.negative message))) :
    NegativeFromRecord p log ping message := by
  unfold parseReply at h
  rcases hlinked with herror | ⟨wait, record, error, calls, hmem, hrecord, husable, herror, hlen, hbytes⟩
  · rw [herror] at h
    obtain ⟨hkind, h⟩ := (parsePingEcho_some_iff ..).1 h
    exact absurd h (parseMessage_replyKind_ne_negative hkind)
  · rw [herror, hbytes hlength] at h
    obtain ⟨hdest, h8, request, cause, hrequest, hprefix, -, -⟩ := (parseError_some_iff ..).1 h
    exact ⟨wait, record, error, source, calls, seq, request, hmem, hrecord, husable, h, hsent, hdest, hrequest, h8, hprefix⟩

/-- Each step over the ping socket keeps what the log tells. -/
theorem PingHistory.step {p : Probe} {log : PingLog} {s s' : State} {ping ping' : Ping} {e : Event}
    {calls : List (Exchange Syscall.Answer)} (hassumed : ∀ x ∈ calls, Assumed x) (hhistory : History p (log.map Prod.fst) s)
    (h : PingHistory p log s ping) (hmoves : Moves p s e s') (hserves : ping.Serves calls ping' e) :
    PingHistory p (log ++ [(e, calls)]) s' ping' := by
  have hduring : ∀ {seq start}, During p (log.map Prod.fst) seq start → e.isSent = false →
      During p ((log ++ [(e, calls)]).map Prod.fst) seq start := by
    intro seq start hduring he
    rw [List.map_append]
    exact hduring.append (not_isSent_of_mem e he)
  cases hmoves with
  | started b seq now => exact trivial
  | sent b seq start packet hpacket => exact trivial
  | sendFailed b seq start packet error hpacket =>
    exact pingHistory_failed b ping' "send" (harmless_send packet _ _ _ _ _ hassumed hserves)
  | waits b seq start now hnow => exact trivial
  | expired b seq start now hnow => exact pingHistory_nextAttempt b ping' (hduring hhistory rfl)
  | received b seq start wait written length source => exact linked_received hserves
  | timedOut b seq start wait written error hkind => exact pingHistory_nextAttempt _ ping' (hduring hhistory rfl)
  | interrupted b seq start wait written error hkind => exact trivial
  | receiveFailed b seq start wait written error h₁ h₂ h₃ =>
    obtain ⟨outcome, hruns, hresult, -⟩ := hserves
    cases outcome with
    | ok received => cases hresult
    | error error' =>
      cases hresult
      exact pingHistory_failed _ ping' "receive" (hruns.harmless hassumed)
  | elapsed b seq start length source now =>
    obtain ⟨-, rfl⟩ := hserves
    exact Linked.append h _
  | late b seq start length source elapsed now hnow =>
    obtain ⟨first, hafter, -⟩ := hhistory
    exact pingHistory_nextAttempt b ping' (hduring (hafter.during (not_isSent_of_mem _ rfl)) rfl)
  | tooLong b seq start length source elapsed now hnow hlength => exact trivial
  | inTime b seq start length source elapsed now hnow hlength =>
    obtain ⟨-, rfl⟩ := hserves
    exact Linked.append h _
  | judged b seq start length source elapsed reply =>
    obtain ⟨-, rfl, hparse⟩ := hserves
    obtain ⟨first, second, hafter, -, -, hlength⟩ := hhistory
    have hsent := (hduring (hafter.during (by simp [Event.isSent])) rfl).sent
    cases reply with
    | none => exact trivial
    | some reply =>
      cases reply with
      | echo =>
        intro hlatency
        cases hlatency
      | negative message => exact fun _ => Or.inr (negative_of_linked (Linked.append h _) hlength hsent hparse)

/-- A call whose arguments fail a check ends at once. -/
theorem init_of_invalid {p : Probe} (h : ¬(p.options.validate = .ok () ∧ p.payload.length = p.options.payloadSize)) :
    ∃ text, p.init.point = .done (.error text) := by
  cases hoptions : p.options.validate with
  | error text => exact ⟨text, by simp only [init, hoptions]⟩
  | ok value =>
    have hpayload : p.payload.length ≠ p.options.payloadSize := fun hpayload => h ⟨hoptions, hpayload⟩
    exact ⟨"Invalid internal ICMP payload length", by simp only [init, hoptions, hpayload, ne_eq, not_false_eq_true, if_true]⟩

/-- What the log of every run over a ping socket tells. -/
theorem PingRuns.history {p : Probe} {ping ping' : Ping} {log : PingLog} {s : State} (h : PingRuns p ping log s ping')
    (hassumed : CallsAssumed log) : PingHistory (p.over ping) log s ping' := by
  by_cases hvalid : p.options.validate = .ok () ∧ p.payload.length = p.options.payloadSize
  · induction h with
    | start =>
      rw [init_of_valid (p := p.over ping) hvalid.1 hvalid.2]
      exact trivial
    | step e calls hrun hstep hserves ih =>
      refine PingHistory.step ?_ (Runs.history (p := p.over ping) hvalid.1 hvalid.2 hrun.runs) (ih ?_) (moves_of_step hstep) hserves
      · exact hassumed _ (List.mem_append_right _ (List.mem_singleton_self _))
      · exact fun entry hentry => hassumed entry (List.mem_append_left _ hentry)
  · obtain ⟨text, hinit⟩ := init_of_invalid (p := p.over ping) hvalid
    have hruns := h.runs
    have hnil := run_done hinit hruns
    unfold Runs at hruns
    rw [hnil] at hruns
    cases hruns
    unfold PingHistory
    rw [hinit]
    exact trivial

/-- An event that ends the probe is the last of the log. -/
theorem PingRuns.done_of_mem {p : Probe} {ping ping' : Ping} {log : PingLog} {s : State} {e : Event}
    {calls : List (Exchange Syscall.Answer)} {result : Except String Outcome} (h : PingRuns p ping log s ping')
    (hmem : (e, calls) ∈ log) (hends : ∀ (ping₁ ping₂ : Ping) (s₁ s₂ : State), ping₁.Serves calls ping₂ e → Moves (p.over ping) s₁ e s₂ →
      s₂.point = .done result) : s.point = .done result := by
  induction h with
  | start => cases hmem
  | step e' calls' hrun hstep hserves ih =>
    rcases List.mem_append.1 hmem with hmem | hmem
    · cases run_done (ih hmem) (Machine.run_singleton.2 hstep)
    · cases List.mem_singleton.1 hmem
      exact hends _ _ _ _ hserves (moves_of_step hstep)

/-- A run goes on with an event that the socket serves. -/
theorem PingRuns.snoc {p : Probe} {ping ping₁ ping₂ : Ping} {log : PingLog} {s s' : State} {e : Event}
    (h : PingRuns p ping log s ping₁) (hmoves : Moves (p.over ping) s e s') (calls : List (Exchange Syscall.Answer))
    (hserves : ping₁.Serves calls ping₂ e) : PingRuns p ping (log ++ [(e, calls)]) s' ping₂ :=
  .step e calls h (step_of_moves hmoves) hserves

/-- No uncorrelated errno becomes an ICMP negative over the ping socket. A probe that succeeds without a latency has timed out
in all its attempts, or has read a record of the error queue that is about the request of its current attempt. An error of
`send_to` or `recv_from`, or one that `SO_ERROR` holds, that is not explained by a record of the queue is an error of the
probe. -/
theorem ping_negative (p : Probe) (ping ping' : Ping) (log : PingLog) (s : State) (h : PingRuns p ping log s ping')
    (hassumed : CallsAssumed log) :
    (∀ outcome, s.point = .done (.ok outcome) → outcome.latency = none →
      (outcome.message = p.timeoutMessage ∧ SentRequests (p.over ping) (log.map Prod.fst) p.options.attempts.toNat) ∨
        NegativeFromRecord (p.over ping) log ping' outcome.message) ∧
    (∀ packet target result calls error, (.sent packet target result, calls) ∈ log → Unreachable error →
      Unexplained (SendFails error) calls → s.point = .done (.error (operationError "send" error.other))) ∧
    (∀ wait written result calls error, (.received wait written result, calls) ∈ log → Unreachable error →
      Unexplained (ReceiveFails error) calls → s.point = .done (.error (operationError "receive" error.other))) := by
  refine ⟨?_, ?_, ?_⟩
  · intro outcome hdone hlatency
    have hhistory := h.history hassumed
    unfold PingHistory at hhistory
    rw [hdone] at hhistory
    exact hhistory hlatency
  · intro packet target result calls error hmem _ hcalls
    refine h.done_of_mem hmem fun ping₁ ping₂ s₁ s₂ hserves hmoves => ?_
    obtain rfl := send_unexplained hserves hcalls
    cases hmoves
    rw [failed_of_harmless "send" (not_unreachable_other error)]
  · intro wait written result calls error hmem hunreachable hcalls
    refine h.done_of_mem hmem fun ping₁ ping₂ s₁ s₂ hserves hmoves => ?_
    obtain ⟨outcome, hruns, rfl, -⟩ := hserves
    obtain rfl := hruns.unexplained hunreachable hcalls
    cases hmoves with
    | timedOut b seq start wait written error hkind => rcases hkind with hkind | hkind <;> cases hkind
    | interrupted b seq start wait written error hkind => cases hkind
    | receiveFailed b seq start wait written error' h₁ h₂ h₃ =>
      exact congrArg Point.done (failed_of_harmless "receive" (not_unreachable_other error))

/-- A ping socket to 192.0.2.2 that holds no error. -/
def samplePing : Ping where
  id := 0x1234
  target := sampleProbe.target
  error := none

/-- The error queue is empty. -/
def sampleEmpty : Exchange Syscall.Answer :=
  ⟨.recvmsg, .error { kind := .wouldBlock, rawOsError := some 11, text := "Resource temporarily unavailable (os error 11)" }⟩

/-- `EHOSTUNREACH` -/
def sampleUnreachable : IoError := { kind := .hostUnreachable, rawOsError := some 113, text := "No route to host (os error 113)" }

/-- The first request of the sample probe. -/
def sampleRequest : Bytes := [8, 0, 33, 6, 18, 52, 0, 1] ++ List.replicate 56 7

/-- The calls of a `send` whose datagram is refused with an errno that no record explains. -/
def sampleRefused : List (Exchange Syscall.Answer) :=
  [sampleEmpty, ⟨.takeError, .ok none⟩, ⟨.sendTo sampleRequest sampleProbe.target, .error sampleUnreachable⟩, sampleEmpty]

/-- The sample probe fails to send its first request. -/
def sampleLog : PingLog :=
  [(.clock 100, [⟨.now, (100 : Instant)⟩]), (.sent sampleRequest sampleProbe.target (.error sampleUnreachable.other), sampleRefused)]

/-- What the error queue holds of an error from the router 192.0.2.3 about the first request. -/
def sampleQueuedRecord : Record where
  data := sampleRequest.take 8
  truncated := false
  address := ⟨2, [0, 0, 192, 0, 2, 2] ++ List.replicate 8 0⟩
  control := [⟨0, 11, some (⟨113, 2, 3, 1⟩, ⟨2, [0, 0, 192, 0, 2, 3] ++ List.replicate 8 0⟩)⟩]

/-- The sample probe reads the record. -/
def sampleQueuedLog : PingLog :=
  [(.clock 100, [⟨.now, (100 : Nat)⟩]),
    (.sent sampleRequest sampleProbe.target (.ok ()),
      [sampleEmpty, ⟨.takeError, .ok none⟩, ⟨.sendTo sampleRequest sampleProbe.target, .ok 64⟩]),
    (.clock 200, [⟨.now, (200 : Nat)⟩]),
    (.received 999999900 (sampleRequest.take 8) (.ok (8, sampleProbe.target)),
      [⟨.now, (210 : Nat)⟩, ⟨.now, (220 : Nat)⟩, ⟨.recvmsg, .ok sampleQueuedRecord⟩]),
    (.clock 5000, [⟨.now, (5000 : Nat)⟩]), (.clock 5001, [⟨.now, (5001 : Nat)⟩]),
    (.judged (sampleRequest.take 8) sampleProbe.target (sampleProbe.expected 1)
      (some (.negative "Host unreachable (source=192.0.2.3)")), [])]

/-- The sample socket with the error of the record. -/
def sampleHeld : Ping :=
  { samplePing with error := some ⟨2, 3, 1, 113, some (.v4 ⟨192, 0, 2, 3⟩)⟩ }

/-- A run that settles on a record of the error queue. -/
theorem pingRuns_sampleQueuedLog : ∃ s, PingRuns sampleProbe samplePing sampleQueuedLog s sampleHeld ∧
    s.point = .done (.ok (.negative "Host unreachable (source=192.0.2.3)")) := by
  have hrequest : (sampleProbe.over samplePing).request 1 = .ok sampleRequest := by decide +kernel
  have hsends : samplePing.Serves [sampleEmpty, ⟨.takeError, .ok none⟩, ⟨.sendTo sampleRequest sampleProbe.target, .ok 64⟩]
      samplePing (.sent sampleRequest sampleProbe.target (.ok ())) := ⟨_, _, rfl, _, _, rfl, _, _, rfl, rfl, rfl⟩
  have hreceives : samplePing.Serves [⟨.now, (210 : Nat)⟩, ⟨.now, (220 : Nat)⟩, ⟨.recvmsg, .ok sampleQueuedRecord⟩] sampleHeld
      (.received 999999900 (sampleRequest.take 8) (.ok (8, sampleProbe.target))) :=
    ⟨.ok ⟨sampleRequest.take 8, 8, sampleProbe.target⟩, ⟨(210 : Nat), _, rfl, .returned ⟨_, _, rfl, _, _, rfl, rfl, rfl⟩⟩, rfl, rfl⟩
  have hbytes : (Buffer.zero.write (sampleRequest.take 8)).bytes.take 8 = sampleRequest.take 8 :=
    Buffer.zero.take_write (by decide) (by decide)
  have hjudge : sampleHeld.parseReply (sampleRequest.take 8) sampleProbe.target (sampleProbe.expected 1) =
      .ok (some (.negative "Host unreachable (source=192.0.2.3)")) := by decide +kernel
  have hjudged : sampleHeld.Serves [] sampleHeld (.judged (sampleRequest.take 8) sampleProbe.target (sampleProbe.expected 1)
      (some (.negative "Host unreachable (source=192.0.2.3)"))) := ⟨rfl, rfl, hjudge⟩
  have hmoves := Moves.judged (p := sampleProbe.over samplePing) (Buffer.zero.write (sampleRequest.take 8)) 1 100 8
    sampleProbe.target 4900 (some (.negative "Host unreachable (source=192.0.2.3)"))
  rw [hbytes] at hmoves
  have hstart : PingRuns sampleProbe samplePing [] ⟨.start 1, .zero⟩ samplePing := .start
  have hclock := hstart.snoc (.started .zero 1 100) [⟨.now, (100 : Nat)⟩] ⟨rfl, rfl⟩
  have hsent := hclock.snoc (.sent .zero 1 100 sampleRequest hrequest) _ hsends
  have hwaits := hsent.snoc (.waits .zero 1 100 200 (by decide)) [⟨.now, (200 : Nat)⟩] ⟨rfl, rfl⟩
  have hreceived := hwaits.snoc (.received ..) _ hreceives
  have helapsed := hreceived.snoc (.elapsed _ 1 100 8 _ 5000) [⟨.now, (5000 : Nat)⟩] ⟨rfl, rfl⟩
  have hinTime := helapsed.snoc (.inTime _ 1 100 8 _ 4900 5001 (by decide) (by decide)) [⟨.now, (5001 : Nat)⟩] ⟨rfl, rfl⟩
  exact ⟨_, hinTime.snoc hmoves _ hjudged, rfl⟩

theorem ping_negative_sample :
    (∃ s, PingRuns sampleProbe samplePing sampleLog s samplePing ∧
      s.point = .done (.error (operationError "send" sampleUnreachable.other))) ∧
    ∃ s, PingRuns sampleProbe samplePing sampleQueuedLog s sampleHeld ∧
      s.point = .done (.ok (.negative "Host unreachable (source=192.0.2.3)")) ∧
      NegativeFromRecord (sampleProbe.over samplePing) sampleQueuedLog sampleHeld "Host unreachable (source=192.0.2.3)" := by
  constructor
  · have hserves : samplePing.Serves sampleRefused samplePing
        (.sent sampleRequest sampleProbe.target (.error sampleUnreachable.other)) :=
      ⟨_, _, rfl, _, _, rfl, _, _, rfl, _, _, rfl, rfl, rfl⟩
    have hrequest : (sampleProbe.over samplePing).request 1 = .ok sampleRequest := by decide +kernel
    have hstart : PingRuns sampleProbe samplePing [(.clock 100, [⟨.now, (100 : Instant)⟩])] ⟨.send 1 100, .zero⟩ samplePing :=
      .step _ _ .start rfl ⟨rfl, rfl⟩
    have hrun : PingRuns sampleProbe samplePing sampleLog
        ⟨.done (.error (operationError "send" sampleUnreachable.other)), .zero⟩ samplePing :=
      .step _ _ hstart (if_pos ⟨hrequest, rfl⟩) hserves
    have hassumed : CallsAssumed sampleLog := by
      unfold CallsAssumed sampleLog sampleRefused
      simp [Assumed, sampleEmpty, Unreachable]
    have hempty : QueueEmpty [sampleEmpty] := by
      intro answer hmem
      cases List.mem_singleton.1 hmem
      exact ⟨_, rfl, rfl⟩
    refine ⟨_, hrun, (ping_negative _ _ _ _ _ hrun hassumed).2.1 _ _ _ _ _ (List.mem_cons_of_mem _ (List.mem_singleton_self _))
      (Or.inr rfl) ⟨[sampleEmpty, ⟨.takeError, .ok none⟩], _, [sampleEmpty], rfl, rfl, hempty⟩⟩
  · obtain ⟨s, hrun, hdone⟩ := pingRuns_sampleQueuedLog
    have hassumed : CallsAssumed sampleQueuedLog := by
      unfold CallsAssumed sampleQueuedLog
      simp [Assumed, sampleEmpty, Unreachable]
    have htimeout : "Host unreachable (source=192.0.2.3)" ≠ sampleProbe.timeoutMessage := by decide
    rcases (ping_negative _ _ _ _ _ hrun hassumed).1 _ hdone rfl with ⟨hmessage, -⟩ | hrecord
    · exact absurd hmessage htimeout
    · exact ⟨s, hrun, hdone, hrecord⟩

end IcmpPing
