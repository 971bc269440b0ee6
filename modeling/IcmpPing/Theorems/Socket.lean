import IcmpPing.Theorems.Ping

/-!
# What the ping socket does with errors

An event of `receive` is judged as what it is, whatever errors were queued or left over before it.
-/

namespace IcmpPing

open Probe Ping

/-- The judgement that what an exchange consumed calls for: a usable record of the error queue is judged by `parse_error`, a
record that is not usable is ignored, and a datagram is judged by `parse_ping_echo`. -/
def judgement (target : IpAddr) (expected : Expected) : Exchange Syscall.Answer → Option (Checked (Option Reply))
  | ⟨.recvmsg, .ok record⟩ =>
    match usable target record with
    | some (error, destination) => some (parseError record.data destination error expected)
    | none => some (.ok none)
  | ⟨.recvFrom, .ok (bytes, source)⟩ => some (parsePingEcho bytes source expected)
  | _ => none

/-- The length reported is that of bytes that were written. -/
theorem Ping.Delivers.length_le {ping : Ping} {last : Exchange Syscall.Answer} {event : Received} (h : Delivers ping last event) :
    event.length ≤ event.written.length := by
  cases h with
  | record record error event h => rw [h.length, h.written]
  | ignored record event _ _ hlength =>
    rw [hlength]
    exact Nat.zero_le _
  | data bytes source _ => exact Nat.le_refl _

/-- `parse_reply` judges what was consumed. -/
theorem Ping.Delivers.parseReply {ping : Ping} {last : Exchange Syscall.Answer} {event : Received} (h : Delivers ping last event)
    (expected : Expected) :
    judgement ping.target expected last = some (ping.parseReply (event.written.take event.length) event.source expected) := by
  cases h with
  | record record error event h =>
    simp only [judgement, Ping.parseReply, h.usable, h.held, h.written, h.length, List.take_length]
  | ignored record event husable herror hlength =>
    simp only [judgement, Ping.parseReply, husable, herror, hlength, List.take_zero]
    rfl
  | data bytes source herror => simp only [judgement, Ping.parseReply, herror, List.take_length]

/-- The last entry of a log, and the run before it. -/
theorem PingRuns.last {p : Probe} {ping ping' : Ping} {log : PingLog} {s : State} {e : Event}
    {calls : List (Exchange Syscall.Answer)} (h : PingRuns p ping (log ++ [(e, calls)]) s ping') : ∃ s₁ ping₁, PingRuns p ping log s₁ ping₁ ∧
      (p.over ping).machine.step s₁ e = some s ∧ ping₁.Serves calls ping' e := by
  generalize hlog : log ++ [(e, calls)] = log' at h
  cases h with
  | start => cases List.append_ne_nil_of_right_ne_nil log (List.cons_ne_nil _ _) hlog
  | step e' calls' hrun hstep hserves =>
    obtain ⟨rfl, hlast⟩ := List.append_inj' hlog rfl
    cases hlast
    exact ⟨_, _, hrun, hstep, hserves⟩

/-- A run over a ping socket that makes a step has passed the checks of its arguments. -/
theorem PingRuns.valid {p : Probe} {ping ping' : Ping} {log : PingLog} {s : State} (h : PingRuns p ping log s ping')
    (hlog : log ≠ []) : p.options.validate = .ok () ∧ p.payload.length = p.options.payloadSize := by
  by_contra hinvalid
  obtain ⟨text, hinit⟩ := init_of_invalid (p := p.over ping) hinvalid
  exact hlog (List.map_eq_nil_iff.1 (run_done hinit h.runs))

/-- A receive that reports an event has consumed it, as its last call. -/
theorem delivers_of_serves {ping ping' : Ping} {wait : Duration} {written : Bytes} {length : Nat} {source : IpAddr}
    {calls : List (Exchange Syscall.Answer)} (h : ping.Serves calls ping' (.received wait written (.ok (length, source)))) :
    ∃ before last, calls = before ++ [last] ∧ (∀ x ∈ before, ¬Consumes x) ∧ Delivers ping' last ⟨written, length, source⟩ := by
  obtain ⟨outcome, hruns, hresult, hwritten⟩ := h
  cases outcome with
  | error error => cases hresult
  | ok received =>
    cases hresult
    subst hwritten
    exact hruns.accounts

/-- A run over a ping socket leaves its identifier and its target as they are. -/
theorem PingRuns.socket_eq {p : Probe} {ping ping' : Ping} {log : PingLog} {s : State} (h : PingRuns p ping log s ping') :
    ping'.socket = ping.socket := by
  induction h with
  | start => rfl
  | step e calls _ _ hserves ih => exact hserves.socket_eq.trans ih

/-- The receive of a packet in a log, and the two readings of the clock after it: it has consumed the packet as its last call, and the
socket has stayed as it left it. -/
theorem PingRuns.packet {p : Probe} {ping ping' : Ping} {log : PingLog} {s : State} {events : List Event} {wait : Duration}
    {written : Bytes} {length : Nat} {source : IpAddr} {first second : Instant} (h : PingRuns p ping log s ping')
    (hevents : log.map Prod.fst = events ++ [.received wait written (.ok (length, source))] ++ [.clock first, .clock second]) :
    ∃ earlier before last, log = earlier ++ [(.received wait written (.ok (length, source)), before ++ [last]),
        (.clock first, [⟨.now, first⟩]), (.clock second, [⟨.now, second⟩])] ∧
      (∀ x ∈ before, ¬Consumes x) ∧ Delivers ping' last ⟨written, length, source⟩ := by
  rw [List.append_assoc] at hevents
  obtain ⟨earlier, entries, rfl, -, hentries⟩ := List.map_eq_append_iff.1 hevents
  obtain ⟨⟨e, received⟩, entries, rfl, he, hentries⟩ := List.map_eq_cons_iff.1 hentries
  obtain ⟨⟨e₁, clock⟩, entries, rfl, he₁, hentries⟩ := List.map_eq_cons_iff.1 hentries
  obtain ⟨⟨e₂, clock'⟩, entries, rfl, he₂, hentries⟩ := List.map_eq_cons_iff.1 hentries
  cases List.map_eq_nil_iff.1 hentries
  cases he
  cases he₁
  cases he₂
  have hsplit : earlier ++ [(Event.received wait written (.ok (length, source)), received), (.clock first, clock),
      (.clock second, clock')] = earlier ++ [(.received wait written (.ok (length, source)), received)] ++
        [(.clock first, clock)] ++ [(.clock second, clock')] := by
    simp only [List.append_assoc, List.cons_append, List.nil_append]
  rw [hsplit] at h
  obtain ⟨s₂, ping₂, hrun₂, -, hclock', rfl⟩ := h.last
  obtain ⟨s₃, ping₃, hrun₃, -, hclock, rfl⟩ := hrun₂.last
  obtain ⟨s₄, ping₄, -, -, hreceived⟩ := hrun₃.last
  obtain ⟨before, last, rfl, hbefore, hdelivers⟩ := delivers_of_serves hreceived
  rw [hclock, hclock']
  exact ⟨earlier, before, last, rfl, hbefore, hdelivers⟩

/-- What is judged was received last, and consumed as the last call of that receive. -/
theorem PingRuns.judged {p : Probe} {ping ping' : Ping} {log : PingLog} {s : State} {bytes : Bytes} {source : IpAddr}
    {expected : Expected} {reply : Option Reply} {calls : List (Exchange Syscall.Answer)}
    (h : PingRuns p ping (log ++ [(.judged bytes source expected reply, calls)]) s ping') :
    ∃ earlier wait written length before last first second clock clock', log = earlier ++
        [(.received wait written (.ok (length, source)), before ++ [last]), (.clock first, clock), (.clock second, clock')] ∧
      (∀ x ∈ before, ¬Consumes x) ∧ judgement ping.target expected last = some (.ok reply) := by
  have htarget : ping'.target = ping.target := congrArg Prod.snd h.socket_eq
  have hvalid := h.valid (List.append_ne_nil_of_right_ne_nil _ (List.cons_ne_nil _ _))
  obtain ⟨s₁, ping₁, hrun, hstep, -, rfl, hparse⟩ := h.last
  have hhistory := Runs.history (p := p.over ping) hvalid.1 hvalid.2 hrun.runs
  cases moves_of_step hstep with
  | judged b seq start length source elapsed reply =>
    obtain ⟨first, second, ⟨events, wait, written, old, hevents, -, rfl⟩, -, -, hlength⟩ := hhistory
    obtain ⟨earlier, before, last, rfl, hbefore, hdelivers⟩ := hrun.packet hevents
    refine ⟨earlier, wait, written, length, before, last, first, second, _, _, rfl, hbefore, ?_⟩
    rw [← htarget, hdelivers.parseReply, ← old.take_write hlength hdelivers.length_le, hparse]

/-- `receive` never mixes error state and data. An event it returns was consumed by its last call, and nothing before it: the
error the socket then holds, the address and the bytes are those of one record of the error queue, or the socket holds no error
and the event is a record that is not usable, or one datagram. Nothing else of the socket changes. A receive that fails has
consumed nothing. Whatever a probe judges was consumed by the last receive, and is judged as what it is. -/
theorem receive_never_mixes :
    (∀ wait ping calls result ping', ReceiveRuns wait ping calls result ping' →
      ping'.id = ping.id ∧ ping'.target = ping.target ∧
      (∀ event, result = .ok event → ∃ before last, calls = before ++ [last] ∧ (∀ x ∈ before, ¬Consumes x) ∧
        Delivers ping' last event ∧ ∀ expected, judgement ping.target expected last =
          some (ping'.parseReply (event.written.take event.length) event.source expected)) ∧
      ∀ error, result = .error error → ∀ x ∈ calls, ¬Consumes x) ∧
    ∀ p ping log bytes source expected reply calls s ping',
      PingRuns p ping (log ++ [(.judged bytes source expected reply, calls)]) s ping' →
      ∃ earlier wait written length before last first second clock clock', log = earlier ++
          [(.received wait written (.ok (length, source)), before ++ [last]), (.clock first, clock), (.clock second, clock')] ∧
        (∀ x ∈ before, ¬Consumes x) ∧ judgement ping.target expected last = some (.ok reply) := by
  refine ⟨fun wait ping calls result ping' h => ?_, fun p ping log bytes source expected reply calls s ping' h => h.judged⟩
  obtain ⟨hid, htarget⟩ := Prod.mk.inj h.socket_eq
  refine ⟨hid, htarget, ?_, ?_⟩
  · intro event hresult
    subst hresult
    obtain ⟨before, last, hcalls, hbefore, hdelivers⟩ := h.accounts
    exact ⟨before, last, hcalls, hbefore, hdelivers, htarget ▸ hdelivers.parseReply⟩
  · intro error hresult
    subst hresult
    exact h.accounts

/-- A record of the error queue about the first request of the sample probe: host unreachable, from 192.0.2.3. -/
def sampleRecord : Record where
  data := sampleRequest
  truncated := false
  address := ⟨2, [0, 0, 192, 0, 2, 2] ++ List.replicate 8 0⟩
  control := [⟨0, 11, some (⟨113, 2, 3, 1⟩, ⟨2, [0, 0, 192, 0, 2, 3] ++ List.replicate 8 0⟩)⟩]

/-- The error of the sample record. -/
def sampleExtendedError : ExtendedError := ⟨2, 3, 1, 113, some (.v4 ⟨192, 0, 2, 3⟩)⟩

/-- The socket holds another error, from before. -/
def sampleStale : Ping := { samplePing with error := some ⟨2, 11, 0, 113, none⟩ }

/-- The calls of a receive that finds the sample record. -/
def sampleFound : List (Exchange Syscall.Answer) :=
  [⟨.now, (100 : Instant)⟩, ⟨.now, (120 : Instant)⟩, ⟨.recvmsg, .ok sampleRecord⟩]

theorem receive_never_mixes_sample : ∃ ping' before last,
    ReceiveRuns 50 sampleStale sampleFound (.ok ⟨sampleRequest, 64, samplePing.target⟩) ping' ∧
      ping' = { sampleStale with error := some sampleExtendedError } ∧ sampleFound = before ++ [last] ∧
      (∀ x ∈ before, ¬Consumes x) ∧ Delivers ping' last ⟨sampleRequest, 64, samplePing.target⟩ ∧
      judgement samplePing.target ((sampleProbe.over samplePing).expected 1) last =
        some (parseError sampleRequest samplePing.target sampleExtendedError ((sampleProbe.over samplePing).expected 1)) := by
  have hruns : ReceiveRuns 50 sampleStale sampleFound (.ok ⟨sampleRequest, 64, samplePing.target⟩)
      { sampleStale with error := some sampleExtendedError } :=
    ⟨100, _, rfl, .returned ⟨120, _, rfl, _, _, rfl, rfl, rfl⟩⟩
  obtain ⟨before, last, hcalls, hbefore, hdelivers, hjudgement⟩ := (receive_never_mixes.1 _ _ _ _ _ hruns).2.2.1 _ rfl
  exact ⟨_, before, last, hruns, rfl, hcalls, hbefore, hdelivers, hjudgement _⟩

/-- `send` transmits at most once, and tries again only for a stale error. Whatever the kernel answers, it passes only this
datagram to the kernel, at most twice, and reads the error queue at most 128 times; the second time comes after the first
failed and a record was read since; at most one `send_to` succeeds. It returns without an error just when one of them sent the
whole packet, and then the socket holds no error. An error it returns is that of a read of the queue or of `SO_ERROR`, its last
call; or it is made of the answer of a `send_to`, and then is of no kind that tells of the network or of time. -/
theorem send_at_most_once (packet : Bytes) (target : IpAddr) (ping ping' : Ping) (calls : List (Exchange Syscall.Answer))
    (result : Except IoError Unit) (h : (send packet target).Runs ping calls result ping') :
    SendsOnly packet target calls ∧ calls.countP isSendTo ≤ 2 ∧ calls.countP isRecvmsg ≤ 128 ∧
    (calls.countP isSendTo = 2 → ∃ first error between record answer, calls =
      first ++ ⟨.sendTo packet target, .error error⟩ :: between ++ [⟨.sendTo packet target, answer⟩] ∧
        ⟨.recvmsg, .ok record⟩ ∈ between) ∧
    calls.countP isSent ≤ 1 ∧
    (result = .ok () ↔ ⟨.sendTo packet target, .ok packet.length⟩ ∈ calls) ∧
    (result = .ok () → ping'.error = none) ∧
    ∀ error, result = .error error → EndsFailed calls error ∨ OfSendTo packet target calls error ∧
      error.kind ∉ [ErrorKind.networkUnreachable, .hostUnreachable, .timedOut, .wouldBlock, .interrupted] := by
  have hsends := sends_send h
  refine ⟨hsends.sendsOnly, ?_, hsends.countP_isRecvmsg_le, ?_, hsends.countP_isSent_le, hsends.ok_iff, hsends.error_eq_none, ?_⟩
  · rcases hsends.cases_sendTo with hcount | hcount | ⟨hcount, -⟩ <;> omega
  · intro htwo
    rcases hsends.cases_sendTo with hcount | hcount | ⟨-, hagain⟩
    · omega
    · omega
    · exact hagain
  · intro error hresult
    exact (hsends.fails hresult).imp_right fun hof => ⟨hof, hof.kind_not_mem⟩

/-- The calls of a send that fails with the error of the sample record, reads the record and tries again. -/
def sampleResent : List (Exchange Syscall.Answer) :=
  [sampleEmpty, ⟨.takeError, .ok none⟩, ⟨.sendTo sampleRequest samplePing.target, .error sampleUnreachable⟩,
    ⟨.recvmsg, .ok sampleRecord⟩, sampleEmpty, ⟨.takeError, .ok none⟩, ⟨.sendTo sampleRequest samplePing.target, .ok 64⟩]

theorem send_at_most_once_sample :
    (send sampleRequest samplePing.target).Runs { samplePing with error := some sampleExtendedError } sampleResent (.ok ())
      samplePing ∧ sampleResent.countP isSendTo ≤ 2 := by
  have hruns : (send sampleRequest samplePing.target).Runs { samplePing with error := some sampleExtendedError } sampleResent
      (.ok ()) samplePing :=
    ⟨_, _, rfl, _, _, rfl, _, _, rfl, _, _, rfl, _, _, rfl, _, _, rfl, _, _, rfl, rfl, rfl⟩
  exact ⟨hruns, (send_at_most_once _ _ _ _ _ _ hruns).2.1⟩

end IcmpPing
