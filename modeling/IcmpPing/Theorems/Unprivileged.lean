import IcmpPing.Theorems.Accept
import IcmpPing.Theorems.Socket

/-!
# Probes over ping sockets

Every result of a probe over a ping socket rests on the last thing that happened, too: on a reply that was received, on a record of the
error queue about the request of the current attempt, on the time, or on the answer to a call that is to blame.
-/

namespace IcmpPing

open Probe Ping

/-- What the error of a record means, as a text: the reason of an ICMP error, or that the datagram was too big to be sent, which is an
error of the host itself. Either names the offender where the record has one. -/
inductive RecordText (target : IpAddr) (error : ExtendedError) : String → Prop where
  | icmp (cause : String) (horigin : error.origin = originIcmp target.isIpv4)
    (hcause : reason target.isIpv6 error.kind error.code = some cause) : RecordText target error (errorText cause error.offender)
  | tooBig (horigin : error.origin = originLocal) (herrno : error.errno = emsgsize) :
    RecordText target error (errorText "Packet too big" error.offender)

/-- The text of a cause is one of the two. -/
theorem recordText_of_errorCause {target : IpAddr} {error : ExtendedError} {cause : String} (h : errorCause target error = some cause) :
    RecordText target error (errorText cause error.offender) := by
  unfold errorCause at h
  split at h
  · rename_i horigin
    exact .icmp cause horigin h
  · split at h
    · rename_i hlocal
      cases h
      exact .tooBig hlocal.1 hlocal.2
    · cases h

/-- The record is usable, was sent about a datagram to the target, and quotes the first bytes, at least eight, of the request of this
attempt. -/
structure RecordAbout (p : Probe) (seq : UInt16) (record : Record) (error : ExtendedError) : Prop where
  usable : usable p.target record = some (error, p.target)
  quotes : ∃ request, p.request seq = .ok request ∧ 8 ≤ record.data.length ∧ record.data <+: request

/-- The log ends with a receive whose last call was this one, and which is judged so for the request of an attempt, no later than the
deadline of the attempt. -/
structure LastJudged (p : Probe) (log : PingLog) (seq : UInt16) (start first : Instant) (last : Exchange Syscall.Answer) (reply : Reply) :
    Prop where
  ends : ∃ earlier wait written length source before bytes second, (∀ x ∈ before, ¬Consumes x) ∧ second ≤ p.deadline start ∧
    log = earlier ++ [(.received wait written (.ok (length, source)), before ++ [last]), (.clock first, [⟨.now, first⟩]),
      (.clock second, [⟨.now, second⟩]), (.judged bytes source (p.expected seq) (some reply), [])]
  started : attemptStart (log.map Prod.fst) = some start
  current : SentRequests p (log.map Prod.fst) seq.toNat

/-- What the result of a probe over a ping socket rests on. -/
inductive PingAccounted (p : Probe) (log : PingLog) : Except String Outcome → Prop where
  | answered (seq : UInt16) (start first : Instant) (message : Bytes) :
    LastJudged p log seq start first ⟨.recvFrom, .ok (message, p.target)⟩ .echo → IsReply (p.expected seq) message →
      PingAccounted p log (.ok { latency := some (first - start), message := "" })
  | reported (seq : UInt16) (start first : Instant) (record : Record) (error : ExtendedError) (text : String) :
    LastJudged p log seq start first ⟨.recvmsg, .ok record⟩ (.negative text) → RecordAbout p seq record error →
      RecordText p.target error text → PingAccounted p log (.ok (.negative text))
  | timedOut : SentRequests p (log.map Prod.fst) p.options.attempts.toNat → Expired p (log.map Prod.fst) →
      PingAccounted p log (.ok (.negative p.timeoutMessage))
  | unsent (packet : Bytes) (error : IoError) (earlier : PingLog) (calls : List (Exchange Syscall.Answer)) :
    log = earlier ++ [(.sent packet p.target (.error error), calls)] →
      EndsFailed calls error ∨ OfSendTo packet p.target calls error → PingAccounted p log (failed "send" error)
  | unreceived (wait : Duration) (written : Bytes) (error : IoError) (earlier : PingLog) (calls : List (Exchange Syscall.Answer)) :
    log = earlier ++ [(.received wait written (.error error), calls)] → (∃ x ∈ calls, Blames x error) →
      PingAccounted p log (failed "receive" error)

/-- A call has reported more than the buffer of a receive holds. -/
def Overruns (log : PingLog) : Prop :=
  ∃ entry ∈ log, (∃ bytes source, ⟨.recvFrom, .ok (bytes, source)⟩ ∈ entry.2 ∧ 65535 < bytes.length) ∨
    ∃ record, ⟨.recvmsg, .ok record⟩ ∈ entry.2 ∧ 65535 < record.data.length

/-- What was consumed last, and judged, is what the result rests on. -/
theorem pingAccounted_judged {p : Probe} {log : PingLog} {seq : UInt16} {start first : Instant} {last : Exchange Syscall.Answer}
    {reply : Reply} {result : Except String Outcome} (hlast : LastJudged p log seq start first last reply)
    (hlength : ∀ bytes source, last = ⟨.recvFrom, .ok (bytes, source)⟩ → bytes.length ≤ 65535)
    (hjudgement : judgement p.target (p.expected seq) last = some (.ok (some reply)))
    (hdone : afterJudgement seq start (first - start) (some reply) = .done result) : PingAccounted p log result := by
  obtain ⟨call, answer⟩ := last
  cases call with
  | recvmsg =>
    cases answer with
    | error error => cases hjudgement
    | ok record =>
      cases husable : usable p.target record with
      | none =>
        simp only [judgement, husable] at hjudgement
        cases hjudgement
      | some found =>
        obtain ⟨error, destination⟩ := found
        simp only [judgement, husable, Option.some.injEq] at hjudgement
        obtain ⟨rfl, h8, request, cause, hrequest, hprefix, hcause, rfl⟩ := (parseError_some_iff ..).1 hjudgement
        cases hdone
        exact .reported seq start first record error _ hlast ⟨husable, request, hrequest, h8, hprefix⟩ (recordText_of_errorCause hcause)
  | recvFrom =>
    cases answer with
    | error error => cases hjudgement
    | ok data =>
      obtain ⟨message, source⟩ := data
      have hparse : parsePingEcho message source (p.expected seq) = .ok (some reply) := Option.some.inj hjudgement
      obtain ⟨hkind, hmessage⟩ := (parsePingEcho_some_iff ..).1 hparse
      cases reply with
      | negative text => exact absurd hmessage (parseMessage_replyKind_ne_negative hkind)
      | echo =>
        cases hdone
        obtain ⟨⟨-, hlocal, -⟩, -⟩ := (parseMessage_echo_iff ..).1 hmessage
        have hfamily : SameFamily (p.expected seq).target (p.expected seq).localAddr := Eq.symm hlocal
        obtain ⟨hsource, hreply⟩ := (parseMessage_isReply_iff hfamily source (hlength message source rfl)).1 hmessage
        obtain rfl : source = p.target := hsource
        exact .answered seq start first message hlast hreply
  | _ => cases hjudgement

/-- What a receive has consumed overruns its buffer where it reports more than the buffer holds. -/
theorem overruns_of_delivers {log : PingLog} {e : Event} {calls : List (Exchange Syscall.Answer)} {last : Exchange Syscall.Answer}
    {ping : Ping} {event : Received} (hmem : (e, calls) ∈ log) (hlast : last ∈ calls) (h : Delivers ping last event)
    (hlength : 65535 < event.length) : Overruns log := by
  cases h with
  | record record error event h => exact ⟨_, hmem, Or.inr ⟨record, hlast, h.length ▸ hlength⟩⟩
  | ignored record event _ _ hzero => omega
  | data bytes source _ => exact ⟨_, hmem, Or.inl ⟨bytes, source, hlast, hlength⟩⟩

/-- Every result of a probe over a ping socket is accounted for, but where a receive has reported more than its buffer holds. -/
theorem PingRuns.accounted {p : Probe} {ping ping' : Ping} (htarget : ping.target = p.target) (hoptions : p.options.validate = .ok ())
    (hpayload : p.payload.length = p.options.payloadSize) {log : PingLog} {s : State} (h : PingRuns p ping log s ping')
    {result : Except String Outcome} (hdone : s.point = .done result) :
    PingAccounted (p.over ping) log result ∨ result = .error "ICMP receive returned invalid length" ∧ Overruns log := by
  have htarget' : ping'.target = p.target := (congrArg Prod.snd h.socket_eq).trans htarget
  cases h with
  | start =>
    rw [init_of_valid (p := p.over ping) hoptions hpayload] at hdone
    cases hdone
  | @step log s₁ _ ping₁ _ e calls hbefore hstep hserves =>
    have hevents : (log ++ [(e, calls)]).map Prod.fst = log.map Prod.fst ++ [e] := List.map_append
    cases (Runs.history (p := p.over ping) hoptions hpayload hbefore.runs).ending (moves_of_step hstep) hdone with
    | unsent packet error => exact Or.inl (.unsent packet error log calls rfl ((sends_send hserves).fails rfl))
    | unreceived wait written error _ =>
      obtain ⟨outcome, hruns, hresult, -⟩ := hserves
      cases outcome with
      | ok received => cases hresult
      | error error' =>
        cases hresult
        exact Or.inl (.unreceived wait written error log calls rfl hruns.blames)
    | timedOut _ hsent hexpired =>
      rw [← hevents] at hsent hexpired
      exact Or.inl (.timedOut hsent hexpired)
    | @overrun seq start first now length source b hafter hlength =>
      obtain ⟨events, wait, written, old, hafter, -, -⟩ := hafter
      have hall : PingRuns p ping (log ++ [(.clock now, calls)]) _ ping' := .step _ _ hbefore hstep hserves
      rw [hafter, List.append_assoc] at hevents
      obtain ⟨earlier, before, last, hlog, -, hdelivers⟩ := hall.packet hevents
      have hmem : (.received wait written (.ok (length, source)), before ++ [last]) ∈ log ++ [(.clock now, calls)] := by
        rw [hlog]
        simp
      exact Or.inr ⟨rfl, overruns_of_delivers hmem (List.mem_append_right _ (List.mem_singleton_self last)) hdelivers hlength⟩
    | @judged events wait written length source old seq start first second reply _ hafter hduring hsecond hlength hresult =>
      obtain ⟨rfl, rfl, hparse⟩ := hserves
      obtain ⟨earlier, before, last, rfl, hbefore', hdelivers⟩ := hbefore.packet hafter
      rw [← hevents] at hduring
      have hjudgement : judgement (p.over ping).target ((p.over ping).expected seq) last = some (.ok (some reply)) := by
        rw [show (p.over ping).target = ping'.target from htarget'.symm, hdelivers.parseReply, ← old.take_write hlength hdelivers.length_le, hparse]
      refine Or.inl (pingAccounted_judged ⟨⟨earlier, wait, written, length, source, before, (old.write written).bytes.take length, second,
        hbefore', hsecond, ?_⟩, hduring.started, hduring.sent⟩ ?_ hjudgement hresult)
      · rw [List.append_assoc]
        rfl
      · rintro bytes source' rfl
        cases hdelivers
        exact hlength

end IcmpPing
