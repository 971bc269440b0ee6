import IcmpPing.Lemmas.Raw
import IcmpPing.Theorems.Accept
import IcmpPing.Theorems.Probe

/-!
# Probes over raw sockets

Every result of a probe over a raw socket rests on the last thing that happened: on a datagram that answers or rejects the request
of its current attempt, on the time, or on a call that failed.
-/

namespace IcmpPing

open Probe

/-! ## The last step of a run -/

/-- A receive never writes past the end of its buffer, as `recv_from` promises. -/
def ReadsFit (log : RawLog) : Prop :=
  ∀ entry ∈ log, ∀ bytes source, (⟨.recvFrom, .ok (bytes, source)⟩ : Exchange Syscall.Answer) ∈ entry.2 → bytes.length ≤ 65535

/-- The receive of a packet in a log: the datagram the socket delivered, and what was written of it. -/
theorem RawRuns.packet {p : Probe} {os : TargetOs} {log : RawLog} {s : State} {before more : List Event} {wait : Duration}
    {written : Bytes} {length : Nat} {source : IpAddr} (h : RawRuns p os log s)
    (hevents : log.map Prod.fst = before ++ [.received wait written (.ok (length, source))] ++ more) :
    ∃ earlier bytes rest, log = earlier ++ [(.received wait written (.ok (length, source)),
        [⟨.setReadTimeout (max wait (fromMillis 1)), .ok ()⟩, ⟨.recvFrom, .ok (bytes, source)⟩])] ++ rest ∧
      rest.map Prod.fst = more ∧ written = Raw.restored os bytes source ∧ length = bytes.length := by
  rw [List.append_assoc] at hevents
  obtain ⟨earlier, rest, rfl, -, hrest⟩ := log_of_events hevents
  obtain ⟨⟨e, calls⟩, rest, rfl, he, hmore⟩ := List.map_eq_cons_iff.1 hrest
  obtain rfl : e = .received wait written (.ok (length, source)) := he
  obtain ⟨bytes, hcalls, hwritten, hlength⟩ := (h.serves (.received wait written (.ok (length, source)), calls) (by simp)).packet
  obtain rfl : calls = _ := hcalls
  exact ⟨earlier, bytes, rest, by simp, hmore, hwritten, hlength⟩

/-! ## What a result rests on -/

/-- The log ends with the receive of a datagram, which is judged so for the request of an attempt, no later than the deadline of
the attempt: where the attempt started, and the first reading of the clock after the receive. -/
structure LastPacket (p : Probe) (os : TargetOs) (log : RawLog) (seq : UInt16) (start first : Instant) (packet : Bytes)
    (source : IpAddr) (reply : Reply) : Prop where
  ends : ∃ earlier wait bytes second, packet = Raw.restored os bytes source ∧ second ≤ p.deadline start ∧ log = earlier ++
    [(.received wait packet (.ok (packet.length, source)),
        [⟨.setReadTimeout (max wait (fromMillis 1)), .ok ()⟩, ⟨.recvFrom, .ok (bytes, source)⟩]),
      (.clock first, [⟨.now, first⟩]), (.clock second, [⟨.now, second⟩]),
      (.judged packet source (p.overRaw.expected seq) (some reply), [])]
  started : attemptStart (log.map Prod.fst) = some start
  current : SentRequests p.overRaw (log.map Prod.fst) seq.toNat

/-- The call fails a `send` or a `receive` with this error, that `probe` does not wait through. -/
inductive CallFails : (stage : String) → Exchange Syscall.Answer → IoError → Prop where
  | sendTo (packet : Bytes) (target : IpAddr) (error : IoError) : CallFails "send" ⟨.sendTo packet target, .error error⟩ error
  | short (packet : Bytes) (target : IpAddr) (sent : Nat) (hsent : sent ≠ packet.length) :
    CallFails "send" ⟨.sendTo packet target, .ok sent⟩
      { kind := .writeZero, rawOsError := none, text := "Incomplete ICMP datagram send" }
  | setReadTimeout (wait : Duration) (error : IoError) (hkind : error.kind ∉ [ErrorKind.timedOut, .wouldBlock, .interrupted]) :
    CallFails "receive" ⟨.setReadTimeout wait, .error error⟩ error
  | recvFrom (error : IoError) (hkind : error.kind ∉ [ErrorKind.timedOut, .wouldBlock, .interrupted]) :
    CallFails "receive" ⟨.recvFrom, .error error⟩ error

/-- The log ends with a call that fails so. -/
def EndsFailing (log : RawLog) (stage : String) (error : IoError) : Prop :=
  ∃ earlier e calls last, log = earlier ++ [(e, calls ++ [last])] ∧ CallFails stage last error

/-- What the result of a probe over a raw socket rests on. -/
inductive Accounted (p : Probe) (os : TargetOs) (log : RawLog) : Except String Outcome → Prop where
  | answered (seq : UInt16) (start first : Instant) (packet message : Bytes) :
    LastPacket p os log seq start first packet p.target .echo → Carries p.target p.localAddr message packet →
      IsReply (p.overRaw.expected seq) message → Accounted p os log (.ok { latency := some (first - start), message := "" })
  | rejected (seq : UInt16) (start first : Instant) (packet message : Bytes) (source : IpAddr) (text : String) :
    LastPacket p os log seq start first packet source (.negative text) → Carries source p.localAddr message packet →
      IsErrorAbout (p.overRaw.expected seq) source message text → Accounted p os log (.ok (.negative text))
  | timedOut : SentRequests p.overRaw (log.map Prod.fst) p.options.attempts.toNat → Expired p.overRaw (log.map Prod.fst) →
      Accounted p os log (.ok (.negative p.timeoutMessage))
  | unreachable (stage : String) (error : IoError) (reason : String) : EndsFailing log stage error →
      networkError error = some reason → Accounted p os log (.ok (.negative reason))
  | failed (stage : String) (error : IoError) : EndsFailing log stage error → networkError error = none →
      Accounted p os log (.error (operationError stage error))

/-- A call that fails is what the result rests on. -/
theorem accounted_failed {p : Probe} {os : TargetOs} {log : RawLog} {stage : String} {error : IoError}
    (h : EndsFailing log stage error) : Accounted p os log (failed stage error) := by
  unfold IcmpPing.failed
  cases hnetwork : networkError error with
  | none => exact .failed stage error h hnetwork
  | some reason => exact .unreachable stage error reason h hnetwork

/-- A packet that is judged is what the result rests on. -/
theorem accounted_judged {p : Probe} {os : TargetOs} {log : RawLog} {seq : UInt16} {start first : Instant} {packet : Bytes}
    {source : IpAddr} {reply : Reply} {result : Except String Outcome} (hlength : packet.length ≤ 65535)
    (hlast : LastPacket p os log seq start first packet source reply)
    (hparse : parse packet source (p.overRaw.expected seq) = .ok (some reply))
    (hdone : afterJudgement seq start (first - start) (some reply) = .done result) : Accounted p os log result := by
  obtain ⟨message, hcarries, hmessage⟩ := (parse_some_iff ..).1 hparse
  have hfit := hcarries.length_le.trans hlength
  cases reply with
  | echo =>
    cases hdone
    obtain ⟨⟨-, hlocal, -⟩, -⟩ := (parseMessage_echo_iff ..).1 hmessage
    have hfamily : SameFamily (p.overRaw.expected seq).target (p.overRaw.expected seq).localAddr := Eq.symm hlocal
    obtain ⟨hsource, hreply⟩ := (parseMessage_isReply_iff hfamily source hfit).1 hmessage
    obtain rfl : source = p.target := hsource
    exact .answered seq start first packet message hlast hcarries hreply
  | negative text =>
    cases hdone
    obtain ⟨-, -, herror⟩ := (parseMessage_isErrorAbout_iff _ source hfit text).1 hmessage
    exact .rejected seq start first packet message source text hlast hcarries herror

/-- The result of a run rests on its last event, or a receive has reported more than its buffer holds. -/
theorem RawRuns.accounted_or {p : Probe} {os : TargetOs} (hoptions : p.options.validate = .ok ())
    (hpayload : p.payload.length = p.options.payloadSize) {log : RawLog} {s : State} (h : RawRuns p os log s)
    {result : Except String Outcome} (hdone : s.point = .done result) :
    Accounted p os log result ∨ result = .error "ICMP receive returned invalid length" ∧ ¬ReadsFit log := by
  rcases List.eq_nil_or_concat log with rfl | ⟨before, ⟨e, calls⟩, rfl⟩
  · have hinit := h.runs
    rw [List.map_nil, Runs, init_of_valid (p := p.overRaw) hoptions hpayload] at hinit
    cases hinit
    cases hdone
  rw [List.concat_eq_append] at h ⊢
  obtain ⟨s₁, hbefore, hmoves, hserves⟩ := h.last
  have hevents : (before ++ [(e, calls)]).map Prod.fst = before.map Prod.fst ++ [e] := List.map_append
  have hends : ∀ {stage error last}, calls = [] ++ [last] → CallFails stage last error → EndsFailing (before ++ [(e, calls)]) stage error :=
    fun hcalls hfails => ⟨before, e, [], _, by rw [hcalls], hfails⟩
  cases (Runs.history (p := p.overRaw) hoptions hpayload hbefore.runs).ending hmoves hdone with
  | unsent packet error =>
    obtain ⟨answer, hcalls, hresult⟩ := hserves.sent
    refine Or.inl (accounted_failed (hends hcalls ?_))
    cases answer with
    | error error' =>
      cases hresult
      exact .sendTo packet _ error
    | ok sent =>
      simp only [Raw.sentResult] at hresult
      split at hresult
      · rename_i hsent
        cases hresult
        exact .short packet _ sent hsent
      · cases hresult
  | unreceived wait written error hkind =>
    obtain ⟨outcome, hreceives, hresult, -⟩ := hserves.received
    cases hreceives with
    | unset error' =>
      cases hresult
      exact Or.inl (accounted_failed (hends rfl (.setReadTimeout _ error hkind)))
    | failed error' =>
      cases hresult
      exact Or.inl (accounted_failed ⟨before, _, [_], _, rfl, .recvFrom error hkind⟩)
    | received bytes source => cases hresult
  | timedOut _ hsent hexpired =>
    rw [← hevents] at hsent hexpired
    exact Or.inl (.timedOut hsent hexpired)
  | @overrun seq start first now length source b hafter hlength =>
    -- a receive that fits the buffer reports no more than it has room for
    obtain ⟨events, wait, written, old, hafter, -, -⟩ := hafter
    obtain ⟨earlier, bytes, rest, rfl, -, -, rfl⟩ := hbefore.packet hafter
    refine Or.inr ⟨rfl, fun hfits => ?_⟩
    have hfit := hfits (.received wait written (.ok (bytes.length, source)),
      [⟨.setReadTimeout (max wait (fromMillis 1)), .ok ()⟩, ⟨.recvFrom, .ok (bytes, source)⟩]) (by simp) bytes source (by simp)
    exact absurd hfit (Nat.not_le.2 hlength)
  | @judged events wait written length source old seq start first second reply _ hafter hduring hsecond hlength hresult =>
    obtain ⟨earlier, bytes, rest, rfl, hrest, hwritten, rfl⟩ := hbefore.packet hafter
    obtain ⟨clock, clock', rfl⟩ := log_of_two hrest
    have hfirst : clock = [⟨.now, first⟩] := hbefore.serves (.clock first, clock) (by simp)
    have hsecond' : clock' = [⟨.now, second⟩] := hbefore.serves (.clock second, clock') (by simp)
    have hlen : written.length = bytes.length := by rw [hwritten, Raw.length_restored]
    obtain ⟨rfl, hparse⟩ := hserves
    rw [old.take_write hlength hlen.ge, ← hlen, List.take_length] at hparse
    rw [← hevents] at hduring
    refine Or.inl (accounted_judged (hlen.trans_le hlength) ⟨⟨earlier, wait, bytes, second, hwritten, hsecond, ?_⟩, hduring.started,
      hduring.sent⟩ hparse hresult)
    rw [hfirst, hsecond', old.take_write hlength hlen.ge, ← hlen, List.take_length]
    simp

/-- Where receives fit their buffer, the result of a run rests on its last event. -/
theorem RawRuns.accounted {p : Probe} {os : TargetOs} (hoptions : p.options.validate = .ok ())
    (hpayload : p.payload.length = p.options.payloadSize) {log : RawLog} {s : State} (h : RawRuns p os log s) (hfits : ReadsFit log)
    {result : Except String Outcome} (hdone : s.point = .done result) : Accounted p os log result :=
  (h.accounted_or hoptions hpayload hdone).resolve_right fun hinvalid => hinvalid.2 hfits

/-- Every result of a probe over a raw socket is accounted for. A latency is that of a datagram that carries the reply to the
request of the current attempt; a negative is that of a datagram that carries an ICMP error about that request, or the last
attempt has expired, or a call failed because the network or the host is unreachable; and an error is that of a call that
failed otherwise. -/
theorem raw_accounted (p : Probe) (os : TargetOs) (hoptions : p.options.validate = .ok ())
    (hpayload : p.payload.length = p.options.payloadSize) (log : RawLog) (s : State) (h : RawRuns p os log s) (hfits : ReadsFit log)
    (result : Except String Outcome) (hdone : s.point = .done result) : Accounted p os log result :=
  h.accounted hoptions hpayload hfits hdone

/-- The sample probe, over a raw socket that delivers the answer like this. -/
def sampleRaw (delivered : Bytes) : RawLog :=
  [(.clock 100, [⟨.now, (100 : Nat)⟩]),
    (.sent ([8, 0, 33, 6, 18, 52, 0, 1] ++ List.replicate 56 7) sampleProbe.target (.ok ()),
      [⟨.sendTo ([8, 0, 33, 6, 18, 52, 0, 1] ++ List.replicate 56 7) sampleProbe.target, .ok 64⟩]),
    (.clock 200, [⟨.now, (200 : Nat)⟩]),
    (.received 999999900 sampleAnswer (.ok (84, sampleProbe.target)),
      [⟨.setReadTimeout (max 999999900 (fromMillis 1)), .ok ()⟩, ⟨.recvFrom, .ok (delivered, sampleProbe.target)⟩]),
    (.clock 5000, [⟨.now, (5000 : Nat)⟩]), (.clock 5001, [⟨.now, (5001 : Nat)⟩]),
    (.judged sampleAnswer sampleProbe.target (sampleProbe.expected 1) (some .echo), [])]

/-- A run over a raw socket that ends with an answer, on every system. -/
theorem runs_sampleRaw (os : TargetOs) (delivered : Bytes) (hlength : delivered.length = 84)
    (hrestored : Raw.restored os delivered sampleProbe.target = sampleAnswer) :
    ∃ s, RawRuns sampleProbe os (sampleRaw delivered) s ∧
      s.point = .done (.ok { latency := some (4900 : Nat), message := "" }) := by
  have hevents : (sampleRaw delivered).map Prod.fst = (sampleRaw []).map Prod.fst := rfl
  have hrun : (sampleProbe.machine.run sampleProbe.init ((sampleRaw []).map Prod.fst)).map State.point =
      some (.done (.ok { latency := some 4900, message := "" })) := by decide +kernel
  rw [← hevents] at hrun
  obtain ⟨s, hs, hpoint⟩ := Option.map_eq_some_iff.1 hrun
  have hreceives : Raw.Receives os 999999900 _ _ := .received delivered sampleProbe.target
  rw [hrestored, hlength] at hreceives
  refine ⟨s, ⟨hs, ?_⟩, hpoint⟩
  simp only [sampleRaw, List.forall_mem_cons]
  refine ⟨rfl, Raw.runs_send.2 ⟨.ok 64, rfl, rfl⟩, rfl, Raw.serves_of_receives hreceives ?_, rfl, rfl, ⟨rfl, ?_⟩, List.forall_mem_nil _⟩
  · intro received h
    cases h
    rfl
  · decide +kernel

theorem raw_accounted_sample :
    Accounted sampleProbe .linux (sampleRaw sampleAnswer) (.ok { latency := some (4900 : Nat), message := "" }) := by
  obtain ⟨s, hruns, hpoint⟩ := runs_sampleRaw .linux sampleAnswer rfl rfl
  have hfits : ReadsFit (sampleRaw sampleAnswer) := by
    simp [ReadsFit, sampleRaw, sampleAnswer]
  exact raw_accounted sampleProbe .linux (by decide) (by decide) (sampleRaw sampleAnswer) s hruns hfits _ hpoint

end IcmpPing
