import IcmpPing.Lemmas.Parallel
import IcmpPing.Theorems.Ping
import IcmpPing.Theorems.Queue
import IcmpPing.Theorems.Raw
import IcmpPing.Theorems.Returns

/-!
# The Linux fallback against the raw socket

What a ping socket takes off its queues comes from packets on the wire. A probe over it does what a probe over a raw socket does
with these packets, as long as no error pads its quote: a reply is queued without its IPv4 header, an error as the start of the
request it quotes, and each is judged as the raw socket judges the packet.
-/

namespace IcmpPing

open Probe Ping

/-! ## Packets and what is queued of them -/

/-- A packet on the wire, from a source, of which a ping socket has taken this off one of its queues: a message that is not an ICMP
error, or the record of an ICMP error whose quote ends where the quoted packet does. A record that is not usable stands for an
empty datagram. -/
inductive Queued (p : Probe) : Exchange Syscall.Answer → Bytes → IpAddr → Prop where
  | message (bytes packet : Bytes) (source : IpAddr) (hcarries : Carries source p.localAddr bytes packet)
    (hkind : reason p.target.isIpv6 (byteAt bytes 0) (byteAt bytes 1) = none) (hfits : packet.length ≤ 65535) :
    Queued p ⟨.recvFrom, .ok (bytes, source)⟩ packet source
  | error (record : Record) (error packet : Bytes) (errno : UInt32) (destination source : IpAddr)
    (husable : usable p.target record = some (queueMetadata p.target error errno source, destination))
    (hcarries : Carries source p.localAddr error packet) (hlength : 8 ≤ error.length)
    (hverifies : Verifies (covered source p.localAddr error))
    (hkind : byteAt error 0 ≠ replyKind p.target.isIpv6)
    (hquotes : QuotesPacket p.localAddr destination record.data record.data (error.drop 8)) (hfits : packet.length ≤ 65535) :
    Queued p ⟨.recvmsg, .ok record⟩ packet source
  | unusable (record : Record) (husable : usable p.target record = none) (source : IpAddr) :
    Queued p ⟨.recvmsg, .ok record⟩ [] source

/-- What is read from the error queue fits in the buffer. -/
theorem Queued.length_le {p : Probe} {x : Exchange Syscall.Answer} {packet : Bytes} {source : IpAddr} (h : Queued p x packet source) :
    packet.length ≤ 65535 := by
  cases h with
  | message bytes _ _ hcarries hkind hfits => exact hfits
  | error record error _ errno destination _ husable hcarries hlength hverifies hkind hquotes hfits => exact hfits
  | unusable record husable _ => exact Nat.zero_le _

/-- What follows the headers of a quote is part of it. -/
theorem QuotesPacket.length_le {source target : IpAddr} {quoted after bytes : Bytes}
    (h : QuotesPacket source target quoted after bytes) : after.length ≤ bytes.length := by
  cases source with
  | v4 s =>
    cases target with
    | v6 t => exact h.elim
    | v4 t =>
      obtain ⟨header, -, -, -, rfl, -⟩ := h
      rw [List.length_append]
      exact Nat.le_add_left ..
  | v6 s =>
    cases target with
    | v4 t => exact h.elim
    | v6 t =>
      obtain ⟨header, chain, -, -, -, -, rfl, -⟩ := h
      rw [List.length_append]
      exact Nat.le_add_left ..

/-- A quote holds one packet, whatever it is taken to be addressed to. -/
theorem QuotesPacket.target_eq {source target target' : IpAddr} {quoted quoted' after after' bytes : Bytes}
    (h : QuotesPacket source target quoted after bytes) (h' : QuotesPacket source target' quoted' after' bytes) :
    quoted = quoted' ∧ target = target' := by
  have hfamily : ∀ {target quoted after}, QuotesPacket source target quoted after bytes → SameFamily target source := by
    intro target quoted after h
    cases source <;> cases target <;> first | rfl | exact h.elim
  obtain ⟨hquoted, -, htarget⟩ := h.unique (hfamily h) (hfamily h') ((hfamily h).trans (hfamily h').symm) h'
  exact ⟨hquoted, htarget⟩

/-- The addresses of a packet are of one family. -/
theorem Carries.sameFamily {source target : IpAddr} {message packet : Bytes} (h : Carries source target message packet) :
    SameFamily source target := by
  cases source <;> cases target <;> first | rfl | exact h.elim

section Judged

variable {p : Probe} {e : Expected} (htarget : e.target = p.target) (hlocal : e.localAddr = p.localAddr)
  (hpayload : e.payload.length ≤ 65527)

include htarget hlocal hpayload

/-- A packet that carries no ICMP error is parsed to what is made of its message. -/
theorem parse_of_parsePingEcho {bytes packet : Bytes} {source : IpAddr} {reply : Option Reply}
    (hcarries : Carries source p.localAddr bytes packet)
    (hkind : reason p.target.isIpv6 (byteAt bytes 0) (byteAt bytes 1) = none) (hfits : packet.length ≤ 65535)
    (h : parsePingEcho bytes source e = .ok reply) : parse packet source e = .ok reply := by
  rw [← hlocal] at hcarries
  rw [← htarget] at hkind
  cases reply with
  | some reply => exact (parse_some_iff ..).2 ⟨bytes, hcarries, ((parsePingEcho_some_iff ..).1 h).2⟩
  | none =>
    obtain ⟨reply, hparse⟩ := parse_returns source hfits hpayload
    cases reply with
    | none => exact hparse
    | some reply =>
      obtain ⟨message, hmessage, haccepts⟩ := (parse_some_iff ..).1 hparse
      obtain rfl := (hcarries.unique hmessage).1
      cases reply with
      | echo =>
        have hhead : bytes.head? = some (replyKind e.target.isIpv6) := by
          obtain ⟨-, -, sum, rfl⟩ := (parseMessage_echo_iff ..).1 haccepts
          rfl
        rw [(parsePingEcho_some_iff ..).2 ⟨hhead, haccepts⟩] at h
        cases h
      | negative text =>
        obtain ⟨-, -, cause, -, -, -, hcause, -⟩ := (parseMessage_negative_iff ..).1 haccepts
        rw [hkind] at hcause
        cases hcause

/-- The packet of an error is parsed to what is made of its record. -/
theorem parse_of_parseError {error packet data : Bytes} {errno : UInt32} {destination source : IpAddr} {reply : Option Reply}
    (hcarries : Carries source p.localAddr error packet) (hlength : 8 ≤ error.length)
    (hverifies : Verifies (covered source p.localAddr error))
    (hkind : byteAt error 0 ≠ replyKind p.target.isIpv6)
    (hquotes : QuotesPacket p.localAddr destination data data (error.drop 8)) (hfits : packet.length ≤ 65535)
    (h : parseError data destination (queueMetadata p.target error errno source) e = .ok reply) :
    parse packet source e = .ok reply := by
  rw [← hlocal] at hcarries hverifies hquotes
  rw [← htarget] at hkind h
  have hreason : errorCause e.target (queueMetadata e.target error errno source) =
      reason e.target.isIpv6 (byteAt error 0) (byteAt error 1) := if_pos rfl
  cases reply with
  | some reply =>
    obtain ⟨rfl, h8, request, cause, hrequest, hprefix, hcause, rfl⟩ := (parseError_some_iff ..).1 h
    have hsame : SameFamily e.localAddr e.target := by
      obtain ⟨target, localAddr, id, seq, payload⟩ := e
      cases target <;> cases localAddr <;> first | rfl | exact hquotes.elim
    have hsum := (checksumOk_iff (hcarries.length_le.trans hfits)).2 ⟨hcarries.sameFamily.trans hsame, hsame, hverifies⟩
    exact (parse_some_iff ..).2 ⟨error, hcarries, (parseMessage_negative_iff ..).2
      ⟨hlength, hsum, cause, data, data, request, hreason.symm.trans hcause, hquotes, hrequest, h8, hprefix, rfl⟩⟩
  | none =>
    obtain ⟨reply, hparse⟩ := parse_returns source hfits hpayload
    cases reply with
    | none => exact hparse
    | some reply =>
      obtain ⟨message, hmessage, haccepts⟩ := (parse_some_iff ..).1 hparse
      obtain rfl := (hcarries.unique hmessage).1
      cases reply with
      | echo =>
        obtain ⟨-, -, sum, rfl⟩ := (parseMessage_echo_iff ..).1 haccepts
        exact absurd rfl hkind
      | negative text =>
        obtain ⟨-, -, cause, quoted, after, request, hcause, hquotes', hrequest, h8, hprefix, rfl⟩ :=
          (parseMessage_negative_iff ..).1 haccepts
        obtain ⟨rfl, rfl⟩ := hquotes.target_eq hquotes'
        rw [(parseError_some_iff ..).2 ⟨rfl, h8, request, cause, hrequest, hprefix, hreason.trans hcause, rfl⟩] at h
        cases h

end Judged

/-! ## Runs -/

/-- The probe over a raw socket whose leased identifier is that of the ping socket. -/
def Probe.privileged (p : Probe) (ping : Ping) : Probe := { p with leased := ping.id }

/-- The privileged probe asks for the same. -/
theorem alike_privileged (p : Probe) (ping : Ping) : Probe.Alike (p.over ping) (p.privileged ping).overRaw :=
  ⟨rfl, rfl, rfl, rfl, rfl⟩

/-- The same event; and where a raw socket receives a packet, the ping socket has taken it off one of its queues. -/
def Follows (p : Probe) (entry entry' : Event × List (Exchange Syscall.Answer)) : Prop :=
  entry.1.Alike entry'.1 ∧ ∀ packet source, (⟨.recvFrom, .ok (packet, source)⟩ : Exchange Syscall.Answer) ∈ entry'.2 →
    ∃ x ∈ entry.2, Queued p x packet source

/-- What a receive has taken off the queues comes from packets on the wire. -/
def ComesFromWire (p : Probe) : Event → List (Exchange Syscall.Answer) → Prop
  | .received .., calls => ∀ x ∈ calls, Consumes x → ∃ packet source, Queued p x packet source
  | _, _ => True

/-- What the two sockets make of a packet. -/
theorem judgedAlike_of_queued {p : Probe} (ping : Ping) {ping₂ : Ping} (htarget : ping₂.target = p.target)
    (hpayload : p.payload.length ≤ 65527) {x : Exchange Syscall.Answer} {event : Received} {packet : Bytes} {source : IpAddr}
    (hdelivers : Delivers ping₂ x event) (h : Queued p x packet source) :
    event.length ≤ event.written.length ∧ event.length ≤ 65535 ∧
      JudgedAlike (p.over ping) ping₂.parseReply (event.written.take event.length) event.source packet source := by
  cases hdelivers with
  | data bytes _ herror =>
    cases h with
    | message _ _ _ hcarries hkind hfits =>
      refine ⟨Nat.le_refl _, hcarries.length_le.trans hfits, fun seq reply hjudge => ?_⟩
      rw [List.take_length, parseReply, herror] at hjudge
      exact parse_of_parsePingEcho (p := p) rfl rfl hpayload hcarries hkind hfits hjudge
  | record record held event hrecord =>
    have hfound := hrecord.usable
    rw [htarget] at hfound
    cases h with
    | error _ error _ errno destination _ husable hcarries hlength hverifies hkind hquotes hfits =>
      rw [hfound] at husable
      obtain ⟨rfl, rfl⟩ := Prod.mk.inj (Option.some.inj husable)
      have hdata := hquotes.length_le
      have hdrop : (error.drop 8).length ≤ error.length := by
        rw [List.length_drop]
        exact Nat.sub_le _ _
      have hmessage := hcarries.length_le
      refine ⟨by rw [hrecord.length, hrecord.written], by rw [hrecord.length]; omega, fun seq reply hjudge => ?_⟩
      rw [hrecord.length, hrecord.written, List.take_length, parseReply, hrecord.held] at hjudge
      exact parse_of_parseError (p := p) rfl rfl hpayload hcarries hlength hverifies hkind hquotes hfits hjudge
    | unusable _ husable _ =>
      rw [hfound] at husable
      cases husable
  | ignored record event hunusable herror hlength =>
    rw [htarget] at hunusable
    cases h with
    | error _ error _ errno destination _ husable hcarries _ hverifies hkind hquotes hfits =>
      rw [hunusable] at husable
      cases husable
    | unusable _ _ _ =>
      refine ⟨by omega, by omega, fun seq reply hjudge => ?_⟩
      -- neither socket makes anything of no bytes
      rw [hlength, List.take_zero, parseReply, herror] at hjudge
      have hnone : ∀ e : Expected, parsePingEcho [] event.source e = .ok none := fun e => rfl
      rw [hnone] at hjudge
      rw [← hjudge]
      unfold parse
      split <;> rfl

/-- A send, and a receive that fails, leave no packet to be judged. -/
theorem clear_of_moves {p : Probe} {s s' : State} {e : Event} (hmoves : Moves p s e s')
    (he : (∃ packet target result, e = .sent packet target result) ∨ ∃ wait written error, e = .received wait written (.error error)) :
    s'.point.Clear := by
  rcases he with ⟨packet, target, result, rfl⟩ | ⟨wait, written, error, rfl⟩
  · cases hmoves <;> exact trivial
  · cases hmoves with
    | timedOut => exact clear_nextAttempt ..
    | interrupted => exact trivial
    | receiveFailed => exact trivial

/-- A step over the ping socket, and the step over the raw one. -/
theorem fallback_step {p : Probe} {ping ping₁ ping₂ : Ping} (htarget : ping₂.target = p.target) (hpayload : p.payload.length ≤ 65527)
    {s s' t : State} {e : Event} {calls : List (Exchange Syscall.Answer)} (hbeside : Beside (p.over ping) ping₁.parseReply s t)
    (hmoves : Moves (p.over ping) s e s') (hserves : ping₁.Serves calls ping₂ e) (hwire : ComesFromWire p e calls) :
    ∃ e' calls' t', Moves (p.privileged ping).overRaw t e' t' ∧ Raw.Serves .linux calls' e' ∧
      Beside (p.over ping) ping₂.parseReply s' t' ∧ Follows p (e, calls) (e', calls') := by
  have halike := alike_privileged p ping
  cases e with
  | clock now =>
    obtain ⟨rfl, rfl⟩ := hserves
    obtain ⟨t', ht, hbeside'⟩ := hbeside.common halike hmoves trivial
    exact ⟨_, [⟨.now, now⟩], t', ht, rfl, hbeside', .common _ trivial, by simp⟩
  | sent packet target result =>
    obtain ⟨t', ht, hbeside'⟩ := hbeside.common halike hmoves trivial
    have hclear := clear_of_moves hmoves (Or.inl ⟨packet, target, result, rfl⟩)
    cases result with
    | ok value =>
      have hserves' : Raw.Serves .linux [⟨.sendTo packet target, .ok packet.length⟩] (.sent packet target (.ok ())) :=
        Raw.runs_send.2 ⟨.ok packet.length, rfl, by rw [Raw.sentResult, if_neg (not_not.2 rfl)]⟩
      exact ⟨_, _, t', ht, hserves', hbeside'.rejudge hclear _, .common _ trivial, by simp⟩
    | error error =>
      have hserves' : Raw.Serves .linux [⟨.sendTo packet target, .error error⟩] (.sent packet target (.error error)) :=
        Raw.runs_send.2 ⟨.error error, rfl, rfl⟩
      exact ⟨_, _, t', ht, hserves', hbeside'.rejudge hclear _, .common _ trivial, by simp⟩
  | received wait written result =>
    obtain ⟨outcome, hruns, rfl, hwritten⟩ := hserves
    cases outcome with
    | error error =>
      obtain ⟨t', ht, hbeside'⟩ := hbeside.common halike hmoves trivial
      have hclear := clear_of_moves hmoves (Or.inr ⟨wait, written, error, rfl⟩)
      have hreceives : Raw.Receives .linux wait _ _ := .failed error
      have hserves' : Raw.Serves .linux _ (.received wait written (.error error)) :=
        Raw.serves_of_receives hreceives fun _ h => by cases h
      exact ⟨_, _, t', ht, hserves', hbeside'.rejudge hclear _, .common _ trivial, by simp⟩
    | ok event =>
      obtain rfl : written = event.written := hwritten
      obtain ⟨before, last, rfl, -, hdelivers⟩ := hruns.accounts
      have hlast : last ∈ before ++ [last] := List.mem_append_right _ (List.mem_singleton_self _)
      have hconsumes : Consumes last := by cases hdelivers <;> exact trivial
      obtain ⟨packet, source, hqueued⟩ := hwire last hlast hconsumes
      obtain ⟨hlength, hbound, hjudged⟩ := judgedAlike_of_queued ping htarget hpayload hdelivers hqueued
      obtain ⟨t', ht, hbeside'⟩ := hbeside.received (q := (p.privileged ping).overRaw) hmoves ping₂.parseReply packet packet.length
        source (iff_of_true hbound hqueued.length_le) hlength (Nat.le_refl _) fun _ => by
          rw [List.take_length]
          exact hjudged
      have hreceives : Raw.Receives .linux wait _ _ := .received packet source
      have hserves' := Raw.serves_of_receives hreceives fun received h => congrArg Received.written (Except.ok.inj h)
      refine ⟨_, _, t', ht, hserves', hbeside', .received .., fun packet' source' hmem => ⟨last, hlast, ?_⟩⟩
      simp only [List.mem_cons, List.not_mem_nil, or_false] at hmem
      rcases hmem with hmem | hmem
      · cases hmem
      · cases hmem
        exact hqueued
  | judged bytes source expected reply =>
    obtain ⟨rfl, rfl, hparse⟩ := hserves
    obtain ⟨bytes', source', t', ht, hparse', hbeside'⟩ := hbeside.judged halike hmoves hparse
    exact ⟨_, [], t', ht, ⟨rfl, hparse'⟩, hbeside', .judged .., by simp⟩

/-- A run over the ping socket, and the run over the raw one. -/
theorem PingRuns.privileged {p : Probe} {ping ping' : Ping} (htarget : ping.target = p.target) (hpayload : p.payload.length ≤ 65527)
    {log : PingLog} {s : State} (h : PingRuns p ping log s ping') (hwire : ∀ entry ∈ log, ComesFromWire p entry.1 entry.2) :
    ping'.socket = ping.socket ∧ ∃ log' t, RawRuns (p.privileged ping) .linux log' t ∧
      Beside (p.over ping) ping'.parseReply s t ∧ List.Forall₂ (Follows p) log log' := by
  induction h with
  | start =>
    have hbeside := (alike_privileged p ping).beside_init ping.parseReply
    exact ⟨rfl, [], (p.privileged ping).overRaw.init, ⟨rfl, List.forall_mem_nil _⟩, hbeside, .nil⟩
  | step e calls hrun hstep hserves ih =>
    obtain ⟨hsocket, log', t, hruns, hbeside, hfollows⟩ := ih fun entry hentry => hwire entry (List.mem_append_left _ hentry)
    have hsame := hserves.socket_eq.trans hsocket
    have hlast : ComesFromWire p e calls := hwire (e, calls) (List.mem_append_right _ (List.mem_singleton_self _))
    have htarget₂ := (congrArg Prod.snd hsame).trans htarget
    obtain ⟨e', calls', t', ht, hserves', hbeside', hentry⟩ :=
      fallback_step htarget₂ hpayload hbeside (moves_of_step hstep) hserves hlast
    exact ⟨hsame, log' ++ [(e', calls')], t', hruns.snoc ht hserves', hbeside', List.rel_append hfollows (.cons hentry .nil)⟩

/-- An unprivileged probe on Linux agrees with a privileged one. Where everything that the receives of a ping socket have taken off
its queues comes from packets on the wire, with no quote padded, there is a run over a raw socket with the same identifier that has
received these packets, with the same readings of the clock, the same requests, the same errors and the same judgements; and one of
the two has a result exactly when the other has it. -/
theorem fallback_agrees (p : Probe) (ping ping' : Ping) (htarget : ping.target = p.target) (log : PingLog) (s : State)
    (h : PingRuns p ping log s ping') (hwire : ∀ entry ∈ log, ComesFromWire p entry.1 entry.2) :
    ∃ log' s', RawRuns (p.privileged ping) .linux log' s' ∧ List.Forall₂ (Follows p) log log' ∧
      ∀ result, s.point = .done result ↔ s'.point = .done result := by
  by_cases hvalid : p.options.validate = .ok () ∧ p.payload.length = p.options.payloadSize
  · obtain ⟨hoptions, hpayload⟩ := hvalid
    obtain ⟨-, -, -, -, -, hsize⟩ := validate_bounds hoptions
    obtain ⟨-, log', t, hruns, hbeside, hfollows⟩ := h.privileged htarget (by omega) hwire
    exact ⟨log', t, hruns, hfollows, fun result => hbeside.done_iff result⟩
  · -- arguments that fail a check end the call before anything is received
    obtain ⟨text, hinit⟩ := init_of_invalid (p := p.over ping) hvalid
    obtain rfl := List.map_eq_nil_iff.1 (run_done hinit h.runs)
    have hruns := h.runs
    rw [List.map_nil, Runs] at hruns
    cases hruns
    exact ⟨[], (p.privileged ping).overRaw.init, ⟨rfl, List.forall_mem_nil _⟩, .nil,
      fun result => ((alike_privileged p ping).beside_init ping.parseReply).done_iff result⟩

/-- An error from the router 192.0.2.3 about the first request of the sample probe. -/
def sampleQueuedError : Bytes := [3, 1, 184, 145, 0, 0, 0, 0] ++ sampleRequestHeader.encode ++ sampleRequest.take 8

theorem fallback_agrees_sample : ∃ log' s', RawRuns (sampleProbe.privileged samplePing) .linux log' s' ∧
    List.Forall₂ (Follows sampleProbe) sampleQueuedLog log' ∧
    s'.point = .done (.ok (.negative "Host unreachable (source=192.0.2.3)")) := by
  obtain ⟨s, hruns, hpoint⟩ := pingRuns_sampleQueuedLog
  have hqueued : Queued sampleProbe ⟨.recvmsg, .ok sampleQueuedRecord⟩ ((sampleRouterHeader 56).encode ++ sampleQueuedError)
      (.v4 ⟨192, 0, 2, 3⟩) :=
    .error sampleQueuedRecord sampleQueuedError _ 113 sampleProbe.target _ (by decide)
      ⟨sampleRouterHeader 56, [], rfl, rfl, rfl, rfl⟩ (by decide) ⟨by decide, by decide⟩ (by decide)
      ⟨sampleRequestHeader, rfl, rfl, by decide, rfl, rfl⟩ (by decide)
  have hwire : ∀ entry ∈ sampleQueuedLog, ComesFromWire sampleProbe entry.1 entry.2 := by
    simp only [sampleQueuedLog, List.forall_mem_cons]
    refine ⟨trivial, trivial, trivial, fun x hx hconsumes => ?_, trivial, trivial, trivial, List.forall_mem_nil _⟩
    simp only [List.mem_cons, List.not_mem_nil, or_false] at hx
    rcases hx with rfl | rfl | rfl
    · exact hconsumes.elim
    · exact hconsumes.elim
    · exact ⟨_, _, hqueued⟩
  obtain ⟨log', s', hruns', hfollows, hiff⟩ := fallback_agrees sampleProbe samplePing sampleHeld rfl sampleQueuedLog s hruns hwire
  exact ⟨log', s', hruns', hfollows, (hiff _).1 hpoint⟩

end IcmpPing
