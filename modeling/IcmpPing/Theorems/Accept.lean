import IcmpPing.Lemmas.Message

/-!
# What the parser accepts

The exact conditions under which a packet answers a request, and under which it rejects one, in terms of the wire formats and
of the bytes of the request.
-/

namespace IcmpPing

open OnesComplement

/-! ## Echo replies -/

/-- A request as the target sends it back: with another type byte and another checksum field. -/
def turnedAround (kind : UInt8) (sum : UInt16) (request : Bytes) : Bytes :=
  [kind] ++ field request 1 2 ++ u16ToBe sum ++ request.drop 4

/-- `message` is the reply to the request of `expected`: the request with the type of a reply, and with a checksum field that
holds the Internet checksum of the reply, or all ones where that checksum is zero. -/
def IsReply (expected : Expected) (message : Bytes) : Prop :=
  ∃ request sum, echo expected.target expected.localAddr expected.id expected.seq expected.payload = .ok request ∧
    message = turnedAround (replyKind expected.target.isIpv6) sum request ∧
    (sum = internetChecksum (covered expected.target expected.localAddr
        (turnedAround (replyKind expected.target.isIpv6) 0 request)) ∨
      (internetChecksum (covered expected.target expected.localAddr
        (turnedAround (replyKind expected.target.isIpv6) 0 request)) = 0 ∧ sum = 0xffff))

theorem turnedAround_requestBytes (kind : UInt8) (sum : UInt16) (target localAddr : IpAddr) (id seq : UInt16)
    (payload : Bytes) :
    turnedAround kind sum (requestBytes target localAddr id seq payload) = echoMessage kind sum id seq payload := rfl

/-- The reply to a request, as an Echo message. -/
theorem isReply_iff {expected : Expected} {message : Bytes} (hlen : message.length ≤ 65535) :
    IsReply expected message ↔
      (∃ sum, message = echoMessage (replyKind expected.target.isIpv6) sum expected.id expected.seq expected.payload) ∧
        Verifies (covered expected.target expected.localAddr message) := by
  constructor
  · rintro ⟨request, sum, hrequest, hmessage, hsum⟩
    obtain rfl := eq_requestBytes_of_echo hrequest
    rw [turnedAround_requestBytes] at hmessage hsum
    obtain rfl := hmessage
    exact ⟨⟨sum, rfl⟩, (verifies_echoMessage_iff ..).2 hsum⟩
  · rintro ⟨⟨sum, rfl⟩, hverifies⟩
    rw [length_echoMessage] at hlen
    refine ⟨_, sum, echo_of_length _ _ _ _ (by omega), (turnedAround_requestBytes ..).symm, ?_⟩
    rw [turnedAround_requestBytes]
    exact (verifies_echoMessage_iff ..).1 hverifies

/-- `parse_message` takes a message for the reply exactly when it comes from the target and is the reply to the request. -/
theorem parseMessage_isReply_iff {expected : Expected} (hfamily : SameFamily expected.target expected.localAddr)
    (source : IpAddr) {message : Bytes} (hlen : message.length ≤ 65535) :
    parseMessage message source expected = .ok (some .echo) ↔ source = expected.target ∧ IsReply expected message := by
  rw [parseMessage_echo_iff, checksumOk_iff hlen, isReply_iff hlen]
  constructor
  · rintro ⟨⟨-, -, hverifies⟩, rfl, hmessage⟩
    exact ⟨rfl, hmessage, hverifies⟩
  · rintro ⟨rfl, hmessage, hverifies⟩
    exact ⟨⟨rfl, hfamily.symm, hverifies⟩, rfl, hmessage⟩

/-- Exact acceptance of Echo replies. `parse` takes a packet for the reply exactly when it comes from the target and carries,
from the target to the local address, the reply to the request; `parse_ping_echo` does so for the bare reply, and never takes
anything for an ICMP error. -/
theorem parse_echo_iff {expected : Expected} (hfamily : SameFamily expected.target expected.localAddr) (source : IpAddr) :
    (∀ bytes : Bytes, bytes.length ≤ 65535 →
      (parse bytes source expected = .ok (some .echo) ↔ source = expected.target ∧
        ∃ message, Carries expected.target expected.localAddr message bytes ∧ IsReply expected message)) ∧
    (∀ message : Bytes, message.length ≤ 65535 →
      (parsePingEcho message source expected = .ok (some .echo) ↔ source = expected.target ∧ IsReply expected message) ∧
      ∀ text, parsePingEcho message source expected ≠ .ok (some (.negative text))) := by
  refine ⟨fun bytes hbytes => ?_, fun message hmessage => ⟨?_, fun text h => ?_⟩⟩
  · rw [parse_some_iff]
    constructor
    · rintro ⟨message, hcarries, h⟩
      obtain ⟨rfl, hreply⟩ := (parseMessage_isReply_iff hfamily source (hcarries.length_le.trans hbytes)).1 h
      exact ⟨rfl, message, hcarries, hreply⟩
    · rintro ⟨rfl, message, hcarries, hreply⟩
      exact ⟨message, hcarries,
        (parseMessage_isReply_iff hfamily _ (hcarries.length_le.trans hbytes)).2 ⟨rfl, hreply⟩⟩
  · rw [parsePingEcho_some_iff, parseMessage_isReply_iff hfamily source hmessage]
    constructor
    · exact And.right
    · rintro ⟨rfl, hreply⟩
      obtain ⟨⟨sum, rfl⟩, -⟩ := (isReply_iff hmessage).1 hreply
      exact ⟨rfl, rfl, hreply⟩
  · obtain ⟨hkind, h⟩ := (parsePingEcho_some_iff ..).1 h
    exact parseMessage_replyKind_ne_negative hkind h

/-- The expectation of a probe of 192.0.2.2 from 192.0.2.1. -/
def sampleExpected : Expected where
  target := .v4 ⟨192, 0, 2, 2⟩
  localAddr := .v4 ⟨192, 0, 2, 1⟩
  id := 0x1234
  seq := 2
  payload := List.replicate 16 7

/-- The datagram that answers the sample request, with two bytes of link padding. -/
def sampleReply : Bytes :=
  [69, 0, 0, 44, 0, 0, 0, 0, 64, 1, 0, 0, 192, 0, 2, 2, 192, 0, 2, 1] ++ [0, 0, 181, 145, 18, 52, 0, 2] ++
    List.replicate 16 7 ++ [0, 0]

theorem parse_echo_iff_sampleReply :
    ∃ message, Carries sampleExpected.target sampleExpected.localAddr message sampleReply ∧ IsReply sampleExpected message :=
  (((parse_echo_iff (by decide) sampleExpected.target).1 sampleReply (by decide)).1 (by decide +kernel)).2

/-! ## ICMP errors -/

/-- `message` is an ICMP error from `source` that quotes the request of `expected`, and `text` is what it means. -/
def IsErrorAbout (expected : Expected) (source : IpAddr) (message : Bytes) (text : String) : Prop :=
  8 ≤ message.length ∧ Verifies (covered source expected.localAddr message) ∧ ∃ cause quoted after request,
    reason expected.target.isIpv6 (byteAt message 0) (byteAt message 1) = some cause ∧
    QuotesPacket expected.localAddr expected.target quoted after (message.drop 8) ∧
    echo expected.target expected.localAddr expected.id expected.seq expected.payload = .ok request ∧
    8 ≤ quoted.length ∧ quoted.length ≤ 8 + expected.payload.length ∧ quoted = request.take quoted.length ∧
    text = withSource cause source

/-- A prefix of a request, by its bytes. -/
theorem prefix_request_iff {expected : Expected} {quoted request : Bytes}
    (hrequest : echo expected.target expected.localAddr expected.id expected.seq expected.payload = .ok request) :
    quoted <+: request ↔ quoted.length ≤ 8 + expected.payload.length ∧ quoted = request.take quoted.length := by
  obtain rfl := eq_requestBytes_of_echo hrequest
  constructor
  · intro h
    have hlen := h.length_le
    rw [requestBytes, length_echoMessage] at hlen
    exact ⟨hlen, List.prefix_iff_eq_take.1 h⟩
  · rintro ⟨-, h⟩
    exact List.prefix_iff_eq_take.2 h

/-- `parse_message` takes a message for an ICMP error exactly when source, local address and target are of one family and it is
an error about the request. -/
theorem parseMessage_isErrorAbout_iff (expected : Expected) (source : IpAddr) {message : Bytes} (hlen : message.length ≤ 65535)
    (text : String) :
    parseMessage message source expected = .ok (some (.negative text)) ↔
      SameFamily source expected.target ∧ SameFamily expected.localAddr expected.target ∧
        IsErrorAbout expected source message text := by
  rw [parseMessage_negative_iff, checksumOk_iff hlen]
  constructor
  · rintro ⟨h8, ⟨hsource, hlocal, hverifies⟩, cause, quoted, after, request, hcause, hquotes, hrequest, hq8, hprefix, htext⟩
    obtain ⟨hqlen, htake⟩ := (prefix_request_iff hrequest).1 hprefix
    exact ⟨hsource, hlocal, h8, hverifies, cause, quoted, after, request, hcause, hquotes, hrequest, hq8, hqlen, htake, htext⟩
  · rintro ⟨hsource, hlocal, h8, hverifies, cause, quoted, after, request, hcause, hquotes, hrequest, hq8, hqlen, htake, htext⟩
    exact ⟨h8, ⟨hsource, hlocal, hverifies⟩, cause, quoted, after, request, hcause, hquotes, hrequest, hq8,
      (prefix_request_iff hrequest).2 ⟨hqlen, htake⟩, htext⟩

/-- Exact acceptance of ICMP errors. `parse` takes a packet for an ICMP error exactly when its source is of the target's family
and it carries, from the source to the local address, an error that quotes the request: its text names the cause and the
source. -/
theorem parse_negative_iff {expected : Expected} (hfamily : SameFamily expected.target expected.localAddr) (source : IpAddr)
    {bytes : Bytes} (hbytes : bytes.length ≤ 65535) (text : String) :
    parse bytes source expected = .ok (some (.negative text)) ↔
      SameFamily source expected.target ∧ ∃ message, Carries source expected.localAddr message bytes ∧
        IsErrorAbout expected source message text := by
  rw [parse_some_iff]
  constructor
  · rintro ⟨message, hcarries, h⟩
    obtain ⟨hsource, -, herror⟩ :=
      (parseMessage_isErrorAbout_iff expected source (hcarries.length_le.trans hbytes) text).1 h
    exact ⟨hsource, message, hcarries, herror⟩
  · rintro ⟨hsource, message, hcarries, herror⟩
    exact ⟨message, hcarries, (parseMessage_isErrorAbout_iff expected source (hcarries.length_le.trans hbytes) text).2
      ⟨hsource, hfamily.symm, herror⟩⟩

/-- The datagram in which the router 192.0.2.3 rejects the sample request, quoting eight bytes of it. -/
def sampleError : Bytes :=
  [69, 0, 0, 56, 0, 0, 0, 0, 64, 1, 0, 0, 192, 0, 2, 3, 192, 0, 2, 1] ++ [3, 1, 44, 5, 0, 0, 0, 0] ++
    [69, 0, 0, 44, 0, 0, 0, 0, 64, 1, 0, 0, 192, 0, 2, 1, 192, 0, 2, 2] ++ [8, 0, 173, 145, 18, 52, 0, 2]

theorem parse_negative_iff_sampleError :
    ∃ message, Carries (.v4 ⟨192, 0, 2, 3⟩) sampleExpected.localAddr message sampleError ∧
      IsErrorAbout sampleExpected (.v4 ⟨192, 0, 2, 3⟩) message "Host unreachable (source=192.0.2.3)" :=
  ((parse_negative_iff (by decide) (.v4 ⟨192, 0, 2, 3⟩) (by decide) _).1 (by decide +kernel)).2

end IcmpPing
