import IcmpPing.Lemmas.Queue
import IcmpPing.Theorems.Accept

/-!
# The error queue against the raw socket

`parse_message` cuts the packet an error quotes at the length that packet declares; `parse_error` gets everything the error
holds after the quoted headers. Where nothing follows the quoted packet the two agree; where something does, `parse_error` takes
it for payload.
-/

namespace IcmpPing

/-- What the queue tells of an ICMP error from a source: its type and code, and the source as the offender. -/
def queueMetadata (target : IpAddr) (error : Bytes) (errno : UInt32) (source : IpAddr) : ExtendedError where
  origin := originIcmp target.isIpv4
  kind := byteAt error 0
  code := byteAt error 1
  errno := errno
  offender := some source

/-- The quoted ICMP part is where the bytes after the quoted headers start. -/
theorem QuotesPacket.quoted_prefix {source target : IpAddr} {quoted after bytes : Bytes}
    (h : QuotesPacket source target quoted after bytes) : quoted <+: after := by
  cases source with
  | v4 source =>
    cases target with
    | v4 target =>
      obtain ⟨header, -, -, -, -, rfl⟩ := h
      exact List.take_prefix _ _
    | v6 target => exact h.elim
  | v6 source =>
    cases target with
    | v4 target => exact h.elim
    | v6 target =>
      obtain ⟨header, chain, -, -, -, -, -, rfl⟩ := h
      exact List.take_prefix _ _

/-- What is left of a request past its header is what is left of its payload. -/
theorem drop_request {expected : Expected} {request : Bytes} {n : Nat} (hn : 8 ≤ n)
    (hrequest : echo expected.target expected.localAddr expected.id expected.seq expected.payload = .ok request) :
    request.drop n = expected.payload.drop (n - 8) := by
  obtain rfl := eq_requestBytes_of_echo hrequest
  obtain ⟨m, rfl⟩ := Nat.exists_eq_add_of_le hn
  rw [← List.drop_drop, Nat.add_sub_cancel_left]
  rfl

/-- A sequence that starts with a prefix of another is a prefix of it when the rest continues it. -/
theorem prefix_iff_drop_prefix {quoted after request : Bytes} (hafter : quoted <+: after) (hrequest : quoted <+: request) :
    after <+: request ↔ after.drop quoted.length <+: request.drop quoted.length := by
  obtain ⟨rest, rfl⟩ := hafter
  obtain ⟨tail, rfl⟩ := hrequest
  rw [List.drop_left, List.drop_left, List.prefix_append_right_inj]

/-- Where the raw path reports an ICMP error, the queue path reports it, with the same text, exactly when what follows the end
the quoted packet declares continues the payload of the request. -/
theorem parseError_iff_of_parse {expected : Expected} {source : IpAddr} {error packet quoted after : Bytes} {text : String}
    (hcarries : Carries source expected.localAddr error packet)
    (hraw : parse packet source expected = .ok (some (.negative text)))
    (hquotes : QuotesPacket expected.localAddr expected.target quoted after (error.drop 8)) (errno : UInt32) :
    parseError after expected.target (queueMetadata expected.target error errno source) expected =
        .ok (some (.negative text)) ↔
      after.drop quoted.length <+: expected.payload.drop (quoted.length - 8) := by
  obtain ⟨message, hmessage, hraw⟩ := (parse_some_iff ..).1 hraw
  obtain rfl := (hcarries.unique hmessage).1
  obtain ⟨-, hsum, cause, quoted', after', request, hcause, hquotes', hrequest, h8, hprefix, rfl⟩ :=
    (parseMessage_negative_iff ..).1 hraw
  obtain ⟨rfl, -⟩ := hquotes.unique hsum.2.1.symm hsum.2.1.symm rfl hquotes'
  have hreason : errorCause expected.target (queueMetadata expected.target error errno source) = some cause :=
    (if_pos rfl).trans hcause
  rw [parseError_some_iff, ← drop_request h8 hrequest, ← prefix_iff_drop_prefix hquotes.quoted_prefix hprefix]
  constructor
  · rintro ⟨-, -, request', cause', hrequest', hafter, -⟩
    rw [hrequest] at hrequest'
    cases hrequest'
    exact hafter
  · intro hafter
    have hlen := hquotes.quoted_prefix.length_le
    exact ⟨rfl, by omega, request, cause, hrequest, hafter, hreason, rfl⟩

/-- The outer header of the sample errors: from the router 192.0.2.3. -/
def sampleRouterHeader (length : UInt16) : Ipv4Header where
  tos := 0
  totalLength := length
  identification := 0
  reserved := false
  dontFragment := false
  ttl := 64
  headerChecksum := 0
  source := ⟨192, 0, 2, 3⟩
  target := ⟨192, 0, 2, 1⟩
  options := []
  options_words := rfl
  options_le := Nat.zero_le _

/-- The header of the sample request, which declares a request of 24 bytes. -/
def sampleRequestHeader : Ipv4Header :=
  { sampleRouterHeader 44 with source := ⟨192, 0, 2, 1⟩, target := ⟨192, 0, 2, 2⟩ }

/-- The first eight bytes of the sample request. -/
def sampleRequestStart : Bytes := [8, 0, 173, 145, 18, 52, 0, 2]

/-- An error whose quote stops after eight bytes of the request: nothing follows it. -/
def sampleShortError : Bytes := [3, 1, 44, 5, 0, 0, 0, 0] ++ sampleRequestHeader.encode ++ sampleRequestStart

theorem parseError_iff_of_parse_sampleShortError :
    parseError sampleRequestStart sampleExpected.target
        (queueMetadata sampleExpected.target sampleShortError 113 (.v4 ⟨192, 0, 2, 3⟩)) sampleExpected =
      .ok (some (.negative "Host unreachable (source=192.0.2.3)")) :=
  (parseError_iff_of_parse
    (show Carries (.v4 ⟨192, 0, 2, 3⟩) sampleExpected.localAddr sampleShortError
      ((sampleRouterHeader 56).encode ++ sampleShortError) from ⟨sampleRouterHeader 56, [], rfl, rfl, rfl, rfl⟩)
    (by decide +kernel)
    (show QuotesPacket sampleExpected.localAddr sampleExpected.target sampleRequestStart sampleRequestStart
      (sampleShortError.drop 8) from ⟨sampleRequestHeader, rfl, rfl, by decide, rfl, rfl⟩) 113).2 (by decide)

/-- An error that quotes the whole request and pads the quote with four bytes. -/
def samplePaddedError : Bytes :=
  [3, 1, 243, 204, 0, 0, 0, 0] ++ sampleRequestHeader.encode ++ (sampleRequestStart ++ List.replicate 16 7) ++ [0, 0, 0, 0]

/-- The queue path misses an error that the raw path reports: one that pads its quote of the request. -/
theorem parseError_misses_padded_error :
    ¬∀ (expected : Expected) (source : IpAddr) (error packet quoted after : Bytes) (text : String) (errno : UInt32),
      SameFamily expected.target expected.localAddr → expected.payload.length ≤ 1200 →
      Carries source expected.localAddr error packet → parse packet source expected = .ok (some (.negative text)) →
      QuotesPacket expected.localAddr expected.target quoted after (error.drop 8) →
      parseError after expected.target (queueMetadata expected.target error errno source) expected =
        .ok (some (.negative text)) := by
  intro h
  have hmissed := h sampleExpected (.v4 ⟨192, 0, 2, 3⟩) samplePaddedError ((sampleRouterHeader 76).encode ++ samplePaddedError)
    (sampleRequestStart ++ List.replicate 16 7) (sampleRequestStart ++ List.replicate 16 7 ++ [0, 0, 0, 0])
    "Host unreachable (source=192.0.2.3)" 113 (by decide) (by decide)
    ⟨sampleRouterHeader 76, [], rfl, rfl, rfl, rfl⟩ (by decide +kernel)
    ⟨sampleRequestHeader, rfl, rfl, by decide, rfl, rfl⟩
  exact absurd hmissed (by decide +kernel)

end IcmpPing
