import IcmpPing.Lemmas.Queue
import IcmpPing.Theorems.Accept

/-!
# One packet, one request

Two probes that accept one packet, or one record of the error queue, expect the same target, identifier and sequence number.
-/

namespace IcmpPing

/-- `quoted` is the start of the request of `expected`: at least its header. -/
def BeginsRequest (quoted : Bytes) (expected : Expected) : Prop :=
  ∃ request, echo expected.target expected.localAddr expected.id expected.seq expected.payload = .ok request ∧
    8 ≤ quoted.length ∧ quoted <+: request

/-- The start of a request shows its identifier, its sequence number, its checksum and the start of its payload. -/
theorem BeginsRequest.fields {quoted : Bytes} {expected : Expected} (h : BeginsRequest quoted expected) :
    byteAt quoted 0 = requestKind expected.target.isIpv6 ∧ HasEcho quoted expected.id expected.seq ∧
      quoted.drop 8 <+: expected.payload ∧ ∃ request,
        echo expected.target expected.localAddr expected.id expected.seq expected.payload = .ok request ∧
          field quoted 2 4 = field request 2 4 := by
  obtain ⟨request, hrequest, hprefix⟩ := h
  obtain rfl := eq_requestBytes_of_echo hrequest
  obtain ⟨hkind, -, hecho, hsum, hpayload⟩ := (prefix_echoMessage_iff ..).1 hprefix
  exact ⟨hkind, hecho, hpayload, _, hrequest, hsum⟩

/-- Two requests have the same checksum, and the bytes quoted past their headers start the payload of each. -/
def ShareQuote (quoted : Bytes) (e₁ e₂ : Expected) : Prop :=
  (∃ request₁ request₂, echo e₁.target e₁.localAddr e₁.id e₁.seq e₁.payload = .ok request₁ ∧
    echo e₂.target e₂.localAddr e₂.id e₂.seq e₂.payload = .ok request₂ ∧ field request₁ 2 4 = field request₂ 2 4) ∧
  quoted.drop 8 <+: e₁.payload ∧ quoted.drop 8 <+: e₂.payload

/-- Two requests that start with the same bytes. -/
theorem BeginsRequest.unique {quoted : Bytes} {e₁ e₂ : Expected} (h₁ : BeginsRequest quoted e₁)
    (h₂ : BeginsRequest quoted e₂) : e₁.id = e₂.id ∧ e₁.seq = e₂.seq ∧ ShareQuote quoted e₁ e₂ := by
  obtain ⟨-, hecho₁, hpayload₁, request₁, hrequest₁, hsum₁⟩ := h₁.fields
  obtain ⟨-, hecho₂, hpayload₂, request₂, hrequest₂, hsum₂⟩ := h₂.fields
  obtain ⟨hid, hseq⟩ := hecho₁.unique hecho₂
  exact ⟨hid, hseq, ⟨request₁, request₂, hrequest₁, hrequest₂, hsum₁.symm.trans hsum₂⟩, hpayload₁, hpayload₂⟩

/-! ## What an accepted packet is -/

/-- The message is the reply of the target to the request. -/
def Answers (message : Bytes) (source : IpAddr) (expected : Expected) : Prop :=
  source = expected.target ∧ byteAt message 0 = replyKind expected.target.isIpv6 ∧
    HasEcho message expected.id expected.seq ∧ message.drop 8 = expected.payload

/-- The message is an ICMP error, for this cause, that quotes `quoted`, the start of the request. -/
def Rejects (message quoted : Bytes) (expected : Expected) (cause : String) : Prop :=
  reason expected.target.isIpv6 (byteAt message 0) (byteAt message 1) = some cause ∧
    (∃ after, QuotesPacket expected.localAddr expected.target quoted after (message.drop 8)) ∧ BeginsRequest quoted expected

/-- An accepted packet is of the family of the expectation, and carries the reply to the request or an error about it. -/
theorem parse_some_cases {bytes : Bytes} {source : IpAddr} {expected : Expected} {reply : Reply}
    (h : parse bytes source expected = .ok (some reply)) :
    SameFamily source expected.target ∧ SameFamily expected.target expected.localAddr ∧
      ∃ message, 8 ≤ message.length ∧ Carries source expected.localAddr message bytes ∧
        ((reply = .echo ∧ Answers message source expected) ∨
          ∃ quoted cause, reply = .negative (withSource cause source) ∧ Rejects message quoted expected cause) := by
  obtain ⟨message, hcarries, h⟩ := (parse_some_iff ..).1 h
  obtain ⟨hlen, hsource, hlocal, -⟩ := parseMessage_some h
  refine ⟨hsource, hlocal.symm, message, hlen, hcarries, ?_⟩
  cases reply with
  | echo =>
    obtain ⟨-, hsource, hmessage⟩ := (parseMessage_echo_iff ..).1 h
    obtain ⟨hkind, -, hecho, hpayload⟩ := (eq_echoMessage_iff ..).1 hmessage
    exact Or.inl ⟨rfl, hsource, hkind, hecho, hpayload⟩
  | negative text =>
    obtain ⟨-, -, cause, quoted, after, request, hcause, hquotes, hrequest, h8, hprefix, rfl⟩ :=
      (parseMessage_negative_iff ..).1 h
    exact Or.inr ⟨quoted, cause, rfl, hcause, ⟨after, hquotes⟩, request, hrequest, h8, hprefix⟩

/-- A reply is not an error. -/
theorem Answers.not_rejects {message quoted : Bytes} {source : IpAddr} {e₁ e₂ : Expected} {cause : String}
    (htarget : SameFamily e₁.target e₂.target) (h₁ : Answers message source e₁) : ¬Rejects message quoted e₂ cause := by
  rintro ⟨hcause, -⟩
  rw [h₁.2.1, htarget.isIpv6_eq, reason_replyKind] at hcause
  cases hcause

/-! ## Two expectations and one packet -/

/-- What two accepted readings of one packet have in common. -/
theorem parse_unique {bytes : Bytes} {source : IpAddr} {e₁ e₂ : Expected} {reply₁ reply₂ : Reply}
    (h₁ : parse bytes source e₁ = .ok (some reply₁)) (h₂ : parse bytes source e₂ = .ok (some reply₂)) :
    e₁.target = e₂.target ∧ e₁.id = e₂.id ∧ e₁.seq = e₂.seq ∧ (e₁.target.isIpv4 = true → e₁.localAddr = e₂.localAddr) ∧
      ((reply₁ = .echo ∧ reply₂ = .echo ∧ e₁.payload = e₂.payload) ∨
        ∃ text message quoted after, reply₁ = .negative text ∧ reply₂ = .negative text ∧
          Carries source e₁.localAddr message bytes ∧
          QuotesPacket e₁.localAddr e₁.target quoted after (message.drop 8) ∧ ShareQuote quoted e₁ e₂) := by
  obtain ⟨hsource₁, hfamily₁, message, -, hcarries₁, hcases₁⟩ := parse_some_cases h₁
  obtain ⟨hsource₂, hfamily₂, message₂, -, hcarries₂, hcases₂⟩ := parse_some_cases h₂
  obtain ⟨rfl, hlocal⟩ := hcarries₁.unique hcarries₂
  have htarget : SameFamily e₁.target e₂.target := hsource₁.symm.trans hsource₂
  have hlocal' : e₁.target.isIpv4 = true → e₁.localAddr = e₂.localAddr := by
    intro hv4
    refine hlocal ?_
    rw [isIpv4_eq_not, hsource₁.isIpv6_eq, ← isIpv4_eq_not]
    exact hv4
  rcases hcases₁ with ⟨rfl, hanswers₁⟩ | ⟨quoted, cause₁, rfl, hrejects₁⟩
  · rcases hcases₂ with ⟨rfl, hanswers₂⟩ | ⟨quoted₂, cause₂, rfl, hrejects₂⟩
    · obtain ⟨hid, hseq⟩ := hanswers₁.2.2.1.unique hanswers₂.2.2.1
      exact ⟨hanswers₁.1.symm.trans hanswers₂.1, hid, hseq, hlocal',
        Or.inl ⟨rfl, rfl, hanswers₁.2.2.2.symm.trans hanswers₂.2.2.2⟩⟩
    · exact absurd hrejects₂ (hanswers₁.not_rejects htarget)
  · rcases hcases₂ with ⟨rfl, hanswers₂⟩ | ⟨quoted₂, cause₂, rfl, hrejects₂⟩
    · exact absurd hrejects₁ (hanswers₂.not_rejects htarget.symm)
    · obtain ⟨hcause₁, ⟨after, hquotes₁⟩, hbegins₁⟩ := hrejects₁
      obtain ⟨hcause₂, ⟨after₂, hquotes₂⟩, hbegins₂⟩ := hrejects₂
      obtain ⟨rfl, -, heq⟩ := hquotes₁.unique hfamily₁ hfamily₂ htarget hquotes₂
      obtain ⟨hid, hseq, hshare⟩ := hbegins₁.unique hbegins₂
      rw [htarget.isIpv6_eq, hcause₂] at hcause₁
      cases hcause₁
      exact ⟨heq, hid, hseq, hlocal', Or.inr ⟨_, message, quoted, after, rfl, rfl, hcarries₁, hquotes₁, hshare⟩⟩

/-- What two accepted readings of one record of the error queue have in common. -/
theorem parseError_unique {bytes : Bytes} {destination : IpAddr} {error : ExtendedError} {e₁ e₂ : Expected}
    {reply₁ reply₂ : Reply} (h₁ : parseError bytes destination error e₁ = .ok (some reply₁))
    (h₂ : parseError bytes destination error e₂ = .ok (some reply₂)) :
    e₁.target = e₂.target ∧ e₁.id = e₂.id ∧ e₁.seq = e₂.seq ∧ (∃ text, reply₁ = .negative text ∧ reply₂ = .negative text) ∧
      ShareQuote bytes e₁ e₂ := by
  obtain ⟨hdest₁, h8, request₁, cause₁, hrequest₁, hprefix₁, hcause₁, rfl⟩ := (parseError_some_iff ..).1 h₁
  obtain ⟨hdest₂, -, request₂, cause₂, hrequest₂, hprefix₂, hcause₂, rfl⟩ := (parseError_some_iff ..).1 h₂
  have htarget := hdest₁.symm.trans hdest₂
  have hbegins₁ : BeginsRequest bytes e₁ := ⟨request₁, hrequest₁, h8, hprefix₁⟩
  obtain ⟨hid, hseq, hshare⟩ := hbegins₁.unique ⟨request₂, hrequest₂, h8, hprefix₂⟩
  rw [htarget, hcause₂] at hcause₁
  cases hcause₁
  exact ⟨htarget, hid, hseq, ⟨_, rfl, rfl⟩, hshare⟩

/-- The parser takes the packet for something. -/
def Accepts (result : Checked (Option Reply)) : Prop := ∃ reply, result = .ok (some reply)

/-- Two different probes never both accept one packet, or one record of the error queue. If they differ in target, identifier or
sequence number (or, for IPv4, in local address), one of them rejects it. If they differ in payload only and both accept it,
both take it for the same ICMP error, their requests have the same checksum, and what is quoted of the payload is common to
both. -/
theorem no_two_accept (e₁ e₂ : Expected) :
    (∀ (bytes : Bytes) (source : IpAddr),
      e₁.target ≠ e₂.target ∨ e₁.id ≠ e₂.id ∨ e₁.seq ≠ e₂.seq ∨ (e₁.target.isIpv4 = true ∧ e₁.localAddr ≠ e₂.localAddr) →
      ¬(Accepts (parse bytes source e₁) ∧ Accepts (parse bytes source e₂))) ∧
    (∀ (bytes : Bytes) (source : IpAddr) (reply₁ reply₂ : Reply),
      e₁.localAddr = e₂.localAddr → e₁.payload ≠ e₂.payload →
      parse bytes source e₁ = .ok (some reply₁) → parse bytes source e₂ = .ok (some reply₂) →
      ∃ text message quoted after, reply₁ = .negative text ∧ reply₂ = .negative text ∧
        Carries source e₁.localAddr message bytes ∧ QuotesPacket e₁.localAddr e₁.target quoted after (message.drop 8) ∧
        ShareQuote quoted e₁ e₂) ∧
    (∀ (bytes : Bytes) (destination : IpAddr) (error : ExtendedError),
      e₁.target ≠ e₂.target ∨ e₁.id ≠ e₂.id ∨ e₁.seq ≠ e₂.seq →
      ¬(Accepts (parseError bytes destination error e₁) ∧ Accepts (parseError bytes destination error e₂))) ∧
    (∀ (bytes : Bytes) (destination : IpAddr) (error : ExtendedError) (reply₁ reply₂ : Reply),
      parseError bytes destination error e₁ = .ok (some reply₁) →
      parseError bytes destination error e₂ = .ok (some reply₂) →
      (∃ text, reply₁ = .negative text ∧ reply₂ = .negative text) ∧ ShareQuote bytes e₁ e₂) := by
  refine ⟨?_, ?_, ?_, ?_⟩
  · rintro bytes source hdiffer ⟨⟨reply₁, h₁⟩, ⟨reply₂, h₂⟩⟩
    obtain ⟨htarget, hid, hseq, hlocal, -⟩ := parse_unique h₁ h₂
    rcases hdiffer with hne | hne | hne | ⟨hv4, hne⟩
    · exact hne htarget
    · exact hne hid
    · exact hne hseq
    · exact hne (hlocal hv4)
  · intro bytes source reply₁ reply₂ _ hpayload h₁ h₂
    obtain ⟨-, -, -, -, ⟨-, -, heq⟩ | hnegative⟩ := parse_unique h₁ h₂
    · exact absurd heq hpayload
    · exact hnegative
  · rintro bytes destination error hdiffer ⟨⟨reply₁, h₁⟩, ⟨reply₂, h₂⟩⟩
    obtain ⟨htarget, hid, hseq, -⟩ := parseError_unique h₁ h₂
    rcases hdiffer with hne | hne | hne
    · exact hne htarget
    · exact hne hid
    · exact hne hseq
  · intro bytes destination error reply₁ reply₂ h₁ h₂
    exact (parseError_unique h₁ h₂).2.2.2

/-- An expectation that differs from the sample one in payload only, and whose request has the same checksum. -/
def sampleTwin : Expected := { sampleExpected with payload := [6, 7, 8, 7] ++ List.replicate 12 7 }

theorem no_two_accept_sample :
    ¬(Accepts (parse sampleReply sampleExpected.target sampleExpected) ∧
      Accepts (parse sampleReply sampleExpected.target { sampleExpected with seq := 3 })) ∧
    ∃ text message quoted after, Reply.negative "Host unreachable (source=192.0.2.3)" = .negative text ∧
      Reply.negative "Host unreachable (source=192.0.2.3)" = .negative text ∧
      Carries (.v4 ⟨192, 0, 2, 3⟩) sampleExpected.localAddr message sampleError ∧
      QuotesPacket sampleExpected.localAddr sampleExpected.target quoted after (message.drop 8) ∧
      ShareQuote quoted sampleExpected sampleTwin :=
  ⟨(no_two_accept sampleExpected { sampleExpected with seq := 3 }).1 sampleReply sampleExpected.target (by decide),
    (no_two_accept sampleExpected sampleTwin).2.1 sampleError (.v4 ⟨192, 0, 2, 3⟩) _ _ rfl (by decide) (by decide +kernel)
      (by decide +kernel)⟩

end IcmpPing
