import IcmpPing.Lemmas.Message
import IcmpPing.Linux

/-!
# What `parse_error` accepts
-/

namespace IcmpPing

/-- The slice of a request that is compared with a record holds the record exactly when the record is a prefix of it. -/
theorem slice_eq_iff {bytes request : Bytes} (h : bytes.length ≤ request.length) :
    slice request 0 bytes.length = .ok bytes ↔ bytes <+: request := by
  rw [slice_of_le (Nat.zero_le _) h, List.drop_zero, Except.ok.injEq, List.prefix_iff_eq_take, eq_comm]

/-- `parse_error` takes a record for an ICMP error about the request exactly when it was sent to the target, holds the first bytes,
at least eight, of the request, and its error has a cause. -/
theorem parseError_some_iff (bytes : Bytes) (destination : IpAddr) (error : ExtendedError) (expected : Expected)
    (reply : Reply) :
    parseError bytes destination error expected = .ok (some reply) ↔
      destination = expected.target ∧ 8 ≤ bytes.length ∧ ∃ request cause,
        echo expected.target expected.localAddr expected.id expected.seq expected.payload = .ok request ∧
        bytes <+: request ∧ errorCause expected.target error = some cause ∧
        reply = .negative (errorText cause error.offender) := by
  constructor
  · intro h
    obtain ⟨request, hrequest, h⟩ := Checked.bind_eq_ok.1 h
    by_cases hdest : destination = expected.target
    swap
    · rw [if_pos hdest] at h
      cases h
    by_cases h8 : bytes.length < 8
    · rw [if_neg (not_not.2 hdest), if_pos h8] at h
      cases h
    by_cases hlen : bytes.length > request.length
    · rw [if_neg (not_not.2 hdest), if_neg h8, if_pos hlen] at h
      cases h
    rw [if_neg (not_not.2 hdest), if_neg h8, if_neg hlen] at h
    obtain ⟨part, hpart, h⟩ := Checked.bind_eq_ok.1 h
    by_cases heq : bytes = part
    swap
    · rw [if_pos heq] at h
      cases h
    rw [if_neg (not_not.2 heq)] at h
    cases hcause : errorCause expected.target error with
    | none =>
      rw [hcause] at h
      cases h
    | some cause =>
      rw [hcause] at h
      refine ⟨hdest, by omega, request, cause, hrequest, ?_, rfl, (Option.some.inj (Except.ok.inj h)).symm⟩
      exact (slice_eq_iff (by omega)).1 (by rw [hpart, heq])
  · rintro ⟨hdest, h8, request, cause, hrequest, hprefix, hcause, rfl⟩
    rw [parseError, hrequest, Checked.ok_bind, if_neg (not_not.2 hdest), if_neg (by omega),
      if_neg (by have := hprefix.length_le; omega), (slice_eq_iff hprefix.length_le).2 hprefix, Checked.ok_bind,
      if_neg (not_not.2 rfl), hcause]
    rfl

end IcmpPing
