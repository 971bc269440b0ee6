import IcmpPing.Lemmas.Darwin
import IcmpPing.Lemmas.Queue
import IcmpPing.Theorems.Accept

/-!
# No received packet makes a parser panic

Every index, slice and sum of the parsers is in range, whatever the bytes are.
-/

namespace IcmpPing

/-- The tests of a quoted packet never panic. -/
theorem quoteMatches_returns (quoted : Bytes) (quotedSource destination : IpAddr) {expected : Expected}
    (hpayload : expected.payload.length ≤ 65527) :
    ∃ correlated, quoteMatches quoted quotedSource destination expected = .ok correlated := by
  by_cases hhead : quotedSource ≠ expected.localAddr ∨ destination ≠ expected.target ∨
      quoted.head? ≠ some (if expected.target.isIpv6 then 128 else 8) ∨ quoted[1]? ≠ some 0
  · exact ⟨false, by rw [quoteMatches, if_pos hhead]; rfl⟩
  by_cases hecho : HasEcho quoted expected.id expected.seq
  swap
  · refine ⟨false, ?_⟩
    rw [quoteMatches, if_neg hhead, matchesEcho_eq, Checked.ok_bind]
    simp only [hecho, decide_false, Bool.not_false, if_true, Checked.pure_eq]
  simp only [not_or, not_not] at hhead
  obtain ⟨rfl, rfl, hkind, hcode⟩ := hhead
  have hbytes := head_and_second_iff hecho.1 (requestKind expected.target.isIpv6)
  rw [quoteMatches_of_hasEcho hecho (hbytes.1.1 hkind) (hbytes.2.1 hcode), echo_of_length _ _ _ _ hpayload, Checked.ok_bind,
    slice_of_le (by decide) (by simp [requestBytes]; omega)]
  exact ⟨_, rfl⟩

/-- The packet an ICMP error quotes is read without a panic. -/
theorem quotedPacket_returns (v6 : Bool) (bytes : Bytes) : ∃ value, quotedPacket v6 bytes = .ok value := by
  cases v6 with
  | false => exact ipv4_returns bytes true
  | true => exact quotedV6_returns bytes

/-- `parse_message` never panics. -/
theorem parseMessage_returns {packet : Bytes} (source : IpAddr) {expected : Expected} (hlen : packet.length ≤ 65535)
    (hpayload : expected.payload.length ≤ 65527) : ∃ reply, parseMessage packet source expected = .ok reply := by
  by_cases h8 : packet.length < 8
  · exact ⟨none, by rw [parseMessage, if_pos h8]; rfl⟩
  have hcov := length_covered_le source expected.localAddr packet
  rw [parseMessage_of_le source expected (Nat.le_of_not_lt h8), messageChecksum_eq, checksum_of_length (by omega)]
  by_cases hfamily : source.isIpv6 = expected.target.isIpv6 ∧ expected.localAddr.isIpv6 = expected.target.isIpv6
  swap
  · rw [if_neg hfamily]
    exact ⟨none, rfl⟩
  rw [if_pos hfamily]
  change ∃ reply, (if internetChecksum (covered source expected.localAddr packet) ≠ 0 then _ else _) = Except.ok reply
  split
  · exact ⟨none, rfl⟩
  split
  · exact ⟨_, rfl⟩
  split
  · exact ⟨none, rfl⟩
  rename_i message _
  obtain ⟨part, hpart⟩ := quotedPacket_returns expected.target.isIpv6 (packet.drop 8)
  rw [acceptsError, hpart, Checked.ok_bind]
  cases part with
  | none => exact ⟨none, rfl⟩
  | some part =>
    obtain ⟨quoted, quotedSource, destination⟩ := part
    obtain ⟨correlated, hmatches⟩ := quoteMatches_returns quoted quotedSource destination hpayload
    simp only [hmatches, Checked.ok_bind]
    exact ⟨_, rfl⟩

/-- The message of a datagram is no longer than the datagram. -/
theorem ipv4_part_length {packet part : Bytes} {quoted : Bool} {source target : IpAddr}
    (h : ipv4 packet quoted = .ok (some (part, source, target))) : part.length ≤ packet.length := by
  obtain ⟨header, after, rfl, -, -, -, -, rfl⟩ := (ipv4_eq_some_iff ..).1 h
  simp only [List.length_take, List.length_append]
  omega

/-- `parse` does not panic. -/
theorem parse_returns {bytes : Bytes} (source : IpAddr) {expected : Expected} (hlen : bytes.length ≤ 65535)
    (hpayload : expected.payload.length ≤ 65527) : ∃ reply, parse bytes source expected = .ok reply := by
  unfold parse
  by_cases hv6 : expected.target.isIpv6 = true
  · rw [if_pos hv6]
    exact parseMessage_returns source hlen hpayload
  rw [if_neg hv6]
  obtain ⟨part, hpart⟩ := ipv4_returns bytes false
  rw [hpart, Checked.ok_bind]
  cases part with
  | none => exact ⟨none, rfl⟩
  | some part =>
    obtain ⟨packet, headerSource, headerTarget⟩ := part
    have hle := ipv4_part_length hpart
    simp only
    split
    · exact ⟨none, rfl⟩
    · exact parseMessage_returns source (hle.trans hlen) hpayload

/-- `parse_ping_echo` does not panic. -/
theorem parsePingEcho_returns {packet : Bytes} (source : IpAddr) {expected : Expected} (hlen : packet.length ≤ 65535)
    (hpayload : expected.payload.length ≤ 65527) : ∃ reply, parsePingEcho packet source expected = .ok reply := by
  unfold parsePingEcho
  by_cases hkind : packet.head? ≠ some (if expected.target.isIpv6 then 129 else 0)
  · rw [if_pos hkind]
    exact ⟨none, rfl⟩
  · rw [if_neg hkind]
    exact parseMessage_returns source hlen hpayload

/-- `parse_error` does not panic. -/
theorem parseError_returns (bytes : Bytes) (destination : IpAddr) (error : ExtendedError) {expected : Expected}
    (hpayload : expected.payload.length ≤ 65527) : ∃ reply, parseError bytes destination error expected = .ok reply := by
  unfold parseError
  rw [echo_of_length _ _ _ _ hpayload, Checked.ok_bind]
  split
  · exact ⟨none, rfl⟩
  split
  · exact ⟨none, rfl⟩
  split
  · exact ⟨none, rfl⟩
  rename_i hlen
  rw [slice_of_le (Nat.zero_le _) (Nat.le_of_not_lt hlen), Checked.ok_bind]
  split
  · exact ⟨none, rfl⟩
  split
  · exact ⟨_, rfl⟩
  · exact ⟨none, rfl⟩

/-- No received packet can make the parsers panic. Of any bytes that fit the receive buffer, any source, any expectation whose
payload passes the check of the options, whatever the families of its addresses, and any metadata of an error: the parsers
return, and so does normalizing, also before parsing. -/
theorem parsers_return (bytes : Bytes) (source : IpAddr) (expected : Expected) (error : ExtendedError) (order : ByteOrder)
    (hbytes : bytes.length ≤ 65535) (hpayload : expected.payload.length ≤ 1200) :
    (∃ reply, parse bytes source expected = .ok reply) ∧
    (∃ reply, parsePingEcho bytes source expected = .ok reply) ∧
    (∃ reply, parseError bytes source error expected = .ok reply) ∧
    ∃ bytes', normalizeMacosIpv4 order bytes = .ok bytes' ∧ bytes'.length = bytes.length ∧
      ∃ reply, parse bytes' source expected = .ok reply := by
  have hpayload : expected.payload.length ≤ 65527 := by omega
  refine ⟨parse_returns source hbytes hpayload, parsePingEcho_returns source hbytes hpayload,
    parseError_returns bytes source error hpayload, normalized order bytes, normalizeMacosIpv4_eq order bytes,
    length_normalized order bytes, parse_returns source ?_ hpayload⟩
  rw [length_normalized]
  exact hbytes

theorem parsers_return_sample : ∃ reply, parse sampleReply sampleExpected.localAddr sampleExpected = .ok reply :=
  (parsers_return sampleReply _ _ ⟨2, 3, 1, 113, none⟩ .little (by decide) (by decide)).1

end IcmpPing
