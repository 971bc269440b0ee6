import IcmpPing.Theorems.Accept

/-!
# The checksum, and what it catches

`checksum` is the complement of the one's-complement sum of the words, the encoder's packets verify against it, and no message
that is accepted stays accepted when one of its words is changed.
-/

namespace IcmpPing

open OnesComplement

/-! ## The Internet checksum -/

/-- The Internet checksum, as the complement of the sum of the words with an end-around carry. -/
theorem toNat_internetChecksum_eq_sum (bytes : Bytes) :
    (internetChecksum bytes).toNat = 65535 - endAroundSum 65535 (words bytes) := by
  rw [toNat_internetChecksum, endAroundSum_eq (by decide) _ (le_of_mem_words bytes), sum_words]

/-- `checksum` is the Internet checksum, and the encoder verifies itself. Up to `131074` bytes the accumulator of `checksum`
takes the sum of all words without an overflow, the carry loop ends with their one's-complement sum, and the result is `0xffff`
less that: zero exactly when the sum of the words is a positive multiple of `65535`. The checksum of every packet of `echo` is
zero. -/
theorem checksum_correct :
    (∀ bytes : Bytes, bytes.length ≤ 131074 →
      sumWords 0 bytes = .ok (words bytes).sum ∧
      foldCarries (words bytes).sum = .ok (endAroundSum 65535 (words bytes)) ∧
      ∃ sum, checksum bytes = .ok sum ∧ sum.toNat = 65535 - endAroundSum 65535 (words bytes) ∧
        (sum = 0 ↔ 0 < (words bytes).sum ∧ 65535 ∣ (words bytes).sum)) ∧
    (∀ (target localAddr : Ipv4Addr) (id seq : UInt16) (payload : Bytes), payload.length ≤ 65527 →
      ∃ packet, echo (.v4 target) (.v4 localAddr) id seq payload = .ok packet ∧ checksum packet = .ok 0) ∧
    ∀ (target localAddr : Ipv6Addr) (id seq : UInt16) (payload : Bytes), payload.length ≤ 65527 →
      ∃ packet, echo (.v6 target) (.v6 localAddr) id seq payload = .ok packet ∧ checksumV6 localAddr target packet = .ok 0 := by
  have hself : ∀ (target localAddr : IpAddr) (id seq : UInt16) (payload : Bytes), payload.length ≤ 65527 →
      checksum (covered localAddr target (requestBytes target localAddr id seq payload)) = .ok 0 := by
    intro target localAddr id seq payload hlen
    have hcov := length_covered_le localAddr target (requestBytes target localAddr id seq payload)
    have hrequest : (requestBytes target localAddr id seq payload).length = 8 + payload.length := length_echoMessage ..
    rw [checksum_of_length (by omega)]
    exact congrArg Except.ok ((internetChecksum_eq_zero_iff _).2 (verifies_requestBytes ..))
  refine ⟨fun bytes hlen => ?_, fun target localAddr id seq payload hlen => ?_, fun target localAddr id seq payload hlen => ?_⟩
  · have hlt := wordSum_lt bytes hlen
    rw [sum_words]
    refine ⟨?_, ?_, internetChecksum bytes, checksum_of_length hlen, toNat_internetChecksum_eq_sum bytes,
      internetChecksum_eq_zero_iff bytes⟩
    · rw [sumWords_eq 0 bytes (by decide), Nat.zero_add, if_pos hlt]
    · rw [foldCarries_eq _ hlt, endAroundSum_eq (by decide) _ (le_of_mem_words bytes), sum_words]
  · exact ⟨_, echo_of_length _ _ id seq hlen, hself (.v4 target) (.v4 localAddr) id seq payload hlen⟩
  · exact ⟨_, echo_of_length _ _ id seq hlen, hself (.v6 target) (.v6 localAddr) id seq payload hlen⟩

theorem checksum_correct_sample :
    ∃ packet, echo (.v4 ⟨192, 0, 2, 2⟩) (.v4 ⟨192, 0, 2, 2⟩) 0x1234 1 [1, 2, 3] = .ok packet ∧ checksum packet = .ok 0 :=
  checksum_correct.2.1 ⟨192, 0, 2, 2⟩ ⟨192, 0, 2, 2⟩ 0x1234 1 [1, 2, 3] (by decide)

/-! ## Corrupted messages -/

/-- A message with one 16-bit word changed, other than from all zeros to all ones or back; an odd last byte is a word padded
with a zero byte. -/
structure Corrupts (message message' : Bytes) (k : Nat) : Prop where
  length : message'.length = message.length
  outside : ∀ i, i / 2 ≠ k → byteAt message' i = byteAt message i
  changed : message' ≠ message
  not_zeros : ¬(wordAt message k = 0x0000 ∧ wordAt message' k = 0xffff)
  not_ones : ¬(wordAt message k = 0xffff ∧ wordAt message' k = 0x0000)

/-- The changed word is another word. -/
theorem Corrupts.wordAt_ne {message message' : Bytes} {k : Nat} (h : Corrupts message message' k) :
    wordAt message' k ≠ wordAt message k := by
  intro hword
  obtain ⟨hfirst, hsecond⟩ := wordAt_inj.1 hword
  refine h.changed (List.ext_getElem h.length fun i hi hi' => ?_)
  have hat : byteAt message' i = byteAt message i := by
    by_cases hk : i / 2 = k
    · rcases (by omega : i = 2 * k ∨ i = 2 * k + 1) with rfl | rfl
      · exact hfirst
      · exact hsecond
    · exact h.outside i hk
  simpa [byteAt, hi, hi'] using hat

/-- A sequence that verifies does so no longer when a word of it is changed, whatever even number of bytes comes before. -/
theorem Corrupts.not_verifies {message message' pre : Bytes} {k : Nat} (h : Corrupts message message' k)
    (heven : pre.length % 2 = 0) (hverifies : Verifies (pre ++ message)) : ¬Verifies (pre ++ message') := by
  rintro ⟨-, hdvd'⟩
  obtain ⟨-, hdvd⟩ := hverifies
  have hle := wordAt_le message k
  have hle' := wordAt_le message' k
  have hne := h.wordAt_ne
  have hzeros := h.not_zeros
  have hones := h.not_ones
  have hsum := wordSum_add_wordAt message message' k h.length h.outside
  rw [wordSum_append _ _ heven] at hdvd hdvd'
  omega

/-- A message that passes the checksum test does so no longer when a word of it is changed. -/
theorem parseMessage_of_corrupts {message message' : Bytes} {source : IpAddr} {expected : Expected} {k : Nat}
    (hlen : message.length ≤ 65535) (hsum : ChecksumOk source expected message) (h8 : 8 ≤ message.length)
    (h : Corrupts message message' k) : parseMessage message' source expected = .ok none := by
  obtain ⟨pre, heven, hpre, hcov⟩ := covered_eq_append source expected.localAddr message.length
  obtain ⟨hsource, hlocal, hverifies⟩ := (checksumOk_iff hlen).1 hsum
  rw [hcov message rfl] at hverifies
  have hcov' := hcov message' h.length
  have hchecksum : checksum (pre ++ message') = .ok (internetChecksum (pre ++ message')) := by
    refine checksum_of_length ?_
    rw [List.length_append, h.length]
    omega
  have hne : internetChecksum (pre ++ message') ≠ 0 := fun hzero =>
    h.not_verifies heven hverifies ((internetChecksum_eq_zero_iff _).1 hzero)
  rw [parseMessage_of_le source expected (h.length ▸ h8), messageChecksum_eq, if_pos ⟨hsource, hlocal⟩, hcov', hchecksum]
  exact if_pos hne

/-- Changing one byte changes one word, and not between all zeros and all ones. -/
theorem corrupts_set {message : Bytes} {i : Nat} {b : UInt8} (hi : i < message.length) (hb : b ≠ byteAt message i) :
    Corrupts message (message.set i b) (i / 2) := by
  have hself : byteAt (message.set i b) i = b := by simp [byteAt, hi]
  have hother : ∀ j, j ≠ i → byteAt (message.set i b) j = byteAt message j := fun j hj => by
    simp [byteAt, List.getElem?_set_ne (Ne.symm hj)]
  -- the other byte of the word stays, and it cannot be zero and all ones
  have hkeeps : ∃ j, byteAt (message.set i b) j = byteAt message j ∧
      ∀ bytes : Bytes, (wordAt bytes (i / 2) = 0x0000 → byteAt bytes j = 0) ∧
        (wordAt bytes (i / 2) = 0xffff → byteAt bytes j = 255) := by
    have hword : ∀ (bytes : Bytes) (j : Nat), j = 2 * (i / 2) ∨ j = 2 * (i / 2) + 1 →
        (wordAt bytes (i / 2) = 0x0000 → byteAt bytes j = 0) ∧ (wordAt bytes (i / 2) = 0xffff → byteAt bytes j = 255) := by
      intro bytes j hj
      have hfirst := (bytes.getD (2 * (i / 2)) 0).toNat_lt
      have hsecond := (bytes.getD (2 * (i / 2) + 1) 0).toNat_lt
      have hzero : (0 : UInt8).toNat = 0 := rfl
      have hones : (255 : UInt8).toNat = 255 := rfl
      unfold wordAt byteAt
      rw [← UInt8.toNat_inj, ← UInt8.toNat_inj, hzero, hones]
      rcases hj with rfl | rfl
      · omega
      · omega
    rcases (by omega : i = 2 * (i / 2) ∨ i = 2 * (i / 2) + 1) with hpar | hpar
    · exact ⟨2 * (i / 2) + 1, hother _ (by omega), fun bytes => hword bytes _ (Or.inr rfl)⟩
    · exact ⟨2 * (i / 2), hother _ (by omega), fun bytes => hword bytes _ (Or.inl rfl)⟩
  obtain ⟨j, hj, hword⟩ := hkeeps
  refine ⟨List.length_set, fun j hj => hother j (by rintro rfl; exact hj rfl), fun heq => ?_, ?_, ?_⟩
  · rw [heq] at hself
    exact hb hself.symm
  · rintro ⟨hzero, hones⟩
    rw [(hword _).2 hones, (hword _).1 hzero] at hj
    cases hj
  · rintro ⟨hones, hzero⟩
    rw [(hword _).1 hzero, (hword _).2 hones] at hj
    cases hj

/-- A byte with one bit flipped is another byte. -/
theorem xor_bit_ne (b : UInt8) {j : Nat} (hj : j < 8) : b ^^^ (1 <<< UInt8.ofNat j) ≠ b := by
  intro h
  have hbit : (1 : UInt8) <<< UInt8.ofNat j = 0 := by
    have := congrArg (b ^^^ ·) h
    simpa [← UInt8.xor_assoc] using this
  have hbits : ∀ j < 8, (1 : UInt8) <<< UInt8.ofNat j ≠ 0 := by decide
  exact hbits j hj hbit

/-- Every small corruption of an accepted message is rejected: any change within one word other than between all zeros and all
ones, so in particular any change of one byte, and any flip of one bit. -/
theorem corrupted_rejected {message : Bytes} {source : IpAddr} {expected : Expected} {reply : Reply}
    (hlen : message.length ≤ 65535) (h : parseMessage message source expected = .ok (some reply)) :
    (∀ message' k, Corrupts message message' k → parseMessage message' source expected = .ok none) ∧
    (∀ i b, i < message.length → b ≠ byteAt message i → parseMessage (message.set i b) source expected = .ok none) ∧
    ∀ i j, i < message.length → j < 8 →
      parseMessage (message.set i (byteAt message i ^^^ (1 <<< UInt8.ofNat j))) source expected = .ok none := by
  obtain ⟨h8, hsum⟩ := parseMessage_some h
  have hword : ∀ message' k, Corrupts message message' k → parseMessage message' source expected = .ok none :=
    fun message' k hcorrupts => parseMessage_of_corrupts hlen hsum h8 hcorrupts
  refine ⟨hword, fun i b hi hb => hword _ _ (corrupts_set hi hb), fun i j hi hj => ?_⟩
  exact hword _ _ (corrupts_set hi (xor_bit_ne _ hj))

/-- The message that answers the sample request. -/
def sampleReplyMessage : Bytes := [0, 0, 181, 145, 18, 52, 0, 2] ++ List.replicate 16 7

theorem corrupted_rejected_sample :
    parseMessage (sampleReplyMessage.set 23 6) sampleExpected.target sampleExpected = .ok none := by
  have hreply : parseMessage sampleReplyMessage sampleExpected.target sampleExpected = .ok (some .echo) := by decide +kernel
  exact (corrupted_rejected (by decide) hreply).2.1 23 6 (by decide) (by decide)

end IcmpPing
