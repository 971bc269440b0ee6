import IcmpPing.Packet
import IcmpPing.Lemmas.Bytes
import IcmpPing.Lib.OnesComplement

/-!
# The checksum as one's-complement arithmetic

`checksum` computes, or overflows its accumulator, exactly as the word sum of its bytes says (`checksum_eq`). A message
verifies its checksum when `checksum` of the whole of it is zero, that is, when its word sum is a positive multiple of `65535`.
-/

namespace IcmpPing

open OnesComplement

/-- The word sum of a byte sequence is a positive multiple of `65535`: what its checksum field is there to make it. -/
def Verifies (bytes : Bytes) : Prop := 0 < wordSum bytes ∧ 65535 ∣ wordSum bytes

/-- The Internet checksum of a byte sequence: the complement of its one's-complement word sum. -/
def internetChecksum (bytes : Bytes) : UInt16 := .ofNat (65535 - endAround 65535 (wordSum bytes))

/-! ## The two loops -/

/-- The sum loop ends with the word sum, unless that does not fit the accumulator. -/
theorem sumWords_eq (sum : Nat) (bytes : Bytes) (h : sum < 2 ^ 32) :
    sumWords sum bytes = if sum + wordSum bytes < 2 ^ 32 then .ok (sum + wordSum bytes) else .error .overflow := by
  induction sum, bytes using sumWords.induct with
  | case1 sum => simp only [sumWords, wordSum_nil, Nat.add_zero, h, if_true, Checked.pure_eq]
  | case2 sum a =>
    rw [sumWords, addU32, toNat_u16FromBe, wordSum_singleton, UInt8.toNat_zero, Nat.add_zero]
  | case3 sum a b rest ih =>
    rw [sumWords, addU32, toNat_u16FromBe, wordSum_cons_cons]
    by_cases hadd : sum + (a.toNat * 256 + b.toNat) < 2 ^ 32
    · rw [if_pos hadd, Checked.ok_bind, ih _ hadd, Nat.add_assoc]
    · have hsum : ¬sum + (a.toNat * 256 + b.toNat + wordSum rest) < 2 ^ 32 := fun hlt =>
        hadd (Nat.lt_of_le_of_lt (Nat.add_le_add_left (Nat.le_add_right _ _) sum) hlt)
      rw [if_neg hadd, if_neg hsum, Checked.error_bind]

/-- The carry loop ends, without an overflow, with the one's-complement value of the sum. -/
theorem foldCarries_eq (sum : Nat) (h : sum < 2 ^ 32) : foldCarries sum = .ok (endAround 65535 sum) := by
  induction sum using foldCarries.induct with
  | case1 sum hcarry ih =>
    have hand : sum &&& 0xffff = sum % 65536 := Nat.and_two_pow_sub_one_eq_mod sum 16
    have hshift : sum >>> 16 = sum / 65536 := Nat.shiftRight_eq_div_pow sum 16
    have hlt := foldCarries_decreases hcarry
    rw [foldCarries, dif_pos hcarry, addU32, if_pos (by omega), Checked.ok_bind, ih (by omega), hand, hshift]
    exact congrArg Except.ok (endAround_carry 65535 sum)
  | case2 sum hcarry =>
    have hshift : sum >>> 16 = sum / 65536 := Nat.shiftRight_eq_div_pow sum 16
    rw [foldCarries, dif_neg hcarry, endAround_of_le (by omega)]
    rfl

/-! ## The checksum -/

theorem toNat_internetChecksum (bytes : Bytes) :
    (internetChecksum bytes).toNat = 65535 - endAround 65535 (wordSum bytes) := by
  rw [internetChecksum, UInt16.toNat_ofNat']
  exact Nat.mod_eq_of_lt (by omega)

/-- `checksum` is the Internet checksum, unless its accumulator overflows. -/
theorem checksum_eq (bytes : Bytes) :
    checksum bytes = if wordSum bytes < 2 ^ 32 then .ok (internetChecksum bytes) else .error .overflow := by
  rw [checksum, sumWords_eq 0 bytes (by decide), Nat.zero_add]
  split
  · rename_i h
    have hle := endAround_le (m := 65535) (by decide) (wordSum bytes)
    rw [Checked.ok_bind, foldCarries_eq _ h, Checked.ok_bind, Checked.pure_eq]
    apply congrArg Except.ok
    apply UInt16.toNat_inj.1
    rw [toNat_internetChecksum, UInt16.toNat_not, UInt16.toNat_ofNat', Nat.mod_eq_of_lt (by omega)]
    rfl
  · rfl

/-- Up to `131074` bytes the accumulator does not overflow: `65537` words of all ones just fit. -/
theorem wordSum_lt (bytes : Bytes) (h : bytes.length ≤ 131074) : wordSum bytes < 2 ^ 32 := by
  have hle := wordSum_le bytes
  have hwords : 65535 * ((bytes.length + 1) / 2) ≤ 65535 * 65537 := Nat.mul_le_mul_left _ (by omega)
  omega

theorem checksum_of_length {bytes : Bytes} (h : bytes.length ≤ 131074) : checksum bytes = .ok (internetChecksum bytes) := by
  rw [checksum_eq, if_pos (wordSum_lt bytes h)]

/-- The checksum of a byte sequence is zero exactly when the sequence verifies. -/
theorem internetChecksum_eq_zero_iff (bytes : Bytes) : internetChecksum bytes = 0 ↔ Verifies bytes := by
  have hle := endAround_le (m := 65535) (by decide) (wordSum bytes)
  rw [Verifies, ← endAround_eq_modulus_iff (by decide), ← UInt16.toNat_inj, toNat_internetChecksum]
  show 65535 - _ = 0 ↔ _
  omega

/-! ## The checksum field -/

/-- A field in an even place adds its value to the word sum of the rest. -/
theorem wordSum_field (pre post : Bytes) (h : pre.length % 2 = 0) (c : UInt16) :
    wordSum (pre ++ u16ToBe c ++ post) = wordSum (pre ++ u16ToBe 0 ++ post) + c.toNat := by
  have hc : ∀ x : UInt16, wordSum (pre ++ u16ToBe x ++ post) = wordSum pre + x.toNat + wordSum post := by
    intro x
    have hx := x.toNat_lt
    rw [List.append_assoc, wordSum_append _ _ h, u16ToBe, List.cons_append, List.cons_append, List.nil_append,
      wordSum_cons_cons, UInt8.toNat_ofNat', UInt8.toNat_ofNat']
    omega
  rw [hc c, hc 0]
  show _ = wordSum pre + 0 + wordSum post + c.toNat
  omega

/-- What a sequence with a checksum field `c` must hold there to verify: the checksum of the sequence with a zero field, or
`0xffff` where that checksum is zero. -/
theorem verifies_field_iff (pre post : Bytes) (h : pre.length % 2 = 0) (c : UInt16) :
    Verifies (pre ++ u16ToBe c ++ post) ↔
      c = internetChecksum (pre ++ u16ToBe 0 ++ post) ∨
        (internetChecksum (pre ++ u16ToBe 0 ++ post) = 0 ∧ c = 0xffff) := by
  have hc := c.toNat_lt
  rw [internetChecksum_eq_zero_iff, Verifies, Verifies, wordSum_field pre post h c, ← UInt16.toNat_inj,
    ← UInt16.toNat_inj, toNat_internetChecksum]
  generalize wordSum (pre ++ u16ToBe 0 ++ post) = s
  show _ ↔ _ ∨ _ ∧ c.toNat = 65535
  rcases Nat.eq_zero_or_pos s with rfl | hs
  · rw [endAround_zero]
    omega
  · rw [endAround_of_pos hs]
    omega

end IcmpPing
