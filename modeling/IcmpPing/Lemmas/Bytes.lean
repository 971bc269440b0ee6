import IcmpPing.Rust

/-!
# Bytes: in-range operations, big-endian fields, bit masks

The checked operations on arguments the code has already bounded, and the masks and shifts of the header parsers as arithmetic
on byte values.
-/

namespace IcmpPing

/-! ## Operations in range -/

/-- The byte at a place, for places known to be in range. -/
def byteAt (bytes : Bytes) (i : Nat) : UInt8 := bytes.getD i 0

@[simp] theorem byteAt_cons_zero (b : UInt8) (bytes : Bytes) : byteAt (b :: bytes) 0 = b := rfl

@[simp] theorem byteAt_cons_succ (b : UInt8) (bytes : Bytes) (i : Nat) :
    byteAt (b :: bytes) (i + 1) = byteAt bytes i := by
  simp [byteAt]

/-- An index within the bytes does not panic. -/
theorem index_of_lt {bytes : Bytes} {i : Nat} (h : i < bytes.length) : index bytes i = .ok (byteAt bytes i) := by
  simp [index, byteAt, h]

/-- A range within the bytes does not panic. -/
theorem slice_of_le {bytes : Bytes} {start stop : Nat} (h : start ≤ stop) (h' : stop ≤ bytes.length) :
    slice bytes start stop = .ok ((bytes.take stop).drop start) := by
  simp [slice, h, h']

/-- A start within the bytes does not panic. -/
theorem sliceFrom_of_le {bytes : Bytes} {start : Nat} (h : start ≤ bytes.length) :
    sliceFrom bytes start = .ok (bytes.drop start) := by
  simp [sliceFrom, slice, h]

/-- A start within the bytes gives the rest of them. -/
theorem getFrom_of_le {bytes : Bytes} {offset : Nat} (h : offset ≤ bytes.length) :
    getFrom bytes offset = some (bytes.drop offset) := by
  simp [getFrom, h]

/-- A sum of the machine does not overflow below 2^64. -/
theorem addUsize_of_lt {a b : Nat} (h : a + b < 2 ^ 64) : addUsize a b = .ok (a + b) := if_pos h

/-- A product of the machine does not overflow below 2^64. -/
theorem mulUsize_of_lt {a b : Nat} (h : a * b < 2 ^ 64) : mulUsize a b = .ok (a * b) := if_pos h

/-- A byte sequence of at least `n` bytes, read byte by byte: its first `n` bytes and the rest. -/
theorem eq_range_append (bytes : Bytes) {n : Nat} (h : n ≤ bytes.length) :
    bytes = (List.range n).map (byteAt bytes) ++ bytes.drop n := by
  conv_lhs => rw [← List.take_append_drop n bytes]
  congr 1
  apply List.ext_getElem
  · simp [h]
  · intro i h1 _
    simp only [List.length_take] at h1
    simp [byteAt, List.getD_eq_getElem?_getD, show i < bytes.length by omega]

/-! ## Big-endian fields -/

@[simp] theorem length_u16ToBe (x : UInt16) : (u16ToBe x).length = 2 := rfl

/-- Two bytes are read and written back. -/
@[simp] theorem u16ToBe_fromBe (a b : UInt8) : u16ToBe (u16FromBe a b) = [a, b] := by
  have ha := a.toNat_lt
  have hb := b.toNat_lt
  simp only [u16ToBe, u16FromBe, UInt16.toNat_ofNat', List.cons.injEq, and_true]
  constructor <;> apply UInt8.toNat_inj.1 <;> rw [UInt8.toNat_ofNat'] <;> omega

/-- A word is written and read back. -/
@[simp] theorem u16FromBe_toBe (x : UInt16) : u16FromBe (.ofNat (x.toNat / 256)) (.ofNat (x.toNat % 256)) = x := by
  have := x.toNat_lt
  apply UInt16.toNat_inj.1
  simp only [u16FromBe, UInt16.toNat_ofNat', UInt8.toNat_ofNat']
  omega

/-- The value of two bytes in network order. -/
theorem toNat_u16FromBe (a b : UInt8) : (u16FromBe a b).toNat = a.toNat * 256 + b.toNat := by
  have ha := a.toNat_lt
  have hb := b.toNat_lt
  simp only [u16FromBe, UInt16.toNat_ofNat']
  omega

/-- The two bytes of a field determine it. -/
theorem u16ToBe_injective {x y : UInt16} (h : u16ToBe x = u16ToBe y) : x = y := by
  simp only [u16ToBe, List.cons.injEq, and_true] at h
  rw [← u16FromBe_toBe x, h.1, h.2, u16FromBe_toBe]

/-! ## Masks and shifts -/

/-- The version nibble. -/
theorem shiftRight_four_eq (b n : UInt8) : b >>> 4 = n ↔ b.toNat / 16 = n.toNat := by
  rw [← UInt8.toNat_inj, UInt8.toNat_shiftRight]
  simp [Nat.shiftRight_eq_div_pow]

/-- The low nibble. -/
theorem and_fifteen (b : UInt8) : b.toNat &&& 15 = b.toNat % 16 := Nat.and_two_pow_sub_one_eq_mod _ 4

/-- The fragment offset and the "more fragments" bit of an IPv4 header are clear: what is left is the reserved bit and the
"don't fragment" bit, the two high bits of the first byte. -/
theorem ipv4_fragment_eq_zero (a b : UInt8) : u16FromBe a b &&& 0x3fff = 0 ↔ a.toNat % 64 = 0 ∧ b = 0 := by
  have ha := a.toNat_lt
  have hb := b.toNat_lt
  rw [← UInt16.toNat_inj, UInt16.toNat_and, ← UInt8.toNat_inj, toNat_u16FromBe]
  have hmask : (a.toNat * 256 + b.toNat) &&& 16383 = (a.toNat * 256 + b.toNat) % 16384 :=
    Nat.and_two_pow_sub_one_eq_mod _ 14
  show (a.toNat * 256 + b.toNat) &&& 16383 = 0 ↔ a.toNat % 64 = 0 ∧ b.toNat = 0
  rw [hmask]
  omega

/-- The mask of the IPv6 fragment field: the offset is its high thirteen bits, "more fragments" its lowest. -/
theorem ipv6_fragment_eq_zero (a b : UInt8) :
    u16FromBe a b &&& 0xfff9 = 0 ↔ (u16FromBe a b).toNat / 8 = 0 ∧ (u16FromBe a b).toNat % 2 = 0 := by
  generalize u16FromBe a b = x
  have hx := x.toNat_lt
  rw [← UInt16.toNat_inj, UInt16.toNat_and]
  show x.toNat &&& (65528 ||| 1) = 0 ↔ _
  generalize x.toNat = n at hx ⊢
  rw [Nat.and_or_distrib_left, Nat.or_eq_zero_iff, Nat.and_one_is_mod]
  refine and_congr_left fun h2 => ⟨fun h => ?_, fun h => ?_⟩
  · have hshift : (n &&& 65528) >>> 3 = n / 8 % 2 ^ 13 := by
      rw [Nat.shiftRight_and_distrib, Nat.shiftRight_eq_div_pow]
      exact Nat.and_two_pow_sub_one_eq_mod _ 13
    rw [h] at hshift
    omega
  · rcases (by omega : n = 0 ∨ n = 2 ∨ n = 4 ∨ n = 6) with rfl | rfl | rfl | rfl <;> rfl

end IcmpPing
