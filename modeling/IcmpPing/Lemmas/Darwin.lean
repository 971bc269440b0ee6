import IcmpPing.Darwin
import IcmpPing.Lemmas.Bytes
import IcmpPing.Lib.Overwrite

/-!
# What `normalize_macos_ipv4` writes

It never panics, and what it returns is the bytes with up to three fields overwritten. The fields it reads are those of the bytes
it was given: no write reaches a field that is read after it.
-/

namespace IcmpPing

/-! ## Fields of two bytes -/

/-- The two bytes at a place, in a byte order. -/
def fieldAt (order : ByteOrder) (bytes : Bytes) (i : Nat) : UInt16 := u16FromNe order (byteAt bytes i) (byteAt bytes (i + 1))

@[simp] theorem length_u16ToNe (order : ByteOrder) (x : UInt16) : (u16ToNe order x).length = 2 := by cases order <;> rfl

theorem copyFromSlice_of_le {bytes source : Bytes} {start stop : Nat} (hsource : source.length = 2) (hstop : stop = start + 2)
    (h : start + 2 ≤ bytes.length) : copyFromSlice bytes start stop source = .ok (bytes.overwrite start source) := by
  subst hstop
  rw [copyFromSlice, if_pos (by omega), if_pos (by omega), List.overwrite, hsource]

theorem byteAt_overwrite_of_apart {bytes source : Bytes} {start i : Nat} (h : start + source.length ≤ bytes.length)
    (hapart : i < start ∨ start + source.length ≤ i) : byteAt (bytes.overwrite start source) i = byteAt bytes i := by
  rw [byteAt, byteAt, List.getD_eq_getElem?_getD, List.getElem?_overwrite h, if_neg (by omega), List.getD_eq_getElem?_getD]

/-- A write does not change a field apart from it. -/
theorem fieldAt_overwrite_of_apart {order : ByteOrder} {bytes source : Bytes} {start i : Nat}
    (h : start + source.length ≤ bytes.length) (hapart : i + 2 ≤ start ∨ start + source.length ≤ i) :
    fieldAt order (bytes.overwrite start source) i = fieldAt order bytes i := by
  rw [fieldAt, byteAt_overwrite_of_apart h (by omega), byteAt_overwrite_of_apart h (by omega), fieldAt]

/-- A field reads back as it was written. -/
theorem fieldAt_overwrite_self {order : ByteOrder} {bytes : Bytes} {i : Nat} (x : UInt16) (h : i + 2 ≤ bytes.length) :
    fieldAt order (bytes.overwrite i (u16ToNe order x)) i = x := by
  have hat : ∀ j, j < 2 → byteAt (bytes.overwrite i (u16ToNe order x)) (i + j) = byteAt (u16ToNe order x) j := by
    intro j hj
    have hlen := length_u16ToNe order x
    rw [byteAt, List.getD_eq_getElem?_getD, List.getElem?_overwrite (by omega), if_pos (by omega), Nat.add_sub_cancel_left,
      ← List.getD_eq_getElem?_getD, byteAt]
  have hfirst := hat 0 (by decide)
  have hsecond := hat 1 (by decide)
  rw [Nat.add_zero] at hfirst
  rw [fieldAt, hfirst, hsecond]
  cases order with
  | little => exact u16FromBe_toBe x
  | big => exact u16FromBe_toBe x

/-- Writing a field back as it is in wire form changes nothing. -/
theorem overwrite_fieldAt {bytes : Bytes} {i : Nat} (h : i + 2 ≤ bytes.length) :
    bytes.overwrite i (u16ToBe (fieldAt .big bytes i)) = bytes := by
  refine List.overwrite_self (by simpa using h) ?_
  have hfirst : byteAt bytes i = bytes[i] := by simp [byteAt, show i < bytes.length by omega]
  have hsecond : byteAt bytes (i + 1) = bytes[i + 1] := by simp [byteAt, show i + 1 < bytes.length by omega]
  have hdrop : bytes.drop i = byteAt bytes i :: byteAt bytes (i + 1) :: bytes.drop (i + 1 + 1) := by
    rw [hfirst, hsecond, ← List.drop_eq_getElem_cons, ← List.drop_eq_getElem_cons]
  rw [hdrop, fieldAt]
  exact u16ToBe_fromBe _ _

/-! ## Normalizing -/

/-- The length of the header, as the first byte has it. -/
def headerLength (bytes : Bytes) : Nat := (byteAt bytes 0).toNat % 16 * 4

/-- The bytes with the outer length and fragment fields overwritten. -/
def restoreOuter (order : ByteOrder) (bytes : Bytes) : Bytes :=
  (bytes.overwrite 2 (u16ToBe (.ofNat ((fieldAt order bytes 2).toNat + headerLength bytes)))).overwrite 6
    (u16ToBe (fieldAt order bytes 6))

theorem length_restoreOuter {order : ByteOrder} {bytes : Bytes} (h : 20 ≤ bytes.length) :
    (restoreOuter order bytes).length = bytes.length := by
  unfold restoreOuter
  rw [List.length_overwrite, List.length_overwrite]
  · simp only [length_u16ToBe]
    omega
  · rw [List.length_overwrite] <;> simp only [length_u16ToBe] <;> omega

/-- The bytes with the quoted length overwritten, where there is one to restore. -/
def restoreQuote (order : ByteOrder) (bytes : Bytes) (header : Nat) : Bytes :=
  if restoresQuote (byteAt bytes header) ∧ header + 28 ≤ bytes.length ∧ (byteAt bytes (header + 8)).toNat / 16 = 4 then
    bytes.overwrite (header + 10) (u16ToBe (fieldAt order bytes (header + 10)))
  else bytes

theorem normalizeQuote_eq {order : ByteOrder} {bytes : Bytes} {header : Nat} (hheader : header ≤ 60)
    (h : header < bytes.length) : normalizeQuote order bytes header = .ok (restoreQuote order bytes header) := by
  have hadd : ∀ n, n ≤ 20 → addUsize (header + 8) n = .ok (header + 8 + n) := fun n hn => addUsize_of_lt (by omega)
  have hoffset : addUsize header 8 = .ok (header + 8) := addUsize_of_lt (by omega)
  unfold normalizeQuote restoreQuote
  rw [index_of_lt h, Checked.ok_bind]
  by_cases hkind : restoresQuote (byteAt bytes header) = true
  swap
  · rw [if_neg hkind, if_neg (fun hall => hkind hall.1)]
    rfl
  rw [if_pos hkind, hoffset, Checked.ok_bind, hadd 20 (by decide), Checked.ok_bind]
  by_cases hroom : bytes.length < header + 8 + 20
  · rw [if_pos hroom, if_neg (fun hall => absurd hall.2.1 (by omega))]
    rfl
  rw [if_neg hroom, index_of_lt (by omega), Checked.ok_bind]
  by_cases hversion : byteAt bytes (header + 8) >>> 4 = 4
  swap
  · rw [if_pos hversion, if_neg (fun hall => hversion ((shiftRight_four_eq _ _).2 hall.2.2))]
    rfl
  rw [if_neg (not_not.2 hversion), if_pos ⟨hkind, by omega, (shiftRight_four_eq _ _).1 hversion⟩]
  simp only [hadd 2 (by decide), hadd 3 (by decide), hadd 4 (by decide), Checked.ok_bind,
    index_of_lt (show header + 8 + 2 < bytes.length by omega), index_of_lt (show header + 8 + 3 < bytes.length by omega)]
  exact copyFromSlice_of_le (length_u16ToBe _) rfl (by omega)

/-- What `normalize_macos_ipv4` returns. -/
def normalized (order : ByteOrder) (bytes : Bytes) : Bytes :=
  if bytes.length < 20 then bytes
  else if (byteAt bytes 0).toNat / 16 ≠ 4 then bytes
  else if headerLength bytes < 20 then bytes
  else if bytes.length < headerLength bytes + 8 then bytes
  else if (fieldAt order bytes 2).toNat + headerLength bytes > 65535 then bytes
  else restoreQuote order (restoreOuter order bytes) (headerLength bytes)

/-- `normalize_macos_ipv4` never panics, and this is what it returns. -/
theorem normalizeMacosIpv4_eq (order : ByteOrder) (bytes : Bytes) :
    normalizeMacosIpv4 order bytes = .ok (normalized order bytes) := by
  unfold normalizeMacosIpv4 normalized
  by_cases hlen : bytes.length < 20
  · rw [if_pos hlen, if_pos hlen]
    rfl
  have hindex : ∀ i, i < 20 → index bytes i = .ok (byteAt bytes i) := fun i hi => index_of_lt (by omega)
  have hheader : mulUsize ((byteAt bytes 0).toNat &&& 15) 4 = .ok (headerLength bytes) := by
    rw [and_fifteen]
    exact mulUsize_of_lt (by omega)
  have hle : headerLength bytes ≤ 60 := by
    unfold headerLength
    omega
  have hfield := (fieldAt order bytes 2).toNat_lt
  have hroom : addUsize (headerLength bytes) 8 = .ok (headerLength bytes + 8) := addUsize_of_lt (by omega)
  have hlength : addUsize (fieldAt order bytes 2).toNat (headerLength bytes) =
      .ok ((fieldAt order bytes 2).toNat + headerLength bytes) := addUsize_of_lt (by omega)
  have hnibble : byteAt bytes 0 >>> 4 ≠ 4 ↔ (byteAt bytes 0).toNat / 16 ≠ 4 := not_congr (shiftRight_four_eq _ 4)
  rw [if_neg hlen, if_neg hlen, hindex 0 (by decide), Checked.ok_bind]
  by_cases hversion : (byteAt bytes 0).toNat / 16 ≠ 4
  · rw [if_pos hversion, if_pos (hnibble.2 hversion)]
    rfl
  rw [if_neg hversion, if_neg (mt hnibble.1 hversion), Checked.ok_bind, hheader, Checked.ok_bind]
  by_cases hmin : headerLength bytes < 20
  · rw [if_pos hmin, if_pos hmin]
    rfl
  rw [if_neg hmin, if_neg hmin, hroom, Checked.ok_bind]
  by_cases hshort : bytes.length < headerLength bytes + 8
  · rw [if_pos hshort, if_pos hshort]
    rfl
  rw [if_neg hshort, if_neg hshort, hindex 2 (by decide), hindex 3 (by decide), Checked.ok_bind, Checked.ok_bind]
  change (addUsize (fieldAt order bytes 2).toNat (headerLength bytes) >>= _) = _
  rw [hlength, Checked.ok_bind]
  by_cases hmax : (fieldAt order bytes 2).toNat + headerLength bytes > 65535
  · rw [if_pos hmax, if_pos hmax]
    rfl
  have hfirst : 2 + (u16ToBe (.ofNat ((fieldAt order bytes 2).toNat + headerLength bytes))).length ≤ bytes.length := by
    rw [length_u16ToBe]
    omega
  have hwritten : ∀ i, i = 6 ∨ i = 7 → index (bytes.overwrite 2 (u16ToBe (.ofNat ((fieldAt order bytes 2).toNat +
      headerLength bytes)))) i = .ok (byteAt bytes i) := by
    intro i hi
    rw [index_of_lt (by rw [List.length_overwrite hfirst]; omega),
      byteAt_overwrite_of_apart hfirst (by rw [length_u16ToBe]; omega)]
  rw [if_neg hmax, if_neg hmax, copyFromSlice_of_le (length_u16ToBe _) rfl (by omega), Checked.ok_bind,
    hwritten 6 (Or.inl rfl), hwritten 7 (Or.inr rfl), Checked.ok_bind, Checked.ok_bind]
  change (copyFromSlice _ 6 8 (u16ToBe (fieldAt order bytes 6)) >>= _) = _
  rw [copyFromSlice_of_le (length_u16ToBe _) rfl (by rw [List.length_overwrite hfirst]; omega), Checked.ok_bind]
  change normalizeQuote order (restoreOuter order bytes) (headerLength bytes) = _
  exact normalizeQuote_eq hle (by rw [length_restoreOuter (by omega)]; omega)

/-- Normalizing keeps the length. -/
theorem length_normalized (order : ByteOrder) (bytes : Bytes) : (normalized order bytes).length = bytes.length := by
  unfold normalized
  split
  · rfl
  split
  · rfl
  split
  · rfl
  split
  · rfl
  split
  · rfl
  have houter : (restoreOuter order bytes).length = bytes.length := length_restoreOuter (by omega)
  unfold restoreQuote
  split
  · rename_i hquote
    rw [List.length_overwrite (by rw [length_u16ToBe]; omega), houter]
  · exact houter

end IcmpPing
