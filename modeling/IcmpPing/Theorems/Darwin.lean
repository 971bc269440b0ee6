import IcmpPing.Lemmas.Darwin
import IcmpPing.Theorems.Accept

/-!
# Normalizing undoes host-order delivery

What Darwin makes of a datagram in wire form is three fields overwritten; `normalize_macos_ipv4` overwrites the same fields with
what they were.
-/

namespace IcmpPing

/-- A datagram in wire form that Darwin delivers: an IPv4 header, at least eight bytes after it, a total length that covers the
header, and, where Darwin or `normalize_macos_ipv4` would touch a quote, a type whose quote both touch, with an IPv4 header
there. -/
structure WireForm (wire : Bytes) : Prop where
  version : (byteAt wire 0).toNat / 16 = 4
  header_min : 20 ≤ headerLength wire
  room : headerLength wire + 8 ≤ wire.length
  total : headerLength wire ≤ (fieldAt .big wire 2).toNat
  quote : restoresQuote (byteAt wire (headerLength wire)) = false ∨
    convertsQuote (byteAt wire (headerLength wire)) = true ∧ headerLength wire + 28 ≤ wire.length ∧
      (byteAt wire (headerLength wire + 8)).toNat / 16 = 4

/-- A header has at most sixty bytes. -/
theorem headerLength_le (bytes : Bytes) : headerLength bytes ≤ 60 := by
  unfold headerLength
  omega

/-- A quote that Darwin converts is one that is restored. -/
theorem restoresQuote_of_convertsQuote {kind : UInt8} (h : convertsQuote kind = true) : restoresQuote kind = true := by
  unfold convertsQuote at h
  unfold restoresQuote
  simp only [decide_eq_true_eq] at h ⊢
  rcases h with h | h | h
  · exact Or.inl h
  · exact Or.inr (Or.inr (Or.inr (Or.inl h)))
  · exact Or.inr (Or.inr (Or.inr (Or.inr h)))

/-! ## What Darwin writes -/

/-- The datagram with its outer length and fragment fields in host order, and the header subtracted from the length. -/
def deliverOuter (order : ByteOrder) (wire : Bytes) : Bytes :=
  (wire.overwrite 2 (u16ToNe order (fieldAt .big wire 2 - .ofNat (headerLength wire)))).overwrite 6
    (u16ToNe order (fieldAt .big wire 6))

/-- The datagram with its quoted length in host order, where Darwin converts it. -/
def deliverQuote (order : ByteOrder) (wire : Bytes) (header : Nat) : Bytes :=
  if convertsQuote (byteAt wire header) then
    wire.overwrite (header + 10) (u16ToNe order (fieldAt .big wire (header + 10)))
  else wire

/-- A quote that Darwin converts is there. -/
theorem WireForm.quote_room {wire : Bytes} (h : WireForm wire) (hkind : convertsQuote (byteAt wire (headerLength wire)) = true) :
    headerLength wire + 28 ≤ wire.length := by
  rcases h.quote with hnot | ⟨-, hroom, -⟩
  · rw [restoresQuote_of_convertsQuote hkind] at hnot
    cases hnot
  · exact hroom

/-- The conversion of a quote does not panic. -/
theorem convertQuote_eq {order : ByteOrder} {bytes : Bytes} {header : Nat} (hheader : header ≤ 60) (h : header < bytes.length)
    (hquote : convertsQuote (byteAt bytes header) = true → header + 28 ≤ bytes.length) :
    convertQuote order bytes header = .ok (deliverQuote order bytes header) := by
  have hadd : ∀ n, n ≤ 4 → addUsize (header + 8) n = .ok (header + 8 + n) := fun n hn => addUsize_of_lt (by omega)
  have hoffset : addUsize header 8 = .ok (header + 8) := addUsize_of_lt (by omega)
  unfold convertQuote deliverQuote
  rw [index_of_lt h, Checked.ok_bind]
  by_cases hkind : convertsQuote (byteAt bytes header) = true
  swap
  · rw [if_neg hkind, if_neg hkind]
    rfl
  have hroom := hquote hkind
  rw [if_pos hkind, if_pos hkind, hoffset, Checked.ok_bind]
  simp only [hadd 2 (by decide), hadd 3 (by decide), hadd 4 (by decide), Checked.ok_bind,
    index_of_lt (show header + 8 + 2 < bytes.length by omega), index_of_lt (show header + 8 + 3 < bytes.length by omega)]
  exact copyFromSlice_of_le (length_u16ToNe ..) rfl (by omega)

section Deliver

variable {order : ByteOrder} {wire : Bytes}

/-- The conversion of the header keeps the length. -/
theorem length_deliverOuter (h : 20 ≤ wire.length) : (deliverOuter order wire).length = wire.length := by
  unfold deliverOuter
  rw [List.length_overwrite, List.length_overwrite]
  · rw [length_u16ToNe]
    omega
  · rw [List.length_overwrite] <;> rw [length_u16ToNe] <;> omega

/-- The delivered outer fields leave every byte apart from them. -/
theorem byteAt_deliverOuter {i : Nat} (h : 20 ≤ wire.length) (hi : i < 2 ∨ 8 ≤ i) :
    byteAt (deliverOuter order wire) i = byteAt wire i := by
  unfold deliverOuter
  rw [byteAt_overwrite_of_apart, byteAt_overwrite_of_apart]
  · rw [length_u16ToNe]
    omega
  · rw [length_u16ToNe]
    omega
  · rw [List.length_overwrite] <;> rw [length_u16ToNe] <;> omega
  · rw [length_u16ToNe]
    omega

/-- The conversion of the header keeps the length of the header. -/
theorem headerLength_deliverOuter (h : 20 ≤ wire.length) : headerLength (deliverOuter order wire) = headerLength wire := by
  rw [headerLength, byteAt_deliverOuter h (Or.inl (by decide)), headerLength]

/-- The outer length, with the header added again. -/
theorem length_add_header (h : 20 ≤ wire.length) (htotal : headerLength wire ≤ (fieldAt .big wire 2).toNat) :
    (fieldAt order (deliverOuter order wire) 2).toNat + headerLength (deliverOuter order wire) = (fieldAt .big wire 2).toNat := by
  have hfirst : 2 + (u16ToNe order (fieldAt .big wire 2 - .ofNat (headerLength wire))).length ≤ wire.length := by
    rw [length_u16ToNe]
    omega
  have hfield : fieldAt order (deliverOuter order wire) 2 = fieldAt .big wire 2 - .ofNat (headerLength wire) := by
    unfold deliverOuter
    rw [fieldAt_overwrite_of_apart, fieldAt_overwrite_self]
    · omega
    · rw [List.length_overwrite hfirst, length_u16ToNe]
      omega
    · exact Or.inl (by decide)
  have hle := headerLength_le wire
  have hheader : (UInt16.ofNat (headerLength wire)).toNat = headerLength wire := by
    rw [UInt16.toNat_ofNat']
    omega
  have hsub : UInt16.ofNat (headerLength wire) ≤ fieldAt .big wire 2 := by
    rw [UInt16.le_iff_toNat_le, hheader]
    exact htotal
  rw [hfield, headerLength_deliverOuter h, UInt16.toNat_sub_of_le _ _ hsub, hheader]
  omega

/-- The outer fields are restored. -/
theorem restoreOuter_deliverOuter (h : 20 ≤ wire.length) (htotal : headerLength wire ≤ (fieldAt .big wire 2).toNat) :
    restoreOuter order (deliverOuter order wire) = wire := by
  have hfirst : 2 + (u16ToNe order (fieldAt .big wire 2 - .ofNat (headerLength wire))).length ≤ wire.length := by
    rw [length_u16ToNe]
    omega
  have hsecond : fieldAt order (deliverOuter order wire) 6 = fieldAt .big wire 6 :=
    fieldAt_overwrite_self _ (by rw [List.length_overwrite hfirst]; omega)
  rw [restoreOuter, length_add_header h htotal, hsecond, UInt16.ofNat_toNat]
  have hdeliver : ∃ a b : Bytes, a.length = 2 ∧ b.length = 2 ∧ deliverOuter order wire = (wire.overwrite 2 a).overwrite 6 b :=
    ⟨_, _, length_u16ToNe .., length_u16ToNe .., rfl⟩
  obtain ⟨a, b, ha, hb, hdeliver⟩ := hdeliver
  have hla : 2 + a.length ≤ wire.length := by omega
  have hlb : 6 + b.length ≤ (wire.overwrite 2 a).length := by rw [List.length_overwrite hla]; omega
  have hwide : ∀ x : UInt16, 2 + (u16ToBe x).length ≤ (wire.overwrite 2 a).length := by
    intro x
    rw [List.length_overwrite hla, length_u16ToBe]
    omega
  -- the second write to a field undoes the first, once the writes to the other field are out of the way
  calc ((deliverOuter order wire).overwrite 2 (u16ToBe (fieldAt .big wire 2))).overwrite 6 (u16ToBe (fieldAt .big wire 6))
    _ = (((wire.overwrite 2 a).overwrite 2 (u16ToBe (fieldAt .big wire 2))).overwrite 6 b).overwrite 6
          (u16ToBe (fieldAt .big wire 6)) := by
        rw [hdeliver, List.overwrite_comm hlb (hwide _) (Or.inr (by rw [length_u16ToBe]; omega))]
    _ = (wire.overwrite 6 b).overwrite 6 (u16ToBe (fieldAt .big wire 6)) := by
        rw [List.overwrite_overwrite hla (by rw [length_u16ToBe, ha]), overwrite_fieldAt (by omega)]
    _ = wire := by
        rw [List.overwrite_overwrite (by omega) (by rw [length_u16ToBe, hb]), overwrite_fieldAt (by omega)]

/-- The quoted length is restored. -/
theorem restoreQuote_deliverQuote (h : WireForm wire) :
    restoreQuote order (deliverQuote order wire (headerLength wire)) (headerLength wire) = wire := by
  have hmin := h.header_min
  have hroom := h.room
  unfold deliverQuote restoreQuote
  rcases h.quote with hkind | ⟨hkind, hlen, hversion⟩
  · have hnot : ¬convertsQuote (byteAt wire (headerLength wire)) = true := by
      intro hconverts
      rw [restoresQuote_of_convertsQuote hconverts] at hkind
      cases hkind
    simp only [if_neg hnot, hkind, Bool.false_eq_true, false_and, if_false]
  · have hwrite : headerLength wire + 10 + (u16ToNe order (fieldAt .big wire (headerLength wire + 10))).length ≤ wire.length := by
      rw [length_u16ToNe]
      omega
    rw [if_pos hkind, byteAt_overwrite_of_apart hwrite (by omega), byteAt_overwrite_of_apart hwrite (by omega),
      List.length_overwrite hwrite, if_pos ⟨restoresQuote_of_convertsQuote hkind, hlen, hversion⟩,
      fieldAt_overwrite_self _ (by omega), List.overwrite_overwrite hwrite (by rw [length_u16ToBe, length_u16ToNe]),
      overwrite_fieldAt (by omega)]

end Deliver

/-- The quoted length is apart from the outer header. -/
theorem deliverQuote_same (order : ByteOrder) {wire : Bytes} (h : WireForm wire) :
    (deliverQuote order wire (headerLength wire)).length = wire.length ∧
      ∀ i, i < 20 → byteAt (deliverQuote order wire (headerLength wire)) i = byteAt wire i := by
  have hmin := h.header_min
  unfold deliverQuote
  by_cases hkind : convertsQuote (byteAt wire (headerLength wire)) = true
  swap
  · rw [if_neg hkind]
    exact ⟨rfl, fun _ _ => rfl⟩
  rw [if_pos hkind]
  have hroom := h.quote_room hkind
  have hwrite : headerLength wire + 10 + (u16ToNe order (fieldAt .big wire (headerLength wire + 10))).length ≤ wire.length := by
    rw [length_u16ToNe]
    omega
  exact ⟨List.length_overwrite hwrite, fun i hi => byteAt_overwrite_of_apart hwrite (by omega)⟩

/-- The writes of `darwin_received` can be made in either order. -/
theorem deliverQuote_deliverOuter {order : ByteOrder} {wire : Bytes} (h : WireForm wire) :
    deliverQuote order (deliverOuter order wire) (headerLength wire) =
      deliverOuter order (deliverQuote order wire (headerLength wire)) := by
  have hmin := h.header_min
  have hroom := h.room
  have hwide : 20 ≤ wire.length := by omega
  obtain ⟨hlen, hsame⟩ := deliverQuote_same order h
  have hfields : ∀ i, i + 1 < 20 → fieldAt .big (deliverQuote order wire (headerLength wire)) i = fieldAt .big wire i := by
    intro i hi
    rw [fieldAt, hsame i (by omega), hsame (i + 1) hi, fieldAt]
  have hheader : headerLength (deliverQuote order wire (headerLength wire)) = headerLength wire := by
    rw [headerLength, hsame 0 (by decide), headerLength]
  have houter : deliverOuter order (deliverQuote order wire (headerLength wire)) =
      ((deliverQuote order wire (headerLength wire)).overwrite 2 (u16ToNe order (fieldAt .big wire 2 -
        .ofNat (headerLength wire)))).overwrite 6 (u16ToNe order (fieldAt .big wire 6)) := by
    rw [deliverOuter, hfields 2 (by decide), hfields 6 (by decide), hheader]
  rw [houter]
  unfold deliverQuote
  rw [byteAt_deliverOuter hwide (Or.inr (by omega))]
  by_cases hkind : convertsQuote (byteAt wire (headerLength wire)) = true
  swap
  · rw [if_neg hkind, if_neg hkind]
    rfl
  have hquote := h.quote_room hkind
  have hfield : fieldAt .big (deliverOuter order wire) (headerLength wire + 10) = fieldAt .big wire (headerLength wire + 10) := by
    rw [fieldAt, byteAt_deliverOuter hwide (Or.inr (by omega)), byteAt_deliverOuter hwide (Or.inr (by omega)), fieldAt]
  rw [if_pos hkind, if_pos hkind, hfield, deliverOuter]
  generalize fieldAt .big wire 2 - .ofNat (headerLength wire) = length
  have htwo : ∀ (i : Nat) (x : UInt16), i + 2 ≤ wire.length → i + (u16ToNe order x).length ≤ wire.length := by
    intro i x hi
    rwa [length_u16ToNe]
  rw [List.overwrite_comm (by rw [List.length_overwrite (htwo 2 _ (by omega))]; exact htwo 6 _ (by omega))
      (by rw [List.length_overwrite (htwo 2 _ (by omega))]; exact htwo _ _ (by omega)) (Or.inl (by rw [length_u16ToNe]; omega)),
    List.overwrite_comm (htwo 2 _ (by omega)) (htwo _ _ (by omega)) (Or.inl (by rw [length_u16ToNe]; omega))]

/-- `darwin_received` of a datagram in wire form: the quoted length converted, and the outer fields. -/
theorem darwinReceived_eq {order : ByteOrder} {wire : Bytes} (h : WireForm wire) :
    darwinReceived order wire = .ok (deliverOuter order (deliverQuote order wire (headerLength wire))) := by
  have hmin := h.header_min
  have hroom := h.room
  have hle := headerLength_le wire
  have hwide : 20 ≤ wire.length := by omega
  have hindex : ∀ i, i < 20 → index wire i = .ok (byteAt wire i) := fun i hi => index_of_lt (by omega)
  have hheader : mulUsize ((byteAt wire 0).toNat &&& 15) 4 = .ok (headerLength wire) := by
    rw [and_fifteen]
    exact mulUsize_of_lt (by omega)
  have hsub : subU16 (fieldAt .big wire 2) (.ofNat (headerLength wire)) =
      .ok (fieldAt .big wire 2 - .ofNat (headerLength wire)) := by
    refine if_pos (UInt16.le_iff_toNat_le.2 ?_)
    rw [UInt16.toNat_ofNat', Nat.mod_eq_of_lt (by omega)]
    exact h.total
  have hfirst : 2 + (u16ToNe order (fieldAt .big wire 2 - .ofNat (headerLength wire))).length ≤ wire.length := by
    rw [length_u16ToNe]
    omega
  have hwritten : ∀ i, i = 6 ∨ i = 7 → index (wire.overwrite 2 (u16ToNe order (fieldAt .big wire 2 -
      .ofNat (headerLength wire)))) i = .ok (byteAt wire i) := by
    intro i hi
    rw [index_of_lt (by rw [List.length_overwrite hfirst]; omega),
      byteAt_overwrite_of_apart hfirst (by rw [length_u16ToNe]; omega)]
  have hkind : byteAt (deliverOuter order wire) (headerLength wire) = byteAt wire (headerLength wire) :=
    byteAt_deliverOuter hwide (Or.inr (by omega))
  unfold darwinReceived
  rw [hindex 0 (by decide), Checked.ok_bind, hheader, Checked.ok_bind, hindex 2 (by decide), hindex 3 (by decide),
    Checked.ok_bind, Checked.ok_bind]
  change (subU16 (fieldAt .big wire 2) (.ofNat (headerLength wire)) >>= _) = _
  rw [hsub, Checked.ok_bind, copyFromSlice_of_le (length_u16ToNe ..) rfl (by omega), Checked.ok_bind, hwritten 6 (Or.inl rfl),
    hwritten 7 (Or.inr rfl), Checked.ok_bind, Checked.ok_bind]
  change (copyFromSlice _ 6 8 (u16ToNe order (fieldAt .big wire 6)) >>= _) = _
  rw [copyFromSlice_of_le (length_u16ToNe ..) rfl (by rw [List.length_overwrite hfirst]; omega), Checked.ok_bind]
  change convertQuote order (deliverOuter order wire) (headerLength wire) = _
  rw [convertQuote_eq hle (by rw [length_deliverOuter hwide]; omega), deliverQuote_deliverOuter h]
  rw [hkind, length_deliverOuter hwide]
  exact h.quote_room

/-- `normalize_macos_ipv4` undoes host-order delivery, for both byte orders of the host: of every datagram in wire form, what
Darwin delivers is normalized to the datagram, byte for byte; so parsing after normalizing gives the answer that parsing the
datagram in wire form gives. -/
theorem normalize_darwinReceived (order : ByteOrder) {wire : Bytes} (h : WireForm wire) :
    ∃ received, darwinReceived order wire = .ok received ∧ normalizeMacosIpv4 order received = .ok wire ∧
      ∀ source expected, (normalizeMacosIpv4 order received >>= fun bytes => parse bytes source expected) =
        parse wire source expected := by
  have hmin := h.header_min
  have hroom := h.room
  obtain ⟨hlen, hsame⟩ := deliverQuote_same order h
  have hwide : 20 ≤ (deliverQuote order wire (headerLength wire)).length := by omega
  have hheader : headerLength (deliverQuote order wire (headerLength wire)) = headerLength wire := by
    rw [headerLength, hsame 0 (by decide), headerLength]
  have htotal : headerLength (deliverQuote order wire (headerLength wire)) ≤
      (fieldAt .big (deliverQuote order wire (headerLength wire)) 2).toNat := by
    rw [hheader, fieldAt, hsame 2 (by decide), hsame 3 (by decide)]
    exact h.total
  have hnormalized : normalized order (deliverOuter order (deliverQuote order wire (headerLength wire))) = wire := by
    have hfield := (fieldAt .big (deliverQuote order wire (headerLength wire)) 2).toNat_lt
    unfold normalized
    rw [length_add_header hwide htotal, length_deliverOuter hwide, headerLength_deliverOuter hwide, hheader,
      byteAt_deliverOuter hwide (Or.inl (by decide)), hsame 0 (by decide), restoreOuter_deliverOuter hwide htotal,
      if_neg (by omega), if_neg (not_not.2 h.version), if_neg (by omega), if_neg (by omega), if_neg (by omega)]
    exact restoreQuote_deliverQuote h
  have hnormalize : normalizeMacosIpv4 order (deliverOuter order (deliverQuote order wire (headerLength wire))) = .ok wire := by
    rw [normalizeMacosIpv4_eq, hnormalized]
  refine ⟨_, darwinReceived_eq h, hnormalize, fun source expected => ?_⟩
  rw [hnormalize, Checked.ok_bind]

theorem normalize_darwinReceived_sample :
    ∃ received, darwinReceived .little sampleError = .ok received ∧ normalizeMacosIpv4 .little received = .ok sampleError := by
  have hwire : WireForm sampleError :=
    ⟨by decide, by decide, by decide, by decide, Or.inr ⟨by decide, by decide, by decide⟩⟩
  obtain ⟨received, hreceived, hnormalize, -⟩ := normalize_darwinReceived .little hwire
  exact ⟨received, hreceived, hnormalize⟩

end IcmpPing
