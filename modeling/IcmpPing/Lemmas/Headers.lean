import IcmpPing.Packet
import IcmpPing.Wire
import IcmpPing.Lemmas.Bytes

/-!
# The header parsers accept exactly the wire formats

`ipv4` and `quotedV6` never panic, and they return a packet's ICMP part exactly for the encodings of `Wire.lean`.
-/

namespace IcmpPing

/-! ## IPv4 -/

/-- The checks of `ipv4`, on the bytes they read. -/
structure Ipv4Ok (packet : Bytes) (quoted : Bool) : Prop where
  room : 20 ≤ packet.length
  version : (byteAt packet 0).toNat / 16 = 4
  protocol : byteAt packet 9 = 1
  header_min : 20 ≤ (byteAt packet 0).toNat % 16 * 4
  header_max : (byteAt packet 0).toNat % 16 * 4 ≤ packet.length
  total : (byteAt packet 0).toNat % 16 * 4 + 8 ≤ (u16FromBe (byteAt packet 2) (byteAt packet 3)).toNat
  fragment : (byteAt packet 6).toNat % 64 = 0 ∧ byteAt packet 7 = 0
  whole : quoted = false → (u16FromBe (byteAt packet 2) (byteAt packet 3)).toNat ≤ packet.length

/-- What `ipv4` returns for a packet that passes its checks. -/
def ipv4Value (packet : Bytes) : Bytes × IpAddr × IpAddr :=
  ((packet.drop ((byteAt packet 0).toNat % 16 * 4)).take
      ((u16FromBe (byteAt packet 2) (byteAt packet 3)).toNat - (byteAt packet 0).toNat % 16 * 4),
    .v4 ⟨byteAt packet 12, byteAt packet 13, byteAt packet 14, byteAt packet 15⟩,
    .v4 ⟨byteAt packet 16, byteAt packet 17, byteAt packet 18, byteAt packet 19⟩)

/-- `ipv4` of a packet with room for a header, with its indices in range. -/
theorem ipv4_of_le {packet : Bytes} (quoted : Bool) (h : 20 ≤ packet.length) :
    ipv4 packet quoted =
      if byteAt packet 0 >>> 4 ≠ 4 then .ok none
      else if byteAt packet 9 ≠ 1 then .ok none
      else if ((byteAt packet 0).toNat &&& 15) * 4 < 20 then .ok none
      else if ((byteAt packet 0).toNat &&& 15) * 4 > packet.length then .ok none
      else if (u16FromBe (byteAt packet 2) (byteAt packet 3)).toNat < ((byteAt packet 0).toNat &&& 15) * 4 + 8 then .ok none
      else if u16FromBe (byteAt packet 6) (byteAt packet 7) &&& 0x3fff ≠ 0 then .ok none
      else if quoted = false ∧ (u16FromBe (byteAt packet 2) (byteAt packet 3)).toNat > packet.length then .ok none
      else (slice packet (((byteAt packet 0).toNat &&& 15) * 4)
          (if quoted then min (u16FromBe (byteAt packet 2) (byteAt packet 3)).toNat packet.length
            else (u16FromBe (byteAt packet 2) (byteAt packet 3)).toNat)) >>= fun part =>
        .ok (some (part, (ipv4Value packet).2)) := by
  have hlen : ¬packet.length < 20 := by omega
  have hindex : ∀ i, i < 20 → index packet i = .ok (byteAt packet i) := fun i hi => index_of_lt (by omega)
  have hnibble : (byteAt packet 0).toNat &&& 15 < 16 := Nat.and_lt_two_pow _ (by decide : 15 < 2 ^ 4)
  have hheader : mulUsize ((byteAt packet 0).toNat &&& 15) 4 = .ok (((byteAt packet 0).toNat &&& 15) * 4) :=
    mulUsize_of_lt (by omega)
  have htotal : addUsize (((byteAt packet 0).toNat &&& 15) * 4) 8 = .ok (((byteAt packet 0).toNat &&& 15) * 4 + 8) :=
    addUsize_of_lt (by omega)
  simp only [ipv4, if_neg hlen, hheader, htotal, hindex 0 (by decide), hindex 2 (by decide), hindex 3 (by decide), hindex 6 (by decide),
    hindex 7 (by decide), hindex 9 (by decide), hindex 12 (by decide), hindex 13 (by decide), hindex 14 (by decide),
    hindex 15 (by decide), hindex 16 (by decide), hindex 17 (by decide), hindex 18 (by decide), hindex 19 (by decide),
    Checked.ok_bind, Checked.pure_eq, ipv4Value]

/-- A packet that passes the checks has its ICMP part returned. -/
theorem ipv4_of_ok {packet : Bytes} {quoted : Bool} (h : Ipv4Ok packet quoted) :
    ipv4 packet quoted = .ok (some (ipv4Value packet)) := by
  have hheader := and_fifteen (byteAt packet 0)
  have hstop : (byteAt packet 0).toNat % 16 * 4 ≤ (if quoted then min (u16FromBe (byteAt packet 2) (byteAt packet 3)).toNat packet.length
      else (u16FromBe (byteAt packet 2) (byteAt packet 3)).toNat) ∧
      (if quoted then min (u16FromBe (byteAt packet 2) (byteAt packet 3)).toNat packet.length
      else (u16FromBe (byteAt packet 2) (byteAt packet 3)).toNat) ≤ packet.length := by
    have h1 := h.header_max
    have h2 := h.total
    cases quoted with
    | true => simp only [if_true]; omega
    | false => simpa only [Bool.false_eq_true, if_false] using ⟨by omega, h.whole rfl⟩
  rw [ipv4_of_le quoted h.room, if_neg (not_not.2 ((shiftRight_four_eq _ _).2 h.version)), if_neg (not_not.2 h.protocol),
    hheader, if_neg (Nat.not_lt.2 h.header_min), if_neg (Nat.not_lt.2 h.header_max), if_neg (Nat.not_lt.2 h.total),
    if_neg (not_not.2 ((ipv4_fragment_eq_zero _ _).2 h.fragment)),
    if_neg (fun hq => absurd (h.whole hq.1) (Nat.not_le.2 hq.2)), slice_of_le hstop.1 hstop.2, Checked.ok_bind]
  -- cutting a quote at the shorter of its declared and its actual length is cutting it at the declared one
  cases quoted with
  | false => simp only [Bool.false_eq_true, if_false, ipv4Value, List.drop_take]
  | true => rw [if_pos rfl, ← List.take_eq_take_min, List.drop_take, ipv4Value]

/-- A packet that fails a check is not an error, but has nothing returned. -/
theorem ipv4_of_not_ok {packet : Bytes} {quoted : Bool} (h : ¬Ipv4Ok packet quoted) : ipv4 packet quoted = .ok none := by
  by_cases hlen : packet.length < 20
  · simp only [ipv4, if_pos hlen, Checked.pure_eq]
  rw [ipv4_of_le quoted (by omega), and_fifteen]
  split
  · rfl
  split
  · rfl
  split
  · rfl
  split
  · rfl
  split
  · rfl
  split
  · rfl
  split
  · rfl
  rename_i hversion hprotocol hmin hmax htotal hfragment hwhole
  exact absurd ⟨by omega, (shiftRight_four_eq _ _).1 (not_not.1 hversion), not_not.1 hprotocol, by omega, by omega, by omega,
    (ipv4_fragment_eq_zero _ _).1 (not_not.1 hfragment), fun hq => by_contra fun hgt => hwhole ⟨hq, by omega⟩⟩ h

/-- `ipv4` returns a part of a packet exactly when the packet passes its checks. -/
theorem ipv4_eq_some_iff_ok (packet : Bytes) (quoted : Bool) (value : Bytes × IpAddr × IpAddr) :
    ipv4 packet quoted = .ok (some value) ↔ Ipv4Ok packet quoted ∧ value = ipv4Value packet := by
  by_cases h : Ipv4Ok packet quoted
  · simp [ipv4_of_ok h, h, eq_comm]
  · simp [ipv4_of_not_ok h, h]

/-- `ipv4` never panics. -/
theorem ipv4_returns (packet : Bytes) (quoted : Bool) : ∃ value, ipv4 packet quoted = .ok value := by
  by_cases h : Ipv4Ok packet quoted
  · exact ⟨_, ipv4_of_ok h⟩
  · exact ⟨none, ipv4_of_not_ok h⟩

/-- The header a packet that passes the checks starts with. -/
def Ipv4Ok.header {packet : Bytes} {quoted : Bool} (h : Ipv4Ok packet quoted) : Ipv4Header where
  tos := byteAt packet 1
  totalLength := u16FromBe (byteAt packet 2) (byteAt packet 3)
  identification := u16FromBe (byteAt packet 4) (byteAt packet 5)
  reserved := decide (128 ≤ (byteAt packet 6).toNat)
  dontFragment := decide ((byteAt packet 6).toNat % 128 = 64)
  ttl := byteAt packet 8
  headerChecksum := u16FromBe (byteAt packet 10) (byteAt packet 11)
  source := ⟨byteAt packet 12, byteAt packet 13, byteAt packet 14, byteAt packet 15⟩
  target := ⟨byteAt packet 16, byteAt packet 17, byteAt packet 18, byteAt packet 19⟩
  options := (packet.drop 20).take ((byteAt packet 0).toNat % 16 * 4 - 20)
  options_words := by
    have h1 := h.header_min
    have h2 := h.header_max
    simp only [List.length_take, List.length_drop]
    omega
  options_le := by
    simp only [List.length_take, List.length_drop]
    omega

theorem Ipv4Ok.size_header {packet : Bytes} {quoted : Bool} (h : Ipv4Ok packet quoted) :
    h.header.size = (byteAt packet 0).toNat % 16 * 4 := by
  have h1 := h.header_min
  have h2 := h.header_max
  simp only [Ipv4Header.size, header, List.length_take, List.length_drop]
  omega

/-- A packet that passes the checks is the encoding of its header and what follows it. -/
theorem Ipv4Ok.eq_encode {packet : Bytes} {quoted : Bool} (h : Ipv4Ok packet quoted) :
    packet = h.header.encode ++ packet.drop h.header.size := by
  have hsize := h.size_header
  have h1 := h.header_min
  have h2 := h.header_max
  have hversion := h.version
  have hfirst : UInt8.ofNat (64 + h.header.size / 4) = byteAt packet 0 := by
    apply UInt8.toNat_inj.1
    rw [UInt8.toNat_ofNat', hsize]
    omega
  have hflags : h.header.flags = byteAt packet 6 := by
    have hmod := h.fragment.1
    have hlt := (byteAt packet 6).toNat_lt
    apply UInt8.toNat_inj.1
    rw [Ipv4Header.flags, UInt8.toNat_ofNat']
    by_cases h128 : 128 ≤ (byteAt packet 6).toNat <;> by_cases h64 : (byteAt packet 6).toNat % 128 = 64 <;>
      simp only [header, h128, h64, decide_true, decide_false, Bool.toNat_true, Bool.toNat_false] <;> omega
  have hoptions : h.header.options ++ packet.drop h.header.size = packet.drop 20 := by
    rw [hsize]
    conv_rhs => rw [← List.take_append_drop ((byteAt packet 0).toNat % 16 * 4 - 20) (packet.drop 20)]
    rw [List.drop_drop, Nat.add_sub_cancel' h1]
    rfl
  conv_lhs => rw [eq_range_append packet h.room, ← hoptions]
  rw [Ipv4Header.encode, hfirst, hflags, ← h.protocol, ← h.fragment.2]
  simp only [header, u16ToBe_fromBe, Ipv4Addr.octets, List.append_assoc]
  rfl

/-- The encoding of a header passes the checks, with anything after it that fills what the header declares. -/
theorem Ipv4Header.ok_encode (h : Ipv4Header) (after : Bytes) (quoted : Bool) (htotal : h.size + 8 ≤ h.totalLength.toNat)
    (hwhole : quoted = false → h.totalLength.toNat ≤ h.size + after.length) : Ipv4Ok (h.encode ++ after) quoted := by
  have hmin := h.twenty_le_size
  have hmax := h.size_le
  have hwords := h.size_words
  have hlen : (h.encode ++ after).length = h.size + after.length := by rw [List.length_append, h.length_encode]
  have hfirst : (byteAt (h.encode ++ after) 0).toNat = 64 + h.size / 4 := by
    show (UInt8.ofNat (64 + h.size / 4)).toNat = _
    rw [UInt8.toNat_ofNat']
    omega
  have hlength : u16FromBe (byteAt (h.encode ++ after) 2) (byteAt (h.encode ++ after) 3) = h.totalLength := u16FromBe_toBe _
  refine ⟨by omega, by omega, rfl, by omega, by omega, by rw [hlength]; omega, ⟨?_, rfl⟩, ?_⟩
  · show (UInt8.ofNat (128 * h.reserved.toNat + 64 * h.dontFragment.toNat)).toNat % 64 = 0
    rw [UInt8.toNat_ofNat']
    omega
  · rw [hlength, hlen]
    exact hwhole

theorem Ipv4Header.value_encode (h : Ipv4Header) (after : Bytes) :
    ipv4Value (h.encode ++ after) = (after.take (h.totalLength.toNat - h.size), .v4 h.source, .v4 h.target) := by
  have hmax := h.size_le
  have hwords := h.size_words
  have hfirst : (byteAt (h.encode ++ after) 0).toNat = 64 + h.size / 4 := by
    show (UInt8.ofNat (64 + h.size / 4)).toNat = _
    rw [UInt8.toNat_ofNat']
    omega
  have hheader : (byteAt (h.encode ++ after) 0).toNat % 16 * 4 = h.size := by omega
  have hlength : u16FromBe (byteAt (h.encode ++ after) 2) (byteAt (h.encode ++ after) 3) = h.totalLength := u16FromBe_toBe _
  rw [ipv4Value, hheader, hlength, ← h.length_encode, List.drop_left]
  rfl

/-- `ipv4` returns the ICMP part of exactly the packets that start with the encoding of a header, with room in the declared
length for an Echo header; an outer packet must also be as long as it declares. -/
theorem ipv4_eq_some_iff (packet : Bytes) (quoted : Bool) (part : Bytes) (source target : IpAddr) :
    ipv4 packet quoted = .ok (some (part, source, target)) ↔
      ∃ (h : Ipv4Header) (after : Bytes), packet = h.encode ++ after ∧ source = .v4 h.source ∧ target = .v4 h.target ∧
        h.size + 8 ≤ h.totalLength.toNat ∧ (quoted = false → h.totalLength.toNat ≤ h.size + after.length) ∧
        part = after.take (h.totalLength.toNat - h.size) := by
  rw [ipv4_eq_some_iff_ok]
  constructor
  · rintro ⟨h, hvalue⟩
    have hpacket := h.eq_encode
    have hsize := h.size_header
    have htotal : h.header.size + 8 ≤ h.header.totalLength.toNat := by rw [hsize]; exact h.total
    have hwhole : quoted = false → h.header.totalLength.toNat ≤ h.header.size + (packet.drop h.header.size).length := by
      intro hq
      have := h.whole hq
      have := h.header_max
      simp only [List.length_drop, Ipv4Ok.header]
      omega
    rw [hpacket, h.header.value_encode, Prod.mk.injEq, Prod.mk.injEq] at hvalue
    exact ⟨h.header, packet.drop h.header.size, hpacket, hvalue.2.1, hvalue.2.2, htotal, hwhole, hvalue.1⟩
  · rintro ⟨h, after, rfl, rfl, rfl, htotal, hwhole, rfl⟩
    exact ⟨h.ok_encode after quoted htotal hwhole, (h.value_encode after).symm⟩

/-- `ipv4` of a received packet returns its message exactly when the packet is a datagram that carries it. -/
theorem ipv4_outer_iff (packet message : Bytes) (source target : Ipv4Addr) :
    ipv4 packet false = .ok (some (message, .v4 source, .v4 target)) ↔
      Ipv4Datagram source target message packet ∧ 8 ≤ message.length := by
  rw [ipv4_eq_some_iff]
  constructor
  · rintro ⟨h, after, rfl, hs, ht, htotal, hwhole, rfl⟩
    have hwhole := hwhole rfl
    have hlen : (after.take (h.totalLength.toNat - h.size)).length = h.totalLength.toNat - h.size := by
      rw [List.length_take]
      omega
    refine ⟨⟨h, after.drop (h.totalLength.toNat - h.size), (IpAddr.v4.inj hs).symm, (IpAddr.v4.inj ht).symm, by omega, ?_⟩,
      by omega⟩
    rw [List.append_assoc, List.take_append_drop]
  · rintro ⟨⟨h, trailing, rfl, rfl, htotal, rfl⟩, hlen⟩
    refine ⟨h, message ++ trailing, List.append_assoc _ _ _, rfl, rfl, by omega, fun _ => ?_, ?_⟩
    · rw [List.length_append]
      omega
    · rw [show h.totalLength.toNat - h.size = message.length by omega, List.take_left]

/-- `ipv4` of a quote returns its ICMP part exactly when there is a quote of that part. -/
theorem ipv4_quoted_iff (packet quoted : Bytes) (source target : Ipv4Addr) :
    ipv4 packet true = .ok (some (quoted, .v4 source, .v4 target)) ↔ ∃ after, Ipv4Quote source target quoted after packet := by
  rw [ipv4_eq_some_iff]
  constructor
  · rintro ⟨h, after, rfl, hs, ht, htotal, -, rfl⟩
    exact ⟨after, h, (IpAddr.v4.inj hs).symm, (IpAddr.v4.inj ht).symm, htotal, rfl, rfl⟩
  · rintro ⟨after, h, rfl, rfl, htotal, rfl, rfl⟩
    exact ⟨h, after, rfl, rfl, rfl, htotal, nofun, rfl⟩

/-! ## IPv6 extension headers -/

/-- The size of an extension header with room for its first eight bytes. -/
theorem extensionSize_of_le {ext : Bytes} (next : UInt8) (h : 8 ≤ ext.length) :
    extensionSize next ext = .ok
      (if next = 0 ∨ next = 43 ∨ next = 60 then some (((byteAt ext 1).toNat + 1) * 8)
      else if next = 44 then if u16FromBe (byteAt ext 2) (byteAt ext 3) &&& 0xfff9 ≠ 0 then none else some 8
      else if next = 51 then some (((byteAt ext 1).toNat + 2) * 4)
      else none) := by
  have hindex : ∀ i, i < 8 → index ext i = .ok (byteAt ext i) := fun i hi => index_of_lt (by omega)
  have hbyte := (byteAt ext 1).toNat_lt
  have hunits : ∀ a, a ≤ 2 → addUsize (byteAt ext 1).toNat a = .ok ((byteAt ext 1).toNat + a) :=
    fun a ha => addUsize_of_lt (by omega)
  have hoptions : mulUsize ((byteAt ext 1).toNat + 1) 8 = .ok (((byteAt ext 1).toNat + 1) * 8) := mulUsize_of_lt (by omega)
  have hauth : mulUsize ((byteAt ext 1).toNat + 2) 4 = .ok (((byteAt ext 1).toNat + 2) * 4) := mulUsize_of_lt (by omega)
  simp only [extensionSize, hindex 1 (by decide), hindex 2 (by decide), hindex 3 (by decide), hunits 1 (by decide),
    hunits 2 (by decide), hoptions, hauth, Checked.ok_bind, Checked.pure_eq]
  split
  · rfl
  split
  · split <;> rfl
  split <;> rfl

/-- The size `quoted_v6` reads off an encoded extension header is the header's. -/
theorem ExtensionHeader.extensionSize_encode (e : ExtensionHeader) (next : UInt8) (tail : Bytes) :
    extensionSize e.kind (e.encode next ++ tail) = .ok (some e.size) := by
  have hlen : 8 ≤ (e.encode next ++ tail).length := by
    have := e.eight_le_size
    rw [List.length_append, e.length_encode]
    omega
  rw [extensionSize_of_le _ hlen]
  rcases e.wellFormed with ⟨hkind, hsize⟩ | ⟨hkind, hsize, hoffset, hmore⟩ | ⟨hkind, hsize⟩
  · rw [if_pos hkind]
    exact congrArg (Except.ok ∘ some) hsize.symm
  · obtain ⟨b, c, rest, hbody⟩ : ∃ b c rest, e.body = b :: c :: rest := by
      rcases hb : e.body with _ | ⟨b, _ | ⟨c, rest⟩⟩
      · simp [hb] at hsize
      · simp [hb] at hsize
      · exact ⟨b, c, rest, rfl⟩
    have hmask : u16FromBe (byteAt (e.encode next ++ tail) 2) (byteAt (e.encode next ++ tail) 3) &&& 0xfff9 = 0 := by
      rw [encode, hbody]
      rw [hbody] at hoffset hmore
      exact (ipv6_fragment_eq_zero b c).2 ⟨hoffset, hmore⟩
    rw [if_neg (by rw [hkind]; decide), if_pos hkind, if_neg (not_not.2 hmask)]
    exact congrArg (Except.ok ∘ some) hsize.symm
  · rw [if_neg (by rw [hkind]; decide), if_neg (by rw [hkind]; decide), if_pos hkind]
    exact congrArg (Except.ok ∘ some) hsize.symm

/-- Bytes that `quoted_v6` reads an extension header's size off, and that are as long, start with the encoding of one. -/
theorem exists_extensionHeader {next : UInt8} {ext : Bytes} {size : Nat} (hlen : 8 ≤ ext.length)
    (h : extensionSize next ext = .ok (some size)) (hsize : size ≤ ext.length) :
    ∃ e : ExtensionHeader, e.kind = next ∧ e.size = size ∧ ext = e.encode (byteAt ext 0) ++ ext.drop size := by
  have height : 8 ≤ size ∧ ExtensionHeader.WellFormed next (byteAt ext 1) ((ext.take size).drop 2) := by
    have hbody : 2 ≤ size → ((ext.take size).drop 2).length + 2 = size := by
      intro h2
      simp only [List.length_drop, List.length_take]
      omega
    rw [extensionSize_of_le _ hlen] at h
    replace h := Except.ok.inj h
    split at h
    · rename_i hkind
      obtain rfl := Option.some.inj h
      exact ⟨by omega, Or.inl ⟨hkind, hbody (by omega)⟩⟩
    split at h
    · rename_i hkind
      split at h
      · cases h
      rename_i hmask
      obtain rfl := Option.some.inj h
      have hat : ∀ i, i < 6 → ((ext.take 8).drop 2).getD i 0 = byteAt ext (2 + i) := by
        intro i hi
        simp [byteAt, show 2 + i < 8 by omega]
      refine ⟨le_refl 8, Or.inr (Or.inl ⟨hkind, hbody (by omega), ?_⟩)⟩
      rw [hat 0 (by omega), hat 1 (by omega)]
      exact (ipv6_fragment_eq_zero _ _).1 (not_not.1 hmask)
    split at h
    · rename_i hkind
      obtain rfl := Option.some.inj h
      exact ⟨by omega, Or.inr (Or.inr ⟨hkind, hbody (by omega)⟩)⟩
    · cases h
  refine ⟨⟨next, byteAt ext 1, (ext.take size).drop 2, height.2⟩, rfl, ?_, ?_⟩
  · simp only [ExtensionHeader.size, List.length_drop, List.length_take]
    omega
  · conv_lhs =>
      rw [← List.take_append_drop size ext, eq_range_append (ext.take size) (show 2 ≤ _ by rw [List.length_take]; omega)]
    have hat : ∀ i, i < 2 → byteAt (ext.take size) i = byteAt ext i := by
      intro i hi
      simp [byteAt, show i < size by omega]
    show [byteAt (ext.take size) 0, byteAt (ext.take size) 1] ++ _ ++ _ = _
    rw [hat 0 (by decide), hat 1 (by decide)]
    rfl

/-- A turn of the traversal that is not at the end of the chain. -/
theorem walkExtensions_succ {packet : Bytes} {n offset : Nat} {next : UInt8} (hoffset : offset ≤ packet.length)
    (h58 : next ≠ 58) :
    walkExtensions packet (n + 1) next offset =
      if (packet.drop offset).length < 8 then .ok none
      else extensionSize next (packet.drop offset) >>= fun
        | none => .ok none
        | some size =>
          if offset + size > packet.length then .ok none
          else walkExtensions packet n (byteAt (packet.drop offset) 0) (offset + size) := by
  rw [walkExtensions, getFrom_of_le hoffset, if_neg h58]
  by_cases hlen : (packet.drop offset).length < 8
  · simp only [hlen, if_true, Checked.pure_eq]
  · simp only [hlen, if_false, index_of_lt (show 0 < (packet.drop offset).length by omega), Checked.ok_bind,
      Checked.pure_eq]
    congr 1
    funext size
    cases size <;> rfl

/-- A turn of the traversal goes over one encoded header, to what follows it. -/
theorem walkExtensions_encode {packet : Bytes} {offset : Nat} (n : Nat) (e : ExtensionHeader) {next : UInt8} {rest : Bytes}
    (hoffset : offset ≤ packet.length) (hdrop : packet.drop offset = e.encode next ++ rest) :
    walkExtensions packet (n + 1) e.kind offset = walkExtensions packet n next (offset + e.size) ∧
      offset + e.size ≤ packet.length ∧ packet.drop (offset + e.size) = rest := by
  have hsize := e.eight_le_size
  have hlen : packet.length - offset = e.size + rest.length := by
    rw [← List.length_drop, hdrop, List.length_append, e.length_encode]
  refine ⟨?_, by omega, ?_⟩
  · rw [walkExtensions_succ hoffset e.kind_ne, if_neg (by rw [List.length_drop]; omega), hdrop, e.extensionSize_encode,
      Checked.ok_bind]
    exact if_neg (by omega)
  · rw [← List.drop_drop, hdrop, ← e.length_encode next, List.drop_left]

/-- The traversal of `quoted_v6` never panics. -/
theorem walkExtensions_returns (packet : Bytes) (n : Nat) :
    ∀ (next : UInt8) (offset : Nat), offset ≤ packet.length → ∃ rest, walkExtensions packet n next offset = .ok rest := by
  induction n with
  | zero =>
    intro next offset _
    exact ⟨none, rfl⟩
  | succ n ih =>
    intro next offset hoffset
    by_cases h58 : next = 58
    · exact ⟨getFrom packet offset, by simp only [walkExtensions, if_pos h58, Checked.pure_eq]⟩
    rw [walkExtensions_succ hoffset h58]
    by_cases hlen : (packet.drop offset).length < 8
    · exact ⟨none, if_pos hlen⟩
    rw [if_neg hlen, extensionSize_of_le next (Nat.le_of_not_lt hlen), Checked.ok_bind]
    split
    · exact ⟨none, rfl⟩
    · rename_i size _
      by_cases hend : offset + size > packet.length
      · exact ⟨none, if_pos hend⟩
      · rw [if_neg hend]
        exact ih _ _ (by omega)

/-- The traversal of `quoted_v6` finds `rest` exactly when a chain of fewer headers than it has turns leads to `rest`. -/
theorem walkExtensions_eq_some_iff (packet rest : Bytes) (n : Nat) :
    ∀ (next : UInt8) (offset : Nat), offset ≤ packet.length →
      (walkExtensions packet n next offset = .ok (some rest) ↔ ∃ chain : List ExtensionHeader,
        chain.length < n ∧ chainKind chain = next ∧ packet.drop offset = encodeChain chain ++ rest) := by
  induction n with
  | zero => intro next offset _; simp [walkExtensions]
  | succ n ih =>
    intro next offset hoffset
    by_cases h58 : next = 58
    · rw [walkExtensions, getFrom_of_le hoffset, if_pos h58]
      constructor
      · intro h
        exact ⟨[], Nat.succ_pos n, h58.symm, Option.some.inj (Except.ok.inj h)⟩
      · rintro ⟨chain, -, hkind, hchain⟩
        cases chain with
        | nil => exact congrArg (Except.ok ∘ some) hchain
        | cons e chain => exact absurd (hkind.trans h58) e.kind_ne
    rw [walkExtensions_succ hoffset h58]
    constructor
    · intro h
      split at h
      · cases h
      rename_i hlen
      obtain ⟨size, hsize, h⟩ := Checked.bind_eq_ok.1 h
      cases size with
      | none => cases h
      | some size =>
        simp only at h
        split at h
        · cases h
        obtain ⟨chain, hchain, hkind, hrest⟩ := (ih _ _ (by omega)).1 h
        obtain ⟨e, hnext, hesize, hext⟩ := exists_extensionHeader (by omega) hsize (by rw [List.length_drop]; omega)
        refine ⟨e :: chain, by simpa using hchain, hnext, ?_⟩
        rw [hext, ← hkind, List.drop_drop, hrest, encodeChain, List.append_assoc]
    · rintro ⟨chain, hlen, hkind, hchain⟩
      cases chain with
      | nil => exact absurd hkind.symm h58
      | cons e chain =>
        obtain rfl : e.kind = next := hkind
        obtain ⟨hwalk, hoffset', hrest⟩ := walkExtensions_encode n e hoffset (by rw [hchain, encodeChain, List.append_assoc])
        rw [← walkExtensions_succ hoffset e.kind_ne, hwalk]
        exact (ih _ _ hoffset').2 ⟨chain, by simpa using hlen, rfl, hrest⟩

/-! ## IPv6 quotes -/

/-- The header a packet of at least forty bytes starts with, if its version is 6. -/
def ipv6HeaderOf (packet : Bytes) (h : 40 ≤ packet.length) : Ipv6Header where
  trafficClass := ⟨(byteAt packet 0).toNat % 16, Nat.mod_lt _ (by decide)⟩
  flow := (byteAt packet 1, byteAt packet 2, byteAt packet 3)
  payloadLength := u16FromBe (byteAt packet 4) (byteAt packet 5)
  hopLimit := byteAt packet 7
  source := ⟨(packet.take 24).drop 8, by simp only [List.length_drop, List.length_take]; omega⟩
  target := ⟨(packet.take 40).drop 24, by simp only [List.length_drop, List.length_take]; omega⟩

theorem eq_encode_ipv6HeaderOf {packet : Bytes} (h : 40 ≤ packet.length) (hversion : (byteAt packet 0).toNat / 16 = 6) :
    packet = (ipv6HeaderOf packet h).encode (byteAt packet 6) ++ packet.drop 40 := by
  have hfirst : UInt8.ofNat (96 + (byteAt packet 0).toNat % 16) = byteAt packet 0 := by
    apply UInt8.toNat_inj.1
    rw [UInt8.toNat_ofNat']
    omega
  have haddrs : packet.drop 8 = (packet.take 24).drop 8 ++ (packet.take 40).drop 24 ++ packet.drop 40 := by
    rw [List.drop_take, List.drop_take, List.append_assoc]
    conv_lhs => rw [← List.take_append_drop 16 (packet.drop 8), List.drop_drop]
    conv_lhs => rw [← List.take_append_drop 16 (packet.drop (8 + 16)), List.drop_drop]
  conv_lhs => rw [eq_range_append packet (show 8 ≤ packet.length by omega), haddrs]
  rw [Ipv6Header.encode]
  simp only [ipv6HeaderOf, hfirst, u16ToBe_fromBe, List.append_assoc]
  rfl

/-- `quotedV6` of a packet with room for a header. -/
theorem quotedV6_of_le {packet : Bytes} (h : 40 ≤ packet.length) :
    quotedV6 packet =
      if byteAt packet 0 >>> 4 ≠ 6 then .ok none
      else walkExtensions (packet.take (40 + (ipv6HeaderOf packet h).payloadLength.toNat)) 16 (byteAt packet 6) 40 >>= fun rest =>
        .ok (rest.map fun rest => (rest, .v6 (ipv6HeaderOf packet h).source, .v6 (ipv6HeaderOf packet h).target)) := by
  have hlen : ¬packet.length < 40 := by omega
  have hindex : ∀ i, i < 40 → index packet i = .ok (byteAt packet i) := fun i hi => index_of_lt (by omega)
  have hslice : ∀ a b, a ≤ b → b ≤ 40 → slice packet a b = .ok ((packet.take b).drop a) :=
    fun a b hab hb => slice_of_le hab (by omega)
  have hs : Ipv6Addr.tryFrom ((packet.take 24).drop 8) = some (ipv6HeaderOf packet h).source :=
    dif_pos (ipv6HeaderOf packet h).source.length_octets
  have ht : Ipv6Addr.tryFrom ((packet.take 40).drop 24) = some (ipv6HeaderOf packet h).target :=
    dif_pos (ipv6HeaderOf packet h).target.length_octets
  have hcut : slice packet 0 (min (40 + (u16FromBe (byteAt packet 4) (byteAt packet 5)).toNat) packet.length) =
      .ok (packet.take (40 + (u16FromBe (byteAt packet 4) (byteAt packet 5)).toNat)) := by
    rw [slice_of_le (Nat.zero_le _) (Nat.min_le_right _ _), ← List.take_eq_take_min, List.drop_zero]
  have hnext : index (packet.take (40 + (u16FromBe (byteAt packet 4) (byteAt packet 5)).toNat)) 6 = .ok (byteAt packet 6) := by
    rw [index_of_lt (by rw [List.length_take]; omega), byteAt, List.getD_eq_getElem?_getD, List.getElem?_take_of_lt (by omega),
      ← List.getD_eq_getElem?_getD, byteAt]
  have hdeclared := (u16FromBe (byteAt packet 4) (byteAt packet 5)).toNat_lt
  have hlength : addUsize 40 (u16FromBe (byteAt packet 4) (byteAt packet 5)).toNat =
      .ok (40 + (u16FromBe (byteAt packet 4) (byteAt packet 5)).toNat) := addUsize_of_lt (by omega)
  simp only [quotedV6, if_neg hlen, hlength, hindex 0 (by decide), hindex 4 (by decide), hindex 5 (by decide),
    hslice 8 24 (by decide) (by decide), hslice 24 40 (by decide) (by decide), hs, ht, Checked.ok_bind, Checked.pure_eq,
    hcut, hnext]
  split
  · rfl
  · show (walkExtensions _ 16 (byteAt packet 6) 40 >>= _) = (walkExtensions _ 16 (byteAt packet 6) 40 >>= _)
    congr 1
    funext rest
    cases rest <;> rfl

/-- The declared length cuts the body of a packet, not its header. -/
theorem Ipv6Header.drop_take_encode (h : Ipv6Header) (next : UInt8) (body : Bytes) (n : Nat) :
    (((h.encode next ++ body).take (40 + n)).drop 40) = body.take n := by
  rw [← h.length_encode next, List.take_length_add_append, List.drop_left]

theorem Ipv6Header.ipv6HeaderOf_encode (h : Ipv6Header) (next : UInt8) (body : Bytes)
    (hlen : 40 ≤ (h.encode next ++ body).length) : ipv6HeaderOf (h.encode next ++ body) hlen = h := by
  obtain ⟨⟨tc, htc⟩, flow, payloadLength, hopLimit, ⟨source, hs⟩, ⟨target, ht⟩⟩ := h
  have hfirst : (UInt8.ofNat (96 + tc)).toNat % 16 = tc := by
    rw [UInt8.toNat_ofNat']
    omega
  simp only [ipv6HeaderOf, Ipv6Header.mk.injEq, Fin.mk.injEq, Ipv6Addr.mk.injEq]
  refine ⟨hfirst, rfl, u16FromBe_toBe payloadLength, rfl, ?_, ?_⟩
  · simp [Ipv6Header.encode, u16ToBe, hs]
  · simp [Ipv6Header.encode, u16ToBe, List.take_append, hs, ht]

/-- `quotedV6` never panics. -/
theorem quotedV6_returns (packet : Bytes) : ∃ value, quotedV6 packet = .ok value := by
  by_cases hlen : packet.length < 40
  · exact ⟨none, by simp only [quotedV6, if_pos hlen, Checked.pure_eq]⟩
  have h40 : 40 ≤ packet.length := by omega
  rw [quotedV6_of_le h40]
  by_cases hversion : byteAt packet 0 >>> 4 ≠ 6
  · exact ⟨none, if_pos hversion⟩
  obtain ⟨rest, hwalk⟩ := walkExtensions_returns (packet.take (40 + (ipv6HeaderOf packet h40).payloadLength.toNat)) 16
    (byteAt packet 6) 40 (by rw [List.length_take]; omega)
  rw [if_neg hversion, hwalk]
  exact ⟨_, rfl⟩

/-- `quotedV6` returns the ICMPv6 part of exactly the quotes of an IPv6 packet. -/
theorem quotedV6_iff (packet quoted : Bytes) (source target : Ipv6Addr) :
    quotedV6 packet = .ok (some (quoted, .v6 source, .v6 target)) ↔ ∃ after, Ipv6Quote source target quoted after packet := by
  constructor
  · intro h
    by_cases hlen : packet.length < 40
    · simp only [quotedV6, if_pos hlen, Checked.pure_eq] at h
      cases h
    rw [quotedV6_of_le (by omega)] at h
    split at h
    · cases h
    rename_i hversion
    have hpacket := eq_encode_ipv6HeaderOf (by omega) ((shiftRight_four_eq _ _).1 (not_not.1 hversion))
    generalize ipv6HeaderOf packet _ = header at h hpacket
    obtain ⟨rest, hwalk, h⟩ := Checked.bind_eq_ok.1 h
    cases rest with
    | none => cases h
    | some rest =>
      have h := Option.some.inj (Except.ok.inj h)
      simp only [Prod.mk.injEq, IpAddr.v6.injEq] at h
      obtain ⟨rfl, rfl, rfl⟩ := h
      obtain ⟨chain, hchain, hkind, hrest⟩ := (walkExtensions_eq_some_iff _ _ _ _ _ (by rw [List.length_take]; omega)).1 hwalk
      generalize packet.drop 40 = body at hpacket
      rw [hpacket, header.drop_take_encode] at hrest
      have hle : (encodeChain chain).length ≤ header.payloadLength.toNat := by
        have := congrArg List.length hrest
        simp only [List.length_take, List.length_append] at this
        omega
      obtain ⟨after, rfl⟩ : encodeChain chain <+: body := (hrest ▸ List.prefix_append _ _).trans (List.take_prefix _ _)
      refine ⟨after, header, chain, rfl, rfl, by omega, hle, ?_, ?_⟩
      · rw [hkind, List.append_assoc]
        exact hpacket
      · rw [List.take_append, List.take_of_length_le hle] at hrest
        exact (List.append_cancel_left hrest).symm
  · rintro ⟨after, header, chain, rfl, rfl, hchain, hle, rfl, rfl⟩
    have hlen : 40 ≤ (header.encode (chainKind chain) ++ encodeChain chain ++ after).length := by
      rw [List.append_assoc, List.length_append, header.length_encode]
      omega
    have hversion : byteAt (header.encode (chainKind chain) ++ encodeChain chain ++ after) 0 >>> 4 = 6 := by
      have := header.trafficClass.isLt
      rw [shiftRight_four_eq]
      show (UInt8.ofNat (96 + header.trafficClass.val)).toNat / 16 = 6
      rw [UInt8.toNat_ofNat']
      omega
    have hnext : byteAt (header.encode (chainKind chain) ++ encodeChain chain ++ after) 6 = chainKind chain := rfl
    rw [quotedV6_of_le hlen, if_neg (not_not.2 hversion), hnext]
    simp only [List.append_assoc, header.ipv6HeaderOf_encode]
    rw [(walkExtensions_eq_some_iff _ (after.take (header.payloadLength.toNat - (encodeChain chain).length)) _ _ _ ?_).2
      ⟨chain, by omega, rfl, ?_⟩]
    · rfl
    · rw [List.length_take, List.length_append, header.length_encode]
      omega
    · rw [header.drop_take_encode, List.take_append, List.take_of_length_le hle]

end IcmpPing
