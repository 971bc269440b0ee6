import IcmpPing.Lemmas.Message

/-!
# The grammar of IPv6 extension headers

`quoted_v6` reads a chain of at most fifteen extension headers that leads to ICMPv6, and rejects everything else.
-/

namespace IcmpPing

/-! ## Chains that lead anywhere -/

/-- The next-header value that leads into a chain whose last link is `last`. -/
def linkKind : List ExtensionHeader → UInt8 → UInt8
  | [], last => last
  | e :: _, _ => e.kind

/-- Extension headers, each linked to the one after it and the last to `last`. -/
def encodeLinks : List ExtensionHeader → UInt8 → Bytes
  | [], _ => []
  | e :: chain, last => e.encode (linkKind chain last) ++ encodeLinks chain last

/-- What follows a chain of whole headers is the start of one more header, which it ends within. -/
def CutShort (last : UInt8) (rest : Bytes) : Prop :=
  ∃ (e : ExtensionHeader) (next : UInt8), e.kind = last ∧ rest <+: e.encode next ∧ rest.length < e.size

/-- What follows a chain of whole headers is a fragment header that has an offset or "more fragments" set. -/
def RealFragment (last : UInt8) (rest : Bytes) : Prop :=
  last = 44 ∧ ∃ next reserved a b body, rest = next :: reserved :: a :: b :: body ∧
    ((u16FromBe a b).toNat / 8 ≠ 0 ∨ (u16FromBe a b).toNat % 2 ≠ 0)

/-- The chain leads to neither ICMPv6 nor an extension header. -/
def UnknownHeader (last : UInt8) : Prop :=
  last ≠ 58 ∧ last ≠ 0 ∧ last ≠ 43 ∧ last ≠ 60 ∧ last ≠ 44 ∧ last ≠ 51

/-- The traversal goes over a chain of whole headers, one in each turn. -/
theorem walkExtensions_links {packet rest : Bytes} {last : UInt8} (n : Nat) (chain : List ExtensionHeader) :
    ∀ offset, offset ≤ packet.length → packet.drop offset = encodeLinks chain last ++ rest →
      ∃ stop, stop ≤ packet.length ∧ packet.drop stop = rest ∧
        walkExtensions packet (n + chain.length) (linkKind chain last) offset = walkExtensions packet n last stop := by
  induction chain with
  | nil =>
    intro offset hoffset hdrop
    exact ⟨offset, hoffset, hdrop, rfl⟩
  | cons e chain ih =>
    intro offset hoffset hdrop
    rw [encodeLinks, List.append_assoc] at hdrop
    obtain ⟨hwalk, hoffset', hdrop'⟩ := walkExtensions_encode (n + chain.length) e hoffset hdrop
    obtain ⟨stop, hstop, hrest, hchain⟩ := ih _ hoffset' hdrop'
    exact ⟨stop, hstop, hrest, hwalk.trans hchain⟩

/-- The traversal gives up on a chain of more headers than it has turns for. -/
theorem walkExtensions_longer {packet rest : Bytes} {last : UInt8} (n : Nat) :
    ∀ (chain : List ExtensionHeader) (offset : Nat), offset ≤ packet.length → n ≤ chain.length →
      packet.drop offset = encodeLinks chain last ++ rest → walkExtensions packet n (linkKind chain last) offset = .ok none := by
  induction n with
  | zero =>
    intro chain offset _ _ _
    rfl
  | succ n ih =>
    intro chain offset hoffset hlen hdrop
    cases chain with
    | nil => exact absurd hlen (Nat.not_succ_le_zero n)
    | cons e chain =>
      rw [encodeLinks, List.append_assoc] at hdrop
      obtain ⟨hwalk, hoffset', hdrop'⟩ := walkExtensions_encode n e hoffset hdrop
      exact hwalk.trans (ih chain _ hoffset' (Nat.le_of_succ_le_succ hlen) hdrop')

/-- The size of an extension header is read off its first eight bytes. -/
theorem extensionSize_of_start {e : ExtensionHeader} {next : UInt8} {rest : Bytes} (hrest : rest <+: e.encode next)
    (hlen : 8 ≤ rest.length) : extensionSize e.kind rest = .ok (some e.size) := by
  obtain ⟨more, hmore⟩ := hrest
  have hat : ∀ i, i < 8 → byteAt (e.encode next) i = byteAt rest i := by
    intro i hi
    rw [← hmore]
    simp [byteAt, List.getElem?_append_left (show i < rest.length by omega)]
  have hwhole := e.extensionSize_encode next []
  rw [List.append_nil, extensionSize_of_le _ (by rw [e.length_encode]; exact e.eight_le_size), hat 1 (by decide),
    hat 2 (by decide), hat 3 (by decide)] at hwhole
  rw [extensionSize_of_le _ hlen, hwhole]

/-- No chain goes on where a header is cut short, where there is a real fragment, or where the kind of header is not known. -/
theorem walkExtensions_stuck {packet : Bytes} {last : UInt8} {stop : Nat} (n : Nat) (hstop : stop ≤ packet.length)
    (h : CutShort last (packet.drop stop) ∨ RealFragment last (packet.drop stop) ∨ UnknownHeader last) :
    walkExtensions packet n last stop = .ok none := by
  cases n with
  | zero => rfl
  | succ n =>
    have h58 : last ≠ 58 := by
      rcases h with ⟨e, -, rfl, -⟩ | ⟨rfl, -⟩ | h
      · exact e.kind_ne
      · decide
      · exact h.1
    rw [walkExtensions_succ hstop h58]
    by_cases hlen : (packet.drop stop).length < 8
    · exact if_pos hlen
    rw [if_neg hlen]
    rcases h with ⟨e, next, rfl, hprefix, hlt⟩ | ⟨rfl, next, reserved, a, b, body, hrest, hfragment⟩ | ⟨-, h0, h43, h60, h44, h51⟩
    · rw [extensionSize_of_start hprefix (Nat.le_of_not_lt hlen), Checked.ok_bind]
      rw [List.length_drop] at hlt
      exact if_pos (by omega)
    · have hmask : ¬u16FromBe a b &&& 0xfff9 = 0 := by
        rw [ipv6_fragment_eq_zero]
        rintro ⟨hoffset, hmore⟩
        rcases hfragment with hfragment | hfragment
        · exact hfragment hoffset
        · exact hfragment hmore
      rw [extensionSize_of_le _ (Nat.le_of_not_lt hlen), hrest]
      simp [byteAt, hmask]
    · rw [extensionSize_of_le _ (Nat.le_of_not_lt hlen)]
      simp [h0, h43, h60, h44, h51]

/-! ## Quotes -/

/-- The bytes are a quoted IPv6 packet: its fixed header, and then, up to the end it declares, a chain of at most fifteen
extension headers that leads to ICMPv6, and `rest`. -/
structure Quotes (bytes rest : Bytes) (source target : Ipv6Addr) (chain : List ExtensionHeader) : Prop where
  room : 40 ≤ bytes.length
  version : (byteAt bytes 0).toNat / 16 = 6
  source : source.octets = field bytes 8 24
  target : target.octets = field bytes 24 40
  count : chain.length ≤ 15
  first : chainKind chain = byteAt bytes 6
  body : (bytes.drop 40).take (u16FromBe (byteAt bytes 4) (byteAt bytes 5)).toNat = encodeChain chain ++ rest

/-- `quoted_v6` of a packet of version 6 walks the chain that its fixed header leads into. -/
theorem quotedV6_eq_walk {bytes : Bytes} (hlen : 40 ≤ bytes.length) (hversion : (byteAt bytes 0).toNat / 16 = 6) :
    ∃ (packet : Bytes) (source target : Ipv6Addr), source.octets = field bytes 8 24 ∧ target.octets = field bytes 24 40 ∧
      40 ≤ packet.length ∧ packet.drop 40 = (bytes.drop 40).take (u16FromBe (byteAt bytes 4) (byteAt bytes 5)).toNat ∧
      quotedV6 bytes = walkExtensions packet 16 (byteAt bytes 6) 40 >>= fun rest =>
        .ok (rest.map fun rest => (rest, .v6 source, .v6 target)) := by
  refine ⟨_, (ipv6HeaderOf bytes hlen).source, (ipv6HeaderOf bytes hlen).target, rfl, rfl, ?_, ?_,
    (quotedV6_of_le hlen).trans (if_neg (not_not.2 ((shiftRight_four_eq _ _).2 hversion)))⟩
  · rw [List.length_take]
    omega
  · rw [List.drop_take, Nat.add_sub_cancel_left]
    rfl

/-- `quoted_v6` returns something only of a packet with room for the fixed header, of version 6. -/
theorem quotedV6_some {bytes : Bytes} {value : Bytes × IpAddr × IpAddr} (h : quotedV6 bytes = .ok (some value)) :
    40 ≤ bytes.length ∧ (byteAt bytes 0).toNat / 16 = 6 := by
  have hlen : 40 ≤ bytes.length := by
    by_contra hlt
    simp only [quotedV6, if_pos (Nat.lt_of_not_le hlt), Checked.pure_eq] at h
    cases h
  refine ⟨hlen, (shiftRight_four_eq _ 6).1 ?_⟩
  by_contra hversion
  rw [quotedV6_of_le hlen, if_pos hversion] at h
  cases h

/-- What `quoted_v6` returns are exactly the quotes. -/
theorem quotedV6_eq_some_iff (bytes rest : Bytes) (s d : IpAddr) :
    quotedV6 bytes = .ok (some (rest, s, d)) ↔
      ∃ source target chain, s = .v6 source ∧ d = .v6 target ∧ Quotes bytes rest source target chain := by
  constructor
  · intro h
    obtain ⟨hlen, hversion⟩ := quotedV6_some h
    obtain ⟨packet, source, target, hsource, htarget, hpacket, hbody, heq⟩ := quotedV6_eq_walk hlen hversion
    rw [heq] at h
    obtain ⟨found, hwalk, h⟩ := Checked.bind_eq_ok.1 h
    cases found with
    | none => cases h
    | some found =>
      cases h
      obtain ⟨chain, hcount, hfirst, hdrop⟩ := (walkExtensions_eq_some_iff packet rest 16 _ _ hpacket).1 hwalk
      exact ⟨source, target, chain, rfl, rfl, hlen, hversion, hsource, htarget, Nat.le_of_lt_succ hcount, hfirst,
        hbody ▸ hdrop⟩
  · rintro ⟨source, target, chain, rfl, rfl, h⟩
    obtain ⟨packet, source', target', hsource, htarget, hpacket, hbody, heq⟩ := quotedV6_eq_walk h.room h.version
    have hs : source' = source := by
      cases source
      cases source'
      simp only [Ipv6Addr.mk.injEq]
      exact hsource.trans h.source.symm
    have ht : target' = target := by
      cases target
      cases target'
      simp only [Ipv6Addr.mk.injEq]
      exact htarget.trans h.target.symm
    have hwalk := (walkExtensions_eq_some_iff packet rest 16 _ 40 hpacket).2
      ⟨chain, Nat.lt_succ_of_le h.count, h.first, hbody.trans h.body⟩
    rw [heq, hwalk, hs, ht]
    rfl

/-- Encoding a header and a chain of at most fifteen extension headers, and reading them back. -/
theorem quotes_encode (header : Ipv6Header) {chain : List ExtensionHeader} {tail : Bytes} (after : Bytes)
    (hcount : chain.length ≤ 15) (hlength : header.payloadLength.toNat = (encodeChain chain ++ tail).length) :
    Quotes (header.encode (chainKind chain) ++ (encodeChain chain ++ tail) ++ after) tail header.source header.target chain := by
  have hclass := header.trafficClass.isLt
  have hlen := header.length_encode (chainKind chain)
  have hsource := header.source.length_octets
  have htarget := header.target.length_octets
  have hdeclared : u16FromBe (.ofNat (header.payloadLength.toNat / 256)) (.ofNat (header.payloadLength.toNat % 256)) =
      header.payloadLength := u16FromBe_toBe _
  refine ⟨?_, ?_, ?_, ?_, hcount, rfl, ?_⟩
  · rw [List.append_assoc, List.length_append]
    omega
  · show (UInt8.ofNat (96 + header.trafficClass.val)).toNat / 16 = 6
    rw [UInt8.toNat_ofNat']
    omega
  · simp [field, Ipv6Header.encode, u16ToBe, hsource]
  · simp [field, Ipv6Header.encode, u16ToBe, List.take_append, hsource, htarget]
  · show List.take (u16FromBe (.ofNat (header.payloadLength.toNat / 256)) (.ofNat (header.payloadLength.toNat % 256))).toNat _ = _
    rw [hdeclared, hlength, List.append_assoc, ← hlen, List.drop_left, List.take_left]

/-- `quoted_v6` reads exactly the grammar of extension headers. It returns `rest` exactly for the quotes of a packet whose
chain leads to it; so an encoded chain is read back to its tail; and it returns nothing for anything else, in particular when
the chain of whole headers that the packet starts with is longer than fifteen, or is followed by a header cut short, by a real
fragment or by an unknown kind of header. -/
theorem quotedV6_grammar :
    (∀ (bytes rest : Bytes) (s d : IpAddr), quotedV6 bytes = .ok (some (rest, s, d)) ↔
      ∃ source target chain, s = .v6 source ∧ d = .v6 target ∧ Quotes bytes rest source target chain) ∧
    (∀ (header : Ipv6Header) (chain : List ExtensionHeader) (tail after : Bytes), chain.length ≤ 15 →
      header.payloadLength.toNat = (encodeChain chain ++ tail).length →
      quotedV6 (header.encode (chainKind chain) ++ (encodeChain chain ++ tail) ++ after) =
        .ok (some (tail, .v6 header.source, .v6 header.target))) ∧
    (∀ bytes : Bytes, (¬∃ rest source target chain, Quotes bytes rest source target chain) → quotedV6 bytes = .ok none) ∧
    ∀ (bytes rest : Bytes) (chain : List ExtensionHeader) (last : UInt8), linkKind chain last = byteAt bytes 6 →
      (bytes.drop 40).take (u16FromBe (byteAt bytes 4) (byteAt bytes 5)).toNat = encodeLinks chain last ++ rest →
      15 < chain.length ∨ CutShort last rest ∨ RealFragment last rest ∨ UnknownHeader last → quotedV6 bytes = .ok none := by
  have hnone : ∀ bytes : Bytes, (∀ value, quotedV6 bytes ≠ .ok (some value)) → quotedV6 bytes = .ok none := by
    intro bytes h
    obtain ⟨value, hvalue⟩ := quotedV6_returns bytes
    cases value with
    | none => exact hvalue
    | some value => exact absurd hvalue (h value)
  refine ⟨quotedV6_eq_some_iff, ?_, ?_, ?_⟩
  · intro header chain tail after hcount hlength
    exact (quotedV6_eq_some_iff ..).2 ⟨_, _, chain, rfl, rfl, quotes_encode header after hcount hlength⟩
  · intro bytes h
    refine hnone bytes fun ⟨rest, s, d⟩ hvalue => h ?_
    obtain ⟨source, target, chain, -, -, hquotes⟩ := (quotedV6_eq_some_iff ..).1 hvalue
    exact ⟨rest, source, target, chain, hquotes⟩
  · intro bytes rest chain last hfirst hbody hbad
    refine hnone bytes fun value hvalue => ?_
    obtain ⟨hlen, hversion⟩ := quotedV6_some hvalue
    obtain ⟨packet, source, target, -, -, hpacket, hdrop, heq⟩ := quotedV6_eq_walk hlen hversion
    have hwalk : walkExtensions packet 16 (byteAt bytes 6) 40 = .ok none := by
      rw [← hfirst]
      rcases Nat.lt_or_ge 15 chain.length with hlong | hshort
      · exact walkExtensions_longer 16 chain 40 hpacket hlong (hdrop.trans hbody)
      · obtain ⟨stop, hstop, hrest, hlinks⟩ :=
          walkExtensions_links (16 - chain.length) chain 40 hpacket (hdrop.trans hbody)
        rw [Nat.sub_add_cancel (by omega)] at hlinks
        rw [hlinks]
        exact walkExtensions_stuck _ hstop (hrest ▸ hbad.resolve_left (Nat.not_lt.2 hshort))
    rw [heq, hwalk] at hvalue
    cases hvalue

/-- A destination options header of eight bytes. -/
def sampleExtension : ExtensionHeader where
  kind := 60
  length := 0
  body := [1, 4, 0, 0, 0, 0]
  wellFormed := Or.inl ⟨by decide, rfl⟩

/-- The header of a packet from 2001:db8::1 to 2001:db8::2 that declares sixteen bytes. -/
def sampleIpv6Header : Ipv6Header where
  trafficClass := 0
  flow := (0, 0, 0)
  payloadLength := 16
  hopLimit := 64
  source := ⟨[0x20, 0x01, 0x0d, 0xb8, 0, 0, 0, 0, 0, 0, 0, 0, 0, 0, 0, 1], rfl⟩
  target := ⟨[0x20, 0x01, 0x0d, 0xb8, 0, 0, 0, 0, 0, 0, 0, 0, 0, 0, 0, 2], rfl⟩

theorem quotedV6_grammar_sample :
    quotedV6 (sampleIpv6Header.encode 60 ++ (sampleExtension.encode 58 ++ [128, 0, 1, 2, 0, 7, 0, 1]) ++ [0, 0]) =
      .ok (some ([128, 0, 1, 2, 0, 7, 0, 1], .v6 sampleIpv6Header.source, .v6 sampleIpv6Header.target)) :=
  quotedV6_grammar.2.1 sampleIpv6Header [sampleExtension] [128, 0, 1, 2, 0, 7, 0, 1] [0, 0] (by decide) rfl

end IcmpPing
