import IcmpPing.Rust

/-!
# The wire formats

What an IPv4 header, an IPv6 header and a chain of IPv6 extension headers are, each as the values its fields can take and the
bytes it is written as. A value of these types is well formed by construction, so "the packet has a well-formed header" is "the
packet starts with the encoding of one". The parser is not mentioned here; `Lemmas/Headers.lean` says that it accepts exactly
these encodings.
-/

namespace IcmpPing

/-! ## IPv4 -/

/-- An IPv4 header of a datagram that carries ICMP (protocol 1) and is not a fragment (offset zero, "more fragments" clear). -/
structure Ipv4Header where
  tos : UInt8
  totalLength : UInt16
  identification : UInt16
  reserved : Bool
  dontFragment : Bool
  ttl : UInt8
  headerChecksum : UInt16
  source : Ipv4Addr
  target : Ipv4Addr
  options : Bytes
  options_words : options.length % 4 = 0
  options_le : options.length ≤ 40

namespace Ipv4Header

/-- The length of the header: 20 to 60 bytes. -/
def size (h : Ipv4Header) : Nat := 20 + h.options.length

/-- The high byte of the flags and the fragment offset: the reserved bit and "don't fragment" alone. -/
def flags (h : Ipv4Header) : UInt8 := .ofNat (128 * h.reserved.toNat + 64 * h.dontFragment.toNat)

def encode (h : Ipv4Header) : Bytes :=
  [.ofNat (64 + h.size / 4), h.tos] ++ u16ToBe h.totalLength ++ u16ToBe h.identification ++ [h.flags, 0, h.ttl, 1] ++
    u16ToBe h.headerChecksum ++ h.source.octets ++ h.target.octets ++ h.options

theorem length_encode (h : Ipv4Header) : h.encode.length = h.size := by
  simp [encode, size, u16ToBe, Ipv4Addr.octets]
  omega

theorem twenty_le_size (h : Ipv4Header) : 20 ≤ h.size := Nat.le_add_right _ _

theorem size_le (h : Ipv4Header) : h.size ≤ 60 := by
  have := h.options_le
  simp only [size]
  omega

theorem size_words (h : Ipv4Header) : h.size % 4 = 0 := by
  have := h.options_words
  simp only [size]
  omega

end Ipv4Header

/-- `bytes` is an unfragmented datagram from `source` to `target` that carries the ICMP message `message`, possibly followed by
further bytes: the total length field says where the message ends. -/
def Ipv4Datagram (source target : Ipv4Addr) (message bytes : Bytes) : Prop :=
  ∃ (h : Ipv4Header) (trailing : Bytes), h.source = source ∧ h.target = target ∧
    h.totalLength.toNat = h.size + message.length ∧ bytes = h.encode ++ message ++ trailing

/-- `bytes` starts with a quote of a datagram from `source` to `target` whose ICMP part, as far as it was quoted and at most up
to the end its own total length field declares, is `quoted`; `after` is all that follows the quoted header, the bytes past that
end included. -/
def Ipv4Quote (source target : Ipv4Addr) (quoted after bytes : Bytes) : Prop :=
  ∃ h : Ipv4Header, h.source = source ∧ h.target = target ∧ h.size + 8 ≤ h.totalLength.toNat ∧
    bytes = h.encode ++ after ∧ quoted = after.take (h.totalLength.toNat - h.size)

/-! ## IPv6 -/

/-- An IPv6 header, all but its next-header field. -/
structure Ipv6Header where
  trafficClass : Fin 16
  flow : UInt8 × UInt8 × UInt8
  payloadLength : UInt16
  hopLimit : UInt8
  source : Ipv6Addr
  target : Ipv6Addr

def Ipv6Header.encode (h : Ipv6Header) (next : UInt8) : Bytes :=
  [.ofNat (96 + h.trafficClass.val), h.flow.1, h.flow.2.1, h.flow.2.2] ++ u16ToBe h.payloadLength ++ [next, h.hopLimit] ++
    h.source.octets ++ h.target.octets

theorem Ipv6Header.length_encode (h : Ipv6Header) (next : UInt8) : (h.encode next).length = 40 := by
  simp [encode, u16ToBe, h.source.length_octets, h.target.length_octets]

/-- What the bytes of an extension header of a given kind must be: hop-by-hop options, routing and destination options count
their size in eight-byte units after the first, authentication in four-byte units after the second, and a fragment header has
eight bytes, of which the third and fourth hold the offset and the "more fragments" bit. -/
def ExtensionHeader.WellFormed (kind length : UInt8) (body : Bytes) : Prop :=
  ((kind = 0 ∨ kind = 43 ∨ kind = 60) ∧ body.length + 2 = (length.toNat + 1) * 8) ∨
  (kind = 44 ∧ body.length + 2 = 8 ∧
    (u16FromBe (body.getD 0 0) (body.getD 1 0)).toNat / 8 = 0 ∧ (u16FromBe (body.getD 0 0) (body.getD 1 0)).toNat % 2 = 0) ∨
  (kind = 51 ∧ body.length + 2 = (length.toNat + 2) * 4)

/-- An IPv6 extension header that does not make the packet a fragment, all but its next-header field. -/
structure ExtensionHeader where
  kind : UInt8
  length : UInt8
  body : Bytes
  wellFormed : ExtensionHeader.WellFormed kind length body

namespace ExtensionHeader

def size (e : ExtensionHeader) : Nat := e.body.length + 2

def encode (e : ExtensionHeader) (next : UInt8) : Bytes := next :: e.length :: e.body

theorem length_encode (e : ExtensionHeader) (next : UInt8) : (e.encode next).length = e.size := rfl

/-- Every extension header has at least eight bytes. -/
theorem eight_le_size (e : ExtensionHeader) : 8 ≤ e.size := by
  unfold size
  rcases e.wellFormed with ⟨_, h⟩ | ⟨_, h, _⟩ | ⟨_, h⟩ <;> omega

/-- ICMPv6 is not an extension header. -/
theorem kind_ne (e : ExtensionHeader) : e.kind ≠ 58 := by
  intro h
  rcases e.wellFormed with ⟨h' | h' | h', _⟩ | ⟨h', _⟩ | ⟨h', _⟩ <;> rw [h] at h' <;> exact absurd h' (by decide)

end ExtensionHeader

/-- The next-header value that leads into a chain: the kind of its first header, or ICMPv6. -/
def chainKind : List ExtensionHeader → UInt8
  | [] => 58
  | e :: _ => e.kind

/-- A chain of extension headers, each linked to the one after it and the last to ICMPv6. -/
def encodeChain : List ExtensionHeader → Bytes
  | [] => []
  | e :: chain => e.encode (chainKind chain) ++ encodeChain chain

/-- `bytes` starts with a quote of an IPv6 packet from `source` to `target` whose ICMPv6 part, reached through at most fifteen
extension headers and cut at the end the packet's own payload length declares, is `quoted`; `after` is all that follows the
extension headers, the bytes past that end included. -/
def Ipv6Quote (source target : Ipv6Addr) (quoted after bytes : Bytes) : Prop :=
  ∃ (h : Ipv6Header) (chain : List ExtensionHeader), h.source = source ∧ h.target = target ∧ chain.length ≤ 15 ∧
    (encodeChain chain).length ≤ h.payloadLength.toNat ∧ bytes = h.encode (chainKind chain) ++ encodeChain chain ++ after ∧
    quoted = after.take (h.payloadLength.toNat - (encodeChain chain).length)

/-! ## Both families -/

/-- `packet` carries the ICMP message `message` from `source` to `target`, as a raw socket of the family delivers it: with its
IPv4 header, or, for IPv6, bare. -/
def Carries : (source target : IpAddr) → (message packet : Bytes) → Prop
  | .v4 source, .v4 target, message, packet => Ipv4Datagram source target message packet
  | .v6 _, .v6 _, message, packet => packet = message
  | _, _, _, _ => False

/-- `bytes` starts with a quote of an ICMP packet from `source` to `target`: `quoted` is its ICMP part up to its declared end,
`after` everything that follows its headers. -/
def QuotesPacket : (source target : IpAddr) → (quoted after bytes : Bytes) → Prop
  | .v4 source, .v4 target, quoted, after, bytes => Ipv4Quote source target quoted after bytes
  | .v6 source, .v6 target, quoted, after, bytes => Ipv6Quote source target quoted after bytes
  | _, _, _, _, _ => False

end IcmpPing
