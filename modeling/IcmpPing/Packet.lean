import IcmpPing.Rust

/-!
# The Echo codec (`packet.rs`)

The encoder of Echo requests and the parser that decides whether a received packet answers or rejects one request. Packet size
is payload bytes, excluding the 8-byte header.

The functions are the source's, with its order of checks: an `Option` is the source's own, the `Checked` around it says whether
an index, a slice or an addition panics. A condition joined by `||` is written as one `if` for each operand that can panic, so
that a later operand is evaluated only when the source evaluates it.
-/

namespace IcmpPing

inductive Reply where
  | echo
  | negative (message : String)
  deriving DecidableEq, Repr

/-- The sum loop of `checksum`, over `bytes.chunks(2)`. -/
def sumWords : Nat → Bytes → Checked Nat
  | sum, [] => return sum
  | sum, [a] => addU32 sum (u16FromBe a 0).toNat
  | sum, a :: b :: rest => do sumWords (← addU32 sum (u16FromBe a b).toNat) rest

/-- A turn of the carry loop makes the sum smaller. -/
theorem foldCarries_decreases {sum : Nat} (h : sum >>> 16 ≠ 0) : (sum &&& 0xffff) + (sum >>> 16) < sum := by
  have h1 : sum &&& 0xffff = sum % 65536 := Nat.and_two_pow_sub_one_eq_mod sum 16
  rw [Nat.shiftRight_eq_div_pow] at *
  omega

/-- The carry loop of `checksum`: `while sum >> 16 != 0 { sum = (sum & 0xffff) + (sum >> 16) }`. -/
def foldCarries (sum : Nat) : Checked Nat :=
  if _h : sum >>> 16 ≠ 0 then do
    let _ ← addU32 (sum &&& 0xffff) (sum >>> 16)
    foldCarries ((sum &&& 0xffff) + (sum >>> 16))
  else return sum
termination_by sum
decreasing_by exact foldCarries_decreases _h

def checksum (bytes : Bytes) : Checked UInt16 := do
  let sum ← sumWords 0 bytes
  let sum ← foldCarries sum
  return ~~~(UInt16.ofNat sum)

/-- The bytes `checksum_v6` sums: the IPv6 pseudo-header and the packet. -/
def pseudoV6 (source target : Ipv6Addr) (packet : Bytes) : Bytes :=
  source.octets ++ target.octets ++ u32ToBe packet.length ++ [0, 0, 0, 58] ++ packet

def checksumV6 (source target : Ipv6Addr) (packet : Bytes) : Checked UInt16 :=
  checksum (pseudoV6 source target packet)

def echo (target localAddr : IpAddr) (id seq : UInt16) (payload : Bytes) : Checked Bytes := do
  let packet := [if target.isIpv4 then 8 else 128, 0, 0, 0] ++ u16ToBe id ++ u16ToBe seq ++ payload
  let sum ← match localAddr, target with
    | .v6 source, .v6 target => checksumV6 source target packet
    | _, _ => checksum packet
  copyFromSlice packet 2 4 (u16ToBe sum)

/-- `matches`: the identifier and the sequence number of an Echo header. -/
def matchesEcho (packet : Bytes) (id seq : UInt16) : Checked Bool := do
  if packet.length < 8 then return false
  if (← slice packet 4 6) ≠ u16ToBe id then return false
  return (← slice packet 6 8) = u16ToBe seq

/-- `ipv4`: the ICMP part of an IPv4 datagram, with the datagram's source and target. -/
def ipv4 (packet : Bytes) (quoted : Bool) : Checked (Option (Bytes × IpAddr × IpAddr)) := do
  if packet.length < 20 then return none
  if (← index packet 0) >>> 4 ≠ 4 then return none
  if (← index packet 9) ≠ 1 then return none
  let header ← mulUsize ((← index packet 0).toNat &&& 15) 4
  let length := (u16FromBe (← index packet 2) (← index packet 3)).toNat
  -- Reject fragments and malformed header lengths, including quoted fragments.
  if header < 20 then return none
  if header > packet.length then return none
  if length < (← addUsize header 8) then return none
  if u16FromBe (← index packet 6) (← index packet 7) &&& 0x3fff ≠ 0 then return none
  -- A quote may be cut short of its declared length; a received datagram may not.
  if quoted = false ∧ length > packet.length then return none
  let stop := if quoted then min length packet.length else length
  let source := IpAddr.v4 ⟨← index packet 12, ← index packet 13, ← index packet 14, ← index packet 15⟩
  let target := IpAddr.v4 ⟨← index packet 16, ← index packet 17, ← index packet 18, ← index packet 19⟩
  return some (← slice packet header stop, source, target)

/-- The size of the extension header `ext` of kind `next`, in `quoted_v6`. -/
def extensionSize (next : UInt8) (ext : Bytes) : Checked (Option Nat) := do
  if next = 0 ∨ next = 43 ∨ next = 60 then
    return some (← mulUsize (← addUsize (← index ext 1).toNat 1) 8)
  else if next = 44 then
    -- do not treat fragment bodies as an Echo header
    if u16FromBe (← index ext 2) (← index ext 3) &&& 0xfff9 ≠ 0 then return none
    return some 8
  else if next = 51 then
    return some (← mulUsize (← addUsize (← index ext 1).toNat 2) 4)
  else return none

/-- The extension traversal of `quoted_v6`, with `n` turns left: what follows the chain that starts at `offset`. -/
def walkExtensions (packet : Bytes) : Nat → UInt8 → Nat → Checked (Option Bytes)
  | 0, _, _ => return none
  | n + 1, next, offset => do
    if next = 58 then return getFrom packet offset
    let some ext := getFrom packet offset | return none
    if ext.length < 8 then return none
    let some size ← extensionSize next ext | return none
    let next ← index ext 0
    -- `checked_add`: a sum that does not fit a word is past the end of the packet, too
    let offset := offset + size
    if offset > packet.length then return none
    walkExtensions packet n next offset

/-- `quoted_v6`: the ICMPv6 part of a quoted IPv6 packet, with the packet's source and target. -/
def quotedV6 (packet : Bytes) : Checked (Option (Bytes × IpAddr × IpAddr)) := do
  if packet.length < 40 then return none
  if (← index packet 0) >>> 4 ≠ 6 then return none
  let some source := Ipv6Addr.tryFrom (← slice packet 8 24) | return none
  let some target := Ipv6Addr.tryFrom (← slice packet 24 40) | return none
  let length ← addUsize 40 (u16FromBe (← index packet 4) (← index packet 5)).toNat
  let packet ← slice packet 0 (min length packet.length)
  -- Bound extension traversal.
  let some rest ← walkExtensions packet 16 (← index packet 6) 40 | return none
  return some (rest, .v6 source, .v6 target)

/-- `reason`: what an ICMP error of this family, type and code means; none for a message that is not an error. -/
def reason (v6 : Bool) (kind code : UInt8) : Option String :=
  match v6, kind, code with
  | false, 3, 0 => some "Network unreachable"
  | false, 3, 1 => some "Host unreachable"
  | false, 3, 4 => some "Packet too big"
  | false, 3, 9 | false, 3, 10 | false, 3, 13 => some "Communication administratively prohibited"
  | false, 3, _ => some "Destination unreachable"
  | false, 11, _ | true, 3, _ => some "Time exceeded"
  | false, 12, _ | true, 4, _ => some "Parameter problem"
  | true, 1, 0 => some "Network unreachable"
  | true, 1, 1 => some "Communication administratively prohibited"
  | true, 1, 3 => some "Host unreachable"
  | true, 1, _ => some "Destination unreachable"
  | true, 2, _ => some "Packet too big"
  | _, _, _ => none

/-- What a probe expects of a reply. -/
structure Expected where
  target : IpAddr
  localAddr : IpAddr
  id : UInt16
  seq : UInt16
  payload : Bytes
  deriving DecidableEq

/-- The checksum of a received ICMP message, when its source, the local address and the target are of one family. -/
def messageChecksum (v6 : Bool) (source localAddr : IpAddr) (packet : Bytes) : Checked (Option UInt16) :=
  match v6, source, localAddr with
  | true, .v6 source, .v6 localAddr => do return some (← checksumV6 source localAddr packet)
  | false, .v4 _, .v4 _ => do return some (← checksum packet)
  | _, _, _ => return none

/-- `format!("{message} (source={source})")` -/
def withSource (message : String) (source : IpAddr) : String := message ++ " (source=" ++ source.display ++ ")"

/-- The packet an ICMP error quotes, by family. -/
def quotedPacket (v6 : Bool) (bytes : Bytes) : Checked (Option (Bytes × IpAddr × IpAddr)) :=
  if v6 then quotedV6 bytes else ipv4 bytes true

/-- The tests `parse_message` makes of a quoted packet, in its order. -/
def quoteMatches (quoted : Bytes) (quotedSource destination : IpAddr) (expected : Expected) : Checked Bool := do
  if quotedSource ≠ expected.localAddr ∨ destination ≠ expected.target ∨
      quoted.head? ≠ some (if expected.target.isIpv6 then 128 else 8) ∨ quoted[1]? ≠ some 0 then return false
  if !(← matchesEcho quoted expected.id expected.seq) then return false
  -- Correlate even a minimal quote with the exact request, including the ICMPv6 pseudo-header.
  let request ← echo expected.target expected.localAddr expected.id expected.seq expected.payload
  if (← slice quoted 2 4) ≠ (← slice request 2 4) then return false
  -- Continue validating any payload bytes included in a longer quote.
  let data ← sliceFrom quoted 8
  if data.length > expected.payload.length then return false
  return data = (← slice expected.payload 0 data.length)

def parseMessage (packet : Bytes) (source : IpAddr) (expected : Expected) : Checked (Option Reply) := do
  let v6 := expected.target.isIpv6
  if packet.length < 8 then return none
  let some sum ← messageChecksum v6 source expected.localAddr packet | return none
  if sum ≠ 0 then return none
  if (← index packet 0) = if v6 then 129 else 0 then
    if (← index packet 1) ≠ 0 then return none
    if source ≠ expected.target then return none
    if !(← matchesEcho packet expected.id expected.seq) then return none
    if (← sliceFrom packet 8) ≠ expected.payload then return none
    return some .echo
  let some message := reason v6 (← index packet 0) (← index packet 1) | return none
  let some (quoted, quotedSource, destination) ← quotedPacket v6 (← sliceFrom packet 8) | return none
  if !(← quoteMatches quoted quotedSource destination expected) then return none
  return some (.negative (withSource message source))

def parse (bytes : Bytes) (source : IpAddr) (expected : Expected) : Checked (Option Reply) := do
  if expected.target.isIpv6 then parseMessage bytes source expected
  else
    let some (packet, headerSource, headerTarget) ← ipv4 bytes false | return none
    if headerSource ≠ source ∨ headerTarget ≠ expected.localAddr then return none
    parseMessage packet source expected

/-- `parse_ping_echo`: Linux ping sockets return the ICMP message without an outer IP header in both families. -/
def parsePingEcho (packet : Bytes) (source : IpAddr) (expected : Expected) : Checked (Option Reply) := do
  if packet.head? ≠ some (if expected.target.isIpv6 then 129 else 0) then return none
  parseMessage packet source expected

end IcmpPing
