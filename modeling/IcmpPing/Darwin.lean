import IcmpPing.Packet

/-!
# Host-order delivery (`packet.rs`)

Darwin exposes the length and fragment fields of the outer IPv4 header in host order, with the header subtracted from the length,
and its ICMP handler also converts the quoted IPv4 length in negative responses. `normalize_macos_ipv4` restores wire form before
the protocol checks.
-/

namespace IcmpPing

/-- The ICMP types whose quoted length `normalize_macos_ipv4` restores. -/
def restoresQuote (kind : UInt8) : Bool := kind = 3 ∨ kind = 4 ∨ kind = 5 ∨ kind = 11 ∨ kind = 12

/-- The end of `normalize_macos_ipv4`: the quoted length of a negative response. -/
def normalizeQuote (order : ByteOrder) (bytes : Bytes) (header : Nat) : Checked Bytes := do
  if restoresQuote (← index bytes header) then
    let offset ← addUsize header 8
    if bytes.length < (← addUsize offset 20) then return bytes
    if (← index bytes offset) >>> 4 ≠ 4 then return bytes
    let length := u16FromNe order (← index bytes (← addUsize offset 2)) (← index bytes (← addUsize offset 3))
    copyFromSlice bytes (← addUsize offset 2) (← addUsize offset 4) (u16ToBe length)
  else return bytes

def normalizeMacosIpv4 (order : ByteOrder) (bytes : Bytes) : Checked Bytes := do
  if bytes.length < 20 then return bytes
  if (← index bytes 0) >>> 4 ≠ 4 then return bytes
  let header ← mulUsize ((← index bytes 0).toNat &&& 15) 4
  if header < 20 then return bytes
  if bytes.length < (← addUsize header 8) then return bytes
  let length ← addUsize (u16FromNe order (← index bytes 2) (← index bytes 3)).toNat header
  if length > 65535 then return bytes
  let bytes ← copyFromSlice bytes 2 4 (u16ToBe (.ofNat length))
  let fragment := u16FromNe order (← index bytes 6) (← index bytes 7)
  let bytes ← copyFromSlice bytes 6 8 (u16ToBe fragment)
  normalizeQuote order bytes header

/-- The ICMP types whose quoted length Darwin converts. -/
def convertsQuote (kind : UInt8) : Bool := kind = 3 ∨ kind = 11 ∨ kind = 12

/-- The end of `darwin_received`: the quoted length of a negative response. -/
def convertQuote (order : ByteOrder) (wire : Bytes) (header : Nat) : Checked Bytes := do
  if convertsQuote (← index wire header) then
    let offset ← addUsize header 8
    let length := u16FromBe (← index wire (← addUsize offset 2)) (← index wire (← addUsize offset 3))
    copyFromSlice wire (← addUsize offset 2) (← addUsize offset 4) (u16ToNe order length)
  else return wire

/-- `darwin_received`: what both raw and ICMP datagram sockets make of a datagram in wire form, before it is normalized. -/
def darwinReceived (order : ByteOrder) (wire : Bytes) : Checked Bytes := do
  let header ← mulUsize ((← index wire 0).toNat &&& 15) 4
  let length ← subU16 (u16FromBe (← index wire 2) (← index wire 3)) (.ofNat header)
  let wire ← copyFromSlice wire 2 4 (u16ToNe order length)
  let fragment := u16FromBe (← index wire 6) (← index wire 7)
  let wire ← copyFromSlice wire 6 8 (u16ToNe order fragment)
  convertQuote order wire header

end IcmpPing
