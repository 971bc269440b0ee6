import Mathlib.Data.UInt
import Mathlib.Data.List.Basic

/-!
# The Rust the code is written in

Bytes, big-endian integers, addresses, and the operations that can panic. The code's own checks decide whether an index or a
slice is in range, so these operations are modelled with their failure: a `Checked` value is the result or the panic. Integer
additions that the source does not write as wrapping are checked too, as in a build with overflow checks; where no panic is
reached the two kinds of build agree.

`usize` is a natural number. Sums and products of what a packet declares are checked against its 64 bits, which every target of
the package has; the length of a slice alone comes nowhere near them.
-/

namespace IcmpPing

/-- Why a thread panics. -/
inductive Panic where
  | index | slice | copyLength | overflow
  deriving DecidableEq, Repr

/-- The result of code that may panic. -/
abbrev Checked := Except Panic

@[simp] theorem Checked.ok_bind {α β : Type} (a : α) (f : α → Checked β) : (Except.ok a >>= f) = f a := rfl

@[simp] theorem Checked.error_bind {α β : Type} (p : Panic) (f : α → Checked β) :
    ((Except.error p : Checked α) >>= f) = .error p := rfl

@[simp] theorem Checked.pure_eq {α : Type} (a : α) : (pure a : Checked α) = .ok a := rfl

/-- A sequence of steps ends without a panic exactly when each of them does. -/
theorem Checked.bind_eq_ok {α β : Type} {x : Checked α} {f : α → Checked β} {b : β} :
    (x >>= f) = .ok b ↔ ∃ a, x = .ok a ∧ f a = .ok b := by
  cases x <;> simp

abbrev Bytes := List UInt8

/-- `bytes[i]` -/
def index (bytes : Bytes) (i : Nat) : Checked UInt8 :=
  match bytes[i]? with
  | some b => .ok b
  | none => .error .index

/-- `&bytes[start..stop]` -/
def slice (bytes : Bytes) (start stop : Nat) : Checked Bytes :=
  if start ≤ stop ∧ stop ≤ bytes.length then .ok ((bytes.take stop).drop start) else .error .slice

/-- `&bytes[start..]` -/
def sliceFrom (bytes : Bytes) (start : Nat) : Checked Bytes := slice bytes start bytes.length

/-- `bytes[start..stop].copy_from_slice(source)` -/
def copyFromSlice (bytes : Bytes) (start stop : Nat) (source : Bytes) : Checked Bytes :=
  if start ≤ stop ∧ stop ≤ bytes.length then
    if source.length = stop - start then .ok (bytes.take start ++ source ++ bytes.drop stop) else .error .copyLength
  else .error .slice

/-- `bytes.get(offset..)` -/
def getFrom (bytes : Bytes) (offset : Nat) : Option Bytes :=
  if offset ≤ bytes.length then some (bytes.drop offset) else none

/-- `a + b` on `u32` -/
def addU32 (a b : Nat) : Checked Nat := if a + b < 2 ^ 32 then .ok (a + b) else .error .overflow

/-- `a + b` on `usize` -/
def addUsize (a b : Nat) : Checked Nat := if a + b < 2 ^ 64 then .ok (a + b) else .error .overflow

/-- `a - b` on `u16` -/
def subU16 (a b : UInt16) : Checked UInt16 := if b ≤ a then .ok (a - b) else .error .overflow

/-- `a * b` on `usize` -/
def mulUsize (a b : Nat) : Checked Nat := if a * b < 2 ^ 64 then .ok (a * b) else .error .overflow

/-- `u16::from_be_bytes([a, b])` -/
def u16FromBe (a b : UInt8) : UInt16 := .ofNat (a.toNat * 256 + b.toNat)

/-- `x.to_be_bytes()` of a `u16` -/
def u16ToBe (x : UInt16) : Bytes := [.ofNat (x.toNat / 256), .ofNat (x.toNat % 256)]

/-- The byte order of the host. -/
inductive ByteOrder where
  | little | big
  deriving DecidableEq, Repr

/-- `u16::from_ne_bytes([a, b])` -/
def u16FromNe (order : ByteOrder) (a b : UInt8) : UInt16 :=
  match order with
  | .little => u16FromBe b a
  | .big => u16FromBe a b

/-- `x.to_ne_bytes()` of a `u16` -/
def u16ToNe (order : ByteOrder) (x : UInt16) : Bytes :=
  match order with
  | .little => (u16ToBe x).reverse
  | .big => u16ToBe x

/-- `(x as u32).to_be_bytes()` -/
def u32ToBe (x : Nat) : Bytes := [.ofNat (x / 2 ^ 24), .ofNat (x / 2 ^ 16), .ofNat (x / 2 ^ 8), .ofNat x]

/-! ## Addresses -/

/-- `std::net::Ipv4Addr`: four octets. -/
structure Ipv4Addr where
  a : UInt8
  b : UInt8
  c : UInt8
  d : UInt8
  deriving DecidableEq, Repr

def Ipv4Addr.octets (x : Ipv4Addr) : Bytes := [x.a, x.b, x.c, x.d]

/-- `std::net::Ipv6Addr`: sixteen octets. -/
structure Ipv6Addr where
  octets : Bytes
  length_octets : octets.length = 16
  deriving DecidableEq

/-- `<[u8; 16]>::try_from(bytes).ok().map(Ipv6Addr::from)` -/
def Ipv6Addr.tryFrom (bytes : Bytes) : Option Ipv6Addr := if h : bytes.length = 16 then some ⟨bytes, h⟩ else none

inductive IpAddr where
  | v4 (addr : Ipv4Addr)
  | v6 (addr : Ipv6Addr)
  deriving DecidableEq

def IpAddr.isIpv4 : IpAddr → Bool
  | .v4 _ => true
  | .v6 _ => false

def IpAddr.isIpv6 : IpAddr → Bool
  | .v4 _ => false
  | .v6 _ => true

/-- `Display for Ipv4Addr`: dotted decimal. -/
def Ipv4Addr.display (x : Ipv4Addr) : String :=
  ".".intercalate (x.octets.map fun o => toString o.toNat)

/-- `Ipv6Addr::segments` -/
def Ipv6Addr.segments (x : Ipv6Addr) : List Nat :=
  (List.range 8).map fun i => (u16FromBe (x.octets.getD (2 * i) 0) (x.octets.getD (2 * i + 1) 0)).toNat

/-- One step of the scan for the longest run of zero segments: the longest run so far and the current one, each with its
start and its length. -/
def zeroRunStep (acc : (Nat × Nat) × (Nat × Nat)) (segment : Nat × Nat) : (Nat × Nat) × (Nat × Nat) :=
  let (longest, current) := acc
  if segment.1 = 0 then
    let current := (if current.2 = 0 then segment.2 else current.1, current.2 + 1)
    (if current.2 > longest.2 then current else longest, current)
  else (longest, (0, 0))

/-- The segments in lower-case hexadecimal, separated by colons. -/
def displaySegments (segments : List Nat) : String :=
  ":".intercalate (segments.map fun s => String.ofList (Nat.toDigits 16 s))

/-- `Display for Ipv6Addr`: an IPv4-mapped address shows its IPv4 part in dotted decimal; otherwise the first longest run of
at least two zero segments is written `::`. -/
def Ipv6Addr.display (x : Ipv6Addr) : String :=
  if x.octets.take 12 = List.replicate 10 0 ++ [0xff, 0xff] then
    "::ffff:" ++ ".".intercalate ((x.octets.drop 12).map fun o => toString o.toNat)
  else
    let segments := x.segments
    let zeroes := (segments.zipIdx.foldl zeroRunStep ((0, 0), (0, 0))).1
    if zeroes.2 > 1 then
      displaySegments (segments.take zeroes.1) ++ "::" ++ displaySegments (segments.drop (zeroes.1 + zeroes.2))
    else displaySegments segments

/-- `Display for IpAddr` -/
def IpAddr.display : IpAddr → String
  | .v4 a => a.display
  | .v6 a => a.display

/-! ## Errors and time -/

/-- `std::io::ErrorKind`: the kinds the code tells apart or makes, and one for all others. -/
inductive ErrorKind where
  | permissionDenied | networkUnreachable | hostUnreachable | wouldBlock | timedOut | interrupted | writeZero | other
  | uncategorized
  deriving DecidableEq, Repr

/-- `std::io::Error`: what the code reads of one. -/
structure IoError where
  kind : ErrorKind
  rawOsError : Option Int
  text : String
  deriving DecidableEq, Repr

/-- `io::Error::other(error)`: only the text of the error shows through. -/
def IoError.other (error : IoError) : IoError where
  kind := .other
  rawOsError := none
  text := error.text

/-- `io::ErrorKind::TimedOut.into()` -/
def IoError.timedOut : IoError where
  kind := .timedOut
  rawOsError := none
  text := "timed out"

/-- `std::time::Instant`, in nanoseconds since some moment before the process started. -/
abbrev Instant := Nat

/-- `std::time::Duration`, in nanoseconds. -/
abbrev Duration := Nat

/-- `Duration::from_millis` -/
def fromMillis (millis : Nat) : Duration := millis * 1000000

/-- `Duration::from_secs` -/
def fromSecs (secs : Nat) : Duration := secs * 1000000000

/-- `later.saturating_duration_since(earlier)`; `duration_since` saturates too. -/
def durationSince (later earlier : Instant) : Duration := later - earlier

/-- `deadline.checked_duration_since(now)` -/
def checkedDurationSince (later earlier : Instant) : Option Duration :=
  if earlier ≤ later then some (later - earlier) else none

end IcmpPing
