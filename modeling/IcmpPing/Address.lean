import IcmpPing.Lib.Scan
import IcmpPing.Rust

/-!
# Address literals (`lib.rs`)

`self.address.parse()`: the parser of `std::net::IpAddr`, which reads an IPv4 address and otherwise an IPv6 address, and accepts a text
that is read to its end; and the literals that it is meant to accept.
-/

namespace IcmpPing

open Scan

/-! ## The parser -/

/-- A decimal octet, without a leading zero. -/
def readOctet : Scan UInt8 := readNumber 10 3 false fun value => if value < 256 then some (.ofNat value) else none

/-- `Parser::read_ipv4_addr` -/
def readIpv4Addr : Scan Ipv4Addr := do
  let a ← readSeparator '.' 0 readOctet
  let b ← readSeparator '.' 1 readOctet
  let c ← readSeparator '.' 2 readOctet
  let d ← readSeparator '.' 3 readOctet
  return ⟨a, b, c, d⟩

/-- A group of an IPv6 address. -/
def readGroup : Scan UInt16 := readNumber 16 4 true fun value => if value < 65536 then some (.ofNat value) else none

/-- A trailing IPv4 address, which needs room for two groups. -/
def readTrailing (room i : Nat) : Scan (Option Ipv4Addr) :=
  if 1 < room then attempt (readSeparator ':' i readIpv4Addr) else pure none

/-- `read_groups`, with room for so many groups after these: the groups, and whether the last two are an IPv4 address. -/
def readGroups : Nat → List UInt16 → Scan (List UInt16 × Bool)
  | 0, groups => return (groups, false)
  | n + 1, groups => do
    match ← readTrailing (n + 1) groups.length with
    | some addr => return (groups ++ [u16FromBe addr.a addr.b, u16FromBe addr.c addr.d], true)
    | none =>
      match ← attempt (readSeparator ':' groups.length readGroup) with
      | some group => readGroups n (groups ++ [group])
      | none => return (groups, false)

/-- `Ipv6Addr::from([u16; 8])`, of an array of zeroes to whose start these groups were written. -/
def Ipv6Addr.ofGroups (groups : List UInt16) : Ipv6Addr where
  octets := ((groups ++ List.replicate 8 0).take 8).flatMap u16ToBe
  length_octets := by
    have hlength : ((groups ++ List.replicate 8 0).take 8).length = 8 := by simp
    generalize (groups ++ List.replicate 8 0).take 8 = groups at hlength
    rw [List.length_flatMap]
    show (groups.map fun _ => 2).sum = 16
    rw [List.map_const', hlength]
    rfl

/-- `Parser::read_ipv6_addr` -/
def readIpv6Addr : Scan Ipv6Addr := do
  let (head, headIpv4) ← readGroups 8 []
  if head.length = 8 then return .ofGroups head
  -- An IPv4 part is not allowed before `::`.
  else if headIpv4 then failure
  else do
    readGiven ':'
    readGiven ':'
    let (tail, _) ← readGroups (8 - (head.length + 1)) []
    return .ofGroups (head ++ List.replicate (8 - tail.length - head.length) 0 ++ tail)

/-- `Parser::read_ip_addr` -/
def readIpAddr : Scan IpAddr := do
  match ← attempt readIpv4Addr with
  | some addr => return .v4 addr
  | none => return .v6 (← readIpv6Addr)

/-- `IpAddr::from_str`: nothing may be left of the text. -/
def IpAddr.parse (text : String) : Option IpAddr :=
  match readIpAddr.run text.toList with
  | some (addr, []) => some addr
  | _ => none

/-! ## Literals -/

/-- A group is spelled by one to four hexadecimal digits. -/
def GroupText (text : List Char) (group : UInt16) : Prop := Spells 16 4 true text ∧ valueAfter 16 0 text = group.toNat

/-- Groups, from an index on, each after a colon unless it is the first; or ending with two groups in dotted decimal. -/
inductive GroupsText : Nat → List Char → List UInt16 → Bool → Prop where
  | nil (i : Nat) : GroupsText i [] [] false
  | dotted (i : Nat) (addr : Ipv4Addr) :
    GroupsText i (separator ':' i ++ addr.display.toList) [u16FromBe addr.a addr.b, u16FromBe addr.c addr.d] true
  | cons (i : Nat) {text rest : List Char} {group : UInt16} {groups : List UInt16} {v4 : Bool} (hgroup : GroupText text group)
    (hrest : GroupsText (i + 1) rest groups v4) : GroupsText i (separator ':' i ++ (text ++ rest)) (group :: groups) v4

/-- An IPv6 literal: eight groups, or at most seven and a double colon that stands for the zeroes between them. -/
inductive Ipv6Literal : List Char → Ipv6Addr → Prop where
  | full {text : List Char} {groups : List UInt16} {v4 : Bool} (htext : GroupsText 0 text groups v4) (hlength : groups.length = 8) :
    Ipv6Literal text (.ofGroups groups)
  | compressed {first second : List Char} {head tail : List UInt16} {v4 : Bool} (hhead : GroupsText 0 first head false)
    (htail : GroupsText 0 second tail v4) (hlength : head.length + tail.length ≤ 7) :
    Ipv6Literal (first ++ ':' :: ':' :: second) (.ofGroups (head ++ List.replicate (8 - tail.length - head.length) 0 ++ tail))

/-- An address literal: an IPv4 address in dotted decimal, or an IPv6 literal. -/
def Literal (text : String) : IpAddr → Prop
  | .v4 addr => text = addr.display
  | .v6 addr => Ipv6Literal text.toList addr

end IcmpPing
