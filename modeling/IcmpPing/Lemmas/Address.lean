import IcmpPing.Address
import IcmpPing.Lemmas.Bytes
import IcmpPing.Packet

/-!
# What the address parser reads

An octet is read exactly as it is displayed. Groups are read as far as they go: to the end of the text, or up to a double colon. The
attempts at a trailing IPv4 address do not take a group for an octet, since no full stop follows a group. So what is parsed are the
literals. What an address is displayed as is a literal of it: the longest run of zeroes is what a double colon stands for.
-/

namespace IcmpPing

open Scan

/-! ## IPv4 -/

/-- The text of an IPv4 address, character by character. -/
theorem Ipv4Addr.display_toList (addr : Ipv4Addr) : addr.display.toList =
    Nat.toDigits 10 addr.a.toNat ++ '.' :: (Nat.toDigits 10 addr.b.toNat ++ '.' :: (Nat.toDigits 10 addr.c.toNat ++
      '.' :: Nat.toDigits 10 addr.d.toNat)) := by
  simp [Ipv4Addr.display, Ipv4Addr.octets, String.intercalate_cons_cons, String.toList_append]

/-- An octet is read from its decimal digits, and from nothing else. -/
theorem readOctet_eq_some {text rest : List Char} {x : UInt8} :
    readOctet.run text = some (x, rest) ↔ text = Nat.toDigits 10 x.toNat ++ rest ∧ NoDigit 10 rest := by
  unfold readOctet
  rw [readNumber_eq_some]
  constructor
  · rintro ⟨digits, rfl, ⟨hall, hne, -, hzero⟩, hrest, hvalue⟩
    split at hvalue
    · rename_i hlt
      cases hvalue
      have hnat : (UInt8.ofNat (valueAfter 10 0 digits)).toNat = valueAfter 10 0 digits := UInt8.toNat_ofNat_of_lt hlt
      rw [hnat, toDigits_valueAfter hall hne fun h => hzero ⟨rfl, h⟩]
      exact ⟨rfl, hrest⟩
    · cases hvalue
  · rintro ⟨rfl, hrest⟩
    obtain ⟨hall, hvalue⟩ := toDigits_spec (show 1 < 10 by decide) (by decide) x.toNat
    have hlt : x.toNat < 256 := x.toNat_lt
    refine ⟨_, rfl, ⟨hall, Nat.toDigits_ne_nil, ?_, ?_⟩, hrest, ?_⟩
    · exact (Nat.length_toDigits_le_iff (by decide) (by decide)).2 (hlt.trans (by decide))
    · rintro ⟨-, hhead, hlength⟩
      rcases Nat.eq_zero_or_pos x.toNat with hzero | hpos
      · rw [hzero] at hlength
        exact absurd hlength (by decide)
      · exact head_toDigits (by decide) hpos hhead
    · rw [hvalue, if_pos hlt, UInt8.ofNat_toNat]

/-- A decimal number is not followed by a digit where a full stop follows it. -/
theorem noDigit_dot (radix : Nat) (rest : List Char) : NoDigit radix ('.' :: rest) := by
  intro c hc
  cases hc
  simp [toDigit]

/-- An IPv4 address is read from its text, and from nothing else. -/
theorem readIpv4Addr_eq_some {text rest : List Char} {addr : Ipv4Addr} :
    readIpv4Addr.run text = some (addr, rest) ↔ text = addr.display.toList ++ rest ∧ NoDigit 10 rest := by
  unfold readIpv4Addr
  simp only [run_bind_eq_some, readSeparator_eq_some, readOctet_eq_some, run_pure_eq_some, Ipv4Addr.display_toList, separator]
  constructor
  · rintro ⟨a, _, ⟨_, rfl, rfl, -⟩, b, _, ⟨_, rfl, rfl, -⟩, c, _, ⟨_, rfl, rfl, -⟩, d, _, ⟨_, rfl, rfl, hrest⟩, rfl, rfl⟩
    simpa using hrest
  · rintro ⟨rfl, hrest⟩
    refine ⟨addr.a, _, ⟨_, rfl, ?_, noDigit_dot _ _⟩, addr.b, _, ⟨_, rfl, rfl, noDigit_dot _ _⟩, addr.c, _, ⟨_, rfl, rfl, noDigit_dot _ _⟩,
      addr.d, _, ⟨_, rfl, rfl, hrest⟩, rfl, rfl⟩
    simp

/-! ## Groups -/

/-- A group is read from up to four hexadecimal digits. -/
theorem readGroup_eq_some {text rest : List Char} {group : UInt16} :
    readGroup.run text = some (group, rest) ↔ ∃ digits, text = digits ++ rest ∧ GroupText digits group ∧ NoDigit 16 rest := by
  unfold readGroup
  rw [readNumber_eq_some]
  constructor
  · rintro ⟨digits, rfl, hspells, hrest, hvalue⟩
    split at hvalue
    · rename_i hlt
      cases hvalue
      exact ⟨digits, rfl, ⟨hspells, (UInt16.toNat_ofNat_of_lt hlt).symm⟩, hrest⟩
    · cases hvalue
  · rintro ⟨digits, rfl, ⟨hspells, hvalue⟩, hrest⟩
    refine ⟨digits, rfl, hspells, hrest, ?_⟩
    rw [hvalue, if_pos group.toNat_lt, UInt16.ofNat_toNat]

/-- A trailing IPv4 address is read where there is room for two groups. -/
theorem readTrailing_eq_some {room i : Nat} {text rest : List Char} {addr : Ipv4Addr} :
    (readTrailing room i).run text = some (some addr, rest) ↔
      1 < room ∧ (readSeparator ':' i readIpv4Addr).run text = some (addr, rest) := by
  unfold readTrailing
  split
  · rename_i hroom
    rw [attempt_eq_some, iff_and_self]
    exact fun _ => hroom
  · rename_i hroom
    exact ⟨nofun, fun h => absurd h.1 hroom⟩

/-- No trailing IPv4 address is read where there is no room for two groups, or none stands there. -/
theorem readTrailing_eq_none {room i : Nat} {text rest : List Char} : (readTrailing room i).run text = some (none, rest) ↔
    (1 < room → (readSeparator ':' i readIpv4Addr).run text = none) ∧ rest = text := by
  unfold readTrailing
  split
  · rename_i hroom
    rw [attempt_eq_none, forall_prop_of_true hroom]
  · rename_i hroom
    rw [run_pure_eq_some, forall_prop_of_false hroom]
    simp

/-- Where no more groups are read: at the end, or before a double colon. -/
def Stop (rest : List Char) : Prop := rest = [] ∨ ∃ more, rest = ':' :: ':' :: more

/-- What can follow a group: nothing, or a colon. -/
def AfterGroup (rest : List Char) : Prop := rest = [] ∨ ∃ more, rest = ':' :: more

/-- What follows a literal can follow a group. -/
theorem Stop.afterGroup {rest : List Char} (h : Stop rest) : AfterGroup rest :=
  h.imp_right fun ⟨more, heq⟩ => ⟨':' :: more, heq⟩

/-- What can follow a group starts with no digit. -/
theorem AfterGroup.noDigit {rest : List Char} (h : AfterGroup rest) (radix : Nat) : NoDigit radix rest := by
  rcases h with rfl | ⟨more, rfl⟩
  · nofun
  · rintro c hc
    cases hc
    simp [toDigit]

/-- A group is not read where the groups stop. -/
theorem run_readSeparator_stop {α : Type} {inner : Scan α} (hnone : ∀ {rest}, AfterGroup rest → inner.run rest = none) {rest : List Char}
    (hrest : Stop rest) (i : Nat) : (readSeparator ':' i inner).run rest = none := by
  rw [Option.eq_none_iff_forall_ne_some]
  rintro ⟨a, more⟩ h
  obtain ⟨text, rfl, hinner⟩ := readSeparator_eq_some.1 h
  have htext : AfterGroup text := by
    unfold separator at hrest
    split at hrest
    · rcases hrest with hnil | ⟨more, heq⟩
      · cases hnil
      · cases heq
        exact Or.inr ⟨more, rfl⟩
    · exact hrest.afterGroup
  rw [hnone htext] at hinner
  cases hinner

/-- No group is read from what can follow one. -/
theorem run_readGroup_after {rest : List Char} (hrest : AfterGroup rest) : readGroup.run rest = none := by
  rw [Option.eq_none_iff_forall_ne_some]
  rintro ⟨group, more⟩ h
  obtain ⟨digits, rfl, ⟨⟨hall, hne, -, -⟩, -⟩, -⟩ := readGroup_eq_some.1 h
  obtain ⟨c, digits, rfl⟩ := List.exists_cons_of_ne_nil hne
  have hdigit := hall c (List.mem_cons_self ..)
  rw [hrest.noDigit 16 c rfl] at hdigit
  cases hdigit

/-- Hexadecimal digits are no IPv4 address, whatever can follow a group. -/
theorem run_readIpv4Addr_digits {digits rest : List Char} (hall : AllDigits 16 digits) (hrest : AfterGroup rest) :
    readIpv4Addr.run (digits ++ rest) = none := by
  rw [Option.eq_none_iff_forall_ne_some]
  rintro ⟨addr, more⟩ h
  obtain ⟨heq, -⟩ := readIpv4Addr_eq_some.1 h
  rw [Ipv4Addr.display_toList, List.append_assoc, List.cons_append] at heq
  have hdot : '.' ∉ digits := fun hmem => absurd (hall '.' hmem) (by decide)
  -- The first full stop comes after decimal digits, and neither the digits nor a colon can be there.
  rcases List.append_eq_append_iff.1 heq with ⟨between, hdecimal, hmore⟩ | ⟨between, hdigits, hmore⟩
  · rcases hrest with rfl | ⟨after, rfl⟩
    · exact absurd hmore (by simp)
    · cases between with
      | nil => exact absurd hmore (by simp)
      | cons c between =>
        obtain ⟨rfl, -⟩ := List.cons.inj hmore
        have hcolon : ':' ∈ Nat.toDigits 10 addr.a.toNat := by
          rw [hdecimal]
          exact List.mem_append_right _ (List.mem_cons_self ..)
        exact absurd ((toDigits_spec (by decide) (by decide) addr.a.toNat).1 ':' hcolon) (by decide)
  · cases between with
    | nil =>
      rcases hrest with rfl | ⟨after, rfl⟩
      · exact absurd hmore (by simp)
      · exact absurd hmore (by simp)
    | cons c between =>
      obtain ⟨rfl, -⟩ := List.cons.inj hmore
      exact hdot (hdigits ▸ List.mem_append_right _ (List.mem_cons_self ..))

/-- No IPv4 address is read from what can follow a group. -/
theorem run_readIpv4Addr_after {rest : List Char} (hrest : AfterGroup rest) : readIpv4Addr.run rest = none :=
  run_readIpv4Addr_digits (show AllDigits 16 [] from nofun) hrest

/-- Further groups can follow a group, and what follows them can too. -/
theorem GroupsText.afterGroup {i : Nat} {text rest : List Char} {groups : List UInt16} {v4 : Bool}
    (h : GroupsText (i + 1) text groups v4) (hrest : Stop rest) : AfterGroup (text ++ rest) := by
  cases h with
  | nil => exact hrest.afterGroup
  | dotted => exact Or.inr ⟨_, rfl⟩
  | cons => exact Or.inr ⟨_, rfl⟩

/-- What is read of groups is their text. -/
theorem groupsText_of_readGroups {n : Nat} {groups all : List UInt16} {v4 : Bool} {text rest : List Char}
    (h : (readGroups n groups).run text = some ((all, v4), rest)) : ∃ more after, text = more ++ rest ∧ all = groups ++ after ∧
      after.length ≤ n ∧ GroupsText groups.length more after v4 := by
  induction n generalizing groups text with
  | zero =>
    obtain ⟨heq, rfl⟩ := run_pure_eq_some.1 h
    obtain ⟨rfl, rfl⟩ := Prod.mk.inj heq
    exact ⟨[], [], rfl, (List.append_nil _).symm, Nat.le_refl _, .nil _⟩
  | succ n ih =>
    rw [readGroups] at h
    obtain ⟨dotted, text', htrailing, hthen⟩ := run_bind_eq_some.1 h
    cases dotted with
    | some addr =>
      obtain ⟨heq, rfl⟩ := run_pure_eq_some.1 hthen
      obtain ⟨rfl, rfl⟩ := Prod.mk.inj heq
      obtain ⟨hroom, hseparated⟩ := readTrailing_eq_some.1 htrailing
      obtain ⟨more, rfl, hdotted⟩ := readSeparator_eq_some.1 hseparated
      obtain ⟨rfl, -⟩ := readIpv4Addr_eq_some.1 hdotted
      exact ⟨_, _, (List.append_assoc ..).symm, rfl, hroom, .dotted _ addr⟩
    | none =>
      obtain ⟨-, rfl⟩ := readTrailing_eq_none.1 htrailing
      obtain ⟨group, text'', hattempt, hnext⟩ := run_bind_eq_some.1 hthen
      cases group with
      | none =>
        obtain ⟨-, rfl⟩ := attempt_eq_none.1 hattempt
        obtain ⟨heq, rfl⟩ := run_pure_eq_some.1 hnext
        obtain ⟨rfl, rfl⟩ := Prod.mk.inj heq
        exact ⟨[], [], rfl, (List.append_nil _).symm, Nat.zero_le _, .nil _⟩
      | some group =>
        obtain ⟨more, rfl, hgroup⟩ := readSeparator_eq_some.1 (attempt_eq_some.1 hattempt)
        obtain ⟨digits, rfl, hdigits, -⟩ := readGroup_eq_some.1 hgroup
        obtain ⟨more, after, rfl, rfl, hlength, hmore⟩ := ih hnext
        rw [List.length_append] at hmore
        refine ⟨_, group :: after, ?_, List.append_assoc .., Nat.succ_le_succ hlength, .cons _ hdigits hmore⟩
        rw [List.append_assoc, List.append_assoc]

/-- Groups are read to where they stop. -/
theorem readGroups_of_groupsText {i n : Nat} {more rest : List Char} {groups after : List UInt16} {v4 : Bool}
    (h : GroupsText i more after v4) (hi : i = groups.length) (hn : after.length ≤ n) (hrest : Stop rest) :
    (readGroups n groups).run (more ++ rest) = some ((groups ++ after, v4), rest) := by
  induction h generalizing n groups with
  | nil i =>
    subst hi
    rw [List.append_nil, List.nil_append]
    cases n with
    | zero => rfl
    | succ n =>
      have hdotted := run_readSeparator_stop run_readIpv4Addr_after hrest groups.length
      refine run_bind_eq_some.2 ⟨none, rest, readTrailing_eq_none.2 ⟨fun _ => hdotted, rfl⟩, ?_⟩
      refine run_bind_eq_some.2 ⟨none, rest, attempt_eq_none.2 ⟨?_, rfl⟩, rfl⟩
      exact run_readSeparator_stop run_readGroup_after hrest groups.length
  | dotted i addr =>
    subst hi
    obtain ⟨n, rfl⟩ := Nat.exists_eq_add_of_le' (Nat.le_of_succ_le hn)
    refine run_bind_eq_some.2 ⟨some addr, rest, readTrailing_eq_some.2 ⟨hn, ?_⟩, rfl⟩
    rw [List.append_assoc]
    exact readSeparator_eq_some.2 ⟨_, rfl, readIpv4Addr_eq_some.2 ⟨rfl, hrest.afterGroup.noDigit 10⟩⟩
  | @cons i digits more group after v4 hgroup hmore ih =>
    subst hi
    obtain ⟨n, rfl⟩ := Nat.exists_eq_add_of_le' (Nat.le_trans (Nat.succ_le_succ (Nat.zero_le _)) hn)
    have hafter := hmore.afterGroup hrest
    rw [List.append_assoc, List.append_assoc]
    refine run_bind_eq_some.2 ⟨none, _, readTrailing_eq_none.2 ⟨fun _ => ?_, rfl⟩, ?_⟩
    · rw [Option.eq_none_iff_forall_ne_some]
      rintro ⟨addr, rest'⟩ hread
      obtain ⟨text, heq, hread⟩ := readSeparator_eq_some.1 hread
      obtain rfl := List.append_cancel_left heq
      rw [run_readIpv4Addr_digits hgroup.1.1 hafter] at hread
      cases hread
    refine run_bind_eq_some.2 ⟨some group, more ++ rest, attempt_eq_some.2 ?_, ?_⟩
    · exact readSeparator_eq_some.2 ⟨_, rfl, readGroup_eq_some.2 ⟨digits, rfl, hgroup, hafter.noDigit 16⟩⟩
    · show (readGroups n (groups ++ [group])).run (more ++ rest) = _
      rw [ih (by rw [List.length_append]; rfl) (Nat.le_of_succ_le_succ hn), List.append_assoc]
      rfl

/-! ## Literals -/

/-- What is read as an IPv6 address is a literal. -/
theorem ipv6Literal_of_readIpv6Addr {text : List Char} {addr : Ipv6Addr} (h : readIpv6Addr.run text = some (addr, [])) :
    Ipv6Literal text addr := by
  unfold readIpv6Addr at h
  obtain ⟨⟨head, headIpv4⟩, text', hhead, hthen⟩ := run_bind_eq_some.1 h
  obtain ⟨first, after, rfl, hafter, hle, hfirst⟩ := groupsText_of_readGroups hhead
  obtain rfl : head = after := hafter
  dsimp only at hthen
  split at hthen
  · rename_i hlength
    obtain ⟨rfl, rfl⟩ := run_pure_eq_some.1 hthen
    rw [List.append_nil]
    exact .full hfirst hlength
  rename_i hlength
  split at hthen
  · cases hthen
  rename_i hdotted
  obtain ⟨⟨⟩, _, hcolon, hnext⟩ := run_bind_eq_some.1 hthen
  obtain rfl := readGiven_eq_some.1 hcolon
  obtain ⟨⟨⟩, _, hcolon', hback⟩ := run_bind_eq_some.1 hnext
  obtain rfl := readGiven_eq_some.1 hcolon'
  obtain ⟨⟨tail, v4⟩, _, htail, hconcat⟩ := run_bind_eq_some.1 hback
  obtain ⟨second, after, rfl, hafter, hroom, hsecond⟩ := groupsText_of_readGroups htail
  obtain rfl : tail = after := hafter
  obtain ⟨rfl, rfl⟩ := run_pure_eq_some.1 hconcat
  rw [Bool.not_eq_true] at hdotted
  rw [hdotted] at hfirst
  rw [List.append_nil]
  have hseven : head.length + tail.length ≤ 7 := by omega
  exact .compressed hfirst hsecond hseven

/-- Every literal is read as the address it spells. -/
theorem readIpv6Addr_of_ipv6Literal {text : List Char} {addr : Ipv6Addr} (h : Ipv6Literal text addr) :
    readIpv6Addr.run text = some (addr, []) := by
  unfold readIpv6Addr
  cases h with
  | @full text groups v4 htext hlength =>
    have hread : (readGroups 8 []).run (text ++ []) = some (([] ++ groups, v4), []) :=
      readGroups_of_groupsText htext rfl (Nat.le_of_eq hlength) (Or.inl rfl)
    rw [List.append_nil] at hread
    refine run_bind_eq_some.2 ⟨_, _, hread, ?_⟩
    dsimp only
    rw [List.nil_append, if_pos hlength]
    rfl
  | @compressed first second head tail v4 hhead htail hlength =>
    have hfirst : (readGroups 8 []).run (first ++ ':' :: ':' :: second) = some (([] ++ head, false), ':' :: ':' :: second) :=
      readGroups_of_groupsText hhead rfl (by omega) (Or.inr ⟨second, rfl⟩)
    have hsecond : (readGroups (8 - (head.length + 1)) []).run (second ++ []) = some (([] ++ tail, v4), []) :=
      readGroups_of_groupsText htail rfl (by omega) (Or.inl rfl)
    rw [List.append_nil] at hsecond
    refine run_bind_eq_some.2 ⟨_, _, hfirst, ?_⟩
    dsimp only
    rw [List.nil_append, if_neg (by omega), if_neg nofun]
    refine run_bind_eq_some.2 ⟨(), _, readGiven_eq_some.2 rfl, run_bind_eq_some.2 ⟨(), _, readGiven_eq_some.2 rfl, ?_⟩⟩
    exact run_bind_eq_some.2 ⟨_, _, hsecond, rfl⟩

/-- The text of groups is no IPv4 address, unless it is two groups in dotted decimal. -/
theorem GroupsText.run_readIpv4Addr {text rest : List Char} {groups : List UInt16} {v4 : Bool} (h : GroupsText 0 text groups v4)
    (hrest : Stop rest) (hlength : v4 = true → groups.length ≠ 2) : readIpv4Addr.run (text ++ rest) = none := by
  cases h with
  | nil => exact run_readIpv4Addr_digits nofun hrest.afterGroup
  | dotted => exact absurd rfl (hlength rfl)
  | @cons _ digits more _ _ _ hgroup hmore =>
    show readIpv4Addr.run (digits ++ more ++ rest) = none
    rw [List.append_assoc]
    exact run_readIpv4Addr_digits hgroup.1.1 (hmore.afterGroup hrest)

/-- No IPv6 literal is read as an IPv4 address. -/
theorem Ipv6Literal.run_readIpv4Addr {text : List Char} {addr : Ipv6Addr} (h : Ipv6Literal text addr) :
    readIpv4Addr.run text = none := by
  cases h with
  | full htext hlength =>
    rw [← List.append_nil text]
    exact htext.run_readIpv4Addr (Or.inl rfl) fun _ => by omega
  | compressed hhead _ _ => exact hhead.run_readIpv4Addr (Or.inr ⟨_, rfl⟩) nofun

/-- The texts of an IPv4 address. -/
theorem readIpAddr_v4 {text : List Char} {addr : Ipv4Addr} : readIpAddr.run text = some (.v4 addr, []) ↔ text = addr.display.toList := by
  unfold readIpAddr
  rw [run_bind_eq_some]
  constructor
  · rintro ⟨read, rest, hattempt, hthen⟩
    cases read with
    | some addr' =>
      obtain ⟨heq, rfl⟩ := run_pure_eq_some.1 hthen
      obtain rfl := IpAddr.v4.inj heq
      obtain ⟨rfl, -⟩ := readIpv4Addr_eq_some.1 (attempt_eq_some.1 hattempt)
      exact List.append_nil _
    | none =>
      obtain ⟨_, _, -, hv6⟩ := run_bind_eq_some.1 hthen
      cases (run_pure_eq_some.1 hv6).1
  · rintro rfl
    exact ⟨some addr, [], attempt_eq_some.2 (readIpv4Addr_eq_some.2 ⟨(List.append_nil _).symm, nofun⟩), rfl⟩

/-- The texts of an IPv6 address. -/
theorem readIpAddr_v6 {text : List Char} {addr : Ipv6Addr} : readIpAddr.run text = some (.v6 addr, []) ↔ Ipv6Literal text addr := by
  unfold readIpAddr
  rw [run_bind_eq_some]
  constructor
  · rintro ⟨read, rest, hattempt, hthen⟩
    cases read with
    | some addr' => cases (run_pure_eq_some.1 hthen).1
    | none =>
      obtain ⟨-, rfl⟩ := attempt_eq_none.1 hattempt
      obtain ⟨addr', rest, hread, hv6⟩ := run_bind_eq_some.1 hthen
      obtain ⟨heq, rfl⟩ := run_pure_eq_some.1 hv6
      obtain rfl := IpAddr.v6.inj heq
      exact ipv6Literal_of_readIpv6Addr hread
  · intro h
    refine ⟨none, text, attempt_eq_none.2 ⟨h.run_readIpv4Addr, rfl⟩, run_bind_eq_some.2 ⟨addr, [], ?_, rfl⟩⟩
    exact readIpv6Addr_of_ipv6Literal h

/-- A text is parsed exactly when it is a literal, and to the address that it is a literal of. -/
theorem IpAddr.parse_eq_some {text : String} {addr : IpAddr} : IpAddr.parse text = some addr ↔ Literal text addr := by
  have hparse : IpAddr.parse text = some addr ↔ readIpAddr.run text.toList = some (addr, []) := by
    unfold IpAddr.parse
    split
    · rename_i heq
      rw [heq, Option.some.injEq, Option.some.injEq, Prod.mk.injEq, and_iff_left rfl]
    · rename_i hne
      exact ⟨nofun, fun h => absurd h (hne _)⟩
  rw [hparse]
  cases addr with
  | v4 addr => exact readIpAddr_v4.trans String.toList_inj
  | v6 addr => exact readIpAddr_v6

example : ∀ text ∈ ["not-an-ip", "localhost", "", "127.1", "256.0.0.1", "1.2.3.4\x00", "[::1]", "fe80::1%eth0"],
    IpAddr.parse text = none := by decide +kernel

/-! ## What is displayed -/

/-- The groups of an address, as numbers they are its segments. -/
def Ipv6Addr.groups (x : Ipv6Addr) : List UInt16 :=
  (List.range 8).map fun i => u16FromBe (x.octets.getD (2 * i) 0) (x.octets.getD (2 * i + 1) 0)

/-- The segments are the values of the groups. -/
theorem Ipv6Addr.segments_eq (x : Ipv6Addr) : x.segments = x.groups.map UInt16.toNat := by
  rw [Ipv6Addr.segments, Ipv6Addr.groups, List.map_map]
  rfl

/-- An IPv6 address has eight groups. -/
theorem Ipv6Addr.length_groups (x : Ipv6Addr) : x.groups.length = 8 := by
  rw [Ipv6Addr.groups, List.length_map, List.length_range]

/-- An IPv6 address is made of its groups. -/
theorem Ipv6Addr.ofGroups_groups (x : Ipv6Addr) : .ofGroups x.groups = x := by
  obtain ⟨octets, hlength⟩ := x
  match octets, hlength with
  | [a, b, c, d, e, f, g, h, i, j, k, l, m, n, o, p], _ =>
    simp [Ipv6Addr.ofGroups, Ipv6Addr.groups, List.range_succ]

/-- A group is spelled as it is displayed. -/
theorem groupText_toDigits (group : UInt16) : GroupText (Nat.toDigits 16 group.toNat) group := by
  obtain ⟨hall, hvalue⟩ := toDigits_spec (show 1 < 16 by decide) (by decide) group.toNat
  have hlt : group.toNat < 65536 := group.toNat_lt
  refine ⟨⟨hall, Nat.toDigits_ne_nil, ?_, nofun⟩, hvalue⟩
  exact (Nat.length_toDigits_le_iff (by decide) (by decide)).2 hlt

/-- The groups after the first, as they are displayed. -/
theorem groupsText_flatMap (i : Nat) (groups : List UInt16) :
    GroupsText (i + 1) (groups.flatMap fun group => ':' :: Nat.toDigits 16 group.toNat) groups false := by
  induction groups generalizing i with
  | nil => exact .nil _
  | cons group groups ih => exact .cons _ (groupText_toDigits group) (ih (i + 1))

/-- The text of segments, character by character. -/
theorem displaySegments_toList (group : UInt16) (groups : List UInt16) :
    (displaySegments ((group :: groups).map UInt16.toNat)).toList =
      Nat.toDigits 16 group.toNat ++ groups.flatMap fun group => ':' :: Nat.toDigits 16 group.toNat := by
  unfold displaySegments
  induction groups generalizing group with
  | nil => simp
  | cons next groups ih =>
    simp only [List.map_cons, String.intercalate_cons_cons, String.toList_append, List.flatMap_cons] at ih ⊢
    rw [ih]
    simp

/-- The text of segments spells the groups. -/
theorem groupsText_displaySegments (groups : List UInt16) :
    GroupsText 0 (displaySegments (groups.map UInt16.toNat)).toList groups false := by
  cases groups with
  | nil => exact .nil 0
  | cons group groups =>
    rw [displaySegments_toList]
    exact .cons 0 (groupText_toDigits group) (groupsText_flatMap 0 groups)

/-- At these segments there are zeroes, from an index on and so many. -/
def ZeroesAt (segments : List Nat) (run : Nat × Nat) : Prop :=
  ∀ j, run.1 ≤ j → j < run.1 + run.2 → segments[j]? = some 0

/-- A run of zeroes stays where it is when segments follow. -/
theorem ZeroesAt.append {segments : List Nat} {run : Nat × Nat} (h : ZeroesAt segments run) (more : List Nat) :
    ZeroesAt (segments ++ more) run := by
  intro j hle hlt
  have hj := h j hle hlt
  rw [List.getElem?_append_left (List.getElem?_eq_some_iff.1 hj).1, hj]

/-- The runs that the scan keeps are of zeroes, and the current one reaches to the end. -/
def Scanned (segments : List Nat) (acc : (Nat × Nat) × (Nat × Nat)) : Prop :=
  ZeroesAt segments acc.1 ∧ ZeroesAt segments acc.2 ∧ (0 < acc.2.2 → acc.2.1 + acc.2.2 = segments.length)

/-- One step of the scan for the longest run of zeroes. -/
theorem Scanned.step {segments : List Nat} {acc : (Nat × Nat) × (Nat × Nat)} (h : Scanned segments acc) (segment : Nat) :
    Scanned (segments ++ [segment]) (zeroRunStep acc (segment, segments.length)) := by
  obtain ⟨longest, start, length⟩ := acc
  obtain ⟨hlongest, hcurrent, hend⟩ := h
  unfold zeroRunStep
  by_cases hzero : segment = 0
  · subst hzero
    have hrun : ZeroesAt (segments ++ [0]) (if length = 0 then segments.length else start, length + 1) := by
      intro j hle hlt
      rcases Nat.lt_or_ge j segments.length with hj | hj
      · by_cases hlength : length = 0
        · simp only [hlength, if_true] at hle
          omega
        · simp only [hlength, if_false] at hle hlt hend
          exact hcurrent.append [0] j hle (by dsimp only; omega)
      · obtain rfl : j = segments.length := by
          dsimp only at hlt hend
          split at hlt <;> omega
        exact List.getElem?_concat_length
    -- The current run starts here, or goes on.
    have hreach : (if length = 0 then segments.length else start) + (length + 1) = (segments ++ [0]).length := by
      dsimp only at hend
      rw [List.length_append, List.length_singleton]
      split <;> omega
    simp only [if_true]
    refine ⟨?_, hrun, fun _ => hreach⟩
    dsimp only
    split
    · exact hrun
    · exact hlongest.append [0]
  · simp only [hzero, if_false]
    exact ⟨hlongest.append _, fun j hle hlt => absurd hlt (by simp), nofun⟩

/-- The scan has found the longest run of zeroes, and the current one. -/
theorem scanned (segments : List Nat) : Scanned segments (segments.zipIdx.foldl zeroRunStep ((0, 0), (0, 0))) := by
  induction segments using List.reverseRecOn with
  | nil => exact ⟨fun j hle hlt => absurd hlt (by simp), fun j hle hlt => absurd hlt (by simp), nofun⟩
  | append_singleton segments segment ih =>
    rw [List.zipIdx_append, List.foldl_append]
    simpa using ih.step segment

/-- What is written as a double colon is zeroes. -/
theorem replicate_of_zeroesAt {groups : List UInt16} {run : Nat × Nat} (h : ZeroesAt (groups.map UInt16.toNat) run) (hpos : 0 < run.2) :
    groups.take run.1 ++ List.replicate run.2 0 ++ groups.drop (run.1 + run.2) = groups ∧ run.1 + run.2 ≤ groups.length := by
  have hle : run.1 + run.2 ≤ groups.length := by
    obtain ⟨hlt, -⟩ := List.getElem?_eq_some_iff.1 (h (run.1 + run.2 - 1) (by omega) (by omega))
    rw [List.length_map] at hlt
    omega
  have hzeroes : (groups.drop run.1).take run.2 = List.replicate run.2 0 := by
    refine List.eq_replicate_iff.2 ⟨by rw [List.length_take, List.length_drop]; omega, fun group hgroup => ?_⟩
    obtain ⟨j, hj, rfl⟩ := List.getElem_of_mem hgroup
    have hj' : j < run.2 := by
      rw [List.length_take] at hj
      omega
    have hzero := h (run.1 + j) (by omega) (by omega)
    rw [List.getElem?_map, List.getElem?_eq_getElem (by omega)] at hzero
    rw [List.getElem_take, List.getElem_drop]
    simpa [← UInt16.toNat_inj] using hzero
  refine ⟨?_, hle⟩
  rw [← hzeroes, ← List.drop_drop, List.append_assoc, List.take_append_drop, List.take_append_drop]

/-- An IPv4-mapped address, as it is displayed. -/
theorem ipv6Literal_mapped {addr : Ipv6Addr} {x : Ipv4Addr} (h : addr.octets = List.replicate 10 0 ++ [0xff, 0xff] ++ x.octets) :
    Ipv6Literal ("::ffff:" ++ x.display).toList addr := by
  have hliteral := Ipv6Literal.compressed (.nil 0) (.cons 0 (groupText_toDigits 0xffff) (.dotted 1 x)) (Nat.le_add_left 3 4)
  have haddr : Ipv6Addr.ofGroups ([] ++ List.replicate 5 0 ++ [0xffff, u16FromBe x.a x.b, u16FromBe x.c x.d]) = addr := by
    obtain ⟨octets, hlength⟩ := addr
    obtain rfl : octets = _ := h
    have hzero : u16ToBe 0 = [0, 0] := by decide
    have hones : u16ToBe 0xffff = [0xff, 0xff] := by decide
    simp [Ipv6Addr.ofGroups, List.replicate, Ipv4Addr.octets, hzero, hones]
  have htext : ("::ffff:" ++ x.display).toList =
      ':' :: ':' :: (separator ':' 0 ++ (Nat.toDigits 16 0xffff ++ (separator ':' 1 ++ x.display.toList))) := by
    have hdigits : Nat.toDigits 16 0xffff = ['f', 'f', 'f', 'f'] := by decide
    rw [String.toList_append, hdigits]
    rfl
  rw [htext, ← haddr]
  exact hliteral

/-- An address is displayed as a literal of it. -/
theorem literal_display (addr : IpAddr) : Literal addr.display addr := by
  cases addr with
  | v4 addr => rfl
  | v6 addr =>
    show Ipv6Literal addr.display.toList addr
    unfold Ipv6Addr.display
    split
    · rename_i hmapped
      obtain ⟨octets, hlength⟩ := addr
      match octets, hlength, hmapped with
      | [_, _, _, _, _, _, _, _, _, _, _, _, a, b, c, d], _, hmapped =>
        exact ipv6Literal_mapped (x := ⟨a, b, c, d⟩) (by rw [← hmapped]; rfl)
    · simp only [addr.segments_eq]
      have hgroups := addr.length_groups
      split
      · rename_i hrun
        obtain ⟨hsplit, hle⟩ := replicate_of_zeroesAt (scanned (addr.groups.map UInt16.toNat)).1 (by omega)
        generalize ((addr.groups.map UInt16.toNat).zipIdx.foldl zeroRunStep ((0, 0), (0, 0))).1 = run at hrun hsplit hle ⊢
        have hlength : 8 - (addr.groups.drop (run.1 + run.2)).length - (addr.groups.take run.1).length = run.2 := by
          rw [List.length_drop, List.length_take]
          omega
        have hliteral := Ipv6Literal.compressed (groupsText_displaySegments (addr.groups.take run.1))
          (groupsText_displaySegments (addr.groups.drop (run.1 + run.2))) (by rw [List.length_drop, List.length_take]; omega)
        rw [hlength, hsplit, addr.ofGroups_groups] at hliteral
        simpa [String.toList_append] using hliteral
      · have hliteral := Ipv6Literal.full (groupsText_displaySegments addr.groups) hgroups
        rwa [addr.ofGroups_groups] at hliteral

/-- What an address is displayed as is parsed back to it. -/
theorem IpAddr.parse_display (addr : IpAddr) : IpAddr.parse addr.display = some addr :=
  IpAddr.parse_eq_some.2 (literal_display addr)

/-- Two addresses with one text are one address. -/
theorem IpAddr.display_injective {addr addr' : IpAddr} (h : addr.display = addr'.display) : addr = addr' := by
  have hparse := addr.parse_display
  rw [h, addr'.parse_display] at hparse
  exact (Option.some.inj hparse).symm

/-! ## The characters of a literal -/

/-- A hexadecimal digit, a colon or a full stop. -/
def InLiteral (c : Char) : Prop := (toDigit 16 c).isSome ∨ c = ':' ∨ c = '.'

/-- The characters of an IPv4 address may stand in a literal. -/
theorem inLiteral_ipv4 {addr : Ipv4Addr} {c : Char} (h : c ∈ addr.display.toList) : InLiteral c := by
  have hdigits : ∀ {o : UInt8}, c ∈ Nat.toDigits 10 o.toNat → InLiteral c := by
    intro o hc
    obtain ⟨d, hd⟩ := Option.isSome_iff_exists.1 ((toDigits_spec (by decide) (by decide) o.toNat).1 c hc)
    rw [← digitChar_of_toDigit hd]
    refine Or.inl ?_
    rw [toDigit_digitChar (by decide) ((toDigit_lt hd).trans (by decide))]
    rfl
  rw [Ipv4Addr.display_toList] at h
  simp only [List.mem_append, List.mem_cons] at h
  rcases h with h | rfl | h | rfl | h | rfl | h
  · exact hdigits h
  · exact Or.inr (Or.inr rfl)
  · exact hdigits h
  · exact Or.inr (Or.inr rfl)
  · exact hdigits h
  · exact Or.inr (Or.inr rfl)
  · exact hdigits h

/-- The separator may stand in a literal. -/
theorem inLiteral_separator {i : Nat} {c : Char} (h : c ∈ separator ':' i) : InLiteral c := by
  unfold separator at h
  split at h
  · exact Or.inr (Or.inl (List.mem_singleton.1 h))
  · cases h

/-- The characters of groups may stand in a literal. -/
theorem GroupsText.inLiteral {i : Nat} {text : List Char} {groups : List UInt16} {v4 : Bool} (h : GroupsText i text groups v4)
    {c : Char} (hc : c ∈ text) : InLiteral c := by
  induction h with
  | nil => cases hc
  | dotted i addr =>
    rcases List.mem_append.1 hc with hc | hc
    · exact inLiteral_separator hc
    · exact inLiteral_ipv4 hc
  | cons i hgroup _ ih =>
    rcases List.mem_append.1 hc with hc | hc
    · exact inLiteral_separator hc
    · rcases List.mem_append.1 hc with hc | hc
      · exact Or.inl (hgroup.1.1 c hc)
      · exact ih hc

/-- A literal has no other characters: no brackets, no per cent sign, no letter after f. -/
theorem Literal.inLiteral {text : String} {addr : IpAddr} (h : Literal text addr) {c : Char} (hc : c ∈ text.toList) : InLiteral c := by
  cases addr with
  | v4 addr =>
    obtain rfl : text = addr.display := h
    exact inLiteral_ipv4 hc
  | v6 addr =>
    have hliteral : Ipv6Literal text.toList addr := h
    generalize text.toList = chars at hliteral hc
    cases hliteral with
    | full htext _ => exact htext.inLiteral hc
    | compressed hhead htail _ =>
      rcases List.mem_append.1 hc with hc | hc
      · exact hhead.inLiteral hc
      · rcases List.mem_cons.1 hc with rfl | hc
        · exact Or.inr (Or.inl rfl)
        · rcases List.mem_cons.1 hc with rfl | hc
          · exact Or.inr (Or.inl rfl)
          · exact htail.inLiteral hc

/-- There is no equals sign in the text of an address. -/
theorem not_mem_display (addr : IpAddr) : '=' ∉ addr.display.toList := fun h =>
  absurd ((literal_display addr).inLiteral h) (by unfold InLiteral; decide)

/-- Two texts with the same character in them, and not after it, are the same before it and after it. -/
theorem append_cons_inj_of_not_mem {α : Type} {x : α} {before before' after after' : List α} (hafter : x ∉ after) (hafter' : x ∉ after')
    (h : before ++ x :: after = before' ++ x :: after') : before = before' ∧ after = after' := by
  rcases List.append_eq_append_iff.1 h with ⟨between, hbefore, hmore⟩ | ⟨between, hbefore, hmore⟩
  · cases between with
    | nil => exact ⟨by rw [hbefore, List.append_nil], (List.cons.inj hmore).2⟩
    | cons c between =>
      obtain ⟨-, rfl⟩ := List.cons.inj hmore
      exact absurd (List.mem_append_right _ (List.mem_cons_self ..)) hafter
  · cases between with
    | nil => exact ⟨by rw [hbefore, List.append_nil], (List.cons.inj hmore).2.symm⟩
    | cons c between =>
      obtain ⟨-, rfl⟩ := List.cons.inj hmore
      exact absurd (List.mem_append_right _ (List.mem_cons_self ..)) hafter'

/-- A message with a source tells the cause and the source. -/
theorem withSource_injective {cause cause' : String} {source source' : IpAddr} (h : withSource cause source = withSource cause' source') :
    cause = cause' ∧ source = source' := by
  have htoList : ∀ (cause : String) (source : IpAddr), (withSource cause source).toList =
      (cause.toList ++ " (source".toList) ++ '=' :: source.display.toList ++ [')'] := by
    intro cause source
    simp [withSource, String.toList_append]
  have hlist := congrArg String.toList h
  rw [htoList, htoList] at hlist
  obtain ⟨hbefore, hafter⟩ := append_cons_inj_of_not_mem (not_mem_display source) (not_mem_display source') (List.append_cancel_right hlist)
  exact ⟨String.toList_inj.1 (List.append_cancel_right hbefore), IpAddr.display_injective (String.toList_inj.1 hafter)⟩

end IcmpPing
