import Mathlib.Data.List.Induction

/-!
# Scanners

A scanner reads a value off the front of a text, and leaves the rest; or it fails, and has read nothing. What it reads is told by an
equivalence: it reads a value exactly when the text starts with a spelling of it, and the rest could not have been read too.
-/

/-- Reads a value off the front of a text. -/
abbrev Scan := StateT (List Char) Option

namespace Scan

variable {α β : Type}

/-- A sequence reads what its first part reads, and then what its second part reads of the rest. -/
theorem run_bind_eq_some {p : Scan α} {f : α → Scan β} {text rest : List Char} {b : β} :
    (p >>= f).run text = some (b, rest) ↔ ∃ a more, p.run text = some (a, more) ∧ (f a).run more = some (b, rest) := by
  rw [StateT.run_bind]
  show (p.run text).bind _ = _ ↔ _
  rw [Option.bind_eq_some_iff, Prod.exists]

/-- A value reads nothing. -/
theorem run_pure_eq_some {a b : α} {text rest : List Char} :
    (pure a : Scan α).run text = some (b, rest) ↔ b = a ∧ rest = text := by
  rw [StateT.run_pure]
  show some (a, text) = some (b, rest) ↔ _
  rw [Option.some.injEq, Prod.mk.injEq]
  exact and_congr eq_comm eq_comm

def readChar : Scan Char
  | [] => none
  | c :: rest => some (c, rest)

/-- Reads this character. -/
def readGiven (target : Char) : Scan Unit := do
  let c ← readChar
  if c = target then return () else failure

/-- A given character is read when it stands first. -/
theorem readGiven_eq_some {target : Char} {text rest : List Char} {u : Unit} :
    (readGiven target).run text = some (u, rest) ↔ text = target :: rest := by
  cases text with
  | nil => exact ⟨nofun, nofun⟩
  | cons c text =>
    have hrun : (readGiven target).run (c :: text) = if c = target then some ((), text) else none := by
      show (if c = target then (return () : Scan Unit) else failure) text = _
      split <;> rfl
    rw [hrun, List.cons.injEq]
    split
    · rename_i heq
      simp [heq]
    · rename_i hne
      simp [hne]

/-- What separates the value at an index from the one before it. -/
def separator (sep : Char) (i : Nat) : List Char := if 0 < i then [sep] else []

/-- Reads the value at an index, after a separator unless it is the first. -/
def readSeparator (sep : Char) (i : Nat) (inner : Scan α) : Scan α := do
  if 0 < i then readGiven sep
  inner

/-- A separated item is read after its separator. -/
theorem readSeparator_eq_some {sep : Char} {i : Nat} {inner : Scan α} {text rest : List Char} {a : α} :
    (readSeparator sep i inner).run text = some (a, rest) ↔
      ∃ more, text = separator sep i ++ more ∧ inner.run more = some (a, rest) := by
  unfold readSeparator separator
  by_cases hi : 0 < i
  · simp only [hi, if_true, run_bind_eq_some, readGiven_eq_some]
    constructor
    · rintro ⟨-, more, rfl, h⟩
      exact ⟨more, rfl, h⟩
    · rintro ⟨more, rfl, h⟩
      exact ⟨(), more, rfl, h⟩
  · simp only [hi, if_false]
    exact ⟨fun h => ⟨text, rfl, h⟩, fun ⟨_, heq, h⟩ => heq ▸ h⟩

/-- What the scanner reads, if anything. -/
def attempt (p : Scan α) : Scan (Option α) := fun text =>
  match p.run text with
  | some (a, rest) => some (some a, rest)
  | none => some (none, text)

/-- An attempt succeeds where the scan does. -/
theorem attempt_eq_some {p : Scan α} {text rest : List Char} {a : α} :
    (attempt p).run text = some (some a, rest) ↔ p.run text = some (a, rest) := by
  show (match p.run text with | some (a, rest) => some (some a, rest) | none => some (none, text)) = _ ↔ _
  cases p.run text <;> simp [Prod.ext_iff]

/-- An attempt that fails has read nothing. -/
theorem attempt_eq_none {p : Scan α} {text rest : List Char} :
    (attempt p).run text = some (none, rest) ↔ p.run text = none ∧ rest = text := by
  show (match p.run text with | some (a, rest) => some (some a, rest) | none => some (none, text)) = _ ↔ _
  cases p.run text <;> simp [eq_comm]

/-! ## Numbers -/

/-- `char::to_digit` -/
def toDigit (radix : Nat) (c : Char) : Option Nat :=
  let digit :=
    if 48 ≤ c.toNat ∧ c.toNat ≤ 57 then some (c.toNat - 48)
    else if 97 ≤ c.toNat ∧ c.toNat ≤ 122 then some (c.toNat - 87)
    else if 65 ≤ c.toNat ∧ c.toNat ≤ 90 then some (c.toNat - 55)
    else none
  digit.filter (· < radix)

/-- The digits at the front of the text, at most so many: their value after these digits, and how many there are then. -/
def readDigits (radix limit : Nat) : Nat → Nat → Scan (Nat × Nat)
  | value, count, [] => some ((value, count), [])
  | value, count, c :: rest =>
    match toDigit radix c with
    | some digit => if count + 1 > limit then none else readDigits radix limit (value * radix + digit) (count + 1) rest
    | none => some ((value, count), c :: rest)

/-- A number of at most so many digits. -/
def readNumber (radix limit : Nat) (allowZeroPrefix : Bool) (tryInto : Nat → Option α) : Scan α := fun text => do
  let ((value, count), rest) ← readDigits radix limit 0 0 text
  if count = 0 then none
  else if allowZeroPrefix = false ∧ text.head? = some '0' ∧ 1 < count then none
  else (tryInto value).map fun a => (a, rest)

/-- The value of digits that follow others. -/
def valueAfter (radix : Nat) (value : Nat) (digits : List Char) : Nat :=
  digits.foldl (fun value c => value * radix + (toDigit radix c).getD 0) value

/-- All of them are digits. -/
def AllDigits (radix : Nat) (text : List Char) : Prop := ∀ c ∈ text, (toDigit radix c).isSome

/-- The text does not start with a digit. -/
def NoDigit (radix : Nat) (text : List Char) : Prop := ∀ c ∈ text.head?, toDigit radix c = none

/-- Digits are read up to the first character that is none, when there are no more than the limit. -/
theorem readDigits_eq_some {radix limit value count : Nat} {text rest : List Char} {r : Nat × Nat} :
    (readDigits radix limit value count).run text = some (r, rest) ↔ ∃ digits, text = digits ++ rest ∧ AllDigits radix digits ∧
      NoDigit radix rest ∧ (digits = [] ∨ count + digits.length ≤ limit) ∧
      r = (valueAfter radix value digits, count + digits.length) := by
  induction text generalizing value count with
  | nil =>
    constructor
    · rintro h
      cases h
      exact ⟨[], rfl, nofun, nofun, Or.inl rfl, rfl⟩
    · rintro ⟨digits, heq, -, -, -, rfl⟩
      obtain ⟨rfl, rfl⟩ := List.append_eq_nil_iff.1 heq.symm
      rfl
  | cons c text ih =>
    have hrun : (readDigits radix limit value count).run (c :: text) = match toDigit radix c with
        | some digit => if count + 1 > limit then none else (readDigits radix limit (value * radix + digit) (count + 1)).run text
        | none => some ((value, count), c :: text) := rfl
    rw [hrun]
    cases hdigit : toDigit radix c with
    | none =>
      constructor
      · rintro h
        cases h
        refine ⟨[], rfl, nofun, fun c' hc' => ?_, Or.inl rfl, rfl⟩
        cases hc'
        exact hdigit
      · rintro ⟨digits, heq, hall, -, -, rfl⟩
        cases digits with
        | nil =>
          obtain rfl := heq
          rfl
        | cons c' digits =>
          cases heq
          have hsome := hall c (List.mem_cons_self ..)
          rw [hdigit] at hsome
          cases hsome
    | some digit =>
      simp only
      split
      · rename_i hlimit
        constructor
        · nofun
        · rintro ⟨digits, heq, -, hrest, hle, -⟩
          cases digits with
          | nil =>
            obtain rfl := heq
            rw [hrest c rfl] at hdigit
            cases hdigit
          | cons c' digits => rcases hle with hle | hle <;> simp at hle; omega
      · rename_i hlimit
        rw [ih]
        constructor
        · rintro ⟨digits, rfl, hall, hrest, hle, rfl⟩
          refine ⟨c :: digits, rfl, List.forall_mem_cons.2 ⟨by rw [hdigit]; rfl, hall⟩, hrest, Or.inr ?_, ?_⟩
          · rw [List.length_cons]
            rcases hle with rfl | hle
            · rw [List.length_nil]
              omega
            · omega
          · rw [List.length_cons, valueAfter, valueAfter, List.foldl_cons, hdigit, Option.getD_some, Nat.add_right_comm, Nat.add_assoc]
        · rintro ⟨digits, heq, hall, hrest, hle, rfl⟩
          cases digits with
          | nil =>
            obtain rfl := heq
            rw [hrest c rfl] at hdigit
            cases hdigit
          | cons c' digits =>
            cases heq
            refine ⟨digits, rfl, fun c' hc' => hall c' (List.mem_cons_of_mem _ hc'), hrest, Or.inr ?_, ?_⟩
            · rcases hle with hle | hle <;> simp at hle; omega
            · rw [List.length_cons, valueAfter, valueAfter, List.foldl_cons, hdigit, Option.getD_some, Nat.add_right_comm, Nat.add_assoc]

/-- The digits spell a number: there is one, and not too many, and the first is zero only where that is allowed. -/
def Spells (radix limit : Nat) (allowZeroPrefix : Bool) (digits : List Char) : Prop :=
  AllDigits radix digits ∧ digits ≠ [] ∧ digits.length ≤ limit ∧
    ¬(allowZeroPrefix = false ∧ digits.head? = some '0' ∧ 1 < digits.length)

/-- A number is read when its digits spell one, and it fits. -/
theorem readNumber_eq_some {radix limit : Nat} {allowZeroPrefix : Bool} {tryInto : Nat → Option α} {text rest : List Char} {a : α} :
    (readNumber radix limit allowZeroPrefix tryInto).run text = some (a, rest) ↔ ∃ digits, text = digits ++ rest ∧
      Spells radix limit allowZeroPrefix digits ∧ NoDigit radix rest ∧ tryInto (valueAfter radix 0 digits) = some a := by
  have hhead : ∀ {digits : List Char}, digits ≠ [] → (digits ++ rest).head? = digits.head? := by
    intro digits hne
    cases digits with
    | nil => exact absurd rfl hne
    | cons c digits => rfl
  show ((readDigits radix limit 0 0).run text).bind _ = _ ↔ _
  rw [Option.bind_eq_some_iff]
  constructor
  · rintro ⟨⟨⟨value, count⟩, rest'⟩, hdigits, h⟩
    obtain ⟨digits, rfl, hall, hrest, hlimit, hr⟩ := readDigits_eq_some.1 hdigits
    obtain ⟨rfl, rfl⟩ := Prod.mk.inj hr
    simp only [Nat.zero_add] at h hlimit
    split at h
    · cases h
    rename_i hpos
    split at h
    · cases h
    rename_i hzero
    obtain ⟨a', ha, heq⟩ := Option.map_eq_some_iff.1 h
    obtain ⟨rfl, rfl⟩ := Prod.mk.inj heq
    have hne : digits ≠ [] := fun hnil => hpos (by rw [hnil]; rfl)
    refine ⟨digits, rfl, ⟨hall, hne, hlimit.resolve_left hne, ?_⟩, hrest, ha⟩
    rwa [hhead hne] at hzero
  · rintro ⟨digits, rfl, ⟨hall, hne, hlimit, hzero⟩, hrest, ha⟩
    refine ⟨_, readDigits_eq_some.2 ⟨digits, rfl, hall, hrest, Or.inr (by rwa [Nat.zero_add]), rfl⟩, ?_⟩
    have hpos : ¬digits.length = 0 := fun h => hne (List.length_eq_zero_iff.1 h)
    simp only [Nat.zero_add, hpos, if_false, hhead hne]
    rw [if_neg hzero, ha]
    rfl

/-! ## The digits of a number -/

/-- The character of a digit has the value of the digit. -/
theorem toDigit_digitChar {radix d : Nat} (hradix : radix ≤ 16) (hd : d < radix) : toDigit radix d.digitChar = some d := by
  have hall : ∀ radix : Fin 17, ∀ d : Fin 16, d.val < radix.val → toDigit radix d.val.digitChar = some d.val := by decide
  exact hall ⟨radix, Nat.lt_succ_of_le hradix⟩ ⟨d, Nat.lt_of_lt_of_le hd hradix⟩ hd

/-- The value of digits is read from left to right. -/
theorem valueAfter_append (radix value : Nat) (first second : List Char) :
    valueAfter radix value (first ++ second) = valueAfter radix (valueAfter radix value first) second :=
  List.foldl_append ..

/-- The digits of a number, as they are written, are digits of this value. -/
theorem toDigits_spec {radix : Nat} (hone : 1 < radix) (hradix : radix ≤ 16) (n : Nat) :
    AllDigits radix (Nat.toDigits radix n) ∧ valueAfter radix 0 (Nat.toDigits radix n) = n := by
  induction n using Nat.base_induction radix hone with
  | single m hm =>
    have hdigit := toDigit_digitChar hradix hm
    rw [Nat.toDigits_of_lt_base hm]
    refine ⟨fun c hc => ?_, ?_⟩
    · rw [List.mem_singleton.1 hc, hdigit]
      rfl
    · simp [valueAfter, hdigit]
  | digit m k hk hm ih =>
    have hdigit := toDigit_digitChar hradix hk
    rw [← Nat.toDigits_append_toDigits hone hm hk, Nat.toDigits_of_lt_base hk]
    refine ⟨fun c hc => ?_, ?_⟩
    · rcases List.mem_append.1 hc with hc | hc
      · exact ih.1 c hc
      · rw [List.mem_singleton.1 hc, hdigit]
        rfl
    · rw [valueAfter_append, ih.2]
      simp [valueAfter, hdigit, Nat.mul_comm]

/-- A number is written without a leading zero, unless it is zero. -/
theorem head_toDigits {radix : Nat} (hone : 1 < radix) {n : Nat} (hpos : 0 < n) : (Nat.toDigits radix n).head? ≠ some '0' := by
  induction n using Nat.base_induction radix hone with
  | single m hm =>
    rw [Nat.toDigits_of_lt_base hm]
    simpa using Nat.ne_of_gt hpos
  | digit m k hk hm ih =>
    rw [← Nat.toDigits_append_toDigits hone hm hk, List.head?_append, Option.or_of_isSome]
    · exact ih hm
    · exact List.isSome_head?.2 Nat.toDigits_ne_nil

/-- A digit is less than the radix. -/
theorem toDigit_lt {radix : Nat} {c : Char} {d : Nat} (h : toDigit radix c = some d) : d < radix := by
  unfold toDigit at h
  simpa using (Option.filter_eq_some_iff.1 h).2

/-- A decimal digit is written in one way. -/
theorem digitChar_of_toDigit {c : Char} {d : Nat} (h : toDigit 10 c = some d) : d.digitChar = c := by
  have hlt := toDigit_lt h
  unfold toDigit at h
  have hdigit := (Option.filter_eq_some_iff.1 h).1
  have hc : c.toNat = 48 + d := by
    split at hdigit
    · cases hdigit
      omega
    · split at hdigit
      · cases hdigit
        omega
      · split at hdigit
        · cases hdigit
          omega
        · cases hdigit
  rw [← Char.toNat_inj, Nat.toNat_digitChar_of_lt_ten hlt, hc]

/-- Decimal digits without a leading zero are as a number is written. -/
theorem toDigits_valueAfter {digits : List Char} (hall : AllDigits 10 digits) (hne : digits ≠ [])
    (hzero : ¬(digits.head? = some '0' ∧ 1 < digits.length)) : Nat.toDigits 10 (valueAfter 10 0 digits) = digits := by
  induction digits using List.reverseRecOn with
  | nil => exact absurd rfl hne
  | append_singleton digits c ih =>
    obtain ⟨d, hd⟩ := Option.isSome_iff_exists.1 (hall c (List.mem_append_right _ (List.mem_singleton_self c)))
    have hvalue : valueAfter 10 0 (digits ++ [c]) = 10 * valueAfter 10 0 digits + d := by
      rw [valueAfter_append]
      simp [valueAfter, hd, Nat.mul_comm]
    rw [hvalue]
    by_cases hnil : digits = []
    · subst hnil
      simp [valueAfter, Nat.toDigits_of_lt_base (toDigit_lt hd), digitChar_of_toDigit hd]
    · have hhead : (digits ++ [c]).head? = digits.head? := by
        cases digits with
        | nil => exact absurd rfl hnil
        | cons c' digits => rfl
      have hlength : 1 < (digits ++ [c]).length := by
        have := List.length_pos_iff.2 hnil
        rw [List.length_append, List.length_singleton]
        omega
      have hdigits := ih (fun c' hc' => hall c' (List.mem_append_left _ hc')) hnil fun h => hzero ⟨hhead.trans h.1, hlength⟩
      have hpos : 0 < valueAfter 10 0 digits := by
        refine Nat.pos_of_ne_zero fun h => hzero ⟨?_, hlength⟩
        rw [h] at hdigits
        rw [hhead, ← hdigits]
        rfl
      rw [← Nat.toDigits_append_toDigits (by decide) hpos (toDigit_lt hd), hdigits, Nat.toDigits_of_lt_base (toDigit_lt hd),
        digitChar_of_toDigit hd]

end Scan
