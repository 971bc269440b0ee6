import Mathlib.Logic.Function.Basic

/-!
# Tenures

Identifiers are lent to holders. A tenure is the time for which a holder has an identifier, and a register says which tenure each
holder has had. A register is orderly when an identifier rests for a while between two tenures. Lending an identifier that is free,
and taking one back, keep a register orderly.
-/

/-- The time for which a holder has an identifier: it has no end while the holder still has it. -/
structure Tenure (Id : Type) where
  id : Id
  start : Nat
  stop : Option Nat
  deriving DecidableEq

/-- The first tenure ended at least `rest` before the second started. -/
def Tenure.Before {Id : Type} (rest : Nat) (a b : Tenure Id) : Prop := ∃ time, a.stop = some time ∧ time + rest ≤ b.start

/-- The tenure ended at least `rest` ago. -/
def Tenure.Over {Id : Type} (rest now : Nat) (a : Tenure Id) : Prop := ∃ time, a.stop = some time ∧ time + rest ≤ now

/-- The tenure of each holder that has had one: a holder has at most one. -/
abbrev Register (Holder Id : Type) := Holder → Option (Tenure Id)

namespace Register

variable {Holder Id : Type} {r : Register Holder Id} {rest clock now : Nat} {h h' : Holder} {id : Id}

/-- The holder has the identifier. -/
def Holds (r : Register Holder Id) (h : Holder) (id : Id) : Prop := ∃ start, r h = some ⟨id, start, none⟩

/-- Every tenure of the identifier has been over for `rest`. -/
def Free (r : Register Holder Id) (rest : Nat) (id : Id) (now : Nat) : Prop :=
  ∀ h a, r h = some a → a.id = id → a.Over rest now

/-- An identifier is not free while it is held, or has been given back less than `rest` ago. -/
theorem not_free_iff : ¬r.Free rest id now ↔
    (∃ h, r.Holds h id) ∨ ∃ h start time, r h = some ⟨id, start, some time⟩ ∧ now < time + rest := by
  constructor
  · intro hfree
    by_contra hnone
    rw [not_or] at hnone
    obtain ⟨hheld, hresting⟩ := hnone
    refine hfree fun h a ha hid => ?_
    obtain ⟨id', start, stop⟩ := a
    obtain rfl : id' = id := hid
    cases stop with
    | none => exact absurd ⟨h, start, ha⟩ hheld
    | some time => exact ⟨time, rfl, Nat.le_of_not_lt fun hlt => hresting ⟨h, start, time, ha, hlt⟩⟩
  · rintro (⟨h, start, hr⟩ | ⟨h, start, time, hr, hlt⟩) hfree
    · obtain ⟨_, hstop, -⟩ := hfree h _ hr rfl
      cases hstop
    · obtain ⟨_, hstop, hle⟩ := hfree h _ hr rfl
      cases hstop
      exact absurd hlt (Nat.not_lt.2 hle)

/-- The holder is lent the identifier. -/
def lend [DecidableEq Holder] (r : Register Holder Id) (h : Holder) (id : Id) (now : Nat) : Register Holder Id :=
  Function.update r h (some ⟨id, now, none⟩)

/-- The holder gives its identifier back. -/
def giveBack [DecidableEq Holder] (r : Register Holder Id) (h : Holder) (now : Nat) : Register Holder Id :=
  Function.update r h ((r h).map fun a => { a with stop := some now })

/-- No tenure ended after the clock, and of two tenures of one identifier one was over for `rest` before the other started. -/
structure Orderly (r : Register Holder Id) (rest clock : Nat) : Prop where
  ended : ∀ h a time, r h = some a → a.stop = some time → time ≤ clock
  apart : ∀ h h' a a', r h = some a → r h' = some a' → h ≠ h' → a.id = a'.id → a.Before rest a' ∨ a'.Before rest a

/-- An empty register is in order. -/
theorem Orderly.empty : Orderly (fun _ => none : Register Holder Id) rest clock where
  ended _ _ _ hr := by cases hr
  apart _ _ _ _ hr := by cases hr

/-- A register stays in order as the clock moves on. -/
theorem Orderly.later (hr : r.Orderly rest clock) (hnow : clock ≤ now) : r.Orderly rest now where
  ended h a time ha hstop := Nat.le_trans (hr.ended h a time ha hstop) hnow
  apart := hr.apart

/-- Two holders do not have one identifier. -/
theorem Orderly.holds_unique (hr : r.Orderly rest clock) (h₁ : r.Holds h id) (h₂ : r.Holds h' id) : h = h' := by
  obtain ⟨start, h₁⟩ := h₁
  obtain ⟨start', h₂⟩ := h₂
  by_contra hne
  rcases hr.apart h h' _ _ h₁ h₂ hne rfl with ⟨_, hstop, -⟩ | ⟨_, hstop, -⟩
  · cases hstop
  · cases hstop

/-- Another tenure of an identifier that a holder has was over before its own started. -/
theorem Orderly.before_of_holds {a : Tenure Id} {start : Nat} (hr : r.Orderly rest clock) (h₁ : r h = some a)
    (h₂ : r h' = some ⟨id, start, none⟩) (hne : h ≠ h') (hid : a.id = id) :
    ∃ time, a.stop = some time ∧ time + rest ≤ start := by
  rcases hr.apart h h' _ _ h₁ h₂ hne hid with hbefore | ⟨_, hstop, -⟩
  · exact hbefore
  · cases hstop

section Update

variable [DecidableEq Holder]

theorem lend_self : r.lend h id now h = some ⟨id, now, none⟩ := Function.update_self ..

theorem lend_of_ne (hne : h' ≠ h) : r.lend h id now h' = r h' := Function.update_of_ne hne ..

theorem giveBack_self : r.giveBack h now h = (r h).map fun a => { a with stop := some now } := Function.update_self ..

theorem giveBack_of_ne (hne : h' ≠ h) : r.giveBack h now h' = r h' := Function.update_of_ne hne ..

/-- A tenure that is apart from those of the other holders can be recorded. -/
theorem Orderly.update {b : Tenure Id} (hr : r.Orderly rest clock) (hnow : clock ≤ now)
    (hended : ∀ time, b.stop = some time → time ≤ now)
    (hapart : ∀ h' a, h' ≠ h → r h' = some a → a.id = b.id → a.Before rest b ∨ b.Before rest a) :
    Orderly (Function.update r h (some b)) rest now := by
  have hcases : ∀ {h₁ a}, Function.update r h (some b) h₁ = some a → (h₁ = h ∧ a = b) ∨ (h₁ ≠ h ∧ r h₁ = some a) := by
    intro h₁ a ha
    by_cases heq : h₁ = h
    · subst heq
      rw [Function.update_self] at ha
      exact Or.inl ⟨rfl, (Option.some.inj ha).symm⟩
    · rw [Function.update_of_ne heq] at ha
      exact Or.inr ⟨heq, ha⟩
  refine ⟨fun h₁ a time ha hstop => ?_, fun h₁ h₂ a a' ha ha' hne hid => ?_⟩
  · rcases hcases ha with ⟨-, rfl⟩ | ⟨-, ha⟩
    · exact hended time hstop
    · exact Nat.le_trans (hr.ended h₁ a time ha hstop) hnow
  · rcases hcases ha with ⟨rfl, rfl⟩ | ⟨hne₁, hra⟩
    · rcases hcases ha' with ⟨rfl, rfl⟩ | ⟨hne₂, hra'⟩
      · exact absurd rfl hne
      · exact (hapart h₂ a' hne₂ hra' hid.symm).symm
    · rcases hcases ha' with ⟨rfl, rfl⟩ | ⟨hne₂, hra'⟩
      · exact hapart h₁ a hne₁ hra hid
      · exact hr.apart h₁ h₂ a a' hra hra' hne hid

/-- An identifier that is free can be lent. -/
theorem Orderly.lend (hr : r.Orderly rest clock) (hnow : clock ≤ now) (hfree : r.Free rest id now) :
    (r.lend h id now).Orderly rest now :=
  hr.update hnow (fun _ hstop => by cases hstop) fun h' a _ ha hid => Or.inl (hfree h' a ha hid)

/-- A holder can give back the identifier it has. -/
theorem Orderly.giveBack (hr : r.Orderly rest clock) (hnow : clock ≤ now) (hholds : r.Holds h id) :
    (r.giveBack h now).Orderly rest now := by
  obtain ⟨start, hholds⟩ := hholds
  unfold Register.giveBack
  rw [hholds]
  refine hr.update hnow (fun time hstop => ?_) fun h' a hne ha hid => Or.inl (hr.before_of_holds ha hholds hne hid)
  cases hstop
  exact Nat.le_refl now

end Update

end Register
