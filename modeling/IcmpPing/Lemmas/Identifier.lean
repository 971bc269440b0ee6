import IcmpPing.Identifier

/-!
# The allocator and the leases

The allocator represents the register of leases: what it calls occupied is what is held or at rest. Each step of the calls that
share it lends a free identifier, takes one back, or leaves the register as it is.
-/

namespace IcmpPing

namespace Allocator

/-- A release is at rest until its quarantine has ended. -/
theorem durationSince_lt_quarantine {now time : Instant} : durationSince now time < quarantine ↔ now < time + quarantine := by
  have hsub : ∀ a b c : Nat, 0 < c → (a - b < c ↔ a < b + c) := by omega
  exact hsub now time quarantine (by decide)

/-! ## The loops of `acquire` -/

/-- What expires comes first in the queue. -/
theorem expire_spec (now : Instant) (occupied : Finset UInt16) (retired : List (UInt16 × Instant)) :
    ∃ due, retired = due ++ (expire now occupied retired).2 ∧ (∀ entry ∈ due, quarantine ≤ durationSince now entry.2) ∧
      (∀ id, id ∈ (expire now occupied retired).1 ↔ id ∈ occupied ∧ id ∉ due.map Prod.fst) ∧
      ∀ entry, (expire now occupied retired).2.head? = some entry → durationSince now entry.2 < quarantine := by
  induction retired generalizing occupied with
  | nil => exact ⟨[], rfl, List.forall_mem_nil _, fun id => by simp [expire], nofun⟩
  | cons entry retired ih =>
    obtain ⟨id, time⟩ := entry
    unfold expire
    by_cases hdue : durationSince now time ≥ quarantine
    · rw [if_pos hdue]
      obtain ⟨due, hretired, htimes, hoccupied, hhead⟩ := ih (occupied.erase id)
      refine ⟨(id, time) :: due, congrArg _ hretired, List.forall_mem_cons.2 ⟨hdue, htimes⟩, fun id' => ?_, hhead⟩
      rw [hoccupied, Finset.mem_erase, List.map_cons, List.mem_cons]
      tauto
    · rw [if_neg hdue]
      refine ⟨[], rfl, List.forall_mem_nil _, fun id' => by simp, ?_⟩
      rintro entry hentry
      cases hentry
      exact Nat.lt_of_not_le hdue

/-- The scan stops at the first candidate that is not occupied, or has tried them all. -/
theorem scan_spec (occupied : Finset UInt16) (n : Nat) (next : UInt16) :
    (∃ k < n, scan occupied n next = (some (next + .ofNat k), next + .ofNat k + 1) ∧ next + .ofNat k ∉ occupied ∧
      ∀ j < k, next + .ofNat j ∈ occupied) ∨
    (scan occupied n next = (none, next + .ofNat n) ∧ ∀ j < n, next + .ofNat j ∈ occupied) := by
  induction n generalizing next with
  | zero => exact Or.inr ⟨by simp [scan], fun j hj => absurd hj (Nat.not_lt_zero j)⟩
  | succ n ih =>
    have hshift : ∀ j, next + 1 + .ofNat j = next + .ofNat (j + 1) := by
      intro j
      rw [UInt16.ofNat_add, UInt16.add_assoc, UInt16.add_comm (.ofNat j)]
      rfl
    unfold scan
    by_cases hmem : next ∈ occupied
    · rw [if_pos hmem]
      have hearlier : ∀ k, (∀ j < k, next + 1 + .ofNat j ∈ occupied) → ∀ j < k + 1, next + .ofNat j ∈ occupied := by
        intro k hk j hj
        cases j with
        | zero => simpa using hmem
        | succ j =>
          rw [← hshift]
          exact hk j (Nat.lt_of_succ_lt_succ hj)
      rcases ih (next + 1) with ⟨k, hk, hscan, hfree, hbefore⟩ | ⟨hscan, hall⟩
      · refine Or.inl ⟨k + 1, Nat.succ_lt_succ hk, ?_, ?_, hearlier k hbefore⟩
        · rw [hscan, hshift]
        · rwa [hshift] at hfree
      · refine Or.inr ⟨?_, hearlier n hall⟩
        rw [hscan, hshift]
    · rw [if_neg hmem]
      exact Or.inl ⟨0, Nat.succ_pos n, by simp, by simpa using hmem, fun j hj => absurd hj (Nat.not_lt_zero j)⟩

/-- The first identifier in cyclic order from `start` for which something holds. -/
def FirstFrom (start : UInt16) (P : UInt16 → Prop) (id : UInt16) : Prop := P id ∧ ∀ other, P other → id - start ≤ other - start

/-- Every identifier is so many steps after the cursor. -/
theorem exists_offset (next id : UInt16) : ∃ j < 65536, next + .ofNat j = id ∧ (id - next).toNat = j := by
  refine ⟨(id - next).toNat, (id - next).toNat_lt, ?_, rfl⟩
  rw [UInt16.ofNat_toNat, UInt16.add_comm, UInt16.sub_add_cancel]

/-- A full turn of the cursor finds the first identifier that is not occupied, or finds none and returns to the start. -/
theorem scan_cases (occupied : Finset UInt16) (next : UInt16) :
    (∃ id, scan occupied 65536 next = (some id, id + 1) ∧ FirstFrom next (fun id => id ∉ occupied) id) ∨
    (scan occupied 65536 next = (none, next) ∧ ∀ id, id ∈ occupied) := by
  rcases scan_spec occupied 65536 next with ⟨k, hk, hscan, hfree, hbefore⟩ | ⟨hscan, hall⟩
  · refine Or.inl ⟨_, hscan, hfree, fun other hother => ?_⟩
    obtain ⟨j, hj, rfl, hsub⟩ := exists_offset next other
    rw [UInt16.le_iff_toNat_le, hsub]
    have hle : k ≤ j := Nat.le_of_not_lt fun hlt => hother (hbefore j hlt)
    rw [UInt16.add_comm, UInt16.add_sub_cancel, UInt16.toNat_ofNat']
    omega
  · refine Or.inr ⟨by rw [hscan]; simp, fun id => ?_⟩
    obtain ⟨j, hj, rfl, -⟩ := exists_offset next id
    exact hall j hj

/-! ## What an allocator represents -/

variable {Call : Type} {a : Allocator} {r : Register Call UInt16} {clock now : Instant}

/-- The allocator represents the register at this time: the occupied identifiers are those that are held and, apart from them,
those in the queue, which holds no identifier twice and is in the order of release; an entry of the queue records a release, and
a release is recorded there until the quarantine has ended. -/
structure Represents (a : Allocator) (r : Register Call UInt16) (clock : Instant) : Prop where
  occupied : ∀ id, id ∈ a.occupied ↔ (∃ call, r.Holds call id) ∨ id ∈ a.retired.map Prod.fst
  disjoint : ∀ id call, id ∈ a.retired.map Prod.fst → ¬r.Holds call id
  nodup : (a.retired.map Prod.fst).Nodup
  ordered : a.retired.Pairwise fun first second => first.2 ≤ second.2
  recorded : ∀ id time, (id, time) ∈ a.retired → ∃ call granted, r call = some ⟨id, granted, some time⟩
  resting : ∀ call id granted time, r call = some ⟨id, granted, some time⟩ →
    (id, time) ∈ a.retired ∨ time + quarantine ≤ clock

/-- The allocator after the first loop of `acquire`. -/
def expired (a : Allocator) (now : Instant) : Allocator :=
  { a with occupied := (expire now a.occupied a.retired).1, retired := (expire now a.occupied a.retired).2 }

/-- No entry of the queue is due at this time. -/
def Young (a : Allocator) (now : Instant) : Prop := ∀ entry ∈ a.retired, durationSince now entry.2 < quarantine

/-- A new allocator represents an empty register. -/
theorem Represents.new {seed : Except String (UInt8 × UInt8)} (h : Allocator.new seed = .ok a) (hr : ∀ call, r call = none) :
    a.Represents r clock := by
  cases seed with
  | error e => cases h
  | ok seed =>
    cases h
    refine ⟨fun id => ?_, nofun, List.nodup_nil, List.Pairwise.nil, nofun, fun call id granted time hcall => ?_⟩
    · simp [Register.Holds, hr]
    · rw [hr] at hcall
      cases hcall

/-- What is left in the queue is young, since the queue is in order. -/
theorem Represents.young_expired (h : a.Represents r clock) (now : Instant) : (a.expired now).Young now := by
  obtain ⟨due, hretired, -, -, hhead⟩ := expire_spec now a.occupied a.retired
  have hordered := h.ordered
  rw [hretired] at hordered
  replace hordered := (List.pairwise_append.1 hordered).2.1
  unfold Young expired
  generalize (expire now a.occupied a.retired).2 = rest at hordered hhead ⊢
  cases rest with
  | nil => exact List.forall_mem_nil _
  | cons first rest =>
    have hfirst := hhead first rfl
    refine List.forall_mem_cons.2 ⟨hfirst, fun entry hentry => ?_⟩
    have hle := (List.pairwise_cons.1 hordered).1 entry hentry
    exact Nat.lt_of_le_of_lt (Nat.sub_le_sub_left hle now) hfirst

/-- The first loop of `acquire` brings the allocator up to date. -/
theorem Represents.expired (h : a.Represents r clock) (hnow : clock ≤ now) : (a.expired now).Represents r now := by
  obtain ⟨due, hretired, htimes, hoccupied, -⟩ := expire_spec now a.occupied a.retired
  have hmem : ∀ entry, entry ∈ a.retired ↔ entry ∈ due ∨ entry ∈ (a.expired now).retired := by
    intro entry
    rw [hretired]
    exact List.mem_append
  have hids : ∀ id, id ∈ a.retired.map Prod.fst ↔ id ∈ due.map Prod.fst ∨ id ∈ (a.expired now).retired.map Prod.fst := by
    intro id
    rw [hretired, List.map_append]
    exact List.mem_append
  have hnodup := h.nodup
  rw [hretired, List.map_append, List.nodup_append] at hnodup
  have hordered := h.ordered
  rw [hretired] at hordered
  refine ⟨fun id => ?_, fun id call hid => h.disjoint id call ((hids id).2 (Or.inr hid)), hnodup.2.1,
    (List.pairwise_append.1 hordered).2.1, fun id time hentry => h.recorded id time ((hmem _).2 (Or.inr hentry)),
    fun call id granted time hcall => ?_⟩
  · refine (hoccupied id).trans ?_
    rw [h.occupied, hids]
    constructor
    · rintro ⟨hheld | hdue | hrest, hnot⟩
      · exact Or.inl hheld
      · exact absurd hdue hnot
      · exact Or.inr hrest
    · rintro (⟨call, hcall⟩ | hrest)
      · exact ⟨Or.inl ⟨call, hcall⟩, fun hdue => h.disjoint id call ((hids id).2 (Or.inl hdue)) hcall⟩
      · exact ⟨Or.inr (Or.inr hrest), fun hdue => hnodup.2.2 id hdue id hrest rfl⟩
  · rcases h.resting call id granted time hcall with hentry | hle
    · rcases (hmem _).1 hentry with hdue | hrest
      · exact Or.inr (Nat.le_of_not_lt fun hlt => Nat.not_le.2 (durationSince_lt_quarantine.2 hlt) (htimes _ hdue))
      · exact Or.inl hrest
    · exact Or.inr (Nat.le_trans hle hnow)

/-- Once the allocator is up to date, an identifier is occupied unless it is free. -/
theorem Represents.not_mem_occupied_iff (h : a.Represents r now) (hyoung : a.Young now) (id : UInt16) :
    id ∉ a.occupied ↔ r.Free quarantine id now := by
  rw [← not_iff_not, not_not, Register.not_free_iff, h.occupied]
  refine or_congr_right ⟨fun hid => ?_, ?_⟩
  · obtain ⟨⟨id, time⟩, hentry, rfl⟩ := List.mem_map.1 hid
    obtain ⟨call, granted, hcall⟩ := h.recorded id time hentry
    exact ⟨call, granted, time, hcall, durationSince_lt_quarantine.1 (hyoung _ hentry)⟩
  · rintro ⟨call, granted, time, hcall, hlt⟩
    rcases h.resting call id granted time hcall with hentry | hle
    · exact List.mem_map_of_mem hentry
    · exact absurd hlt (Nat.not_lt.2 hle)

section Update

variable [DecidableEq Call] {call : Call} {id : UInt16}

/-- Who holds what once a free identifier has been lent to a call that had none. -/
theorem holds_lend_iff (hcall : r call = none) {call' : Call} {id' : UInt16} :
    (r.lend call id now).Holds call' id' ↔ (call' = call ∧ id' = id) ∨ r.Holds call' id' := by
  by_cases heq : call' = call
  · subst heq
    simp [Register.Holds, Register.lend_self, hcall, eq_comm]
  · simp [Register.Holds, Register.lend_of_ne heq, heq]

/-- An identifier that is not occupied can be lent: it is occupied from then on. -/
theorem Represents.lend (h : a.Represents r now) (hcall : r call = none) (hfree : id ∉ a.occupied) (next : UInt16) :
    Represents { occupied := insert id a.occupied, retired := a.retired, next := next } (r.lend call id now) now := by
  have hid : id ∉ a.retired.map Prod.fst := fun hid => hfree ((h.occupied id).2 (Or.inr hid))
  refine ⟨fun id' => ?_, fun id' call' hid' hholds => ?_, h.nodup, h.ordered, fun id' time hentry => ?_,
    fun call' id' granted time hcall' => ?_⟩
  · rw [Finset.mem_insert, h.occupied]
    constructor
    · rintro (rfl | ⟨call', hholds⟩ | hretired)
      · exact Or.inl ⟨call, (holds_lend_iff hcall).2 (Or.inl ⟨rfl, rfl⟩)⟩
      · exact Or.inl ⟨call', (holds_lend_iff hcall).2 (Or.inr hholds)⟩
      · exact Or.inr hretired
    · rintro (⟨call', hholds⟩ | hretired)
      · rcases (holds_lend_iff hcall).1 hholds with ⟨-, hid'⟩ | hholds
        · exact Or.inl hid'
        · exact Or.inr (Or.inl ⟨call', hholds⟩)
      · exact Or.inr (Or.inr hretired)
  · rcases (holds_lend_iff hcall).1 hholds with ⟨-, rfl⟩ | hholds
    · exact hid hid'
    · exact h.disjoint id' call' hid' hholds
  · obtain ⟨call', granted, hcall'⟩ := h.recorded id' time hentry
    have hne : call' ≠ call := by
      rintro rfl
      rw [hcall] at hcall'
      cases hcall'
    exact ⟨call', granted, by rw [Register.lend_of_ne hne, hcall']⟩
  · by_cases heq : call' = call
    · rw [heq, Register.lend_self] at hcall'
      cases hcall'
    · rw [Register.lend_of_ne heq] at hcall'
      exact h.resting call' id' granted time hcall'

/-- An identifier that is held can be released: it rests at the end of the queue. -/
theorem Represents.release {granted : Instant} (h : a.Represents r clock) (horderly : r.Orderly quarantine clock)
    (hnow : clock ≤ now) (hcall : r call = some ⟨id, granted, none⟩) :
    (a.release id now).Represents (r.giveBack call now) now := by
  have hholds : r.Holds call id := ⟨granted, hcall⟩
  have hid : id ∉ a.retired.map Prod.fst := fun hid => h.disjoint id call hid hholds
  have hself : r.giveBack call now call = some ⟨id, granted, some now⟩ := by
    rw [Register.giveBack_self, hcall]
    rfl
  have hholds' : ∀ {call' id'}, (r.giveBack call now).Holds call' id' ↔ r.Holds call' id' ∧ id' ≠ id := by
    intro call' id'
    by_cases heq : call' = call
    · subst heq
      simp [Register.Holds, hself, hcall, eq_comm]
    · rw [Register.Holds, Register.giveBack_of_ne heq]
      refine ⟨fun hother => ⟨hother, ?_⟩, fun hother => hother.1⟩
      rintro rfl
      exact heq (horderly.holds_unique hother hholds)
  have hretired : (a.release id now).retired = a.retired ++ [(id, now)] := rfl
  have hids : ∀ id', id' ∈ (a.release id now).retired.map Prod.fst ↔ id' ∈ a.retired.map Prod.fst ∨ id' = id := by
    intro id'
    simp [hretired]
  refine ⟨fun id' => ?_, fun id' call' hid' hother => ?_, ?_, ?_, fun id' time hentry => ?_,
    fun call' id' granted' time hcall' => ?_⟩
  · refine (h.occupied id').trans ?_
    rw [hids]
    constructor
    · rintro (⟨call', hother⟩ | hrest)
      · by_cases heq : id' = id
        · exact Or.inr (Or.inr heq)
        · exact Or.inl ⟨call', hholds'.2 ⟨hother, heq⟩⟩
      · exact Or.inr (Or.inl hrest)
    · rintro (⟨call', hother⟩ | hrest | rfl)
      · exact Or.inl ⟨call', (hholds'.1 hother).1⟩
      · exact Or.inr hrest
      · exact Or.inl ⟨call, hholds⟩
  · obtain ⟨hother, hne⟩ := hholds'.1 hother
    rcases (hids id').1 hid' with hrest | heq
    · exact h.disjoint id' call' hrest hother
    · exact hne heq
  · rw [hretired, List.map_append]
    refine List.nodup_append.2 ⟨h.nodup, List.nodup_singleton _, ?_⟩
    rintro id' hid' _ hmem rfl
    cases List.mem_singleton.1 hmem
    exact hid hid'
  · rw [hretired]
    refine List.pairwise_append.2 ⟨h.ordered, List.pairwise_singleton .., ?_⟩
    rintro ⟨id', time⟩ hentry _ hmem
    cases List.mem_singleton.1 hmem
    obtain ⟨call', granted', hcall'⟩ := h.recorded id' time hentry
    exact Nat.le_trans (horderly.ended call' _ time hcall' rfl) hnow
  · rw [hretired] at hentry
    rcases List.mem_append.1 hentry with hentry | hentry
    · obtain ⟨call', granted', hcall'⟩ := h.recorded id' time hentry
      have hne : call' ≠ call := by
        rintro rfl
        rw [hcall] at hcall'
        cases hcall'
      exact ⟨call', granted', by rw [Register.giveBack_of_ne hne, hcall']⟩
    · cases List.mem_singleton.1 hentry
      exact ⟨call, granted, hself⟩
  · rw [hretired]
    by_cases heq : call' = call
    · rw [heq, hself] at hcall'
      cases hcall'
      exact Or.inl (List.mem_append_right _ (List.mem_singleton_self _))
    · rw [Register.giveBack_of_ne heq] at hcall'
      rcases h.resting call' id' granted' time hcall' with hentry | hle
      · exact Or.inl (List.mem_append_left _ hentry)
      · exact Or.inr (Nat.le_trans hle hnow)

end Update

/-- `acquire` takes the identifier that the scan has found. -/
theorem acquire_of_some {id next : UInt16} (hscan : scan (a.expired now).occupied 65536 a.next = (some id, next)) :
    a.acquire now =
      (.ok id, { occupied := insert id (a.expired now).occupied, retired := (a.expired now).retired, next := next }) := by
  have hexpire : expire now a.occupied a.retired = ((a.expired now).occupied, (a.expired now).retired) := rfl
  simp only [acquire, hexpire, hscan]

/-- `acquire` fails where the scan finds none, and takes nothing. -/
theorem acquire_of_none {next : UInt16} (hscan : scan (a.expired now).occupied 65536 a.next = (none, next)) :
    ∃ message, a.acquire now = (.error message, { (a.expired now) with next := next }) := by
  have hexpire : expire now a.occupied a.retired = ((a.expired now).occupied, (a.expired now).retired) := rfl
  exact ⟨_, by simp only [acquire, hexpire, hscan]; rfl⟩

/-- Where everything is still occupied after the first loop of `acquire`, that loop did nothing. -/
theorem Represents.expired_eq_self (h : a.Represents r clock) (hall : ∀ id, id ∈ (a.expired now).occupied) :
    a.expired now = a := by
  obtain ⟨due, hretired, -, hoccupied, -⟩ := expire_spec now a.occupied a.retired
  have hdue : due = [] := by
    cases due with
    | nil => rfl
    | cons entry due => exact absurd (List.mem_cons_self ..) ((hoccupied entry.1).1 (hall entry.1)).2
  subst hdue
  have hsame : (a.expired now).occupied = a.occupied := by
    ext id
    exact (hoccupied id).trans (and_iff_left (List.not_mem_nil))
  obtain ⟨occupied, retired, next⟩ := a
  exact congrArg₂ (fun occupied retired => (⟨occupied, retired, next⟩ : Allocator)) hsame hretired.symm

/-- What `acquire` does: it takes the first free identifier in cyclic order from the cursor, or leaves the allocator alone if no
identifier is free. -/
theorem Represents.acquire_cases (h : a.Represents r clock) (hnow : clock ≤ now) :
    (∃ id a', a.acquire now = (.ok id, a') ∧ FirstFrom a.next (fun id => r.Free quarantine id now) id ∧ a'.next = id + 1 ∧
      a'.Young now ∧ ∀ [DecidableEq Call] (call : Call), r call = none → a'.Represents (r.lend call id now) now) ∨
    ((∀ id, ¬r.Free quarantine id now) ∧ ∃ message, a.acquire now = (.error message, a)) := by
  have hexpired := h.expired hnow
  have hyoung := h.young_expired now
  have hfree := hexpired.not_mem_occupied_iff hyoung
  rcases scan_cases (a.expired now).occupied a.next with ⟨id, hscan, hid, hfirst⟩ | ⟨hscan, hall⟩
  · exact Or.inl ⟨id, _, acquire_of_some hscan, ⟨(hfree id).1 hid, fun other hother => hfirst other ((hfree other).2 hother)⟩,
      rfl, hyoung, fun call hcall => hexpired.lend hcall hid _⟩
  · have hacquire := acquire_of_none hscan
    rw [h.expired_eq_self hall] at hacquire
    exact Or.inr ⟨fun id hid => (hfree id).2 hid (hall id), hacquire⟩

/-- An allocator that is up to date stays so. -/
theorem Represents.later (h : a.Represents r clock) (hnow : clock ≤ now) : a.Represents r now :=
  { h with resting := fun call id granted time hcall =>
      (h.resting call id granted time hcall).imp_right fun hle => Nat.le_trans hle hnow }

end Allocator

/-! ## The steps of the calls -/

namespace Lease

open Allocator

variable {Call : Type} [DecidableEq Call] {s s' : State Call} {call : Call} {now : Instant}

/-- What a call can do in each of its phases. -/
inductive Moves (s : State Call) (call : Call) : Action → State Call → Prop where
  | found (mutex : Mutex Call) (hphase : s.phase call = .called) (hids : s.ids = some mutex) :
    Moves s call .get (s.enter call (.ready mutex.maker))
  | missed (hphase : s.phase call = .called) (hids : s.ids = none) : Moves s call .get (s.enter call .unset)
  | filled (seed : Except String (UInt8 × UInt8)) (allocator : Allocator) (hphase : s.phase call = .unset)
    (hnew : Allocator.new seed = .ok allocator) : Moves s call (.fill seed) (s.enter call (.seeded allocator))
  | unfilled (seed : Except String (UInt8 × UInt8)) (message : String) (hphase : s.phase call = .unset)
    (hnew : Allocator.new seed = .error message) : Moves s call (.fill seed) (s.enter call (.failed message))
  | overtaken (mutex : Mutex Call) (allocator : Allocator) (hphase : s.phase call = .seeded allocator)
    (hids : s.ids = some mutex) : Moves s call .getOrInit (s.enter call (.ready mutex.maker))
  | installed (allocator : Allocator) (hphase : s.phase call = .seeded allocator) (hids : s.ids = none) :
    Moves s call .getOrInit ({ s with ids := some ⟨call, false, allocator⟩ }.enter call (.ready call))
  | poisoned (mutex : Mutex Call) (now : Instant) (hphase : s.phase call = .ready mutex.maker) (hids : s.ids = some mutex)
    (hpoisoned : mutex.poisoned = true) :
    Moves s call (.lock now) (s.enter call (.failed "Echo identifier allocator poisoned"))
  | granted (mutex : Mutex Call) (now : Instant) (id : UInt16) (allocator : Allocator)
    (hphase : s.phase call = .ready mutex.maker) (hids : s.ids = some mutex) (hnow : s.clock ≤ now)
    (hacquire : mutex.allocator.acquire now = (.ok id, allocator)) :
    Moves s call (.lock now) ((s.store mutex allocator now).enter call (.live id now))
  | exhausted (mutex : Mutex Call) (now : Instant) (message : String) (allocator : Allocator)
    (hphase : s.phase call = .ready mutex.maker) (hids : s.ids = some mutex) (hnow : s.clock ≤ now)
    (hacquire : mutex.allocator.acquire now = (.error message, allocator)) :
    Moves s call (.lock now) ((s.store mutex allocator now).enter call (.failed message))
  | released (mutex : Mutex Call) (id : UInt16) (granted now : Instant) (hphase : s.phase call = .live id granted)
    (hids : s.ids = some mutex) (hnow : s.clock ≤ now) :
    Moves s call (.drop now) ((s.store mutex (mutex.allocator.release id now) now).enter call (.dropped id granted now))
  | lost (id : UInt16) (granted now : Instant) (hphase : s.phase call = .live id granted)
    (hids : ∀ mutex, s.ids = some mutex → mutex.poisoned = true) :
    Moves s call (.drop now) (s.enter call (.dropped id granted now))

/-- What a step of a call does. -/
theorem moves_of_step {action : Action} (h : step s (call, action) = some s') : Moves s call action s' := by
  unfold step at h
  simp only at h
  cases hphase : s.phase call with
  | called =>
    rw [hphase] at h
    cases action with
    | get =>
      cases hids : s.ids with
      | none =>
        simp only [hids] at h
        cases h
        exact .missed hphase hids
      | some mutex =>
        simp only [hids] at h
        cases h
        exact .found mutex hphase hids
    | _ => cases h
  | unset =>
    rw [hphase] at h
    cases action with
    | fill seed =>
      cases hnew : Allocator.new seed with
      | error message =>
        simp only [hnew] at h
        cases h
        exact .unfilled seed message hphase hnew
      | ok allocator =>
        simp only [hnew] at h
        cases h
        exact .filled seed allocator hphase hnew
    | _ => cases h
  | seeded allocator =>
    rw [hphase] at h
    cases action with
    | getOrInit =>
      cases hids : s.ids with
      | none =>
        simp only [hids] at h
        cases h
        exact .installed allocator hphase hids
      | some mutex =>
        simp only [hids] at h
        cases h
        exact .overtaken mutex allocator hphase hids
    | _ => cases h
  | ready maker =>
    rw [hphase] at h
    cases action with
    | lock now =>
      cases hids : s.ids with
      | none =>
        simp only [hids] at h
        cases h
      | some mutex =>
        simp only [hids] at h
        split at h
        · rename_i hguard
          obtain ⟨rfl, hnow⟩ := hguard
          split at h
          · rename_i hpoisoned
            cases h
            exact .poisoned mutex now hphase hids hpoisoned
          · rcases hacquire : mutex.allocator.acquire now with ⟨result, allocator⟩
            cases result with
            | ok id =>
              simp only [hacquire] at h
              cases h
              exact .granted mutex now id allocator hphase hids hnow hacquire
            | error message =>
              simp only [hacquire] at h
              cases h
              exact .exhausted mutex now message allocator hphase hids hnow hacquire
        · cases h
    | _ => cases h
  | live id granted =>
    rw [hphase] at h
    cases action with
    | drop now =>
      simp only at h
      split at h
      · rename_i hnow
        cases hids : s.ids with
        | none =>
          simp only [hids] at h
          cases h
          exact .lost id granted now hphase (fun mutex hmutex => by rw [hids] at hmutex; cases hmutex)
        | some mutex =>
          simp only [hids] at h
          split at h
          · rename_i hpoisoned
            cases h
            refine .lost id granted now hphase fun mutex' hmutex => ?_
            rw [hids] at hmutex
            cases hmutex
            exact hpoisoned
          · cases h
            exact .released mutex id granted now hphase hids hnow
      · cases h
    | _ => cases h
  | dropped id granted released =>
    rw [hphase] at h
    cases h
  | failed message =>
    rw [hphase] at h
    cases h

/-! ## What a step changes -/

@[simp] theorem phase_enter_self {phase : Phase Call} : (s.enter call phase).phase call = phase := Function.update_self ..

/-- A call does not move another one. -/
theorem phase_enter_of_ne {phase : Phase Call} {other : Call} (hne : other ≠ call) :
    (s.enter call phase).phase other = s.phase other := Function.update_of_ne hne ..

/-- Entering a phase changes the register at its call only. -/
theorem register_enter (s : State Call) (call : Call) (phase : Phase Call) :
    (s.enter call phase).register = Function.update s.register call phase.tenure := by
  funext other
  by_cases heq : other = call
  · subst heq
    rw [Function.update_self, State.register, phase_enter_self]
  · rw [Function.update_of_ne heq, State.register, phase_enter_of_ne heq, State.register]

/-- The phase of a call is the one entered, or was there before. -/
theorem phase_enter_cases {phase : Phase Call} {other : Call} {phase' : Phase Call}
    (h : (s.enter call phase).phase other = phase') : phase = phase' ∨ s.phase other = phase' := by
  by_cases heq : other = call
  · subst heq
    rw [phase_enter_self] at h
    exact Or.inl h
  · rw [phase_enter_of_ne heq] at h
    exact Or.inr h

omit [DecidableEq Call] in
/-- A tenure that has not stopped is a live lease. -/
theorem live_of_register {id : UInt16} {granted : Instant} (h : s.register call = some ⟨id, granted, none⟩) :
    s.phase call = .live id granted := by
  unfold State.register at h
  cases hphase : s.phase call <;> rw [hphase] at h <;> cases h
  rfl

omit [DecidableEq Call] in
/-- A tenure that has stopped is a dropped lease. -/
theorem dropped_of_register {id : UInt16} {granted released : Instant}
    (h : s.register call = some ⟨id, granted, some released⟩) : s.phase call = .dropped id granted released := by
  unfold State.register at h
  cases hphase : s.phase call <;> rw [hphase] at h <;> cases h
  rfl

/-- A step of a call leaves the other calls where they are. -/
theorem phase_of_moves {action : Action} {other : Call} (hmoves : Moves s call action s') (hne : other ≠ call) :
    s'.phase other = s.phase other := by
  cases hmoves <;> exact phase_enter_of_ne hne

/-- A call that has been granted an identifier keeps the record of it. -/
theorem register_of_moves {action : Action} {other : Call} {tenure : Tenure UInt16} (hmoves : Moves s call action s')
    (hother : s.register other = some tenure) : ∃ tenure', s'.register other = some tenure' ∧ tenure'.id = tenure.id := by
  by_cases heq : other = call
  · subst heq
    have hnone : ∀ {phase}, s.phase other = phase → phase.tenure = some tenure := by
      rintro phase rfl
      exact hother
    cases hmoves with
    | released mutex id granted now hphase hids hnow =>
      cases hnone hphase
      exact ⟨_, congrArg Phase.tenure phase_enter_self, rfl⟩
    | lost id granted now hphase hids =>
      cases hnone hphase
      exact ⟨_, congrArg Phase.tenure phase_enter_self, rfl⟩
    | found mutex hphase hids => cases hnone hphase
    | missed hphase hids => cases hnone hphase
    | filled seed allocator hphase hnew => cases hnone hphase
    | unfilled seed message hphase hnew => cases hnone hphase
    | overtaken mutex allocator hphase hids => cases hnone hphase
    | installed allocator hphase hids => cases hnone hphase
    | poisoned mutex now hphase hids hpoisoned => cases hnone hphase
    | granted mutex now id allocator hphase hids hnow hacquire => cases hnone hphase
    | exhausted mutex now message allocator hphase hids hnow hacquire => cases hnone hphase
  · exact ⟨tenure, (congrArg Phase.tenure (phase_of_moves hmoves heq)).trans hother, rfl⟩

/-! ## The invariant -/

/-- What holds in every state: the register is orderly, nothing is granted before `IDS` is set, every reference is to the mutex
that is in it, and the allocator there represents the register. -/
structure Inv (s : State Call) : Prop where
  orderly : s.register.Orderly quarantine s.clock
  unset : s.ids = none → ∀ call, s.register call = none
  seeded : ∀ call allocator, s.phase call = .seeded allocator → ∃ seed, Allocator.new seed = .ok allocator
  reference : ∀ call maker, s.phase call = .ready maker → ∃ mutex, s.ids = some mutex ∧ mutex.maker = maker
  mutex : ∀ mutex, s.ids = some mutex → mutex.poisoned = false ∧ mutex.allocator.Represents s.register s.clock

omit [DecidableEq Call] in
/-- The invariant holds at the start. -/
theorem Inv.init : Inv (Lease.init : State Call) where
  orderly := Register.Orderly.empty
  unset := fun _ _ => rfl
  seeded := nofun
  reference := nofun
  mutex := nofun

/-- A step that grants and releases nothing keeps the invariant. -/
theorem Inv.enter {phase : Phase Call} (h : Inv s) (htenure : phase.tenure = s.register call)
    (hseeded : ∀ allocator, phase = .seeded allocator → ∃ seed, Allocator.new seed = .ok allocator)
    (hready : ∀ maker, phase = .ready maker → ∃ mutex, s.ids = some mutex ∧ mutex.maker = maker) : Inv (s.enter call phase) := by
  have hregister : (s.enter call phase).register = s.register := by
    rw [register_enter, htenure, Function.update_eq_self]
  refine ⟨?_, fun hids => ?_, fun other allocator hphase => ?_, fun other maker hphase => ?_, fun mutex hids => ?_⟩
  · rw [hregister]
    exact h.orderly
  · rw [hregister]
    exact h.unset hids
  · rcases phase_enter_cases hphase with hphase | hphase
    · exact hseeded allocator hphase
    · exact h.seeded other allocator hphase
  · rcases phase_enter_cases hphase with hphase | hphase
    · exact hready maker hphase
    · exact h.reference other maker hphase
  · rw [hregister]
    exact h.mutex mutex hids

/-- A step under the lock keeps the invariant if the allocator comes to represent the register, and the register stays orderly. -/
theorem Inv.store {mutex : Mutex Call} {allocator : Allocator} {phase : Phase Call} (h : Inv s) (hids : s.ids = some mutex)
    (hseeded : ∀ allocator, phase ≠ .seeded allocator) (hready : ∀ maker, phase ≠ .ready maker)
    (horderly : Register.Orderly (Function.update s.register call phase.tenure) quarantine now)
    (hrep : allocator.Represents (Function.update s.register call phase.tenure) now) :
    Inv ((s.store mutex allocator now).enter call phase) := by
  have hregister : ((s.store mutex allocator now).enter call phase).register = Function.update s.register call phase.tenure :=
    register_enter ..
  refine ⟨?_, fun hnone => ?_, fun other allocator hphase => ?_, fun other maker hphase => ?_, fun mutex' hids' => ?_⟩
  · rw [hregister]
    exact horderly
  · cases hnone
  · rcases phase_enter_cases hphase with hphase | hphase
    · exact absurd hphase (hseeded allocator)
    · exact h.seeded other allocator hphase
  · rcases phase_enter_cases hphase with hphase | hphase
    · exact absurd hphase (hready maker)
    · obtain ⟨mutex', hmutex', hmaker⟩ := h.reference other maker hphase
      rw [hids] at hmutex'
      cases hmutex'
      exact ⟨_, rfl, hmaker⟩
  · rw [hregister]
    cases hids'
    exact ⟨(h.mutex mutex hids).1, hrep⟩

/-- Every step keeps the invariant. -/
theorem Inv.step {action : Action} (h : Inv s) (hmoves : Moves s call action s') : Inv s' := by
  have htenure : ∀ {phase}, s.phase call = phase → s.register call = phase.tenure := by
    rintro phase rfl
    rfl
  cases hmoves with
  | found mutex hphase hids =>
    refine h.enter (htenure hphase).symm nofun fun maker hmaker => ?_
    cases hmaker
    exact ⟨mutex, hids, rfl⟩
  | missed hphase hids => exact h.enter (htenure hphase).symm nofun nofun
  | filled seed allocator hphase hnew =>
    refine h.enter (htenure hphase).symm (fun allocator' heq => ?_) nofun
    cases heq
    exact ⟨seed, hnew⟩
  | unfilled seed message hphase hnew => exact h.enter (htenure hphase).symm nofun nofun
  | overtaken mutex allocator hphase hids =>
    refine h.enter (htenure hphase).symm nofun fun maker hmaker => ?_
    cases hmaker
    exact ⟨mutex, hids, rfl⟩
  | installed allocator hphase hids =>
    obtain ⟨seed, hnew⟩ := h.seeded call allocator hphase
    have hinstalled : Inv { s with ids := some ⟨call, false, allocator⟩ } := by
      refine ⟨h.orderly, nofun, h.seeded, fun other maker hother => ?_, fun mutex hmutex => ?_⟩
      · obtain ⟨mutex, hmutex, -⟩ := h.reference other maker hother
        rw [hids] at hmutex
        cases hmutex
      · cases hmutex
        exact ⟨rfl, .new hnew (h.unset hids)⟩
    refine hinstalled.enter (htenure hphase).symm nofun fun maker hmaker => ?_
    cases hmaker
    exact ⟨_, rfl, rfl⟩
  | poisoned mutex now hphase hids hpoisoned =>
    rw [(h.mutex mutex hids).1] at hpoisoned
    cases hpoisoned
  | granted mutex now id allocator hphase hids hnow hacquire =>
    rcases (h.mutex mutex hids).2.acquire_cases hnow with ⟨id', a', hacquire', ⟨hfree, -⟩, -, -, hrep⟩ | ⟨-, message, hacquire'⟩
    · rw [hacquire] at hacquire'
      cases hacquire'
      exact h.store hids nofun nofun (h.orderly.lend hnow hfree) (hrep call (htenure hphase))
    · rw [hacquire] at hacquire'
      cases hacquire'
  | exhausted mutex now message allocator hphase hids hnow hacquire =>
    have hrep := (h.mutex mutex hids).2
    rcases hrep.acquire_cases hnow with ⟨id', a', hacquire', -⟩ | ⟨-, message', hacquire'⟩
    · rw [hacquire] at hacquire'
      cases hacquire'
    · rw [hacquire] at hacquire'
      cases hacquire'
      have hsame : Function.update s.register call (Phase.failed message : Phase Call).tenure = s.register :=
        (congrArg _ (htenure hphase).symm).trans (Function.update_eq_self ..)
      refine h.store hids nofun nofun ?_ ?_
      · rw [hsame]
        exact h.orderly.later hnow
      · rw [hsame]
        exact hrep.later hnow
  | released mutex id granted now hphase hids hnow =>
    have hcall := htenure hphase
    have hback : Function.update s.register call (Phase.dropped id granted now : Phase Call).tenure =
        s.register.giveBack call now := by
      unfold Register.giveBack
      rw [hcall]
      rfl
    refine h.store hids nofun nofun ?_ ?_
    · rw [hback]
      exact h.orderly.giveBack hnow ⟨granted, hcall⟩
    · rw [hback]
      exact (h.mutex mutex hids).2.release h.orderly hnow hcall
  | lost id granted now hphase hids =>
    have hcall := htenure hphase
    cases hcell : s.ids with
    | none =>
      rw [h.unset hcell call] at hcall
      cases hcall
    | some mutex =>
      cases (h.mutex mutex hcell).1.symm.trans (hids mutex hcell)

/-- The invariant holds in every state that calls lead to. -/
theorem Inv.run {events : List (Call × Action)} (h : machine.run Lease.init events = some s) : Inv s :=
  Machine.run_invariant Inv.init (fun _ _ _ hinv hstep => hinv.step (moves_of_step hstep)) h

end Lease

end IcmpPing
