import IcmpPing.Lemmas.Identifier

/-!
# Leases

However the calls of `Lease::acquire` and the drops of their leases are interleaved, no two live leases have one identifier, and an
identifier rests for 60 seconds before it is granted again.
-/

namespace IcmpPing

namespace Lease

open Allocator

variable {Call : Type} [DecidableEq Call]

/-- An identifier is granted only when every release of it is 60 seconds old. -/
theorem quarantine_le_of_granted {s s' : State Call} {call call' : Call} {action : Action} {id : UInt16}
    {now granted released : Instant} (hinv : Inv s) (hmoves : Moves s call action s')
    (hafter : s'.phase call = .live id now) (hdropped : s.phase call' = .dropped id granted released) :
    quarantine ≤ durationSince now released := by
  cases hmoves with
  | granted mutex now' id' allocator hphase hids hnow hacquire =>
    rw [phase_enter_self] at hafter
    cases hafter
    rcases (hinv.mutex mutex hids).2.acquire_cases hnow with ⟨id', a', hacquire', ⟨hfree, -⟩, -⟩ | ⟨-, message, hacquire'⟩
    · rw [hacquire] at hacquire'
      cases hacquire'
      obtain ⟨_, hstop, hle⟩ := hfree call' _ (congrArg Phase.tenure hdropped) rfl
      cases hstop
      exact Nat.le_of_not_lt fun hlt => Nat.not_le.2 (durationSince_lt_quarantine.1 hlt) hle
    · rw [hacquire] at hacquire'
      cases hacquire'
  | _ =>
    rw [phase_enter_self] at hafter
    cases hafter

/-- A step leaves the allocator in `IDS`, or acquires or releases an identifier there. -/
theorem ids_of_moves {s s' : State Call} {call : Call} {action : Action} {mutex : Mutex Call} (hmoves : Moves s call action s')
    (hids : s.ids = some mutex) : ∃ allocator, s'.ids = some { mutex with allocator := allocator } ∧
      (allocator = mutex.allocator ∨ ∃ now, allocator = (mutex.allocator.acquire now).2 ∨
        ∃ id, allocator = mutex.allocator.release id now) := by
  have hsame : ∀ {phase}, (s.enter call phase).ids = some { mutex with allocator := mutex.allocator } := fun {_} => hids
  cases hmoves with
  | installed allocator hphase hnone =>
    rw [hids] at hnone
    cases hnone
  | granted mutex' now id allocator hphase hids' hnow hacquire =>
    rw [hids] at hids'
    cases hids'
    exact ⟨allocator, rfl, Or.inr ⟨now, Or.inl (by rw [hacquire])⟩⟩
  | exhausted mutex' now message allocator hphase hids' hnow hacquire =>
    rw [hids] at hids'
    cases hids'
    exact ⟨allocator, rfl, Or.inr ⟨now, Or.inl (by rw [hacquire])⟩⟩
  | released mutex' id granted now hphase hids' hnow =>
    rw [hids] at hids'
    cases hids'
    exact ⟨_, rfl, Or.inr ⟨now, Or.inr ⟨id, rfl⟩⟩⟩
  | _ => exact ⟨_, hsame, Or.inl rfl⟩

/-- A call that has a reference can take the lock at any later time. -/
theorem can_lock {s : State Call} {call maker : Call} {now : Instant} (hinv : Inv s) (hphase : s.phase call = .ready maker)
    (hnow : s.clock ≤ now) : ∃ s', step s (call, .lock now) = some s' := by
  obtain ⟨mutex, hids, hmaker⟩ := hinv.reference call maker hphase
  have hpoisoned := (hinv.mutex mutex hids).1
  rcases hacquire : mutex.allocator.acquire now with ⟨result, allocator⟩
  cases result with
  | ok id => exact ⟨_, by simp only [step, hphase, hids, hmaker, hnow, and_self, if_true, hpoisoned, hacquire]; rfl⟩
  | error message => exact ⟨_, by simp only [step, hphase, hids, hmaker, hnow, and_self, if_true, hpoisoned, hacquire]; rfl⟩

/-- Uniqueness and quarantine of leases. The invariant, that what is occupied is what is held or, apart from that, in the queue,
and that the queue holds no identifier twice and is in the order of release, holds at the start and is kept by every step. In
every state that steps lead to, no two live leases have one identifier; an identifier is granted only 60 seconds after any release
of it; a seed that cannot be filled leaves `IDS` as it was; once `IDS` is set, a step does nothing to its allocator but acquire
or release an identifier; and every reference a call has got is to the mutex in `IDS`, whose lock it can take. -/
theorem leases_unique :
    (Inv (init : State Call) ∧ ∀ (s s' : State Call) (e : Call × Action), Inv s → step s e = some s' → Inv s') ∧
    ∀ (events : List (Call × Action)) (s : State Call), machine.run init events = some s →
      (∀ call call' id granted granted', s.phase call = .live id granted → s.phase call' = .live id granted' → call = call') ∧
      (∀ call action s' id now, step s (call, action) = some s' → s'.phase call = .live id now →
        ∀ call' granted released, s.phase call' = .dropped id granted released → fromSecs 60 ≤ durationSince now released) ∧
      (∀ call e s', step s (call, .fill (.error e)) = some s' → s'.ids = s.ids) ∧
      (∀ mutex call action s', s.ids = some mutex → step s (call, action) = some s' →
        ∃ allocator, s'.ids = some { mutex with allocator := allocator } ∧
          (allocator = mutex.allocator ∨ ∃ now, allocator = (mutex.allocator.acquire now).2 ∨
            ∃ id, allocator = mutex.allocator.release id now)) ∧
      (∀ call maker, s.phase call = .ready maker → (∃ mutex, s.ids = some mutex ∧ mutex.maker = maker) ∧
        ∀ now, s.clock ≤ now → ∃ s', step s (call, .lock now) = some s') := by
  refine ⟨⟨Inv.init, fun s s' e hinv hstep => hinv.step (moves_of_step hstep)⟩, fun events s hrun => ?_⟩
  have hinv := Inv.run hrun
  refine ⟨?_, ?_, ?_, ?_, ?_⟩
  · intro call call' id granted granted' hcall hcall'
    exact hinv.orderly.holds_unique ⟨granted, congrArg Phase.tenure hcall⟩ ⟨granted', congrArg Phase.tenure hcall'⟩
  · intro call action s' id now hstep hafter call' granted released hdropped
    exact quarantine_le_of_granted hinv (moves_of_step hstep) hafter hdropped
  · intro call e s' hstep
    cases moves_of_step hstep with
    | filled seed allocator hphase hnew => cases hnew
    | unfilled seed message hphase hnew => rfl
  · intro mutex call action s' hids hstep
    exact ids_of_moves (moves_of_step hstep) hids
  · intro call maker hphase
    exact ⟨hinv.reference call maker hphase, fun now hnow => can_lock hinv hphase hnow⟩

/-- Two calls find `IDS` unset and fill a seed each; the first to reach `get_or_init` sets it. -/
def sampleRace : List (Bool × Action) :=
  [(false, .get), (true, .get), (false, .fill (.ok (1, 2))), (true, .fill (.ok (3, 4))), (false, .getOrInit),
    (true, .getOrInit), (true, .lock 5), (false, .lock 6), (true, .drop 7)]

theorem leases_unique_sample : ∃ s : State Bool, machine.run init sampleRace = some s ∧ s.phase false = .live 259 6 ∧
    s.phase true = .dropped 258 5 7 ∧ ∀ call granted, s.phase call = .live 259 granted → call = false := by
  have hrun : (machine.run init sampleRace).map (fun s => (s.phase false, s.phase true)) =
      some (.live 259 6, .dropped 258 5 7) := by decide +kernel
  obtain ⟨s, hs, hphases⟩ := Option.map_eq_some_iff.1 hrun
  obtain ⟨hfalse, htrue⟩ := Prod.mk.inj hphases
  exact ⟨s, hs, hfalse, htrue, fun call granted hcall => (leases_unique.2 sampleRace s hs).1 call false 259 granted 6 hcall hfalse⟩

end Lease

end IcmpPing
