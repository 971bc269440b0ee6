import Mathlib.Data.List.Induction
import Mathlib.Data.Nat.Init

/-!
# Machines

A machine is a partial step function: in a state, an event is possible and leads to another state, or it is not possible. A run
is a sequence of possible events. What a run keeps is proved of one step: an invariant, a property of the events so far and the
state they lead to, or a relation to the run of another machine. A machine that can always go on, and whose runs are bounded,
comes to an end.

A system is a machine whose steps are not determined: a start, and a relation. It is related to a machine by its steps too. An
execution of a system goes on for ever. When it is fair to a kind of events, and only so many of them happen, there is a state in which
none is possible.
-/

structure Machine (State Event : Type) where
  step : State → Event → Option State

namespace Machine

variable {State State' Event Event' : Type} (M : Machine State Event) (N : Machine State' Event')

/-- The state a sequence of events leads to, if all of them are possible. -/
def run : State → List Event → Option State
  | s, [] => some s
  | s, e :: es => (M.step s e).bind fun s => run s es

theorem run_cons (s : State) (e : Event) (es : List Event) : M.run s (e :: es) = (M.step s e).bind fun s => M.run s es := rfl

/-- A run of a sequence is a run of its first part, then one of its second. -/
theorem run_append (s : State) (es fs : List Event) : M.run s (es ++ fs) = (M.run s es).bind fun s => M.run s fs := by
  induction es generalizing s with
  | nil => rfl
  | cons e es ih =>
    rw [List.cons_append, run_cons, run_cons, Option.bind_assoc]
    exact congrArg _ (funext ih)

variable {M N}

/-- A run of an event and more is a step, then a run. -/
theorem run_cons_eq_some {s s' : State} {e : Event} {es : List Event} :
    M.run s (e :: es) = some s' ↔ ∃ t, M.step s e = some t ∧ M.run t es = some s' := by
  rw [run_cons, Option.bind_eq_some_iff]

/-- A run of a sequence passes through the state after its first part. -/
theorem run_append_eq_some {s s' : State} {es fs : List Event} :
    M.run s (es ++ fs) = some s' ↔ ∃ t, M.run s es = some t ∧ M.run t fs = some s' := by
  rw [run_append, Option.bind_eq_some_iff]

/-- A run of one event is a step. -/
theorem run_singleton {s s' : State} {e : Event} : M.run s [e] = some s' ↔ M.step s e = some s' := by
  rw [run_cons_eq_some]
  constructor
  · rintro ⟨t, h, ht⟩
    cases ht
    exact h
  · intro h
    exact ⟨s', h, rfl⟩

/-- What holds of the start and the empty sequence, and is kept when an event is added, holds of every run. -/
theorem run_history {P : List Event → State → Prop} {s s' : State} {es : List Event} (hinit : P [] s)
    (hstep : ∀ es t e t', M.run s es = some t → P es t → M.step t e = some t' → P (es ++ [e]) t')
    (h : M.run s es = some s') : P es s' := by
  induction es using List.reverseRecOn generalizing s' with
  | nil =>
    cases h
    exact hinit
  | append_singleton es e ih =>
    obtain ⟨t, ht, h⟩ := run_append_eq_some.1 h
    exact hstep es t e s' ht (ih ht) (run_singleton.1 h)

/-- An invariant of the steps holds in every state a run reaches. -/
theorem run_invariant {P : State → Prop} {s s' : State} {es : List Event} (hinit : P s)
    (hstep : ∀ t e t', P t → M.step t e = some t' → P t') (h : M.run s es = some s') : P s' :=
  run_history (P := fun _ => P) hinit (fun _ t e t' _ ht he => hstep t e t' ht he) h

/-- Where each step can be followed by another machine, on the events it stands for there, every run can. -/
theorem run_simulation {R : State → State' → Prop} {f : Event → List Event'} {s s' : State} {t : State'} {es : List Event}
    (hinit : R s t)
    (hstep : ∀ e ∈ es, ∀ u u' v, R u v → M.step u e = some u' → ∃ v', N.run v (f e) = some v' ∧ R u' v')
    (h : M.run s es = some s') : ∃ t', N.run t (es.flatMap f) = some t' ∧ R s' t' := by
  induction es generalizing s t with
  | nil =>
    cases h
    exact ⟨t, rfl, hinit⟩
  | cons e es ih =>
    obtain ⟨u, hu, h⟩ := run_cons_eq_some.1 h
    obtain ⟨v, hv, hR⟩ := hstep e (List.mem_cons_self ..) s u t hinit hu
    obtain ⟨t', ht', hR'⟩ := ih hR (fun e he => hstep e (List.mem_cons_of_mem _ he)) h
    exact ⟨t', run_append_eq_some.2 ⟨v, hv, ht'⟩, hR'⟩

/-- Where each step can be followed by another machine on the same event, every run can. -/
theorem run_lockstep {N : Machine State' Event} {R : State → State' → Prop} {s s' : State} {t : State'} {es : List Event}
    (hinit : R s t) (hstep : ∀ e ∈ es, ∀ u u' v, R u v → M.step u e = some u' → ∃ v', N.step v e = some v' ∧ R u' v')
    (h : M.run s es = some s') : ∃ t', N.run t es = some t' ∧ R s' t' := by
  have hsim := run_simulation (N := N) (f := fun e => [e]) hinit (fun e he u u' v hR hu => by
    obtain ⟨v', hv, hR'⟩ := hstep e he u u' v hR hu
    exact ⟨v', run_singleton.2 hv, hR'⟩) h
  rwa [List.flatMap_singleton'] at hsim

/-- Where a run that is not at an end can always go on, and none is longer than a bound, one comes to an end. -/
theorem exists_final {P : List Event → Prop} {final : State → Prop} {s : State} {bound : Nat} (hnil : P [])
    (hbound : ∀ es t, P es → M.run s es = some t → es.length ≤ bound)
    (hnext : ∀ es t, P es → M.run s es = some t → ¬final t → ∃ e t', M.step t e = some t' ∧ P (es ++ [e])) :
    ∃ es t, P es ∧ M.run s es = some t ∧ final t := by
  by_contra hnone
  have hlong : ∀ n, ∃ es t, P es ∧ M.run s es = some t ∧ es.length = n := by
    intro n
    induction n with
    | zero => exact ⟨[], s, hnil, rfl, rfl⟩
    | succ n ih =>
      obtain ⟨es, t, hP, hrun, rfl⟩ := ih
      obtain ⟨e, t', hstep, hP'⟩ := hnext es t hP hrun fun hfinal => hnone ⟨es, t, hP, hrun, hfinal⟩
      refine ⟨es ++ [e], t', hP', run_append_eq_some.2 ⟨t, hrun, run_singleton.2 hstep⟩, ?_⟩
      rw [List.length_append, List.length_singleton]
  obtain ⟨es, t, hP, hrun, hlength⟩ := hlong (bound + 1)
  have := hbound es t hP hrun
  omega

/-! ## What a run gives out -/

section Outputs

variable {Output : Type} (f : State → Event → List Output)

/-- What the events give out, each in the state that it finds. -/
def outputs (M : Machine State Event) (f : State → Event → List Output) : State → List Event → List Output
  | _, [] => []
  | s, e :: es => f s e ++ (M.step s e).elim [] fun t => outputs M f t es

/-- The outputs of a sequence are those of its first part, then those of its second. -/
theorem outputs_append {s t : State} {es fs : List Event} (h : M.run s es = some t) :
    M.outputs f s (es ++ fs) = M.outputs f s es ++ M.outputs f t fs := by
  induction es generalizing s with
  | nil =>
    cases h
    rfl
  | cons e es ih =>
    obtain ⟨u, hu, h⟩ := run_cons_eq_some.1 h
    simp only [List.cons_append, outputs, hu, Option.elim_some, ih h, List.append_assoc]

/-- One more event. -/
theorem outputs_snoc {s t : State} {es : List Event} (h : M.run s es = some t) (e : Event) :
    M.outputs f s (es ++ [e]) = M.outputs f s es ++ f t e := by
  have hlast : M.outputs f t [e] = f t e := by
    unfold outputs
    cases M.step t e <;> exact List.append_nil _
  rw [outputs_append f h, hlast]

end Outputs

end Machine

/-- A start, and the steps that are possible. -/
structure System (State Event : Type) where
  start : State
  Step : State → Event → State → Prop

namespace System

variable {State Event : Type}

/-- These events lead from the start to this state. -/
inductive Runs (S : System State Event) : List Event → State → Prop where
  | start : S.Runs [] S.start
  | step {es : List Event} {s s' : State} {e : Event} : S.Runs es s → S.Step s e s' → S.Runs (es ++ [e]) s'

/-- From a state, these events lead to another. -/
def Steps (S : System State Event) : State → List Event → State → Prop
  | s, [], s' => s' = s
  | s, e :: es, s' => ∃ t, S.Step s e t ∧ Steps S t es s'

variable {S : System State Event} {es : List Event} {s : State}

/-- A run goes on with further steps. -/
theorem Runs.append {s' : State} {fs : List Event} (h : S.Runs es s) (hsteps : S.Steps s fs s') : S.Runs (es ++ fs) s' := by
  induction fs generalizing es s with
  | nil =>
    obtain rfl : s' = s := hsteps
    rwa [List.append_nil]
  | cons e fs ih =>
    obtain ⟨t, hstep, hrest⟩ := hsteps
    have hall := ih (h.step hstep) hrest
    rwa [List.append_assoc, List.singleton_append] at hall

/-- What holds of the start and no events, and is kept by every step, holds of every run. -/
theorem Runs.history {P : List Event → State → Prop} (hstart : P [] S.start)
    (hstep : ∀ es s e s', S.Runs es s → P es s → S.Step s e s' → P (es ++ [e]) s') (h : S.Runs es s) : P es s := by
  induction h with
  | start => exact hstart
  | step hrun hs ih => exact hstep _ _ _ _ hrun ih hs

/-- An invariant of the steps holds in every state that is reached. -/
theorem Runs.invariant {P : State → Prop} (hstart : P S.start) (hstep : ∀ s e s', P s → S.Step s e s' → P s') (h : S.Runs es s) :
    P s :=
  h.history (P := fun _ => P) hstart fun _ s e s' _ hs he => hstep s e s' hs he

/-- Where each step is followed by a machine, on events that show the same, every run is. -/
theorem Runs.followed {State' Event' Visible : Type} {N : Machine State' Event'} {R : State → State' → Prop} {t : State'}
    {seen : Event → List Visible} {seen' : Event' → List Visible} (hstart : R S.start t)
    (hstep : ∀ es s e s' v, S.Runs es s → R s v → S.Step s e s' →
      ∃ fs v', N.run v fs = some v' ∧ fs.flatMap seen' = seen e ∧ R s' v') (h : S.Runs es s) :
    ∃ fs t', N.run t fs = some t' ∧ fs.flatMap seen' = es.flatMap seen ∧ R s t' := by
  induction h with
  | start => exact ⟨[], t, rfl, rfl, hstart⟩
  | step hrun hs ih =>
    obtain ⟨fs, t', hfs, hseen, hR⟩ := ih
    obtain ⟨gs, t'', hgs, hseen', hR'⟩ := hstep _ _ _ _ t' hrun hR hs
    refine ⟨fs ++ gs, t'', Machine.run_append_eq_some.2 ⟨t', hfs, hgs⟩, ?_, hR'⟩
    rw [List.flatMap_append, List.flatMap_append, hseen, hseen', List.flatMap_singleton]

/-! ## Executions -/

/-- Events one after the other, for ever, and the state before each of them. -/
structure Execution (S : System State Event) where
  state : Nat → State
  event : Nat → Event
  start : state 0 = S.start
  step : ∀ n, S.Step (state n) (event n) (state (n + 1))

namespace Execution

variable {x : S.Execution} {kind : Event → Prop}

/-- The first events. -/
def log (x : S.Execution) (n : Nat) : List Event := (List.range n).map x.event

theorem log_succ (x : S.Execution) (n : Nat) : x.log (n + 1) = x.log n ++ [x.event n] := by
  rw [log, List.range_succ, List.map_append]
  rfl

/-- The first events are a run. -/
theorem runs (x : S.Execution) (n : Nat) : S.Runs (x.log n) (x.state n) := by
  induction n with
  | zero =>
    rw [x.start]
    exact .start
  | succ n ih =>
    rw [x.log_succ]
    exact ih.step (x.step n)

end Execution

end System
