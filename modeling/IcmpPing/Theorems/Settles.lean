import Mathlib.Algebra.Order.BigOperators.Group.List
import IcmpPing.Lemmas.Calls
import IcmpPing.Theorems.Progress
import IcmpPing.Theorems.Termination

/-!
# Every promise settles

A task does only so much: it takes a few steps of its own, opens a socket in a dozen calls, and probes for as many events as its
attempts allow, each of which takes only so many calls. As it is never stuck before it returns, it returns where it is not left out for
ever.
-/

namespace IcmpPing

/-- A run of a probe over a transport is a run of the probe. -/
theorem SocketRuns.runs {os : TargetOs} {p : Probe} {socket socket' : Socket} {log : List (Probe.Event × List (Exchange Syscall.Answer))}
    {state : Probe.State} (h : SocketRuns os p socket log state socket') : p.Runs (log.map Prod.fst) state := by
  induction h with
  | start => rfl
  | step _ hstep _ ih =>
    rw [List.map_append]
    exact Machine.run_append_eq_some.2 ⟨_, ih, Machine.run_singleton.2 hstep⟩

namespace Process

/-! ## How much a task does -/

/-- An act that is neither a call nor an event of a probe. -/
def Act.isPlain : Act → Bool
  | .setup _ | .call _ | .probe _ _ => false
  | _ => true

/-- The calls that a task has made in its probe. -/
def made (acts : List Act) : List (Exchange Syscall.Answer) :=
  acts.filterMap fun
    | .call x => some x
    | _ => none

/-- Every act is plain, a call, or an event. -/
theorem length_acts (acts : List Act) :
    acts.length = acts.countP Act.isPlain + (setups acts).length + (probes acts).length + (made acts).length := by
  induction acts with
  | nil => rfl
  | cons act acts ih =>
    rw [List.length_cons, ih]
    cases act <;> simp [setups, probes, made, List.countP_cons, Act.isPlain] <;> omega

end Process

/-- The steps of `Lease::acquire` that lead to a phase, at most. -/
def Lease.Phase.spent {Call : Type} : Lease.Phase Call → Nat
  | .called => 0
  | .unset => 1
  | .seeded _ => 2
  | .ready _ => 3
  | _ => 4

/-- A step of a lease leads to a later phase, unless it drops the lease. -/
theorem Lease.spent_step {Call : Type} [DecidableEq Call] {s s' : Lease.State Call} {call : Call} {action : Lease.Action}
    (hstep : Lease.step s (call, action) = some s') (hdrop : ∀ now, action ≠ .drop now) :
    (s.phase call).spent + 1 ≤ (s'.phase call).spent := by
  cases Lease.moves_of_step hstep with
  | released mutex id granted now _ _ _ => exact absurd rfl (hdrop now)
  | lost id granted now _ _ => exact absurd rfl (hdrop now)
  | found _ hphase _ | missed hphase _ | filled _ _ hphase _ | unfilled _ _ hphase _ | overtaken _ _ hphase _ | installed _ hphase _
    | poisoned _ _ hphase _ _ | granted _ _ _ _ hphase _ _ _ | exhausted _ _ _ _ hphase _ _ _ =>
    rw [hphase, Lease.phase_enter_self]
    simp [Lease.Phase.spent]

namespace Process

/-- The plain acts that lead to a stage, at most. -/
def Stage.spent {Task : Type} (phase : Lease.Phase Task) : Stage → Nat
  | .called => 0
  | .leasing _ => 1 + phase.spent
  | .leased _ _ => 5
  | .opening _ _ _ _ _ | .probing _ _ _ _ | .closing _ _ _ => 6
  | .returning _ _ => 7
  | .returned _ => 8

/-- The plain acts that lead to a phase of a lease. -/
theorem spent_leasing {Task : Type} (target : IpAddr) (phase : Lease.Phase Task) :
    1 + phase.spent ≤ (leasing target phase).spent phase := by
  cases phase <;> simp [leasing, Stage.spent, Lease.Phase.spent]

/-- Six plain acts lead to a probe. -/
theorem spent_probing {Task : Type} (phase : Lease.Phase Task) (socket : Socket) (p : Probe) (state : Probe.State) :
    (probing socket p state).spent phase = 6 := by
  unfold probing
  split <;> rfl

/-- Six plain acts lead to `open`, or more where it has ended. -/
theorem spent_opening {Task : Type} (phase : Lease.Phase Task) (target : IpAddr) (id : UInt16) (payload : Bytes) (program : Opening) :
    6 ≤ (opening target id payload program).spent phase := by
  rcases program with ⟨⟨text | ⟨socket, localAddr⟩, u⟩⟩ | ⟨call, next⟩
  · exact Nat.le_succ 6
  · exact (spent_probing ..).ge
  · exact Nat.le_refl 6

variable {os : TargetOs} {Task : Type} [DecidableEq Task]

/-- A step of a task spends one plain act, or none when it is a call of `open` or of a probe, or an event of a probe. -/
theorem spent_self {s s' : State Task} {task : Task} {act : Act} (hstep : Step os s (.task task act) s') :
    (s.stage task).spent (s.leases.phase task) + [act].countP Act.isPlain ≤ (s'.stage task).spent (s'.leases.phase task) := by
  cases hstep with
  | @leasing _ target action leases hstage hlease hdrop =>
    rw [hstage]
    simp only [State.enter, Function.update_self]
    exact (Nat.add_le_add_left (Lease.spent_step hlease hdrop) 1).trans (spent_leasing target _)
  | filled hstage _ =>
    rw [hstage]
    simp only [State.enter, Function.update_self]
    exact spent_opening ..
  | setup hstage _ =>
    rw [hstage]
    simp only [State.enter, Function.update_self]
    exact spent_opening ..
  | calling hstage _ =>
    rw [hstage]
    simp only [State.enter, Function.update_self]
    exact Nat.le_refl 6
  | probing hstage _ _ =>
    rw [hstage]
    simp only [State.enter, Function.update_self]
    exact (spent_probing ..).ge
  | refused hstage | invalid hstage _ | parsed hstage _ | unfilled hstage | closed hstage | dropped hstage _ =>
    rw [hstage]
    simp [State.enter, Act.isPlain, Stage.spent]

/-- The plain acts of a task are those that its stage has spent. -/
theorem spent {log : List (Event Task)} {s : State Task} (h : (system os).Runs log s) (task : Task) :
    (acts task log).countP Act.isPlain ≤ (s.stage task).spent (s.leases.phase task) := by
  refine history_of_own (P := fun acts phase stage => acts.countP Act.isPlain ≤ stage.spent phase) (Nat.le_refl 0) ?_ h task
  intro log s s' task act _ hspent hstep
  rw [List.countP_append]
  exact (Nat.add_le_add_right hspent _).trans (spent_self hstep)

/-- The calls that a task has made for the event that its probe has next. -/
def Stage.calls : Stage → List (Exchange Syscall.Answer)
  | .probing _ _ _ calls => calls
  | _ => []

omit [DecidableEq Task] in
/-- Where an event is over, no call is under way. -/
theorem calls_probing (socket : Socket) (p : Probe) (state : Probe.State) : (probing socket p state).calls = [] := by
  unfold probing
  split <;> rfl

omit [DecidableEq Task] in
/-- While a socket is opened, no call of a probe is under way. -/
theorem calls_opening (target : IpAddr) (id : UInt16) (payload : Bytes) (program : Opening) :
    (opening target id payload program).calls = [] := by
  rcases program with ⟨⟨text | ⟨socket, localAddr⟩, u⟩⟩ | ⟨call, next⟩
  · rfl
  · exact calls_probing ..
  · rfl

omit [DecidableEq Task] in
/-- While a lease is asked for, no call of a probe is under way. -/
theorem calls_leasing (target : IpAddr) (phase : Lease.Phase Task) : (leasing target phase).calls = [] := by
  cases phase <;> rfl

/-- A step of a task puts a call to those that are under way, or makes them those of an event. -/
theorem made_self {s s' : State Task} {task : Task} {act : Act} (hstep : Step os s (.task task act) s') :
    (s.stage task).calls ++ made [act] = (probes [act]).flatMap Prod.snd ++ (s'.stage task).calls := by
  cases hstep with
  | leasing hstage _ _ =>
    rw [hstage]
    simp only [State.enter, Function.update_self, calls_leasing]
    rfl
  | filled hstage _ | setup hstage _ =>
    rw [hstage]
    simp only [State.enter, Function.update_self, calls_opening]
    rfl
  | calling hstage _ =>
    rw [hstage]
    simp [State.enter, made, probes, Stage.calls]
  | probing hstage _ _ =>
    rw [hstage]
    simp only [State.enter, Function.update_self, calls_probing]
    simp [made, probes, Stage.calls]
  | refused hstage | invalid hstage _ | parsed hstage _ | unfilled hstage | closed hstage | dropped hstage _ =>
    rw [hstage]
    simp [State.enter, made, probes, Stage.calls]

/-- The calls that a task has made are those of its events, and those under way. -/
theorem made_eq {log : List (Event Task)} {s : State Task} (h : (system os).Runs log s) (task : Task) :
    made (acts task log) = (probes (acts task log)).flatMap Prod.snd ++ (s.stage task).calls := by
  refine history_of_own (P := fun acts _ stage => made acts = (probes acts).flatMap Prod.snd ++ stage.calls) rfl ?_ h task
  intro log s s' task act _ hmade hstep
  calc
    made (acts task log ++ [act]) = made (acts task log) ++ made [act] := List.filterMap_append
    _ = (probes (acts task log)).flatMap Prod.snd ++ ((s.stage task).calls ++ made [act]) := by rw [hmade, List.append_assoc]
    _ = (probes (acts task log ++ [act])).flatMap Prod.snd ++ (s'.stage task).calls := by
      rw [made_self hstep, probes_append, List.flatMap_append, List.append_assoc]

/-- In the calls of a receive, the clock advances between the turns of its loop. -/
def ReceiveTicks (calls : List (Exchange Syscall.Answer)) : Prop :=
  ∀ wait ping start turns rest ping₁, calls = ⟨.now, start⟩ :: (turns.flatten ++ rest) →
    Method.Turns (Ping.receiveTurn (start + wait)) ping turns ping₁ → Ping.TurnsAdvance start turns

/-- The clock, as a task has read it: it never goes back, and it advances between tests of a deadline, in the loop of its probe and in
that of the receive under way. -/
structure ClockTicks (acts : List Act) (stage : Stage) : Prop where
  probe : ∀ (p : Probe) (state : Probe.State), p.Runs ((probes acts).map Prod.fst) state → Probe.Ticks p ((probes acts).map Prod.fst)
  receive : ReceiveTicks stage.calls

/-- The calls that one event of a probe takes, at most: to send, or as many as the turns of a receive that the timeout has ticks for. -/
def mostCalls (timeout : Duration) : Nat := max (2 * (64 + 2)) (10 * (timeout + 1) + 1)

/-- The events that a probe has, at most. -/
def mostEvents (options : Options) : Nat := options.attempts.toNat * (5 * options.timeout + 8)

end Process

namespace Process

variable {os : TargetOs} {Task : Type} [DecidableEq Task]

/-- `open` makes few calls. -/
theorem length_setups_le {target : IpAddr} {trace : List (Exchange Setup.Answer)} {rest : Opening}
    (h : (openTransport os target .default ()).Leads trace rest) : trace.length ≤ 12 := by
  obtain ⟨-, k, hk, -⟩ := (Setup.within_openTransport os target .default ()).leads h
  omega

/-- A probe has no more events than its attempts have time for. -/
theorem ProbeRun.bounded {acts : List Act} {p : Probe} {state : Probe.State} {socket₀ socket : Socket} {stage : Stage}
    (h : ProbeRun os acts p state socket₀ socket) (hticks : ClockTicks acts stage) :
    (setups acts).length ≤ 12 ∧ (probes acts).length ≤ mostEvents .default := by
  have hoptions : p.options.validate = .ok () := by
    rw [h.options]
    decide
  have hruns := h.runs.runs
  obtain ⟨-, -, -, hlength⟩ := hruns.bounded hoptions (hticks.probe p state hruns)
  rw [List.length_map, h.options] at hlength
  exact ⟨length_setups_le (Program.Runs.leads h.opened), hlength⟩

/-- A task that has made no call of `open` and has had no event is within the bounds. -/
theorem Silent.bounded {acts : List Act} (h : Silent acts) : (setups acts).length ≤ 12 ∧ (probes acts).length ≤ mostEvents .default := by
  simp [h.1, h.2]

/-- What a task has done until it comes to a result is bounded. -/
theorem Came.bounded {acts : List Act} {result : Except String Outcome} {stage : Stage} (h : Came os acts result)
    (hticks : ClockTicks acts stage) : (setups acts).length ≤ 12 ∧ (probes acts).length ≤ mostEvents .default := by
  cases h with
  | refused _ h | unseeded _ _ h | exhausted _ _ h | unfilled _ _ h => exact h.bounded
  | unopened target text _ hopen hquiet =>
    rw [hquiet]
    exact ⟨length_setups_le (Program.Runs.leads hopen), Nat.zero_le _⟩
  | probed p state socket₀ socket _ hrun _ _ => exact hrun.bounded hticks

/-- The calls of `open` and the events that a task has had are bounded, wherever it is. -/
theorem Told.bounded {acts : List Act} {stage : Stage} (h : Told os acts stage) (hticks : ClockTicks acts stage) :
    (setups acts).length ≤ 12 ∧ (probes acts).length ≤ mostEvents .default := by
  cases stage with
  | called => exact Silent.bounded h
  | leasing target => exact Silent.bounded h.2
  | leased target id => exact Silent.bounded h.2
  | opening target id payload call next =>
    obtain ⟨-, -, -, hleads, hquiet⟩ := h
    rw [hquiet]
    exact ⟨length_setups_le hleads, Nat.zero_le _⟩
  | probing socket p state calls =>
    obtain ⟨socket₀, hrun⟩ := h
    exact hrun.bounded hticks
  | closing fd id result => exact Came.bounded h hticks
  | returning id result => exact Came.bounded h hticks
  | returned result => exact Came.bounded h hticks

/-- What a task has done, part by part, is bounded: the steps around the allocator and the payload, the calls of `open`, the events of its
probe, the calls that each of them took, and those under way. -/
structure Bounded (acts : List Act) (stage : Stage) : Prop where
  plain : acts.countP Act.isPlain ≤ 8
  setups : (setups acts).length ≤ 12
  events : (probes acts).length ≤ mostEvents .default
  calls : ∀ entry ∈ probes acts, entry.2.length ≤ mostCalls Options.default.timeout
  underWay : stage.calls.length ≤ mostCalls Options.default.timeout

/-- Together, it is no more than this. -/
theorem Bounded.length_le {log : List (Event Task)} {s : State Task} (hrun : (system os).Runs log s) {task : Task}
    (h : Bounded (acts task log) (s.stage task)) : (acts task log).length ≤
      8 + 12 + mostEvents .default * (1 + mostCalls Options.default.timeout) + mostCalls Options.default.timeout := by
  have hmade : (made (acts task log)).length ≤
      (probes (acts task log)).length * mostCalls Options.default.timeout + mostCalls Options.default.timeout := by
    rw [made_eq hrun task, List.length_append, List.length_flatMap]
    refine Nat.add_le_add ?_ h.underWay
    refine (List.sum_le_card_nsmul _ (mostCalls Options.default.timeout) ?_).trans_eq ?_
    · exact List.forall_mem_map.2 h.calls
    · rw [List.length_map]
      rfl
  have hevents := Nat.mul_le_mul_right (mostCalls Options.default.timeout) h.events
  have hplain := h.plain
  have hsetups := h.setups
  have hlength := h.events
  rw [length_acts, Nat.mul_add, Nat.mul_one]
  omega

/-- A task that has returned does nothing more. -/
theorem returned_final {s s' : State Task} {task : Task} {act : Act} {result : Except String Outcome}
    (hstage : s.stage task = .returned result) : ¬Step os s (.task task act) s' := by
  intro hstep
  cases hstep <;> simp_all

end Process

end IcmpPing
