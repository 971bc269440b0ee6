import IcmpPing.Lemmas.Process

/-!
# The tasks of a process

Every interleaving of the tasks is one of `Compute`. No call is made on a descriptor that was closed or is another's, and a task has
closed its descriptors when its lease is dropped.
-/

namespace IcmpPing

namespace Process

variable {Task : Type} [DecidableEq Task]

/-- The descriptors that a task makes its next calls with. -/
def Stage.uses : Stage → Finset Fd
  | .opening _ _ _ call _ => Setup.handling.uses call
  | .probing socket _ _ _ => {socket.fd}
  | .closing fd _ _ => {fd}
  | _ => ∅

/-- A run of the process, call by call, is a run of `Compute`: with the same leases, stages and results, and with the same steps but
for the opening of sockets, which is one step there. -/
theorem process_refines (os : TargetOs) (log : List (Event Task)) (s : State Task) (hrun : (system os).Runs log s) :
    ∃ es t, Compute.machine.run Compute.init es = some t ∧ es.flatMap shownByCompute = log.flatMap shown ∧ t.leases = s.leases ∧
      ∀ task, t.stage task = (s.stage task).toCompute := by
  obtain ⟨es, hes, hshown⟩ := followed hrun
  exact ⟨es, s.toCompute, hes, hshown, rfl, fun _ => rfl⟩

/-- A task alone has opened a raw socket, and a route socket besides. -/
def sampleOpened : List (Event Unit) :=
  [.parse (some (.v4 ⟨192, 0, 2, 2⟩)), .lease .get, .lease (.fill (.ok (0x12, 0x34))), .lease .getOrInit, .lease (.lock (10 : Nat)),
    .fill (.ok (List.replicate 56 7)), .setup ⟨.socket true .raw, .ok 3⟩, .setup ⟨.setTtlV4 3 64, .ok ()⟩,
    .setup ⟨.udpBind ⟨.v4 ⟨0, 0, 0, 0⟩, 0⟩, .ok 4⟩].map fun act => .task () act

omit [DecidableEq Task] in
/-- A descriptor that no one has is fresh. -/
theorem fresh_of_free {s : State Task} {x : Exchange Setup.Answer} (fd : Fd) (hhands : Setup.handling.hands x = {fd})
    (hfree : s.fds fd = none) : ∀ fd ∈ Setup.handling.hands x, s.fds fd = none := by
  intro fd' hfd
  rw [hhands] at hfd
  rwa [Finset.mem_singleton.1 hfd]

/-- A run that opens a raw socket. -/
theorem runs_sampleOpened : ∃ s, (system .linux).Runs sampleOpened s ∧ (s.stage ()).uses = {4} := by
  have hsteps : ∃ s, (system .linux).Steps init sampleOpened s ∧ (s.stage ()).uses = {4} := by
    refine ⟨_, ⟨_, .parsed rfl rfl, _, .leasing rfl rfl nofun, _, .leasing rfl rfl nofun, _, .leasing rfl rfl nofun, _,
      .leasing rfl rfl nofun, _, .filled rfl rfl, _, .setup rfl ?_, _, .setup rfl nofun, _, .setup rfl ?_, rfl⟩, rfl⟩
    · exact fresh_of_free 3 rfl rfl
    · exact fresh_of_free 4 rfl rfl
  obtain ⟨s, hsteps, huses⟩ := hsteps
  exact ⟨s, System.Runs.start.append hsteps, huses⟩

theorem process_refines_sample : ∃ es t, Compute.machine.run Compute.init es = some t ∧
    es.flatMap shownByCompute = sampleOpened.flatMap shown := by
  obtain ⟨s, hrun, -⟩ := runs_sampleOpened
  obtain ⟨es, t, hes, hshown, -⟩ := process_refines .linux sampleOpened s hrun
  exact ⟨es, t, hes, hshown⟩

/-! ## Descriptors -/

/-- What a task makes its next calls with is what it holds. -/
theorem Stage.Owns.uses_subset {stage : Stage} {held : Finset Fd} (h : stage.Owns held) : stage.uses ⊆ held := by
  cases stage with
  | opening target id payload call next => exact h.1
  | probing socket p state calls =>
    obtain rfl : held = {socket.fd} := h
    exact Finset.Subset.refl _
  | closing fd id result =>
    obtain rfl : held = {fd} := h
    exact Finset.Subset.refl _
  | _ => exact Finset.empty_subset _

/-- A task that holds a descriptor has yet to drop its lease. -/
theorem Stage.Owns.leased {stage : Stage} {held : Finset Fd} (h : stage.Owns held) (hheld : held.Nonempty) :
    ∃ id, stage.toCompute.lease = some id := by
  cases stage with
  | opening target id payload call next => exact ⟨id, rfl⟩
  | probing socket p state calls => exact ⟨p.leased, rfl⟩
  | closing fd id result => exact ⟨id, rfl⟩
  | _ =>
    obtain rfl : held = ∅ := h
    exact absurd rfl hheld.ne_empty

/-- In every interleaving, and with whatever else opens and closes descriptors in the process: every call is made on descriptors that
were opened for its task and are open; a task holds two at most, its socket alone while it probes, and none once its promise settles;
it holds its lease as long as it holds a descriptor; and nothing that others do changes what it holds. -/
theorem descriptors_owned (os : TargetOs) (log : List (Event Task)) (s : State Task) (hrun : (system os).Runs log s) (task : Task) :
    (∀ fd ∈ (s.stage task).uses, s.fds fd = some (.task task)) ∧ ∃ held : Finset Fd, s.Holds task held ∧ held.card ≤ 2 ∧
      (∀ socket p state calls, s.stage task = .probing socket p state calls → held = {socket.fd}) ∧
      (∀ result, s.stage task = .returned result → held = ∅) ∧
      (held.Nonempty → ∃ id granted, s.leases.phase task = .live id granted) ∧
      ∀ e s', Step os s e s' → (∀ act, e ≠ .task task act) → s'.Holds task held := by
  have howning := Owning.run hrun
  obtain ⟨held, hholds, hcard, howns⟩ := howning task
  refine ⟨fun fd hfd => (hholds fd).2 (howns.uses_subset hfd), held, hholds, hcard, ?_, ?_, ?_, ?_⟩
  · intro socket p state calls hstage
    rw [hstage] at howns
    exact howns
  · intro result hstage
    rw [hstage] at howns
    exact howns
  · intro hheld
    obtain ⟨id, hid⟩ := howns.leased hheld
    obtain ⟨granted, hlive⟩ := (held_of_runs hrun).live hid
    exact ⟨id, granted, hlive⟩
  · intro e s' hstep hother
    exact holds_of_step howning hstep hother hholds

theorem descriptors_owned_sample : ∃ s : State Unit, (system .linux).Runs sampleOpened s ∧ s.fds 4 = some (.task ()) := by
  obtain ⟨s, hrun, huses⟩ := runs_sampleOpened
  refine ⟨s, hrun, (descriptors_owned .linux sampleOpened s hrun ()).1 4 ?_⟩
  rw [huses]
  exact Finset.mem_singleton_self 4

end Process

end IcmpPing
