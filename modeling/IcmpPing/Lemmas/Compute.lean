import IcmpPing.Compute
import IcmpPing.Lemmas.Identifier
import IcmpPing.Lemmas.Message
import IcmpPing.Lemmas.Probe

/-!
# The tasks of a process

What a step of a task can be, and what connects the stage of a task, its lease and the requests it has sent.
-/

namespace IcmpPing

/-- The identifier of a live lease. -/
def Lease.Phase.lease {Call : Type} : Lease.Phase Call → Option UInt16
  | .live id _ => some id
  | _ => none

namespace Compute

/-- The lease a task has yet to drop. -/
def Stage.lease : Stage → Option UInt16
  | .leased _ id => some id
  | .filled _ id _ => some id
  | .probing _ p _ => some p.leased
  | .returning id _ => some id
  | _ => none

variable {Task : Type} [DecidableEq Task] {s s' : State Task} {task other : Task}

/-! ## The steps -/

/-- The steps of a task, one rule for each way it can go on. -/
inductive Moves (s : State Task) (task : Task) : Action → State Task → Prop where
  | refused (hstage : s.stage task = .called) : Moves s task (.parse none) (s.enter task (.returned
      (.error "Expected an IPv4 or IPv6 literal; hostnames and scoped addresses are not accepted")))
  | parsed (target : IpAddr) (hstage : s.stage task = .called) :
    Moves s task (.parse (some target)) (s.enter task (.leasing target))
  | leasing (target : IpAddr) (action : Lease.Action) (leases : Lease.State Task) (hstage : s.stage task = .leasing target)
    (hstep : Lease.step s.leases (task, action) = some leases) (hdrop : ∀ now, action ≠ .drop now) :
    Moves s task (.lease action) ({ s with leases := leases }.enter task (leasing target (leases.phase task)))
  | unfilled (target : IpAddr) (id : UInt16) (message : String) (hstage : s.stage task = .leased target id) :
    Moves s task (.fill (.error message)) (s.enter task (.returning id (.error ("ICMP random payload: " ++ message))))
  | filled (target : IpAddr) (id : UInt16) (payload : Bytes) (hstage : s.stage task = .leased target id)
    (hlength : payload.length = Options.default.payloadSize) :
    Moves s task (.fill (.ok payload)) (s.enter task (.filled target id payload))
  | unopened (target : IpAddr) (id : UInt16) (payload : Bytes) (message : String)
    (hstage : s.stage task = .filled target id payload) :
    Moves s task (.opened (.error message)) (s.enter task (.returning id (.error message)))
  | opened (target : IpAddr) (id : UInt16) (payload : Bytes) (transport : Transport) (localAddr : IpAddr) (p : Probe)
    (hstage : s.stage task = .filled target id payload) (hleased : p.leased = id)
    (hidentifier : p.identifier = transport.identifier) :
    Moves s task (.opened (.ok (transport, localAddr))) (s.enter task (probing transport p p.init))
  | probing (transport : Transport) (p : Probe) (state state' : Probe.State) (e : Probe.Event)
    (hstage : s.stage task = .probing transport p state) (hjudges : transport.Judges e) (hstep : p.step state e = some state') :
    Moves s task (.probe e) (s.enter task (probing transport p state'))
  | dropped (id : UInt16) (result : Except String Outcome) (now : Instant) (leases : Lease.State Task)
    (hstage : s.stage task = .returning id result) (hstep : Lease.step s.leases (task, .drop now) = some leases) :
    Moves s task (.drop now) ({ s with leases := leases }.enter task (.returned result))

/-- What a step of a task does. -/
theorem moves_of_step {action : Action} (h : step s (task, action) = some s') : Moves s task action s' := by
  unfold step at h
  simp only at h
  cases hstage : s.stage task with
  | called =>
    rw [hstage] at h
    cases action with
    | parse address =>
      cases address with
      | none =>
        cases h
        exact .refused hstage
      | some target =>
        have hvalid : Options.default.validate = .ok () := by decide
        simp only [hvalid] at h
        cases h
        exact .parsed target hstage
    | _ => cases h
  | leasing target =>
    rw [hstage] at h
    cases action with
    | lease action =>
      have hcases : ∀ {leases}, (∀ now, action ≠ .drop now) →
          (Lease.step s.leases (task, action)).map (fun leases =>
            { s with leases := leases }.enter task (Compute.leasing target (leases.phase task))) = some leases →
          Moves s task (.lease action) leases := by
        intro _ hdrop hmap
        obtain ⟨leases, hstep, rfl⟩ := Option.map_eq_some_iff.1 hmap
        exact .leasing target action leases hstage hstep hdrop
      cases action with
      | drop now => cases h
      | _ => exact hcases nofun h
    | _ => cases h
  | leased target id =>
    rw [hstage] at h
    cases action with
    | fill payload =>
      cases payload with
      | error message =>
        cases h
        exact .unfilled target id message hstage
      | ok payload =>
        simp only at h
        split at h
        · rename_i hlength
          cases h
          exact .filled target id payload hstage hlength
        · cases h
    | _ => cases h
  | filled target id payload =>
    rw [hstage] at h
    cases action with
    | opened result =>
      cases result with
      | error message =>
        cases h
        exact .unopened target id payload message hstage
      | ok result =>
        cases h
        exact .opened target id payload result.1 result.2 _ hstage rfl rfl
    | _ => cases h
  | probing transport p state =>
    rw [hstage] at h
    cases action with
    | probe e =>
      simp only at h
      split at h
      · rename_i hjudges
        obtain ⟨state', hstep, rfl⟩ := Option.map_eq_some_iff.1 h
        exact .probing transport p state state' e hstage hjudges hstep
      · cases h
    | _ => cases h
  | returning id result =>
    rw [hstage] at h
    cases action with
    | drop now =>
      obtain ⟨leases, hstep, rfl⟩ := Option.map_eq_some_iff.1 h
      exact .dropped id result now leases hstage hstep
    | _ => cases h
  | returned result =>
    rw [hstage] at h
    cases h

/-! ## Leases -/

@[simp] theorem stage_enter_self (s : State Task) (task : Task) (stage : Stage) : (s.enter task stage).stage task = stage :=
  Function.update_self ..

/-- A task does not move another one. -/
theorem stage_enter_of_ne (s : State Task) (stage : Stage) (hne : other ≠ task) :
    (s.enter task stage).stage other = s.stage other := Function.update_of_ne hne ..

/-- The steps of leases that a step of a task makes. -/
def leaseEvents : Task × Action → List (Task × Lease.Action)
  | (task, .lease action) => [(task, action)]
  | (task, .drop now) => [(task, .drop now)]
  | _ => []

/-- A step of a task makes one step of its lease, or none. -/
theorem leases_of_moves {action : Action} (h : Moves s task action s') :
    (leaseEvents (task, action) = [] ∧ s'.leases = s.leases) ∨ ∃ leaseAction, leaseEvents (task, action) = [(task, leaseAction)] ∧
      Lease.step s.leases (task, leaseAction) = some s'.leases := by
  cases h with
  | leasing target action leases hstage hstep hdrop => exact Or.inr ⟨action, rfl, hstep⟩
  | dropped id result now leases hstage hstep => exact Or.inr ⟨.drop now, rfl, hstep⟩
  | _ => exact Or.inl ⟨rfl, rfl⟩

/-- The leases of the tasks go through a run of their own. -/
theorem leases_run {es : List (Task × Action)} (h : machine.run init es = some s) :
    Lease.machine.run Lease.init (es.flatMap leaseEvents) = some s.leases := by
  have hsim : ∀ e ∈ es, ∀ (u u' : State Task) (v : Lease.State Task), u.leases = v → machine.step u e = some u' →
      ∃ v', Lease.machine.run v (leaseEvents e) = some v' ∧ u'.leases = v' := by
    rintro ⟨task, action⟩ _ u u' _ rfl hstep
    refine ⟨u'.leases, ?_, rfl⟩
    rcases leases_of_moves (moves_of_step hstep) with ⟨hevents, hleases⟩ | ⟨leaseAction, hevents, hleases⟩
    · rw [hevents, hleases]
      rfl
    · rw [hevents]
      exact Machine.run_singleton.2 hleases
  obtain ⟨leases, hrun, rfl⟩ := Machine.run_simulation (R := fun s leases => s.leases = leases) rfl hsim h
  exact hrun

/-- A task has the lease its call has been granted, until it has dropped it, and probes with it. -/
structure Inv (s : State Task) : Prop where
  held : ∀ task, (s.stage task).lease = (s.leases.phase task).lease
  identifier : ∀ task transport p state, s.stage task = .probing transport p state → p.identifier = transport.identifier

omit [DecidableEq Task] in
/-- The invariant holds at the start. -/
theorem Inv.init : Inv (init : State Task) where
  held _ := rfl
  identifier _ _ _ _ h := by cases h

/-- A step of a task keeps the invariant if its new stage agrees with its lease. -/
theorem Inv.enter {t : State Task} {stage : Stage} (h : Inv s) (hstages : t.stage = s.stage)
    (hothers : ∀ other, other ≠ task → t.leases.phase other = s.leases.phase other)
    (hlease : stage.lease = (t.leases.phase task).lease)
    (hprobing : ∀ transport p state, stage = .probing transport p state → p.identifier = transport.identifier) :
    Inv (t.enter task stage) := by
  refine ⟨fun other => ?_, fun other transport p state hstage => ?_⟩
  · by_cases heq : other = task
    · subst heq
      rw [stage_enter_self, hlease]
      rfl
    · rw [stage_enter_of_ne _ _ heq, hstages]
      exact (h.held other).trans (congrArg _ (hothers other heq).symm)
  · by_cases heq : other = task
    · subst heq
      rw [stage_enter_self] at hstage
      exact hprobing transport p state hstage
    · rw [stage_enter_of_ne _ _ heq, hstages] at hstage
      exact h.identifier other transport p state hstage

omit [DecidableEq Task] in
/-- While the lease is asked for, the stage has the lease of its phase. -/
theorem lease_leasing (target : IpAddr) (phase : Lease.Phase Task) : (leasing target phase).lease = phase.lease := by
  cases phase <;> rfl

/-- While it probes, a task has the lease of its probe. -/
theorem lease_probing (transport : Transport) (p : Probe) (state : Probe.State) :
    (probing transport p state).lease = some p.leased := by
  unfold probing
  split <;> rfl

/-- A task that goes on probing keeps its transport and its probe. -/
theorem probing_eq {transport transport' : Transport} {p p' : Probe} {state state' : Probe.State}
    (h : probing transport p state = .probing transport' p' state') : transport = transport' ∧ p = p' ∧ state = state' := by
  unfold probing at h
  split at h
  · cases h
  · cases h
    exact ⟨rfl, rfl, rfl⟩

/-- Every step keeps the invariant. -/
theorem Inv.step {action : Action} (h : Inv s) (hmoves : Moves s task action s') : Inv s' := by
  have hlease : ∀ {stage stage' : Stage}, s.stage task = stage → stage'.lease = stage.lease →
      stage'.lease = (s.leases.phase task).lease := by
    rintro stage stage' rfl hsame
    exact hsame.trans (h.held task)
  cases hmoves with
  | refused hstage => exact h.enter rfl (fun _ _ => rfl) (hlease hstage rfl) fun _ _ _ heq => by cases heq
  | parsed target hstage => exact h.enter rfl (fun _ _ => rfl) (hlease hstage rfl) fun _ _ _ heq => by cases heq
  | leasing target action leases hstage hstep hdrop =>
    refine h.enter rfl (fun _ hne => Lease.phase_of_moves (Lease.moves_of_step hstep) hne) (lease_leasing ..) fun _ _ _ heq => ?_
    cases hphase : leases.phase task <;> rw [hphase] at heq <;> cases heq
  | unfilled target id message hstage => exact h.enter rfl (fun _ _ => rfl) (hlease hstage rfl) fun _ _ _ heq => by cases heq
  | filled target id payload hstage hlength => exact h.enter rfl (fun _ _ => rfl) (hlease hstage rfl) fun _ _ _ heq => by cases heq
  | unopened target id payload message hstage => exact h.enter rfl (fun _ _ => rfl) (hlease hstage rfl) fun _ _ _ heq => by cases heq
  | opened target id payload transport localAddr p hstage hleased hidentifier =>
    refine h.enter rfl (fun _ _ => rfl) ?_ fun transport' p' state' heq => ?_
    · refine hlease hstage ?_
      rw [lease_probing, hleased]
      rfl
    · obtain ⟨rfl, rfl, -⟩ := probing_eq heq
      exact hidentifier
  | probing transport p state state' e hstage hjudges hstep =>
    refine h.enter rfl (fun _ _ => rfl) ?_ fun transport' p' state' heq => ?_
    · exact hlease hstage (lease_probing ..)
    · obtain ⟨rfl, rfl, -⟩ := probing_eq heq
      exact h.identifier task _ _ state hstage
  | dropped id result now leases hstage hstep =>
    have hmoves := Lease.moves_of_step hstep
    refine h.enter rfl (fun _ hne => Lease.phase_of_moves hmoves hne) ?_ fun _ _ _ heq => by cases heq
    cases hmoves <;> rw [Lease.phase_enter_self] <;> rfl

/-- The invariant holds in every state that tasks lead to. -/
theorem Inv.run {es : List (Task × Action)} (h : machine.run Compute.init es = some s) : Inv s :=
  Machine.run_invariant Inv.init (fun _ _ _ hinv hstep => hinv.step (moves_of_step hstep)) h

omit [DecidableEq Task] in
/-- A task that has a lease to drop holds it. -/
theorem Inv.live {id : UInt16} (h : Inv s) (hlease : (s.stage task).lease = some id) :
    ∃ granted, s.leases.phase task = .live id granted := by
  rw [h.held task] at hlease
  cases hphase : s.leases.phase task with
  | live id' granted =>
    rw [hphase] at hlease
    cases hlease
    exact ⟨granted, rfl⟩
  | _ =>
    rw [hphase] at hlease
    cases hlease

/-! ## Requests -/

/-- Every socket that is opened is a raw one. -/
def OverRaw (es : List (Task × Action)) : Prop :=
  ∀ task transport localAddr, (task, Action.opened (.ok (transport, localAddr))) ∈ es → transport = .raw

/-- A task that has sent this packet can be here: its probe has it for a request, or is over. -/
def Stage.HasSent (packet : Bytes) : Stage → Prop
  | .probing _ p _ => ∃ seq, p.request seq = .ok packet
  | .returning _ _ => True
  | .returned _ => True
  | _ => False

/-- What the steps so far tell of the tasks: their sockets are raw, and what a task has sent are requests with the identifier that
it has been granted. -/
structure History (es : List (Task × Action)) (s : State Task) : Prop where
  raw : ∀ task transport p state, s.stage task = .probing transport p state → transport = .raw
  sent : ∀ task packet target result, (task, Action.probe (.sent packet target result)) ∈ es →
    (s.stage task).HasSent packet ∧ ∃ tenure seq, s.leases.register task = some tenure ∧ HasEcho packet tenure.id seq

/-- Over a raw socket a request shows the identifier of the lease. -/
theorem hasEcho_request {p : Probe} {seq : UInt16} {packet : Bytes} (hidentifier : p.identifier = Transport.raw.identifier)
    (h : p.request seq = .ok packet) : HasEcho packet p.leased seq := by
  have hid : p.id = p.leased := by
    unfold Probe.id
    rw [hidentifier]
    rfl
  rw [eq_requestBytes_of_echo h, hid]
  exact hasEcho_echoMessage ..

/-- A task that probes can have sent the requests of its probe. -/
theorem hasSent_probing {transport : Transport} {p : Probe} {state : Probe.State} {packet : Bytes} {seq : UInt16}
    (h : p.request seq = .ok packet) : (probing transport p state).HasSent packet := by
  unfold probing
  split
  · exact trivial
  · exact ⟨seq, h⟩

/-- A task goes on from a stage where it can have sent a packet only to another one. -/
theorem hasSent_of_moves {action : Action} {packet : Bytes} (h : Moves s task action s') (hsent : (s.stage task).HasSent packet) :
    (s'.stage task).HasSent packet := by
  have hgone : ∀ {stage}, s.stage task = stage → stage.HasSent packet := by
    rintro _ rfl
    exact hsent
  cases h with
  | probing transport p state state' e hstage hjudges hstep =>
    obtain ⟨seq, hrequest⟩ := hgone hstage
    rw [stage_enter_self]
    exact hasSent_probing hrequest
  | dropped id result now leases hstage hstep =>
    rw [stage_enter_self]
    exact trivial
  | refused hstage => exact (hgone hstage).elim
  | parsed target hstage => exact (hgone hstage).elim
  | leasing target action leases hstage hstep hdrop => exact (hgone hstage).elim
  | unfilled target lease message hstage => exact (hgone hstage).elim
  | filled target lease payload hstage hlength => exact (hgone hstage).elim
  | unopened target lease payload message hstage => exact (hgone hstage).elim
  | opened target lease payload transport localAddr p hstage hleased hidentifier => exact (hgone hstage).elim

/-- A step of one task leaves the stages of the others. -/
theorem stage_of_moves {action : Action} (h : Moves s task action s') (hne : other ≠ task) :
    s'.stage other = s.stage other := by
  cases h <;> exact stage_enter_of_ne _ _ hne

/-- A task that has been granted an identifier keeps the record of it. -/
theorem register_of_moves {action : Action} {tenure : Tenure UInt16} (h : Moves s task action s')
    (hother : s.leases.register other = some tenure) :
    ∃ tenure', s'.leases.register other = some tenure' ∧ tenure'.id = tenure.id := by
  rcases leases_of_moves h with ⟨-, hleases⟩ | ⟨leaseAction, -, hstep⟩
  · rw [hleases]
    exact ⟨tenure, hother, rfl⟩
  · exact Lease.register_of_moves (Lease.moves_of_step hstep) hother

/-- Every step keeps what the steps tell. -/
theorem History.step {es : List (Task × Action)} {action : Action} (hinv : Inv s) (h : History es s)
    (hraw : OverRaw (es ++ [(task, action)])) (hmoves : Moves s task action s') : History (es ++ [(task, action)]) s' := by
  refine ⟨fun other transport p state hstage => ?_, fun other packet target result hmem => ?_⟩
  · by_cases heq : other = task
    · subst heq
      cases hmoves with
      | probing transport' p' state₀ state' e hstage₀ hjudges hstep =>
        rw [stage_enter_self] at hstage
        obtain ⟨rfl, -, -⟩ := probing_eq hstage
        exact h.raw other _ p' state₀ hstage₀
      | opened target id payload transport' localAddr p' hstage₀ hleased hidentifier =>
        rw [stage_enter_self] at hstage
        obtain ⟨rfl, -, -⟩ := probing_eq hstage
        exact hraw other _ localAddr (List.mem_append_right _ (List.mem_singleton_self _))
      | leasing target action leases hstage₀ hstep hdrop =>
        rw [stage_enter_self] at hstage
        cases hphase : leases.phase other <;> rw [hphase] at hstage <;> cases hstage
      | _ =>
        rw [stage_enter_self] at hstage
        cases hstage
    · rw [stage_of_moves hmoves heq] at hstage
      exact h.raw other transport p state hstage
  · rcases List.mem_append.1 hmem with hmem | hmem
    · obtain ⟨hsent, tenure, seq, htenure, hecho⟩ := h.sent other packet target result hmem
      obtain ⟨tenure', htenure', hid⟩ := register_of_moves hmoves htenure
      refine ⟨?_, tenure', seq, htenure', by rwa [hid]⟩
      by_cases heq : other = task
      · subst heq
        exact hasSent_of_moves hmoves hsent
      · rwa [stage_of_moves hmoves heq]
    · cases List.mem_singleton.1 hmem
      cases hmoves with
      | probing transport p state state' e hstage hjudges hstep =>
        have hrequest : ∃ seq, p.request seq = .ok packet := by
          cases Probe.moves_of_step hstep with
          | sent b seq start packet hpacket => exact ⟨seq, hpacket⟩
          | sendFailed b seq start packet error hpacket => exact ⟨seq, hpacket⟩
        obtain ⟨seq, hrequest⟩ := hrequest
        obtain rfl := h.raw task transport p state hstage
        have hlease : (s.stage task).lease = some p.leased := congrArg Stage.lease hstage
        obtain ⟨granted, hlive⟩ := hinv.live hlease
        rw [stage_enter_self]
        exact ⟨hasSent_probing hrequest, ⟨p.leased, granted, none⟩, seq, congrArg Lease.Phase.tenure hlive,
          hasEcho_request (hinv.identifier task .raw p state hstage) hrequest⟩

/-- What the steps of every run over raw sockets tell. -/
theorem History.run {es : List (Task × Action)} (hraw : OverRaw es) (h : machine.run Compute.init es = some s) :
    History es s := by
  have hhistory : OverRaw es → History es s := by
    refine Machine.run_history (P := fun es s => OverRaw es → History es s) ?_ (fun es t e t' hrun ih hstep hraw => ?_) h
    · exact fun _ => ⟨fun _ _ _ _ hstage => (by cases hstage), fun _ _ _ _ hmem => (by cases hmem)⟩
    · refine (ih fun task transport localAddr hmem => ?_).step (Inv.run hrun) hraw (moves_of_step hstep)
      exact hraw task transport localAddr (List.mem_append_left _ hmem)
  exact hhistory hraw

end Compute

end IcmpPing
