import IcmpPing.Lemmas.Compute
import IcmpPing.Lemmas.Ping
import IcmpPing.Lemmas.Raw
import IcmpPing.Lemmas.Setup
import IcmpPing.Process

/-!
# The process, its tasks and its descriptors

A run of the process is followed by one of the tasks as `Compute` has them, which takes the opening of a socket as one step. A task
holds the descriptors that its calls are made with, and no one else closes them.
-/

namespace IcmpPing

/-- What `Compute` knows of a transport. -/
def Socket.transport : Socket → Transport
  | .raw _ => .raw
  | .ping _ transport => .ping transport.id

/-- The identifier that a socket shows is that of its transport. -/
theorem Socket.identifier_transport (socket : Socket) : socket.identifier = socket.transport.identifier := by
  cases socket <;> rfl

/-- Serving an event leaves the descriptor and the identifier. -/
theorem Socket.Serves.kept {os : TargetOs} {socket socket' : Socket} {calls : List (Exchange Syscall.Answer)} {e : Probe.Event}
    (h : socket.Serves os calls socket' e) : socket'.fd = socket.fd ∧ socket'.transport = socket.transport := by
  cases h with
  | raw _ => exact ⟨rfl, rfl⟩
  | ping hserves => exact ⟨rfl, congrArg Transport.ping (congrArg Prod.fst hserves.socket_eq)⟩

/-- A socket that serves a judgement judges as its transport does. -/
theorem Socket.Serves.judges {os : TargetOs} {socket socket' : Socket} {calls : List (Exchange Syscall.Answer)} {e : Probe.Event}
    (h : socket.Serves os calls socket' e) : socket.transport.Judges e := by
  cases h with
  | ping _ => exact trivial
  | raw hserves =>
    cases e with
    | judged bytes source expected reply => exact hserves.2
    | _ => exact trivial

namespace Process

/-! ## The tasks as `Compute` has them -/

/-- A socket that is not open yet is one step away. -/
def Stage.toCompute : Stage → Compute.Stage
  | .called => .called
  | .leasing target => .leasing target
  | .leased target id => .leased target id
  | .opening target id payload _ _ => .filled target id payload
  | .probing socket p state _ => .probing socket.transport p state
  | .closing _ id result => .returning id result
  | .returning id result => .returning id result
  | .returned result => .returned result

variable {Task : Type}

def State.toCompute (s : State Task) : Compute.State Task where
  leases := s.leases
  stage task := (s.stage task).toCompute

/-- What an event shows of itself to `Compute`: not the calls. -/
def shown : Event Task → List (Task × Compute.Action)
  | .task task (.parse address) => [(task, .parse address)]
  | .task task (.lease action) => [(task, .lease action)]
  | .task task (.fill payload) => [(task, .fill payload)]
  | .task task (.probe e _) => [(task, .probe e)]
  | .task task (.drop now) => [(task, .drop now)]
  | _ => []

/-- What shows of a step of `Compute`: not that a socket is open. -/
def shownByCompute : Task × Compute.Action → List (Task × Compute.Action)
  | (_, .opened _) => []
  | e => [e]

variable [DecidableEq Task]

/-- Entering a stage of the process is entering the stage it stands for. -/
theorem toCompute_enter (s : State Task) (task : Task) (stage : Stage) :
    (s.enter task stage).toCompute = s.toCompute.enter task stage.toCompute := by
  refine congrArg (Compute.State.mk s.leases) (funext fun other => ?_)
  exact Function.apply_update (fun _ => Stage.toCompute) ..

omit [DecidableEq Task] in
/-- The stages of a lease stand for those of the tasks. -/
theorem toCompute_leasing (target : IpAddr) (phase : Lease.Phase Task) :
    (leasing target phase).toCompute = Compute.leasing target phase := by
  cases phase <;> rfl

/-- The stages of a probe stand for those of the tasks. -/
theorem toCompute_probing (socket : Socket) (p : Probe) (state : Probe.State) :
    (probing socket p state).toCompute = Compute.probing socket.transport p state := by
  unfold probing Compute.probing
  cases state.point <;> rfl

/-- A task that goes on to a stage that is the same for `Compute` does nothing there. -/
theorem enter_of_stage {t : Compute.State Task} {task : Task} {stage : Compute.Stage} (hstage : t.stage task = stage) :
    t.enter task stage = t := by
  refine congrArg (Compute.State.mk t.leases) ?_
  rw [← hstage, Function.update_eq_self]

/-- What a program leaves of `open` is nothing, or one step of `Compute`. -/
theorem followed_opening {t : Compute.State Task} {task : Task} {target : IpAddr} {id : UInt16} {payload : Bytes}
    (hstage : t.stage task = .filled target id payload) (program : Opening) :
    ∃ es, Compute.machine.run t es = some (t.enter task (opening target id payload program).toCompute) ∧
      es.flatMap shownByCompute = [] := by
  cases program with
  | ask call next =>
    refine ⟨[], ?_, rfl⟩
    exact congrArg some (enter_of_stage hstage).symm
  | ret value =>
    obtain ⟨result, s'⟩ := value
    cases result with
    | error message =>
      refine ⟨[(task, .opened (.error message))], Machine.run_singleton.2 ?_, rfl⟩
      simp only [Compute.machine, Compute.step, hstage]
      rfl
    | ok value =>
      obtain ⟨socket, localAddr⟩ := value
      refine ⟨[(task, .opened (.ok (socket.transport, localAddr)))], Machine.run_singleton.2 ?_, rfl⟩
      simp only [Compute.machine, Compute.step, hstage, opening, toCompute_probing, probeOf, socket.identifier_transport]

/-- A step of the process is followed by steps of `Compute` that show the same. -/
theorem followed_step {os : TargetOs} {s s' : State Task} {e : Event Task} (h : Step os s e s') :
    ∃ es, Compute.machine.run s.toCompute es = some s'.toCompute ∧ es.flatMap shownByCompute = shown e := by
  have hone : ∀ {x : Task × Compute.Action} {t : Compute.State Task}, Compute.step s.toCompute x = some t →
      Compute.machine.run s.toCompute [x] = some t := fun h => Machine.run_singleton.2 h
  have hto : ∀ {task : Task} {stage : Stage}, s.stage task = stage → s.toCompute.stage task = stage.toCompute :=
    fun hstage => congrArg Stage.toCompute hstage
  have hvalid : Options.default.validate = .ok () := by decide
  cases h with
  | refused hstage =>
    refine ⟨[(_, .parse none)], hone ?_, rfl⟩
    simp only [Compute.step, hto hstage, toCompute_enter]
    rfl
  | invalid hstage hinvalid =>
    rw [hvalid] at hinvalid
    cases hinvalid
  | @parsed task target hstage hvalid =>
    refine ⟨[(_, .parse (some target))], hone ?_, rfl⟩
    simp only [Compute.step, hto hstage, toCompute_enter, Stage.toCompute, hvalid]
  | @leasing task target action leases hstage hstep hdrop =>
    refine ⟨[(_, .lease action)], hone ?_, rfl⟩
    have hmap : (Lease.step s.toCompute.leases (task, action)).map (fun leases =>
        { s.toCompute with leases := leases }.enter task (Compute.leasing target (leases.phase task))) =
        some (({ s with leases := leases }.enter task (leasing target (leases.phase task))).toCompute) := by
      rw [toCompute_enter, toCompute_leasing]
      exact congrArg (Option.map _) hstep
    cases action with
    | drop now => exact absurd rfl (hdrop now)
    | _ =>
      simp only [Compute.step, hto hstage, Stage.toCompute]
      exact hmap
  | @unfilled task target id message hstage =>
    refine ⟨[(_, .fill (.error message))], hone ?_, rfl⟩
    simp only [Compute.step, hto hstage, toCompute_enter, Stage.toCompute]
  | @filled task target id payload hstage hlength =>
    have hfill : Compute.step s.toCompute (task, .fill (.ok payload)) = some (s.toCompute.enter task (.filled target id payload)) := by
      simp only [Compute.step, hto hstage, Stage.toCompute, hlength, if_true]
    obtain ⟨es, hrun, hshown⟩ := followed_opening (t := s.toCompute.enter task (.filled target id payload))
      (Function.update_self ..) (openTransport os target .default ())
    refine ⟨(task, .fill (.ok payload)) :: es, Machine.run_cons_eq_some.2 ⟨_, hfill, ?_⟩, congrArg (_ :: ·) hshown⟩
    rw [hrun, toCompute_enter]
    refine congrArg some (congrArg (Compute.State.mk s.leases) ?_)
    exact Function.update_idem ..
  | @setup task target id payload call next answer hstage hfresh =>
    obtain ⟨es, hrun, hshown⟩ := followed_opening (hto hstage) (next answer)
    refine ⟨es, ?_, hshown⟩
    rw [hrun, toCompute_enter]
    rfl
  | @calling task socket p state calls call answer hstage hasks =>
    refine ⟨[], congrArg some ?_, rfl⟩
    rw [toCompute_enter]
    exact (enter_of_stage (hto hstage)).symm
  | @probing task socket socket' p state state' e calls hstage hserves hstep =>
    refine ⟨[(_, .probe e)], hone ?_, rfl⟩
    rw [toCompute_enter, toCompute_probing, hserves.kept.2]
    simp only [Compute.step, hto hstage, Stage.toCompute, if_pos hserves.judges, hstep, Option.map_some]
  | @closed task fd id result hstage =>
    refine ⟨[], congrArg some ?_, rfl⟩
    rw [toCompute_enter]
    exact (enter_of_stage (hto hstage)).symm
  | @dropped task id result now leases hstage hstep =>
    have hdrop : Lease.step s.toCompute.leases (task, .drop now) = some leases := hstep
    refine ⟨[(_, .drop now)], hone ?_, rfl⟩
    rw [toCompute_enter]
    simp only [Compute.step, hto hstage, Stage.toCompute, hdrop, Option.map_some]
    rfl
  | opens _ => exact ⟨[], rfl, rfl⟩
  | closes _ => exact ⟨[], rfl, rfl⟩

/-- A run of the process is followed by a run of `Compute` that shows the same. -/
theorem followed {os : TargetOs} {log : List (Event Task)} {s : State Task} (h : (system os).Runs log s) :
    ∃ es, Compute.machine.run Compute.init es = some s.toCompute ∧ es.flatMap shownByCompute = log.flatMap shown := by
  have hstep : ∀ es u (e : Event Task) u' v, (system os).Runs es u → v = u.toCompute → (system os).Step u e u' →
      ∃ fs v', Compute.machine.run v fs = some v' ∧ fs.flatMap shownByCompute = shown e ∧ v' = u'.toCompute := by
    rintro _ u e u' _ _ rfl hstep
    obtain ⟨fs, hrun, hshown⟩ := followed_step hstep
    exact ⟨fs, _, hrun, hshown, rfl⟩
  obtain ⟨es, _, hrun, hshown, rfl⟩ := h.followed (R := fun s t => t = s.toCompute) rfl hstep
  exact ⟨es, hrun, hshown⟩

/-- A task has the lease that its stage says. -/
theorem held_of_runs {os : TargetOs} {log : List (Event Task)} {s : State Task} (h : (system os).Runs log s) :
    Compute.Inv s.toCompute := by
  obtain ⟨es, hrun, -⟩ := followed h
  exact Compute.Inv.run hrun

/-- The leases of a process satisfy their invariant. -/
theorem leases_of_runs {os : TargetOs} {log : List (Event Task)} {s : State Task} (h : (system os).Runs log s) : Lease.Inv s.leases := by
  obtain ⟨es, hrun, -⟩ := followed h
  exact Lease.Inv.run (Compute.leases_run hrun)

/-! ## Descriptors -/

/-- The descriptors that are open for a task. -/
def State.Holds (s : State Task) (task : Task) (held : Finset Fd) : Prop := ∀ fd, s.fds fd = some (.task task) ↔ fd ∈ held

/-- What a task holds agrees with its stage. -/
def Stage.Owns : Stage → Finset Fd → Prop
  | .opening _ _ _ call next, held => (Program.ask call next : Opening).Owns Setup.handling 2 held fun result held' =>
    Setup.Handed (fun value => value.1.fd) result.1 held'
  | .probing socket _ _ _, held => held = {socket.fd}
  | .closing fd _ _, held => held = {fd}
  | _, held => held = ∅

/-- Every task holds what agrees with its stage, and no more than two descriptors. -/
def Owning (s : State Task) : Prop := ∀ task, ∃ held : Finset Fd, s.Holds task held ∧ held.card ≤ 2 ∧ (s.stage task).Owns held

/-- Closing a descriptor hands none out. -/
theorem hands_close (fd : Fd) : Setup.handling.hands ⟨.close fd, ()⟩ = ∅ := rfl

/-- Closing gives back the only descriptor. -/
theorem after_close (fd : Fd) : Setup.handling.after {fd} ⟨.close fd, ()⟩ = ∅ := by
  rw [Handling.after_of_handless _ (hands_close fd)]
  exact Finset.sdiff_self _

section Exchange

variable {s : State Task} {task other : Task} {held : Finset Fd} {x : Exchange Setup.Answer}

omit [DecidableEq Task] in
/-- A call that is made with what the task holds leaves it what is held after. -/
theorem holds_exchange (h : s.Holds task held) :
    (s.exchange (.task task) x).Holds task (Setup.handling.after held x) := by
  intro fd
  simp only [State.exchange, Handling.after, Finset.mem_union, Finset.mem_sdiff]
  by_cases hhands : fd ∈ Setup.handling.hands x
  · simp only [hhands, if_true, or_true]
  · by_cases hgives : fd ∈ Setup.handling.gives x.1
    · simp only [hhands, hgives, if_false, if_true, reduceCtorEq, not_true_eq_false, and_false, or_self]
    · simp only [hhands, hgives, if_false, h fd, not_false_eq_true, and_true, or_false]

omit [DecidableEq Task] in
/-- A call leaves what other tasks hold. -/
theorem holds_exchange_of_ne (hne : other ≠ task) (hfresh : ∀ fd ∈ Setup.handling.hands x, s.fds fd = none)
    (hgives : ∀ fd ∈ Setup.handling.gives x.1, s.fds fd = some (.task task)) (h : s.Holds other held) :
    (s.exchange (.task task) x).Holds other held := by
  intro fd
  rw [← h fd]
  simp only [State.exchange]
  split
  · rename_i hhands
    rw [hfresh fd hhands]
    constructor
    · intro heq
      cases heq
      exact absurd rfl hne
    · nofun
  · split
    · rename_i hgive
      rw [hgives fd hgive]
      constructor
      · nofun
      · intro heq
        cases heq
        exact absurd rfl hne
    · rfl

end Exchange

/-- A task that probes owns the socket it probes over. -/
theorem owns_probing {socket : Socket} (p : Probe) (state : Probe.State) : (probing socket p state).Owns {socket.fd} := by
  unfold probing
  split <;> rfl

/-- A task that opens owns the descriptors of its program. -/
theorem owns_opening {target : IpAddr} {id : UInt16} {payload : Bytes} {program : Opening} {held : Finset Fd}
    (h : program.Owns Setup.handling 2 held fun result held' => Setup.Handed (fun value => value.1.fd) result.1 held') :
    (opening target id payload program).Owns held := by
  rcases program with ⟨⟨text | ⟨socket, localAddr⟩, u⟩⟩ | ⟨call, next⟩
  · exact h
  · obtain rfl : held = {socket.fd} := h
    exact owns_probing _ _
  · exact h

/-- A step of another task leaves the stage. -/
theorem stage_of_step {os : TargetOs} {s s' : State Task} {e : Event Task} {task : Task} (hstep : Step os s e s')
    (hother : ∀ act, e ≠ .task task act) : s'.stage task = s.stage task := by
  have hne : ∀ {other : Task} {act : Act}, e = .task other act → task ≠ other := by
    rintro other act rfl rfl
    exact hother act rfl
  cases hstep with
  | opens _ => rfl
  | closes _ => rfl
  | _ => exact Function.update_of_ne (hne rfl) ..

/-- A step of another task leaves the lease. -/
theorem phase_of_step {os : TargetOs} {s s' : State Task} {e : Event Task} {task : Task} (hstep : Step os s e s')
    (hother : ∀ act, e ≠ .task task act) : s'.leases.phase task = s.leases.phase task := by
  have hne : ∀ {other : Task} {act : Act}, e = .task other act → task ≠ other := by
    rintro other act rfl rfl
    exact hother act rfl
  cases hstep with
  | leasing _ hlease _ => exact Lease.phase_of_moves (Lease.moves_of_step hlease) (hne rfl)
  | dropped _ hlease => exact Lease.phase_of_moves (Lease.moves_of_step hlease) (hne rfl)
  | _ => rfl

/-- What a task holds is not changed by what others do. -/
theorem holds_of_step {os : TargetOs} {s s' : State Task} {e : Event Task} {task : Task} {held : Finset Fd} (h : Owning s)
    (hstep : Step os s e s') (hother : ∀ act, e ≠ .task task act) (hholds : s.Holds task held) : s'.Holds task held := by
  cases hstep with
  | @setup other target id payload call next answer hstage hfresh =>
    have hne : task ≠ other := fun heq => hother _ (by rw [heq])
    obtain ⟨held', hholds', -, howns⟩ := h other
    rw [hstage] at howns
    exact holds_exchange_of_ne hne hfresh (fun fd hfd => (hholds' fd).2 (howns.2.1 hfd)) hholds
  | @closed other fd id result hstage =>
    have hne : task ≠ other := fun heq => hother _ (by rw [heq])
    obtain ⟨held', hholds', -, howns⟩ := h other
    rw [hstage] at howns
    obtain rfl : held' = {fd} := howns
    have hgives : ∀ fd' ∈ Setup.handling.gives (.close fd), s.fds fd' = some (.task other) := fun fd' hfd => (hholds' fd').2 hfd
    refine holds_exchange_of_ne (x := ⟨.close fd, ()⟩) hne (fun fd' hfd => ?_) hgives hholds
    rw [hands_close] at hfd
    exact absurd hfd (Finset.notMem_empty fd')
  | @opens fd hfree =>
    intro fd'
    by_cases heq : fd' = fd
    · subst heq
      simp only [Function.update_self, ← hholds fd', hfree, Option.some.injEq, reduceCtorEq]
    · simp only [Function.update_of_ne heq]
      exact hholds fd'
  | @closes fd hopen =>
    intro fd'
    by_cases heq : fd' = fd
    · subst heq
      simp only [Function.update_self, ← hholds fd', hopen, Option.some.injEq, reduceCtorEq]
    · simp only [Function.update_of_ne heq]
      exact hholds fd'
  | _ => exact hholds

/-- After a step of one task, what the others hold agrees with their stages if it did. -/
theorem Owning.of_self {os : TargetOs} {s t : State Task} {task : Task} {act : Act} {stage : Stage} (h : Owning s)
    (hstep : Step os s (.task task act) (t.enter task stage)) (hstages : t.stage = s.stage)
    (hself : ∃ held, t.Holds task held ∧ held.card ≤ 2 ∧ stage.Owns held) : Owning (t.enter task stage) := by
  intro other
  by_cases heq : other = task
  · subst heq
    obtain ⟨held, hholds, hcard, howns⟩ := hself
    refine ⟨held, hholds, hcard, ?_⟩
    simp only [State.enter, Function.update_self]
    exact howns
  · obtain ⟨held, hholds, hcard, howns⟩ := h other
    refine ⟨held, holds_of_step h hstep (fun act' hact => heq ?_) hholds, hcard, ?_⟩
    · cases hact
      rfl
    · simp only [State.enter, Function.update_of_ne heq, hstages]
      exact howns

/-- Every step keeps the descriptors owned. -/
theorem Owning.step {os : TargetOs} {s s' : State Task} {e : Event Task} (h : Owning s) (hstep : Step os s e s') : Owning s' := by
  have hsame : ∀ {t : State Task} {task : Task} {act : Act} {stage : Stage}, Step os s (.task task act) (t.enter task stage) →
      t.stage = s.stage → t.fds = s.fds → (∀ held, (s.stage task).Owns held → stage.Owns held) → Owning (t.enter task stage) := by
    intro t task act stage hstep hstages hfds howns
    refine h.of_self hstep hstages ?_
    obtain ⟨held, hholds, hcard, howned⟩ := h task
    refine ⟨held, ?_, hcard, howns held howned⟩
    unfold State.Holds
    rw [hfds]
    exact hholds
  have hstep' : Step os s e s' := hstep
  cases hstep with
  | @setup task target id payload call next answer hstage hfresh =>
    refine h.of_self hstep' rfl ?_
    obtain ⟨held, hholds, hcard, howns⟩ := h task
    rw [hstage] at howns
    have hdisjoint : Disjoint (Setup.handling.hands ⟨call, answer⟩) held := by
      refine Finset.disjoint_left.2 fun fd hhands hheld => ?_
      have hopen := (hholds fd).2 hheld
      rw [hfresh fd hhands] at hopen
      cases hopen
    obtain ⟨hcard', hnext⟩ := howns.2.2 answer hdisjoint
    exact ⟨_, holds_exchange hholds, hcard', owns_opening hnext⟩
  | @closed task fd id result hstage =>
    refine h.of_self hstep' rfl ?_
    obtain ⟨held, hholds, hcard, howns⟩ := h task
    rw [hstage] at howns
    obtain rfl : held = {fd} := howns
    refine ⟨∅, ?_, Nat.zero_le _, rfl⟩
    rw [← after_close fd]
    exact holds_exchange hholds
  | @filled task target id payload hstage hlength =>
    refine hsame hstep' rfl rfl fun held howns => ?_
    rw [hstage] at howns
    obtain rfl : held = ∅ := howns
    exact owns_opening (Setup.owns_openTransport os target .default ())
  | calling hstage _ =>
    refine hsame hstep' rfl rfl fun held howns => ?_
    rw [hstage] at howns
    exact howns
  | @probing task socket socket' p state state' ev calls hstage hserves hmoves =>
    refine hsame hstep' rfl rfl fun held howns => ?_
    rw [hstage] at howns
    obtain rfl : held = {socket.fd} := howns
    rw [← hserves.kept.1]
    exact owns_probing p state'
  | opens hfree =>
    intro task
    obtain ⟨held, hholds, hcard, howns⟩ := h task
    exact ⟨held, holds_of_step h hstep' (fun act hact => by cases hact) hholds, hcard, howns⟩
  | closes hopen =>
    intro task
    obtain ⟨held, hholds, hcard, howns⟩ := h task
    exact ⟨held, holds_of_step h hstep' (fun act hact => by cases hact) hholds, hcard, howns⟩
  | @leasing task target action leases hstage hlease hdrop =>
    refine hsame hstep' rfl rfl fun held howns => ?_
    rw [hstage] at howns
    unfold leasing
    split <;> exact howns
  | refused hstage | invalid hstage | parsed hstage | unfilled hstage | dropped hstage =>
    refine hsame hstep' rfl rfl fun held howns => ?_
    rw [hstage] at howns
    exact howns

/-- In every run, the descriptors are owned. -/
theorem Owning.run {os : TargetOs} {log : List (Event Task)} {s : State Task} (h : (system os).Runs log s) : Owning s := by
  have hinit : Owning (init : State Task) := fun task => ⟨∅, fun fd => ⟨nofun, nofun⟩, Nat.zero_le _, rfl⟩
  exact h.invariant hinit fun s e s' hs hstep => hs.step hstep

/-! ## What a task has done -/

/-- What this task has done. -/
def acts (task : Task) (log : List (Event Task)) : List Act :=
  log.filterMap fun
    | .task other act => if other = task then some act else none
    | _ => none

/-- The calls that set a socket up. -/
def setups (acts : List Act) : List (Exchange Setup.Answer) :=
  acts.filterMap fun
    | .setup x => some x
    | _ => none

/-- The events of a probe, and the calls that each took. -/
def probes (acts : List Act) : List (Probe.Event × List (Exchange Syscall.Answer)) :=
  acts.filterMap fun
    | .probe e calls => some (e, calls)
    | _ => none

/-- An act of the task is added to its acts. -/
theorem acts_self (task : Task) (log : List (Event Task)) (act : Act) : acts task (log ++ [.task task act]) = acts task log ++ [act] := by
  simp [acts]

/-- What others do adds nothing to the acts of the task. -/
theorem acts_other {task : Task} (log : List (Event Task)) {e : Event Task} (hother : ∀ act, e ≠ .task task act) :
    acts task (log ++ [e]) = acts task log := by
  cases e with
  | task other act =>
    have hne : other ≠ task := fun heq => hother act (by rw [heq])
    simp [acts, hne]
  | _ => simp [acts]

/-- What holds of a task at its call, and is kept by each of its own steps, holds of it in every run: of what it has done, of its lease
and of its stage. -/
theorem history_of_own {os : TargetOs} {P : List Act → Lease.Phase Task → Stage → Prop} (hinit : P [] .called .called)
    (hown : ∀ {log s s' task act}, (system os).Runs log s → P (acts task log) (s.leases.phase task) (s.stage task) →
      Step os s (.task task act) s' → P (acts task log ++ [act]) (s'.leases.phase task) (s'.stage task))
    {log : List (Event Task)} {s : State Task} (h : (system os).Runs log s) (task : Task) :
    P (acts task log) (s.leases.phase task) (s.stage task) := by
  have hstart : P (acts task []) ((init : State Task).leases.phase task) ((init : State Task).stage task) := hinit
  refine h.history (P := fun log s => P (acts task log) (s.leases.phase task) (s.stage task)) hstart ?_
  intro log s e s' hrun hP hstep
  by_cases hself : ∃ act, e = .task task act
  · obtain ⟨act, rfl⟩ := hself
    rw [acts_self]
    exact hown hrun hP hstep
  · have hother : ∀ act, e ≠ .task task act := fun act heq => hself ⟨act, heq⟩
    rw [acts_other log hother, stage_of_step hstep hother, phase_of_step hstep hother]
    exact hP

end Process

/-- A run of `probe` over a transport. -/
inductive SocketRuns (os : TargetOs) (p : Probe) (socket : Socket) :
    List (Probe.Event × List (Exchange Syscall.Answer)) → Probe.State → Socket → Prop where
  | start : SocketRuns os p socket [] p.init socket
  | step {log : List (Probe.Event × List (Exchange Syscall.Answer))} {s s' : Probe.State} {socket₁ socket₂ : Socket}
    {e : Probe.Event} {calls : List (Exchange Syscall.Answer)} :
    SocketRuns os p socket log s socket₁ → p.step s e = some s' → socket₁.Serves os calls socket₂ e →
      SocketRuns os p socket (log ++ [(e, calls)]) s' socket₂

/-- Over a raw socket, it is a run of the raw transport. -/
theorem SocketRuns.raw {os : TargetOs} {p : Probe} {fd : Fd} {log : List (Probe.Event × List (Exchange Syscall.Answer))}
    {s : Probe.State} {socket : Socket} (h : SocketRuns os p (.raw fd) log s socket) (hid : p.identifier = Socket.identifier (.raw fd)) :
    socket = .raw fd ∧ RawRuns p os log s := by
  have hover : p.overRaw = p := by
    obtain ⟨target, localAddr, identifier, leased, payload, options⟩ := p
    obtain rfl : identifier = _ := hid
    rfl
  induction h with
  | start =>
    refine ⟨rfl, ?_, fun entry hentry => absurd hentry List.not_mem_nil⟩
    rw [hover]
    rfl
  | step _ hstep hserves ih =>
    obtain ⟨rfl, hruns⟩ := ih
    cases hserves with
    | raw hserves =>
      refine ⟨rfl, hruns.snoc (Probe.moves_of_step ?_) hserves⟩
      rw [hover, Probe.machine]
      exact hstep

/-- Over a ping socket, it is a run of the ping transport. -/
theorem SocketRuns.ping {os : TargetOs} {p : Probe} {fd : Fd} {transport : Ping}
    {log : List (Probe.Event × List (Exchange Syscall.Answer))} {s : Probe.State} {socket : Socket}
    (h : SocketRuns os p (.ping fd transport) log s socket) (hid : p.identifier = Socket.identifier (.ping fd transport)) :
    ∃ transport', socket = .ping fd transport' ∧ PingRuns p transport log s transport' := by
  have hover : p.over transport = p := by
    obtain ⟨target, localAddr, identifier, leased, payload, options⟩ := p
    obtain rfl : identifier = _ := hid
    rfl
  induction h with
  | start =>
    refine ⟨transport, rfl, ?_⟩
    have hstart : PingRuns p transport [] (p.over transport).init transport := .start
    rwa [hover] at hstart
  | step _ hstep hserves ih =>
    obtain ⟨transport', rfl, hruns⟩ := ih
    cases hserves with
    | ping hserves =>
      refine ⟨_, rfl, .step _ _ hruns ?_ hserves⟩
      rw [hover, Probe.machine]
      exact hstep

/-- A run of the raw transport is one over a raw socket. -/
theorem RawRuns.socketRuns {p : Probe} {os : TargetOs} {log : RawLog} {state : Probe.State} (h : RawRuns p os log state) (fd : Fd) :
    SocketRuns os p.overRaw (.raw fd) log state (.raw fd) := by
  induction log using List.reverseRecOn generalizing state with
  | nil =>
    cases h.runs
    exact .start
  | append_singleton log entry ih =>
    obtain ⟨s₁, hbefore, hmoves, hserves⟩ := h.last
    exact .step (ih hbefore) (Probe.step_of_moves hmoves) (.raw hserves)

/-- A run of the ping transport is one over a ping socket. -/
theorem PingRuns.socketRuns {p : Probe} {ping ping' : Ping} {log : PingLog} {state : Probe.State} (h : PingRuns p ping log state ping')
    (os : TargetOs) (fd : Fd) : SocketRuns os (p.over ping) (.ping fd ping) log state (.ping fd ping') := by
  induction h with
  | start => exact .start
  | step e calls _ hstep hserves ih => exact .step ih hstep (.ping hserves)

/-! ## Call by call -/

/-- The calls of `receive` are asked for. -/
theorem Ping.ReceiveRuns.asks {wait : Duration} {ping ping' : Ping} {calls before after : List (Exchange Syscall.Answer)}
    {result : Except IoError Received} {x : Exchange Syscall.Answer} (h : ReceiveRuns wait ping calls result ping')
    (hcalls : calls = before ++ x :: after) : ping.ReceiveAsks wait before x.1 := by
  obtain ⟨start, rest, rfl, hloop⟩ := h
  cases before with
  | nil =>
    obtain ⟨rfl, -⟩ := List.cons.inj hcalls
    exact .start
  | cons y before =>
    obtain ⟨rfl, hrest⟩ := List.cons.inj hcalls
    exact .turn (hloop.asks hrest)

/-- A call that is made alone is asked for before any other. -/
theorem eq_nil_of_singleton {x y : Exchange Syscall.Answer} {before after : List (Exchange Syscall.Answer)}
    (h : [y] = before ++ x :: after) : before = [] ∧ x = y := by
  cases before with
  | nil => exact ⟨rfl, (List.cons.inj h).1.symm⟩
  | cons z before => exact absurd (List.cons.inj h).2.symm (List.append_ne_nil_of_right_ne_nil _ (List.cons_ne_nil _ _))

/-- The calls that an event of a probe takes are asked for at the point before it. -/
theorem Socket.Serves.asks {os : TargetOs} {socket socket' : Socket} {p : Probe} {state state' : Probe.State} {e : Probe.Event}
    {calls before after : List (Exchange Syscall.Answer)} {x : Exchange Syscall.Answer} (h : socket.Serves os calls socket' e)
    (hstep : p.step state e = some state') (hcalls : calls = before ++ x :: after) : socket.Asks os p state.point before x.1 := by
  have hclock : ∀ {point : Probe.Point} {now : Instant}, point.ReadsClock → calls = [⟨.now, now⟩] →
      socket.Asks os p point before x.1 := by
    rintro point now hpoint rfl
    obtain ⟨rfl, rfl⟩ := eq_nil_of_singleton hcalls
    exact .clock hpoint
  have hnow : ∀ {now : Instant}, e = .clock now → calls = [⟨.now, now⟩] := by
    rintro now rfl
    cases h with
    | raw hserves => exact hserves
    | ping hserves => exact hserves.1
  cases Probe.moves_of_step (p := p) hstep with
  | started b seq now | waits b seq start now _ | expired b seq start now _ | elapsed b seq start length source now
    | late b seq start length source elapsed now _ | tooLong b seq start length source elapsed now _ _
    | inTime b seq start length source elapsed now _ _ => exact hclock trivial (hnow rfl)
  | sent b seq start packet hpacket | sendFailed b seq start packet error hpacket =>
    cases h with
    | raw hserves => exact .sendRaw hpacket (Method.Runs.asks hserves hcalls)
    | ping hserves => exact .sendPing hpacket (Method.Runs.asks hserves hcalls)
  | received b seq start wait written length source | timedOut b seq start wait written error _
    | interrupted b seq start wait written error _ | receiveFailed b seq start wait written error _ _ _ =>
    cases h with
    | raw hserves =>
      obtain ⟨outcome, hruns, -⟩ := hserves
      exact .receiveRaw (Method.Runs.asks hruns hcalls)
    | ping hserves =>
      obtain ⟨outcome, hruns, -⟩ := hserves
      exact .receivePing (hruns.asks hcalls)
  | judged b seq start length source elapsed reply =>
    have hnone : calls = [] := by
      cases h with
      | raw hserves => exact hserves.1
      | ping hserves => exact hserves.1
    rw [hnone] at hcalls
    exact absurd hcalls.symm (List.append_ne_nil_of_right_ne_nil _ (List.cons_ne_nil _ _))

namespace Process

/-- What a task does in a probe with these events: the calls of each event, and then the event. -/
def probeActs (log : List (Probe.Event × List (Exchange Syscall.Answer))) : List Act :=
  log.flatMap fun entry => entry.2.map Act.call ++ [.probe entry.1 entry.2]

variable {os : TargetOs} {Task : Type} [DecidableEq Task]

/-- A task makes the calls of an event one after the other. -/
theorem runs_calls {log : List (Event Task)} {s : State Task} (hrun : (system os).Runs log s) {task : Task} {socket : Socket} {p : Probe}
    {state : Probe.State} {made : List (Exchange Syscall.Answer)} (hstage : s.stage task = .probing socket p state made)
    (calls : List (Exchange Syscall.Answer))
    (hasks : ∀ before x after, calls = before ++ x :: after → socket.Asks os p state.point (made ++ before) x.1) :
    ∃ s', (system os).Runs (log ++ calls.map fun x => .task task (.call x)) s' ∧
      s'.stage task = .probing socket p state (made ++ calls) ∧ s'.leases = s.leases ∧ s'.fds = s.fds := by
  induction calls generalizing log s made with
  | nil => exact ⟨s, by rwa [List.map_nil, List.append_nil], by rwa [List.append_nil], rfl, rfl⟩
  | cons x calls ih =>
    have hx := hasks [] x calls rfl
    rw [List.append_nil] at hx
    obtain ⟨s', hrun', hstage', hleases, hfds⟩ := ih (hrun.step (.calling hstage hx)) (Function.update_self ..)
      fun before y after heq => by
        have hy := hasks (x :: before) y after (by rw [heq, List.cons_append])
        rwa [List.append_cons] at hy
    refine ⟨s', ?_, ?_, hleases, hfds⟩
    · rwa [List.append_assoc] at hrun'
    · rwa [List.append_assoc] at hstage'

/-- What a probe can do over its transport, its task can do in the process. -/
theorem runs_of_socketRuns {p : Probe} {socket socket' : Socket} {log : List (Probe.Event × List (Exchange Syscall.Answer))}
    {state : Probe.State} (h : SocketRuns os p socket log state socket') {before : List (Event Task)} {s : State Task}
    (hrun : (system os).Runs before s) {task : Task} (hstage : s.stage task = probing socket p p.init) :
    ∃ s', (system os).Runs (before ++ (probeActs log).map (.task task)) s' ∧ s'.stage task = probing socket' p state ∧
      s'.leases = s.leases ∧ s'.fds = s.fds := by
  induction h with
  | start => exact ⟨s, by rwa [probeActs, List.flatMap_nil, List.map_nil, List.append_nil], hstage, rfl, rfl⟩
  | @step log state state' socket₁ socket₂ e calls _ hstep hserves ih =>
    obtain ⟨s₁, hrun₁, hstage₁, hleases₁, hfds₁⟩ := ih
    have hprobing : probing socket₁ p state = .probing socket₁ p state [] := by
      unfold probing
      split
      · rename_i result hdone
        cases Probe.run_done hdone (Machine.run_singleton.2 hstep)
      · rfl
    rw [hprobing] at hstage₁
    obtain ⟨s₂, hrun₂, hstage₂, hleases₂, hfds₂⟩ := runs_calls hrun₁ hstage₁ calls fun before x after hcalls => hserves.asks hstep hcalls
    refine ⟨s₂.enter task (probing socket₂ p state'), ?_, Function.update_self .., hleases₂.trans hleases₁, hfds₂.trans hfds₁⟩
    have hacts : before ++ (probeActs (log ++ [(e, calls)])).map (Event.task task) =
        before ++ (probeActs log).map (Event.task task) ++ (calls.map fun x => Event.task task (.call x)) ++
          [.task task (.probe e calls)] := by
      simp [probeActs]
    rw [hacts]
    exact hrun₂.step (.probing hstage₂ hserves hstep)

/-- A task that has its result closes its socket, drops its lease and returns. -/
theorem runs_closing {log : List (Event Task)} {s : State Task} (hrun : (system os).Runs log s) {task : Task} {fd : Fd} {id : UInt16}
    {result : Except String Outcome} (hstage : s.stage task = .closing fd id result) {now : Instant} {leases : Lease.State Task}
    (hdrop : Lease.step s.leases (task, .drop now) = some leases) :
    ∃ s', (system os).Runs (log ++ [.task task .close, .task task (.drop now)]) s' ∧ s'.stage task = .returned result ∧
      s'.fds = (s.exchange (.task task) ⟨.close fd, ()⟩).fds := by
  have hclosed := hrun.step (.closed hstage)
  have hreturning : ((s.exchange (.task task) ⟨.close fd, ()⟩).enter task (.returning id result)).stage task = .returning id result :=
    Function.update_self ..
  have hdropped := hclosed.step (.dropped hreturning hdrop)
  rw [List.append_assoc] at hdropped
  exact ⟨_, hdropped, Function.update_self .., rfl⟩

end Process

end IcmpPing
