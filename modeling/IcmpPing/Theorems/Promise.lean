import IcmpPing.Lemmas.Process
import IcmpPing.Theorems.Open
import IcmpPing.Theorems.Process
import IcmpPing.Theorems.Raw
import IcmpPing.Theorems.Unprivileged

/-!
# What a promise settles with

A task comes to its result by what it has done itself, whatever the other tasks do: its result is told by its own calls and the
answers to them. What it resolves to is a success with a latency and no message, or a negative with a message.
-/

namespace IcmpPing

namespace Process

/-! ## What a task tells -/

/-- Without a call of `open` and without an event of a probe. -/
def Silent (acts : List Act) : Prop := setups acts = [] ∧ probes acts = []

/-- A task probes: it has the address and the payload of its probe, has opened the socket, and has had the events. -/
structure ProbeRun (os : TargetOs) (acts : List Act) (p : Probe) (state : Probe.State) (socket₀ socket : Socket) : Prop where
  parsed : .parse (some p.target) ∈ acts
  filled : .fill (.ok p.payload) ∈ acts
  options : p.options = .default
  payload_length : p.payload.length = Options.default.payloadSize
  opened : (openTransport os p.target .default).Runs () (setups acts) (.ok (socket₀, p.localAddr)) ()
  identifier : p.identifier = socket₀.identifier
  runs : SocketRuns os p socket₀ (probes acts) state socket

/-- What the result of a probe over a transport rests on: over either, on the last thing the probe has had; or a receive has reported
more than its buffer holds. -/
inductive AccountedOver (os : TargetOs) (p : Probe) (log : List (Probe.Event × List (Exchange Syscall.Answer))) :
    Socket → Except String Outcome → Prop where
  | raw (fd : Fd) (result : Except String Outcome) (haccounted : Accounted p os log result) : AccountedOver os p log (.raw fd) result
  | ping (fd : Fd) (transport : Ping) (result : Except String Outcome) (haccounted : PingAccounted (p.over transport) log result) :
    AccountedOver os p log (.ping fd transport) result
  | overrun (socket : Socket) (hoverruns : Overruns log) : AccountedOver os p log socket (.error "ICMP receive returned invalid length")

/-- How a task comes to a result. -/
inductive Came (os : TargetOs) (acts : List Act) : Except String Outcome → Prop where
  | refused (hparse : .parse none ∈ acts) (hquiet : Silent acts) : Came os acts
    (.error "Expected an IPv4 or IPv6 literal; hostnames and scoped addresses are not accepted")
  | unseeded (message : String) (hfill : .lease (.fill (.error message)) ∈ acts) (hquiet : Silent acts) :
    Came os acts (.error ("ICMP random identifier: " ++ message))
  | exhausted (now : Instant) (hlock : .lease (.lock now) ∈ acts) (hquiet : Silent acts) : Came os acts
    (.error "ICMP Echo identifier capacity exhausted; retry after active probes or identifier quarantine expire")
  | unfilled (message : String) (hfill : .fill (.error message) ∈ acts) (hquiet : Silent acts) :
    Came os acts (.error ("ICMP random payload: " ++ message))
  | unopened (target : IpAddr) (text : String) (hparse : .parse (some target) ∈ acts)
    (hopen : (openTransport os target .default).Runs () (setups acts) (.error text) ()) (hquiet : probes acts = []) :
    Came os acts (.error text)
  | probed (p : Probe) (state : Probe.State) (socket₀ socket : Socket) (result : Except String Outcome)
    (hrun : ProbeRun os acts p state socket₀ socket) (hdone : state.point = .done result)
    (haccounted : AccountedOver os p (probes acts) socket₀ result) : Came os acts result

/-- What a task has done agrees with its stage. -/
def Told (os : TargetOs) (acts : List Act) : Stage → Prop
  | .called => Silent acts
  | .leasing target => .parse (some target) ∈ acts ∧ Silent acts
  | .leased target _ => .parse (some target) ∈ acts ∧ Silent acts
  | .opening target _ payload call next => .parse (some target) ∈ acts ∧ .fill (.ok payload) ∈ acts ∧
    payload.length = Options.default.payloadSize ∧ (openTransport os target .default ()).Leads (setups acts) (.ask call next) ∧
      probes acts = []
  | .probing socket p state _ => ∃ socket₀, ProbeRun os acts p state socket₀ socket
  | .closing _ _ result | .returning _ result | .returned result => Came os acts result

section Acts

variable {acts : List Act} {act : Act}

/-- The calls of `open`, act by act. -/
@[simp] theorem setups_append (more : List Act) : setups (acts ++ more) = setups acts ++ setups more := List.filterMap_append

/-- The events of the probe, act by act. -/
@[simp] theorem probes_append (more : List Act) : probes (acts ++ more) = probes acts ++ probes more := List.filterMap_append

/-- An act that is neither a call of `open` nor an event of a probe. -/
def Act.Quiet (act : Act) : Prop := setups [act] = [] ∧ probes [act] = []

/-- A quiet act adds nothing to what is told. -/
theorem quiet_snoc (acts : List Act) (hact : act.Quiet) : setups (acts ++ [act]) = setups acts ∧ probes (acts ++ [act]) = probes acts := by
  rw [setups_append, probes_append, hact.1, hact.2, List.append_nil, List.append_nil]
  exact ⟨rfl, rfl⟩

end Acts

section Told

variable {os : TargetOs} {acts : List Act} {act : Act}

/-- Acts stay silent with a quiet one. -/
theorem Silent.snoc (h : Silent acts) (hact : act.Quiet) : Silent (acts ++ [act]) := by
  obtain ⟨hsetups, hprobes⟩ := quiet_snoc acts hact
  exact ⟨hsetups.trans h.1, hprobes.trans h.2⟩

/-- A quiet act leaves the run of the probe as it is. -/
theorem ProbeRun.snoc_quiet {p : Probe} {state : Probe.State} {socket₀ socket : Socket} (h : ProbeRun os acts p state socket₀ socket)
    (hact : act.Quiet) : ProbeRun os (acts ++ [act]) p state socket₀ socket := by
  obtain ⟨hsetups, hprobes⟩ := quiet_snoc acts hact
  obtain ⟨hparsed, hfilled, hoptions, hlength, hopened, hidentifier, hruns⟩ := h
  refine ⟨List.mem_append_left _ hparsed, List.mem_append_left _ hfilled, hoptions, hlength, ?_, hidentifier, ?_⟩
  · rwa [hsetups]
  · rwa [hprobes]

/-- A quiet act leaves the result as it came. -/
theorem Came.snoc_quiet {result : Except String Outcome} (h : Came os acts result) (hact : act.Quiet) :
    Came os (acts ++ [act]) result := by
  obtain ⟨hsetups, hprobes⟩ := quiet_snoc acts hact
  have hquiet : Silent acts → Silent (acts ++ [act]) := fun h => h.snoc hact
  cases h with
  | refused hparse h => exact .refused (List.mem_append_left _ hparse) (hquiet h)
  | unseeded message hfill h => exact .unseeded message (List.mem_append_left _ hfill) (hquiet h)
  | exhausted now hlock h => exact .exhausted now (List.mem_append_left _ hlock) (hquiet h)
  | unfilled message hfill h => exact .unfilled message (List.mem_append_left _ hfill) (hquiet h)
  | unopened target text hparse hopen h =>
    exact .unopened target text (List.mem_append_left _ hparse) (by rwa [hsetups]) (by rwa [hprobes])
  | probed p state socket₀ socket result hrun hdone haccounted =>
    exact .probed p state socket₀ socket result (hrun.snoc_quiet hact) hdone (by rwa [hprobes])

/-- The target of a ping socket is that of its probe. -/
theorem ProbeRun.target_eq {p : Probe} {state : Probe.State} {fd : Fd} {transport : Ping} {socket : Socket}
    (h : ProbeRun os acts p state (.ping fd transport) socket) : transport.target = p.target := by
  obtain ⟨kind, answer, -, -, -, -, -, hidentified⟩ := Setup.ensures_policy os p.target .default _ _ _ _ h.opened
  obtain ⟨name, -, rfl⟩ := hidentified.name
  rfl

/-- A raw socket whose receives do not all fit their buffer overruns it. -/
theorem overruns_of_not_readsFit {log : RawLog} (h : ¬ReadsFit log) : Overruns log := by
  simp only [ReadsFit, not_forall, Nat.not_le] at h
  obtain ⟨entry, hentry, bytes, source, hmem, hlength⟩ := h
  exact ⟨entry, hentry, Or.inl ⟨bytes, source, hmem, hlength⟩⟩

/-- A probe that is done is accounted for. -/
theorem ProbeRun.accounted {p : Probe} {state : Probe.State} {socket₀ socket : Socket} {result : Except String Outcome}
    (h : ProbeRun os acts p state socket₀ socket) (hdone : state.point = .done result) :
    AccountedOver os p (probes acts) socket₀ result := by
  have hoptions : p.options.validate = .ok () := by
    rw [h.options]
    decide
  have hpayload : p.payload.length = p.options.payloadSize := by
    rw [h.options]
    exact h.payload_length
  cases socket₀ with
  | raw fd =>
    obtain haccounted | ⟨rfl, hreads⟩ := (h.runs.raw h.identifier).2.accounted_or hoptions hpayload hdone
    · exact .raw fd result haccounted
    · exact .overrun _ (overruns_of_not_readsFit hreads)
  | ping fd transport =>
    obtain ⟨transport', -, hruns⟩ := h.runs.ping h.identifier
    obtain haccounted | ⟨rfl, hoverruns⟩ := hruns.accounted h.target_eq hoptions hpayload hdone
    · exact .ping fd transport result haccounted
    · exact .overrun _ hoverruns

/-- What is told of a task that probes is the run of its probe. -/
theorem told_probing {p : Probe} {state : Probe.State} {socket : Socket} (h : ∃ socket₀, ProbeRun os acts p state socket₀ socket) :
    Told os acts (probing socket p state) := by
  obtain ⟨socket₀, h⟩ := h
  unfold probing
  split
  · rename_i result hdone
    exact .probed p state socket₀ socket result h hdone (h.accounted hdone)
  · exact ⟨socket₀, h⟩

/-- What is told of a task that opens is how far its program has come. -/
theorem told_opening {target : IpAddr} {id : UInt16} {payload : Bytes} {program : Opening} (hparsed : .parse (some target) ∈ acts)
    (hfilled : .fill (.ok payload) ∈ acts) (hlength : payload.length = Options.default.payloadSize)
    (hleads : (openTransport os target .default ()).Leads (setups acts) program) (hquiet : probes acts = []) :
    Told os acts (opening target id payload program) := by
  rcases program with ⟨⟨text | ⟨socket, localAddr⟩, u⟩⟩ | ⟨call, next⟩
  · exact .unopened target text hparsed (hleads.runs rfl) hquiet
  · refine told_probing ⟨socket, hparsed, hfilled, rfl, hlength, hleads.runs rfl, rfl, ?_⟩
    rw [hquiet]
    exact .start
  · exact ⟨hparsed, hfilled, hlength, hleads, hquiet⟩

variable {Task : Type} [DecidableEq Task]

omit [DecidableEq Task] in
/-- `acquire` has one error. -/
theorem message_of_acquire {a a' : Allocator} {now : Instant} {message : String} (h : a.acquire now = (.error message, a')) :
    message = "ICMP Echo identifier capacity exhausted; retry after active probes or identifier quarantine expire" := by
  unfold Allocator.acquire at h
  simp only at h
  split at h
  · cases h
  · cases h
    rfl

/-- What a lease is refused with. -/
theorem came_of_failed {s : Lease.State Task} {task : Task} {action : Lease.Action} {leases : Lease.State Task} {message : String}
    (hinv : Lease.Inv s) (hstep : Lease.step s (task, action) = some leases) (hphase : leases.phase task = .failed message)
    (hact : .lease action ∈ acts) (hquiet : Silent acts) : Came os acts (.error message) := by
  have hmoves := Lease.moves_of_step hstep
  cases hmoves with
  | unfilled seed text _ hnew =>
    rw [Lease.phase_enter_self] at hphase
    cases hphase
    cases seed with
    | ok seed => cases hnew
    | error text =>
      cases hnew
      exact .unseeded text hact hquiet
  | poisoned mutex now _ hids hpoisoned =>
    rw [(hinv.mutex mutex hids).1] at hpoisoned
    cases hpoisoned
  | exhausted mutex now text allocator _ hids hnow hacquire =>
    rw [Lease.phase_enter_self] at hphase
    cases hphase
    obtain rfl := message_of_acquire hacquire
    exact .exhausted now hact hquiet
  | _ =>
    rw [Lease.phase_enter_self] at hphase
    cases hphase

/-- A step of a task keeps what it tells. -/
theorem told_self {s s' : State Task} {task : Task} (hleases : Lease.Inv s.leases) (h : Told os acts (s.stage task))
    (hstep : Step os s (.task task act) s') : Told os (acts ++ [act]) (s'.stage task) := by
  have hmem : act ∈ acts ++ [act] := List.mem_append_right _ (List.mem_singleton_self act)
  have hkept : ∀ {act'}, act' ∈ acts → act' ∈ acts ++ [act] := fun h => List.mem_append_left _ h
  cases hstep with
  | refused hstage =>
    rw [hstage] at h
    simp only [State.enter, Function.update_self]
    exact .refused hmem (Silent.snoc h ⟨rfl, rfl⟩)
  | invalid hstage hinvalid =>
    have hvalid : Options.default.validate = .ok () := by decide
    rw [hvalid] at hinvalid
    cases hinvalid
  | parsed hstage hvalid =>
    rw [hstage] at h
    simp only [State.enter, Function.update_self]
    exact ⟨hmem, Silent.snoc h ⟨rfl, rfl⟩⟩
  | @leasing _ target action leases hstage hlease hdrop =>
    rw [hstage] at h
    obtain ⟨hparsed, hquiet⟩ := h
    have hquiet' : Silent (acts ++ [.lease action]) := Silent.snoc hquiet ⟨rfl, rfl⟩
    simp only [State.enter, Function.update_self]
    unfold leasing
    split
    · exact ⟨hkept hparsed, hquiet'⟩
    · rename_i message hphase
      exact came_of_failed hleases hlease hphase hmem hquiet'
    · exact ⟨hkept hparsed, hquiet'⟩
  | unfilled hstage =>
    rw [hstage] at h
    simp only [State.enter, Function.update_self]
    exact .unfilled _ hmem (Silent.snoc h.2 ⟨rfl, rfl⟩)
  | @filled _ target id payload hstage hlength =>
    rw [hstage] at h
    obtain ⟨hparsed, hsetups, hprobes⟩ := h
    obtain ⟨hsetups', hprobes'⟩ := quiet_snoc acts (show Act.Quiet (.fill (.ok payload)) from ⟨rfl, rfl⟩)
    simp only [State.enter, Function.update_self]
    refine told_opening (hkept hparsed) hmem hlength ?_ (hprobes'.trans hprobes)
    rw [hsetups', hsetups]
    exact .refl _
  | @setup _ target id payload call next answer hstage hfresh =>
    rw [hstage] at h
    obtain ⟨hparsed, hfilled, hlength, hleads, hprobes⟩ := h
    simp only [State.enter, Function.update_self]
    refine told_opening (hkept hparsed) (hkept hfilled) hlength ?_ (by simpa [probes] using hprobes)
    rw [setups_append]
    exact hleads.snoc rfl answer
  | calling hstage _ =>
    rw [hstage] at h
    obtain ⟨socket₀, hrun⟩ := h
    simp only [State.enter, Function.update_self]
    exact ⟨socket₀, hrun.snoc_quiet ⟨rfl, rfl⟩⟩
  | @probing _ socket socket' p state state' e calls hstage hserves hmoves =>
    rw [hstage] at h
    obtain ⟨socket₀, hrun⟩ := h
    simp only [State.enter, Function.update_self]
    refine told_probing ⟨socket₀, hkept hrun.parsed, hkept hrun.filled, hrun.options, hrun.payload_length, ?_,
      hrun.identifier, ?_⟩
    · have hsetups : setups (acts ++ [.probe e calls]) = setups acts := by simp [setups]
      rw [hsetups]
      exact hrun.opened
    · rw [probes_append]
      exact .step hrun.runs hmoves hserves
  | closed hstage =>
    rw [hstage] at h
    simp only [State.enter, Function.update_self]
    exact Came.snoc_quiet h ⟨rfl, rfl⟩
  | dropped hstage _ =>
    rw [hstage] at h
    simp only [State.enter, Function.update_self]
    exact Came.snoc_quiet h ⟨rfl, rfl⟩

end Told

variable {os : TargetOs} {Task : Type} [DecidableEq Task]

/-- What a task has done always agrees with its stage, whatever the other tasks do. -/
theorem told {log : List (Event Task)} {s : State Task} (h : (system os).Runs log s) (task : Task) :
    Told os (acts task log) (s.stage task) :=
  history_of_own (P := fun acts _ stage => Told os acts stage) ⟨rfl, rfl⟩
    (fun hrun htold hstep => told_self (leases_of_runs hrun) htold hstep) h task

/-- Every promise settles with what its own task has come to, in every interleaving of the tasks. It is refused or fails without a
call, or the calls of `open` end with its error; or they open a socket, and a probe over it, of the address and the payload of the task,
ends with its result, which rests on the last thing that the probe has had: a reply, an error about its request that was received or
read off the error queue, the time, or a call that failed. -/
theorem promise_accounted (os : TargetOs) (log : List (Event Task)) (s : State Task) (hrun : (system os).Runs log s) (task : Task)
    (result : Except String Outcome) (hstage : s.stage task = .returned result) : Came os (acts task log) result := by
  have h := told hrun task
  rw [hstage] at h
  exact h

/-- The task opens its socket, its first request is answered, and it closes the socket. -/
def sampleAnswered : List (Event Unit) :=
  [.setup ⟨.connect 4 ⟨.v4 ⟨192, 0, 2, 2⟩, 33434⟩, .ok ()⟩, .setup ⟨.localAddr 4, .ok ⟨.v4 ⟨192, 0, 2, 1⟩, 40000⟩⟩,
    .setup ⟨.bind 3 ⟨.v4 ⟨192, 0, 2, 1⟩, 0⟩, .ok ()⟩, .setup ⟨.setWriteTimeout 3 (1000000000 : Nat), .ok ()⟩,
    .setup ⟨.close 4, ()⟩].map (.task ()) ++ (probeActs (sampleRaw sampleAnswer)).map (.task ()) ++
      [.task () .close, .task () (.drop (6000 : Nat))]

/-- A run that ends with an answer. -/
theorem runs_sampleAnswered : ∃ s, (system .linux).Runs (sampleOpened ++ sampleAnswered) s ∧
    s.stage () = .returned (.ok { latency := some (4900 : Nat), message := "" }) ∧ ∀ fd : Nat, 5 ≤ fd → s.fds fd = none := by
  have hopened : ∃ s, (system .linux).Steps init (sampleOpened ++ sampleAnswered.take 5) s ∧
      s.stage () = probing (.raw 3) sampleProbe sampleProbe.init ∧ (∀ fd : Nat, 5 ≤ fd → s.fds fd = none) ∧
      ∃ leases, Lease.step s.leases ((), .drop (6000 : Nat)) = some leases := by
    refine ⟨_, ⟨_, .parsed rfl rfl, _, .leasing rfl rfl nofun, _, .leasing rfl rfl nofun, _, .leasing rfl rfl nofun, _,
      .leasing rfl rfl nofun, _, .filled rfl rfl, _, .setup rfl ?_, _, .setup rfl nofun, _, .setup rfl ?_, _, .setup rfl nofun,
      _, .setup rfl nofun, _, .setup rfl nofun, _, .setup rfl nofun, _, .setup rfl nofun, rfl⟩, rfl, ?_, _, rfl⟩
    · exact fresh_of_free 3 rfl rfl
    · exact fresh_of_free 4 rfl rfl
    · intro fd hfd
      have h₃ : fd ≠ 3 := by omega
      have h₄ : fd ≠ 4 := by omega
      simp [State.enter, State.exchange, Setup.handling, init, h₃, h₄]
  obtain ⟨s, hsteps, hstage, hfree, leases, hdrop⟩ := hopened
  obtain ⟨state, hraw, hdone⟩ := runs_sampleRaw .linux sampleAnswer rfl rfl
  obtain ⟨s₁, hprobed, hstage₁, hleases, hfds⟩ := runs_of_socketRuns (hraw.socketRuns 3) (System.Runs.start.append hsteps) hstage
  rw [probing, hdone] at hstage₁
  rw [← hleases] at hdrop
  obtain ⟨s₂, hrun, hstage₂, hfds₂⟩ := runs_closing hprobed hstage₁ hdrop
  refine ⟨s₂, hrun, hstage₂, fun fd hfd => ?_⟩
  have h₃ : fd ≠ 3 := by omega
  rw [hfds₂]
  simp [State.exchange, Setup.handling, Socket.fd, h₃, hfds, hfree fd hfd]

theorem promise_accounted_sample : ∃ s, (system .linux).Runs (sampleOpened ++ sampleAnswered) s ∧
    s.stage () = .returned (.ok { latency := some (4900 : Nat), message := "" }) ∧
    Came .linux (acts () (sampleOpened ++ sampleAnswered)) (.ok { latency := some (4900 : Nat), message := "" }) := by
  obtain ⟨s, hrun, hstage, -⟩ := runs_sampleAnswered
  exact ⟨s, hrun, hstage, promise_accounted .linux _ s hrun () _ hstage⟩

/-! ## What it resolves to -/

/-- The messages of negatives: the last attempt has timed out, the system has refused a call, or an ICMP error was reported for the
request, with its source. On Linux there are those of a record of the error queue, too, over a ping socket: the reason of an ICMP error,
or a datagram too big to be sent, which is an error of the host itself; and either with its source only where the record has one. -/
inductive NegativeText (os : TargetOs) : String → Prop where
  | timedOut : NegativeText os "Request timed out after 3 attempts"
  | refused (error : IoError) (text : String) (htext : networkError error = some text) : NegativeText os text
  | rejected (v6 : Bool) (kind code : UInt8) (cause : String) (source : IpAddr) (hcause : reason v6 kind code = some cause) :
    NegativeText os (withSource cause source)
  | queued (target : IpAddr) (error : ExtendedError) (text : String) (hos : os = .linux) (htext : RecordText target error text) :
    NegativeText os text

/-- Every reason has a text. -/
theorem reason_ne_empty {v6 : Bool} {kind code : UInt8} {cause : String} (h : reason v6 kind code = some cause) : cause ≠ "" := by
  unfold reason at h
  split at h <;> cases h <;> decide

/-- Both texts of unreachable networks and hosts are texts. -/
theorem networkError_ne_empty {error : IoError} {text : String} (h : networkError error = some text) : text ≠ "" := by
  unfold networkError at h
  split at h <;> cases h <;> decide

/-- An error of a call is reported with a text, whatever its own is. -/
theorem operationError_ne_empty (stage : String) (error : IoError) : operationError stage error ≠ "" := by
  unfold operationError
  split <;> simp

/-- A cause that has a text has one with its source, too. -/
theorem errorText_ne_empty {cause : String} (h : cause ≠ "") (source : Option IpAddr) : errorText cause source ≠ "" := by
  cases source with
  | none => exact h
  | some source => simp [errorText, withSource]

/-- A record that is reported has a text. -/
theorem recordText_ne_empty {target : IpAddr} {error : ExtendedError} {text : String} (h : RecordText target error text) : text ≠ "" := by
  cases h with
  | icmp cause _ hcause => exact errorText_ne_empty (reason_ne_empty hcause) _
  | tooBig _ _ => exact errorText_ne_empty (by decide) _

/-- A negative has a message. -/
theorem NegativeText.ne_empty {os : TargetOs} {text : String} (h : NegativeText os text) : text ≠ "" := by
  cases h with
  | timedOut => decide
  | refused error text htext => exact networkError_ne_empty htext
  | rejected v6 kind code cause source hcause => simp [withSource]
  | queued target error text _ htext => exact recordText_ne_empty htext

/-- A success has a latency and no message, a negative has a message and no latency, and an error has a text. -/
inductive Contract (os : TargetOs) : Except String Outcome → Prop where
  | success (latency : Duration) : Contract os (.ok { latency := some latency, message := "" })
  | negative (text : String) (htext : NegativeText os text) : Contract os (.ok (.negative text))
  | error (text : String) (htext : text ≠ "") : Contract os (.error text)

/-- A call that failed keeps the contract. -/
theorem contract_failed (os : TargetOs) (stage : String) (error : IoError) : Contract os (failed stage error) := by
  unfold failed
  split
  · rename_i text htext
    exact .negative text (.refused error text htext)
  · exact .error _ (operationError_ne_empty stage error)

/-- The message of a probe with the options of `ping` whose attempts have all timed out. -/
theorem timeoutMessage_default {p : Probe} (hoptions : p.options = .default) :
    p.timeoutMessage = "Request timed out after 3 attempts" := by
  unfold Probe.timeoutMessage
  rw [hoptions]
  decide

/-- A result that is accounted for over a raw socket keeps the contract. -/
theorem contract_of_accounted {os : TargetOs} {p : Probe} {log : RawLog} {result : Except String Outcome} (hoptions : p.options = .default)
    (h : Accounted p os log result) : Contract os result := by
  cases h with
  | answered seq start first packet message _ _ _ => exact .success _
  | rejected seq start first packet message source text _ _ herror =>
    obtain ⟨-, -, cause, -, -, -, hcause, -, -, -, -, -, rfl⟩ := herror
    exact .negative _ (.rejected _ _ _ cause source hcause)
  | timedOut _ _ =>
    rw [timeoutMessage_default hoptions]
    exact .negative _ .timedOut
  | unreachable stage error reason _ hreason => exact .negative reason (.refused error reason hreason)
  | failed stage error _ _ => exact .error _ (operationError_ne_empty stage error)

/-- A result that is accounted for over a ping socket keeps the contract. -/
theorem contract_of_pingAccounted {p : Probe} {log : PingLog} {result : Except String Outcome} (hoptions : p.options = .default)
    (h : PingAccounted p log result) : Contract .linux result := by
  cases h with
  | answered seq start first message _ _ => exact .success _
  | reported seq start first record error text _ _ htext => exact .negative text (.queued p.target error text rfl htext)
  | timedOut _ _ =>
    rw [timeoutMessage_default hoptions]
    exact .negative _ .timedOut
  | unsent packet error earlier calls _ _ => exact contract_failed .linux "send" error
  | unreceived wait written error earlier calls _ _ => exact contract_failed .linux "receive" error

/-- The text of a socket that could not be opened. -/
theorem text_ne_empty_of_open {os : TargetOs} {target : IpAddr} {trace : List (Exchange Setup.Answer)} {text : String}
    (h : (openTransport os target .default).Runs () trace (.error text) ()) : text ≠ "" := by
  obtain ⟨kind, answer, -, hrefusal | ⟨fd, -, x, -, error, -, rfl⟩⟩ := Setup.ensures_policy os target .default _ _ _ _ h
  · unfold Setup.refusal at hrefusal
    split at hrefusal
    · cases hrefusal
      exact operationError_ne_empty _ _
    · cases hrefusal
      split
      · simp
      · exact operationError_ne_empty _ _
    · cases hrefusal
  · exact operationError_ne_empty _ _

/-- A ping socket is one of Linux. -/
theorem ProbeRun.os_eq {os : TargetOs} {acts : List Act} {p : Probe} {state : Probe.State} {fd : Fd} {transport : Ping} {socket : Socket}
    (h : ProbeRun os acts p state (.ping fd transport) socket) : os = .linux := by
  obtain ⟨kind, answer, -, -, hos, -⟩ := Setup.ensures_policy os p.target .default _ _ _ _ h.opened
  exact hos

/-- However a task comes to a result, the result keeps the contract. -/
theorem Came.contract {os : TargetOs} {acts : List Act} {result : Except String Outcome} (h : Came os acts result) :
    Contract os result := by
  cases h with
  | refused _ _ => exact .error _ (by decide)
  | unseeded message _ _ => exact .error _ (by simp)
  | exhausted now _ _ => exact .error _ (by decide)
  | unfilled message _ _ => exact .error _ (by simp)
  | unopened target text _ hopen _ => exact .error text (text_ne_empty_of_open hopen)
  | probed p state socket₀ socket result hrun _ haccounted =>
    cases haccounted with
    | raw fd result haccounted => exact contract_of_accounted hrun.options haccounted
    | ping fd transport result haccounted =>
      obtain rfl := hrun.os_eq
      exact contract_of_pingAccounted (p := p.over transport) hrun.options haccounted
    | overrun socket _ => exact .error _ (by decide)

/-- Every promise that resolves is a success with a latency and an empty message, or a negative with no latency and a message that is
one of those of negatives; and every promise that rejects has a text. -/
theorem promise_contract (os : TargetOs) (log : List (Event Task)) (s : State Task) (hrun : (system os).Runs log s) (task : Task)
    (result : Except String Outcome) (hstage : s.stage task = .returned result) : match result with
    | .ok out => (∃ latency, resolve out = { success := true, latency := some latency, message := "" }) ∨
      ∃ text, NegativeText os text ∧ text ≠ "" ∧ resolve out = { success := false, latency := none, message := text }
    | .error text => text ≠ "" := by
  have htold := told hrun task
  rw [hstage] at htold
  cases (show Came os (acts task log) result from htold).contract with
  | success latency => exact Or.inl ⟨latency, rfl⟩
  | negative text htext => exact Or.inr ⟨text, htext, htext.ne_empty, rfl⟩
  | error text htext => exact htext

theorem promise_contract_sample : ∃ s out, (system .linux).Runs (sampleOpened ++ sampleAnswered) s ∧ s.stage () = .returned (.ok out) ∧
    ((∃ latency, resolve out = { success := true, latency := some latency, message := "" }) ∨
      ∃ text, NegativeText .linux text ∧ text ≠ "" ∧ resolve out = { success := false, latency := none, message := text }) := by
  obtain ⟨s, hrun, hstage, -⟩ := runs_sampleAnswered
  exact ⟨s, _, hrun, hstage, promise_contract .linux _ s hrun () _ hstage⟩

end Process

end IcmpPing
