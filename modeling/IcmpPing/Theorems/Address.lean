import IcmpPing.Lemmas.Address
import IcmpPing.Theorems.Settles

/-!
# The address of a call

A text that is no literal is refused before anything else is done, and a literal is taken for the address it is a literal of: what the
task does then goes to this address alone. The address that a message names is the one that reported the error.
-/

namespace IcmpPing

/-- The calls of an event aim at the target of its probe. -/
theorem Socket.Serves.aims {os : TargetOs} {socket socket' : Socket} {p : Probe} {state state' : Probe.State} {e : Probe.Event}
    {calls : List (Exchange Syscall.Answer)} (h : socket.Serves os calls socket' e) (hstep : p.step state e = some state') :
    ∀ x ∈ calls, x.1.Aims p.target := by
  intro x hx
  obtain ⟨before, after, hcalls⟩ := List.append_of_mem hx
  exact (h.asks hstep hcalls).aims

namespace Process

/-! ## The address of a call -/

/-- The act is done for this address: it is what was parsed, and what the calls aim at. -/
def Act.Aims (addr : IpAddr) : Act → Prop
  | .parse address => address = some addr
  | .setup x => x.1.Aims addr
  | .call x => x.1.Aims addr
  | .probe _ calls => ∀ x ∈ calls, x.1.Aims addr
  | .lease _ | .fill _ | .close | .drop _ => True

/-- What is left to do is done for this address. -/
def Stage.Aims (addr : IpAddr) : Stage → Prop
  | .leasing target | .leased target _ => target = addr
  | .opening target _ _ call next => target = addr ∧ ∃ n, (Program.ask call next).Within (Setup.Aims addr) n
  | .probing _ p _ _ => p.target = addr
  | .called | .closing _ _ _ | .returning _ _ | .returned _ => True

variable {os : TargetOs}

/-- A task that probes aims at the target of its probe. -/
theorem aims_probing {addr : IpAddr} {p : Probe} (socket : Socket) (state : Probe.State) (h : p.target = addr) :
    (probing socket p state).Aims addr := by
  unfold probing
  split
  · trivial
  · exact h

/-- A task that opens aims at what its program aims at. -/
theorem aims_opening {addr : IpAddr} (id : UInt16) (payload : Bytes) {program : Opening} {n : Nat}
    (h : program.Within (Setup.Aims addr) n) : (opening addr id payload program).Aims addr := by
  rcases program with ⟨⟨text | ⟨socket, localAddr⟩, u⟩⟩ | ⟨call, next⟩
  · trivial
  · exact aims_probing socket _ rfl
  · exact ⟨rfl, n, h⟩

/-- A task that asks for a lease calls the kernel for nothing. -/
theorem aims_leasing {addr : IpAddr} {Task : Type} (phase : Lease.Phase Task) : (leasing addr phase).Aims addr := by
  cases phase <;> trivial

variable {Task : Type} [DecidableEq Task]

/-- A step of a task that parses this address is done for it. -/
theorem aims_self {addr : IpAddr} {s s' : State Task} {task : Task} {act : Act} (h : (s.stage task).Aims addr)
    (hparse : ∀ address, act = .parse address → address = some addr) (hstep : Step os s (.task task act) s') :
    act.Aims addr ∧ (s'.stage task).Aims addr := by
  cases hstep with
  | refused hstage => cases hparse _ rfl
  | invalid hstage hinvalid =>
    simp only [State.enter, Function.update_self]
    exact ⟨hparse _ rfl, trivial⟩
  | parsed hstage hvalid =>
    simp only [State.enter, Function.update_self]
    exact ⟨hparse _ rfl, Option.some.inj (hparse _ rfl)⟩
  | leasing hstage hlease hdrop =>
    rw [hstage] at h
    obtain rfl : _ = addr := h
    simp only [State.enter, Function.update_self]
    exact ⟨trivial, aims_leasing _⟩
  | unfilled hstage =>
    simp only [State.enter, Function.update_self]
    exact ⟨trivial, trivial⟩
  | @filled _ target id payload hstage hlength =>
    rw [hstage] at h
    obtain rfl : target = addr := h
    simp only [State.enter, Function.update_self]
    exact ⟨trivial, aims_opening id payload (Setup.within_openTransport os target .default ())⟩
  | @setup _ target id payload call next answer hstage hfresh =>
    rw [hstage] at h
    obtain ⟨rfl, n, hcall, m, -, hnext⟩ := h
    simp only [State.enter, Function.update_self]
    exact ⟨hcall, aims_opening id payload (hnext answer)⟩
  | @calling _ socket p state calls call answer hstage hasks =>
    rw [hstage] at h
    obtain rfl : p.target = addr := h
    simp only [State.enter, Function.update_self]
    exact ⟨hasks.aims, rfl⟩
  | @probing _ socket socket' p state state' e calls hstage hserves hmoves =>
    rw [hstage] at h
    obtain rfl : p.target = addr := h
    simp only [State.enter, Function.update_self]
    exact ⟨hserves.aims hmoves, aims_probing socket' state' rfl⟩
  | closed hstage =>
    simp only [State.enter, Function.update_self]
    exact ⟨trivial, trivial⟩
  | dropped hstage hlease =>
    simp only [State.enter, Function.update_self]
    exact ⟨trivial, trivial⟩

/-- What a task does that was called with a literal is done for its address. -/
theorem aims_of_runs {log : List (Event Task)} {s : State Task} (h : (system os).Runs log s) (task : Task) {addr : IpAddr}
    (hcalled : ∀ address, .parse address ∈ acts task log → address = some addr) : ∀ act ∈ acts task log, act.Aims addr := by
  have hown := history_of_own (P := fun acts _ stage => (∀ address, .parse address ∈ acts → address = some addr) →
    (∀ act ∈ acts, act.Aims addr) ∧ stage.Aims addr) (fun _ => ⟨List.forall_mem_nil _, trivial⟩) ?_ h task hcalled
  · exact hown.1
  intro log s s' task act hrun ih hstep hparse
  obtain ⟨hacts, hstage⟩ := ih fun address hmem => hparse address (List.mem_append_left _ hmem)
  obtain ⟨hact, hstage'⟩ := aims_self hstage (fun address heq => hparse address (by simp [heq])) hstep
  exact ⟨List.forall_mem_append.2 ⟨hacts, List.forall_mem_singleton.2 hact⟩, hstage'⟩

/-- A task that was called with no literal has done nothing but to refuse it. -/
theorem refused_of_runs {log : List (Event Task)} {s : State Task} (h : (system os).Runs log s) (task : Task)
    (hcalled : ∀ address, .parse address ∈ acts task log → address = none) :
    (acts task log = [] ∧ s.stage task = .called ∨ acts task log = [.parse none] ∧ s.stage task =
      .returned (.error "Expected an IPv4 or IPv6 literal; hostnames and scoped addresses are not accepted")) ∧
      s.leases.phase task = .called := by
  refine history_of_own (P := fun acts phase stage => (∀ address, .parse address ∈ acts → address = none) →
    (acts = [] ∧ stage = .called ∨ acts = [.parse none] ∧ stage =
      .returned (.error "Expected an IPv4 or IPv6 literal; hostnames and scoped addresses are not accepted")) ∧ phase = .called)
    (fun _ => ⟨Or.inl ⟨rfl, rfl⟩, rfl⟩) ?_ h task hcalled
  intro log s s' task act hrun ih hstep hparse
  obtain ⟨⟨hacts, hstage⟩ | ⟨-, hstage⟩, hphase⟩ := ih fun address hmem => hparse address (List.mem_append_left _ hmem)
  · rw [hacts] at hparse ⊢
    cases hstep with
    | refused _ =>
      simp only [State.enter, Function.update_self]
      exact ⟨Or.inr ⟨rfl, trivial⟩, hphase⟩
    | invalid _ _ => cases hparse _ (List.mem_singleton_self _)
    | parsed _ _ => cases hparse _ (List.mem_singleton_self _)
    | _ => simp_all
  · exact absurd hstep (returned_final hstage)

/-- What a call with this text does, in every interleaving. Where the text is a literal of an address, the task parses this address,
opens a socket of its family with a route to it, and sends its requests to it; nothing that it does aims elsewhere. Where it is no
literal, the task is refused, and takes no lease, opens no descriptor and makes no call. -/
theorem literals_only (os : TargetOs) (log : List (Event Task)) (s : State Task) (hrun : (system os).Runs log s) (task : Task)
    (text : String) (hcalled : ∀ address, .parse address ∈ acts task log → address = IpAddr.parse text) :
    (∀ addr, Literal text addr → ∀ act ∈ acts task log, act.Aims addr) ∧
    ((∀ addr, ¬Literal text addr) →
      (acts task log = [] ∧ s.stage task = .called ∨ acts task log = [.parse none] ∧ s.stage task =
        .returned (.error "Expected an IPv4 or IPv6 literal; hostnames and scoped addresses are not accepted")) ∧
      s.leases.phase task = .called ∧ ∀ fd, s.fds fd ≠ some (.task task)) := by
  constructor
  · intro addr hliteral
    rw [IpAddr.parse_eq_some.2 hliteral] at hcalled
    exact aims_of_runs hrun task hcalled
  · intro hnone
    have hparse : IpAddr.parse text = none := by
      rw [Option.eq_none_iff_forall_ne_some]
      exact fun addr h => hnone addr (IpAddr.parse_eq_some.1 h)
    rw [hparse] at hcalled
    obtain ⟨hacts, hphase⟩ := refused_of_runs hrun task hcalled
    refine ⟨hacts, hphase, fun fd hfd => ?_⟩
    obtain ⟨held, hholds, -, howns⟩ := Owning.run hrun task
    have hempty : held = ∅ := by
      rcases hacts with ⟨-, hstage⟩ | ⟨-, hstage⟩
      · rw [hstage] at howns
        exact howns
      · rw [hstage] at howns
        exact howns
    have hmem := (hholds fd).1 hfd
    rw [hempty] at hmem
    exact absurd hmem (Finset.notMem_empty fd)

/-- The sample task was called with the address that it probes. -/
theorem literals_only_sample : (acts () (sampleOpened ++ sampleAnswered)).Forall (Act.Aims sampleProbe.target) := by
  obtain ⟨s, hrun, -⟩ := runs_sampleAnswered
  refine List.forall_iff_forall_mem.2 ((literals_only .linux _ s hrun () sampleProbe.target.display ?_).1 _ (literal_display _))
  rw [IpAddr.parse_display]
  intro address hmem
  simp [acts, sampleOpened, sampleAnswered, probeActs, sampleRaw] at hmem
  exact hmem

/-! ## The address in a message -/

/-- The kernel names no offender for an error of the host itself. -/
def NamesNoLocalOffender (calls : List (Exchange Syscall.Answer)) : Prop :=
  ∀ record header error offender, ⟨.recvmsg, .ok record⟩ ∈ calls → header ∈ record.control → header.payload = some (error, offender) →
    error.origin = originLocal → sockaddrIp offender = none

/-- The last that a probe has judged is an ICMP error with this cause, about the request of its current attempt and no later than its
deadline, which this address has reported: in a packet from it, over a raw socket, or in a record of the error queue that names it as the
offender, over a ping socket. -/
inductive Reported (os : TargetOs) (p : Probe) (log : List (Probe.Event × List (Exchange Syscall.Answer))) (cause : String)
    (source : IpAddr) : Socket → Prop where
  | raw (fd : Fd) (seq : UInt16) (start first : Instant) (packet message : Bytes)
    (hlast : LastPacket p os log seq start first packet source (.negative (withSource cause source)))
    (hcarries : Carries source p.localAddr message packet)
    (habout : IsErrorAbout (p.overRaw.expected seq) source message (withSource cause source))
    (hcause : reason p.target.isIpv6 (byteAt message 0) (byteAt message 1) = some cause) : Reported os p log cause source (.raw fd)
  | ping (fd : Fd) (transport : Ping) (seq : UInt16) (start first : Instant) (record : Record) (error : ExtendedError)
    (hlast : LastJudged (p.over transport) log seq start first ⟨.recvmsg, .ok record⟩ (.negative (withSource cause source)))
    (habout : RecordAbout (p.over transport) seq record error) (horigin : error.origin = originIcmp p.target.isIpv4)
    (hoffender : error.offender = some source) (hcause : reason p.target.isIpv6 error.kind error.code = some cause) :
    Reported os p log cause source (.ping fd transport)

/-- A text that ends otherwise names no source. -/
theorem ne_withSource {text cause : String} {source : IpAddr} (h : text.toList.getLast? ≠ some ')') : text ≠ withSource cause source := by
  rintro rfl
  refine h ?_
  rw [withSource, String.toList_append]
  exact List.getLast?_concat ..

/-- A reason alone does not end like a source. -/
theorem getLast?_reason {v6 : Bool} {kind code : UInt8} {cause : String} (h : reason v6 kind code = some cause) :
    cause.toList.getLast? ≠ some ')' := by
  unfold reason at h
  split at h <;> cases h <;> decide

/-- Nor does an error of the system. -/
theorem getLast?_networkError {error : IoError} {text : String} (h : networkError error = some text) :
    text.toList.getLast? ≠ some ')' := by
  unfold networkError at h
  split at h <;> cases h <;> decide

/-- A call that failed names no source. -/
theorem failed_ne_withSource (stage : String) (error : IoError) (cause : String) (source : IpAddr) :
    failed stage error ≠ .ok (.negative (withSource cause source)) := by
  unfold failed
  split
  · rename_i text htext
    exact fun h => ne_withSource (getLast?_networkError htext) (congrArg Outcome.message (Except.ok.inj h))
  · nofun

/-- Nor do attempts that have timed out. -/
theorem timeoutMessage_ne_withSource {p : Probe} (hoptions : p.options = .default) (cause : String) (source : IpAddr) :
    p.timeoutMessage ≠ withSource cause source := by
  rw [timeoutMessage_default hoptions]
  have hlast : "Request timed out after 3 attempts".toList.getLast? ≠ some ')' := by decide
  exact ne_withSource hlast

/-- A text that names a source names the offender, where there is one. -/
theorem offender_of_errorText {cause cause' : String} {offender : Option IpAddr} {source : IpAddr}
    (hlast : cause'.toList.getLast? ≠ some ')') (h : errorText cause' offender = withSource cause source) :
    cause' = cause ∧ offender = some source := by
  cases offender with
  | none => exact absurd h (ne_withSource hlast)
  | some offender =>
    obtain ⟨rfl, rfl⟩ := withSource_injective h
    exact ⟨rfl, rfl⟩

/-- The error of a record is that of one of its control messages. -/
theorem mem_of_extendedError {target : IpAddr} {control : List ControlMessage} {error : ExtendedError}
    (h : extendedError target control = some error) : ∃ header ∈ control, ∃ error' offender, header.payload = some (error', offender) ∧
      error'.origin = error.origin ∧ error.offender = sockaddrIp offender := by
  induction control with
  | nil => cases h
  | cons header rest ih =>
    have hrest : extendedError target rest = some error → ∃ header' ∈ header :: rest, ∃ error' offender,
        header'.payload = some (error', offender) ∧ error'.origin = error.origin ∧ error.offender = sockaddrIp offender := fun h => by
      obtain ⟨header', hmem, hheader⟩ := ih h
      exact ⟨header', List.mem_cons_of_mem _ hmem, hheader⟩
    unfold extendedError at h
    split at h
    · split at h
      · rename_i error' offender hpayload
        cases h
        exact ⟨header, List.mem_cons_self, error', offender, hpayload, rfl, rfl⟩
      · exact hrest h
    · exact hrest h

/-- Where the kernel names no offender for its own errors, the error of a record that was read there has none, if it is local. -/
theorem NamesNoLocalOffender.offender_eq {calls : List (Exchange Syscall.Answer)} (h : NamesNoLocalOffender calls) {record : Record}
    (hmem : ⟨.recvmsg, .ok record⟩ ∈ calls) {target : IpAddr} {error : ExtendedError}
    (herror : extendedError target record.control = some error) (horigin : error.origin = originLocal) : error.offender = none := by
  obtain ⟨header, hheader, error', offender, hpayload, horigin', hoffender⟩ := mem_of_extendedError herror
  rw [hoffender]
  exact h record header error' offender hmem hheader hpayload (horigin'.trans horigin)

/-- A result over a raw socket that names a source is an ICMP error that this source has reported. -/
theorem reported_of_accounted {p : Probe} (hoptions : p.options = .default) {log : RawLog} {cause : String} {source : IpAddr} (fd : Fd)
    (h : Accounted p os log (.ok (.negative (withSource cause source)))) : Reported os p log cause source (.raw fd) := by
  generalize hresult : (Except.ok (.negative (withSource cause source)) : Except String Outcome) = result at h
  cases h with
  | answered => cases hresult
  | rejected seq start first packet message source' text hlast hcarries habout =>
    cases hresult
    have hparts := habout
    obtain ⟨-, -, cause', -, -, -, hcause, -, -, -, -, -, htext⟩ := hparts
    obtain ⟨rfl, rfl⟩ := withSource_injective htext
    exact .raw fd seq start first packet message hlast hcarries habout hcause
  | timedOut _ _ => exact absurd (congrArg Outcome.message (Except.ok.inj hresult)).symm (timeoutMessage_ne_withSource hoptions cause source)
  | unreachable stage error reason _ hreason =>
    exact absurd (congrArg Outcome.message (Except.ok.inj hresult)).symm (ne_withSource (getLast?_networkError hreason))
  | failed => cases hresult

/-- A result over a ping socket that names a source is an ICMP error that this source has reported. -/
theorem reported_of_pingAccounted {p : Probe} (hoptions : p.options = .default) {log : PingLog} {cause : String} {source : IpAddr} (fd : Fd)
    {transport : Ping} {calls : List (Exchange Syscall.Answer)} (hnames : NamesNoLocalOffender calls)
    (hcalls : ∀ entry ∈ log, ∀ x ∈ entry.2, x ∈ calls)
    (h : PingAccounted (p.over transport) log (.ok (.negative (withSource cause source)))) :
    Reported os p log cause source (.ping fd transport) := by
  generalize hresult : (Except.ok (.negative (withSource cause source)) : Except String Outcome) = result at h
  cases h with
  | answered => cases hresult
  | reported seq start first record error text hlast habout htext =>
    cases hresult
    generalize hnamed : withSource cause source = text at htext
    cases htext with
    | icmp cause' horigin hcause =>
      obtain ⟨rfl, hoffender⟩ := offender_of_errorText (getLast?_reason hcause) hnamed.symm
      exact .ping fd transport seq start first record error hlast habout horigin hoffender hcause
    | tooBig horigin herrno =>
      -- a datagram that the host itself finds too big has no offender
      have hlast' : "Packet too big".toList.getLast? ≠ some ')' := by decide
      obtain ⟨-, hoffender⟩ := offender_of_errorText hlast' hnamed.symm
      obtain ⟨earlier, wait, written, length, source', before, bytes, second, -, -, rfl⟩ := hlast.ends
      have hmem : ⟨.recvmsg, .ok record⟩ ∈ calls :=
        hcalls (.received wait written (.ok (length, source')), before ++ [⟨.recvmsg, .ok record⟩]) (by simp) _ (by simp)
      rw [hnames.offender_eq hmem (Ping.extendedError_of_usable habout.usable) horigin] at hoffender
      cases hoffender
  | timedOut _ _ =>
    exact absurd (congrArg Outcome.message (Except.ok.inj hresult)).symm
      (timeoutMessage_ne_withSource (p := p.over transport) hoptions cause source)
  | unsent packet error => exact absurd hresult.symm (failed_ne_withSource _ _ _ _)
  | unreceived wait written error => exact absurd hresult.symm (failed_ne_withSource _ _ _ _)

/-- Where a promise resolves with a message that names a source, and the kernel names no offender for its own errors, the last that its
task has judged is an ICMP error about its request that this source has reported, with the cause that the message names. -/
theorem source_told (os : TargetOs) (log : List (Event Task)) (s : State Task) (hrun : (system os).Runs log s) (task : Task)
    (hnames : NamesNoLocalOffender (made (acts task log))) (cause : String) (source : IpAddr)
    (hstage : s.stage task = .returned (.ok (.negative (withSource cause source)))) :
    ∃ p state socket₀ socket, ProbeRun os (acts task log) p state socket₀ socket ∧
      Reported os p (probes (acts task log)) cause source socket₀ := by
  have hcalls : ∀ entry ∈ probes (acts task log), ∀ x ∈ entry.2, x ∈ made (acts task log) := fun entry hentry x hx => by
    rw [made_eq hrun task]
    exact List.mem_append_left _ (List.mem_flatMap.2 ⟨entry, hentry, hx⟩)
  have htold := told hrun task
  rw [hstage] at htold
  generalize hresult : (Except.ok (.negative (withSource cause source)) : Except String Outcome) = result at htold
  cases (show Came os (acts task log) result from htold) with
  | probed p state socket₀ socket _ hprobe hdone haccounted =>
    subst hresult
    refine ⟨p, state, socket₀, socket, hprobe, ?_⟩
    cases haccounted with
    | raw fd _ haccounted => exact reported_of_accounted hprobe.options fd haccounted
    | ping fd transport _ haccounted => exact reported_of_pingAccounted hprobe.options fd hnames hcalls haccounted
  | _ => cases hresult

/-- The kernel permits no raw socket. -/
def sampleDenied : IoError := { kind := .permissionDenied, rawOsError := some 1, text := "Operation not permitted (os error 1)" }

/-- A task alone has opened a ping socket. -/
def sampleFallback : List (Event Unit) :=
  [.parse (some sampleProbe.target), .lease .get, .lease (.fill (.ok (0x12, 0x34))), .lease .getOrInit, .lease (.lock (10 : Nat)),
    .fill (.ok (List.replicate 56 7)), .setup ⟨.socket true .raw, .error sampleDenied⟩, .setup ⟨.socket true .dgram, .ok 3⟩,
    .setup ⟨.setTtlV4 3 64, .ok ()⟩, .setup ⟨.udpBind ⟨.v4 ⟨0, 0, 0, 0⟩, 0⟩, .ok 4⟩,
    .setup ⟨.connect 4 ⟨sampleProbe.target, 33434⟩, .ok ()⟩, .setup ⟨.localAddr 4, .ok ⟨sampleProbe.localAddr, 40000⟩⟩,
    .setup ⟨.bind 3 ⟨sampleProbe.localAddr, 0⟩, .ok ()⟩, .setup ⟨.sockName 3, .ok (some ⟨sampleProbe.localAddr, 0x1234⟩)⟩,
    .setup ⟨.setRecvErr 3 true, .ok ()⟩, .setup ⟨.setWriteTimeout 3 (1000000000 : Nat), .ok ()⟩, .setup ⟨.close 4, ()⟩].map (.task ())

/-- A run that opens a ping socket. -/
theorem runs_sampleFallback : ∃ s, (system .linux).Steps init sampleFallback s ∧
    s.stage () = .probing (.ping 3 samplePing) (sampleProbe.over samplePing) (sampleProbe.over samplePing).init [] ∧
    ∃ leases, Lease.step s.leases ((), .drop (6000 : Nat)) = some leases := by
  refine ⟨_, ⟨_, .parsed rfl rfl, _, .leasing rfl rfl nofun, _, .leasing rfl rfl nofun, _, .leasing rfl rfl nofun, _,
    .leasing rfl rfl nofun, _, .filled rfl rfl, _, .setup rfl nofun, _, .setup rfl ?_, _, .setup rfl nofun, _, .setup rfl ?_,
    _, .setup rfl nofun, _, .setup rfl nofun, _, .setup rfl nofun, _, .setup rfl nofun, _, .setup rfl nofun, _, .setup rfl nofun,
    _, .setup rfl nofun, rfl⟩, rfl, _, rfl⟩
  · exact fresh_of_free 3 rfl rfl
  · exact fresh_of_free 4 rfl rfl

/-- It reads the record, and returns. -/
def sampleReported : List (Event Unit) :=
  sampleFallback ++ (probeActs sampleQueuedLog).map (.task ()) ++ [.task () .close, .task () (.drop (6000 : Nat))]

/-- A run that ends with the error of a record. -/
theorem runs_sampleReported : ∃ s, (system .linux).Runs sampleReported s ∧
    s.stage () = .returned (.ok (.negative (withSource "Host unreachable" (.v4 ⟨192, 0, 2, 3⟩)))) := by
  have htext : withSource "Host unreachable" (.v4 ⟨192, 0, 2, 3⟩) = "Host unreachable (source=192.0.2.3)" := by decide +kernel
  obtain ⟨s, hopened, hstage, leases, hdrop⟩ := runs_sampleFallback
  obtain ⟨state, hping, hdone⟩ := pingRuns_sampleQueuedLog
  obtain ⟨s', hprobed, hstage', hleases, -⟩ := runs_of_socketRuns (hping.socketRuns .linux 3) (System.Runs.start.append hopened) hstage
  have hclosing : s'.stage () = .closing 3 0x1234 (.ok (.negative (withSource "Host unreachable" (.v4 ⟨192, 0, 2, 3⟩)))) := by
    rw [hstage', probing, hdone, htext]
    rfl
  rw [← hleases] at hdrop
  obtain ⟨s'', hreturned, hstage'', -⟩ := runs_closing hprobed hclosing hdrop
  exact ⟨s'', hreturned, hstage''⟩

/-- The only record that the sample task reads is of an ICMP error. -/
theorem namesNoLocalOffender_sampleReported : NamesNoLocalOffender (made (acts () sampleReported)) := by
  intro record header error offender hmem hheader hpayload horigin
  have hread : record = sampleQueuedRecord := by
    simp [sampleReported, sampleFallback, acts, made, probeActs, sampleQueuedLog, sampleEmpty] at hmem
    exact hmem
  subst hread
  obtain rfl := List.mem_singleton.1 hheader
  cases hpayload
  cases horigin

theorem source_told_sample : ∃ s p state socket₀ socket, (system .linux).Runs sampleReported s ∧
    s.stage () = .returned (.ok (.negative (withSource "Host unreachable" (.v4 ⟨192, 0, 2, 3⟩)))) ∧
    ProbeRun .linux (acts () sampleReported) p state socket₀ socket ∧
    Reported .linux p (probes (acts () sampleReported)) "Host unreachable" (.v4 ⟨192, 0, 2, 3⟩) socket₀ := by
  obtain ⟨s, hrun, hstage⟩ := runs_sampleReported
  obtain ⟨p, state, socket₀, socket, hprobe, hreported⟩ := source_told .linux sampleReported s hrun ()
    namesNoLocalOffender_sampleReported "Host unreachable" (.v4 ⟨192, 0, 2, 3⟩) hstage
  exact ⟨s, p, state, socket₀, socket, hrun, hstage, hprobe, hreported⟩

end Process

end IcmpPing
