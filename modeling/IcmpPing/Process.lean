import IcmpPing.Compute
import IcmpPing.Setup

/-!
# Tasks, call by call (`lib.rs`)

The tasks of a process again, with the calls that they make. Opening a socket takes one call after the other, and the calls of all
tasks share the descriptors of the process with what else runs in it. A probe takes one call after the other, too, on the socket of
its task. A task that has its result closes its socket, and then drops its lease.
-/

namespace IcmpPing

/-- What `ping` resolves to. `None` is an explicit null. -/
structure PingResult where
  success : Bool
  latency : Option Duration
  message : String
  deriving DecidableEq, Repr

/-- `PingTask::resolve` -/
def resolve (out : Outcome) : PingResult where
  success := out.latency.isSome
  latency := out.latency
  message := out.message

namespace Socket

def identifier : Socket → UInt16 → UInt16
  | .raw _, leased => leased
  | .ping _ transport, leased => transport.identifier leased

/-- The transport serves an event of a probe: with these calls, and leaving it so. -/
inductive Serves (os : TargetOs) : Socket → List (Exchange Syscall.Answer) → Socket → Probe.Event → Prop where
  | raw {fd : Fd} {calls : List (Exchange Syscall.Answer)} {e : Probe.Event} :
    Raw.Serves os calls e → Serves os (.raw fd) calls (.raw fd) e
  | ping {fd : Fd} {ping ping' : Ping} {calls : List (Exchange Syscall.Answer)} {e : Probe.Event} :
    ping.Serves calls ping' e → Serves os (.ping fd ping) calls (.ping fd ping') e

end Socket

/-- The probe reads the clock here. -/
def Probe.Point.ReadsClock : Probe.Point → Prop
  | .start _ | .test _ _ | .elapsed _ _ _ _ | .late _ _ _ _ _ => True
  | .send _ _ | .receive _ _ _ | .judge _ _ _ _ _ | .done _ => False

/-- The next call of `receive`: its first reading of the clock, or a call of its loop. -/
inductive Ping.ReceiveAsks (wait : Duration) (ping : Ping) : List (Exchange Syscall.Answer) → Syscall → Prop where
  | start : ReceiveAsks wait ping [] .now
  | turn {start : Instant} {calls : List (Exchange Syscall.Answer)} {call : Syscall}
    (hloop : Method.LoopAsks (receiveTurn (start + wait)) ping calls call) : ReceiveAsks wait ping (⟨.now, start⟩ :: calls) call

/-- The next call that a probe makes at a point, after these calls: it reads the clock, or its transport sends or receives. -/
inductive Socket.Asks (os : TargetOs) (p : Probe) : Socket → Probe.Point → List (Exchange Syscall.Answer) → Syscall → Prop where
  | clock {socket : Socket} {point : Probe.Point} (hclock : point.ReadsClock) : Asks os p socket point [] .now
  | sendRaw {fd : Fd} {seq : UInt16} {start : Instant} {packet : Bytes} {calls : List (Exchange Syscall.Answer)} {call : Syscall}
    (hpacket : p.request seq = .ok packet) (hasks : (Raw.send packet p.target).Asks () calls call) :
    Asks os p (.raw fd) (.send seq start) calls call
  | sendPing {fd : Fd} {ping : Ping} {seq : UInt16} {start : Instant} {packet : Bytes} {calls : List (Exchange Syscall.Answer)}
    {call : Syscall} (hpacket : p.request seq = .ok packet) (hasks : (Ping.send packet p.target).Asks ping calls call) :
    Asks os p (.ping fd ping) (.send seq start) calls call
  | receiveRaw {fd : Fd} {seq : UInt16} {start : Instant} {wait : Duration} {calls : List (Exchange Syscall.Answer)} {call : Syscall}
    (hasks : (Raw.receive os wait).Asks () calls call) : Asks os p (.raw fd) (.receive seq start wait) calls call
  | receivePing {fd : Fd} {ping : Ping} {seq : UInt16} {start : Instant} {wait : Duration} {calls : List (Exchange Syscall.Answer)}
    {call : Syscall} (hasks : ping.ReceiveAsks wait calls call) : Asks os p (.ping fd ping) (.receive seq start wait) calls call

namespace Process

/-- What is left of `open`. -/
abbrev Opening := Program Setup Setup.Answer (Except String (Socket × IpAddr) × Unit)

/-- Where a task is. -/
inductive Stage where
  | called
  | leasing (target : IpAddr)
  | leased (target : IpAddr) (id : UInt16)
  | opening (target : IpAddr) (id : UInt16) (payload : Bytes) (call : Setup) (next : Setup.Answer call → Opening)
  /-- It probes, and has made these calls for the next event of the probe. -/
  | probing (socket : Socket) (p : Probe) (state : Probe.State) (calls : List (Exchange Syscall.Answer))
  /-- It has its result, and drops the socket. -/
  | closing (fd : Fd) (id : UInt16) (result : Except String Outcome)
  /-- It drops the lease. -/
  | returning (id : UInt16) (result : Except String Outcome)
  | returned (result : Except String Outcome)

/-- What a task does. -/
inductive Act where
  | parse (address : Option IpAddr)
  | lease (action : Lease.Action)
  | fill (payload : Except String Bytes)
  | setup (x : Exchange Setup.Answer)
  | call (x : Exchange Syscall.Answer)
  /-- The probe goes on with an event, for which these calls were made. -/
  | probe (e : Probe.Event) (calls : List (Exchange Syscall.Answer))
  | close
  | drop (now : Instant)

/-- What happens: a task does something, or what else runs in the process opens or closes a descriptor of its own. -/
inductive Event (Task : Type) where
  | task (task : Task) (act : Act)
  | opens (fd : Fd)
  | closes (fd : Fd)

/-- By whom a descriptor was opened. -/
inductive Holder (Task : Type) where
  | task (task : Task)
  | elsewhere

structure State (Task : Type) where
  leases : Lease.State Task
  /-- The descriptors that are open. -/
  fds : Fd → Option (Holder Task)
  stage : Task → Stage

def init {Task : Type} : State Task where
  leases := Lease.init
  fds := fun _ => none
  stage := fun _ => .called

/-- After a step of `Lease::acquire`. -/
def leasing (target : IpAddr) : {Task : Type} → Lease.Phase Task → Stage
  | _, .live id _ => .leased target id
  | _, .failed message => .returned (.error message)
  | _, _ => .leasing target

/-- After a step of `probe`. -/
def probing (socket : Socket) (p : Probe) (state : Probe.State) : Stage :=
  match state.point with
  | .done result => .closing socket.fd p.leased result
  | _ => .probing socket p state []

/-- The arguments of `probe`. -/
def probeOf (target localAddr : IpAddr) (socket : Socket) (id : UInt16) (payload : Bytes) : Probe where
  target := target
  localAddr := localAddr
  identifier := socket.identifier
  leased := id
  payload := payload
  options := .default

/-- After a step of `open`. -/
def opening (target : IpAddr) (id : UInt16) (payload : Bytes) : Opening → Stage
  | .ask call next => .opening target id payload call next
  | .ret (.error message, _) => .returning id (.error message)
  | .ret (.ok (socket, localAddr), _) =>
    let p := probeOf target localAddr socket id payload
    probing socket p p.init

variable {Task : Type} [DecidableEq Task]

/-- The task goes on to this stage. -/
def State.enter (s : State Task) (task : Task) (stage : Stage) : State Task :=
  { s with stage := Function.update s.stage task stage }

/-- What a call of a task does to the descriptors. -/
def State.exchange (s : State Task) (holder : Holder Task) (x : Exchange Setup.Answer) : State Task :=
  { s with fds := fun fd => if fd ∈ Setup.handling.hands x then some holder else if fd ∈ Setup.handling.gives x.1 then none else s.fds fd }

/-- The steps, one rule for each place of `compute`. The system hands out no descriptor that is open. -/
inductive Step (os : TargetOs) (s : State Task) : Event Task → State Task → Prop where
  | refused {task : Task} (hstage : s.stage task = .called) : Step os s (.task task (.parse none)) (s.enter task (.returned
      (.error "Expected an IPv4 or IPv6 literal; hostnames and scoped addresses are not accepted")))
  | invalid {task : Task} {target : IpAddr} {message : String} (hstage : s.stage task = .called)
    (hinvalid : Options.default.validate = .error message) :
    Step os s (.task task (.parse (some target))) (s.enter task (.returned (.error message)))
  | parsed {task : Task} {target : IpAddr} (hstage : s.stage task = .called) (hvalid : Options.default.validate = .ok ()) :
    Step os s (.task task (.parse (some target))) (s.enter task (.leasing target))
  | leasing {task : Task} {target : IpAddr} {action : Lease.Action} {leases : Lease.State Task}
    (hstage : s.stage task = .leasing target) (hstep : Lease.step s.leases (task, action) = some leases)
    (hdrop : ∀ now, action ≠ .drop now) :
    Step os s (.task task (.lease action)) ({ s with leases := leases }.enter task (leasing target (leases.phase task)))
  | unfilled {task : Task} {target : IpAddr} {id : UInt16} {message : String} (hstage : s.stage task = .leased target id) :
    Step os s (.task task (.fill (.error message))) (s.enter task (.returning id (.error ("ICMP random payload: " ++ message))))
  | filled {task : Task} {target : IpAddr} {id : UInt16} {payload : Bytes} (hstage : s.stage task = .leased target id)
    (hlength : payload.length = Options.default.payloadSize) :
    Step os s (.task task (.fill (.ok payload)))
      (s.enter task (opening target id payload (openTransport os target .default ())))
  | setup {task : Task} {target : IpAddr} {id : UInt16} {payload : Bytes} {call : Setup} {next : Setup.Answer call → Opening}
    {answer : Setup.Answer call} (hstage : s.stage task = .opening target id payload call next)
    (hfresh : ∀ fd ∈ Setup.handling.hands ⟨call, answer⟩, s.fds fd = none) :
    Step os s (.task task (.setup ⟨call, answer⟩))
      ((s.exchange (.task task) ⟨call, answer⟩).enter task (opening target id payload (next answer)))
  | calling {task : Task} {socket : Socket} {p : Probe} {state : Probe.State} {calls : List (Exchange Syscall.Answer)} {call : Syscall}
    {answer : Syscall.Answer call} (hstage : s.stage task = .probing socket p state calls)
    (hasks : socket.Asks os p state.point calls call) :
    Step os s (.task task (.call ⟨call, answer⟩)) (s.enter task (.probing socket p state (calls ++ [⟨call, answer⟩])))
  | probing {task : Task} {socket socket' : Socket} {p : Probe} {state state' : Probe.State} {e : Probe.Event}
    {calls : List (Exchange Syscall.Answer)} (hstage : s.stage task = .probing socket p state calls)
    (hserves : socket.Serves os calls socket' e) (hstep : p.step state e = some state') :
    Step os s (.task task (.probe e calls)) (s.enter task (probing socket' p state'))
  | closed {task : Task} {fd : Fd} {id : UInt16} {result : Except String Outcome} (hstage : s.stage task = .closing fd id result) :
    Step os s (.task task .close) ((s.exchange (.task task) ⟨.close fd, ()⟩).enter task (.returning id result))
  | dropped {task : Task} {id : UInt16} {result : Except String Outcome} {now : Instant} {leases : Lease.State Task}
    (hstage : s.stage task = .returning id result) (hstep : Lease.step s.leases (task, .drop now) = some leases) :
    Step os s (.task task (.drop now)) ({ s with leases := leases }.enter task (.returned result))
  | opens {fd : Fd} (hfree : s.fds fd = none) :
    Step os s (.opens fd) { s with fds := Function.update s.fds fd (some .elsewhere) }
  | closes {fd : Fd} (hopen : s.fds fd = some .elsewhere) :
    Step os s (.closes fd) { s with fds := Function.update s.fds fd none }

/-- The process, on a system. -/
def system (os : TargetOs) : System (State Task) (Event Task) := ⟨init, Step os⟩

end Process

end IcmpPing
