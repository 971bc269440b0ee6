import IcmpPing.Lib.Transition
import IcmpPing.Packet

/-!
# The probe (`engine.rs`)

One probe: up to so many attempts, each with its own request, its own deadline and its own receive loop. The loop is a machine.
Its points are the places of `probe` where it waits for the clock, for the transport, or for the transport's judgement of a
packet, and its events are what it gets there, whatever the transport and the clock do. A reading of the clock is an event of
its own, so that the deadline can pass between any two of them.
-/

namespace IcmpPing

structure Options where
  timeout : Duration
  attempts : UInt16
  ttl : UInt32
  /-- Payload bytes; the complete ICMP message is `payloadSize + 8` bytes. -/
  payloadSize : Nat
  deriving DecidableEq, Repr

/-- `Options::default` -/
def Options.default : Options where
  timeout := fromMillis 1000
  attempts := 3
  ttl := 64
  payloadSize := 56

def Options.validate (options : Options) : Except String Unit :=
  if options.timeout = 0 ∨ options.timeout > fromSecs 10 ∨ options.attempts = 0 ∨ options.attempts > 10 ∨ options.ttl = 0 ∨
      options.ttl > 255 ∨ ¬(16 ≤ options.payloadSize ∧ options.payloadSize ≤ 1200) then
    .error "Invalid internal ICMP configuration"
  else .ok ()

/-- What a probe comes to. The latency is the exact duration, which the source gives as a number of milliseconds. -/
structure Outcome where
  latency : Option Duration
  message : String
  deriving DecidableEq, Repr

def Outcome.negative (message : String) : Outcome := { latency := none, message := message }

def operationError (stage : String) (error : IoError) : String :=
  if error.kind = .permissionDenied ∨ error.rawOsError = some 1 ∨ error.rawOsError = some 13 ∨ error.rawOsError = some 10013 then
    "ICMP " ++ stage ++ ": socket permission denied; Windows requires Administrator privileges, Linux requires " ++
      "CAP_NET_RAW/root, macOS IPv4 tries an unprivileged ICMP datagram socket, IPv6 requires root (" ++ error.text ++ ")"
  else "ICMP " ++ stage ++ ": " ++ error.text

def networkError (error : IoError) : Option String :=
  match error.kind with
  | .networkUnreachable => some "Network unreachable"
  | .hostUnreachable => some "Host unreachable"
  | _ => none

/-- What `probe` returns on an error of the transport that it does not handle otherwise. -/
def failed (stage : String) (error : IoError) : Except String Outcome :=
  match networkError error with
  | some reason => .ok (.negative reason)
  | none => .error (operationError stage error)

/-- The receive buffer, of 65535 bytes. -/
structure Buffer where
  bytes : Bytes
  length_bytes : bytes.length = 65535

namespace Buffer

/-- `vec![0u8; 65535]` -/
def zero : Buffer := ⟨List.replicate 65535 0, List.length_replicate⟩

/-- What a receive leaves: the bytes it writes come first, and those it does not reach stay. -/
def write (buffer : Buffer) (written : Bytes) : Buffer where
  bytes := written.take 65535 ++ buffer.bytes.drop written.length
  length_bytes := by
    rw [List.length_append, List.length_take, List.length_drop, buffer.length_bytes]
    omega

end Buffer

/-- The arguments of a call of `probe`, and the identifier its transport makes of the leased one. -/
structure Probe where
  target : IpAddr
  localAddr : IpAddr
  identifier : UInt16 → UInt16
  leased : UInt16
  payload : Bytes
  options : Options

namespace Probe

/-- `transport.identifier(id)` -/
def id (p : Probe) : UInt16 := p.identifier p.leased

/-- The packet of an attempt. -/
def request (p : Probe) (seq : UInt16) : Checked Bytes := echo p.target p.localAddr p.id seq p.payload

/-- What an attempt expects. -/
def expected (p : Probe) (seq : UInt16) : Expected where
  target := p.target
  localAddr := p.localAddr
  id := p.id
  seq := seq
  payload := p.payload

/-- `start + options.timeout` -/
def deadline (p : Probe) (start : Instant) : Instant := start + p.options.timeout

/-- Where `probe` waits: for the clock at the start of an attempt, for the transport to send, for the clock at the test of the
receive loop, for the transport to receive, for the clock twice after a receive, for the transport to judge what was received;
or not at all. -/
inductive Point where
  | start (seq : UInt16)
  | send (seq : UInt16) (start : Instant)
  | test (seq : UInt16) (start : Instant)
  | receive (seq : UInt16) (start : Instant) (wait : Duration)
  | elapsed (seq : UInt16) (start : Instant) (length : Nat) (source : IpAddr)
  | late (seq : UInt16) (start : Instant) (length : Nat) (source : IpAddr) (elapsed : Duration)
  | judge (seq : UInt16) (start : Instant) (length : Nat) (source : IpAddr) (elapsed : Duration)
  | done (result : Except String Outcome)
  deriving DecidableEq

/-- What `probe` gets: a reading of the clock, the results of `send`, `receive` and `parse_reply`, with the arguments it calls
them with. A receive also says what it wrote to the buffer. -/
inductive Event where
  | clock (now : Instant)
  | sent (packet : Bytes) (target : IpAddr) (result : Except IoError Unit)
  | received (wait : Duration) (written : Bytes) (result : Except IoError (Nat × IpAddr))
  | judged (bytes : Bytes) (source : IpAddr) (expected : Expected) (reply : Option Reply)

structure State where
  point : Point
  buffer : Buffer

/-- The message of a probe whose attempts have all timed out. -/
def timeoutMessage (p : Probe) : String := "Request timed out after " ++ toString p.options.attempts.toNat ++ " attempts"

/-- The end of an attempt: the next one, or the end of the last. -/
def nextAttempt (p : Probe) (seq : UInt16) : Point :=
  if seq < p.options.attempts then .start (seq + 1) else .done (.ok (.negative p.timeoutMessage))

/-- The start of `probe`, up to its first reading of the clock. -/
def init (p : Probe) : State where
  point :=
    match p.options.validate with
    | .error e => .done (.error e)
    | .ok () =>
      if p.payload.length ≠ p.options.payloadSize then .done (.error "Invalid internal ICMP payload length") else .start 1
  buffer := .zero

/-- What `probe` does after a receive. -/
def afterReceive (p : Probe) (seq : UInt16) (start : Instant) : Except IoError (Nat × IpAddr) → Point
  | .ok (length, source) => .elapsed seq start length source
  | .error error =>
    if error.kind = .timedOut ∨ error.kind = .wouldBlock then p.nextAttempt seq
    else if error.kind = .interrupted then .test seq start
    else .done (failed "receive" error)

/-- What `probe` does with the judgement of a packet. -/
def afterJudgement (seq : UInt16) (start : Instant) (elapsed : Duration) : Option Reply → Point
  | some .echo => .done (.ok { latency := some elapsed, message := "" })
  | some (.negative message) => .done (.ok (.negative message))
  | none => .test seq start

def step (p : Probe) (s : State) (e : Event) : Option State :=
  match s.point, e with
  | .start seq, .clock now => some { s with point := .send seq now }
  | .send seq start, .sent packet target result =>
    if p.request seq = .ok packet ∧ target = p.target then
      match result with
      | .ok () => some { s with point := .test seq start }
      | .error error => some { s with point := .done (failed "send" error) }
    else none
  | .test seq start, .clock now =>
    match checkedDurationSince (p.deadline start) now with
    | some wait => some { s with point := .receive seq start wait }
    | none => some { s with point := p.nextAttempt seq }
  | .receive seq start wait, .received wait' written result =>
    if wait' = wait then some { point := p.afterReceive seq start result, buffer := s.buffer.write written } else none
  | .elapsed seq start length source, .clock now =>
    some { s with point := .late seq start length source (durationSince now start) }
  | .late seq start length source elapsed, .clock now =>
    if now > p.deadline start then some { s with point := p.nextAttempt seq }
    else if length > 65535 then some { s with point := .done (.error "ICMP receive returned invalid length") }
    else some { s with point := .judge seq start length source elapsed }
  | .judge seq start length source elapsed, .judged bytes source' expected reply =>
    if bytes = s.buffer.bytes.take length ∧ source' = source ∧ expected = p.expected seq then
      some { s with point := afterJudgement seq start elapsed reply }
    else none
  | _, _ => none

def machine (p : Probe) : Machine State Event := ⟨p.step⟩

/-- A call of `probe` has these events, in this order, and is left in this state. -/
def Runs (p : Probe) (events : List Event) (s : State) : Prop := p.machine.run p.init events = some s

end Probe

/-! ## Transports that parse packets -/

/-- The judgements of a transport that keeps the default `parse_reply` are those of `parse`. -/
def ParsesPackets (events : List Probe.Event) : Prop :=
  ∀ bytes source expected reply, .judged bytes source expected reply ∈ events → parse bytes source expected = .ok reply

end IcmpPing
