import IcmpPing.Lib.Program
import IcmpPing.Packet

/-!
# The Linux ping socket (`linux.rs`)

The adapter that probes through an unprivileged ICMP datagram socket, where errors come from the socket's error queue. Its
methods make system calls; what the kernel answers is left open. Where a call of the source fills a buffer, the bytes it writes
there are part of its answer, and a method that hands the buffer on returns them with its result.
-/

namespace IcmpPing

/-! ## What the kernel answers -/

/-- A `sockaddr_storage` of which so many bytes were returned: its family, and the bytes after it. -/
structure SockAddr where
  family : UInt16
  data : Bytes
  deriving DecidableEq

/-- The fields of a `sock_extended_err` that are read. -/
structure SockExtendedErr where
  errno : UInt32
  origin : UInt8
  kind : UInt8
  code : UInt8
  deriving DecidableEq

/-- A control message: its payload is read as an extended error and the offender's address when it has room for the error. -/
structure ControlMessage where
  level : Int
  kind : Int
  payload : Option (SockExtendedErr × SockAddr)
  deriving DecidableEq

/-- A record of the error queue, as `recvmsg` returns it: the bytes it writes to the buffer, whether data or control messages
were truncated, the original destination, and the control messages. -/
structure Record where
  data : Bytes
  truncated : Bool
  address : SockAddr
  control : List ControlMessage
  deriving DecidableEq

/-- The calls the adapter makes. -/
inductive Syscall where
  | now
  | recvmsg
  | takeError
  | sendTo (packet : Bytes) (target : IpAddr)
  | poll (millis : Nat)
  | setReadTimeout (wait : Duration)
  | recvFrom

abbrev Syscall.Answer : Syscall → Type
  | .now => Instant
  | .recvmsg => Except IoError Record
  | .takeError => Except IoError (Option IoError)
  | .sendTo _ _ => Except IoError Nat
  | .poll _ => Except IoError (Nat × UInt16)
  | .setReadTimeout _ => Except IoError Unit
  | .recvFrom => Except IoError (Bytes × IpAddr)

/-! ## Errors of the queue -/

structure ExtendedError where
  origin : UInt8
  kind : UInt8
  code : UInt8
  errno : UInt32
  offender : Option IpAddr
  deriving DecidableEq

/-- `SO_EE_ORIGIN_LOCAL` -/
def originLocal : UInt8 := 1

/-- `SO_EE_ORIGIN_ICMP` and `SO_EE_ORIGIN_ICMP6` -/
def originIcmp (v4 : Bool) : UInt8 := if v4 then 2 else 3

/-- `EMSGSIZE` -/
def emsgsize : UInt32 := 90

/-- `sockaddr_ip` -/
def sockaddrIp (address : SockAddr) : Option IpAddr :=
  if address.family = 2 ∧ address.data.length + 2 ≥ 16 then
    some (.v4 ⟨address.data.getD 2 0, address.data.getD 3 0, address.data.getD 4 0, address.data.getD 5 0⟩)
  else if address.family = 10 ∧ address.data.length + 2 ≥ 28 then
    (Ipv6Addr.tryFrom ((address.data.take 22).drop 6)).map .v6
  else none

/-- Whether a control message is an `IP_RECVERR` or an `IPV6_RECVERR`, by the target's family. -/
def relevant (target : IpAddr) (header : ControlMessage) : Bool :=
  if target.isIpv4 then header.level = 0 ∧ header.kind = 11 else header.level = 41 ∧ header.kind = 25

/-- The error of the first relevant control message that has room for one. -/
def extendedError (target : IpAddr) : List ControlMessage → Option ExtendedError
  | [] => none
  | header :: rest =>
    if relevant target header then
      match header.payload with
      | some (error, offender) => some
          { origin := error.origin, kind := error.kind, code := error.code, errno := error.errno,
            offender := sockaddrIp offender }
      | none => extendedError target rest
    else extendedError target rest

/-- What an error of the queue means, in `parse_error`: the reason of an ICMP error, or a datagram too big to be sent. -/
def errorCause (target : IpAddr) (error : ExtendedError) : Option String :=
  if error.origin = originIcmp target.isIpv4 then reason target.isIpv6 error.kind error.code
  else if error.origin = originLocal ∧ error.errno = emsgsize then some "Packet too big"
  else none

/-- The message of `parse_error`: the cause, with the offender when there is one. -/
def errorText (cause : String) : Option IpAddr → String
  | some source => withSource cause source
  | none => cause

def parseError (bytes : Bytes) (destination : IpAddr) (error : ExtendedError) (expected : Expected) :
    Checked (Option Reply) := do
  let request ← echo expected.target expected.localAddr expected.id expected.seq expected.payload
  -- Match even minimal quotes to the wire identifier, sequence and checksum; validate every quoted payload byte.
  if destination ≠ expected.target then return none
  if bytes.length < 8 then return none
  if bytes.length > request.length then return none
  if bytes ≠ (← slice request 0 bytes.length) then return none
  let some cause := errorCause expected.target error | return none
  return some (.negative (errorText cause error.offender))

/-! ## The transport -/

/-- `Ping`, without its descriptor. -/
structure Ping where
  id : UInt16
  target : IpAddr
  error : Option ExtendedError
  deriving DecidableEq

abbrev Kernel := Method Syscall Syscall.Answer Ping IoError

/-- What a received event is: the bytes written to the caller's buffer, the length reported, and the address. -/
structure Received where
  written : Bytes
  length : Nat
  source : IpAddr
  deriving DecidableEq

namespace Ping

/-- `Instant::now()` -/
abbrev now : Kernel Instant := Method.call Syscall.now

/-- `recvmsg(MSG_ERRQUEUE | MSG_DONTWAIT)` -/
abbrev recvmsg : Kernel (Except IoError Record) := Method.call Syscall.recvmsg

/-- `self.socket.take_error()` -/
abbrev takeError : Kernel (Except IoError (Option IoError)) := Method.call Syscall.takeError

abbrev sendTo (packet : Bytes) (target : IpAddr) : Kernel (Except IoError Nat) := Method.call (Syscall.sendTo packet target)

/-- `poll`: how many descriptors are ready, and what for. -/
abbrev poll (millis : Nat) : Kernel (Except IoError (Nat × UInt16)) := Method.call (Syscall.poll millis)

abbrev setReadTimeout (wait : Duration) : Kernel (Except IoError Unit) := Method.call (Syscall.setReadTimeout wait)

abbrev recvFrom : Kernel (Except IoError (Bytes × IpAddr)) := Method.call Syscall.recvFrom

def queuedError : Kernel (Option Received) := do
  match ← recvmsg with
  | .error error => if error.kind = .wouldBlock then return none else throw error
  | .ok record => do
    modify fun ping => { ping with error := none }
    let ping ← get
    -- A consumed but unusable entry is returned as an empty, ignored event.
    let ignored := some { written := record.data, length := 0, source := ping.target }
    if record.truncated then return ignored
    else match sockaddrIp record.address with
    | none => return ignored
    | some destination =>
      match extendedError ping.target record.control with
      | none => return ignored
      | some error => do
        modify fun ping => { ping with error := some error }
        return some { written := record.data, length := record.data.length, source := destination }

/-- `for _ in 0..n`: read the error queue until it is empty; whether a record was read, or one was before. -/
def drain : Nat → Bool → Kernel Bool
  | 0, queued => return queued
  | n + 1, queued => do
    match ← queuedError with
    | none => return queued
    | some _ => drain n true

/-- `poll_event`: readiness, once the error queue has been read. -/
def pollEvent (revents : UInt16) (queued : Option Received) (takeError : Kernel (Except IoError (Option IoError))) :
    Kernel (Option Received) :=
  if queued.isSome then return queued
  else if revents &&& 0x20 ≠ 0 then throw { kind := .other, rawOsError := none, text := "Invalid ping socket" }
  else if revents &&& 1 = 0 then do
    match ← takeError with
    | .error error => throw error
    | .ok (some error) => throw error.other
    | .ok none => return none
  else return none

def identifier (ping : Ping) (_leased : UInt16) : UInt16 := ping.id

def parseReply (ping : Ping) (bytes : Bytes) (source : IpAddr) (expected : Expected) : Checked (Option Reply) :=
  match ping.error with
  | some error => parseError bytes source error expected
  | none => parsePingEcho bytes source expected

/-- The end of `send`, once a datagram was sent. -/
def sentAll (packet : Bytes) (sent : Nat) : Kernel Unit :=
  if sent ≠ packet.length then throw { kind := .writeZero, rawOsError := none, text := "Incomplete ICMP ping send" }
  else return ()

/-- What `send` does when the first `send_to` fails: an old error may have arrived since the queue was drained, and then the
failed call is made once more. -/
def resend (packet : Bytes) (target : IpAddr) (error : IoError) : Kernel Nat := do
  let queued ← drain 64 false
  modify fun ping => { ping with error := none }
  if !queued then throw error.other
  else match ← takeError with
  | .error error => throw error
  | .ok _ => do
    match ← sendTo packet target with
    | .ok sent => return sent
    | .error error => throw error.other

def send (packet : Bytes) (target : IpAddr) : Kernel Unit := do
  let _ ← drain 64 false
  match ← takeError with
  | .error error => throw error
  | .ok _ => do
    modify fun ping => { ping with error := none }
    match ← sendTo packet target with
    | .ok sent => sentAll packet sent
    | .error error => do
      let sent ← resend packet target error
      sentAll packet sent

/-- The end of a turn of `receive`: the socket has data. -/
def receiveData (deadline : Instant) : Kernel (Option Received) := do
  let now ← now
  match ← setReadTimeout (max (durationSince deadline now) (fromMillis 1)) with
  | .error error => throw error
  | .ok () => do
    match ← recvFrom with
    | .ok (bytes, source) => do
      modify fun ping => { ping with error := none }
      return some { written := bytes, length := bytes.length, source := source }
    | .error error =>
      if error.kind = .wouldBlock ∨ error.kind = .timedOut ∨ error.kind = .interrupted then throw error
      else do
        match ← queuedError with
        | some event => return some event
        -- A bare asynchronous errno has no sequence or payload evidence.
        | none => throw error.other

/-- The middle of a turn of `receive`: wait for data or a record, and look at the queue again. -/
def receivePoll (deadline : Instant) : Kernel (Option Received) := do
  let now ← now
  match ← poll (min (max (durationSince deadline now / 1000000 + 1) 1) (2 ^ 31 - 1)) with
  | .error error => throw error
  | .ok (ready, revents) =>
    if ready = 0 then throw IoError.timedOut
    else do
      let queued ← queuedError
      match ← pollEvent revents queued takeError with
      | some event => return some event
      | none => if revents &&& 1 = 0 then return none else receiveData deadline

/-- A turn of the loop of `receive`; nothing is returned where the source goes on with the next turn. -/
def receiveTurn (deadline : Instant) : Kernel (Option Received) := do
  let now ← now
  if now ≥ deadline then throw IoError.timedOut
  else do
    match ← queuedError with
    | some event => return some event
    | none => do
      modify fun ping => { ping with error := none }
      receivePoll deadline

/-- The runs of `receive`: the deadline is `wait` after the first reading of the clock. -/
def ReceiveRuns (wait : Duration) (ping : Ping) (trace : List (Exchange Syscall.Answer)) (result : Except IoError Received)
    (ping' : Ping) : Prop :=
  ∃ start rest, trace = ⟨.now, start⟩ :: rest ∧ Method.LoopRuns (receiveTurn (start + wait)) ping rest result ping'

end Ping

end IcmpPing
