import IcmpPing.Darwin
import IcmpPing.PingProbe

/-!
# The raw transport (`engine.rs`)

The transport over a raw ICMP socket, or over the ICMP datagram socket of macOS, which is used in the same way. It has no state
but its socket. On macOS it restores the wire form of the datagrams it receives, in the caller's buffer.
-/

namespace IcmpPing

/-- `cfg(target_os)`: the systems that are told apart, macOS with the byte order of the host. -/
inductive TargetOs where
  | linux
  | macos (order : ByteOrder)
  | windows
  deriving DecidableEq, Repr

/-- How a method of a transport ends without a result. -/
inductive Fault where
  | io (error : IoError)
  | panic (panic : Panic)
  deriving DecidableEq, Repr

namespace Raw

abbrev Kernel := Method Syscall Syscall.Answer Unit Fault

def send (packet : Bytes) (target : IpAddr) : Kernel Unit := do
  match ← Method.call (Syscall.sendTo packet target) with
  | .error error => throw (.io error)
  | .ok sent =>
    if sent ≠ packet.length then
      throw (.io { kind := .writeZero, rawOsError := none, text := "Incomplete ICMP datagram send" })
    else return ()

/-- The end of `receive`: what it makes of the received bytes. -/
def restore (os : TargetOs) (bytes : Bytes) (source : IpAddr) : Checked Bytes :=
  match os with
  | .macos order => if source.isIpv4 then normalizeMacosIpv4 order bytes else return bytes
  | _ => return bytes

def receive (os : TargetOs) (wait : Duration) : Kernel Received := do
  match ← Method.call (Syscall.setReadTimeout (max wait (fromMillis 1))) with
  | .error error => throw (.io error)
  | .ok () => do
    match ← Method.call Syscall.recvFrom with
    | .error error => throw (.io error)
    | .ok (bytes, source) =>
      match restore os bytes source with
      | .error panic => throw (.panic panic)
      | .ok restored => return { written := restored, length := bytes.length, source := source }

/-- The socket serves an event of a probe, with these calls. What a receive that fails has written to the buffer is left open. -/
def Serves (os : TargetOs) (calls : List (Exchange Syscall.Answer)) : Probe.Event → Prop
  | .clock time => calls = [⟨.now, time⟩]
  | .sent packet target result => (send packet target).Runs () calls (result.mapError Fault.io) ()
  | .received wait written result => ∃ outcome : Except IoError Received,
    (receive os wait).Runs () calls (outcome.mapError Fault.io) () ∧ result = outcome.map Received.report ∧
      ∀ received, outcome = .ok received → written = received.written
  | .judged bytes source expected reply => calls = [] ∧ parse bytes source expected = .ok reply

end Raw

/-- The probe, over a raw socket: its identifier is the leased one. -/
def Probe.overRaw (p : Probe) : Probe := { p with identifier := fun leased => leased }

/-- What a probe over a raw socket has done: its events, and the calls each took. -/
abbrev RawLog := List (Probe.Event × List (Exchange Syscall.Answer))

/-- A run of `probe` over a raw socket. -/
structure RawRuns (p : Probe) (os : TargetOs) (log : RawLog) (s : Probe.State) : Prop where
  runs : p.overRaw.Runs (log.map Prod.fst) s
  serves : ∀ entry ∈ log, Raw.Serves os entry.2 entry.1

end IcmpPing
