import IcmpPing.Engine
import IcmpPing.Linux

/-!
# A probe over the Linux ping socket

The events of a probe are served by the methods of `Ping`, which make system calls: a run of the two is a sequence of events,
each with the system calls it takes.
-/

namespace IcmpPing

/-- The probe, over a ping socket: its identifier is the one the kernel assigned. -/
def Probe.over (p : Probe) (ping : Ping) : Probe := { p with identifier := ping.identifier }

/-- What a receive reports to the engine. -/
def Received.report (received : Received) : Nat × IpAddr := (received.length, received.source)

namespace Ping

/-- The socket serves an event of a probe: with these system calls, and leaving the socket so. -/
def Serves (ping : Ping) (calls : List (Exchange Syscall.Answer)) (ping' : Ping) : Probe.Event → Prop
  | .clock time => calls = [⟨.now, time⟩] ∧ ping' = ping
  | .sent packet target result => (send packet target).Runs ping calls result ping'
  | .received wait written result => ∃ outcome, ReceiveRuns wait ping calls outcome ping' ∧
    result = outcome.map Received.report ∧ written = match outcome with
      | .ok received => received.written
      | .error _ => []
  | .judged bytes source expected reply => calls = [] ∧ ping' = ping ∧ ping.parseReply bytes source expected = .ok reply

end Ping

/-- What a probe over a ping socket has done: its events, and the system calls each took. -/
abbrev PingLog := List (Probe.Event × List (Exchange Syscall.Answer))

/-- A run of `probe` over a ping socket. -/
inductive PingRuns (p : Probe) (ping : Ping) : PingLog → Probe.State → Ping → Prop where
  | start : PingRuns p ping [] (p.over ping).init ping
  | step {log : PingLog} {s s' : Probe.State} {ping₁ ping₂ : Ping} (e : Probe.Event) (calls : List (Exchange Syscall.Answer)) :
    PingRuns p ping log s ping₁ → (p.over ping).machine.step s e = some s' → ping₁.Serves calls ping₂ e →
      PingRuns p ping (log ++ [(e, calls)]) s' ping₂

/-- The events of a run over a ping socket are a run of the probe. -/
theorem PingRuns.runs {p : Probe} {ping ping' : Ping} {log : PingLog} {s : Probe.State} (h : PingRuns p ping log s ping') :
    (p.over ping).Runs (log.map Prod.fst) s := by
  induction h with
  | start => rfl
  | step e calls _ hstep _ ih =>
    rw [List.map_append]
    exact Machine.run_append_eq_some.2 ⟨_, ih, Machine.run_singleton.2 hstep⟩

end IcmpPing
