import IcmpPing.Theorems.Process
import IcmpPing.Theorems.Promise
import IcmpPing.Theorems.Returns

/-!
# Progress

No task is ever stuck: it has a next step, whatever it is answered there. It waits for no other task, and it never panics.
-/

namespace IcmpPing

namespace Socket

variable {os : TargetOs} {p : Probe} {calls : List (Exchange Syscall.Answer)}

/-! ## A transport goes on -/

end Socket

namespace Lease

/-- The same action, whatever bytes it draws and whatever time it reads. -/
inductive Action.Same : Action → Action → Prop where
  | refl (action : Action) : Same action action
  | fill (seed seed' : Except String (UInt8 × UInt8)) : Same (.fill seed) (.fill seed')
  | lock (now now' : Instant) : Same (.lock now) (.lock now')
  | drop (now now' : Instant) : Same (.drop now) (.drop now')

/-- A clock that does not go back. -/
def Action.InOrder (clock : Instant) : Action → Prop
  | .lock now | .drop now => clock ≤ now
  | _ => True

variable {Call : Type} [DecidableEq Call] {s s' : State Call} {call : Call}

end Lease

namespace Process

variable {os : TargetOs} {Task : Type} [DecidableEq Task]

/-- The same act, whatever it is answered: whether the text is a literal, the random bytes, the times, and the answers to calls. -/
inductive Act.Same : Act → Act → Prop where
  | refl (act : Act) : Same act act
  | parse (address address' : Option IpAddr) : Same (.parse address) (.parse address')
  | lease {action action' : Lease.Action} (hsame : action.Same action') : Same (.lease action) (.lease action')
  | fill (payload payload' : Except String Bytes) : Same (.fill payload) (.fill payload')
  | setup (call : Setup) (answer answer' : Setup.Answer call) : Same (.setup ⟨call, answer⟩) (.setup ⟨call, answer'⟩)
  | call (call : Syscall) (answer answer' : Syscall.Answer call) : Same (.call ⟨call, answer⟩) (.call ⟨call, answer'⟩)
  | drop (now now' : Instant) : Same (.drop now) (.drop now')

/-- The answers that there can be: no descriptor is handed out that is open, the clock does not go back, and a payload has the bytes that
were asked for. -/
def Act.Possible (s : State Task) : Act → Prop
  | .lease action => action.InOrder s.leases.clock
  | .fill (.ok payload) => payload.length = Options.default.payloadSize
  | .setup x => ∀ fd ∈ Setup.handling.hands x, s.fds fd = none
  | .drop now => s.leases.clock ≤ now
  | _ => True

/-- The task can do this, however it is answered. -/
def CanDo (os : TargetOs) (s : State Task) (task : Task) (act : Act) : Prop :=
  act.Possible s ∧ ∀ act', act.Same act' → act'.Possible s → ∃ s', Step os s (.task task act') s'

/-- What a task can do, however it is answered, is a step. -/
theorem CanDo.step {s : State Task} {task : Task} {act : Act} (h : CanDo os s task act) : ∃ s', Step os s (.task task act) s' :=
  h.2 act (.refl act) h.1

end Process

end IcmpPing
