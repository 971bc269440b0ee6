import IcmpPing.Engine
import IcmpPing.Identifier

/-!
# Tasks (`lib.rs`)

The calls of `PingTask::compute` in one process. A task parses its address, takes a lease, fills its payload, opens a socket and
probes; when it ends after that, on whatever path, it drops its lease. The tasks take their steps in any order. What the operating
system does is left open: the clock, the randomness, the sockets and what arrives on them.
-/

namespace IcmpPing

/-- What `open` makes for a target: a raw socket, or a Linux ping socket with the identifier the kernel assigned. -/
inductive Transport where
  | raw
  | ping (id : UInt16)
  deriving DecidableEq

namespace Transport

def identifier : Transport → UInt16 → UInt16
  | .raw, leased => leased
  | .ping id, _ => id

/-- The raw socket keeps the default `parse_reply`. What a ping socket makes of a packet depends on its error queue, and is left
open here. -/
def Judges : Transport → Probe.Event → Prop
  | .raw, .judged bytes source expected reply => parse bytes source expected = .ok reply
  | _, _ => True

instance : (transport : Transport) → (e : Probe.Event) → Decidable (transport.Judges e)
  | .raw, .judged bytes source expected reply => inferInstanceAs (Decidable (parse bytes source expected = .ok reply))
  | .raw, .clock _ => .isTrue trivial
  | .raw, .sent _ _ _ => .isTrue trivial
  | .raw, .received _ _ _ => .isTrue trivial
  | .ping _, _ => .isTrue trivial

end Transport

namespace Compute

/-- Where a task is. -/
inductive Stage where
  | called
  | leasing (target : IpAddr)
  | leased (target : IpAddr) (id : UInt16)
  | filled (target : IpAddr) (id : UInt16) (payload : Bytes)
  | probing (transport : Transport) (p : Probe) (state : Probe.State)
  /-- It has its result, and drops the socket and the lease. -/
  | returning (id : UInt16) (result : Except String Outcome)
  | returned (result : Except String Outcome)

/-- A step of a task, and what it gets of its surroundings there. -/
inductive Action where
  | parse (address : Option IpAddr)
  | lease (action : Lease.Action)
  | fill (payload : Except String Bytes)
  | opened (result : Except String (Transport × IpAddr))
  | probe (e : Probe.Event)
  | drop (now : Instant)

structure State (Task : Type) where
  leases : Lease.State Task
  stage : Task → Stage

def init {Task : Type} : State Task where
  leases := Lease.init
  stage := fun _ => .called

/-- After a step of `Lease::acquire`. -/
def leasing (target : IpAddr) : {Task : Type} → Lease.Phase Task → Stage
  | _, .live id _ => .leased target id
  | _, .failed message => .returned (.error message)
  | _, _ => .leasing target

/-- After a step of `probe`. -/
def probing (transport : Transport) (p : Probe) (state : Probe.State) : Stage :=
  match state.point with
  | .done result => .returning p.leased result
  | _ => .probing transport p state

variable {Task : Type} [DecidableEq Task]

/-- The task goes on to this stage. -/
def State.enter (s : State Task) (task : Task) (stage : Stage) : State Task :=
  { s with stage := Function.update s.stage task stage }

def step (s : State Task) (e : Task × Action) : Option (State Task) :=
  match s.stage e.1, e.2 with
  | .called, .parse none =>
    some (s.enter e.1 (.returned
      (.error "Expected an IPv4 or IPv6 literal; hostnames and scoped addresses are not accepted")))
  | .called, .parse (some target) =>
    match Options.default.validate with
    | .error message => some (s.enter e.1 (.returned (.error message)))
    | .ok () => some (s.enter e.1 (.leasing target))
  | .leasing target, .lease action =>
    match action with
    | .drop _ => none
    | _ => (Lease.step s.leases (e.1, action)).map fun leases =>
      { s with leases := leases }.enter e.1 (leasing target (leases.phase e.1))
  | .leased target id, .fill payload =>
    match payload with
    | .error message => some (s.enter e.1 (.returning id (.error ("ICMP random payload: " ++ message))))
    | .ok payload => if payload.length = Options.default.payloadSize then some (s.enter e.1 (.filled target id payload)) else none
  | .filled target id payload, .opened result =>
    match result with
    | .error message => some (s.enter e.1 (.returning id (.error message)))
    | .ok (transport, localAddr) =>
      let p : Probe :=
        { target := target, localAddr := localAddr, identifier := transport.identifier, leased := id, payload := payload,
          options := .default }
      some (s.enter e.1 (probing transport p p.init))
  | .probing transport p state, .probe event =>
    if transport.Judges event then (p.step state event).map fun state => s.enter e.1 (probing transport p state) else none
  | .returning _ result, .drop now =>
    (Lease.step s.leases (e.1, .drop now)).map fun leases => { s with leases := leases }.enter e.1 (.returned result)
  | _, _ => none

def machine : Machine (State Task) (Task × Action) := ⟨step⟩

end Compute

end IcmpPing
