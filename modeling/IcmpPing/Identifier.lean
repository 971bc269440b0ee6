import IcmpPing.Lib.Tenure
import IcmpPing.Lib.Transition
import IcmpPing.Rust
import Mathlib.Data.Finset.Basic

/-!
# Echo identifiers (`identifier.rs`)

The allocator of identifiers, and the calls of `Lease::acquire` that share one through the static cell `IDS`. Any number of calls
may be under way at once, each between any two of its steps: a reading of the cell, a seed that is filled, `get_or_init`, and
`Allocator::acquire` under the lock. A lease is dropped once, at any later time.
-/

namespace IcmpPing

structure Allocator where
  occupied : Finset UInt16
  retired : List (UInt16 × Instant)
  next : UInt16
  deriving DecidableEq

namespace Allocator

/-- `Allocator::new`, with what `fill` makes of the seed. -/
def new (fill : Except String (UInt8 × UInt8)) : Except String Allocator :=
  match fill with
  | .error e => .error ("ICMP random identifier: " ++ e)
  | .ok (a, b) => .ok { occupied := ∅, retired := [], next := u16FromBe a b }

/-- How long an identifier rests after its release. -/
def quarantine : Duration := fromSecs 60

/-- The first loop of `acquire`: identifiers whose quarantine has ended are free again. -/
def expire (now : Instant) (occupied : Finset UInt16) : List (UInt16 × Instant) → Finset UInt16 × List (UInt16 × Instant)
  | [] => (occupied, [])
  | (id, time) :: retired =>
    if durationSince now time ≥ quarantine then expire now (occupied.erase id) retired else (occupied, (id, time) :: retired)

/-- The second loop of `acquire`, with `n` turns left: the first candidate that is not occupied, and where the cursor stops. -/
def scan (occupied : Finset UInt16) : Nat → UInt16 → Option UInt16 × UInt16
  | 0, next => (none, next)
  | n + 1, next => if next ∈ occupied then scan occupied n (next + 1) else (some next, next + 1)

def acquire (a : Allocator) (now : Instant) : Except String UInt16 × Allocator :=
  let (occupied, retired) := expire now a.occupied a.retired
  match scan occupied 65536 a.next with
  | (some id, next) => (.ok id, { occupied := insert id occupied, retired := retired, next := next })
  | (none, next) =>
    (.error "ICMP Echo identifier capacity exhausted; retry after active probes or identifier quarantine expire",
      { occupied := occupied, retired := retired, next := next })

def release (a : Allocator) (id : UInt16) (now : Instant) : Allocator := { a with retired := a.retired ++ [(id, now)] }

end Allocator

/-! ## Leases -/

namespace Lease

/-- The mutex in `IDS`, and the call whose allocator it was made of. No method of the allocator panics, so nothing poisons it. -/
structure Mutex (Call : Type) where
  maker : Call
  poisoned : Bool
  allocator : Allocator

/-- Where a call of `Lease::acquire` is, and what has become of its lease. -/
inductive Phase (Call : Type) where
  | called
  /-- It found `IDS` unset. -/
  | unset
  /-- It has an allocator of its own. -/
  | seeded (allocator : Allocator)
  /-- It has a reference to a mutex, the one that was made for this call. -/
  | ready (maker : Call)
  | live (id : UInt16) (granted : Instant)
  | dropped (id : UInt16) (granted : Instant) (released : Instant)
  | failed (message : String)
  deriving DecidableEq

inductive Action where
  | get
  | fill (seed : Except String (UInt8 × UInt8))
  | getOrInit
  | lock (now : Instant)
  | drop (now : Instant)

structure State (Call : Type) where
  ids : Option (Mutex Call)
  phase : Call → Phase Call
  /-- The last reading of the clock under the lock. -/
  clock : Instant

/-- No call has been made. -/
def init {Call : Type} : State Call where
  ids := none
  phase := fun _ => .called
  clock := 0

variable {Call : Type} [DecidableEq Call]

/-- The call goes on to this phase. -/
def State.enter (s : State Call) (call : Call) (phase : Phase Call) : State Call :=
  { s with phase := Function.update s.phase call phase }

/-- The allocator under the lock is changed at this time. -/
def State.store (s : State Call) (mutex : Mutex Call) (allocator : Allocator) (now : Instant) : State Call :=
  { s with ids := some { mutex with allocator := allocator }, clock := now }

def step (s : State Call) (e : Call × Action) : Option (State Call) :=
  match s.phase e.1, e.2 with
  | .called, .get =>
    match s.ids with
    | some mutex => some (s.enter e.1 (.ready mutex.maker))
    | none => some (s.enter e.1 .unset)
  | .unset, .fill seed =>
    match Allocator.new seed with
    | .ok allocator => some (s.enter e.1 (.seeded allocator))
    | .error message => some (s.enter e.1 (.failed message))
  | .seeded allocator, .getOrInit =>
    match s.ids with
    | some mutex => some (s.enter e.1 (.ready mutex.maker))
    | none =>
      let mutex := { maker := e.1, poisoned := false, allocator := allocator }
      some ({ s with ids := some mutex }.enter e.1 (.ready e.1))
  | .ready maker, .lock now =>
    match s.ids with
    | some mutex =>
      if mutex.maker = maker ∧ s.clock ≤ now then
        if mutex.poisoned then some (s.enter e.1 (.failed "Echo identifier allocator poisoned"))
        else match mutex.allocator.acquire now with
        | (.ok id, allocator) => some ((s.store mutex allocator now).enter e.1 (.live id now))
        | (.error message, allocator) => some ((s.store mutex allocator now).enter e.1 (.failed message))
      else none
    | none => none
  | .live id granted, .drop now =>
    if s.clock ≤ now then
      match s.ids with
      | some mutex =>
        if mutex.poisoned then some (s.enter e.1 (.dropped id granted now))
        else some ((s.store mutex (mutex.allocator.release id now) now).enter e.1 (.dropped id granted now))
      | none => some (s.enter e.1 (.dropped id granted now))
    else none
  | _, _ => none

def machine : Machine (State Call) (Call × Action) := ⟨step⟩

/-- The tenure of a call that has been granted an identifier. -/
def Phase.tenure : Phase Call → Option (Tenure UInt16)
  | .live id granted => some ⟨id, granted, none⟩
  | .dropped id granted released => some ⟨id, granted, some released⟩
  | _ => none

/-- Which call has had which identifier. -/
def State.register (s : State Call) : Register Call UInt16 := fun call => (s.phase call).tenure

end Lease

end IcmpPing
