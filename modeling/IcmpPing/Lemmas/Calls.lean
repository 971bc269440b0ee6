import IcmpPing.Lemmas.Process

/-!
# The calls of a transport

How many calls a transport makes to send and to receive, and where they aim. The loop of `Ping::receive` has no bound of its own: each of
its turns has one.
-/

namespace IcmpPing

open Method

/-- The call sends nothing, or to this target. -/
def Syscall.Aims (target : IpAddr) : Syscall → Prop
  | .sendTo _ target' => target' = target
  | _ => True

namespace Ping

section Aims

variable {target : IpAddr}

/-- Reading the error queue once is one call. -/
theorem within_queuedError : Within (Syscall.Aims target) queuedError 1 := by
  refine within_call_bind trivial fun result => ?_
  cases result with
  | error error => exact within_ite (within_pure _) (within_throw _)
  | ok record =>
    refine within_modify_bind (within_get_bind fun ping => within_ite (within_pure _) ?_)
    split
    · exact within_pure _
    · split
      · exact within_pure _
      · exact within_modify_bind (within_pure _)

/-- A bounded read of the error queue makes as many calls. -/
theorem within_drain (n : Nat) (queued : Bool) : Within (Syscall.Aims target) (drain n queued) n := by
  induction n generalizing queued with
  | zero => exact within_pure queued
  | succ n ih =>
    have hturn : Within (Syscall.Aims target) (drain (n + 1) queued) (1 + n) := within_bind within_queuedError fun event => by
      cases event with
      | none => exact within_pure queued
      | some event => exact ih true
    exact fun ping => (hturn ping).mono (Nat.add_comm 1 n).le

/-- The end of `send` makes no call. -/
theorem within_sentAll (packet : Bytes) (sent n : Nat) : Within (Syscall.Aims target) (sentAll packet sent) n :=
  within_ite (within_throw _) (within_pure _)

/-- A second send comes after another read of the error queue. -/
theorem within_resend (packet : Bytes) (error : IoError) : Within (Syscall.Aims target) (resend packet target error) 66 := by
  refine within_bind (n := 64) (k := 2) (within_drain 64 false) fun queued => within_modify_bind (within_ite (within_throw _) ?_)
  refine within_call_bind trivial fun result => ?_
  cases result with
  | error error => exact within_throw _
  | ok pending =>
    refine within_call_bind rfl fun result => ?_
    cases result with
    | ok sent => exact within_pure sent
    | error error => exact within_throw _

/-- A `send` sends to its target alone, and makes few calls: twice a read of the error queue, the pending error and a datagram. -/
theorem within_send (packet : Bytes) (target : IpAddr) : Within (Syscall.Aims target) (send packet target) (2 * (64 + 2)) := by
  refine within_bind (n := 64) (k := 68) (within_drain 64 false) fun queued => within_call_bind trivial fun result => ?_
  cases result with
  | error error => exact within_throw _
  | ok pending =>
    refine within_modify_bind (within_call_bind rfl fun result => ?_)
    cases result with
    | ok sent => exact within_sentAll packet sent 66
    | error error => exact within_bind (n := 66) (k := 0) (within_resend packet error) fun sent => within_sentAll packet sent 0

/-- A readiness without a record takes one more call, for the pending error. -/
theorem within_pollEvent (revents : UInt16) (queued : Option Received) :
    Within (Syscall.Aims target) (pollEvent revents queued takeError) 1 := by
  refine within_ite (within_pure _) (within_ite (within_throw _) (within_ite (within_call_bind trivial fun result => ?_) (within_pure _)))
  split
  · exact within_throw _
  · exact within_throw _
  · exact within_pure _

/-- Data takes the clock, the timeout, the receive, and where that fails the error queue. -/
theorem within_receiveData (deadline : Instant) : Within (Syscall.Aims target) (receiveData deadline) 4 := by
  refine within_call_bind trivial fun now => within_call_bind trivial fun result => ?_
  cases result with
  | error error => exact within_throw _
  | ok =>
    refine within_call_bind trivial fun result => ?_
    cases result with
    | ok received => exact within_modify_bind (within_pure _)
    | error error =>
      refine within_ite (within_throw _) (within_bind (n := 1) (k := 0) within_queuedError fun event => ?_)
      cases event with
      | some event => exact within_pure _
      | none => exact within_throw _

/-- The middle of a turn reads the clock, polls and reads the error queue before it comes to the data. -/
theorem within_receivePoll (deadline : Instant) : Within (Syscall.Aims target) (receivePoll deadline) 8 := by
  refine within_call_bind trivial fun now => within_call_bind trivial fun result => ?_
  cases result with
  | error error => exact within_throw _
  | ok ready =>
    obtain ⟨ready, revents⟩ := ready
    refine within_ite (within_throw _) (within_bind (n := 1) (k := 5) within_queuedError fun queued => ?_)
    refine within_bind (n := 1) (k := 4) (within_pollEvent revents queued) fun event => ?_
    cases event with
    | some event => exact within_pure _
    | none => exact within_ite (within_pure _) (within_receiveData deadline)

/-- A turn of `receive` sends nothing, and makes ten calls at most. -/
theorem within_receiveTurn (deadline : Instant) : Within (Syscall.Aims target) (receiveTurn deadline) 10 := by
  refine within_call_bind trivial fun now => within_ite (within_throw _) ?_
  refine within_bind (n := 1) (k := 8) within_queuedError fun event => ?_
  cases event with
  | some event => exact within_pure _
  | none => exact within_modify_bind (within_receivePoll deadline)

end Aims

end Ping

namespace Raw

/-- A raw socket sends in one call. -/
theorem within_send (packet : Bytes) (target : IpAddr) : Within (Syscall.Aims target) (send packet target) 1 := by
  refine within_call_bind rfl fun result => ?_
  cases result with
  | error error => exact within_throw _
  | ok sent => exact within_ite (within_throw _) (within_pure _)

/-- A raw socket sets its timeout and receives. -/
theorem within_receive (os : TargetOs) (wait : Duration) (target : IpAddr) : Within (Syscall.Aims target) (receive os wait) 2 := by
  refine within_call_bind trivial fun result => ?_
  cases result with
  | error error => exact within_throw _
  | ok =>
    refine within_call_bind trivial fun result => ?_
    cases result with
    | error error => exact within_throw _
    | ok received =>
      dsimp only
      split
      · exact within_throw _
      · exact within_pure _

end Raw

/-- What a probe asks for next sends nothing, or to its target. -/
theorem Socket.Asks.aims {os : TargetOs} {p : Probe} {socket : Socket} {point : Probe.Point} {calls : List (Exchange Syscall.Answer)}
    {call : Syscall} (h : socket.Asks os p point calls call) : call.Aims p.target := by
  cases h with
  | clock _ => trivial
  | @sendRaw fd seq start packet calls call _ hasks => exact (hasks.within (Raw.within_send packet p.target)).1
  | @sendPing fd ping seq start packet calls call _ hasks => exact (hasks.within (Ping.within_send packet p.target)).1
  | @receiveRaw fd seq start wait calls call hasks => exact (hasks.within (Raw.within_receive os wait p.target)).1
  | receivePing hasks =>
    cases hasks with
    | start => trivial
    | turn hloop => exact (hloop.within (Ping.within_receiveTurn _)).1

end IcmpPing
