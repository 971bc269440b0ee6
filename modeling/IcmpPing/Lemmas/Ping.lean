import IcmpPing.PingProbe

/-!
# What the methods of the ping socket return

The errors they can end with, and where an event they return comes from.
-/

namespace IcmpPing

namespace Ping

open Method

/-- The error is one the engine takes for an ICMP negative. -/
def Unreachable (error : IoError) : Prop := error.kind = .networkUnreachable ∨ error.kind = .hostUnreachable

/-- The calls that do not tell of the network do not fail as if they did: `recvmsg` on the error queue, `poll`, `setsockopt` and
`getsockopt`. -/
def Assumed : Exchange Syscall.Answer → Prop
  | ⟨.recvmsg, .error error⟩ => ¬Unreachable error
  | ⟨.takeError, .error error⟩ => ¬Unreachable error
  | ⟨.poll _, .error error⟩ => ¬Unreachable error
  | ⟨.setReadTimeout _, .error error⟩ => ¬Unreachable error
  | _ => True

/-- A wrapped error is not one the engine takes for an ICMP negative. -/
theorem not_unreachable_other (error : IoError) : ¬Unreachable error.other := by
  rintro (h | h) <;> cases h

/-- Other errors are no ICMP negatives. -/
theorem networkError_eq_none {error : IoError} (h : ¬Unreachable error) : networkError error = none := by
  unfold networkError
  split
  · rename_i hkind
    exact absurd (Or.inl hkind) h
  · rename_i hkind
    exact absurd (Or.inr hkind) h
  · rfl

/-! ## Errors -/

/-- What an error of the adapter is made of: the answer to a call that has failed, or that tells of an error. -/
inductive Blames : Exchange Syscall.Answer → IoError → Prop where
  | recvmsg (error : IoError) : Blames ⟨.recvmsg, .error error⟩ error
  | takeError (error : IoError) : Blames ⟨.takeError, .error error⟩ error
  | pending (error : IoError) : Blames ⟨.takeError, .ok (some error)⟩ error.other
  | poll (millis : Nat) (error : IoError) : Blames ⟨.poll millis, .error error⟩ error
  | idle (millis : Nat) (revents : UInt16) : Blames ⟨.poll millis, .ok (0, revents)⟩ .timedOut
  | invalid (millis ready : Nat) (revents : UInt16) (hinvalid : revents &&& 0x20 ≠ 0) :
    Blames ⟨.poll millis, .ok (ready, revents)⟩ { kind := .other, rawOsError := none, text := "Invalid ping socket" }
  | expired (time : Instant) : Blames ⟨.now, time⟩ .timedOut
  | setReadTimeout (wait : Duration) (error : IoError) : Blames ⟨.setReadTimeout wait, .error error⟩ error
  | waited (error : IoError) (hkind : error.kind = .wouldBlock ∨ error.kind = .timedOut ∨ error.kind = .interrupted) :
    Blames ⟨.recvFrom, .error error⟩ error
  | recvFrom (error : IoError) : Blames ⟨.recvFrom, .error error⟩ error.other

/-- Where its calls are among these, the method ends with no error but one that they are to blame for. -/
abbrev Blaming {α : Type} (calls : List (Exchange Syscall.Answer)) (m : Kernel α) : Prop :=
  Throws (· ∈ calls) m fun error => ∃ x ∈ calls, Blames x error

section Blaming

variable {calls : List (Exchange Syscall.Answer)}

/-- `queued_error` ends with no error but that of its `recvmsg`. -/
theorem blaming_queuedError : Blaming calls queuedError := by
  refine throws_call_bind fun answer hmem => ?_
  cases answer with
  | error error => exact throws_ite (fun _ => throws_pure _) fun _ => throws_throw ⟨_, hmem, .recvmsg error⟩
  | ok record =>
    refine throws_bind (throws_modify _) fun _ => throws_bind throws_get fun ping => ?_
    refine throws_ite (fun _ => throws_pure _) fun _ => ?_
    cases sockaddrIp record.address with
    | none => exact throws_pure _
    | some destination =>
      cases extendedError ping.target record.control with
      | none => exact throws_pure _
      | some error => exact throws_bind (throws_modify _) fun _ => throws_pure _

/-- The errors that `poll` reports are those of `poll` and of `SO_ERROR`. -/
theorem blaming_pollEvent {millis ready : Nat} {revents : UInt16} (hpoll : ⟨.poll millis, .ok (ready, revents)⟩ ∈ calls)
    (queued : Option Received) : Blaming calls (pollEvent revents queued takeError) := by
  refine throws_ite (fun _ => throws_pure _) fun _ =>
    throws_ite (fun hinvalid => throws_throw ⟨_, hpoll, .invalid millis ready revents hinvalid⟩) fun _ =>
      throws_ite (fun _ => throws_call_bind fun answer hmem => ?_) fun _ => throws_pure _
  cases answer with
  | error error => exact throws_throw ⟨_, hmem, .takeError error⟩
  | ok pending =>
    cases pending with
    | none => exact throws_pure _
    | some error => exact throws_throw ⟨_, hmem, .pending error⟩

/-- The errors of a read of the socket are those of its calls. -/
theorem blaming_receiveData (deadline : Instant) : Blaming calls (receiveData deadline) := by
  refine throws_call_bind fun time _ => throws_call_bind fun answer hmem => ?_
  cases answer with
  | error error => exact throws_throw ⟨_, hmem, .setReadTimeout _ error⟩
  | ok value =>
    refine throws_call_bind fun answer hmem => ?_
    cases answer with
    | ok data => exact throws_bind (throws_modify _) fun _ => throws_pure _
    | error error =>
      refine throws_ite (fun hkind => throws_throw ⟨_, hmem, .waited error hkind⟩) fun _ =>
        throws_bind blaming_queuedError fun event => ?_
      cases event with
      | none => exact throws_throw ⟨_, hmem, .recvFrom error⟩
      | some event => exact throws_pure _

/-- The errors of a wait for the socket are those of its calls. -/
theorem blaming_receivePoll (deadline : Instant) : Blaming calls (receivePoll deadline) := by
  refine throws_call_bind fun time _ => throws_call_bind fun answer hmem => ?_
  cases answer with
  | error error => exact throws_throw ⟨_, hmem, .poll _ error⟩
  | ok ready =>
    obtain ⟨ready, revents⟩ := ready
    refine throws_ite (fun hidle => throws_throw ?_) fun _ => ?_
    · obtain rfl : ready = 0 := hidle
      exact ⟨_, hmem, .idle _ revents⟩
    refine throws_bind blaming_queuedError fun queued => throws_bind (blaming_pollEvent hmem queued) fun event => ?_
    cases event with
    | some event => exact throws_pure _
    | none => exact throws_ite (fun _ => throws_pure _) fun _ => blaming_receiveData deadline

/-- The errors of a turn of `receive` are those of its calls. -/
theorem blaming_receiveTurn (deadline : Instant) : Blaming calls (receiveTurn deadline) := by
  refine throws_call_bind fun time hmem => throws_ite (fun _ => throws_throw ⟨_, hmem, .expired time⟩) fun _ => ?_
  refine throws_bind blaming_queuedError fun event => ?_
  cases event with
  | some event => exact throws_pure _
  | none => exact throws_bind (throws_modify _) fun _ => blaming_receivePoll deadline

/-- Every error of `receive` is one that a call is to blame for. -/
theorem ReceiveRuns.blames {wait : Duration} {ping ping' : Ping} {error : IoError}
    (h : ReceiveRuns wait ping calls (.error error) ping') : ∃ x ∈ calls, Blames x error := by
  obtain ⟨start, rest, rfl, hloop⟩ := h
  exact hloop.throws (blaming_receiveTurn _) fun x hx => List.mem_cons_of_mem _ hx

end Blaming

/-- No call that is as assumed is to blame for an error that the engine takes for an ICMP negative. -/
theorem not_unreachable_of_blames {x : Exchange Syscall.Answer} {error : IoError} (h : Blames x error) (hassumed : Assumed x) :
    ¬Unreachable error := by
  cases h with
  | recvmsg error | takeError error | poll millis error | setReadTimeout wait error => exact hassumed
  | pending error | recvFrom error => exact not_unreachable_other error
  | idle millis revents | expired time | invalid millis ready revents hinvalid => rintro (hkind | hkind) <;> cases hkind
  | waited error hkind =>
    rintro (hunreachable | hunreachable) <;> rw [hunreachable] at hkind <;> rcases hkind with hkind | hkind | hkind <;> cases hkind

/-- Every exit of `receive` is harmless. -/
theorem ReceiveRuns.harmless {wait : Duration} {ping ping' : Ping} {calls : List (Exchange Syscall.Answer)} {error : IoError}
    (h : ReceiveRuns wait ping calls (.error error) ping') (hassumed : ∀ x ∈ calls, Assumed x) : ¬Unreachable error := by
  obtain ⟨x, hx, hblames⟩ := h.blames
  exact not_unreachable_of_blames hblames (hassumed x hx)

/-! ## What stays of the socket -/

/-- The identifier and the target, which no method changes. -/
def socket (ping : Ping) : UInt16 × IpAddr := (ping.id, ping.target)

/-- `queued_error` leaves the identifier and the target as they are. -/
theorem keeps_queuedError : Keeps socket queuedError := by
  refine keeps_call_bind fun answer => ?_
  cases answer with
  | error error => exact keeps_ite (keeps_pure _) (keeps_throw _)
  | ok record =>
    refine keeps_bind (keeps_modify fun _ => rfl) fun _ => keeps_bind keeps_get fun ping => keeps_ite (keeps_pure _) ?_
    cases sockaddrIp record.address with
    | none => exact keeps_pure _
    | some destination =>
      cases extendedError ping.target record.control with
      | none => exact keeps_pure _
      | some error => exact keeps_bind (keeps_modify fun _ => rfl) fun _ => keeps_pure _

/-- Draining the error queue leaves the identifier and the target as they are. -/
theorem keeps_drain (n : Nat) (queued : Bool) : Keeps socket (drain n queued) := by
  induction n generalizing queued with
  | zero => exact keeps_pure queued
  | succ n ih =>
    refine keeps_bind keeps_queuedError fun event => ?_
    cases event with
    | none => exact keeps_pure queued
    | some event => exact ih true

/-- The check of what was sent leaves the identifier and the target as they are. -/
theorem keeps_sentAll (packet : Bytes) (sent : Nat) : Keeps socket (sentAll packet sent) :=
  keeps_ite (keeps_throw _) (keeps_pure _)

/-- A second `send_to` leaves the identifier and the target as they are. -/
theorem keeps_resend (packet : Bytes) (target : IpAddr) (error : IoError) : Keeps socket (resend packet target error) := by
  refine keeps_bind (keeps_drain 64 false) fun queued => keeps_bind (keeps_modify fun _ => rfl) fun _ => ?_
  refine keeps_ite (keeps_throw _) (keeps_call_bind fun answer => ?_)
  cases answer with
  | error error => exact keeps_throw error
  | ok pending =>
    refine keeps_call_bind fun answer => ?_
    cases answer with
    | ok sent => exact keeps_pure sent
    | error error => exact keeps_throw _

/-- `send` leaves the identifier and the target as they are. -/
theorem keeps_send (packet : Bytes) (target : IpAddr) : Keeps socket (send packet target) := by
  refine keeps_bind (keeps_drain 64 false) fun queued => keeps_call_bind fun answer => ?_
  cases answer with
  | error error => exact keeps_throw error
  | ok pending =>
    refine keeps_bind (keeps_modify fun _ => rfl) fun _ => keeps_call_bind fun answer => ?_
    cases answer with
    | ok sent => exact keeps_sentAll packet sent
    | error error => exact keeps_bind (keeps_resend packet target error) fun sent => keeps_sentAll packet sent

/-- What `poll` reports leaves the identifier and the target as they are. -/
theorem keeps_pollEvent (revents : UInt16) (queued : Option Received) : Keeps socket (pollEvent revents queued takeError) := by
  refine keeps_ite (keeps_pure _) (keeps_ite (keeps_throw _) (keeps_ite (keeps_call_bind fun answer => ?_) (keeps_pure _)))
  cases answer with
  | error error => exact keeps_throw error
  | ok pending =>
    cases pending with
    | none => exact keeps_pure _
    | some error => exact keeps_throw _

/-- A read of the socket leaves the identifier and the target as they are. -/
theorem keeps_receiveData (deadline : Instant) : Keeps socket (receiveData deadline) := by
  refine keeps_call_bind fun time => keeps_call_bind fun answer => ?_
  cases answer with
  | error error => exact keeps_throw error
  | ok value =>
    refine keeps_call_bind fun answer => ?_
    cases answer with
    | ok data => exact keeps_bind (keeps_modify fun _ => rfl) fun _ => keeps_pure _
    | error error =>
      refine keeps_ite (keeps_throw _) (keeps_bind keeps_queuedError fun event => ?_)
      cases event with
      | none => exact keeps_throw _
      | some event => exact keeps_pure _

/-- A wait for the socket leaves the identifier and the target as they are. -/
theorem keeps_receivePoll (deadline : Instant) : Keeps socket (receivePoll deadline) := by
  refine keeps_call_bind fun time => keeps_call_bind fun answer => ?_
  cases answer with
  | error error => exact keeps_throw error
  | ok ready =>
    refine keeps_ite (keeps_throw _) (keeps_bind keeps_queuedError fun queued => ?_)
    refine keeps_bind (keeps_pollEvent ready.2 queued) fun event => ?_
    cases event with
    | some event => exact keeps_pure _
    | none => exact keeps_ite (keeps_pure _) (keeps_receiveData deadline)

/-- A turn of `receive` leaves the identifier and the target as they are. -/
theorem keeps_receiveTurn (deadline : Instant) : Keeps socket (receiveTurn deadline) := by
  refine keeps_call_bind fun time => keeps_ite (keeps_throw _) (keeps_bind keeps_queuedError fun event => ?_)
  cases event with
  | some event => exact keeps_pure _
  | none => exact keeps_bind (keeps_modify fun _ => rfl) fun _ => keeps_receivePoll deadline

/-- `receive` leaves the identifier and the target as they are. -/
theorem ReceiveRuns.socket_eq {wait : Duration} {ping ping' : Ping} {calls : List (Exchange Syscall.Answer)}
    {result : Except IoError Received} (h : ReceiveRuns wait ping calls result ping') : ping'.socket = ping.socket := by
  obtain ⟨start, rest, -, hloop⟩ := h
  exact hloop.keeps (keeps_receiveTurn _)

/-- Serving an event leaves the identifier and the target as they are. -/
theorem Serves.socket_eq {ping ping' : Ping} {calls : List (Exchange Syscall.Answer)} {e : Probe.Event}
    (h : ping.Serves calls ping' e) : ping'.socket = ping.socket := by
  cases e with
  | clock time => rw [h.2]
  | sent packet target result => exact keeps_send packet target _ _ _ _ h
  | received wait written result =>
    obtain ⟨outcome, hruns, -⟩ := h
    exact hruns.socket_eq
  | judged bytes source expected reply => rw [h.2.1]

/-! ## Reading the queue -/

/-- The error and the destination of a record, when nothing of it was truncated and it has both. -/
def usable (target : IpAddr) (record : Record) : Option (ExtendedError × IpAddr) :=
  if record.truncated then none
  else match sockaddrIp record.address with
    | none => none
    | some destination => (extendedError target record.control).map fun error => (error, destination)

/-- The error of a usable record is that of its control messages. -/
theorem extendedError_of_usable {target destination : IpAddr} {record : Record} {error : ExtendedError}
    (h : usable target record = some (error, destination)) : extendedError target record.control = some error := by
  unfold usable at h
  split at h
  · cases h
  · split at h
    · cases h
    · obtain ⟨error', herror, heq⟩ := Option.map_eq_some_iff.1 h
      cases heq
      exact herror

/-- What `queued_error` does with the answer of the kernel. -/
def queueOutcome (ping : Ping) : Except IoError Record → Except IoError (Option Received) × Ping
  | .error error => (if error.kind = .wouldBlock then .ok none else .error error, ping)
  | .ok record =>
    match usable ping.target record with
    | none => (.ok (some { written := record.data, length := 0, source := ping.target }), { ping with error := none })
    | some (error, destination) =>
      (.ok (some { written := record.data, length := record.data.length, source := destination }),
        { ping with error := some error })

/-- `queued_error` makes one call. -/
theorem queuedError_eq (ping : Ping) :
    queuedError ping = .ask .recvmsg fun answer => .ret (queueOutcome ping answer) := by
  refine congrArg (Program.ask Syscall.recvmsg) (funext fun answer => ?_)
  cases answer with
  | error error =>
    show (if error.kind = .wouldBlock then _ else _ : Kernel _) ping = _
    by_cases hkind : error.kind = .wouldBlock
    · simp only [queueOutcome, if_pos hkind]
      rfl
    · simp only [queueOutcome, if_neg hkind]
      rfl
  | ok record =>
    show (if record.truncated = true then _ else _ : Kernel _) { ping with error := none } = _
    unfold queueOutcome usable
    by_cases htruncated : record.truncated = true
    · simp only [if_pos htruncated]
      rfl
    simp only [if_neg htruncated]
    cases sockaddrIp record.address with
    | none => rfl
    | some destination =>
      cases extendedError ping.target record.control with
      | none => rfl
      | some error => rfl

/-- The runs of `queued_error`: one call, and what is made of its answer. -/
theorem runs_queuedError {ping ping' : Ping} {calls : List (Exchange Syscall.Answer)}
    {result : Except IoError (Option Received)} :
    queuedError.Runs ping calls result ping' ↔
      ∃ answer, calls = [⟨.recvmsg, answer⟩] ∧ (result, ping') = queueOutcome ping answer := by
  rw [Method.Runs, queuedError_eq]
  constructor
  · rintro ⟨answer, _, rfl, rfl, h⟩
    exact ⟨answer, rfl, h⟩
  · rintro ⟨answer, rfl, h⟩
    exact ⟨answer, [], rfl, rfl, h⟩

/-! ## Where a received event comes from -/

/-- The socket holds the error of this record of its queue, and the event is the record's data and destination. -/
structure FromRecord (ping : Ping) (record : Record) (error : ExtendedError) (event : Received) : Prop where
  usable : usable ping.target record = some (error, event.source)
  held : ping.error = some error
  written : event.written = record.data
  length : event.length = record.data.length

/-- What `receive` returns: data or an ignored record, and then the socket holds no error; or a record of the queue that is
among the answers of the kernel. -/
def Stems (calls : List (Exchange Syscall.Answer)) (event : Received) (ping : Ping) : Prop :=
  ping.error = none ∨ ∃ record error, ⟨.recvmsg, .ok record⟩ ∈ calls ∧ FromRecord ping record error event

/-- The exchange takes a record off the error queue, or a datagram off the socket. -/
def Consumes : Exchange Syscall.Answer → Prop
  | ⟨.recvmsg, .ok _⟩ => True
  | ⟨.recvFrom, .ok _⟩ => True
  | _ => False

/-- The event is what the exchange consumed: a usable record, and the socket holds its error; or a record that is not usable or
a datagram, and the socket holds no error. -/
inductive Delivers (ping : Ping) : Exchange Syscall.Answer → Received → Prop where
  | record (record : Record) (error : ExtendedError) (event : Received) :
    FromRecord ping record error event → Delivers ping ⟨.recvmsg, .ok record⟩ event
  | ignored (record : Record) (event : Received) :
    usable ping.target record = none → ping.error = none → event.length = 0 → Delivers ping ⟨.recvmsg, .ok record⟩ event
  | data (bytes : Bytes) (source : IpAddr) : ping.error = none →
    Delivers ping ⟨.recvFrom, .ok (bytes, source)⟩ { written := bytes, length := bytes.length, source := source }

/-- An event is what the last call consumed, and nothing was consumed before it; without an event nothing was consumed. -/
def Accounts (calls : List (Exchange Syscall.Answer)) (ping : Ping) : Except IoError (Option Received) → Prop
  | .ok (some event) => ∃ before last, calls = before ++ [last] ∧ (∀ x ∈ before, ¬Consumes x) ∧ Delivers ping last event
  | _ => ∀ x ∈ calls, ¬Consumes x

/-- Calls that consume nothing may come before. -/
theorem Accounts.after {first second : List (Exchange Syscall.Answer)} {ping : Ping} {result : Except IoError (Option Received)}
    (hfirst : ∀ x ∈ first, ¬Consumes x) (h : Accounts second ping result) : Accounts (first ++ second) ping result := by
  have hnothing : (∀ x ∈ second, ¬Consumes x) → ∀ x ∈ first ++ second, ¬Consumes x :=
    fun hsecond x hx => (List.mem_append.1 hx).elim (hfirst x) (hsecond x)
  cases result with
  | error error => exact hnothing h
  | ok event =>
    cases event with
    | none => exact hnothing h
    | some event =>
      obtain ⟨before, last, rfl, hbefore, hlast⟩ := h
      refine ⟨first ++ before, last, (List.append_assoc ..).symm, fun x hx => ?_, hlast⟩
      exact (List.mem_append.1 hx).elim (hfirst x) (hbefore x)

/-- A call that consumes nothing may come before. -/
theorem Accounts.cons {x : Exchange Syscall.Answer} {calls : List (Exchange Syscall.Answer)} {ping : Ping}
    {result : Except IoError (Option Received)} (hx : ¬Consumes x) (h : Accounts calls ping result) :
    Accounts (x :: calls) ping result := by
  have hfirst : ∀ y ∈ [x], ¬Consumes y := by
    intro y hy
    rw [List.mem_singleton.1 hy]
    exact hx
  exact h.after hfirst

/-- The method returns what it consumes, at once. -/
def Accountable (m : Kernel (Option Received)) : Prop :=
  ∀ ping calls result ping', m.Runs ping calls result ping' → Accounts calls ping' result

/-- Returning nothing consumes nothing. -/
theorem accountable_none : Accountable (pure none) := by
  intro ping calls result ping' h
  obtain ⟨rfl, rfl, rfl⟩ := runs_pure.1 h
  exact List.forall_mem_nil _

/-- Failing at once consumes nothing. -/
theorem accountable_throw (error : IoError) : Accountable (throw error) := by
  intro ping calls result ping' h
  obtain ⟨rfl, rfl, rfl⟩ := runs_throw.1 h
  exact List.forall_mem_nil _

/-- A choice is accountable when both its branches are. -/
theorem accountable_ite {c : Prop} [Decidable c] {m m' : Kernel (Option Received)} (hm : Accountable m) (hm' : Accountable m') :
    Accountable (if c then m else m') := by
  split
  · exact hm
  · exact hm'

/-- A change of the socket consumes nothing. -/
theorem accountable_modify_bind {f : Ping → Ping} {g : PUnit → Kernel (Option Received)} (h : Accountable (g ⟨⟩)) :
    Accountable (modify f >>= g) :=
  fun _ calls result ping' hrun => h _ calls result ping' (runs_modify_bind.1 hrun)

/-- A call that consumes nothing may come first; one that consumes is the last, and the event comes from it. -/
theorem accountable_call_bind {c : Syscall} {f : Syscall.Answer c → Kernel (Option Received)}
    (hf : ∀ answer, ¬Consumes ⟨c, answer⟩ → Accountable (f answer))
    (hconsumes : ∀ answer, Consumes ⟨c, answer⟩ → ∀ ping, ∃ event ping', f answer ping = .ret (.ok (some event), ping') ∧
      Delivers ping' ⟨c, answer⟩ event) : Accountable (Method.call c >>= f) := by
  intro ping calls result ping' h
  obtain ⟨answer, rest, rfl, hrest⟩ := runs_call_bind.1 h
  by_cases hc : Consumes ⟨c, answer⟩
  · obtain ⟨event, ping₁, hf, hdelivers⟩ := hconsumes answer hc ping
    unfold Method.Runs at hrest
    rw [hf] at hrest
    obtain ⟨rfl, hresult⟩ := hrest
    cases hresult
    exact ⟨[], _, rfl, List.forall_mem_nil _, hdelivers⟩
  · exact (hf answer hc ping rest result ping' hrest).cons hc

/-- Reading the queue finds it empty, fails, or takes a record off it. -/
theorem queuedError_cases {ping ping' : Ping} {calls : List (Exchange Syscall.Answer)}
    {result : Except IoError (Option Received)} (h : queuedError.Runs ping calls result ping') :
    (∃ error : IoError, error.kind = .wouldBlock ∧ calls = [⟨.recvmsg, .error error⟩] ∧ result = .ok none) ∨
    (∃ error : IoError, error.kind ≠ .wouldBlock ∧ calls = [⟨.recvmsg, .error error⟩] ∧ result = .error error) ∨
    ∃ record event, calls = [⟨.recvmsg, .ok record⟩] ∧ result = .ok (some event) ∧
      Delivers ping' ⟨.recvmsg, .ok record⟩ event := by
  obtain ⟨answer, rfl, houtcome⟩ := runs_queuedError.1 h
  cases answer with
  | error error =>
    by_cases hkind : error.kind = .wouldBlock
    · simp only [queueOutcome, if_pos hkind] at houtcome
      cases houtcome
      exact Or.inl ⟨error, hkind, rfl, rfl⟩
    · simp only [queueOutcome, if_neg hkind] at houtcome
      cases houtcome
      exact Or.inr (Or.inl ⟨error, hkind, rfl, rfl⟩)
  | ok record =>
    refine Or.inr (Or.inr ⟨record, ?_⟩)
    cases husable : usable ping.target record with
    | none =>
      simp only [queueOutcome, husable] at houtcome
      cases houtcome
      exact ⟨_, rfl, rfl, .ignored record _ husable rfl rfl⟩
    | some found =>
      simp only [queueOutcome, husable] at houtcome
      cases houtcome
      exact ⟨_, rfl, rfl, .record record found.1 _ ⟨husable, rfl, rfl, rfl⟩⟩

/-- `queued_error` returns the record that it takes. -/
theorem accountable_queuedError : Accountable queuedError := by
  intro ping calls result ping' h
  rcases queuedError_cases h with ⟨error, -, rfl, rfl⟩ | ⟨error, -, rfl, rfl⟩ | ⟨record, event, rfl, rfl, hdelivers⟩
  · exact Accounts.cons (fun hc => hc) (List.forall_mem_nil _)
  · exact Accounts.cons (fun hc => hc) (List.forall_mem_nil _)
  · exact ⟨[], _, rfl, List.forall_mem_nil _, hdelivers⟩

/-- The queue is read first: an event of it is returned as it is. -/
theorem accountable_queued_bind {f : Option Received → Kernel (Option Received)}
    (hsome : ∀ event, f (some event) = pure (some event)) (hnone : Accountable (f none)) : Accountable (queuedError >>= f) := by
  intro ping calls result ping' h
  rcases runs_bind.1 h with ⟨first, second, event, ping₁, rfl, hqueued, hrest⟩ | ⟨error, hqueued, rfl⟩
  · have hfirst := accountable_queuedError _ _ _ _ hqueued
    cases event with
    | none => exact Accounts.after hfirst (hnone _ _ _ _ hrest)
    | some event =>
      rw [hsome] at hrest
      obtain ⟨rfl, rfl, rfl⟩ := runs_pure.1 hrest
      rw [List.append_nil]
      exact hfirst
  · exact accountable_queuedError _ _ _ _ hqueued

/-- Readiness consumes nothing. -/
theorem accountable_pollEvent_bind {revents : UInt16} {f : Option Received → Kernel (Option Received)}
    (hf : Accountable (f none)) : Accountable (pollEvent revents none takeError >>= f) := by
  unfold pollEvent
  simp only [Option.isSome_none, Bool.false_eq_true, if_false]
  split
  · exact accountable_throw _
  split
  · refine accountable_call_bind (fun answer _ => ?_) fun answer hc => hc.elim
    cases answer with
    | error error => exact accountable_throw error
    | ok pending =>
      cases pending with
      | none => exact hf
      | some error => exact accountable_throw _
  · exact hf

/-- A read of the socket returns the datagram or the record that it takes. -/
theorem accountable_receiveData (deadline : Instant) : Accountable (receiveData deadline) := by
  refine accountable_call_bind (fun time _ => ?_) fun _ hc => hc.elim
  refine accountable_call_bind (fun answer _ => ?_) fun _ hc => hc.elim
  cases answer with
  | error error => exact accountable_throw error
  | ok value =>
    refine accountable_call_bind (fun answer hc => ?_) fun answer hc ping => ?_
    · cases answer with
      | ok data => exact absurd trivial hc
      | error error =>
        exact accountable_ite (accountable_throw error) (accountable_queued_bind (fun _ => rfl) (accountable_throw _))
    · cases answer with
      | ok data => exact ⟨_, _, rfl, .data data.1 data.2 rfl⟩
      | error error => exact hc.elim

/-- A wait for the socket returns the datagram or the record that it takes. -/
theorem accountable_receivePoll (deadline : Instant) : Accountable (receivePoll deadline) := by
  refine accountable_call_bind (fun time _ => ?_) fun _ hc => hc.elim
  refine accountable_call_bind (fun answer _ => ?_) fun _ hc => hc.elim
  cases answer with
  | error error => exact accountable_throw error
  | ok ready =>
    refine accountable_ite (accountable_throw _) (accountable_queued_bind (fun _ => rfl) ?_)
    exact accountable_pollEvent_bind (accountable_ite accountable_none (accountable_receiveData deadline))

/-- A turn of `receive` returns the datagram or the record that it takes. -/
theorem accountable_receiveTurn (deadline : Instant) : Accountable (receiveTurn deadline) := by
  refine accountable_call_bind (fun time _ => ?_) fun _ hc => hc.elim
  refine accountable_ite (accountable_throw _) (accountable_queued_bind (fun _ => rfl) ?_)
  exact accountable_modify_bind (accountable_receivePoll deadline)

/-- What every run of `receive` consumes it returns. -/
theorem ReceiveRuns.accounts {wait : Duration} {ping ping' : Ping} {calls : List (Exchange Syscall.Answer)}
    {result : Except IoError Received} (h : ReceiveRuns wait ping calls result ping') :
    Accounts calls ping' (result.map some) := by
  obtain ⟨start, rest, rfl, hloop⟩ := h
  refine Accounts.cons (fun hc => hc) ?_
  induction hloop with
  | again hfirst _ ih => exact ih.after (accountable_receiveTurn _ _ _ _ _ hfirst)
  | returned hturn => exact accountable_receiveTurn _ _ _ _ _ hturn
  | failed hturn => exact accountable_receiveTurn _ _ _ _ _ hturn

/-- What every run of `receive` returns. -/
theorem ReceiveRuns.stems {wait : Duration} {ping ping' : Ping} {calls : List (Exchange Syscall.Answer)} {event : Received}
    (h : ReceiveRuns wait ping calls (.ok event) ping') : Stems calls event ping' := by
  obtain ⟨before, last, rfl, -, hdelivers⟩ := h.accounts
  cases hdelivers with
  | record record error event hrecord =>
    exact Or.inr ⟨record, error, List.mem_append_right _ (List.mem_singleton_self _), hrecord⟩
  | ignored record event _ herror _ => exact Or.inl herror
  | data bytes source herror => exact Or.inl herror

/-! ## Errors that no record explains -/

/-- The error queue is empty at each of these calls. -/
def QueueEmpty (calls : List (Exchange Syscall.Answer)) : Prop :=
  ∀ answer, ⟨.recvmsg, answer⟩ ∈ calls → ∃ error : IoError, answer = .error error ∧ error.kind = .wouldBlock

/-- `send_to` fails with this error. -/
def SendFails (error : IoError) : Exchange Syscall.Answer → Prop
  | ⟨.sendTo _ _, .error error'⟩ => error' = error
  | _ => False

/-- `recv_from` fails with this error, or `SO_ERROR` holds it. -/
def ReceiveFails (error : IoError) : Exchange Syscall.Answer → Prop
  | ⟨.recvFrom, .error error'⟩ => error' = error
  | ⟨.takeError, .ok (some error')⟩ => error' = error
  | _ => False

/-- One of the calls fails so, and the error queue is empty after it. -/
def Unexplained (fails : Exchange Syscall.Answer → Prop) (calls : List (Exchange Syscall.Answer)) : Prop :=
  ∃ before x after, calls = before ++ x :: after ∧ fails x ∧ QueueEmpty after

section Unexplained

variable {fails : Exchange Syscall.Answer → Prop} {calls more : List (Exchange Syscall.Answer)}

/-- A queue that is empty at all of the calls is empty at the first of them. -/
theorem QueueEmpty.left (h : QueueEmpty (calls ++ more)) : QueueEmpty calls :=
  fun answer hmem => h answer (List.mem_append_left _ hmem)

/-- Without a call nothing fails. -/
theorem not_unexplained_nil : ¬Unexplained fails [] := by
  rintro ⟨before, x, after, h, -⟩
  cases before <;> cases h

/-- The error without a record is that of the first call, or of a later one. -/
theorem unexplained_cons {x : Exchange Syscall.Answer} (h : Unexplained fails (x :: calls)) :
    (fails x ∧ QueueEmpty calls) ∨ Unexplained fails calls := by
  obtain ⟨before, y, after, heq, hy, hempty⟩ := h
  cases before with
  | nil =>
    cases heq
    exact Or.inl ⟨hy, hempty⟩
  | cons z before =>
    cases heq
    exact Or.inr ⟨before, y, after, rfl, hy, hempty⟩

/-- The error without a record is among the first calls, or among the others. -/
theorem unexplained_append (h : Unexplained fails (calls ++ more)) : Unexplained fails calls ∨ Unexplained fails more := by
  induction calls with
  | nil => exact Or.inr h
  | cons x calls ih =>
    rcases unexplained_cons h with ⟨hx, hempty⟩ | h
    · exact Or.inl ⟨[], x, calls, rfl, hx, hempty.left⟩
    · rcases ih h with ⟨before, y, after, rfl, hy, hempty⟩ | h
      · exact Or.inl ⟨x :: before, y, after, rfl, hy, hempty⟩
      · exact Or.inr h

/-- Where nothing is called, nothing fails. -/
theorem not_unexplained_pure {α : Type} {value : α} {ping ping' : Ping} {result : Except IoError α}
    (h : (pure value : Kernel α).Runs ping calls result ping') : ¬Unexplained fails calls := by
  rw [(runs_pure.1 h).1]
  exact not_unexplained_nil

/-- Where nothing is called, no call fails. -/
theorem not_unexplained_throw {α : Type} {error : IoError} {ping ping' : Ping} {result : Except IoError α}
    (h : (throw error : Kernel α).Runs ping calls result ping') : ¬Unexplained fails calls := by
  rw [(runs_throw.1 h).1]
  exact not_unexplained_nil

/-- A call is the one that fails, or the failure comes after it. -/
theorem unexplained_of_call {α : Type} {c : Syscall} {f : Syscall.Answer c → Kernel α} {ping ping' : Ping}
    {result : Except IoError α} (h : (Method.call c >>= f).Runs ping calls result ping') (hcalls : Unexplained fails calls) :
    ∃ answer rest, (f answer).Runs ping rest result ping' ∧
      ((fails ⟨c, answer⟩ ∧ QueueEmpty rest) ∨ Unexplained fails rest) := by
  obtain ⟨answer, rest, rfl, hrest⟩ := runs_call_bind.1 h
  exact ⟨answer, rest, hrest, unexplained_cons hcalls⟩

end Unexplained

/-- The method makes no calls but to read the error queue. -/
def ReadsQueue {α : Type} (m : Kernel α) : Prop :=
  ∀ ping calls result ping', m.Runs ping calls result ping' → ∀ x ∈ calls, ∃ answer, x = ⟨.recvmsg, answer⟩

/-- `queued_error` does nothing but read the error queue. -/
theorem readsQueue_queuedError : ReadsQueue queuedError := by
  intro ping calls result ping' h x hx
  obtain ⟨answer, rfl, -⟩ := runs_queuedError.1 h
  exact ⟨answer, List.mem_singleton.1 hx⟩

/-- Reading the error queue leaves nothing unexplained: the failure comes after it. -/
theorem ReadsQueue.unexplained_of_bind {α β : Type} {fails : Exchange Syscall.Answer → Prop} {m : Kernel α} {f : α → Kernel β}
    {ping ping' : Ping} {calls : List (Exchange Syscall.Answer)} {result : Except IoError β} (hm : ReadsQueue m)
    (hfails : ∀ answer, ¬fails ⟨.recvmsg, answer⟩) (h : (m >>= f).Runs ping calls result ping')
    (hcalls : Unexplained fails calls) : ∃ first second value ping₁, m.Runs ping first (.ok value) ping₁ ∧
      (f value).Runs ping₁ second result ping' ∧ Unexplained fails second := by
  have hnot : ∀ {calls}, (∀ x ∈ calls, ∃ answer, x = ⟨.recvmsg, answer⟩) → ¬Unexplained fails calls := by
    rintro _ hreads ⟨before, x, after, rfl, hx, -⟩
    obtain ⟨answer, rfl⟩ := hreads x (List.mem_append_right _ (List.mem_cons_self ..))
    exact hfails answer hx
  rcases runs_bind.1 h with ⟨first, second, value, ping₁, rfl, hfirst, hsecond⟩ | ⟨_, hfirst, -⟩
  · exact ⟨first, second, value, ping₁, hfirst, hsecond,
      (unexplained_append hcalls).resolve_left (hnot (hm _ _ _ _ hfirst))⟩
  · exact absurd hcalls (hnot (hm _ _ _ _ hfirst))

/-- Nothing comes from an empty queue. -/
theorem queuedError_of_empty {ping ping' : Ping} {calls : List (Exchange Syscall.Answer)}
    {result : Except IoError (Option Received)} (h : queuedError.Runs ping calls result ping') (hempty : QueueEmpty calls) :
    result = .ok none := by
  obtain ⟨answer, rfl, houtcome⟩ := runs_queuedError.1 h
  obtain ⟨error, rfl, hkind⟩ := hempty answer (List.mem_singleton_self _)
  have hresult := congrArg Prod.fst houtcome
  simpa only [queueOutcome, if_pos hkind] using hresult

/-- An error that `SO_ERROR` holds is returned by `poll_event`, wrapped. -/
theorem pollEvent_unexplained {revents : UInt16} {queued : Option Received} {error : IoError} {ping ping' : Ping}
    {calls : List (Exchange Syscall.Answer)} {result : Except IoError (Option Received)}
    (h : (pollEvent revents queued takeError).Runs ping calls result ping')
    (hcalls : Unexplained (ReceiveFails error) calls) : result = .error error.other := by
  unfold pollEvent at h
  split at h
  · exact absurd hcalls (not_unexplained_pure h)
  split at h
  · exact absurd hcalls (not_unexplained_throw h)
  split at h
  · obtain ⟨answer, calls₁, h₁, hcalls₁⟩ := unexplained_of_call h hcalls
    cases answer with
    | error error' => exact absurd (hcalls₁.resolve_left fun hfails => hfails.1) (not_unexplained_throw h₁)
    | ok pending =>
      cases pending with
      | none => exact absurd (hcalls₁.resolve_left fun hfails => hfails.1) (not_unexplained_pure h₁)
      | some error' =>
        rcases hcalls₁ with ⟨rfl, -⟩ | hcalls₁
        · exact (runs_throw.1 h₁).2.1
        · exact absurd hcalls₁ (not_unexplained_throw h₁)
  · exact absurd hcalls (not_unexplained_pure h)

/-- An unexplained error of `recv_from` is returned, wrapped. -/
theorem receiveData_unexplained {deadline : Instant} {error : IoError} (hunreachable : Unreachable error) {ping ping' : Ping}
    {calls : List (Exchange Syscall.Answer)} {result : Except IoError (Option Received)}
    (h : (receiveData deadline).Runs ping calls result ping') (hcalls : Unexplained (ReceiveFails error) calls) :
    result = .error error.other := by
  obtain ⟨time, calls₁, h₁, hfails | hcalls₁⟩ := unexplained_of_call h hcalls
  · exact hfails.1.elim
  obtain ⟨answer, calls₂, h₂, hcalls₂⟩ := unexplained_of_call h₁ hcalls₁
  cases answer with
  | error error => exact absurd (hcalls₂.resolve_left fun hfails => hfails.1) (not_unexplained_throw h₂)
  | ok value =>
    obtain ⟨answer, calls₃, h₃, hcalls₃⟩ := unexplained_of_call h₂ (hcalls₂.resolve_left fun hfails => hfails.1)
    cases answer with
    | ok data =>
      have h₄ := runs_modify_bind.1 h₃
      exact absurd (hcalls₃.resolve_left fun hfails => hfails.1) (not_unexplained_pure h₄)
    | error error' =>
      rcases hcalls₃ with ⟨rfl, hempty⟩ | hcalls₃
      · have hkind : ¬(error'.kind = .wouldBlock ∨ error'.kind = .timedOut ∨ error'.kind = .interrupted) := by
          rcases hunreachable with hkind | hkind <;> rw [hkind] <;> exact nofun
        simp only [if_neg hkind] at h₃
        rcases runs_bind.1 h₃ with ⟨first, second, queued, ping₁, rfl, hqueued, h₄⟩ | ⟨_, hqueued, -⟩
        · cases queuedError_of_empty hqueued hempty.left
          exact (runs_throw.1 h₄).2.1
        · cases queuedError_of_empty hqueued hempty
      · simp only at h₃
        split at h₃
        · exact absurd hcalls₃ (not_unexplained_throw h₃)
        obtain ⟨-, calls₄, queued, ping₁, -, h₄, hcalls₄⟩ :=
          readsQueue_queuedError.unexplained_of_bind (fun _ h => h) h₃ hcalls₃
        cases queued with
        | none => exact absurd hcalls₄ (not_unexplained_throw h₄)
        | some queued => exact absurd hcalls₄ (not_unexplained_pure h₄)

/-- A wait for the socket that fails without a record ends with the error, wrapped. -/
theorem receivePoll_unexplained {deadline : Instant} {error : IoError} (hunreachable : Unreachable error) {ping ping' : Ping}
    {calls : List (Exchange Syscall.Answer)} {result : Except IoError (Option Received)}
    (h : (receivePoll deadline).Runs ping calls result ping') (hcalls : Unexplained (ReceiveFails error) calls) :
    result = .error error.other := by
  obtain ⟨time, calls₁, h₁, hfails | hcalls₁⟩ := unexplained_of_call h hcalls
  · exact hfails.1.elim
  obtain ⟨answer, calls₂, h₂, hfails | hcalls₂⟩ := unexplained_of_call h₁ hcalls₁
  · exact hfails.1.elim
  cases answer with
  | error error => exact absurd hcalls₂ (not_unexplained_throw h₂)
  | ok ready =>
    obtain ⟨ready, revents⟩ := ready
    simp only at h₂
    split at h₂
    · exact absurd hcalls₂ (not_unexplained_throw h₂)
    obtain ⟨-, calls₃, queued, ping₁, -, h₃, hcalls₃⟩ :=
      readsQueue_queuedError.unexplained_of_bind (fun _ h => h) h₂ hcalls₂
    rcases runs_bind.1 h₃ with ⟨third, fourth, polled, ping₂, rfl, hpolled, h₄⟩ | ⟨_, hpolled, rfl⟩
    swap
    · cases pollEvent_unexplained hpolled hcalls₃
      rfl
    rcases unexplained_append hcalls₃ with hthird | hfourth
    · cases pollEvent_unexplained hpolled hthird
    cases polled with
    | some polled => exact absurd hfourth (not_unexplained_pure h₄)
    | none =>
      simp only at h₄
      split at h₄
      · exact absurd hfourth (not_unexplained_pure h₄)
      · exact receiveData_unexplained hunreachable h₄ hfourth

/-- A turn of `receive` that fails without a record ends with the error, wrapped. -/
theorem receiveTurn_unexplained {deadline : Instant} {error : IoError} (hunreachable : Unreachable error) {ping ping' : Ping}
    {calls : List (Exchange Syscall.Answer)} {result : Except IoError (Option Received)}
    (h : (receiveTurn deadline).Runs ping calls result ping') (hcalls : Unexplained (ReceiveFails error) calls) :
    result = .error error.other := by
  obtain ⟨time, calls₁, h₁, hfails | hcalls₁⟩ := unexplained_of_call h hcalls
  · exact hfails.1.elim
  split at h₁
  · exact absurd hcalls₁ (not_unexplained_throw h₁)
  obtain ⟨-, calls₂, queued, ping₁, -, h₂, hcalls₂⟩ :=
    readsQueue_queuedError.unexplained_of_bind (fun _ h => h) h₁ hcalls₁
  cases queued with
  | some queued => exact absurd hcalls₂ (not_unexplained_pure h₂)
  | none => exact receivePoll_unexplained hunreachable (runs_modify_bind.1 h₂) hcalls₂

/-- An unexplained error of `recv_from`, or one that `SO_ERROR` holds, is the error of `receive`, wrapped. -/
theorem ReceiveRuns.unexplained {wait : Duration} {error : IoError} (hunreachable : Unreachable error) {ping ping' : Ping}
    {calls : List (Exchange Syscall.Answer)} {result : Except IoError Received} (h : ReceiveRuns wait ping calls result ping')
    (hcalls : Unexplained (ReceiveFails error) calls) : result = .error error.other := by
  obtain ⟨start, rest, rfl, hloop⟩ := h
  exact hloop.error_of (fun _ _ => unexplained_append) (fun _ _ _ _ hturn => receiveTurn_unexplained hunreachable hturn)
    ((unexplained_cons hcalls).resolve_left fun hfails => hfails.1)

end Ping

end IcmpPing
