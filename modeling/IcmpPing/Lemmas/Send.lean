import IcmpPing.Lemmas.Ping

/-!
# The runs of a send

What the calls of `send` can be, one rule for each way it can end, and what the rules tell of them.
-/

namespace IcmpPing

namespace Ping

open Method

/-! ## The runs -/

/-- The runs of a bounded read of the error queue: it ends when the bound is spent, when the queue is empty or when reading
fails. -/
inductive Drains : Nat → Bool → List (Exchange Syscall.Answer) → Except IoError Bool → Prop where
  | spent (queued : Bool) : Drains 0 queued [] (.ok queued)
  | empty (n : Nat) (queued : Bool) (error : IoError) : error.kind = .wouldBlock →
    Drains (n + 1) queued [⟨.recvmsg, .error error⟩] (.ok queued)
  | failed (n : Nat) (queued : Bool) (error : IoError) : error.kind ≠ .wouldBlock →
    Drains (n + 1) queued [⟨.recvmsg, .error error⟩] (.error error)
  | record (n : Nat) (queued : Bool) (record : Record) {calls : List (Exchange Syscall.Answer)} {result : Except IoError Bool} :
    Drains n true calls result → Drains (n + 1) queued (⟨.recvmsg, .ok record⟩ :: calls) result

/-- Every run of the bounded read of the error queue is one of these. -/
theorem drains_drain {n : Nat} {queued : Bool} {ping ping' : Ping} {calls : List (Exchange Syscall.Answer)}
    {result : Except IoError Bool} (h : (drain n queued).Runs ping calls result ping') : Drains n queued calls result := by
  induction n generalizing queued ping calls with
  | zero =>
    obtain ⟨rfl, rfl, -⟩ := runs_pure.1 h
    exact .spent queued
  | succ n ih =>
    rcases runs_bind.1 h with ⟨first, second, event, ping₁, rfl, hqueued, hrest⟩ | ⟨error, hqueued, rfl⟩
    · rcases queuedError_cases hqueued with ⟨error, hkind, rfl, hevent⟩ | ⟨error, -, -, hevent⟩ | ⟨record, _, rfl, hevent, -⟩ <;>
        cases hevent
      · obtain ⟨rfl, rfl, -⟩ := runs_pure.1 hrest
        exact .empty n queued error hkind
      · exact .record n queued record (ih hrest)
    · rcases queuedError_cases hqueued with ⟨_, -, -, herror⟩ | ⟨_, hkind, rfl, herror⟩ | ⟨_, _, -, herror, -⟩ <;> cases herror
      exact .failed n queued error hkind

/-- The result of a send once so many bytes were sent. -/
def sentResult (packet : Bytes) (sent : Nat) : Except IoError Unit :=
  if sent ≠ packet.length then .error { kind := .writeZero, rawOsError := none, text := "Incomplete ICMP ping send" } else .ok ()

/-- The check of what was sent makes no call. -/
theorem runs_sentAll {packet : Bytes} {sent : Nat} {ping ping' : Ping} {calls : List (Exchange Syscall.Answer)}
    {result : Except IoError Unit} (h : (sentAll packet sent).Runs ping calls result ping') :
    calls = [] ∧ result = sentResult packet sent ∧ ping' = ping := by
  unfold sentAll at h
  unfold sentResult
  split
  · rename_i hsent
    rw [if_pos hsent] at h
    exact runs_throw.1 h
  · rename_i hsent
    rw [if_neg hsent] at h
    exact runs_pure.1 h

/-- The runs of `send` after a first `send_to` that fails with this error. -/
inductive Resends (packet : Bytes) (target : IpAddr) (error : IoError) (ping : Ping) :
    List (Exchange Syscall.Answer) → Except IoError Nat → Prop where
  | unread (calls : List (Exchange Syscall.Answer)) (error' : IoError) :
    Drains 64 false calls (.error error') → Resends packet target error ping calls (.error error')
  | unexplained (calls : List (Exchange Syscall.Answer)) :
    Drains 64 false calls (.ok false) → Resends packet target error ping calls (.error error.other)
  | pending (calls : List (Exchange Syscall.Answer)) (error' : IoError) : Drains 64 false calls (.ok true) →
    Resends packet target error ping (calls ++ [⟨.takeError, .error error'⟩]) (.error error')
  | sent (calls : List (Exchange Syscall.Answer)) (held : Option IoError) (sent : Nat) :
    Drains 64 false calls (.ok true) → ping.error = none →
    Resends packet target error ping (calls ++ [⟨.takeError, .ok held⟩, ⟨.sendTo packet target, .ok sent⟩]) (.ok sent)
  | refused (calls : List (Exchange Syscall.Answer)) (held : Option IoError) (error' : IoError) :
    Drains 64 false calls (.ok true) →
    Resends packet target error ping (calls ++ [⟨.takeError, .ok held⟩, ⟨.sendTo packet target, .error error'⟩])
      (.error error'.other)

/-- Every run after a first `send_to` that fails is one of these. -/
theorem resends_resend {packet : Bytes} {target : IpAddr} {error : IoError} {ping ping' : Ping}
    {calls : List (Exchange Syscall.Answer)} {result : Except IoError Nat}
    (h : (resend packet target error).Runs ping calls result ping') : Resends packet target error ping' calls result := by
  rcases runs_bind.1 h with ⟨first, second, queued, ping₁, rfl, hdrain, h₁⟩ | ⟨error', hdrain, rfl⟩
  swap
  · exact .unread calls error' (drains_drain hdrain)
  replace hdrain := drains_drain hdrain
  replace h₁ := runs_modify_bind.1 h₁
  cases queued with
  | false =>
    obtain ⟨rfl, rfl, -⟩ := runs_throw.1 h₁
    rw [List.append_nil]
    exact .unexplained first hdrain
  | true =>
    obtain ⟨answer, rest, rfl, h₂⟩ := runs_call_bind.1 h₁
    cases answer with
    | error error' =>
      obtain ⟨rfl, rfl, -⟩ := runs_throw.1 h₂
      exact .pending first error' hdrain
    | ok held =>
      obtain ⟨answer, rest, rfl, h₃⟩ := runs_call_bind.1 h₂
      cases answer with
      | ok sent =>
        obtain ⟨rfl, rfl, rfl⟩ := runs_pure.1 h₃
        exact .sent first held sent hdrain rfl
      | error error' =>
        obtain ⟨rfl, rfl, -⟩ := runs_throw.1 h₃
        exact .refused first held error' hdrain

/-- The runs of `send`. -/
inductive Sends (packet : Bytes) (target : IpAddr) (ping : Ping) :
    List (Exchange Syscall.Answer) → Except IoError Unit → Prop where
  | unread (calls : List (Exchange Syscall.Answer)) (error : IoError) :
    Drains 64 false calls (.error error) → Sends packet target ping calls (.error error)
  | pending (calls : List (Exchange Syscall.Answer)) (queued : Bool) (error : IoError) : Drains 64 false calls (.ok queued) →
    Sends packet target ping (calls ++ [⟨.takeError, .error error⟩]) (.error error)
  | sent (calls : List (Exchange Syscall.Answer)) (queued : Bool) (held : Option IoError) (sent : Nat) :
    Drains 64 false calls (.ok queued) → ping.error = none →
    Sends packet target ping (calls ++ [⟨.takeError, .ok held⟩, ⟨.sendTo packet target, .ok sent⟩]) (sentResult packet sent)
  | resent (calls : List (Exchange Syscall.Answer)) (queued : Bool) (held : Option IoError) (error : IoError)
      {more : List (Exchange Syscall.Answer)} {result : Except IoError Nat} :
    Drains 64 false calls (.ok queued) → Resends packet target error ping more result →
    Sends packet target ping (calls ++ ⟨.takeError, .ok held⟩ :: ⟨.sendTo packet target, .error error⟩ :: more)
      (result.bind (sentResult packet))

/-- Every run of `send` is one of these. -/
theorem sends_send {packet : Bytes} {target : IpAddr} {ping ping' : Ping} {calls : List (Exchange Syscall.Answer)}
    {result : Except IoError Unit} (h : (send packet target).Runs ping calls result ping') :
    Sends packet target ping' calls result := by
  rcases runs_bind.1 h with ⟨first, second, queued, ping₁, rfl, hdrain, h₁⟩ | ⟨error, hdrain, rfl⟩
  swap
  · exact .unread calls error (drains_drain hdrain)
  replace hdrain := drains_drain hdrain
  obtain ⟨answer, rest, rfl, h₂⟩ := runs_call_bind.1 h₁
  cases answer with
  | error error =>
    obtain ⟨rfl, rfl, -⟩ := runs_throw.1 h₂
    exact .pending first queued error hdrain
  | ok held =>
    obtain ⟨answer, rest, rfl, h₃⟩ := runs_call_bind.1 (runs_modify_bind.1 h₂)
    cases answer with
    | ok sent =>
      obtain ⟨rfl, rfl, rfl⟩ := runs_sentAll h₃
      exact .sent first queued held sent hdrain rfl
    | error error =>
      rcases runs_bind.1 h₃ with ⟨more, last, sent, ping₂, rfl, hresend, hlast⟩ | ⟨error', hresend, rfl⟩
      · obtain ⟨rfl, rfl, rfl⟩ := runs_sentAll hlast
        rw [List.append_nil]
        exact .resent first queued held error hdrain (resends_resend hresend)
      · exact .resent first queued held error hdrain (resends_resend hresend)

/-! ## What the runs tell -/

/-- A call of `send_to`. -/
def isSendTo : Exchange Syscall.Answer → Bool
  | ⟨.sendTo _ _, _⟩ => true
  | _ => false

/-- A call of `send_to` that succeeds. -/
def isSent : Exchange Syscall.Answer → Bool
  | ⟨.sendTo _ _, .ok _⟩ => true
  | _ => false

/-- A read of the error queue. -/
def isRecvmsg : Exchange Syscall.Answer → Bool
  | ⟨.recvmsg, _⟩ => true
  | _ => false

/-- No datagram but this one is passed to the kernel. -/
def SendsOnly (packet : Bytes) (target : IpAddr) (calls : List (Exchange Syscall.Answer)) : Prop :=
  ∀ x ∈ calls, isSendTo x = true → ∃ answer, x = ⟨.sendTo packet target, answer⟩

/-- Two parts that pass no other datagram pass no other together. -/
theorem SendsOnly.append {packet : Bytes} {target : IpAddr} {calls more : List (Exchange Syscall.Answer)}
    (h : SendsOnly packet target calls) (hmore : SendsOnly packet target more) : SendsOnly packet target (calls ++ more) :=
  fun x hx => (List.mem_append.1 hx).elim (h x) (hmore x)

/-- The last call failed with this error: a read of the error queue, or of `SO_ERROR`. -/
def EndsFailed (calls : List (Exchange Syscall.Answer)) (error : IoError) : Prop :=
  ∃ before, calls = before ++ [⟨.recvmsg, .error error⟩] ∨ calls = before ++ [⟨.takeError, .error error⟩]

/-- Calls may come before the last one. -/
theorem EndsFailed.after {calls : List (Exchange Syscall.Answer)} {error : IoError} (h : EndsFailed calls error)
    (first : List (Exchange Syscall.Answer)) : EndsFailed (first ++ calls) error := by
  obtain ⟨before, rfl | rfl⟩ := h
  · exact ⟨first ++ before, Or.inl (List.append_assoc ..).symm⟩
  · exact ⟨first ++ before, Or.inr (List.append_assoc ..).symm⟩

section Drains

variable {n : Nat} {queued : Bool} {calls : List (Exchange Syscall.Answer)} {result : Except IoError Bool}

/-- Nothing but the error queue is read. -/
theorem Drains.reads (h : Drains n queued calls result) : ∀ x ∈ calls, ∃ answer, x = ⟨.recvmsg, answer⟩ := by
  induction h with
  | spent queued => exact List.forall_mem_nil _
  | empty n queued error _ => simp
  | failed n queued error _ => simp
  | record n queued record _ ih => simpa using ih

/-- The bound is kept. -/
theorem Drains.length_le (h : Drains n queued calls result) : calls.length ≤ n := by
  induction h with
  | spent queued => exact Nat.le_refl 0
  | empty n queued error _ => simp
  | failed n queued error _ => simp
  | record n queued record _ ih => exact Nat.succ_le_succ ih

/-- A record that was found was read. -/
theorem Drains.found (h : Drains n queued calls result) (hresult : result = .ok true) (hqueued : queued = false) :
    ∃ record, ⟨.recvmsg, .ok record⟩ ∈ calls := by
  cases h with
  | spent queued => simp_all
  | empty n queued error _ => simp_all
  | failed n queued error _ => cases hresult
  | record n queued record _ => exact ⟨record, List.mem_cons_self ..⟩

/-- Where reading fails, the last call has failed so. -/
theorem Drains.ends (h : Drains n queued calls result) {error : IoError} (hresult : result = .error error) :
    EndsFailed calls error := by
  induction h with
  | spent queued => cases hresult
  | empty n queued error _ => cases hresult
  | failed n queued error _ =>
    cases hresult
    exact ⟨[], Or.inl rfl⟩
  | record n queued record _ ih => exact (ih hresult).after [_]

/-- No call but a read of the queue. -/
theorem Drains.countP_eq_zero (h : Drains n queued calls result) {f : Exchange Syscall.Answer → Bool}
    (hf : ∀ answer, f ⟨.recvmsg, answer⟩ = false) : calls.countP f = 0 := by
  refine List.countP_eq_zero.2 fun x hx => ?_
  obtain ⟨answer, rfl⟩ := h.reads x hx
  rw [hf]
  exact Bool.false_ne_true

/-- The bound is one on the reads of the error queue. -/
theorem Drains.countP_isRecvmsg_le (h : Drains n queued calls result) : calls.countP isRecvmsg ≤ n :=
  List.countP_le_length.trans h.length_le

/-- Reading the error queue sends nothing. -/
theorem Drains.not_mem_sendTo (h : Drains n queued calls result) (packet : Bytes) (target : IpAddr)
    (answer : Except IoError Nat) : ¬(⟨.sendTo packet target, answer⟩ : Exchange Syscall.Answer) ∈ calls := by
  intro hmem
  obtain ⟨answer', heq⟩ := h.reads _ hmem
  cases heq

/-- Reading the error queue sends no other datagram. -/
theorem Drains.sendsOnly (h : Drains n queued calls result) (packet : Bytes) (target : IpAddr) :
    SendsOnly packet target calls := by
  intro x hx hsendTo
  obtain ⟨answer, rfl⟩ := h.reads x hx
  cases hsendTo

end Drains

section Resends

variable {packet : Bytes} {target : IpAddr} {error : IoError} {ping : Ping} {calls : List (Exchange Syscall.Answer)}
  {result : Except IoError Nat}

/-- After a first `send_to` that fails, the error queue is read 64 times at most. -/
theorem Resends.countP_isRecvmsg_le (h : Resends packet target error ping calls result) : calls.countP isRecvmsg ≤ 64 := by
  cases h with
  | unread calls error' hdrain => exact hdrain.countP_isRecvmsg_le
  | unexplained calls hdrain => exact hdrain.countP_isRecvmsg_le
  | pending calls error' hdrain => simpa [isRecvmsg] using hdrain.countP_isRecvmsg_le
  | sent calls held sent hdrain _ => simpa [isRecvmsg] using hdrain.countP_isRecvmsg_le
  | refused calls held error' hdrain => simpa [isRecvmsg] using hdrain.countP_isRecvmsg_le

/-- A `send_to` after a record was read. -/
theorem Drains.sendTo_after {first : List (Exchange Syscall.Answer)} {held : Option IoError} {answer : Except IoError Nat}
    (h : Drains 64 false first (.ok true)) (hcalls : calls = first ++ [⟨.takeError, .ok held⟩, ⟨.sendTo packet target, answer⟩]) :
    calls.countP isSendTo = 1 ∧
      ∃ before record answer, calls = before ++ [⟨.sendTo packet target, answer⟩] ∧ ⟨.recvmsg, .ok record⟩ ∈ before := by
  obtain ⟨record, hrecord⟩ := h.found rfl rfl
  refine ⟨?_, first ++ [⟨.takeError, .ok held⟩], record, answer, by simp [hcalls], List.mem_append_left _ hrecord⟩
  rw [hcalls, List.countP_append, h.countP_eq_zero fun _ => rfl]
  rfl

/-- The datagram is passed to the kernel once more, as the last call and after a record was read; or it is not. -/
theorem Resends.cases_sendTo (h : Resends packet target error ping calls result) :
    calls.countP isSendTo = 0 ∨ calls.countP isSendTo = 1 ∧
      ∃ before record answer, calls = before ++ [⟨.sendTo packet target, answer⟩] ∧ ⟨.recvmsg, .ok record⟩ ∈ before := by
  cases h with
  | unread calls error' hdrain => exact Or.inl (hdrain.countP_eq_zero fun _ => rfl)
  | unexplained calls hdrain => exact Or.inl (hdrain.countP_eq_zero fun _ => rfl)
  | pending calls error' hdrain =>
    rw [List.countP_append, hdrain.countP_eq_zero fun _ => rfl]
    exact Or.inl rfl
  | sent calls held sent hdrain _ => exact Or.inr (hdrain.sendTo_after rfl)
  | refused calls held error' hdrain => exact Or.inr (hdrain.sendTo_after rfl)

/-- After a first `send_to` that fails, no other datagram is sent. -/
theorem Resends.sendsOnly (h : Resends packet target error ping calls result) : SendsOnly packet target calls := by
  cases h with
  | unread calls error' hdrain => exact hdrain.sendsOnly packet target
  | unexplained calls hdrain => exact hdrain.sendsOnly packet target
  | pending calls error' hdrain => exact (hdrain.sendsOnly packet target).append (by simp [SendsOnly, isSendTo])
  | sent calls held sent hdrain _ => exact (hdrain.sendsOnly packet target).append (by simp [SendsOnly, isSendTo])
  | refused calls held error' hdrain => exact (hdrain.sendsOnly packet target).append (by simp [SendsOnly, isSendTo])

/-- It returns what the `send_to` that succeeds returns. -/
theorem Resends.ok_iff (h : Resends packet target error ping calls result) (sent : Nat) :
    result = .ok sent ↔ ⟨.sendTo packet target, .ok sent⟩ ∈ calls := by
  cases h with
  | unread calls error' hdrain => simp [hdrain.not_mem_sendTo]
  | unexplained calls hdrain => simp [hdrain.not_mem_sendTo]
  | pending calls error' hdrain => simp [hdrain.not_mem_sendTo]
  | sent calls held sent' hdrain _ => simp [hdrain.not_mem_sendTo, eq_comm]
  | refused calls held error' hdrain => simp [hdrain.not_mem_sendTo]

/-- It returns with no error held. -/
theorem Resends.error_eq_none (h : Resends packet target error ping calls result) {sent : Nat} (hresult : result = .ok sent) :
    ping.error = none := by
  cases h with
  | sent calls held sent hdrain herror => exact herror
  | _ => cases hresult

/-- It fails as one of its calls that is no `send_to`, or with the error of a `send_to`, wrapped. -/
theorem Resends.fails (h : Resends packet target error ping calls result) {error' : IoError} (hresult : result = .error error') :
    EndsFailed calls error' ∨ error' = error.other ∨
      ∃ error'', ⟨.sendTo packet target, .error error''⟩ ∈ calls ∧ error' = error''.other := by
  cases h with
  | unread calls _ hdrain =>
    cases hresult
    exact Or.inl (hdrain.ends rfl)
  | unexplained calls hdrain =>
    cases hresult
    exact Or.inr (Or.inl rfl)
  | pending calls _ hdrain =>
    cases hresult
    exact Or.inl ⟨calls, Or.inr rfl⟩
  | sent calls held sent hdrain _ => cases hresult
  | refused calls held error'' hdrain =>
    cases hresult
    exact Or.inr (Or.inr ⟨error'', by simp, rfl⟩)

end Resends

/-- The error is that of a `send_to`, wrapped, or it tells that a `send_to` sent only a part of the datagram. -/
def OfSendTo (packet : Bytes) (target : IpAddr) (calls : List (Exchange Syscall.Answer)) (error : IoError) : Prop :=
  (∃ error', ⟨.sendTo packet target, .error error'⟩ ∈ calls ∧ error = error'.other) ∨
    ∃ sent, ⟨.sendTo packet target, .ok sent⟩ ∈ calls ∧ sent ≠ packet.length ∧ error.kind = .writeZero

/-- It is no error that the engine, or a caller that reads errors as it does, takes for the state of the network. -/
theorem OfSendTo.kind_not_mem {packet : Bytes} {target : IpAddr} {calls : List (Exchange Syscall.Answer)} {error : IoError}
    (h : OfSendTo packet target calls error) :
    error.kind ∉ [ErrorKind.networkUnreachable, .hostUnreachable, .timedOut, .wouldBlock, .interrupted] := by
  rcases h with ⟨error', -, rfl⟩ | ⟨sent, -, -, hkind⟩
  · change ErrorKind.other ∉ _
    decide
  · rw [hkind]
    decide

/-- A send that was cut short fails; one that was not succeeds. -/
theorem sentResult_eq_ok {packet : Bytes} {sent : Nat} : sentResult packet sent = .ok () ↔ sent = packet.length := by
  unfold sentResult
  split
  · rename_i hsent
    exact ⟨nofun, fun h => absurd h hsent⟩
  · rename_i hsent
    exact ⟨fun _ => not_not.1 hsent, fun _ => rfl⟩

/-- The error of a `send_to` that sent a part of the datagram is one of `send_to`. -/
theorem ofSendTo_of_sentResult {packet : Bytes} {target : IpAddr} {calls : List (Exchange Syscall.Answer)} {sent : Nat}
    {error : IoError} (hcall : ⟨.sendTo packet target, .ok sent⟩ ∈ calls) (h : sentResult packet sent = .error error) :
    OfSendTo packet target calls error := by
  unfold sentResult at h
  split at h
  · rename_i hsent
    cases h
    exact Or.inr ⟨sent, hcall, hsent, rfl⟩
  · cases h

section Sends

variable {packet : Bytes} {target : IpAddr} {ping : Ping} {calls : List (Exchange Syscall.Answer)} {result : Except IoError Unit}

/-- `send` reads the error queue 128 times at most. -/
theorem Sends.countP_isRecvmsg_le (h : Sends packet target ping calls result) : calls.countP isRecvmsg ≤ 128 := by
  cases h with
  | unread calls error hdrain => exact hdrain.countP_isRecvmsg_le.trans (by decide)
  | pending calls queued error hdrain =>
    rw [List.countP_append]
    exact (Nat.add_le_add_right hdrain.countP_isRecvmsg_le 0).trans (by decide)
  | sent calls queued held sent hdrain _ =>
    rw [List.countP_append]
    exact (Nat.add_le_add_right hdrain.countP_isRecvmsg_le 0).trans (by decide)
  | resent calls queued held error hdrain hresend =>
    rw [List.countP_append]
    exact Nat.add_le_add hdrain.countP_isRecvmsg_le hresend.countP_isRecvmsg_le

/-- The datagram is passed to the kernel at most twice, and the second time only after the first one failed and a record was
read since. -/
theorem Sends.cases_sendTo (h : Sends packet target ping calls result) :
    calls.countP isSendTo = 0 ∨ calls.countP isSendTo = 1 ∨ calls.countP isSendTo = 2 ∧
      ∃ first error between record answer, calls = first ++ ⟨.sendTo packet target, .error error⟩ :: between ++
        [⟨.sendTo packet target, answer⟩] ∧ ⟨.recvmsg, .ok record⟩ ∈ between := by
  cases h with
  | unread calls error hdrain => exact Or.inl (hdrain.countP_eq_zero fun _ => rfl)
  | pending calls queued error hdrain =>
    rw [List.countP_append, hdrain.countP_eq_zero fun _ => rfl]
    exact Or.inl rfl
  | sent calls queued held sent hdrain _ =>
    rw [List.countP_append, hdrain.countP_eq_zero fun _ => rfl]
    exact Or.inr (Or.inl rfl)
  | @resent calls queued held error more result hdrain hresend =>
    have hcount : (calls ++ ⟨.takeError, .ok held⟩ :: ⟨.sendTo packet target, .error error⟩ :: more).countP isSendTo =
        more.countP isSendTo + 1 := by
      rw [List.countP_append, hdrain.countP_eq_zero fun _ => rfl, Nat.zero_add]
      simp [List.countP_cons, isSendTo]
    rw [hcount]
    rcases hresend.cases_sendTo with hzero | ⟨hone, before, record, answer, rfl, hrecord⟩
    · rw [hzero]
      exact Or.inr (Or.inl rfl)
    · rw [hone]
      exact Or.inr (Or.inr ⟨rfl, calls ++ [⟨.takeError, .ok held⟩], error, before, record, answer, by simp, hrecord⟩)

/-- `send` sends the datagram once at most. -/
theorem Sends.countP_isSent_le (h : Sends packet target ping calls result) : calls.countP isSent ≤ 1 := by
  cases h with
  | unread calls error hdrain =>
    rw [hdrain.countP_eq_zero fun _ => rfl]
    decide
  | pending calls queued error hdrain =>
    rw [List.countP_append, hdrain.countP_eq_zero fun _ => rfl]
    exact Nat.zero_le 1
  | sent calls queued held sent hdrain _ =>
    rw [List.countP_append, hdrain.countP_eq_zero fun _ => rfl]
    exact Nat.le_refl 1
  | @resent calls queued held error more result hdrain hresend =>
    have hmono : more.countP isSent ≤ more.countP isSendTo := by
      refine List.countP_mono_left fun x _ hx => ?_
      unfold isSent at hx
      split at hx
      · rfl
      · cases hx
    rw [List.countP_append, hdrain.countP_eq_zero fun _ => rfl, Nat.zero_add]
    rcases hresend.cases_sendTo with hcount | ⟨hcount, -⟩ <;> simpa [List.countP_cons, isSent] using hmono.trans (by omega)

/-- `send` sends no other datagram. -/
theorem Sends.sendsOnly (h : Sends packet target ping calls result) : SendsOnly packet target calls := by
  cases h with
  | unread calls error hdrain => exact hdrain.sendsOnly packet target
  | pending calls queued error hdrain => exact (hdrain.sendsOnly packet target).append (by simp [SendsOnly, isSendTo])
  | sent calls queued held sent hdrain _ => exact (hdrain.sendsOnly packet target).append (by simp [SendsOnly, isSendTo])
  | resent calls queued held error hdrain hresend =>
    have hfirst : SendsOnly packet target [⟨.takeError, .ok held⟩, ⟨.sendTo packet target, .error error⟩] := by
      simp [SendsOnly, isSendTo]
    exact (hdrain.sendsOnly packet target).append (hfirst.append hresend.sendsOnly)

/-- It succeeds just when one of its `send_to` calls sends the whole packet. -/
theorem Sends.ok_iff (h : Sends packet target ping calls result) :
    result = .ok () ↔ ⟨.sendTo packet target, .ok packet.length⟩ ∈ calls := by
  cases h with
  | unread calls error hdrain => simp [hdrain.not_mem_sendTo]
  | pending calls queued error hdrain => simp [hdrain.not_mem_sendTo]
  | sent calls queued held sent hdrain _ =>
    rw [sentResult_eq_ok]
    simp [hdrain.not_mem_sendTo, eq_comm]
  | @resent calls queued held error more result hdrain hresend =>
    rw [show ⟨.sendTo packet target, .ok packet.length⟩ ∈ calls ++ ⟨.takeError, .ok held⟩ ::
      ⟨.sendTo packet target, .error error⟩ :: more ↔ ⟨.sendTo packet target, .ok packet.length⟩ ∈ more by
        simp [hdrain.not_mem_sendTo], ← hresend.ok_iff]
    cases result with
    | error error => exact ⟨nofun, nofun⟩
    | ok sent => exact sentResult_eq_ok.trans (Except.ok.injEq ..).symm.to_iff

/-- It succeeds with no error held. -/
theorem Sends.error_eq_none (h : Sends packet target ping calls result) (hresult : result = .ok ()) : ping.error = none := by
  cases h with
  | unread calls error hdrain => cases hresult
  | pending calls queued error hdrain => cases hresult
  | sent calls queued held sent hdrain herror => exact herror
  | @resent calls queued held error more result hdrain hresend =>
    cases result with
    | error error => cases hresult
    | ok sent => exact hresend.error_eq_none rfl

/-- It fails as one of its calls that is no `send_to`, or with an error made of the answer of one that is. -/
theorem Sends.fails (h : Sends packet target ping calls result) {error : IoError} (hresult : result = .error error) :
    EndsFailed calls error ∨ OfSendTo packet target calls error := by
  cases h with
  | unread calls _ hdrain =>
    cases hresult
    exact Or.inl (hdrain.ends rfl)
  | pending calls queued _ hdrain =>
    cases hresult
    exact Or.inl ⟨calls, Or.inr rfl⟩
  | sent calls queued held sent hdrain _ => exact Or.inr (ofSendTo_of_sentResult (by simp) hresult)
  | @resent calls queued held error' more result hdrain hresend =>
    cases result with
    | ok sent =>
      have hmem := (hresend.ok_iff sent).1 rfl
      exact Or.inr (ofSendTo_of_sentResult (by simp [hmem]) hresult)
    | error error'' =>
      cases hresult
      rcases hresend.fails rfl with hends | rfl | ⟨error'', hmem, rfl⟩
      · exact Or.inl ((hends.after [⟨.takeError, .ok held⟩, ⟨.sendTo packet target, .error error'⟩]).after calls)
      · exact Or.inr (Or.inl ⟨error', by simp, rfl⟩)
      · exact Or.inr (Or.inl ⟨error'', by simp [hmem], rfl⟩)

end Sends

/-- Every exit of `send` is harmless. -/
theorem harmless_send (packet : Bytes) (target : IpAddr) : Throws Assumed (send packet target) fun error => ¬Unreachable error := by
  intro ping calls error ping' hassumed h
  rcases (sends_send h).fails rfl with ⟨before, rfl | rfl⟩ | hof
  · exact hassumed ⟨.recvmsg, .error error⟩ (List.mem_append_right _ (List.mem_singleton_self _))
  · exact hassumed ⟨.takeError, .error error⟩ (List.mem_append_right _ (List.mem_singleton_self _))
  · have hkind := hof.kind_not_mem
    rintro (hunreachable | hunreachable) <;> simp [hunreachable] at hkind

/-! ## Errors that no record explains -/

section Unexplained

variable {packet : Bytes} {target : IpAddr} {error : IoError} {ping : Ping} {calls : List (Exchange Syscall.Answer)}

/-- Draining an empty queue finds nothing. -/
theorem Drains.of_empty {n : Nat} {queued : Bool} {result : Except IoError Bool} (h : Drains n queued calls result)
    (hempty : QueueEmpty calls) : result = .ok queued := by
  cases h with
  | spent queued => rfl
  | empty n queued error _ => rfl
  | failed n queued error hkind =>
    obtain ⟨_, herror, hblock⟩ := hempty _ (List.mem_singleton_self _)
    cases herror
    exact absurd hblock hkind
  | record n queued record _ =>
    obtain ⟨_, herror, -⟩ := hempty _ (List.mem_cons_self ..)
    cases herror

/-- Draining the queue leaves nothing unexplained. -/
theorem Drains.not_unexplained {n : Nat} {queued : Bool} {result : Except IoError Bool} (h : Drains n queued calls result) :
    ¬Unexplained (SendFails error) calls := by
  rintro ⟨before, x, after, rfl, hx, -⟩
  obtain ⟨answer, rfl⟩ := h.reads x (List.mem_append_right _ (List.mem_cons_self ..))
  exact hx

/-- Nothing is unexplained where no `send_to` fails after it either. -/
theorem Drains.not_unexplained_append {n : Nat} {queued : Bool} {result : Except IoError Bool} (h : Drains n queued calls result)
    {more : List (Exchange Syscall.Answer)} (hmore : ∀ x ∈ more, ¬SendFails error x) :
    ¬Unexplained (SendFails error) (calls ++ more) := by
  intro hcalls
  obtain ⟨before, x, after, rfl, hx, -⟩ := (unexplained_append hcalls).resolve_left h.not_unexplained
  exact hmore x (List.mem_append_right _ (List.mem_cons_self ..)) hx

/-- The error of the first `send_to` is returned when the queue is empty. -/
theorem Resends.error_of_empty {result : Except IoError Nat} (h : Resends packet target error ping calls result)
    (hempty : QueueEmpty calls) : result = .error error.other := by
  cases h with
  | unread calls error' hdrain => cases hdrain.of_empty hempty
  | unexplained calls hdrain => rfl
  | pending calls error' hdrain => cases hdrain.of_empty hempty.left
  | sent calls held sent hdrain _ => cases hdrain.of_empty hempty.left
  | refused calls held error' hdrain => cases hdrain.of_empty hempty.left

/-- An unexplained error of the second `send_to` is returned. -/
theorem Resends.error_of_unexplained {first : IoError} {result : Except IoError Nat}
    (h : Resends packet target first ping calls result) (hcalls : Unexplained (SendFails error) calls) :
    result = .error error.other := by
  cases h with
  | unread calls error' hdrain => exact absurd hcalls hdrain.not_unexplained
  | unexplained calls hdrain => exact absurd hcalls hdrain.not_unexplained
  | pending calls error' hdrain => exact absurd hcalls (hdrain.not_unexplained_append (by simp [SendFails]))
  | sent calls held sent hdrain _ => exact absurd hcalls (hdrain.not_unexplained_append (by simp [SendFails]))
  | refused calls held error' hdrain =>
    rcases unexplained_cons ((unexplained_append hcalls).resolve_left hdrain.not_unexplained) with ⟨hfails, -⟩ | hlast
    · exact hfails.elim
    rcases unexplained_cons hlast with ⟨hfails, -⟩ | hnil
    · obtain rfl : error' = error := hfails
      rfl
    · exact absurd hnil not_unexplained_nil

/-- An unexplained error of `send_to` is the error of `send`, wrapped. -/
theorem send_unexplained {ping' : Ping} {result : Except IoError Unit} (h : (send packet target).Runs ping calls result ping')
    (hcalls : Unexplained (SendFails error) calls) : result = .error error.other := by
  cases sends_send h with
  | unread calls error' hdrain => exact absurd hcalls hdrain.not_unexplained
  | pending calls queued error' hdrain => exact absurd hcalls (hdrain.not_unexplained_append (by simp [SendFails]))
  | sent calls queued held sent hdrain _ => exact absurd hcalls (hdrain.not_unexplained_append (by simp [SendFails]))
  | resent calls queued held error' hdrain hresend =>
    rcases unexplained_cons ((unexplained_append hcalls).resolve_left hdrain.not_unexplained) with ⟨hfails, -⟩ | hlast
    · exact hfails.elim
    rcases unexplained_cons hlast with ⟨hfails, hempty⟩ | hmore
    · obtain rfl : error' = error := hfails
      rw [hresend.error_of_empty hempty]
      rfl
    · rw [hresend.error_of_unexplained hmore]
      rfl

end Unexplained

end Ping

end IcmpPing
