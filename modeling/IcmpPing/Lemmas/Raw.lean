import IcmpPing.Lemmas.Darwin
import IcmpPing.Lemmas.Probe
import IcmpPing.Raw

/-!
# The methods of the raw transport

What `send` and `receive` can do, one rule for each way they end.
-/

namespace IcmpPing

/-! ## Logs -/

/-- The last entries of a log, from the last events. -/
theorem log_of_events {α β : Type} {log : List (α × β)} {before last : List α} (h : log.map Prod.fst = before ++ last) :
    ∃ earlier more, log = earlier ++ more ∧ earlier.map Prod.fst = before ∧ more.map Prod.fst = last :=
  List.map_eq_append_iff.1 h

/-- The entries of two events. -/
theorem log_of_two {α β : Type} {log : List (α × β)} {a b : α} (h : log.map Prod.fst = [a, b]) : ∃ x y, log = [(a, x), (b, y)] := by
  obtain ⟨⟨_, x⟩, rest, rfl, rfl, hrest⟩ := List.map_eq_cons_iff.1 h
  obtain ⟨⟨_, y⟩, more, rfl, rfl, hmore⟩ := List.map_eq_cons_iff.1 hrest
  cases List.map_eq_nil_iff.1 hmore
  exact ⟨x, y, rfl⟩

namespace Raw

open Method

/-! ## `send` -/

/-- What `send` returns when the kernel answers so. -/
def sentResult (packet : Bytes) : Except IoError Nat → Except IoError Unit
  | .error error => .error error
  | .ok sent =>
    if sent ≠ packet.length then .error { kind := .writeZero, rawOsError := none, text := "Incomplete ICMP datagram send" }
    else .ok ()

/-- The runs of `send` over a raw socket: one `send_to`. -/
theorem runs_send {packet : Bytes} {target : IpAddr} {calls : List (Exchange Syscall.Answer)} {result : Except Fault Unit} :
    (send packet target).Runs () calls result () ↔
      ∃ answer, calls = [⟨.sendTo packet target, answer⟩] ∧ result = (sentResult packet answer).mapError Fault.io := by
  constructor
  · intro h
    obtain ⟨answer, rest, rfl, hrest⟩ := runs_call_bind.1 h
    refine ⟨answer, ?_⟩
    cases answer with
    | error error =>
      obtain ⟨rfl, rfl, -⟩ := runs_throw.1 hrest
      exact ⟨rfl, rfl⟩
    | ok sent =>
      simp only at hrest
      split at hrest
      · rename_i hsent
        obtain ⟨rfl, rfl, -⟩ := runs_throw.1 hrest
        exact ⟨rfl, by rw [sentResult, if_pos hsent]; rfl⟩
      · rename_i hsent
        obtain ⟨rfl, rfl, -⟩ := runs_pure.1 hrest
        exact ⟨rfl, by rw [sentResult, if_neg hsent]; rfl⟩
  · rintro ⟨answer, rfl, rfl⟩
    refine runs_call_bind.2 ⟨answer, [], rfl, ?_⟩
    cases answer with
    | error error => exact runs_throw.2 ⟨rfl, rfl, rfl⟩
    | ok sent =>
      simp only [sentResult]
      split
      · exact runs_throw.2 ⟨rfl, rfl, rfl⟩
      · exact runs_pure.2 ⟨rfl, rfl, rfl⟩

/-! ## `receive` -/

/-- The received bytes, in wire form where the system delivers them otherwise. -/
def restored (os : TargetOs) (bytes : Bytes) (source : IpAddr) : Bytes :=
  match os with
  | .macos order => if source.isIpv4 then normalized order bytes else bytes
  | _ => bytes

/-- `restore` does not panic. -/
theorem restore_eq (os : TargetOs) (bytes : Bytes) (source : IpAddr) : restore os bytes source = .ok (restored os bytes source) := by
  cases os with
  | macos order =>
    simp only [restore, restored]
    split
    · exact normalizeMacosIpv4_eq order bytes
    · rfl
  | _ => rfl

/-- Where datagrams are delivered in wire form, they are left alone. -/
theorem restored_of_wire {os : TargetOs} (hos : os = .linux ∨ os = .windows) (bytes : Bytes) (source : IpAddr) :
    restored os bytes source = bytes := by
  rcases hos with rfl | rfl <;> rfl

/-- Restoring keeps the length. -/
theorem length_restored (os : TargetOs) (bytes : Bytes) (source : IpAddr) : (restored os bytes source).length = bytes.length := by
  cases os with
  | macos order =>
    simp only [restored]
    split
    · exact length_normalized order bytes
    · rfl
  | _ => rfl

/-- The ways `receive` can end. -/
inductive Receives (os : TargetOs) (wait : Duration) : List (Exchange Syscall.Answer) → Except IoError Received → Prop where
  | unset (error : IoError) : Receives os wait [⟨.setReadTimeout (max wait (fromMillis 1)), .error error⟩] (.error error)
  | failed (error : IoError) :
    Receives os wait [⟨.setReadTimeout (max wait (fromMillis 1)), .ok ()⟩, ⟨.recvFrom, .error error⟩] (.error error)
  | received (bytes : Bytes) (source : IpAddr) :
    Receives os wait [⟨.setReadTimeout (max wait (fromMillis 1)), .ok ()⟩, ⟨.recvFrom, .ok (bytes, source)⟩]
      (.ok ⟨restored os bytes source, bytes.length, source⟩)

/-- `receive` never panics, and ends in one of these ways. -/
theorem runs_receive {os : TargetOs} {wait : Duration} {calls : List (Exchange Syscall.Answer)} {result : Except Fault Received} :
    (receive os wait).Runs () calls result () ↔
      ∃ outcome, Receives os wait calls outcome ∧ result = outcome.mapError Fault.io := by
  constructor
  · intro h
    obtain ⟨answer, rest, rfl, hrest⟩ := runs_call_bind.1 h
    cases answer with
    | error error =>
      obtain ⟨rfl, rfl, -⟩ := runs_throw.1 hrest
      exact ⟨_, .unset error, rfl⟩
    | ok value =>
      obtain ⟨answer, more, rfl, hmore⟩ := runs_call_bind.1 hrest
      cases answer with
      | error error =>
        obtain ⟨rfl, rfl, -⟩ := runs_throw.1 hmore
        exact ⟨_, .failed error, rfl⟩
      | ok received =>
        obtain ⟨bytes, source⟩ := received
        simp only [restore_eq] at hmore
        obtain ⟨rfl, rfl, -⟩ := runs_pure.1 hmore
        exact ⟨_, .received bytes source, rfl⟩
  · rintro ⟨outcome, h, rfl⟩
    cases h with
    | unset error => exact runs_call_bind.2 ⟨_, [], rfl, runs_throw.2 ⟨rfl, rfl, rfl⟩⟩
    | failed error => exact runs_call_bind.2 ⟨_, _, rfl, runs_call_bind.2 ⟨_, [], rfl, runs_throw.2 ⟨rfl, rfl, rfl⟩⟩⟩
    | received bytes source =>
      refine runs_call_bind.2 ⟨_, _, rfl, runs_call_bind.2 ⟨_, [], rfl, ?_⟩⟩
      simp only [restore_eq]
      exact runs_pure.2 ⟨rfl, rfl, rfl⟩

/-! ## What serves an event -/

/-- A `receive` that ends so serves the event. -/
theorem serves_of_receives {os : TargetOs} {wait : Duration} {calls : List (Exchange Syscall.Answer)} {outcome : Except IoError Received}
    {written : Bytes} (h : Receives os wait calls outcome) (hwritten : ∀ received, outcome = .ok received → written = received.written) :
    Serves os calls (.received wait written (outcome.map Received.report)) :=
  ⟨outcome, runs_receive.2 ⟨outcome, h, rfl⟩, rfl, hwritten⟩

/-- An error of the kernel is told from the result it makes. -/
theorem mapError_io_injective {α : Type} {x y : Except IoError α} (h : x.mapError Fault.io = y.mapError Fault.io) : x = y := by
  cases x <;> cases y <;> cases h <;> rfl

/-- A request was sent with one `send_to`. -/
theorem Serves.sent {os : TargetOs} {calls : List (Exchange Syscall.Answer)} {packet : Bytes} {target : IpAddr}
    {result : Except IoError Unit} (h : Serves os calls (.sent packet target result)) :
    ∃ answer, calls = [⟨.sendTo packet target, answer⟩] ∧ result = sentResult packet answer := by
  obtain ⟨answer, hcalls, hresult⟩ := runs_send.1 h
  exact ⟨answer, hcalls, mapError_io_injective hresult⟩

/-- A receive call was served by a run of `receive`. -/
theorem Serves.received {os : TargetOs} {calls : List (Exchange Syscall.Answer)} {wait : Duration} {written : Bytes}
    {result : Except IoError (Nat × IpAddr)} (h : Serves os calls (.received wait written result)) :
    ∃ outcome, Receives os wait calls outcome ∧ result = outcome.map Received.report ∧
      ∀ received, outcome = .ok received → written = received.written := by
  obtain ⟨outcome, hruns, hresult, hwritten⟩ := h
  obtain ⟨outcome', hreceives, heq⟩ := runs_receive.1 hruns
  obtain rfl := mapError_io_injective heq
  exact ⟨outcome, hreceives, hresult, hwritten⟩

/-- A receive that reports a packet has read it from the socket, as its last call. -/
theorem Serves.packet {os : TargetOs} {calls : List (Exchange Syscall.Answer)} {wait : Duration} {written : Bytes} {length : Nat}
    {source : IpAddr} (h : Serves os calls (.received wait written (.ok (length, source)))) :
    ∃ bytes, calls = [⟨.setReadTimeout (max wait (fromMillis 1)), .ok ()⟩, ⟨.recvFrom, .ok (bytes, source)⟩] ∧
      written = restored os bytes source ∧ length = bytes.length := by
  obtain ⟨outcome, hreceives, hresult, hwritten⟩ := h.received
  cases hreceives with
  | unset error => cases hresult
  | failed error => cases hresult
  | received bytes source =>
    cases hresult
    exact ⟨bytes, rfl, hwritten _ rfl, rfl⟩

end Raw

/-! ## Runs -/

open Probe

/-- The last entry of a log, and the run before it. -/
theorem RawRuns.last {p : Probe} {os : TargetOs} {log : RawLog} {s : State} {e : Event} {calls : List (Exchange Syscall.Answer)}
    (h : RawRuns p os (log ++ [(e, calls)]) s) :
    ∃ s₁, RawRuns p os log s₁ ∧ Moves p.overRaw s₁ e s ∧ Raw.Serves os calls e := by
  obtain ⟨hruns, hserves⟩ := h
  rw [List.map_append] at hruns
  obtain ⟨s₁, hfirst, hlast⟩ := Machine.run_append_eq_some.1 hruns
  exact ⟨s₁, ⟨hfirst, fun entry hentry => hserves entry (List.mem_append_left _ hentry)⟩,
    moves_of_step (Machine.run_singleton.1 hlast), hserves _ (List.mem_append_right _ (List.mem_singleton_self _))⟩

/-- A run goes on with an event that the socket serves. -/
theorem RawRuns.snoc {p : Probe} {os : TargetOs} {log : RawLog} {s s' : State} {e : Event} {calls : List (Exchange Syscall.Answer)}
    (h : RawRuns p os log s) (hmoves : Moves p.overRaw s e s') (hserves : Raw.Serves os calls e) :
    RawRuns p os (log ++ [(e, calls)]) s' := by
  obtain ⟨hruns, hall⟩ := h
  refine ⟨?_, fun entry hentry => ?_⟩
  · rw [List.map_append]
    exact Machine.run_append_eq_some.2 ⟨s, hruns, Machine.run_singleton.2 (step_of_moves hmoves)⟩
  · rcases List.mem_append.1 hentry with hentry | hentry
    · exact hall entry hentry
    · rw [List.mem_singleton.1 hentry]
      exact hserves

end IcmpPing
