import IcmpPing.Lemmas.Control
import IcmpPing.Lemmas.Ping
import IcmpPing.Theorems.Ping

/-!
# Reading a record, byte by byte

Whatever control messages the kernel returns, `queued_error` reads only what the kernel has written, and does with it what it does with
the list of these messages: the rest of the adapter may be told of records and messages.
-/

namespace IcmpPing

namespace Control

/-- Whatever `recvmsg` has returned, `queued_error` reads nothing outside it, comes to an end, and does as with the record of the control
messages that the kernel has written: it returns the same event, and leaves the same socket. -/
theorem queued_error_reads (macros : Macros) (hmacros : macros.Lawful) (ping : Ping) (returned : Returned) (messages : List Cmsg)
    (hholds : returned.Holds messages) (n : Nat) (hn : controlSize / headerSize ≤ n) :
    ∃ event ping', queuedError macros n ping returned = .ok (some (event, ping')) ∧
      Ping.queuedError.Runs ping [⟨.recvmsg, .ok (returned.record messages)⟩] (.ok event) ping' := by
  obtain ⟨data, truncated, name, control⟩ := returned
  have hruns : ∀ {event ping'}, Ping.queueOutcome ping (.ok (Returned.record ⟨data, truncated, name, control⟩ messages)) = (.ok event, ping') →
      Ping.queuedError.Runs ping [⟨.recvmsg, .ok (Returned.record ⟨data, truncated, name, control⟩ messages)⟩] (.ok event) ping' :=
    fun houtcome => Ping.runs_queuedError.2 ⟨_, rfl, houtcome.symm⟩
  unfold Ping.queueOutcome Ping.usable Returned.record at hruns
  cases truncated with
  | true => exact ⟨_, _, rfl, hruns rfl⟩
  | false =>
    obtain ⟨rfl, hfits⟩ := hholds rfl
    have hcount : messages.length ≤ n := by
      have hle := (length_mul_le messages).trans hfits
      unfold controlSize headerSize at hle hn
      omega
    have hread := read_encode hmacros ping.target messages hfits hcount
    unfold queuedError
    simp only [Bool.false_eq_true, if_false] at hruns ⊢
    cases haddress : sockaddrIp (storage name) with
    | none =>
      simp only [haddress] at hruns
      exact ⟨_, _, rfl, hruns rfl⟩
    | some destination =>
      simp only [hread, Checked.ok_bind]
      cases herror : extendedError ping.target (messages.map Cmsg.message) with
      | none =>
        simp only [haddress, herror, Option.map_none] at hruns
        exact ⟨_, _, rfl, hruns rfl⟩
      | some error =>
        simp only [haddress, herror, Option.map_some] at hruns
        exact ⟨_, _, rfl, hruns rfl⟩

/-- The control message of the sample record, and its name, as the kernel writes them. -/
def sampleCmsg : Cmsg where
  level := 0
  kind := 11
  data := [113, 0, 0, 0, 2, 3, 1, 0] ++ List.replicate 8 0 ++ [2, 0, 0, 0, 192, 0, 2, 3] ++ List.replicate 8 0

def sampleReturned : Returned where
  data := sampleRequest.take 8
  truncated := false
  name := [2, 0, 0, 0, 192, 0, 2, 2] ++ List.replicate 8 0
  control := sampleCmsg.encode

theorem queued_error_reads_sample : sampleReturned.record [sampleCmsg] = sampleQueuedRecord ∧
    ∃ event ping', queuedError .linux 32 samplePing sampleReturned = .ok (some (event, ping')) ∧
      Ping.queuedError.Runs samplePing [⟨.recvmsg, .ok (sampleReturned.record [sampleCmsg])⟩] (.ok event) ping' := by
  have hholds : sampleReturned.Holds [sampleCmsg] := fun _ => ⟨(List.append_nil _).symm, by decide⟩
  exact ⟨by decide, queued_error_reads .linux Macros.lawful_linux samplePing sampleReturned [sampleCmsg] hholds 32 (by decide)⟩

end Control

end IcmpPing
