import IcmpPing.Lemmas.Checksum
import IcmpPing.Lemmas.Headers

/-!
# The Echo message and what `parse_message` checks of it

An Echo message is its type, a zero code, a checksum field, the identifier, the sequence number and the payload. `echo` builds
one with the checksum its bytes ask for; `parseMessage` accepts a message under conditions on its bytes that do not mention the
order of its checks.
-/

namespace IcmpPing

open OnesComplement

/-! ## Families -/

/-- Two addresses of one family. -/
def SameFamily (a b : IpAddr) : Prop := a.isIpv6 = b.isIpv6

instance (a b : IpAddr) : Decidable (SameFamily a b) := inferInstanceAs (Decidable (a.isIpv6 = b.isIpv6))

theorem SameFamily.isIpv6_eq {a b : IpAddr} (h : SameFamily a b) : a.isIpv6 = b.isIpv6 := h

/-- An address is of one family or the other. -/
theorem isIpv4_eq_not (a : IpAddr) : a.isIpv4 = !a.isIpv6 := by cases a <;> rfl

/-- The type byte of an Echo request of a family. -/
def requestKind (v6 : Bool) : UInt8 := if v6 then 128 else 8

/-- The type byte of an Echo reply of a family. -/
def replyKind (v6 : Bool) : UInt8 := if v6 then 129 else 0

/-- No ICMP error has the type of an Echo reply. -/
theorem reason_replyKind (v6 : Bool) (code : UInt8) : reason v6 (replyKind v6) code = none := by
  cases v6 <;> rfl

/-! ## The Echo message -/

/-- An Echo message with its checksum field. -/
def echoMessage (kind : UInt8) (sum id seq : UInt16) (payload : Bytes) : Bytes :=
  [kind, 0] ++ u16ToBe sum ++ (u16ToBe id ++ u16ToBe seq ++ payload)

/-- A message is its payload and eight bytes. -/
@[simp] theorem length_echoMessage (kind : UInt8) (sum id seq : UInt16) (payload : Bytes) :
    (echoMessage kind sum id seq payload).length = 8 + payload.length := by
  simp [echoMessage]
  omega

/-- The bytes the checksum of a message covers: for IPv6 the pseudo-header comes first. -/
def covered : (source target : IpAddr) → Bytes → Bytes
  | .v6 source, .v6 target, message => pseudoV6 source target message
  | _, _, message => message

/-- The part of a pseudo-header that depends on the length of the message only. -/
def pseudoPrefix (source target : Ipv6Addr) (length : Nat) : Bytes :=
  source.octets ++ target.octets ++ u32ToBe length ++ [0, 0, 0, 58]

/-- A pseudo-header has forty bytes. -/
theorem length_pseudoPrefix (source target : Ipv6Addr) (length : Nat) : (pseudoPrefix source target length).length = 40 := by
  simp [pseudoPrefix, u32ToBe, source.length_octets, target.length_octets]

/-- What comes before a message in the bytes its checksum covers: nothing, or forty bytes. -/
theorem covered_eq_append (source target : IpAddr) (length : Nat) :
    ∃ pre : Bytes, pre.length % 2 = 0 ∧ pre.length ≤ 40 ∧
      ∀ message : Bytes, message.length = length → covered source target message = pre ++ message := by
  cases source with
  | v4 s => exact ⟨[], rfl, Nat.zero_le _, fun _ _ => rfl⟩
  | v6 s =>
    cases target with
    | v4 t => exact ⟨[], rfl, Nat.zero_le _, fun _ _ => rfl⟩
    | v6 t =>
      have hlen := length_pseudoPrefix s t length
      exact ⟨pseudoPrefix s t length, by rw [hlen], by rw [hlen], fun message h => by rw [← h]; rfl⟩

/-- What a checksum covers is the message and at most a pseudo-header. -/
theorem length_covered_le (source target : IpAddr) (message : Bytes) :
    (covered source target message).length ≤ 40 + message.length := by
  obtain ⟨pre, -, hle, hcov⟩ := covered_eq_append source target message.length
  rw [hcov message rfl, List.length_append]
  omega

/-- An Echo message with a zero field, whose checksum its field is to hold. -/
theorem covered_echoMessage (source target : IpAddr) (kind : UInt8) (id seq : UInt16) (payload : Bytes) :
    ∃ pre : Bytes, pre.length % 2 = 0 ∧ ∀ c : UInt16, covered source target (echoMessage kind c id seq payload) =
      pre ++ u16ToBe c ++ (u16ToBe id ++ u16ToBe seq ++ payload) := by
  obtain ⟨pre, heven, -, hcov⟩ := covered_eq_append source target (8 + payload.length)
  refine ⟨pre ++ [kind, 0], by simp; omega, fun c => ?_⟩
  rw [hcov _ (length_echoMessage ..), echoMessage]
  simp only [List.append_assoc]

/-- What the checksum field of an Echo message must hold for the message to verify. -/
theorem verifies_echoMessage_iff (source target : IpAddr) (kind : UInt8) (c id seq : UInt16) (payload : Bytes) :
    Verifies (covered source target (echoMessage kind c id seq payload)) ↔
      c = internetChecksum (covered source target (echoMessage kind 0 id seq payload)) ∨
        (internetChecksum (covered source target (echoMessage kind 0 id seq payload)) = 0 ∧ c = 0xffff) := by
  obtain ⟨pre, heven, hcov⟩ := covered_echoMessage source target kind id seq payload
  rw [hcov c, hcov 0]
  exact verifies_field_iff pre _ heven c

/-! ## The encoder -/

/-- The checksum field of a request. -/
def requestChecksum (target localAddr : IpAddr) (id seq : UInt16) (payload : Bytes) : UInt16 :=
  internetChecksum (covered localAddr target (echoMessage (requestKind target.isIpv6) 0 id seq payload))

/-- The request of a probe. -/
def requestBytes (target localAddr : IpAddr) (id seq : UInt16) (payload : Bytes) : Bytes :=
  echoMessage (requestKind target.isIpv6) (requestChecksum target localAddr id seq payload) id seq payload

/-- `echo` builds the request, unless the checksum of a payload too long for any datagram overflows. -/
theorem echo_eq (target localAddr : IpAddr) (id seq : UInt16) (payload : Bytes) :
    echo target localAddr id seq payload =
      if wordSum (covered localAddr target (echoMessage (requestKind target.isIpv6) 0 id seq payload)) < 2 ^ 32 then
        .ok (requestBytes target localAddr id seq payload)
      else .error .overflow := by
  have hsum : echo target localAddr id seq payload =
      checksum (covered localAddr target (echoMessage (requestKind target.isIpv6) 0 id seq payload)) >>= fun sum =>
        copyFromSlice (echoMessage (requestKind target.isIpv6) 0 id seq payload) 2 4 (u16ToBe sum) := by
    cases localAddr <;> cases target <;> rfl
  rw [hsum, checksum_eq]
  split
  · rw [Checked.ok_bind, copyFromSlice, if_pos (by rw [length_echoMessage]; omega),
      if_pos (length_u16ToBe _)]
    rfl
  · rfl

/-- A payload that leaves room for the header makes a request. -/
theorem echo_of_length {payload : Bytes} (target localAddr : IpAddr) (id seq : UInt16) (h : payload.length ≤ 65527) :
    echo target localAddr id seq payload = .ok (requestBytes target localAddr id seq payload) := by
  rw [echo_eq, if_pos]
  apply wordSum_lt
  have := length_covered_le localAddr target (echoMessage (requestKind target.isIpv6) 0 id seq payload)
  rw [length_echoMessage] at this
  omega

/-- Whenever `echo` returns, it returns the request. -/
theorem eq_requestBytes_of_echo {target localAddr : IpAddr} {id seq : UInt16} {payload request : Bytes}
    (h : echo target localAddr id seq payload = .ok request) : request = requestBytes target localAddr id seq payload := by
  rw [echo_eq] at h
  split at h
  · exact (Except.ok.inj h).symm
  · cases h

/-- The request verifies its own checksum. -/
theorem verifies_requestBytes (target localAddr : IpAddr) (id seq : UInt16) (payload : Bytes) :
    Verifies (covered localAddr target (requestBytes target localAddr id seq payload)) :=
  (verifies_echoMessage_iff ..).2 (Or.inl rfl)

/-! ## The fields `parse_message` compares -/

/-- The bytes of a message from one place to another. -/
def field (message : Bytes) (start stop : Nat) : Bytes := (message.take stop).drop start

/-- A message has room for an Echo header that holds an identifier and a sequence number. -/
def HasEcho (message : Bytes) (id seq : UInt16) : Prop :=
  8 ≤ message.length ∧ field message 4 6 = u16ToBe id ∧ field message 6 8 = u16ToBe seq

instance (message : Bytes) (id seq : UInt16) : Decidable (HasEcho message id seq) :=
  inferInstanceAs (Decidable (_ ∧ _ ∧ _))

/-- `matches_echo` decides whether a message has the identifier and the sequence number, and does not panic. -/
theorem matchesEcho_eq (message : Bytes) (id seq : UInt16) : matchesEcho message id seq = .ok (decide (HasEcho message id seq)) := by
  unfold matchesEcho HasEcho
  by_cases hlen : message.length < 8
  · simp only [hlen, if_true, Checked.pure_eq, Nat.not_le.2 hlen, false_and, decide_false]
  · rw [if_neg hlen, slice_of_le (by omega) (by omega), slice_of_le (by omega) (by omega)]
    simp only [Checked.ok_bind, Checked.pure_eq, show 8 ≤ message.length by omega, true_and, field]
    split
    · rename_i h
      simp [h]
    · rename_i h
      simp [not_not.1 h]

/-- The identifier and the sequence number of a message are determined by its bytes. -/
theorem HasEcho.unique {message : Bytes} {id seq id' seq' : UInt16} (h : HasEcho message id seq)
    (h' : HasEcho message id' seq') : id = id' ∧ seq = seq' :=
  ⟨u16ToBe_injective (h.2.1.symm.trans h'.2.1), u16ToBe_injective (h.2.2.symm.trans h'.2.2)⟩

/-- A message has the identifier and the sequence number that it was built with. -/
theorem hasEcho_echoMessage (kind : UInt8) (sum id seq : UInt16) (payload : Bytes) :
    HasEcho (echoMessage kind sum id seq payload) id seq :=
  ⟨by rw [length_echoMessage]; omega, rfl, rfl⟩

/-- A message is an Echo message, read off its bytes. -/
theorem eq_echoMessage_iff (message : Bytes) (kind : UInt8) (id seq : UInt16) (payload : Bytes) :
    (∃ sum, message = echoMessage kind sum id seq payload) ↔
      byteAt message 0 = kind ∧ byteAt message 1 = 0 ∧ HasEcho message id seq ∧ message.drop 8 = payload := by
  constructor
  · rintro ⟨sum, rfl⟩
    exact ⟨rfl, rfl, hasEcho_echoMessage .., rfl⟩
  · rintro ⟨h0, h1, ⟨hlen, hid, hseq⟩, hpayload⟩
    have hbytes := eq_range_append message hlen
    refine ⟨u16FromBe (byteAt message 2) (byteAt message 3), ?_⟩
    have hid' : u16ToBe id = [byteAt message 4, byteAt message 5] := by
      rw [← hid]
      conv_lhs => rw [hbytes]
      rfl
    have hseq' : u16ToBe seq = [byteAt message 6, byteAt message 7] := by
      rw [← hseq]
      conv_lhs => rw [hbytes]
      rfl
    conv_lhs => rw [hbytes, hpayload]
    rw [echoMessage, u16ToBe_fromBe, hid', hseq', ← h0, ← h1]
    rfl

/-- The first bytes of a request, at least the eight of its header. -/
theorem prefix_echoMessage_iff (quoted : Bytes) (kind : UInt8) (sum id seq : UInt16) (payload : Bytes) :
    8 ≤ quoted.length ∧ quoted <+: echoMessage kind sum id seq payload ↔
      byteAt quoted 0 = kind ∧ byteAt quoted 1 = 0 ∧ HasEcho quoted id seq ∧
        field quoted 2 4 = u16ToBe sum ∧ quoted.drop 8 <+: payload := by
  constructor
  · rintro ⟨hlen, rest, hrest⟩
    have hfield : ∀ a b, b ≤ 8 → field quoted a b = field (echoMessage kind sum id seq payload) a b := by
      intro a b hb
      rw [← hrest, field, field, List.take_append_of_le_length (by omega)]
    have hat : ∀ i, i < 8 → byteAt quoted i = byteAt (echoMessage kind sum id seq payload) i := by
      intro i hi
      rw [← hrest]
      simp [byteAt, List.getElem?_append_left (show i < quoted.length by omega)]
    refine ⟨hat 0 (by decide), hat 1 (by decide), ⟨hlen, hfield 4 6 (by decide), hfield 6 8 (by decide)⟩,
      hfield 2 4 (by decide), rest, ?_⟩
    have := congrArg (List.drop 8) hrest
    rwa [List.drop_append_of_le_length hlen] at this
  · rintro ⟨h0, h1, hecho, hsum, rest, hrest⟩
    obtain ⟨sum', hquoted⟩ := (eq_echoMessage_iff quoted kind id seq _).2 ⟨h0, h1, hecho, rfl⟩
    have hsum' : sum' = sum := by
      rw [hquoted] at hsum
      exact u16ToBe_injective hsum
    refine ⟨hecho.1, rest, ?_⟩
    rw [hquoted, hsum', ← hrest]
    simp [echoMessage]

/-! ## `parse_message` -/

/-- The checksum `parse_message` asks for: source and local address are of the target's family, and the message verifies. -/
theorem messageChecksum_eq (v6 : Bool) (source localAddr : IpAddr) (message : Bytes) :
    messageChecksum v6 source localAddr message =
      if source.isIpv6 = v6 ∧ localAddr.isIpv6 = v6 then some <$> checksum (covered source localAddr message)
      else .ok none := by
  cases v6 <;> cases source <;> cases localAddr <;> rfl

/-- The checksum test of `parse_message` is passed: the message is of the right family and its checksum computes to zero. -/
def ChecksumOk (source : IpAddr) (expected : Expected) (message : Bytes) : Prop :=
  source.isIpv6 = expected.target.isIpv6 ∧ expected.localAddr.isIpv6 = expected.target.isIpv6 ∧
    checksum (covered source expected.localAddr message) = .ok 0

/-- The checksum of a message is zero when the message is sound. -/
theorem messageChecksum_eq_zero_iff (source : IpAddr) (expected : Expected) (message : Bytes) :
    messageChecksum expected.target.isIpv6 source expected.localAddr message = .ok (some 0) ↔
      ChecksumOk source expected message := by
  rw [messageChecksum_eq, ChecksumOk, ← and_assoc]
  split
  · rename_i h
    cases checksum (covered source expected.localAddr message) <;> simp [h]
  · rename_i h
    simp [h]

/-- The quoted packet of an error between two addresses of one family. -/
theorem quotedPacket_iff {source target : IpAddr} (h : SameFamily target source) (bytes quoted : Bytes) :
    quotedPacket target.isIpv6 bytes = .ok (some (quoted, source, target)) ↔
      ∃ after, QuotesPacket source target quoted after bytes := by
  cases source with
  | v4 source =>
    cases target with
    | v4 target => exact ipv4_quoted_iff bytes quoted source target
    | v6 target => exact absurd h (by simp [SameFamily, IpAddr.isIpv6])
  | v6 source =>
    cases target with
    | v4 target => exact absurd h (by simp [SameFamily, IpAddr.isIpv6])
    | v6 target => exact quotedV6_iff bytes quoted source target

/-- The first two bytes of a message, read as `parse_message` reads a quote's. -/
theorem head_and_second_iff {quoted : Bytes} (h : 8 ≤ quoted.length) (kind : UInt8) :
    (quoted.head? = some kind ↔ byteAt quoted 0 = kind) ∧ (quoted[1]? = some 0 ↔ byteAt quoted 1 = 0) := by
  match quoted, h with
  | _ :: _ :: _, _ => simp

/-- `quoteMatches` past the tests of its first bytes: what is left is to compute the request and to compare with it. -/
theorem quoteMatches_of_hasEcho {quoted : Bytes} {expected : Expected} (hecho : HasEcho quoted expected.id expected.seq)
    (hkind : byteAt quoted 0 = requestKind expected.target.isIpv6) (hcode : byteAt quoted 1 = 0) :
    quoteMatches quoted expected.localAddr expected.target expected =
      echo expected.target expected.localAddr expected.id expected.seq expected.payload >>= fun request =>
        slice request 2 4 >>= fun sum => .ok (decide (field quoted 2 4 = sum ∧ quoted.drop 8 <+: expected.payload)) := by
  have hbytes := head_and_second_iff hecho.1 (requestKind expected.target.isIpv6)
  have hhead : ¬(expected.localAddr ≠ expected.localAddr ∨ expected.target ≠ expected.target ∨
      quoted.head? ≠ some (requestKind expected.target.isIpv6) ∨ quoted[1]? ≠ some 0) := by
    rw [hbytes.1.2 hkind, hbytes.2.2 hcode]
    simp
  rw [quoteMatches]
  show (if expected.localAddr ≠ expected.localAddr ∨ expected.target ≠ expected.target ∨
      quoted.head? ≠ some (requestKind expected.target.isIpv6) ∨ quoted[1]? ≠ some 0 then _ else _) = _
  simp only [if_neg hhead, matchesEcho_eq, hecho, decide_true, Bool.not_true, Bool.false_eq_true, if_false,
    Checked.ok_bind, Checked.pure_eq, slice_of_le (show 2 ≤ 4 by decide) (show 4 ≤ quoted.length by have := hecho.1; omega),
    sliceFrom_of_le hecho.1]
  congr 1
  funext request
  congr 1
  funext sum
  by_cases hsum : field quoted 2 4 = sum
  · rw [field] at hsum
    simp only [hsum, ne_eq, not_true_eq_false, if_false, field, true_and]
    by_cases hlen : (quoted.drop 8).length > expected.payload.length
    · have : ¬quoted.drop 8 <+: expected.payload := fun h => absurd h.length_le (by omega)
      simp only [hlen, if_true, this, decide_false]
    · rw [if_neg hlen, slice_of_le (Nat.zero_le _) (by omega), Checked.ok_bind, List.drop_zero]
      simp only [List.prefix_iff_eq_take]
  · rw [field] at hsum
    simp only [hsum, ne_eq, not_false_eq_true, if_true, field, false_and, decide_false]

/-- The tests of a quoted packet are passed exactly by the first bytes, at least eight, of the request. -/
theorem quoteMatches_eq_true_iff (quoted : Bytes) (quotedSource destination : IpAddr) (expected : Expected) :
    quoteMatches quoted quotedSource destination expected = .ok true ↔
      quotedSource = expected.localAddr ∧ destination = expected.target ∧ ∃ request,
        echo expected.target expected.localAddr expected.id expected.seq expected.payload = .ok request ∧
          8 ≤ quoted.length ∧ quoted <+: request := by
  constructor
  · intro h
    have hstart : (quotedSource = expected.localAddr ∧ destination = expected.target ∧
        quoted.head? = some (requestKind expected.target.isIpv6) ∧ quoted[1]? = some 0) ∧
        HasEcho quoted expected.id expected.seq := by
      by_cases hhead : quotedSource ≠ expected.localAddr ∨ destination ≠ expected.target ∨
          quoted.head? ≠ some (if expected.target.isIpv6 then 128 else 8) ∨ quoted[1]? ≠ some 0
      · rw [quoteMatches, if_pos hhead] at h
        cases h
      rw [quoteMatches, if_neg hhead, matchesEcho_eq, Checked.ok_bind] at h
      simp only [not_or, not_not] at hhead
      refine ⟨hhead, ?_⟩
      by_contra hecho
      simp only [hecho, decide_false, Bool.not_false, if_true] at h
      cases h
    obtain ⟨⟨rfl, rfl, hkind, hcode⟩, hecho⟩ := hstart
    have hbytes := head_and_second_iff hecho.1 (requestKind expected.target.isIpv6)
    rw [quoteMatches_of_hasEcho hecho (hbytes.1.1 hkind) (hbytes.2.1 hcode)] at h
    obtain ⟨request, hrequest, h⟩ := Checked.bind_eq_ok.1 h
    obtain ⟨sum, hsum, h⟩ := Checked.bind_eq_ok.1 h
    obtain ⟨hfield, hprefix⟩ := of_decide_eq_true (Except.ok.inj h)
    refine ⟨rfl, rfl, request, hrequest, ?_⟩
    obtain rfl := eq_requestBytes_of_echo hrequest
    refine (prefix_echoMessage_iff ..).2 ⟨hbytes.1.1 hkind, hbytes.2.1 hcode, hecho, ?_, hprefix⟩
    rw [slice_of_le (by decide) (by simp [requestBytes]; omega)] at hsum
    rw [hfield, ← Except.ok.inj hsum]
    rfl
  · rintro ⟨rfl, rfl, request, hrequest, hprefix⟩
    obtain rfl := eq_requestBytes_of_echo hrequest
    obtain ⟨hkind, hcode, hecho, hsum, hpayload⟩ := (prefix_echoMessage_iff ..).1 hprefix
    rw [quoteMatches_of_hasEcho hecho hkind hcode, hrequest, Checked.ok_bind,
      slice_of_le (by decide) (by simp [requestBytes]; omega), Checked.ok_bind]
    exact congrArg Except.ok (decide_eq_true ⟨hsum, hpayload⟩)

/-- The Echo branch of `parse_message`, past the type byte. -/
def acceptsEcho (packet : Bytes) (source : IpAddr) (expected : Expected) : Option Reply :=
  if byteAt packet 1 = 0 ∧ source = expected.target ∧ HasEcho packet expected.id expected.seq ∧
    packet.drop 8 = expected.payload then some .echo else none

/-- The error branch of `parse_message`, past the type and code. -/
def acceptsError (message : String) (packet : Bytes) (source : IpAddr) (expected : Expected) : Checked (Option Reply) :=
  quotedPacket expected.target.isIpv6 (packet.drop 8) >>= fun
    | none => .ok none
    | some (quoted, quotedSource, destination) =>
      quoteMatches quoted quotedSource destination expected >>= fun correlated =>
        .ok (if correlated then some (.negative (withSource message source)) else none)

/-- `parse_message` past its length test, with its indices in range. -/
theorem parseMessage_of_le {packet : Bytes} (source : IpAddr) (expected : Expected) (hlen : 8 ≤ packet.length) :
    parseMessage packet source expected =
      messageChecksum expected.target.isIpv6 source expected.localAddr packet >>= fun
        | none => .ok none
        | some sum =>
          if sum ≠ 0 then .ok none
          else if byteAt packet 0 = replyKind expected.target.isIpv6 then .ok (acceptsEcho packet source expected)
          else match reason expected.target.isIpv6 (byteAt packet 0) (byteAt packet 1) with
            | none => .ok none
            | some message => acceptsError message packet source expected := by
  have hecho : (if byteAt packet 1 ≠ 0 then .ok none
      else if source ≠ expected.target then .ok none
      else if (!decide (HasEcho packet expected.id expected.seq)) = true then .ok none
      else if packet.drop 8 ≠ expected.payload then .ok none else .ok (some Reply.echo) : Checked (Option Reply)) =
      .ok (acceptsEcho packet source expected) := by
    unfold acceptsEcho
    by_cases h1 : byteAt packet 1 = 0 <;> by_cases h2 : source = expected.target <;>
      by_cases h3 : HasEcho packet expected.id expected.seq <;> by_cases h4 : packet.drop 8 = expected.payload <;>
      simp [h1, h2, h3, h4]
  simp only [parseMessage, if_neg (Nat.not_lt.2 hlen), index_of_lt (show 0 < packet.length by omega),
    index_of_lt (show 1 < packet.length by omega), sliceFrom_of_le hlen, matchesEcho_eq, Checked.ok_bind, Checked.pure_eq,
    hecho]
  congr 1
  funext sum
  cases sum with
  | none => rfl
  | some sum =>
    show (if sum ≠ 0 then _ else if byteAt packet 0 = replyKind expected.target.isIpv6 then _ else _) = _
    simp only
    congr 2
    cases reason expected.target.isIpv6 (byteAt packet 0) (byteAt packet 1) with
    | none => rfl
    | some message =>
      show (quotedPacket _ _ >>= _) = acceptsError message packet source expected
      rw [acceptsError]
      congr 1
      funext part
      cases part with
      | none => rfl
      | some part =>
        simp only
        congr 1
        funext correlated
        cases correlated <;> rfl

/-- A message that is accepted passes the length and the checksum tests. -/
theorem parseMessage_some {packet : Bytes} {source : IpAddr} {expected : Expected} {reply : Reply}
    (h : parseMessage packet source expected = .ok (some reply)) :
    8 ≤ packet.length ∧ ChecksumOk source expected packet := by
  have hlen : 8 ≤ packet.length := by
    by_contra hlt
    rw [parseMessage, if_pos (by omega)] at h
    cases h
  rw [parseMessage_of_le source expected hlen] at h
  obtain ⟨sum, hsum, h⟩ := Checked.bind_eq_ok.1 h
  refine ⟨hlen, (messageChecksum_eq_zero_iff source expected packet).1 ?_⟩
  cases sum with
  | none => cases h
  | some sum =>
    by_cases h0 : sum = 0
    · rw [hsum, h0]
    · simp only [if_pos h0, ne_eq] at h
      cases h

/-- A message that passes the length and the checksum tests is judged by its type and code. -/
theorem parseMessage_of_checksum {packet : Bytes} {source : IpAddr} {expected : Expected} (hlen : 8 ≤ packet.length)
    (hsum : ChecksumOk source expected packet) :
    parseMessage packet source expected =
      if byteAt packet 0 = replyKind expected.target.isIpv6 then .ok (acceptsEcho packet source expected)
      else match reason expected.target.isIpv6 (byteAt packet 0) (byteAt packet 1) with
        | none => .ok none
        | some message => acceptsError message packet source expected := by
  rw [parseMessage_of_le source expected hlen, (messageChecksum_eq_zero_iff source expected packet).2 hsum, Checked.ok_bind]
  rfl

/-- `parse_message` takes a message for the Echo reply exactly when it comes from the target, passes the checksum test and is the
expected Echo message with the type of a reply. -/
theorem parseMessage_echo_iff (packet : Bytes) (source : IpAddr) (expected : Expected) :
    parseMessage packet source expected = .ok (some .echo) ↔
      ChecksumOk source expected packet ∧ source = expected.target ∧
        ∃ sum, packet = echoMessage (replyKind expected.target.isIpv6) sum expected.id expected.seq expected.payload := by
  constructor
  · intro h
    obtain ⟨hlen, hsum⟩ := parseMessage_some h
    rw [parseMessage_of_checksum hlen hsum] at h
    refine ⟨hsum, ?_⟩
    split at h
    · rename_i h0
      have h := Except.ok.inj h
      unfold acceptsEcho at h
      split at h
      · rename_i hc
        exact ⟨hc.2.1, (eq_echoMessage_iff ..).2 ⟨h0, hc.1, hc.2.2.1, hc.2.2.2⟩⟩
      · cases h
    · split at h
      · cases h
      · obtain ⟨part, -, h⟩ := Checked.bind_eq_ok.1 h
        cases part with
        | none => cases h
        | some part =>
          obtain ⟨correlated, -, h⟩ := Checked.bind_eq_ok.1 h
          cases correlated <;> cases h
  · rintro ⟨hsum, hsource, hmessage⟩
    obtain ⟨h0, h1, hecho, hpayload⟩ := (eq_echoMessage_iff ..).1 hmessage
    rw [parseMessage_of_checksum hecho.1 hsum, if_pos h0, acceptsEcho, if_pos ⟨h1, hsource, hecho, hpayload⟩]

/-- `parse_message` takes a message for an ICMP error about the request exactly when it passes the checksum test, is an error,
and quotes a packet from the local address to the target whose ICMP part is the first bytes, at least eight, of the request. -/
theorem parseMessage_negative_iff (packet : Bytes) (source : IpAddr) (expected : Expected) (message : String) :
    parseMessage packet source expected = .ok (some (.negative message)) ↔
      8 ≤ packet.length ∧ ChecksumOk source expected packet ∧ ∃ cause quoted after request,
        reason expected.target.isIpv6 (byteAt packet 0) (byteAt packet 1) = some cause ∧
        QuotesPacket expected.localAddr expected.target quoted after (packet.drop 8) ∧
        echo expected.target expected.localAddr expected.id expected.seq expected.payload = .ok request ∧
        8 ≤ quoted.length ∧ quoted <+: request ∧ message = withSource cause source := by
  constructor
  · intro h
    obtain ⟨hlen, hsum⟩ := parseMessage_some h
    rw [parseMessage_of_checksum hlen hsum] at h
    refine ⟨hlen, hsum, ?_⟩
    split at h
    · unfold acceptsEcho at h
      split at h <;> cases h
    split at h
    · cases h
    rename_i cause hcause
    obtain ⟨part, hpart, h⟩ := Checked.bind_eq_ok.1 h
    cases part with
    | none => cases h
    | some part =>
      obtain ⟨quoted, quotedSource, destination⟩ := part
      obtain ⟨correlated, hmatches, hreply⟩ := Checked.bind_eq_ok.1 h
      cases correlated with
      | false => cases hreply
      | true =>
        obtain ⟨rfl, rfl, request, hrequest, hquoted⟩ := (quoteMatches_eq_true_iff ..).1 hmatches
        obtain ⟨after, hafter⟩ := (quotedPacket_iff hsum.2.1.symm _ quoted).1 hpart
        have hmessage := Except.ok.inj hreply
        simp only [if_true, Option.some.injEq, Reply.negative.injEq] at hmessage
        exact ⟨cause, quoted, after, request, hcause, hafter, hrequest, hquoted.1, hquoted.2, hmessage.symm⟩
  · rintro ⟨hlen, hsum, cause, quoted, after, request, hcause, hquote, hrequest, hqlen, hprefix, rfl⟩
    have h0 : byteAt packet 0 ≠ replyKind expected.target.isIpv6 := by
      intro h0
      rw [h0, reason_replyKind] at hcause
      cases hcause
    rw [parseMessage_of_checksum hlen hsum, if_neg h0, hcause]
    show acceptsError cause packet source expected = _
    rw [acceptsError, (quotedPacket_iff hsum.2.1.symm _ quoted).2 ⟨after, hquote⟩, Checked.ok_bind]
    simp only [(quoteMatches_eq_true_iff quoted expected.localAddr expected.target expected).2
      ⟨rfl, rfl, request, hrequest, hqlen, hprefix⟩, Checked.ok_bind, if_true]

/-! ## `parse` -/

/-- `parse` accepts a packet exactly when it carries, from its source to the local address, a message `parse_message` accepts. -/
theorem parse_some_iff (bytes : Bytes) (source : IpAddr) (expected : Expected) (reply : Reply) :
    parse bytes source expected = .ok (some reply) ↔
      ∃ message, Carries source expected.localAddr message bytes ∧
        parseMessage message source expected = .ok (some reply) := by
  unfold parse
  cases htarget : expected.target.isIpv6 with
  | true =>
    rw [if_pos rfl]
    constructor
    · intro h
      have hsum := (parseMessage_some h).2
      refine ⟨bytes, ?_, h⟩
      cases source with
      | v4 s => exact absurd (hsum.1.trans htarget) (by simp [IpAddr.isIpv6])
      | v6 s =>
        cases hl : expected.localAddr with
        | v4 l => exact absurd ((congrArg IpAddr.isIpv6 hl).symm.trans (hsum.2.1.trans htarget)) (by simp [IpAddr.isIpv6])
        | v6 l => rfl
    · rintro ⟨message, hcarries, h⟩
      have hsum := (parseMessage_some h).2
      cases source with
      | v4 s => exact absurd (hsum.1.trans htarget) (by simp [IpAddr.isIpv6])
      | v6 s =>
        cases hl : expected.localAddr with
        | v4 l => exact absurd ((congrArg IpAddr.isIpv6 hl).symm.trans (hsum.2.1.trans htarget)) (by simp [IpAddr.isIpv6])
        | v6 l =>
          rw [hl] at hcarries
          obtain rfl : bytes = message := hcarries
          exact h
  | false =>
    rw [if_neg Bool.false_ne_true]
    constructor
    · intro h
      obtain ⟨part, hpart, h⟩ := Checked.bind_eq_ok.1 h
      cases part with
      | none => cases h
      | some part =>
        obtain ⟨message, headerSource, headerTarget⟩ := part
        simp only at h
        split at h
        · cases h
        rename_i haddrs
        simp only [not_or, not_not] at haddrs
        obtain ⟨rfl, rfl⟩ := haddrs
        obtain ⟨header, after, -, hs, ht, -⟩ := (ipv4_eq_some_iff ..).1 hpart
        refine ⟨message, ?_, h⟩
        rw [hs, ht] at hpart ⊢
        exact ((ipv4_outer_iff ..).1 hpart).1
    · rintro ⟨message, hcarries, h⟩
      obtain ⟨hlen, hsum⟩ := parseMessage_some h
      cases source with
      | v6 s => exact absurd (hsum.1.trans htarget) (by simp [IpAddr.isIpv6])
      | v4 s =>
        cases hl : expected.localAddr with
        | v6 l => exact absurd ((congrArg IpAddr.isIpv6 hl).symm.trans (hsum.2.1.trans htarget)) (by simp [IpAddr.isIpv6])
        | v4 l =>
          rw [hl] at hcarries
          rw [(ipv4_outer_iff bytes message s l).2 ⟨hcarries, hlen⟩, Checked.ok_bind]
          simpa [hl] using h

/-- A message of a datagram is no longer than the datagram. -/
theorem Carries.length_le {source target : IpAddr} {message packet : Bytes} (h : Carries source target message packet) :
    message.length ≤ packet.length := by
  cases source with
  | v4 s =>
    cases target with
    | v4 t =>
      obtain ⟨header, trailing, -, -, -, rfl⟩ := h
      simp only [List.length_append]
      omega
    | v6 t => exact h.elim
  | v6 s =>
    cases target with
    | v4 t => exact h.elim
    | v6 t => exact le_of_eq (congrArg List.length (show packet = message from h).symm)

/-- The checksum test of a message that fits a datagram: of one family, and the message verifies. -/
theorem checksumOk_iff {source : IpAddr} {expected : Expected} {message : Bytes} (hlen : message.length ≤ 65535) :
    ChecksumOk source expected message ↔ SameFamily source expected.target ∧
      SameFamily expected.localAddr expected.target ∧ Verifies (covered source expected.localAddr message) := by
  have hcov := length_covered_le source expected.localAddr message
  unfold ChecksumOk SameFamily
  rw [checksum_of_length (by omega), Except.ok.injEq, internetChecksum_eq_zero_iff]

/-! ## `parse_ping_echo` -/

/-- `parse_ping_echo` accepts a message exactly when it has the type of a reply and `parse_message` accepts it. -/
theorem parsePingEcho_some_iff (message : Bytes) (source : IpAddr) (expected : Expected) (reply : Reply) :
    parsePingEcho message source expected = .ok (some reply) ↔
      message.head? = some (replyKind expected.target.isIpv6) ∧ parseMessage message source expected = .ok (some reply) := by
  unfold parsePingEcho
  show (if message.head? ≠ some (replyKind expected.target.isIpv6) then _ else _) = _ ↔ _
  by_cases h : message.head? = some (replyKind expected.target.isIpv6)
  · simp only [h, ne_eq, not_true_eq_false, if_false, true_and]
  · simp only [h, ne_eq, not_false_eq_true, if_true, false_and, iff_false]
    exact nofun

/-- A message with the type of a reply is no ICMP error. -/
theorem parseMessage_replyKind_ne_negative {message : Bytes} {source : IpAddr} {expected : Expected} {text : String}
    (hkind : message.head? = some (replyKind expected.target.isIpv6)) :
    parseMessage message source expected ≠ .ok (some (.negative text)) := by
  intro h
  obtain ⟨hlen, -, cause, -, -, -, hcause, -⟩ := (parseMessage_negative_iff ..).1 h
  rw [(head_and_second_iff hlen _).1.1 hkind, reason_replyKind] at hcause
  cases hcause

/-! ## What a packet determines -/

/-- What the parser takes from an IPv4 datagram. -/
theorem Ipv4Datagram.value {source target : Ipv4Addr} {message bytes : Bytes} (h : Ipv4Datagram source target message bytes) :
    ipv4Value bytes = (message, .v4 source, .v4 target) := by
  obtain ⟨header, trailing, rfl, rfl, htotal, rfl⟩ := h
  rw [List.append_assoc, header.value_encode, htotal, Nat.add_sub_cancel_left, List.take_left]

/-- A packet carries one message, and an IPv4 datagram one pair of addresses. -/
theorem Carries.unique {source target target' : IpAddr} {message message' packet : Bytes}
    (h : Carries source target message packet) (h' : Carries source target' message' packet) :
    message = message' ∧ (source.isIpv4 = true → target = target') := by
  cases source with
  | v4 s =>
    cases target with
    | v6 t => exact h.elim
    | v4 t =>
      cases target' with
      | v6 t' => exact h'.elim
      | v4 t' =>
        have hvalue := (Ipv4Datagram.value h).symm.trans (Ipv4Datagram.value h')
        cases hvalue
        exact ⟨rfl, fun _ => rfl⟩
  | v6 s =>
    cases target with
    | v4 t => exact h.elim
    | v6 t =>
      cases target' with
      | v4 t' => exact h'.elim
      | v6 t' => exact ⟨(show packet = message from h).symm.trans h', nofun⟩

/-- The bytes after an error's header quote one packet of a family. -/
theorem QuotesPacket.unique {source source' target target' : IpAddr} {quoted quoted' after after' bytes : Bytes}
    (hfamily : SameFamily target source) (hfamily' : SameFamily target' source') (htarget : SameFamily target target')
    (h : QuotesPacket source target quoted after bytes) (h' : QuotesPacket source' target' quoted' after' bytes) :
    quoted = quoted' ∧ source = source' ∧ target = target' := by
  have hvalue := (quotedPacket_iff hfamily bytes quoted).2 ⟨after, h⟩
  have hvalue' := (quotedPacket_iff hfamily' bytes quoted').2 ⟨after', h'⟩
  rw [htarget.isIpv6_eq, hvalue'] at hvalue
  cases hvalue
  exact ⟨rfl, rfl, rfl⟩

end IcmpPing
