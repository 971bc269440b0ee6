import IcmpPing.Lemmas.Parallel
import IcmpPing.Theorems.Darwin
import IcmpPing.Theorems.Ping
import IcmpPing.Theorems.Raw
import IcmpPing.Theorems.Returns

/-!
# Probes on macOS

A macOS socket hands over IPv4 datagrams with fields in host order, and not every datagram can be restored: a short one is left
alone, and a quote that was not converted is converted by mistake. The parser rejects each of these in either form, so a probe on
macOS does what it would do where the datagrams are delivered in wire form.
-/

namespace IcmpPing

open Probe

/-! ## What is delivered -/

/-- There is room for the IPv4 header of a quoted packet, and it is one. -/
def HasQuote (wire : Bytes) : Prop :=
  headerLength wire + 28 ≤ wire.length ∧ (byteAt wire (headerLength wire + 8)).toNat / 16 = 4

/-- It carries ICMP and is no fragment. -/
def IsIcmp (wire : Bytes) : Prop := byteAt wire 9 = 1 ∧ fieldAt .big wire 6 &&& 0x3fff = 0

/-- The datagram with its quoted length in host order. -/
def swapQuote (order : ByteOrder) (wire : Bytes) : Bytes :=
  wire.overwrite (headerLength wire + 10) (u16ToNe order (fieldAt .big wire (headerLength wire + 10)))

/-- What a macOS socket delivers of an IPv4 datagram in wire form: the outer fields are in host order, and so may be the quoted
length. The quote of an ICMP error that `darwin_received` converts is converted, and no quote is that is not restored. What becomes of
the others is left open: of a source quench or a redirect, of a quote that is cut short, and of what is not ICMP or is a fragment. -/
structure DeliveredIpv4 (order : ByteOrder) (wire received : Bytes) : Prop where
  version : (byteAt wire 0).toNat / 16 = 4
  header_min : 20 ≤ headerLength wire
  header_le : headerLength wire ≤ wire.length
  total : headerLength wire ≤ (fieldAt .big wire 2).toNat
  written : received = deliverOuter order wire ∨
    headerLength wire + 12 ≤ wire.length ∧ received = deliverOuter order (swapQuote order wire)
  converted : IsIcmp wire → convertsQuote (byteAt wire (headerLength wire)) = true → HasQuote wire →
    received = deliverOuter order (swapQuote order wire)
  kept : restoresQuote (byteAt wire (headerLength wire)) = false → received = deliverOuter order wire

/-- What a macOS socket delivers of a datagram from a source: of IPv6, the message itself. -/
def Delivered (order : ByteOrder) (wire received : Bytes) : IpAddr → Prop
  | .v4 _ => DeliveredIpv4 order wire received
  | .v6 _ => received = wire

/-- `darwin_received` is one way to deliver a datagram. -/
theorem delivered_darwinReceived {order : ByteOrder} {wire received : Bytes} (h : WireForm wire)
    (hreceived : darwinReceived order wire = .ok received) : DeliveredIpv4 order wire received := by
  have hroom := h.room
  rw [darwinReceived_eq h, Except.ok.injEq] at hreceived
  obtain rfl := hreceived
  unfold deliverQuote
  by_cases hkind : convertsQuote (byteAt wire (headerLength wire)) = true
  · have hquote := h.quote_room hkind
    rw [if_pos hkind]
    refine ⟨h.version, h.header_min, by omega, h.total, Or.inr ⟨by omega, rfl⟩, fun _ _ _ => rfl, fun hnot => ?_⟩
    rw [restoresQuote_of_convertsQuote hkind] at hnot
    cases hnot
  · rw [if_neg hkind]
    exact ⟨h.version, h.header_min, by omega, h.total, Or.inl rfl, fun _ hconverts => absurd hconverts hkind, fun _ => rfl⟩

/-- What is not ICMP, or is a fragment, may be delivered with its outer fields alone in host order, whatever its bytes look like. -/
theorem delivered_of_not_isIcmp {order : ByteOrder} {wire : Bytes} (hversion : (byteAt wire 0).toNat / 16 = 4)
    (hmin : 20 ≤ headerLength wire) (hle : headerLength wire ≤ wire.length) (htotal : headerLength wire ≤ (fieldAt .big wire 2).toNat)
    (hother : ¬IsIcmp wire) : DeliveredIpv4 order wire (deliverOuter order wire) :=
  ⟨hversion, hmin, hle, htotal, Or.inl rfl, fun hicmp => absurd hicmp hother, fun _ => rfl⟩

/-! ## What the parser accepts of an IPv4 datagram -/

/-- The header of an encoding, by its first byte. -/
theorem headerLength_encode (h : Ipv4Header) (after : Bytes) : headerLength (h.encode ++ after) = h.size := by
  have hmax := h.size_le
  have hwords := h.size_words
  have hfirst : (byteAt (h.encode ++ after) 0).toNat = 64 + h.size / 4 := by
    show (UInt8.ofNat (64 + h.size / 4)).toNat = _
    rw [UInt8.toNat_ofNat']
    omega
  rw [headerLength, hfirst]
  omega

/-- The version of an encoding. -/
theorem version_encode (h : Ipv4Header) (after : Bytes) : (byteAt (h.encode ++ after) 0).toNat / 16 = 4 := by
  have hmax := h.size_le
  show (UInt8.ofNat (64 + h.size / 4)).toNat / 16 = 4
  rw [UInt8.toNat_ofNat']
  omega

/-- The byte at a place of the message in a datagram. -/
theorem byteAt_datagram {header message trailing : Bytes} {i : Nat} (h : i < message.length) :
    byteAt (header ++ message ++ trailing) (header.length + i) = byteAt message i := by
  rw [byteAt, byteAt, List.getD_eq_getElem?_getD, List.getD_eq_getElem?_getD, List.append_assoc,
    List.getElem?_append_right (Nat.le_add_right _ _), Nat.add_sub_cancel_left, List.getElem?_append_left h]

/-- An IPv4 error is of a type whose quote Darwin converts. -/
theorem convertsQuote_of_reason {kind code : UInt8} {cause : String} (h : reason false kind code = some cause) :
    convertsQuote kind = true := by
  unfold reason at h
  split at h <;> first | rfl | contradiction

/-- The header of an encoding is that of unfragmented ICMP. -/
theorem isIcmp_encode (h : Ipv4Header) (after : Bytes) : IsIcmp (h.encode ++ after) := by
  refine ⟨rfl, ?_⟩
  show u16FromNe .big h.flags 0 &&& 0x3fff = 0
  unfold Ipv4Header.flags
  cases h.reserved <;> cases h.dontFragment <;> rfl

/-- What the parser accepts of an IPv4 datagram: unfragmented ICMP, and of it an Echo reply, or an error that quotes an IPv4 packet and
whose quote Darwin converts. -/
structure Acceptable (bytes : Bytes) : Prop where
  icmp : IsIcmp bytes
  room : headerLength bytes + 8 ≤ bytes.length
  kind : byteAt bytes (headerLength bytes) = 0 ∨ convertsQuote (byteAt bytes (headerLength bytes)) = true ∧ HasQuote bytes

/-- What is parsed as a reply is acceptable. -/
theorem acceptable_of_parse {bytes : Bytes} {source : Ipv4Addr} {expected : Expected} {reply : Reply}
    (h : parse bytes (.v4 source) expected = .ok (some reply)) : Acceptable bytes := by
  obtain ⟨message, hcarries, hmessage⟩ := (parse_some_iff ..).1 h
  obtain ⟨h8, hsum⟩ := parseMessage_some hmessage
  obtain ⟨hsource, hlocal, -⟩ := hsum
  obtain ⟨target, localAddr, id, seq, payload⟩ := expected
  cases localAddr with
  | v6 localAddr => exact hcarries.elim
  | v4 localAddr =>
    cases target with
    | v6 target => cases hsource
    | v4 target =>
      obtain ⟨header, trailing, -, -, -, rfl⟩ := hcarries
      have hheader : headerLength (header.encode ++ message ++ trailing) = header.encode.length := by
        rw [List.append_assoc, headerLength_encode, header.length_encode]
      have hkind : byteAt (header.encode ++ message ++ trailing) (headerLength (header.encode ++ message ++ trailing)) =
          byteAt message 0 := by
        rw [hheader]
        exact byteAt_datagram (i := 0) (by omega)
      have hlen : (header.encode ++ message ++ trailing).length = header.encode.length + message.length + trailing.length := by
        simp only [List.length_append]
      have hicmp : IsIcmp (header.encode ++ message ++ trailing) := by
        rw [List.append_assoc]
        exact isIcmp_encode header _
      refine ⟨hicmp, by omega, ?_⟩
      rw [hkind]
      cases reply with
      | echo =>
        obtain ⟨-, -, sum, rfl⟩ := (parseMessage_echo_iff ..).1 hmessage
        exact Or.inl rfl
      | negative text =>
        obtain ⟨-, -, cause, quoted, after, request, hcause, ⟨inner, -, -, -, hquote, -⟩, -⟩ :=
          (parseMessage_negative_iff ..).1 hmessage
        have hmin := inner.twenty_le_size
        have hinner : message.length - 8 = inner.size + after.length := by
          rw [← List.length_drop, hquote, List.length_append, inner.length_encode]
        refine Or.inr ⟨convertsQuote_of_reason hcause, by omega, ?_⟩
        have hfirst : byteAt message 8 = byteAt (inner.encode ++ after) 0 := by
          rw [← hquote, byteAt, byteAt, List.getD_eq_getElem?_getD, List.getD_eq_getElem?_getD, List.getElem?_drop]
        rw [hheader, byteAt_datagram (by omega), hfirst]
        exact version_encode inner after

/-! ## Restored, or rejected in either form -/

/-- Normalizing what is delivered restores the outer fields. -/
theorem normalized_deliverOuter {order : ByteOrder} {bytes : Bytes} (hversion : (byteAt bytes 0).toNat / 16 = 4)
    (hmin : 20 ≤ headerLength bytes) (hroom : headerLength bytes + 8 ≤ bytes.length)
    (htotal : headerLength bytes ≤ (fieldAt .big bytes 2).toNat) :
    normalized order (deliverOuter order bytes) = restoreQuote order bytes (headerLength bytes) := by
  have hwide : 20 ≤ bytes.length := by omega
  have hfield := (fieldAt .big bytes 2).toNat_lt
  unfold normalized
  rw [length_add_header hwide htotal, length_deliverOuter hwide, headerLength_deliverOuter hwide,
    byteAt_deliverOuter hwide (Or.inl (by decide)), restoreOuter_deliverOuter hwide htotal, if_neg (by omega),
    if_neg (not_not.2 hversion), if_neg (by omega), if_neg (by omega), if_neg (by omega)]

/-- The quoted length is apart from everything that is read of a datagram before it. -/
structure SameButQuote (wire bytes : Bytes) : Prop where
  length : bytes.length = wire.length
  byte : ∀ i, i < headerLength wire + 10 → byteAt bytes i = byteAt wire i

/-- A datagram with another quoted length is the same but for it. -/
theorem sameButQuote_overwrite {wire : Bytes} (quote : Bytes) (hquote : quote.length = 2)
    (hroom : headerLength wire + 12 ≤ wire.length) : SameButQuote wire (wire.overwrite (headerLength wire + 10) quote) :=
  ⟨List.length_overwrite (by omega), fun _ hi => byteAt_overwrite_of_apart (by omega) (Or.inl hi)⟩

section SameButQuote

variable {wire bytes : Bytes} (h : SameButQuote wire bytes)

include h

/-- Datagrams that are the same but for a quoted length have headers of one length. -/
theorem SameButQuote.headerLength_eq : headerLength bytes = headerLength wire := by
  rw [headerLength, h.byte 0 (Nat.zero_lt_succ _), headerLength]

/-- Restoring the quote leaves all else, too. -/
theorem SameButQuote.restoreQuote (order : ByteOrder) : SameButQuote wire (restoreQuote order bytes (headerLength wire)) := by
  unfold IcmpPing.restoreQuote
  split
  · rename_i hquote
    have hwrite : headerLength wire + 10 + (u16ToBe (fieldAt order bytes (headerLength wire + 10))).length ≤ bytes.length := by
      rw [length_u16ToBe]
      omega
    exact ⟨(List.length_overwrite hwrite).trans h.length,
      fun i hi => (byteAt_overwrite_of_apart hwrite (Or.inl hi)).trans (h.byte i hi)⟩
  · exact h

/-- Whether the parser may accept a datagram is seen without its quoted length. -/
theorem SameButQuote.acceptable (haccept : Acceptable bytes) : Acceptable wire := by
  have hheader := h.headerLength_eq
  have hlen := h.length
  obtain ⟨hicmp, hroom, hkind⟩ := haccept
  unfold HasQuote at hkind
  rw [hheader, h.byte _ (by omega), h.byte _ (by omega), hlen] at hkind
  rw [IsIcmp, fieldAt, h.byte 9 (by omega), h.byte 6 (by omega), h.byte 7 (by omega)] at hicmp
  exact ⟨hicmp, by omega, hkind⟩

end SameButQuote

/-- A datagram the parser may accept is restored byte for byte. -/
theorem normalized_of_acceptable {order : ByteOrder} {wire received : Bytes} (h : DeliveredIpv4 order wire received)
    (haccept : Acceptable wire) : normalized order received = wire := by
  have hroom := haccept.room
  have hmin := h.header_min
  have hform : WireForm wire := by
    refine ⟨h.version, h.header_min, hroom, h.total, haccept.kind.imp (fun hkind => ?_) fun hquote => ?_⟩
    · rw [hkind]
      rfl
    · exact ⟨hquote.1, hquote.2.1, hquote.2.2⟩
  have hdeliver : received = deliverOuter order (deliverQuote order wire (headerLength wire)) := by
    unfold deliverQuote
    rcases haccept.kind with hkind | ⟨hkind, hquote⟩
    · rw [hkind, if_neg (by decide)]
      exact h.kept (by rw [hkind]; rfl)
    · rw [if_pos hkind]
      exact h.converted haccept.icmp hkind hquote
  obtain ⟨hlen, hsame⟩ := deliverQuote_same order hform
  have hheader : headerLength (deliverQuote order wire (headerLength wire)) = headerLength wire := by
    rw [headerLength, hsame 0 (by decide), headerLength]
  rw [hdeliver, normalized_deliverOuter (by rw [hsame 0 (by decide)]; exact h.version) (by omega) (by omega), hheader]
  · exact restoreQuote_deliverQuote hform
  · rw [hheader, fieldAt, hsame 2 (by decide), hsame 3 (by decide)]
    exact h.total

/-- What is made of a datagram differs from it in its quoted length alone, where it has room for a message. -/
theorem sameButQuote_normalized {order : ByteOrder} {wire received : Bytes} (h : DeliveredIpv4 order wire received)
    (hroom : headerLength wire + 8 ≤ wire.length) : SameButQuote wire (normalized order received) := by
  have hmin := h.header_min
  rcases h.written with rfl | ⟨hquote, rfl⟩
  · rw [normalized_deliverOuter h.version hmin hroom h.total]
    exact SameButQuote.restoreQuote ⟨rfl, fun _ _ => rfl⟩ order
  · have hsame : SameButQuote wire (swapQuote order wire) := sameButQuote_overwrite _ (length_u16ToNe ..) hquote
    have hheader := hsame.headerLength_eq
    have hlen := hsame.length
    rw [normalized_deliverOuter (by rw [hsame.byte 0 (by omega)]; exact h.version) (by omega) (by omega), hheader]
    · exact hsame.restoreQuote order
    · rw [hheader, fieldAt, hsame.byte 2 (by omega), hsame.byte 3 (by omega)]
      exact h.total

/-- What the kernel delivers is as long as what arrived. -/
theorem length_deliveredIpv4 {order : ByteOrder} {wire received : Bytes} (h : DeliveredIpv4 order wire received) :
    received.length = wire.length := by
  have hmin := h.header_min
  have hle := h.header_le
  rcases h.written with rfl | ⟨hquote, rfl⟩
  · exact length_deliverOuter (by omega)
  · have hsame : SameButQuote wire (swapQuote order wire) := sameButQuote_overwrite _ (length_u16ToNe ..) hquote
    have hlen := hsame.length
    rw [length_deliverOuter (by omega), hlen]

/-- What the parser may accept of a restored datagram, it may accept of the datagram. -/
theorem acceptable_of_normalized {order : ByteOrder} {wire received : Bytes} (h : DeliveredIpv4 order wire received)
    (haccept : Acceptable (normalized order received)) : Acceptable wire := by
  have hmin := h.header_min
  by_cases hroom : headerLength wire + 8 ≤ wire.length
  · exact (sameButQuote_normalized h hroom).acceptable haccept
  -- a datagram without room for a message is left as it was delivered, and has none then, either
  have hshort : headerLength (normalized order received) = headerLength wire := by
    have hheader : headerLength received = headerLength wire := by
      rcases h.written with rfl | ⟨hquote, rfl⟩
      · exact headerLength_deliverOuter (by have := h.header_le; omega)
      · omega
    have hlen := length_deliveredIpv4 h
    unfold normalized
    split
    · exact hheader
    split
    · exact hheader
    split
    · exact hheader
    split
    · exact hheader
    · omega
  have hroom' := haccept.room
  rw [hshort, length_normalized, length_deliveredIpv4 h] at hroom'
  exact absurd hroom' hroom

/-- The parser makes of a delivered datagram, once it is normalized, what it makes of the datagram in wire form. -/
theorem parse_delivered {order : ByteOrder} {wire received : Bytes} {source : IpAddr} {expected : Expected} {reply : Option Reply}
    (h : Delivered order wire received source) (hlength : wire.length ≤ 65535) (hpayload : expected.payload.length ≤ 65527)
    (hparse : parse (Raw.restored (.macos order) received source) source expected = .ok reply) :
    parse wire source expected = .ok reply := by
  cases source with
  | v6 source =>
    obtain rfl : received = wire := h
    exact hparse
  | v4 source =>
    change parse (normalized order received) (.v4 source) expected = .ok reply at hparse
    by_cases haccept : Acceptable wire
    · rwa [normalized_of_acceptable h haccept] at hparse
    -- neither form is accepted
    cases reply with
    | some reply => exact absurd (acceptable_of_normalized h (acceptable_of_parse hparse)) haccept
    | none =>
      obtain ⟨reply, hwire⟩ := parse_returns (.v4 source) hlength hpayload
      cases reply with
      | some reply => exact absurd (acceptable_of_parse hwire) haccept
      | none => exact hwire

/-! ## Runs -/

/-- The same call and answer, but that on macOS a datagram was delivered in host order. -/
inductive SameCall (order : ByteOrder) : Exchange Syscall.Answer → Exchange Syscall.Answer → Prop where
  | same (x : Exchange Syscall.Answer) : SameCall order x x
  | datagram (wire received : Bytes) (source : IpAddr) (h : Delivered order wire received source) :
    SameCall order ⟨.recvFrom, .ok (received, source)⟩ ⟨.recvFrom, .ok (wire, source)⟩

/-- The same event, with the same calls, but for the datagrams. -/
def SameEntry (order : ByteOrder) (entry entry' : Event × List (Exchange Syscall.Answer)) : Prop :=
  entry.1.Alike entry'.1 ∧ List.Forall₂ (SameCall order) entry.2 entry'.2

/-- Every datagram that the socket has delivered came from one in wire form. -/
def FromWire (order : ByteOrder) (calls : List (Exchange Syscall.Answer)) : Prop :=
  ∀ received source, (⟨.recvFrom, .ok (received, source)⟩ : Exchange Syscall.Answer) ∈ calls →
    ∃ wire, Delivered order wire received source

/-- Calls are the same calls as themselves. -/
theorem forall₂_same (order : ByteOrder) (calls : List (Exchange Syscall.Answer)) : List.Forall₂ (SameCall order) calls calls :=
  List.forall₂_same.2 fun x _ => .same x

/-- What a receive call is given is as long as what arrived. -/
theorem length_delivered {order : ByteOrder} {wire received : Bytes} {source : IpAddr} (h : Delivered order wire received source) :
    received.length = wire.length := by
  cases source with
  | v4 source => exact length_deliveredIpv4 h
  | v6 source => exact congrArg List.length h

/-- A step on macOS, and the step where datagrams are delivered in wire form. -/
theorem macos_step {p : Probe} {order : ByteOrder} {os : TargetOs} (hos : os = .linux ∨ os = .windows)
    (hpayload : p.payload.length ≤ 65527) {s s' t : State} {e : Event} {calls : List (Exchange Syscall.Answer)}
    (hbeside : Beside p.overRaw parse s t) (hmoves : Moves p.overRaw s e s') (hserves : Raw.Serves (.macos order) calls e)
    (hwire : FromWire order calls) : ∃ e' calls' t', Moves p.overRaw t e' t' ∧ Raw.Serves os calls' e' ∧
      Beside p.overRaw parse s' t' ∧ SameEntry order (e, calls) (e', calls') := by
  have halike : Probe.Alike p.overRaw p.overRaw := ⟨rfl, rfl, rfl, rfl, rfl⟩
  have hcommon : e.Common → Raw.Serves os calls e → ∃ e' calls' t', Moves p.overRaw t e' t' ∧ Raw.Serves os calls' e' ∧
      Beside p.overRaw parse s' t' ∧ SameEntry order (e, calls) (e', calls') := by
    intro hcommon hserves
    obtain ⟨t', ht, hbeside'⟩ := hbeside.common halike hmoves hcommon
    exact ⟨e, calls, t', ht, hserves, hbeside', .common e hcommon, forall₂_same order calls⟩
  cases e with
  | clock now => exact hcommon trivial hserves
  | sent packet target result => exact hcommon trivial hserves
  | received wait written result =>
    cases result with
    | error error =>
      refine hcommon trivial ?_
      obtain ⟨outcome, hreceives, hresult, hwritten⟩ := hserves.received
      cases hreceives with
      | unset error =>
        cases hresult
        exact Raw.serves_of_receives (.unset error) hwritten
      | failed error =>
        cases hresult
        exact Raw.serves_of_receives (.failed error) hwritten
      | received bytes source => cases hresult
    | ok packet =>
      obtain ⟨length, source⟩ := packet
      obtain ⟨received, rfl, rfl, rfl⟩ := hserves.packet
      obtain ⟨wire, hdelivered⟩ := hwire received source (by simp)
      have hlength := length_delivered hdelivered
      have hrestored := Raw.length_restored (.macos order) received source
      obtain ⟨t', ht, hbeside'⟩ := hbeside.received (q := p.overRaw) hmoves parse wire wire.length source (by rw [hlength])
        hrestored.ge (Nat.le_refl _) fun hle seq reply hparse => by
          rw [← hrestored, List.take_length] at hparse
          rw [List.take_length]
          exact parse_delivered hdelivered (hlength ▸ hle) hpayload hparse
      have hreceives : Raw.Receives os wait _ _ := .received wire source
      rw [Raw.restored_of_wire hos] at hreceives
      have hserves' := Raw.serves_of_receives hreceives fun received h => congrArg Received.written (Except.ok.inj h)
      exact ⟨_, _, t', ht, hserves', hbeside', .received .., .cons (.same _) (.cons (.datagram _ _ _ hdelivered) .nil)⟩
  | judged bytes source expected reply =>
    obtain ⟨rfl, hparse⟩ := hserves
    obtain ⟨bytes', source', t', ht, hparse', hbeside'⟩ := hbeside.judged halike hmoves hparse
    exact ⟨_, [], t', ht, ⟨rfl, hparse'⟩, hbeside', .judged .., .nil⟩

/-- A run on macOS, and the run where datagrams are delivered in wire form. -/
theorem RawRuns.wire {p : Probe} {order : ByteOrder} {os : TargetOs} (hos : os = .linux ∨ os = .windows)
    (hpayload : p.payload.length ≤ 65527) {log : RawLog} {s : State} (h : RawRuns p (.macos order) log s)
    (hwire : ∀ entry ∈ log, FromWire order entry.2) :
    ∃ log' t, RawRuns p os log' t ∧ Beside p.overRaw parse s t ∧ List.Forall₂ (SameEntry order) log log' := by
  induction log using List.reverseRecOn generalizing s with
  | nil =>
    obtain ⟨hruns, -⟩ := h
    cases hruns
    exact ⟨[], p.overRaw.init, ⟨rfl, List.forall_mem_nil _⟩, Alike.beside_init ⟨rfl, rfl, rfl, rfl, rfl⟩ parse, .nil⟩
  | append_singleton log entry ih =>
    obtain ⟨e, calls⟩ := entry
    obtain ⟨s₁, hbefore, hmoves, hserves⟩ := h.last
    obtain ⟨log', t, hruns, hbeside, hsame⟩ := ih hbefore fun entry hentry => hwire entry (List.mem_append_left _ hentry)
    have hlast : FromWire order calls := hwire (e, calls) (List.mem_append_right _ (List.mem_singleton_self _))
    obtain ⟨e', calls', t', ht, hserves', hbeside', hentry⟩ := macos_step hos hpayload hbeside hmoves hserves hlast
    exact ⟨log' ++ [(e', calls')], t', hruns.snoc ht hserves', hbeside', List.rel_append hsame (.cons hentry .nil)⟩

/-- A probe on macOS does what it does where datagrams are delivered in wire form. Whatever it has received of datagrams on the wire,
there is a run on Linux or Windows that has received these datagrams as they are, with the same readings of the clock, the same
requests, the same errors and the same judgements; and one of the two has a result exactly when the other has it. -/
theorem macos_agrees (p : Probe) (order : ByteOrder) (os : TargetOs) (hos : os = .linux ∨ os = .windows) (log : RawLog) (s : State)
    (h : RawRuns p (.macos order) log s) (hwire : ∀ entry ∈ log, FromWire order entry.2) :
    ∃ log' s', RawRuns p os log' s' ∧ List.Forall₂ (SameEntry order) log log' ∧
      ∀ result, s.point = .done result ↔ s'.point = .done result := by
  by_cases hvalid : p.options.validate = .ok () ∧ p.payload.length = p.options.payloadSize
  · obtain ⟨hoptions, hpayload⟩ := hvalid
    obtain ⟨-, -, -, -, -, hsize⟩ := validate_bounds hoptions
    obtain ⟨log', t, hruns, hbeside, hsame⟩ := h.wire hos (by omega) hwire
    exact ⟨log', t, hruns, hsame, fun result => hbeside.done_iff result⟩
  · -- arguments that fail a check end the call before anything is received
    obtain ⟨text, hinit⟩ := init_of_invalid (p := p.overRaw) hvalid
    obtain rfl := List.map_eq_nil_iff.1 (run_done hinit h.runs)
    exact ⟨[], s, ⟨h.runs, List.forall_mem_nil _⟩, .nil, fun _ => Iff.rfl⟩

/-- A UDP datagram whose payload looks like an ICMP error with a quote. -/
def sampleUdp : Bytes :=
  [0x45, 0, 0, 48, 0, 0, 0, 0, 64, 17, 0, 0, 192, 0, 2, 2, 192, 0, 2, 1, 3, 1, 0, 0, 0, 0, 0, 0, 0x45, 0, 0, 44] ++ List.replicate 16 0

/-- What is made of it on a little-endian host: its payload is taken for a quote. -/
def sampleMistaken : Bytes :=
  [0x45, 0, 0, 48, 0, 0, 0, 0, 64, 17, 0, 0, 192, 0, 2, 2, 192, 0, 2, 1, 3, 1, 0, 0, 0, 0, 0, 0, 0x45, 0, 44, 0] ++ List.replicate 16 0

/-- The sample probe on macOS receives it, and then the answer. -/
def sampleMacos : RawLog :=
  [(.clock 100, [⟨.now, (100 : Nat)⟩]),
    (.sent ([8, 0, 33, 6, 18, 52, 0, 1] ++ List.replicate 56 7) sampleProbe.target (.ok ()),
      [⟨.sendTo ([8, 0, 33, 6, 18, 52, 0, 1] ++ List.replicate 56 7) sampleProbe.target, .ok 64⟩]),
    (.clock 200, [⟨.now, (200 : Nat)⟩]),
    (.received 999999900 sampleMistaken (.ok (48, sampleProbe.target)),
      [⟨.setReadTimeout (max 999999900 (fromMillis 1)), .ok ()⟩,
        ⟨.recvFrom, .ok (deliverOuter .little sampleUdp, sampleProbe.target)⟩]),
    (.clock 300, [⟨.now, (300 : Nat)⟩]), (.clock 301, [⟨.now, (301 : Nat)⟩]),
    (.judged sampleMistaken sampleProbe.target (sampleProbe.expected 1) none, []),
    (.clock 400, [⟨.now, (400 : Nat)⟩]),
    (.received 999999700 sampleAnswer (.ok (84, sampleProbe.target)),
      [⟨.setReadTimeout (max 999999700 (fromMillis 1)), .ok ()⟩,
        ⟨.recvFrom, .ok (deliverOuter .little sampleAnswer, sampleProbe.target)⟩]),
    (.clock 5000, [⟨.now, (5000 : Nat)⟩]), (.clock 5001, [⟨.now, (5001 : Nat)⟩]),
    (.judged sampleAnswer sampleProbe.target (sampleProbe.expected 1) (some .echo), [])]

/-- A run on macOS that ends with an answer. -/
theorem runs_sampleMacos : ∃ s, RawRuns sampleProbe (.macos .little) sampleMacos s ∧
    s.point = .done (.ok { latency := some (4900 : Nat), message := "" }) := by
  have hrun : (sampleProbe.machine.run sampleProbe.init (sampleMacos.map Prod.fst)).map State.point =
      some (.done (.ok { latency := some 4900, message := "" })) := by decide +kernel
  obtain ⟨s, hs, hpoint⟩ := Option.map_eq_some_iff.1 hrun
  have hserves : ∀ {wait : Duration} {delivered restored : Bytes}, Raw.restored (.macos .little) delivered sampleProbe.target = restored →
      Raw.Serves (.macos .little) [⟨.setReadTimeout (max wait (fromMillis 1)), .ok ()⟩, ⟨.recvFrom, .ok (delivered, sampleProbe.target)⟩]
        (.received wait restored (.ok (delivered.length, sampleProbe.target))) := by
    rintro wait delivered _ rfl
    exact Raw.serves_of_receives (.received delivered sampleProbe.target) fun received h => congrArg Received.written (Except.ok.inj h)
  refine ⟨s, ⟨hs, ?_⟩, hpoint⟩
  simp only [sampleMacos, List.forall_mem_cons]
  exact ⟨rfl, Raw.runs_send.2 ⟨.ok 64, rfl, rfl⟩, rfl, hserves (by decide), rfl, rfl, ⟨rfl, by decide +kernel⟩, rfl, hserves (by decide),
    rfl, rfl, ⟨rfl, by decide +kernel⟩, List.forall_mem_nil _⟩

theorem macos_agrees_sample : ∃ log' s', RawRuns sampleProbe .linux log' s' ∧ List.Forall₂ (SameEntry .little) sampleMacos log' ∧
    s'.point = .done (.ok { latency := some (4900 : Nat), message := "" }) := by
  obtain ⟨s, hruns, hpoint⟩ := runs_sampleMacos
  have hudp : ¬IsIcmp sampleUdp := fun h => absurd h.1 (by decide)
  have hother : DeliveredIpv4 .little sampleUdp (deliverOuter .little sampleUdp) :=
    delivered_of_not_isIcmp (by decide) (by decide) (by decide) (by decide) hudp
  have hanswer : DeliveredIpv4 .little sampleAnswer (deliverOuter .little sampleAnswer) :=
    ⟨by decide, by decide, by decide, by decide, Or.inl rfl, fun _ hconverts => absurd hconverts (by decide), fun _ => rfl⟩
  have hwire : ∀ entry ∈ sampleMacos, FromWire .little entry.2 := by
    intro entry hentry received source hmem
    have hfrom : (received, source) = (deliverOuter .little sampleUdp, sampleProbe.target) ∨
        (received, source) = (deliverOuter .little sampleAnswer, sampleProbe.target) := by
      simp only [sampleMacos, List.mem_cons, List.not_mem_nil, or_false] at hentry
      rcases hentry with rfl | rfl | rfl | rfl | rfl | rfl | rfl | rfl | rfl | rfl | rfl | rfl <;> simp at hmem <;> simp [hmem]
    rcases hfrom with h | h <;> cases h
    · exact ⟨sampleUdp, hother⟩
    · exact ⟨sampleAnswer, hanswer⟩
  obtain ⟨log', s', hruns', hsame, hiff⟩ := macos_agrees sampleProbe .little .linux (Or.inl rfl) _ s hruns hwire
  exact ⟨log', s', hruns', hsame, (hiff _).1 hpoint⟩

end IcmpPing
