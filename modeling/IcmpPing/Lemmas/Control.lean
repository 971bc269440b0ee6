import IcmpPing.Control
import IcmpPing.Lemmas.Bytes

/-!
# The walk over the control buffer

The fields of a message are read back from where the kernel has written them, and the walk goes from each message to the next.
-/

namespace IcmpPing

namespace Control

/-! ## Fields -/

/-- A number of so many bytes. -/
theorem length_leBytes (width value : Nat) : (leBytes width value).length = width := by
  induction width generalizing value with
  | zero => rfl
  | succ width ih => rw [leBytes, List.length_cons, ih]

/-- A number that fits is read back. -/
theorem leValue_leBytes {width value : Nat} (h : value < 256 ^ width) : leValue (leBytes width value) = value := by
  induction width generalizing value with
  | zero => exact (Nat.lt_one_iff.1 h).symm
  | succ width ih =>
    have hdiv : value / 256 < 256 ^ width := Nat.div_lt_of_lt_mul (by rwa [Nat.pow_succ, Nat.mul_comm] at h)
    rw [leBytes, leValue, ih hdiv, UInt8.toNat_ofNat']
    omega

/-- A slice of what is between. -/
theorem slice_middle (before middle after : Bytes) :
    slice (before ++ middle ++ after) before.length (before.length + middle.length) = .ok middle := by
  rw [slice_of_le (by omega) (by simp), List.append_assoc, List.take_length_add_append, List.take_left, List.drop_left]

/-! ## One message -/

/-- The header of a message. -/
def Cmsg.header (message : Cmsg) : Bytes :=
  leBytes 8 (headerSize + message.data.length) ++ leBytes 4 message.level.toNat ++ leBytes 4 message.kind.toNat

/-- A header has its size. -/
theorem Cmsg.length_header (message : Cmsg) : message.header.length = headerSize := by
  simp [Cmsg.header, length_leBytes, headerSize]

/-- A message is its header, its data and padding. -/
theorem Cmsg.encode_eq (message : Cmsg) : ∃ padding, message.encode = message.header ++ message.data ++ padding := ⟨_, rfl⟩

/-- The fields of a header are read back. -/
theorem Cmsg.leValue_header (message : Cmsg) (h : message.data.length < 2 ^ 32) :
    leValue (message.header.take 8) = headerSize + message.data.length ∧
      leValue ((message.header.drop 8).take 4) = message.level.toNat ∧ leValue ((message.header.drop 12).take 4) = message.kind.toNat := by
  have hlevel : message.level.toNat < 256 ^ 4 := message.level.toNat_lt
  have hkind : message.kind.toNat < 256 ^ 4 := message.kind.toNat_lt
  have hlength : headerSize + message.data.length < 256 ^ 8 := by
    unfold headerSize
    omega
  refine ⟨?_, ?_, ?_⟩
  · rw [Cmsg.header, List.append_assoc, List.take_left' (length_leBytes ..), leValue_leBytes hlength]
  · rw [Cmsg.header, List.append_assoc, List.drop_left' (length_leBytes ..), List.take_left' (length_leBytes ..), leValue_leBytes hlevel]
  · rw [Cmsg.header, List.drop_left' (by rw [List.length_append, length_leBytes, length_leBytes]), List.take_of_length_le
      (length_leBytes ..).le, leValue_leBytes hkind]

/-- Whether a message is relevant is told by its header. -/
theorem relevant_message (target : IpAddr) (message : Cmsg) :
    relevant target message.message = relevant target ⟨toInt message.level.toNat, toInt message.kind.toNat, none⟩ := rfl

/-- What the source reads of a message with room for an error: the error, and what follows it as an address. -/
theorem slices_encode (before after : Bytes) {message : Cmsg} (h : errorSize ≤ message.data.length) :
    slice (before ++ message.encode ++ after) (before.length + headerSize) (before.length + headerSize + errorSize) =
        .ok (message.data.take errorSize) ∧
      slice (before ++ message.encode ++ after) (before.length + headerSize + errorSize)
        (before.length + headerSize + errorSize + min (message.data.length - errorSize) storageSize) =
        .ok ((message.data.drop errorSize).take storageSize) := by
  obtain ⟨padding, hencode⟩ := message.encode_eq
  have herror := slice_middle (before ++ message.header) (message.data.take errorSize) (message.data.drop errorSize ++ padding ++ after)
  have hoffender := slice_middle (before ++ message.header ++ message.data.take errorSize) ((message.data.drop errorSize).take storageSize)
    ((message.data.drop errorSize).drop storageSize ++ padding ++ after)
  rw [List.length_append, message.length_header, List.length_take_of_le h] at herror
  rw [List.length_append, List.length_append, message.length_header, List.length_take_of_le h, List.length_take, List.length_drop,
    Nat.min_comm] at hoffender
  rw [hencode]
  constructor
  · rw [← herror]
    congr 1
    simp only [List.append_assoc]
    rw [← List.append_assoc (message.data.take errorSize), List.take_append_drop]
  · rw [← hoffender]
    congr 1
    simp only [List.append_assoc]
    rw [← List.append_assoc ((message.data.drop errorSize).take storageSize), List.take_append_drop,
      ← List.append_assoc (message.data.take errorSize), List.take_append_drop]

/-- The body of the loop, at a message: it reads what belongs to the message, and gives its error. -/
theorem errorAt_encode (target : IpAddr) (before after : Bytes) {message : Cmsg} (h : message.data.length < 2 ^ 32) :
    errorAt target (before ++ message.encode ++ after) before.length = .ok (extendedError target [message.message]) := by
  have hheader : slice (before ++ message.encode ++ after) before.length (before.length + headerSize) = .ok message.header := by
    obtain ⟨padding, hencode⟩ := message.encode_eq
    have hslice := slice_middle before message.header (message.data ++ padding ++ after)
    rw [message.length_header] at hslice
    rw [hencode, ← hslice]
    simp only [List.append_assoc]
  obtain ⟨hlength, hlevel, hkind⟩ := message.leValue_header h
  unfold errorAt
  rw [hheader, Checked.ok_bind, hlength, hlevel, hkind]
  rw [extendedError, relevant_message]
  by_cases hrelevant : relevant target ⟨toInt message.level.toNat, toInt message.kind.toNat, none⟩
  · by_cases hroom : errorSize ≤ message.data.length
    · obtain ⟨herror, hoffender⟩ := slices_encode before after hroom
      have hcount : headerSize + message.data.length - headerSize - errorSize = message.data.length - errorSize := by omega
      have hge : headerSize + message.data.length ≥ headerSize + errorSize := by omega
      have hpayload : message.message.payload = some (extendedErr (message.data.take errorSize),
        storage ((message.data.drop errorSize).take storageSize)) := if_pos hroom
      simp only [hrelevant, hge, and_self, if_true, hcount, herror, hoffender, Checked.ok_bind, Checked.pure_eq, hpayload]
    · have hge : ¬headerSize + message.data.length ≥ headerSize + errorSize := by omega
      have hpayload : message.message.payload = none := if_neg hroom
      simp only [hrelevant, hge, and_false, if_false, if_true, Checked.pure_eq, hpayload, extendedError]
  · simp only [hrelevant, false_and, if_false, Checked.pure_eq, extendedError, Bool.false_eq_true]

/-! ## The loop -/

/-- The error of a list of messages is that of the first message that has one. -/
theorem extendedError_cons (target : IpAddr) (header : ControlMessage) (rest : List ControlMessage) :
    extendedError target (header :: rest) = (extendedError target [header]).or (extendedError target rest) := by
  cases hrelevant : relevant target header <;> cases hpayload : header.payload <;> simp [extendedError, hrelevant, hpayload]

/-- Buffers are put one after the other. -/
theorem encode_append (before after : List Cmsg) : encode (before ++ after) = encode before ++ encode after :=
  List.flatMap_append

/-- The first message of a buffer. -/
theorem encode_cons (message : Cmsg) (after : List Cmsg) : encode (message :: after) = message.encode ++ encode after :=
  List.flatMap_cons

/-- A message takes more than its data. -/
theorem Cmsg.length_data_le (message : Cmsg) : message.data.length ≤ message.encode.length := by
  obtain ⟨padding, hencode⟩ := message.encode_eq
  rw [hencode, List.length_append, List.length_append]
  omega

/-- The loop, at the first of the messages that are left. -/
theorem walk_encode {macros : Macros} (hmacros : macros.Lawful) (target : IpAddr) (before after : List Cmsg) {n : Nat}
    (hfits : (encode (before ++ after)).length ≤ controlSize) (hn : after.length ≤ n) :
    walk macros target (encode (before ++ after)) n (if after = [] then none else some (encode before).length) =
      .ok (some (extendedError target (after.map Cmsg.message))) := by
  induction after generalizing before n with
  | nil => cases n <;> rfl
  | cons message after ih =>
    obtain _ | n := n
    · exact absurd hn (Nat.not_succ_le_zero _)
    have hbytes : encode (before ++ message :: after) = encode before ++ message.encode ++ encode after := by
      rw [encode_append, encode_cons, List.append_assoc]
    have hdata : message.data.length < 2 ^ 32 := by
      have hle := message.length_data_le
      rw [hbytes, List.length_append, List.length_append] at hfits
      unfold controlSize at hfits
      omega
    have hhere : errorAt target (encode (before ++ message :: after)) (encode before).length =
        .ok (extendedError target [message.message]) := by
      rw [hbytes]
      exact errorAt_encode target _ _ hdata
    have hrest := ih (before ++ [message]) (by rwa [List.append_cons] at hfits) (Nat.le_of_succ_le_succ hn)
    rw [← List.append_cons] at hrest
    rw [if_neg (List.cons_ne_nil _ _), walk, hhere, Checked.ok_bind, List.map_cons,
      extendedError_cons target message.message (after.map Cmsg.message)]
    cases extendedError target [message.message] with
    | some error => rfl
    | none =>
      rw [Option.none_or, ← hrest, ← hmacros.next before message after hfits]

/-- The traversal of what the kernel has written finds what `extendedError` finds. -/
theorem read_encode {macros : Macros} (hmacros : macros.Lawful) (target : IpAddr) (messages : List Cmsg) {n : Nat}
    (hfits : (encode messages).length ≤ controlSize) (hn : messages.length ≤ n) :
    read macros target (encode messages) n = .ok (some (extendedError target (messages.map Cmsg.message))) := by
  rw [read, hmacros.first messages hfits]
  exact walk_encode hmacros target [] messages hfits hn

/-- A message takes a multiple of eight bytes, as its length tells. -/
theorem Cmsg.length_encode (message : Cmsg) : message.encode.length = align (headerSize + message.data.length) := by
  simp only [Cmsg.encode, List.length_append, length_leBytes, List.length_replicate, align, headerSize]
  omega

/-- Every message takes its header at least. -/
theorem Cmsg.headerSize_le (message : Cmsg) : headerSize ≤ message.encode.length := by
  rw [message.length_encode]
  unfold align headerSize
  omega

/-- The buffer has no room for more messages than headers. -/
theorem length_mul_le (messages : List Cmsg) : messages.length * headerSize ≤ (encode messages).length := by
  induction messages with
  | nil => exact Nat.zero_le _
  | cons message messages ih =>
    rw [encode_cons, List.length_append, List.length_cons, Nat.succ_mul, Nat.add_comm]
    exact Nat.add_le_add message.headerSize_le ih

/-- The length of a message is read back from the buffer. -/
theorem lengthAt_encode (before after : List Cmsg) {message : Cmsg} (h : message.data.length < 2 ^ 32) :
    lengthAt (encode (before ++ message :: after)) (encode before).length = headerSize + message.data.length := by
  obtain ⟨padding, hencode⟩ := message.encode_eq
  rw [lengthAt, encode_append, encode_cons, List.drop_left, hencode, List.append_assoc, List.append_assoc,
    List.take_append_of_le_length (by rw [message.length_header]; decide)]
  exact (message.leValue_header h).1

/-- The macros of Linux do as documented. -/
theorem Macros.lawful_linux : Macros.linux.Lawful where
  first messages _ := by
    cases messages with
    | nil => rfl
    | cons message messages =>
      have hle : headerSize ≤ (encode (message :: messages)).length := by
        rw [encode_cons, List.length_append]
        exact message.headerSize_le.trans (Nat.le_add_right _ _)
      rw [if_neg (List.cons_ne_nil _ _), Macros.linux]
      simp only [hle, if_true]
  next before message after hfits := by
    have hdata : ∀ {messages : List Cmsg}, (encode messages).length ≤ controlSize → ∀ message ∈ messages, message.data.length < 2 ^ 32 := by
      intro messages hfits message hmem
      obtain ⟨first, last, rfl⟩ := List.append_of_mem hmem
      have hle := message.length_data_le
      rw [encode_append, encode_cons, List.length_append, List.length_append] at hfits
      unfold controlSize at hfits
      omega
    have hlength := lengthAt_encode before after (hdata hfits message (by simp))
    have hnext : (encode before).length + align (headerSize + message.data.length) = (encode (before ++ [message])).length := by
      rw [encode_append, encode_cons, List.length_append, ← message.length_encode]
      simp [encode]
    have hheader : ¬headerSize + message.data.length < headerSize := by omega
    simp only [Macros.linux, hlength, hheader, false_or, hnext]
    cases after with
    | nil =>
      rw [if_pos rfl, if_pos (Or.inl (by unfold headerSize; omega))]
    | cons following after =>
      have hassoc : before ++ message :: following :: after = (before ++ [message]) ++ following :: after := by simp
      rw [hassoc] at hfits ⊢
      have hfollowing := lengthAt_encode (before ++ [message]) after (hdata hfits following (by simp))
      have htotal : (encode (before ++ [message] ++ following :: after)).length =
          (encode (before ++ [message])).length + align (headerSize + following.data.length) + (encode after).length := by
        rw [encode_append, encode_cons, List.length_append, List.length_append, following.length_encode, Nat.add_assoc]
      have hroom := following.headerSize_le
      rw [following.length_encode] at hroom
      rw [hfollowing, if_neg (List.cons_ne_nil _ _), if_neg (by rw [htotal]; omega)]

end Control

end IcmpPing
