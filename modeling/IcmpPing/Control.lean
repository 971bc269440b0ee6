import IcmpPing.Linux

/-!
# The control buffer of a record (`linux.rs`)

What `queued_error` reads of the control messages, byte by byte. The source walks over them with the macros of libc and reads through
raw pointers: a read outside what the kernel has returned has no meaning there, and is a panic here. The layout is that of Linux on the
64-bit little-endian targets of the package.
-/

namespace IcmpPing

namespace Control

/-! ## Reading -/

/-- A little-endian number. -/
def leValue : Bytes → Nat
  | [] => 0
  | b :: rest => b.toNat + 256 * leValue rest

/-- The number as an `int`. -/
def toInt (x : Nat) : Int := if x < 2 ^ 31 then x else x - 2 ^ 32

/-- `CMSG_LEN(0)`, which is the size of a `cmsghdr`. -/
def headerSize : Nat := 16

/-- `size_of::<sock_extended_err>()` -/
def errorSize : Nat := 16

/-- `size_of::<sockaddr_storage>()` -/
def storageSize : Nat := 128

/-- `CMSG_FIRSTHDR` and `CMSG_NXTHDR`: where a message of the buffer starts. -/
structure Macros where
  firstHdr : Bytes → Option Nat
  nxtHdr : Bytes → Nat → Option Nat

/-- A `sockaddr_storage` of zeroes to whose start these bytes were copied. -/
def storage (copied : Bytes) : SockAddr where
  family := u16FromNe .little (copied.getD 0 0) (copied.getD 1 0)
  data := copied.drop 2

/-- A `sock_extended_err`: its number, origin, type and code. -/
def extendedErr (error : Bytes) : SockExtendedErr where
  errno := .ofNat (leValue (error.take 4))
  origin := error.getD 4 0
  kind := error.getD 5 0
  code := error.getD 6 0

/-- The body of the loop over the messages: the error of the message that starts here, if it is relevant and has room for one. -/
def errorAt (target : IpAddr) (control : Bytes) (start : Nat) : Checked (Option ExtendedError) := do
  let header ← slice control start (start + headerSize)
  let length := leValue (header.take 8)
  let level := toInt (leValue ((header.drop 8).take 4))
  let kind := toInt (leValue ((header.drop 12).take 4))
  if relevant target ⟨level, kind, none⟩ ∧ length ≥ headerSize + errorSize then
    let data := start + headerSize
    let error := extendedErr (← slice control data (data + errorSize))
    let count := min (length - headerSize - errorSize) storageSize
    let offender := storage (← slice control (data + errorSize) (data + errorSize + count))
    return some
      { origin := error.origin, kind := error.kind, code := error.code, errno := error.errno, offender := sockaddrIp offender }
  else return none

/-- The loop, for at most so many messages; nothing is returned where there are more. -/
def walk (macros : Macros) (target : IpAddr) (control : Bytes) : Nat → Option Nat → Checked (Option (Option ExtendedError))
  | _, none => return some none
  | 0, some _ => return none
  | n + 1, some start => do
    match ← errorAt target control start with
    | some error => return some (some error)
    | none => walk macros target control n (macros.nxtHdr control start)

/-- The traversal of the control buffer. -/
def read (macros : Macros) (target : IpAddr) (control : Bytes) (n : Nat) : Checked (Option (Option ExtendedError)) :=
  walk macros target control n (macros.firstHdr control)

/-- What `recvmsg` has left in the buffers: the datagram, whether it or the control messages were cut off, the name and the control
messages. -/
structure Returned where
  data : Bytes
  truncated : Bool
  name : Bytes
  control : Bytes

/-- The rest of `queued_error`, once `recvmsg` has returned: the event, and what is left of the socket. Nothing is returned where there
are more control messages than so many. -/
def queuedError (macros : Macros) (n : Nat) (ping : Ping) (returned : Returned) : Checked (Option (Option Received × Ping)) := do
  let ping := { ping with error := none }
  let ignored := some { written := returned.data, length := 0, source := ping.target }
  if returned.truncated then return some (ignored, ping)
  else match sockaddrIp (storage returned.name) with
  | none => return some (ignored, ping)
  | some destination => do
    match ← read macros ping.target returned.control n with
    | none => return none
    | some none => return some (ignored, ping)
    | some (some error) =>
      return some (some { written := returned.data, length := returned.data.length, source := destination },
        { ping with error := some error })

/-! ## What the kernel writes -/

/-- The bytes of a little-endian number. -/
def leBytes : Nat → Nat → Bytes
  | 0, _ => []
  | width + 1, value => .ofNat value :: leBytes width (value / 256)

/-- A control message: its level and type, as the bits of an `int`, and its data. -/
structure Cmsg where
  level : UInt32
  kind : UInt32
  data : Bytes
  deriving DecidableEq

/-- `CMSG_ALIGN` -/
def align (length : Nat) : Nat := (length + 7) / 8 * 8

/-- A message in the buffer: its header, its data, and zeroes up to the next multiple of eight. -/
def Cmsg.encode (message : Cmsg) : Bytes :=
  leBytes 8 (headerSize + message.data.length) ++ leBytes 4 message.level.toNat ++ leBytes 4 message.kind.toNat ++ message.data ++
    List.replicate (align message.data.length - message.data.length) 0

/-- The messages of a buffer, one after the other. -/
def encode (messages : List Cmsg) : Bytes := messages.flatMap Cmsg.encode

/-- The message as `queued_error` has it: with an error, and an address, where it has room for one. -/
def Cmsg.message (message : Cmsg) : ControlMessage where
  level := toInt message.level.toNat
  kind := toInt message.kind.toNat
  payload :=
    if errorSize ≤ message.data.length then
      some (extendedErr (message.data.take errorSize), storage ((message.data.drop errorSize).take storageSize))
    else none

/-- `size_of_val(&control)` -/
def controlSize : Nat := 512

/-- The macros do as documented: they lead from each message of a buffer to the next, and end after the last. -/
structure Macros.Lawful (macros : Macros) : Prop where
  first : ∀ messages, (encode messages).length ≤ controlSize →
    macros.firstHdr (encode messages) = if messages = [] then none else some 0
  next : ∀ before message after, (encode (before ++ message :: after)).length ≤ controlSize →
    macros.nxtHdr (encode (before ++ message :: after)) (encode before).length =
      if after = [] then none else some (encode (before ++ [message])).length

/-- `cmsg_len` of the message that starts here. -/
def lengthAt (control : Bytes) (start : Nat) : Nat := leValue ((control.drop start).take 8)

/-- The macros on Linux: a message is there where its header, and all of it, is within the buffer. -/
def Macros.linux : Macros where
  firstHdr control := if headerSize ≤ control.length then some 0 else none
  nxtHdr control start :=
    let next := start + align (lengthAt control start)
    if lengthAt control start < headerSize ∨ control.length < next + headerSize ∨ control.length < next + align (lengthAt control next) then
      none
    else some next

/-- The record as the rest of the adapter knows it, of these control messages. -/
def Returned.record (returned : Returned) (messages : List Cmsg) : Record where
  data := returned.data
  truncated := returned.truncated
  address := storage returned.name
  control := messages.map Cmsg.message

/-- The control buffer is what the kernel has written of these messages, unless some were cut off. -/
def Returned.Holds (returned : Returned) (messages : List Cmsg) : Prop :=
  returned.truncated = false → returned.control = encode messages ∧ returned.control.length ≤ controlSize

end Control

end IcmpPing
