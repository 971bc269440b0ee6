import IcmpPing.Lib.Handles
import IcmpPing.Lib.OnesComplement
import IcmpPing.Lib.Program
import IcmpPing.Lib.Tenure
import IcmpPing.Lib.Transition
import IcmpPing.Rust
import IcmpPing.Setup
import IcmpPing.Process
import IcmpPing.Packet
import IcmpPing.Linux
import IcmpPing.Engine
import IcmpPing.PingProbe
import IcmpPing.Identifier
import IcmpPing.Compute
import IcmpPing.Wire
import IcmpPing.Lemmas.Bytes
import IcmpPing.Lemmas.Checksum
import IcmpPing.Lemmas.Headers
import IcmpPing.Lemmas.Message
import IcmpPing.Lemmas.Queue
import IcmpPing.Lemmas.Probe
import IcmpPing.Lemmas.Ping
import IcmpPing.Lemmas.Identifier
import IcmpPing.Lemmas.Compute
import IcmpPing.Theorems.Accept
import IcmpPing.Theorems.Queue
import IcmpPing.Theorems.Separation
import IcmpPing.Theorems.Probe
import IcmpPing.Theorems.Macos
import IcmpPing.Theorems.Noise
import IcmpPing.Theorems.Open
import IcmpPing.Theorems.Ping
import IcmpPing.Theorems.Fallback
import IcmpPing.Theorems.Identifier
import IcmpPing.Theorems.Compute
import IcmpPing.Darwin
import IcmpPing.Lemmas.Darwin
import IcmpPing.Lemmas.Deadline
import IcmpPing.Lemmas.Send
import IcmpPing.Lemmas.Setup
import IcmpPing.Theorems.Checksum
import IcmpPing.Theorems.Darwin
import IcmpPing.Theorems.Extensions
import IcmpPing.Theorems.Returns
import IcmpPing.Theorems.Socket
import IcmpPing.Theorems.Termination
import IcmpPing.Raw
import IcmpPing.Lemmas.Parallel
import IcmpPing.Lemmas.Raw
import IcmpPing.Theorems.Raw
import IcmpPing.Lemmas.Process
import IcmpPing.Theorems.Process
import IcmpPing.Theorems.Promise
import IcmpPing.Theorems.Progress
import IcmpPing.Theorems.Settles
import IcmpPing.Address
import IcmpPing.Lemmas.Address
import IcmpPing.Theorems.Address
import IcmpPing.Control
import IcmpPing.Theorems.Control
import IcmpPing.Theorems.Unprivileged
