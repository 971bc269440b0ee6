import IcmpPing.Lib.Handles
import IcmpPing.Linux
import IcmpPing.Raw

/-!
# Opening a socket (`engine.rs`, `linux.rs`)

What a call does before it probes: it creates its socket, raw where that is permitted, sets it up, and finds the local address by
connecting a UDP socket. The calls are made on descriptors, and a descriptor that goes out of scope is closed.
-/

namespace IcmpPing

/-- A file descriptor, or a socket of Winsock. -/
abbrev Fd := Nat

/-- `socket2::Type` -/
inductive SocketKind where
  | raw | dgram
  deriving DecidableEq, Repr

/-- `std::net::SocketAddr`, without flow label and scope. -/
structure SocketAddr where
  ip : IpAddr
  port : UInt16
  deriving DecidableEq

/-- The calls that set a socket up. -/
inductive Setup where
  /-- `Socket::new` for a family, with its ICMP protocol. -/
  | socket (v4 : Bool) (kind : SocketKind)
  | setTtlV4 (fd : Fd) (ttl : UInt32)
  | setUnicastHopsV6 (fd : Fd) (hops : UInt32)
  /-- `UdpSocket::bind` -/
  | udpBind (address : SocketAddr)
  | connect (fd : Fd) (address : SocketAddr)
  | localAddr (fd : Fd)
  | bind (fd : Fd) (address : SocketAddr)
  /-- `socket.local_addr()?.as_socket()` -/
  | sockName (fd : Fd)
  /-- `setsockopt` of `IP_RECVERR` or `IPV6_RECVERR`. -/
  | setRecvErr (fd : Fd) (v4 : Bool)
  | setWriteTimeout (fd : Fd) (timeout : Duration)
  | close (fd : Fd)
  deriving DecidableEq

abbrev Setup.Answer : Setup → Type
  | .socket _ _ => Except IoError Fd
  | .setTtlV4 _ _ => Except IoError Unit
  | .setUnicastHopsV6 _ _ => Except IoError Unit
  | .udpBind _ => Except IoError Fd
  | .connect _ _ => Except IoError Unit
  | .localAddr _ => Except IoError SocketAddr
  | .bind _ _ => Except IoError Unit
  | .sockName _ => Except IoError (Option SocketAddr)
  | .setRecvErr _ _ => Except IoError Unit
  | .setWriteTimeout _ _ => Except IoError Unit
  | .close _ => Unit

namespace Setup

/-- What the calls do with descriptors. -/
def handling : Handling Setup.Answer Fd where
  uses
    | .socket _ _ | .udpBind _ => ∅
    | .setTtlV4 fd _ | .setUnicastHopsV6 fd _ | .connect fd _ | .localAddr fd | .bind fd _ | .sockName fd | .setRecvErr fd _
    | .setWriteTimeout fd _ | .close fd => {fd}
  gives
    | .close fd => {fd}
    | _ => ∅
  hands
    | ⟨.socket _ _, .ok fd⟩ | ⟨.udpBind _, .ok fd⟩ => {fd}
    | _ => ∅

abbrev Kernel := Method Setup Setup.Answer Unit

/-- `result?` -/
def orThrow {ε α : Type} : Except ε α → Kernel ε α
  | .ok value => return value
  | .error error => throw error

/-- `result.map_err(|e| operation_error(stage, &e))?` -/
def orFail {α : Type} (stage : String) (result : Except IoError α) : Kernel String α :=
  orThrow (result.mapError (operationError stage))

/-- The TTL of IPv4, or the hop limit of IPv6. -/
def setTtl (socket : Fd) (target : IpAddr) (ttl : UInt32) {ε : Type} : Kernel ε (Except IoError Unit) :=
  if target.isIpv4 then Method.call (Setup.setTtlV4 socket ttl) else Method.call (Setup.setUnicastHopsV6 socket ttl)

/-- `"0.0.0.0".parse().unwrap()` or `"::".parse().unwrap()` -/
def unspecified (target : IpAddr) : IpAddr :=
  if target.isIpv4 then .v4 ⟨0, 0, 0, 0⟩ else .v6 ⟨List.replicate 16 0, List.length_replicate⟩

end Setup

open Setup (orThrow orFail setTtl unspecified)

/-- `linux_socket`: the socket, and whether it is a ping socket. Only a permission error of the creation selects the fallback. -/
def linuxSocket {S : Type} (create : SocketKind → Setup.Kernel String (Except IoError S)) : Setup.Kernel String (S × Bool) := do
  match ← create .raw with
  | .ok socket => return (socket, false)
  | .error raw =>
    if raw.kind = .permissionDenied then
      match ← create .dgram with
      | .ok socket => return (socket, true)
      | .error fallback =>
        throw ("ICMP raw socket creation denied (" ++ raw.text ++ "); Linux ICMP ping socket creation failed (" ++ fallback.text ++
          "); inspect /proc/sys/net/ipv4/ping_group_range and permit a service group, or grant CAP_NET_RAW/root for raw ICMP")
    else throw (operationError "socket creation" raw)

/-- `macos_socket` -/
def macosSocket {S : Type} (target : IpAddr) (create : SocketKind → Setup.Kernel String (Except IoError S)) :
    Setup.Kernel String (Except IoError S) := do
  match ← create .raw with
  | .error error =>
    if target.isIpv4 ∧ error.kind = .permissionDenied then create .dgram else return .error error
  | .ok socket => return .ok socket

namespace Raw

/-- `Raw::from_socket`, which owns the socket. -/
def fromSocket (socket : Fd) (target : IpAddr) (options : Options) : Setup.Kernel String (Fd × IpAddr) :=
  Method.droppingOnError (.close socket) do
    orFail "TTL/hop-limit configuration" (← setTtl socket target options.ttl)
    let route ← orFail "route socket creation" (← Method.call (Setup.udpBind ⟨unspecified target, 0⟩))
    Method.dropping (.close route) do
      orFail "route selection" (← Method.call (Setup.connect route ⟨target, 33434⟩))
      let address ← orFail "source address" (← Method.call (Setup.localAddr route))
      orFail "source binding" (← Method.call (Setup.bind socket ⟨address.ip, 0⟩))
      orFail "send timeout configuration" (← Method.call (Setup.setWriteTimeout socket options.timeout))
      return (socket, address.ip)

/-- How `Raw::open` creates its socket. -/
def createSocket (os : TargetOs) (target : IpAddr) : Setup.Kernel String (Except IoError Fd) :=
  match os with
  | .macos _ => macosSocket target fun kind => Method.call (Setup.socket target.isIpv4 kind)
  | _ => Method.call (Setup.socket target.isIpv4 .raw)

/-- `Raw::open` -/
def openRaw (os : TargetOs) (target : IpAddr) (options : Options) : Setup.Kernel String (Fd × IpAddr) := do
  let socket ← orFail "socket creation" (← createSocket os target)
  fromSocket socket target options

end Raw

namespace Ping

/-- The end of the setup of `Ping::open`, once the socket is bound: its identifier, and its error queue. -/
def finish (socket : Fd) (target localAddr : IpAddr) (options : Options) : Setup.Kernel IoError (Ping × IpAddr) := do
  match ← orThrow (← Method.call (Setup.sockName socket)) with
  | none => throw { kind := .other, rawOsError := none, text := "Missing ping socket address" }
  | some name =>
    if name.port = 0 then throw { kind := .other, rawOsError := none, text := "Missing kernel Echo identifier" }
    else do
      orThrow (← Method.call (Setup.setRecvErr socket target.isIpv4))
      orThrow (← Method.call (Setup.setWriteTimeout socket options.timeout))
      return ({ id := name.port, target := target, error := none }, localAddr)

/-- The closure `setup` of `Ping::open`, which owns the socket. -/
def setup (socket : Fd) (target : IpAddr) (options : Options) : Setup.Kernel IoError (Ping × IpAddr) :=
  Method.droppingOnError (.close socket) do
    orThrow (← setTtl socket target options.ttl)
    let route ← orThrow (← Method.call (Setup.udpBind ⟨unspecified target, 0⟩))
    Method.dropping (.close route) do
      orThrow (← Method.call (Setup.connect route ⟨target, 33434⟩))
      let address ← orThrow (← Method.call (Setup.localAddr route))
      orThrow (← Method.call (Setup.bind socket ⟨address.ip, 0⟩))
      finish socket target address.ip options

/-- `Ping::open` -/
def openPing (socket : Fd) (target : IpAddr) (options : Options) : Setup.Kernel String (Ping × IpAddr) :=
  Method.mapError (operationError "Linux ping socket setup") (setup socket target options)

end Ping

/-- `Box<dyn Transport>`: what `open` makes. -/
inductive Socket where
  | raw (fd : Fd)
  | ping (fd : Fd) (ping : Ping)
  deriving DecidableEq

/-- The descriptor of a transport. -/
def Socket.fd : Socket → Fd
  | .raw fd => fd
  | .ping fd _ => fd

/-- `engine::open` -/
def openTransport (os : TargetOs) (target : IpAddr) (options : Options) : Setup.Kernel String (Socket × IpAddr) :=
  match os with
  | .linux => do
    let (socket, ping) ← linuxSocket fun kind => Method.call (Setup.socket target.isIpv4 kind)
    if ping then do
      let (transport, localAddr) ← Ping.openPing socket target options
      return (.ping socket transport, localAddr)
    else do
      let (fd, localAddr) ← Raw.fromSocket socket target options
      return (.raw fd, localAddr)
  | os => do
    let (fd, localAddr) ← Raw.openRaw os target options
    return (.raw fd, localAddr)

end IcmpPing
