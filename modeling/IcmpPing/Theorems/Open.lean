import IcmpPing.Lemmas.Setup

/-!
# Which socket is opened, and how

`open` creates a raw socket first, and a datagram socket only after a permission error and only where the system has one that will
do. A socket that was created is set up or given up, but never exchanged for another. What is handed on is set up completely.
-/

namespace IcmpPing

open Method

namespace Setup

/-! ## What a run tells -/

/-- The exchange tries to create a socket of this kind. -/
def creation : Exchange Setup.Answer → Option (SocketKind × Except IoError Fd)
  | ⟨.socket _ kind, answer⟩ => some (kind, answer)
  | _ => none

/-- The sockets that a run has tried to create, with what came of each. -/
def created (trace : List (Exchange Setup.Answer)) : List (SocketKind × Except IoError Fd) := trace.filterMap creation

@[simp] theorem created_nil : created [] = [] := rfl

@[simp] theorem created_cons_socket {v4 : Bool} {kind : SocketKind} {answer : Except IoError Fd}
    {rest : List (Exchange Setup.Answer)} : created (⟨.socket v4 kind, answer⟩ :: rest) = (kind, answer) :: created rest := rfl

@[simp] theorem created_cons_of_ne {x : Exchange Setup.Answer} {rest : List (Exchange Setup.Answer)}
    (hx : ∀ v4 kind, x.1 ≠ .socket v4 kind) : created (x :: rest) = created rest := by
  obtain ⟨call, answer⟩ := x
  cases call with
  | socket v4 kind => exact absurd rfl (hx v4 kind)
  | _ => rfl

/-- The sockets created by two parts of a run. -/
@[simp] theorem created_append {first second : List (Exchange Setup.Answer)} :
    created (first ++ second) = created first ++ created second := List.filterMap_append

/-- The error that an exchange ends the setup of a socket with. -/
def failure : Exchange Setup.Answer → Option IoError
  | ⟨.udpBind _, .error error⟩ => some error
  | ⟨.setTtlV4 _ _, .error error⟩ | ⟨.setUnicastHopsV6 _ _, .error error⟩ => some error
  | ⟨.connect _ _, .error error⟩ | ⟨.localAddr _, .error error⟩ | ⟨.bind _ _, .error error⟩ => some error
  | ⟨.setRecvErr _ _, .error error⟩ | ⟨.setWriteTimeout _ _, .error error⟩ => some error
  | ⟨.sockName _, .error error⟩ => some error
  | ⟨.sockName _, .ok none⟩ => some { kind := .other, rawOsError := none, text := "Missing ping socket address" }
  | ⟨.sockName _, .ok (some name)⟩ =>
    if name.port = 0 then some { kind := .other, rawOsError := none, text := "Missing kernel Echo identifier" } else none
  | _ => none

/-- The stage that the error of a call is reported with; over a ping socket there is one for all. -/
def stage (ping : Bool) (call : Setup) : String :=
  if ping then "Linux ping socket setup" else match call with
    | .setTtlV4 _ _ | .setUnicastHopsV6 _ _ => "TTL/hop-limit configuration"
    | .udpBind _ => "route socket creation"
    | .connect _ _ => "route selection"
    | .localAddr _ => "source address"
    | .bind _ _ => "source binding"
    | _ => "send timeout configuration"

/-- The text is that of the error of a call, with its stage. -/
def Blames (ping : Bool) (trace : List (Exchange Setup.Answer)) (text : String) : Prop :=
  ∃ x ∈ trace, ∃ error, failure x = some error ∧ text = operationError (stage ping x.1) error

/-- The call that sets the TTL or the hop limit, by the family of the target. -/
def ttlExchange (socket : Fd) (target : IpAddr) (ttl : UInt32) (answer : Except IoError Unit) : Exchange Setup.Answer :=
  if target.isIpv4 then ⟨.setTtlV4 socket ttl, answer⟩ else ⟨.setUnicastHopsV6 socket ttl, answer⟩

/-- The socket is set up: its TTL or hop limit and its send timeout are those of the options, and it is bound to the address that
the route to the target has given. -/
structure Configured (socket : Fd) (target : IpAddr) (options : Options) (localAddr : IpAddr)
    (trace : List (Exchange Setup.Answer)) : Prop where
  ttl : ttlExchange socket target options.ttl (.ok ()) ∈ trace
  route : ∃ route address, ⟨.udpBind ⟨unspecified target, 0⟩, .ok route⟩ ∈ trace ∧ ⟨.connect route ⟨target, 33434⟩, .ok ()⟩ ∈ trace ∧
    ⟨.localAddr route, .ok address⟩ ∈ trace ∧ ⟨.close route, ()⟩ ∈ trace ∧ address.ip = localAddr
  bound : ⟨.bind socket ⟨localAddr, 0⟩, .ok ()⟩ ∈ trace
  timeout : ⟨.setWriteTimeout socket options.timeout, .ok ()⟩ ∈ trace

/-- A ping socket has the identifier that the kernel gave it, which is not zero, and queues errors. -/
structure Identified (socket : Fd) (target : IpAddr) (ping : Ping) (trace : List (Exchange Setup.Answer)) : Prop where
  name : ∃ name, ⟨.sockName socket, .ok (some name)⟩ ∈ trace ∧ ping = { id := name.port, target := target, error := none }
  id_ne : ping.id ≠ 0
  recvErr : ⟨.setRecvErr socket target.isIpv4, .ok ()⟩ ∈ trace

section Mono

variable {socket : Fd} {target : IpAddr} {trace trace' : List (Exchange Setup.Answer)}

/-- A longer run has the same call to blame. -/
theorem Blames.mono {ping : Bool} {text : String} (h : Blames ping trace text) (hsub : trace ⊆ trace') : Blames ping trace' text := by
  obtain ⟨x, hx, hblames⟩ := h
  exact ⟨x, hsub hx, hblames⟩

/-- A socket stays set up as the run goes on. -/
theorem Configured.mono {options : Options} {source : IpAddr} (h : Configured socket target options source trace)
    (hsub : trace ⊆ trace') : Configured socket target options source trace' where
  ttl := hsub h.ttl
  route := by
    obtain ⟨route, address, hbind, hconnect, haddress, hclose, hip⟩ := h.route
    exact ⟨route, address, hsub hbind, hsub hconnect, hsub haddress, hsub hclose, hip⟩
  bound := hsub h.bound
  timeout := hsub h.timeout

/-- A ping socket keeps its identifier as the run goes on. -/
theorem Identified.mono {ping : Ping} (h : Identified socket target ping trace) (hsub : trace ⊆ trace') :
    Identified socket target ping trace' where
  name := by
    obtain ⟨name, hname, hping⟩ := h.name
    exact ⟨name, hsub hname, hping⟩
  id_ne := h.id_ne
  recvErr := hsub h.recvErr

end Mono

/-! ## Setting up -/

/-- What a run that sets up a socket ends with. -/
def SetUp {α : Type} (ping : Bool) (good : α → List (Exchange Setup.Answer) → Prop) (trace : List (Exchange Setup.Answer)) :
    Except String α → Prop
  | .ok value => created trace = [] ∧ good value trace
  | .error text => created trace = [] ∧ Blames ping trace text

/-- Setting the TTL is one call, by the family of the target. -/
theorem ensures_setTtl_bind {ε β : Type} {socket : Fd} {target : IpAddr} {ttl : UInt32} {f : Except IoError Unit → Kernel ε β}
    {post : List (Exchange Setup.Answer) → Except ε β → Prop}
    (hf : ∀ answer, Ensures (f answer) fun rest result => post (ttlExchange socket target ttl answer :: rest) result) :
    Ensures (setTtl socket target ttl >>= f) post := by
  unfold setTtl
  unfold ttlExchange at hf
  split
  · rename_i hv4
    simp only [if_pos hv4] at hf
    exact ensures_call_bind hf
  · rename_i hv4
    simp only [if_neg hv4] at hf
    exact ensures_call_bind hf

section TtlExchange

variable (socket : Fd) (target : IpAddr) (ttl : UInt32) (answer : Except IoError Unit)

/-- Setting the TTL creates no socket. -/
@[simp] theorem ttlExchange_ne_socket (v4 : Bool) (kind : SocketKind) :
    (ttlExchange socket target ttl answer).1 ≠ .socket v4 kind := by
  unfold ttlExchange
  split <;> nofun

/-- An error in setting the TTL ends the setup. -/
@[simp] theorem failure_ttlExchange (error : IoError) : failure (ttlExchange socket target ttl (.error error)) = some error := by
  unfold ttlExchange
  split <;> rfl

/-- The stage of an error in setting the TTL. -/
@[simp] theorem stage_ttlExchange (ping : Bool) : stage ping (ttlExchange socket target ttl answer).1 =
    if ping then "Linux ping socket setup" else "TTL/hop-limit configuration" := by
  unfold ttlExchange
  split <;> rfl

end TtlExchange

/-- A result is passed on, or its error ends the method. -/
theorem ensures_orFail_bind {α β : Type} {stage : String} {result : Except IoError α} {f : α → Kernel String β}
    {post : List (Exchange Setup.Answer) → Except String β → Prop}
    (herror : ∀ error, result = .error error → post [] (.error (operationError stage error)))
    (hok : ∀ value, result = .ok value → Ensures (f value) post) : Ensures (orFail stage result >>= f) post := by
  cases result with
  | ok value => exact hok value rfl
  | error error => exact ensures_throw (herror error rfl)

/-- A result is passed on, or its error ends the method as it is. -/
theorem ensures_orThrow_bind {α β : Type} {result : Except IoError α} {f : α → Kernel IoError β}
    {post : List (Exchange Setup.Answer) → Except IoError β → Prop} (herror : ∀ error, result = .error error → post [] (.error error))
    (hok : ∀ value, result = .ok value → Ensures (f value) post) : Ensures (orThrow result >>= f) post := by
  cases result with
  | ok value => exact hok value rfl
  | error error => exact ensures_throw (herror error rfl)

/-- A raw socket is set up, or a call is to blame. -/
theorem setUp_fromSocket (socket : Fd) (target : IpAddr) (options : Options) :
    Ensures (Raw.fromSocket socket target options)
      (SetUp false fun value trace => value.1 = socket ∧ Configured socket target options value.2 trace) := by
  refine ensures_droppingOnError (ensures_setTtl_bind fun answer => ensures_orFail_bind ?_ ?_)
  · rintro error rfl
    simp [SetUp, Blames]
  rintro _ rfl
  refine ensures_call_bind fun answer => ensures_orFail_bind ?_ ?_
  · rintro error rfl
    simp [SetUp, Blames, failure, stage]
  rintro route rfl
  refine ensures_dropping (ensures_call_bind fun answer => ensures_orFail_bind ?_ ?_)
  · rintro error rfl
    simp [SetUp, Blames, failure, stage]
  rintro _ rfl
  refine ensures_call_bind fun answer => ensures_orFail_bind ?_ ?_
  · rintro error rfl
    simp [SetUp, Blames, failure, stage]
  rintro address rfl
  refine ensures_call_bind fun answer => ensures_orFail_bind ?_ ?_
  · rintro error rfl
    simp [SetUp, Blames, failure, stage]
  rintro _ rfl
  refine ensures_call_bind fun answer => ensures_orFail_bind ?_ ?_
  · rintro error rfl
    simp [SetUp, Blames, failure, stage]
  rintro _ rfl
  refine ensures_pure fun _ => ⟨by simp, rfl, ?_⟩
  exact ⟨by simp, ⟨route, address, by simp⟩, by simp, by simp⟩

/-- The end of the setup of a ping socket. -/
theorem ensures_finish (socket : Fd) (target localAddr : IpAddr) (options : Options) :
    Ensures (Ping.finish socket target localAddr options) fun trace result => created trace = [] ∧ match result with
      | .ok value => value.2 = localAddr ∧ ⟨.setWriteTimeout socket options.timeout, .ok ()⟩ ∈ trace ∧
        Identified socket target value.1 trace
      | .error error => ∃ x ∈ trace, failure x = some error := by
  refine ensures_call_bind fun answer => ensures_orThrow_bind ?_ ?_
  · rintro error rfl
    simp [failure]
  rintro name rfl
  cases name with
  | none => exact ensures_throw (by simp [failure])
  | some name =>
    simp only
    split
    · rename_i hport
      exact ensures_throw (by simp [failure, hport])
    · rename_i hport
      refine ensures_call_bind fun answer => ensures_orThrow_bind ?_ ?_
      · rintro error rfl
        simp [failure]
      rintro _ rfl
      refine ensures_call_bind fun answer => ensures_orThrow_bind ?_ ?_
      · rintro error rfl
        simp [failure]
      rintro _ rfl
      exact ensures_pure ⟨by simp, rfl, by simp, ⟨name, by simp, rfl⟩, hport, by simp⟩

/-- A ping socket is set up and has its identifier, or a call has failed. -/
theorem ensures_setup (socket : Fd) (target : IpAddr) (options : Options) :
    Ensures (Ping.setup socket target options) fun trace result => created trace = [] ∧ match result with
      | .ok value => Configured socket target options value.2 trace ∧ Identified socket target value.1 trace
      | .error error => ∃ x ∈ trace, failure x = some error := by
  refine ensures_droppingOnError (ensures_setTtl_bind fun answer => ensures_orThrow_bind ?_ ?_)
  · rintro error rfl
    simp
  rintro _ rfl
  refine ensures_call_bind fun answer => ensures_orThrow_bind ?_ ?_
  · rintro error rfl
    simp [failure]
  rintro route rfl
  refine ensures_dropping (ensures_call_bind fun answer => ensures_orThrow_bind ?_ ?_)
  · rintro error rfl
    simp [failure]
  rintro _ rfl
  refine ensures_call_bind fun answer => ensures_orThrow_bind ?_ ?_
  · rintro error rfl
    simp [failure]
  rintro address rfl
  refine ensures_call_bind fun answer => ensures_orThrow_bind ?_ ?_
  · rintro error rfl
    simp [failure]
  rintro _ rfl
  refine ensures_mono (ensures_finish socket target address.ip options) ?_
  rintro trace result ⟨hcreated, hresult⟩ _
  cases result with
  | ok value =>
    obtain ⟨haddr, htimeout, hidentified⟩ := hresult
    refine ⟨by simp [hcreated], ⟨by simp, ⟨route, address, by simp [haddr]⟩, by simp [haddr], by simp [htimeout]⟩, ?_⟩
    exact hidentified.mono fun x hx => by simp [hx]
  | error error =>
    obtain ⟨x, hx, hfailure⟩ := hresult
    exact fun _ => ⟨by simp [hcreated], x, by simp [hx], hfailure⟩

/-- A ping socket is set up and has its identifier, or a call is to blame. -/
theorem setUp_openPing (socket : Fd) (target : IpAddr) (options : Options) :
    Ensures (Ping.openPing socket target options)
      (SetUp true fun value trace => Configured socket target options value.2 trace ∧ Identified socket target value.1 trace) := by
  refine ensures_mapError (ensures_mono (ensures_setup socket target options) ?_)
  rintro trace result ⟨hcreated, hresult⟩
  cases result with
  | ok value => exact ⟨hcreated, hresult⟩
  | error error =>
    obtain ⟨x, hx, hfailure⟩ := hresult
    exact ⟨hcreated, x, hx, error, hfailure, rfl⟩

/-! ## The policy -/

/-- A permission error after which a datagram socket is tried: on Linux, and on macOS for IPv4. -/
def FallsBack (os : TargetOs) (target : IpAddr) (denied : IoError) : Prop :=
  denied.kind = .permissionDenied ∧ match os with
    | .linux => True
    | .macos _ => target.isIpv4 = true
    | .windows => False

/-- The sockets that may be tried to be created, and the last of them. -/
inductive Attempts (os : TargetOs) (target : IpAddr) :
    List (SocketKind × Except IoError Fd) → SocketKind → Except IoError Fd → Prop
  | once {answer : Except IoError Fd} (hanswer : ∀ error, answer = .error error → ¬FallsBack os target error) :
    Attempts os target [(.raw, answer)] .raw answer
  | twice {denied : IoError} {answer : Except IoError Fd} (hdenied : FallsBack os target denied) :
    Attempts os target [(.raw, .error denied), (.dgram, answer)] .dgram answer

/-- The text when no socket could be created. -/
def refusal (os : TargetOs) : List (SocketKind × Except IoError Fd) → Option String
  | [(_, .error raw)] => some (operationError "socket creation" raw)
  | [(_, .error raw), (_, .error fallback)] => some (if os = .linux then
      "ICMP raw socket creation denied (" ++ raw.text ++ "); Linux ICMP ping socket creation failed (" ++ fallback.text ++
        "); inspect /proc/sys/net/ipv4/ping_group_range and permit a service group, or grant CAP_NET_RAW/root for raw ICMP"
    else operationError "socket creation" fallback)
  | _ => none

/-- What `open` may end with, by the sockets that it has tried to create: the transport of the last one, set up, or the text of a
refusal, or that of an error in the setup of the last one. -/
def Policy (os : TargetOs) (target : IpAddr) (options : Options) (trace : List (Exchange Setup.Answer))
    (result : Except String (Socket × IpAddr)) : Prop :=
  ∃ kind answer, Attempts os target (created trace) kind answer ∧ match result with
    | .ok (.raw fd, source) => answer = .ok fd ∧ ¬(os = .linux ∧ kind = .dgram) ∧ Configured fd target options source trace
    | .ok (.ping fd ping, source) => answer = .ok fd ∧ os = .linux ∧ kind = .dgram ∧
      Configured fd target options source trace ∧ Identified fd target ping trace
    | .error text => refusal os (created trace) = some text ∨
      ∃ fd, answer = .ok fd ∧ Blames (os = .linux ∧ kind = .dgram) trace text

/-- On Linux the sockets are tried in their order. -/
theorem ensures_linuxSocket (target : IpAddr) :
    Ensures (linuxSocket fun kind => Method.call (Setup.socket target.isIpv4 kind)) fun trace result => match result with
      | .ok (fd, ping) => Attempts .linux target (created trace) (if ping then .dgram else .raw) (.ok fd)
      | .error text => (∃ kind answer, Attempts .linux target (created trace) kind answer) ∧
        refusal .linux (created trace) = some text := by
  refine ensures_call_bind fun answer => ?_
  cases answer with
  | ok fd => exact ensures_pure (.once nofun)
  | error raw =>
    simp only
    split
    · rename_i hdenied
      refine ensures_call_bind fun answer => ?_
      cases answer with
      | ok fd => exact ensures_pure (.twice ⟨hdenied, trivial⟩)
      | error fallback => exact ensures_throw ⟨⟨_, _, .twice ⟨hdenied, trivial⟩⟩, rfl⟩
    · rename_i hdenied
      refine ensures_throw ⟨⟨_, _, .once ?_⟩, rfl⟩
      intro error heq hfalls
      cases heq
      exact hdenied hfalls.1

/-- On the other systems the sockets are tried in their order. -/
theorem ensures_createSocket (os : TargetOs) (target : IpAddr) (hos : os ≠ .linux) :
    Ensures (Raw.createSocket os target) fun trace result => match result with
      | .ok answer => ∃ kind, Attempts os target (created trace) kind answer
      | .error _ => False := by
  cases os with
  | linux => exact absurd rfl hos
  | windows => exact ensures_call fun answer => ⟨_, .once fun error _ h => h.2⟩
  | macos order =>
    refine ensures_call_bind fun answer => ?_
    cases answer with
    | ok fd => exact ensures_pure ⟨_, .once nofun⟩
    | error error =>
      simp only
      split
      · rename_i hdenied
        exact ensures_call fun answer => ⟨_, .twice ⟨hdenied.2, hdenied.1⟩⟩
      · rename_i hdenied
        refine ensures_pure ⟨_, .once ?_⟩
        intro error heq hfalls
        cases heq
        exact hdenied ⟨hfalls.2, hfalls.1⟩

/-- On the other systems the text of a refusal is that of the last error. -/
theorem refusal_of_attempts {os : TargetOs} {target : IpAddr} {attempts : List (SocketKind × Except IoError Fd)} {kind : SocketKind}
    {error : IoError} (hos : os ≠ .linux) (h : Attempts os target attempts kind (.error error)) :
    refusal os attempts = some (operationError "socket creation" error) := by
  cases h with
  | once _ => rfl
  | twice _ => rw [refusal, if_neg hos]

/-- A transport over a raw socket. -/
def overRaw (value : Fd × IpAddr) : Socket × IpAddr := (.raw value.1, value.2)

/-- A raw socket is wrapped as a transport. -/
theorem ensures_overRaw {m : Kernel String (Fd × IpAddr)} {post : List (Exchange Setup.Answer) → Except String (Socket × IpAddr) → Prop}
    (h : Ensures m fun trace result => post trace (result.map overRaw)) : Ensures (m >>= fun value => pure (overRaw value)) post := by
  refine ensures_bind (ensures_mono h ?_)
  rintro trace (text | value) hpost
  · exact hpost
  · refine ensures_pure ?_
    rwa [List.append_nil]

/-- A raw socket that was created is set up as the policy says. -/
theorem policy_raw {os : TargetOs} {target : IpAddr} {options : Options} {before : List (Exchange Setup.Answer)} {kind : SocketKind}
    {fd : Fd} (hattempts : Attempts os target (created before) kind (.ok fd)) (hkind : ¬(os = .linux ∧ kind = .dgram)) :
    Ensures (Raw.fromSocket fd target options) fun trace result => Policy os target options (before ++ trace) (result.map overRaw) := by
  refine ensures_mono (setUp_fromSocket fd target options) ?_
  intro trace result h
  have hcreated : created (before ++ trace) = created before := by
    cases result <;> rw [created_append, h.1, List.append_nil]
  have hsub := List.subset_append_right before trace
  cases result with
  | ok value =>
    obtain ⟨fd', source⟩ := value
    obtain ⟨-, rfl, hconfigured⟩ := h
    exact ⟨kind, .ok fd', by rwa [hcreated], rfl, hkind, hconfigured.mono hsub⟩
  | error text =>
    refine ⟨kind, .ok fd, by rwa [hcreated], Or.inr ⟨fd, rfl, ?_⟩⟩
    rw [decide_eq_false hkind]
    exact h.2.mono hsub

/-- The other systems open as the policy says. -/
theorem policy_openRaw (os : TargetOs) (hos : os ≠ .linux) (target : IpAddr) (options : Options) :
    Ensures (Raw.openRaw os target options) fun trace result => Policy os target options trace (result.map overRaw) := by
  refine ensures_bind (ensures_mono (ensures_createSocket os target hos) ?_)
  rintro trace (text | error | fd) h
  · exact h.elim
  · obtain ⟨kind, hattempts⟩ := h
    refine ensures_throw ⟨kind, .error error, ?_⟩
    rw [List.append_nil]
    exact ⟨hattempts, Or.inl (refusal_of_attempts hos hattempts)⟩
  · obtain ⟨kind, hattempts⟩ := h
    exact policy_raw hattempts fun h => hos h.1

/-- A ping socket that was created is set up as the policy says. -/
theorem policy_ping {target : IpAddr} {options : Options} {before : List (Exchange Setup.Answer)} {fd : Fd}
    (hattempts : Attempts .linux target (created before) .dgram (.ok fd)) :
    Ensures (Ping.openPing fd target options >>= fun value => pure (Socket.ping fd value.1, value.2)) fun trace result =>
      Policy .linux target options (before ++ trace) result := by
  refine ensures_bind (ensures_mono (setUp_openPing fd target options) ?_)
  intro trace result h
  have hcreated : created (before ++ trace) = created before := by
    cases result <;> rw [created_append, h.1, List.append_nil]
  have hsub := List.subset_append_right before trace
  cases result with
  | ok value =>
    refine ensures_pure ⟨.dgram, .ok fd, ?_⟩
    rw [List.append_nil, hcreated]
    exact ⟨hattempts, rfl, rfl, rfl, h.2.1.mono hsub, h.2.2.mono hsub⟩
  | error text =>
    refine ⟨.dgram, .ok fd, by rwa [hcreated], Or.inr ⟨fd, rfl, ?_⟩⟩
    rw [decide_eq_true ⟨rfl, rfl⟩]
    exact h.2.mono hsub

/-- Every system opens as the policy says. -/
theorem ensures_policy (os : TargetOs) (target : IpAddr) (options : Options) :
    Ensures (openTransport os target options) (Policy os target options) := by
  cases os with
  | macos order => exact ensures_overRaw (policy_openRaw (.macos order) nofun target options)
  | windows => exact ensures_overRaw (policy_openRaw .windows nofun target options)
  | linux =>
    refine ensures_bind (ensures_mono (ensures_linuxSocket target) ?_)
    rintro trace (text | ⟨fd, ping⟩) h
    · obtain ⟨⟨kind, answer, hattempts⟩, hrefusal⟩ := h
      exact ⟨kind, answer, hattempts, Or.inl hrefusal⟩
    · cases ping with
      | true => exact policy_ping h
      | false => exact ensures_overRaw (policy_raw h nofun)

/-- However `open` runs, it creates its sockets and ends by this policy. -/
theorem open_policy (os : TargetOs) (target : IpAddr) (options : Options) (s s' : Unit) (trace : List (Exchange Setup.Answer))
    (result : Except String (Socket × IpAddr)) (hrun : (openTransport os target options).Runs s trace result s') :
    Policy os target options trace result :=
  ensures_policy os target options s trace result s' hrun

/-- The target 192.0.2.1. -/
def sampleHost : IpAddr := .v4 ⟨192, 0, 2, 1⟩

/-- A process without privileges opens a ping socket on Linux: raw sockets are denied, and the kernel assigns an identifier. -/
def sampleOpening : List (Exchange Setup.Answer) :=
  [⟨.socket true .raw, .error { kind := .permissionDenied, rawOsError := some 1, text := "Operation not permitted" }⟩,
    ⟨.socket true .dgram, .ok 3⟩, ⟨.setTtlV4 3 64, .ok ()⟩, ⟨.udpBind ⟨.v4 ⟨0, 0, 0, 0⟩, 0⟩, .ok 4⟩,
    ⟨.connect 4 ⟨sampleHost, 33434⟩, .ok ()⟩, ⟨.localAddr 4, .ok ⟨.v4 ⟨192, 0, 2, 9⟩, 40000⟩⟩,
    ⟨.bind 3 ⟨.v4 ⟨192, 0, 2, 9⟩, 0⟩, .ok ()⟩, ⟨.sockName 3, .ok (some ⟨.v4 ⟨192, 0, 2, 9⟩, 4660⟩)⟩, ⟨.setRecvErr 3 true, .ok ()⟩,
    ⟨.setWriteTimeout 3 Options.default.timeout, .ok ()⟩, ⟨.close 4, ()⟩]

/-- A run that falls back to a ping socket. -/
theorem runs_sampleOpening : (openTransport .linux sampleHost .default).Runs () sampleOpening
    (.ok (.ping 3 { id := 4660, target := sampleHost, error := none }, .v4 ⟨192, 0, 2, 9⟩)) () :=
  ⟨_, _, rfl, _, _, rfl, _, _, rfl, _, _, rfl, _, _, rfl, _, _, rfl, _, _, rfl, _, _, rfl, _, _, rfl, _, _, rfl, _, _, rfl, rfl, rfl⟩

theorem open_policy_sample : Policy .linux sampleHost .default sampleOpening
    (.ok (.ping 3 { id := 4660, target := sampleHost, error := none }, .v4 ⟨192, 0, 2, 9⟩)) :=
  open_policy .linux sampleHost .default () () _ _ runs_sampleOpening

end Setup

end IcmpPing
