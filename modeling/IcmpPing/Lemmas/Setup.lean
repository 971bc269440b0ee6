import IcmpPing.Setup

/-!
# Descriptors while a socket is opened

What `open` holds: a socket, and the route socket besides for a while. It makes its calls with descriptors that it holds, closes each
once, and ends with the socket of its transport alone, or with none when it fails.
-/

namespace IcmpPing

open Method

namespace Setup

theorem card_singleton_le (socket : Fd) : ({socket} : Finset Fd).card ≤ 2 := (Finset.card_singleton socket).trans_le (by decide)

/-- The method starts and ends with these descriptors. -/
def Steady {ε α : Type} (held : Finset Fd) (m : Kernel ε α) (P : α → Prop) : Prop :=
  Owns handling 2 held m fun result held' => held' = held ∧ ∀ value, result = .ok value → P value

section Steady

variable {ε α β : Type} {held : Finset Fd} {P : β → Prop}

/-- A method that returns at once holds what it held. -/
theorem steady_pure {value : β} (h : P value) : Steady held (pure value : Kernel ε β) P := by
  refine owns_pure ⟨rfl, fun value' heq => ?_⟩
  cases heq
  exact h

/-- A method that fails at once holds what it held. -/
theorem steady_throw (error : ε) : Steady held (throw error : Kernel ε β) P :=
  owns_throw ⟨rfl, nofun⟩

/-- A call on a descriptor that is held. -/
theorem steady_use_bind {c : Setup} {f : Setup.Answer c → Kernel ε β} (hcard : held.card ≤ 2) (huses : handling.uses c ⊆ held)
    (hgives : handling.gives c = ∅) (hhands : ∀ answer, handling.hands ⟨c, answer⟩ = ∅) (hf : ∀ answer, Steady held (f answer) P) :
    Steady held (Method.call c >>= f) P := owns_use_bind hcard huses hgives hhands hf

/-- Setting the TTL of a socket that is held opens and closes nothing. -/
theorem steady_setTtl_bind {socket : Fd} {target : IpAddr} {ttl : UInt32} {f : Except IoError Unit → Kernel ε β}
    (hcard : held.card ≤ 2) (hsocket : socket ∈ held) (hf : ∀ answer, Steady held (f answer) P) :
    Steady held (setTtl socket target ttl >>= f) P := by
  have huses : {socket} ⊆ held := Finset.singleton_subset_iff.2 hsocket
  unfold setTtl
  split
  · exact steady_use_bind hcard huses rfl (fun _ => rfl) hf
  · exact steady_use_bind hcard huses rfl (fun _ => rfl) hf

/-- The check hands a result on, or ends the method with its error. -/
def Passes (check : Except IoError α → Kernel ε α) : Prop :=
  (∀ value, check (.ok value) = pure value) ∧ ∀ error, ∃ error', check (.error error) = throw error'

/-- A check with a stage hands a result on, or fails. -/
theorem passes_orFail (stage : String) : Passes (orFail (α := α) stage) := ⟨fun _ => rfl, fun _ => ⟨_, rfl⟩⟩

/-- A check without a stage hands a result on, or fails. -/
theorem passes_orThrow : Passes (orThrow (α := α)) := ⟨fun _ => rfl, fun error => ⟨error, rfl⟩⟩

/-- A check opens and closes nothing. -/
theorem steady_check_bind {check : Except IoError α → Kernel ε α} (hcheck : Passes check) {f : α → Kernel ε β}
    (hf : ∀ value, Steady held (f value) P) (result : Except IoError α) : Steady held (check result >>= f) P := by
  cases result with
  | ok value =>
    rw [hcheck.1]
    exact hf value
  | error error =>
    obtain ⟨error', herror⟩ := hcheck.2 error
    rw [herror]
    exact steady_throw error'

/-- The route socket is held besides the socket, for as long as the inner method runs. -/
theorem steady_route {socket : Fd} {address : SocketAddr} {check : Except IoError Fd → Kernel ε Fd} (hcheck : Passes check)
    {inner : Fd → Kernel ε β} (hinner : ∀ route, route ≠ socket → Steady {socket, route} (inner route) P) :
    Steady {socket} (Method.call (udpBind address) >>= fun answer => check answer >>= fun route => dropping (.close route) (inner route))
      P := by
  refine owns_call_bind (Finset.empty_subset _) (Finset.empty_subset _) fun answer hfresh => ?_
  cases answer with
  | error error =>
    obtain ⟨error', herror⟩ := hcheck.2 error
    rw [handling.after_of_quiet rfl rfl, herror]
    exact ⟨card_singleton_le socket, steady_throw error'⟩
  | ok route =>
    have hne : route ≠ socket := Finset.disjoint_singleton.1 hfresh
    have hheld : handling.after {socket} ⟨.udpBind address, .ok route⟩ = {socket, route} := by
      rw [Handling.after]
      exact congrArg (· ∪ {route}) Finset.sdiff_empty
    have hrest : ({socket, route} : Finset Fd) \ {route} = {socket} := by
      ext fd
      simp only [Finset.mem_sdiff, Finset.mem_insert, Finset.mem_singleton]
      constructor
      · rintro ⟨rfl | rfl, hfd⟩
        · rfl
        · exact absurd rfl hfd
      · rintro rfl
        exact ⟨Or.inl rfl, hne.symm⟩
    have hcard : ({socket, route} : Finset Fd).card ≤ 2 := Finset.card_le_two
    have hmem : {route} ⊆ ({socket, route} : Finset Fd) := Finset.singleton_subset_iff.2 (by simp)
    rw [hheld, hcheck.1]
    refine ⟨hcard, owns_dropping hcard (fun _ => rfl) (owns_mono (hinner route hne) fun result held' h => ?_)⟩
    obtain ⟨rfl, hvalue⟩ := h
    exact ⟨hmem, hmem, hrest, hvalue⟩

/-- A method that owns a socket closes it when it fails. -/
theorem owns_closingOnError {socket : Fd} {m : Kernel ε β} (h : Steady {socket} m P) :
    Owns handling 2 {socket} (droppingOnError (.close socket) m) fun result held' => match result with
      | .ok value => held' = {socket} ∧ P value
      | .error _ => held' = ∅ := by
  refine owns_droppingOnError (card_singleton_le socket) (fun _ => rfl) (owns_mono h fun result held' hresult => ?_)
  obtain ⟨rfl, hvalue⟩ := hresult
  cases result with
  | ok value => exact ⟨rfl, hvalue value rfl⟩
  | error error => exact ⟨Finset.Subset.refl _, Finset.Subset.refl _, Finset.sdiff_self _⟩

end Steady

/-! ## The functions of the source -/

/-- What is held when a socket has been set up, or not. -/
def Handed {ε α : Type} (fd : α → Fd) : Except ε α → Finset Fd → Prop
  | .ok value, held => held = {fd value}
  | .error _, held => held = ∅

/-- A call on the socket or on the route socket, while both are held. -/
theorem steady_pair_bind {ε β : Type} {P : β → Prop} {socket route : Fd} {c : Setup} {f : Setup.Answer c → Kernel ε β}
    (huses : handling.uses c = {socket} ∨ handling.uses c = {route}) (hgives : handling.gives c = ∅)
    (hhands : ∀ answer, handling.hands ⟨c, answer⟩ = ∅) (hf : ∀ answer, Steady {socket, route} (f answer) P) :
    Steady {socket, route} (Method.call c >>= f) P := by
  refine steady_use_bind Finset.card_le_two ?_ hgives hhands hf
  rcases huses with huses | huses <;> rw [huses, Finset.singleton_subset_iff] <;> simp

/-- Setting up a raw socket keeps the socket, or closes it. -/
theorem owns_fromSocket (socket : Fd) (target : IpAddr) (options : Options) :
    Owns handling 2 {socket} (Raw.fromSocket socket target options) (Handed Prod.fst) := by
  have hsocket : socket ∈ ({socket} : Finset Fd) := Finset.mem_singleton_self socket
  refine owns_mono (owns_closingOnError (P := fun value => value.1 = socket) ?_) fun result held' h => ?_
  · refine steady_setTtl_bind (card_singleton_le socket) hsocket (steady_check_bind (passes_orFail _) fun _ => ?_)
    refine steady_route (passes_orFail _) fun route hne => ?_
    refine steady_pair_bind (Or.inr rfl) rfl (fun _ => rfl) (steady_check_bind (passes_orFail _) fun _ => ?_)
    refine steady_pair_bind (Or.inr rfl) rfl (fun _ => rfl) (steady_check_bind (passes_orFail _) fun address => ?_)
    refine steady_pair_bind (Or.inl rfl) rfl (fun _ => rfl) (steady_check_bind (passes_orFail _) fun _ => ?_)
    refine steady_pair_bind (Or.inl rfl) rfl (fun _ => rfl) (steady_check_bind (passes_orFail _) fun _ => ?_)
    exact steady_pure rfl
  · cases result with
    | ok value => rw [Handed, h.2, h.1]
    | error error => exact h

/-- The last calls of the setup of a ping socket open and close nothing. -/
theorem steady_finish {socket route : Fd} (target localAddr : IpAddr) (options : Options) :
    Steady {socket, route} (Ping.finish socket target localAddr options) fun _ => True := by
  refine steady_pair_bind (Or.inl rfl) rfl (fun _ => rfl) (steady_check_bind passes_orThrow fun name => ?_)
  cases name with
  | none => exact steady_throw _
  | some name =>
    simp only
    split
    · exact steady_throw _
    · refine steady_pair_bind (Or.inl rfl) rfl (fun _ => rfl) (steady_check_bind passes_orThrow fun _ => ?_)
      refine steady_pair_bind (Or.inl rfl) rfl (fun _ => rfl) (steady_check_bind passes_orThrow fun _ => ?_)
      exact steady_pure trivial

/-- Setting up a ping socket keeps the socket, or closes it. -/
theorem owns_openPing (socket : Fd) (target : IpAddr) (options : Options) :
    Owns handling 2 {socket} (Ping.openPing socket target options) (Handed fun _ => socket) := by
  have hsocket : socket ∈ ({socket} : Finset Fd) := Finset.mem_singleton_self socket
  refine owns_mapError (owns_mono (owns_closingOnError (P := fun _ => True) ?_) fun result held' h => ?_)
  · refine steady_setTtl_bind (card_singleton_le socket) hsocket (steady_check_bind passes_orThrow fun _ => ?_)
    refine steady_route passes_orThrow fun route hne => ?_
    refine steady_pair_bind (Or.inr rfl) rfl (fun _ => rfl) (steady_check_bind passes_orThrow fun _ => ?_)
    refine steady_pair_bind (Or.inr rfl) rfl (fun _ => rfl) (steady_check_bind passes_orThrow fun address => ?_)
    refine steady_pair_bind (Or.inl rfl) rfl (fun _ => rfl) (steady_check_bind passes_orThrow fun _ => ?_)
    exact steady_finish target address.ip options
  · cases result with
    | ok value => exact h.1
    | error error => exact h

/-- Creating a socket hands out one, or none. -/
theorem owns_create_bind {ε β : Type} {v4 : Bool} {kind : SocketKind} {f : Except IoError Fd → Kernel ε β}
    {post : Except ε β → Finset Fd → Prop} (herror : ∀ error, Owns handling 2 ∅ (f (.error error)) post)
    (hok : ∀ fd, Owns handling 2 {fd} (f (.ok fd)) post) : Owns handling 2 ∅ (Method.call (Setup.socket v4 kind) >>= f) post := by
  refine owns_call_bind (Finset.empty_subset _) (Finset.empty_subset _) fun answer _ => ?_
  cases answer with
  | error error => exact ⟨Nat.zero_le _, herror error⟩
  | ok fd => exact ⟨card_singleton_le fd, hok fd⟩

/-- On Linux the socket that was created is held, and nothing else. -/
theorem owns_linuxSocket (v4 : Bool) :
    Owns handling 2 ∅ (linuxSocket fun kind => Method.call (Setup.socket v4 kind)) (Handed Prod.fst) := by
  refine owns_create_bind (fun raw => ?_) fun fd => owns_pure rfl
  simp only
  split
  · refine owns_create_bind (fun fallback => owns_throw rfl) fun fd => owns_pure rfl
  · exact owns_throw rfl

/-- What is held once a socket may have been created. -/
def Created : Except String (Except IoError Fd) → Finset Fd → Prop
  | .ok (.ok fd), held => held = {fd}
  | _, held => held = ∅

/-- On the other systems the socket that was created is held, and nothing else. -/
theorem owns_createSocket (os : TargetOs) (target : IpAddr) : Owns handling 2 ∅ (Raw.createSocket os target) Created := by
  have hcall : ∀ kind, Owns handling 2 ∅ (Method.call (Setup.socket target.isIpv4 kind) : Kernel String (Except IoError Fd)) Created := by
    intro kind s
    refine ⟨Finset.empty_subset _, Finset.empty_subset _, fun answer _ => ?_⟩
    cases answer with
    | error error => exact ⟨Nat.zero_le _, rfl⟩
    | ok fd => exact ⟨card_singleton_le fd, rfl⟩
  cases os with
  | macos order =>
    refine owns_create_bind (fun error => ?_) fun fd => owns_pure rfl
    simp only
    split
    · exact hcall .dgram
    · exact owns_pure rfl
  | linux => exact hcall .raw
  | windows => exact hcall .raw

/-- On the other systems `open` holds its socket, or nothing. -/
theorem owns_openRaw (os : TargetOs) (target : IpAddr) (options : Options) :
    Owns handling 2 ∅ (Raw.openRaw os target options) (Handed Prod.fst) := by
  refine owns_bind (owns_mono (owns_createSocket os target) fun result held' h => ?_)
  rcases result with error | error | fd
  · exact h
  · obtain rfl : held' = ∅ := h
    exact owns_throw rfl
  · obtain rfl : held' = {fd} := h
    exact owns_fromSocket fd target options

/-- `open` ends with the descriptor of its transport alone, or with none. -/
theorem owns_openTransport (os : TargetOs) (target : IpAddr) (options : Options) :
    Owns handling 2 ∅ (openTransport os target options) (Handed fun value => value.1.fd) := by
  have hraw : ∀ {held} {m : Kernel String (Fd × IpAddr)}, Owns handling 2 held m (Handed Prod.fst) →
      Owns handling 2 held (m >>= fun value => pure (Socket.raw value.1, value.2)) (Handed fun value => value.1.fd) := by
    intro held m hm
    refine owns_bind (owns_mono hm fun result held' h => ?_)
    cases result with
    | error error => exact h
    | ok value => exact owns_pure h
  cases os with
  | macos order => exact hraw (owns_openRaw (.macos order) target options)
  | windows => exact hraw (owns_openRaw .windows target options)
  | linux =>
    refine owns_bind (owns_mono (owns_linuxSocket target.isIpv4) fun result held' h => ?_)
    cases result with
    | error error => exact h
    | ok value =>
      obtain ⟨socket, ping⟩ := value
      obtain rfl : held' = {socket} := h
      cases ping with
      | false => exact hraw (owns_fromSocket socket target options)
      | true =>
        refine owns_bind (owns_mono (owns_openPing socket target options) fun result held' h => ?_)
        cases result with
        | error error => exact h
        | ok value => exact owns_pure h

/-! ## Where the calls aim, and how many there are -/

/-- The call is made for this target: it is of its family, and connects to it alone. -/
def Aims (target : IpAddr) : Setup → Prop
  | .socket v4 _ => v4 = target.isIpv4
  | .setTtlV4 _ _ => target.isIpv4 = true
  | .setUnicastHopsV6 _ _ => target.isIpv4 = false
  | .udpBind address => address = ⟨unspecified target, 0⟩
  | .connect _ address => address.ip = target
  | .setRecvErr _ v4 => v4 = target.isIpv4
  | .localAddr _ | .bind _ _ | .sockName _ | .setWriteTimeout _ _ | .close _ => True

section Aims

variable {ε α β : Type} {target : IpAddr} {n : Nat}

/-- A check makes no call. -/
theorem within_check_bind {check : Except IoError α → Kernel ε α} (hcheck : Passes check) {f : α → Kernel ε β}
    (hf : ∀ value, Within (Aims target) (f value) n) (result : Except IoError α) : Within (Aims target) (check result >>= f) n := by
  cases result with
  | ok value =>
    rw [hcheck.1]
    exact hf value
  | error error =>
    obtain ⟨error', herror⟩ := hcheck.2 error
    rw [herror]
    exact within_throw error'

/-- Setting the TTL is one call. -/
theorem within_setTtl_bind {socket : Fd} {ttl : UInt32} {f : Except IoError Unit → Kernel ε β}
    (hf : ∀ answer, Within (Aims target) (f answer) n) : Within (Aims target) (setTtl socket target ttl >>= f) (n + 1) := by
  unfold setTtl
  split
  · rename_i hv4
    exact within_call_bind hv4 hf
  · rename_i hv6
    exact within_call_bind (Bool.eq_false_iff.2 hv6) hf

end Aims

/-- Setting up a raw socket takes eight calls at most. -/
theorem within_fromSocket (socket : Fd) (target : IpAddr) (options : Options) :
    Within (Aims target) (Raw.fromSocket socket target options) 8 := by
  refine within_droppingOnError trivial (within_setTtl_bind (within_check_bind (passes_orFail _) fun _ => ?_))
  refine within_call_bind rfl (within_check_bind (passes_orFail _) fun route => within_dropping trivial ?_)
  refine within_call_bind rfl (within_check_bind (passes_orFail _) fun _ => ?_)
  refine within_call_bind trivial (within_check_bind (passes_orFail _) fun address => ?_)
  refine within_call_bind trivial (within_check_bind (passes_orFail _) fun _ => ?_)
  refine within_call_bind trivial (within_check_bind (passes_orFail _) fun _ => ?_)
  exact within_pure _

/-- The setup of a ping socket ends with three calls at most. -/
theorem within_finish (socket : Fd) (target localAddr : IpAddr) (options : Options) :
    Within (Aims target) (Ping.finish socket target localAddr options) 3 := by
  refine within_call_bind trivial (within_check_bind passes_orThrow fun name => ?_)
  cases name with
  | none => exact within_throw _
  | some name =>
    refine within_ite (within_throw _) ?_
    refine within_call_bind rfl (within_check_bind passes_orThrow fun _ => ?_)
    refine within_call_bind trivial (within_check_bind passes_orThrow fun _ => ?_)
    exact within_pure _

/-- Setting up a ping socket takes ten calls at most. -/
theorem within_openPing (socket : Fd) (target : IpAddr) (options : Options) :
    Within (Aims target) (Ping.openPing socket target options) 10 := by
  refine within_mapError (within_droppingOnError trivial (within_setTtl_bind (within_check_bind passes_orThrow fun _ => ?_)))
  refine within_call_bind rfl (within_check_bind passes_orThrow fun route => within_dropping trivial ?_)
  refine within_call_bind rfl (within_check_bind passes_orThrow fun _ => ?_)
  refine within_call_bind trivial (within_check_bind passes_orThrow fun address => ?_)
  refine within_call_bind trivial (within_check_bind passes_orThrow fun _ => ?_)
  exact within_finish socket target address.ip options

/-- Creating a socket on Linux takes two calls at most. -/
theorem within_linuxSocket (target : IpAddr) :
    Within (Aims target) (linuxSocket fun kind => Method.call (Setup.socket target.isIpv4 kind)) 2 := by
  refine within_call_bind rfl fun result => ?_
  cases result with
  | ok socket => exact within_pure _
  | error raw =>
    refine within_ite (within_call_bind rfl fun result => ?_) (within_throw _)
    cases result with
    | ok socket => exact within_pure _
    | error fallback => exact within_throw _

/-- Creating a socket on the other systems takes two calls at most. -/
theorem within_createSocket (os : TargetOs) (target : IpAddr) : Within (Aims target) (Raw.createSocket os target) 2 := by
  cases os with
  | macos order =>
    refine within_call_bind rfl fun result => ?_
    cases result with
    | ok socket => exact within_pure _
    | error error => exact within_ite (within_call rfl) (within_pure _)
  | linux => exact within_call rfl
  | windows => exact within_call rfl

/-- On the other systems `open` makes ten calls at most. -/
theorem within_openRaw (os : TargetOs) (target : IpAddr) (options : Options) :
    Within (Aims target) (Raw.openRaw os target options) 10 :=
  within_bind (within_createSocket os target) (within_check_bind (passes_orFail _) fun socket => within_fromSocket socket target options)

/-- `open` makes at most twelve calls, and they all aim at the target. -/
theorem within_openTransport (os : TargetOs) (target : IpAddr) (options : Options) :
    Within (Aims target) (openTransport os target options) 12 := by
  have hraw : Within (Aims target) (Raw.openRaw os target options >>= fun value => pure (Socket.raw value.1, value.2)) 12 :=
    within_bind (n := 10) (k := 2) (within_openRaw os target options) fun value => within_pure _
  cases os with
  | macos order => exact hraw
  | windows => exact hraw
  | linux =>
    refine within_bind (n := 2) (k := 10) (within_linuxSocket target) fun value => ?_
    obtain ⟨socket, ping⟩ := value
    refine within_ite (within_bind (n := 10) (k := 0) (within_openPing socket target options) fun _ => within_pure _) ?_
    exact within_bind (n := 8) (k := 2) (within_fromSocket socket target options) fun _ => within_pure _

end Setup

end IcmpPing
