import IcmpPing.Lemmas.Compute
import IcmpPing.Theorems.Probe
import IcmpPing.Theorems.Separation

/-!
# The tasks of a process

No packet about one request settles the probe of another, as long as the identifiers of the two are apart in time; and the
identifiers last: whatever the tasks come to, each is free again 60 seconds after its lease was dropped.
-/

namespace IcmpPing

/-! ## What a packet is about -/

/-- The packet carries an Echo reply with this identifier and sequence number in its header, or an ICMP error that quotes the header
of an Echo request with them. -/
def IsAbout (packet : Bytes) (source : IpAddr) (id seq : UInt16) : Prop :=
  ∃ receiver message, Carries source receiver message packet ∧
    ((byteAt message 0 = replyKind source.isIpv6 ∧ HasEcho message id seq) ∨
      ∃ cause sender target quoted after, reason source.isIpv6 (byteAt message 0) (byteAt message 1) = some cause ∧
        SameFamily sender source ∧ SameFamily target source ∧ QuotesPacket sender target quoted after (message.drop 8) ∧
        byteAt quoted 0 = requestKind source.isIpv6 ∧ HasEcho quoted id seq)

/-- A packet is about one request. -/
theorem IsAbout.unique {packet : Bytes} {source : IpAddr} {id seq id' seq' : UInt16} (h : IsAbout packet source id seq)
    (h' : IsAbout packet source id' seq') : id = id' ∧ seq = seq' := by
  obtain ⟨receiver, message, hcarries, h⟩ := h
  obtain ⟨receiver', message', hcarries', h'⟩ := h'
  obtain ⟨rfl, -⟩ := hcarries.unique hcarries'
  rcases h with ⟨hkind, hecho⟩ | ⟨cause, sender, target, quoted, after, hcause, hsender, htarget, hquotes, -, hecho⟩
  · rcases h' with ⟨-, hecho'⟩ | ⟨cause, _, _, _, _, hcause, -⟩
    · exact hecho.unique hecho'
    · rw [hkind, reason_replyKind] at hcause
      cases hcause
  · rcases h' with ⟨hkind, -⟩ | ⟨cause', sender', target', quoted', after', -, hsender', htarget', hquotes', -, hecho'⟩
    · rw [hkind, reason_replyKind] at hcause
      cases hcause
    · obtain ⟨rfl, -⟩ := hquotes.unique (htarget.trans hsender.symm) (htarget'.trans hsender'.symm) (htarget.trans htarget'.symm)
        hquotes'
      exact hecho.unique hecho'

/-- A packet the parser accepts is about the request it expects an answer to. -/
theorem isAbout_of_parse {bytes : Bytes} {source : IpAddr} {expected : Expected} {reply : Reply}
    (h : parse bytes source expected = .ok (some reply)) : IsAbout bytes source expected.id expected.seq := by
  obtain ⟨hsource, hlocal, message, -, hcarries, hcases⟩ := parse_some_cases h
  refine ⟨expected.localAddr, message, hcarries, ?_⟩
  rw [hsource.isIpv6_eq]
  rcases hcases with ⟨-, -, hkind, hecho, -⟩ | ⟨quoted, cause, -, hcause, ⟨after, hquotes⟩, hbegins⟩
  · exact Or.inl ⟨hkind, hecho⟩
  · obtain ⟨hkind, hecho, -⟩ := hbegins.fields
    exact Or.inr ⟨cause, expected.localAddr, expected.target, quoted, after, hcause, hlocal.symm.trans hsource.symm, hsource.symm,
      hquotes, hkind, hecho⟩

/-- The packet is about this request: it shows its identifier and its sequence number. -/
def RefersTo (packet : Bytes) (source : IpAddr) (request : Bytes) : Prop :=
  ∃ id seq, HasEcho request id seq ∧ IsAbout packet source id seq

namespace Compute

variable {Task : Type} [DecidableEq Task]

/-- No misattribution over raw sockets. When the parser settles the probe of a task, in the attempt with some sequence number, the
packet is about the lease of the task and that number. So it is about no other attempt of the task, and of the requests the task
has sent about the current one only; and if it is about a request that another task has sent before, the lease of that task was
released at least 60 seconds before the lease of this one was granted. -/
theorem no_misattribution (before after : List (Task × Action)) (s : State Task) (task : Task) (bytes : Bytes) (source : IpAddr)
    (expected : Expected) (reply : Reply) (hraw : OverRaw before)
    (h : machine.run init (before ++ (task, .probe (.judged bytes source expected (some reply))) :: after) = some s) :
    ∃ (t : State Task) (p : Probe) (state : Probe.State) (seq : UInt16) (granted : Instant),
      machine.run init before = some t ∧ t.stage task = .probing .raw p state ∧
      (∃ start length elapsed, state.point = .judge seq start length source elapsed) ∧
      parse bytes source (p.expected seq) = .ok (some reply) ∧ t.leases.phase task = .live p.leased granted ∧
      IsAbout bytes source p.leased seq ∧ (∀ seq', IsAbout bytes source p.leased seq' → seq' = seq) ∧
      (∀ packet target result, (task, .probe (.sent packet target result)) ∈ before → RefersTo bytes source packet →
        p.request seq = .ok packet) ∧
      ∀ other packet target result, other ≠ task → (other, .probe (.sent packet target result)) ∈ before →
        RefersTo bytes source packet → ∃ granted' released,
          t.leases.phase other = .dropped p.leased granted' released ∧ released + fromSecs 60 ≤ granted := by
  obtain ⟨t, hbefore, h⟩ := Machine.run_append_eq_some.1 h
  obtain ⟨t', hstep, -⟩ := Machine.run_cons_eq_some.1 h
  have hinv := Inv.run hbefore
  have hhistory := History.run hraw hbefore
  have hleases := Lease.Inv.run (leases_run hbefore)
  cases moves_of_step hstep with
  | probing transport p state state' e hstage hjudges hprobe =>
    obtain rfl := hhistory.raw task transport p state hstage
    have hlease : (t.stage task).lease = some p.leased := congrArg Stage.lease hstage
    obtain ⟨granted, hlive⟩ := hinv.live hlease
    have hidentifier := hinv.identifier task .raw p state hstage
    have hparse : parse bytes source expected = .ok (some reply) := hjudges
    cases Probe.moves_of_step hprobe with
    | judged b seq start length source elapsed reply =>
      have habout : IsAbout (b.bytes.take length) source p.leased seq := by
        have hid : (p.expected seq).id = p.leased := by
          unfold Probe.expected Probe.id
          rw [hidentifier]
          rfl
        have habout := isAbout_of_parse hparse
        rwa [hid] at habout
      refine ⟨t, p, _, seq, granted, hbefore, hstage, ⟨start, length, elapsed, rfl⟩, hparse, hlive, habout,
        fun seq' habout' => (habout'.unique habout).2, ?_, ?_⟩
      · rintro packet target result hsent ⟨id, seq', hecho, habout'⟩
        obtain ⟨rfl, rfl⟩ := habout.unique habout'
        obtain ⟨hhas, -⟩ := hhistory.sent task packet target result hsent
        rw [hstage] at hhas
        obtain ⟨seq', hrequest⟩ := hhas
        obtain ⟨-, rfl⟩ := hecho.unique (hasEcho_request hidentifier hrequest)
        exact hrequest
      · rintro other packet target result hne hsent ⟨id, seq', hecho, habout'⟩
        obtain ⟨rfl, rfl⟩ := habout.unique habout'
        obtain ⟨-, ⟨id, granted', stop⟩, seq', htenure, hecho'⟩ := hhistory.sent other packet target result hsent
        obtain ⟨hid, -⟩ := hecho.unique hecho'
        obtain rfl : p.leased = id := hid
        obtain ⟨released, hstop, hle⟩ := hleases.orderly.before_of_holds htenure (congrArg Lease.Phase.tenure hlive) hne rfl
        obtain rfl : stop = some released := hstop
        exact ⟨granted', released, Lease.dropped_of_register htenure, hle⟩

/-- The first request of a task with the next identifier. -/
def sampleOther : Bytes := [8, 0, 33, 5, 18, 53, 0, 1] ++ List.replicate 56 7

/-- Two tasks probe the same target over raw sockets, with the first two identifiers of the process. The answer to the first request of
one reaches both, and the other has received it first and goes on. -/
def sampleTasks : List (Bool × Action) :=
  ([.parse (some sampleProbe.target), .lease .get, .lease (.fill (.ok (0x12, 0x34))), .lease .getOrInit,
    .lease (.lock 10)].map fun action => (true, action)) ++
  ([.parse (some sampleProbe.target), .lease .get, .lease (.lock 20)].map fun action => (false, action)) ++
  ([.fill (.ok sampleProbe.payload), .opened (.ok (.raw, sampleProbe.localAddr)), .probe (.clock 100),
    .probe (.sent ([8, 0, 33, 6, 18, 52, 0, 1] ++ List.replicate 56 7) sampleProbe.target (.ok ())),
    .probe (.clock 200)].map fun action => (true, action)) ++
  ([.fill (.ok sampleProbe.payload), .opened (.ok (.raw, sampleProbe.localAddr)), .probe (.clock 110),
    .probe (.sent sampleOther sampleProbe.target (.ok ())), .probe (.clock 210),
    .probe (.received 999999900 sampleAnswer (.ok (84, sampleProbe.target))), .probe (.clock 220), .probe (.clock 230),
    .probe (.judged sampleAnswer sampleProbe.target ({ sampleProbe with leased := 0x1235 }.expected 1) none)].map
      fun action => (false, action)) ++
  ([.probe (.received 999999900 sampleAnswer (.ok (84, sampleProbe.target))), .probe (.clock 5000),
    .probe (.clock 5001)].map fun action => (true, action))

/-- The parser settles the probe of the first task. -/
def sampleSettled : Bool × Action :=
  (true, .probe (.judged sampleAnswer sampleProbe.target (sampleProbe.expected 1) (some .echo)))

theorem no_misattribution_sample : ∃ (t : State Bool) (p : Probe) (state : Probe.State) (seq : UInt16) (granted : Instant),
    machine.run init sampleTasks = some t ∧ t.stage true = .probing .raw p state ∧ t.leases.phase true = .live p.leased granted ∧
      IsAbout sampleAnswer sampleProbe.target p.leased seq ∧ t.leases.phase false = .live 0x1235 20 ∧
      ¬RefersTo sampleAnswer sampleProbe.target sampleOther := by
  have hrun : (machine.run (init : State Bool) (sampleTasks ++ [sampleSettled])).isSome = true := by decide +kernel
  have hother : (machine.run (init : State Bool) sampleTasks).map (fun t => t.leases.phase false) = some (.live 0x1235 20) := by
    decide +kernel
  have hraw : OverRaw sampleTasks := by
    intro task transport localAddr hmem
    simp [sampleTasks] at hmem
    exact hmem.elim (fun h => h.2.1) fun h => h.2.1
  obtain ⟨s, hs⟩ := Option.isSome_iff_exists.1 hrun
  obtain ⟨t, p, state, seq, granted, ht, hstage, -, -, hlive, habout, -, -, hothers⟩ :=
    no_misattribution sampleTasks [] s true _ _ _ _ hraw hs
  have hphase : t.leases.phase false = .live 0x1235 20 := by
    rw [ht, Option.map_some, Option.some.injEq] at hother
    exact hother
  refine ⟨t, p, state, seq, granted, ht, hstage, hlive, habout, hphase, fun hrefers => ?_⟩
  -- the other task still has its lease, so that the packet is not about its request
  obtain ⟨granted', released, hdropped, -⟩ := hothers false sampleOther sampleProbe.target (.ok ()) (by decide)
    (by simp [sampleTasks]) hrefers
  rw [hphase] at hdropped
  cases hdropped

/-! ## Capacity -/

/-- The identifier is held by a live lease, or was released less than 60 seconds ago. -/
def Taken (s : Lease.State Task) (id : UInt16) (now : Instant) : Prop :=
  (∃ call granted, s.phase call = .live id granted) ∨
    ∃ call granted released, s.phase call = .dropped id granted released ∧ durationSince now released < fromSecs 60

/-- What `acquire` does at this time: it fails if and only if every identifier is taken, and then the allocator stays as it was;
and otherwise it returns the first identifier in cyclic order from the cursor that is not taken, moves the cursor past it, and
leaves no entry in the queue that is due. -/
def AcquiresNext (s : Lease.State Task) (a : Allocator) (now : Instant) : Prop :=
  ((∃ message a', a.acquire now = (.error message, a')) ↔ ∀ id, Taken s id now) ∧
  (∀ message a', a.acquire now = (.error message, a') → a' = a) ∧
  ∀ id a', a.acquire now = (.ok id, a') → Allocator.FirstFrom a.next (fun id => ¬Taken s id now) id ∧ a'.next = id + 1 ∧
    ∀ entry ∈ a'.retired, durationSince now entry.2 < fromSecs 60

omit [DecidableEq Task] in
/-- An identifier is taken when it is not free in the register. -/
theorem taken_iff (s : Lease.State Task) (id : UInt16) (now : Instant) :
    Taken s id now ↔ ¬s.register.Free Allocator.quarantine id now := by
  rw [Register.not_free_iff]
  constructor
  · rintro (⟨call, granted, hlive⟩ | ⟨call, granted, released, hdropped, hlt⟩)
    · exact Or.inl ⟨call, granted, congrArg Lease.Phase.tenure hlive⟩
    · exact Or.inr ⟨call, granted, released, congrArg Lease.Phase.tenure hdropped, Allocator.durationSince_lt_quarantine.1 hlt⟩
  · rintro (⟨call, granted, hcall⟩ | ⟨call, granted, released, hcall, hlt⟩)
    · exact Or.inl ⟨call, granted, Lease.live_of_register hcall⟩
    · exact Or.inr ⟨call, granted, released, Lease.dropped_of_register hcall, Allocator.durationSince_lt_quarantine.2 hlt⟩

omit [DecidableEq Task] in
/-- The allocator of any state that satisfies the invariant gives the next identifier that is free. -/
theorem acquiresNext {s : Lease.State Task} {mutex : Lease.Mutex Task} {now : Instant} (hinv : Lease.Inv s)
    (hids : s.ids = some mutex) (hnow : s.clock ≤ now) : AcquiresNext s mutex.allocator now := by
  have hfree : ∀ id, ¬Taken s id now ↔ s.register.Free Allocator.quarantine id now := by
    intro id
    rw [taken_iff, not_not]
  rcases (hinv.mutex mutex hids).2.acquire_cases hnow with ⟨id, a, hacquire, hfirst, hnext, hyoung, -⟩ | ⟨hnone, message, hacquire⟩
  · refine ⟨⟨?_, fun hall => ?_⟩, ?_, ?_⟩
    · rintro ⟨message, a', herror⟩
      rw [hacquire] at herror
      cases herror
    · exact absurd (hall id) ((hfree id).2 hfirst.1)
    · intro message a' herror
      rw [hacquire] at herror
      cases herror
    · intro id' a' hok
      rw [hacquire] at hok
      cases hok
      exact ⟨⟨(hfree id).2 hfirst.1, fun other hother => hfirst.2 other ((hfree other).1 hother)⟩, hnext, hyoung⟩
  · refine ⟨⟨fun _ id => ?_, fun _ => ⟨message, _, hacquire⟩⟩, ?_, ?_⟩
    · exact (taken_iff s id now).2 (hnone id)
    · intro message' a' herror
      rw [hacquire] at herror
      cases herror
      rfl
    · intro id a' hok
      rw [hacquire] at hok
      cases hok

/-- A task that has its result can drop its lease at any later time. -/
theorem can_drop {s : State Task} {task : Task} {id : UInt16} {result : Except String Outcome} {now : Instant} (hinv : Inv s)
    (hstage : s.stage task = .returning id result) (hnow : s.leases.clock ≤ now) :
    ∃ s', step s (task, .drop now) = some s' := by
  have hlease : (s.stage task).lease = some id := congrArg Stage.lease hstage
  obtain ⟨granted, hlive⟩ := hinv.live hlease
  have hdrop : ∃ leases, Lease.step s.leases (task, .drop now) = some leases := by
    simp only [Lease.step, hlive, hnow, if_true]
    split
    · split
      · exact ⟨_, rfl⟩
      · exact ⟨_, rfl⟩
    · exact ⟨_, rfl⟩
  obtain ⟨leases, hdrop⟩ := hdrop
  exact ⟨_, by simp only [step, hstage, hdrop]; rfl⟩

/-- `acquire` is complete, fair and atomic on failure, in every state that calls of `Lease::acquire` and drops of live leases lead
to, and in every state that tasks lead to, whatever they come to: there a live lease belongs to a task that has yet to drop it,
and a task that has its result can do so. -/
theorem acquire_complete :
    (∀ (events : List (Task × Lease.Action)) (s : Lease.State Task) (mutex : Lease.Mutex Task) (now : Instant),
      Lease.machine.run Lease.init events = some s → s.ids = some mutex → s.clock ≤ now → AcquiresNext s mutex.allocator now) ∧
    ∀ (es : List (Task × Action)) (s : State Task) (now : Instant), machine.run init es = some s → s.leases.clock ≤ now →
      (∀ mutex, s.leases.ids = some mutex → AcquiresNext s.leases mutex.allocator now) ∧
      (∀ task id granted, s.leases.phase task = .live id granted → (s.stage task).lease = some id) ∧
      ∀ task id result, s.stage task = .returning id result → ∃ s', step s (task, .drop now) = some s' := by
  refine ⟨fun events s mutex now hrun hids hnow => acquiresNext (Lease.Inv.run hrun) hids hnow, fun es s now hrun hnow => ?_⟩
  have hinv := Inv.run hrun
  refine ⟨?_, ?_, ?_⟩
  · intro mutex hids
    exact acquiresNext (Lease.Inv.run (leases_run hrun)) hids hnow
  · intro task id granted hlive
    rw [hinv.held, hlive]
    rfl
  · intro task id result hstage
    exact can_drop hinv hstage hnow

/-- A task takes a lease, has no randomness for its payload, and drops the lease. -/
def sampleFailure : List (Bool × Action) :=
  [.parse (some sampleProbe.target), .lease .get, .lease (.fill (.ok (0x12, 0x34))), .lease .getOrInit, .lease (.lock 10),
    .fill (.error "no randomness"), .drop 20].map fun action => (true, action)

theorem acquire_complete_sample : ∃ (s : State Bool) (mutex : Lease.Mutex Bool), machine.run init sampleFailure = some s ∧
    s.leases.ids = some mutex ∧ AcquiresNext s.leases mutex.allocator 30 := by
  have hrun : ((machine.run (init : State Bool) sampleFailure).map fun s => (s.leases.ids.isSome, s.leases.clock)) =
      some (true, 20) := by decide +kernel
  obtain ⟨s, hs, hstate⟩ := Option.map_eq_some_iff.1 hrun
  obtain ⟨hids, hclock⟩ := Prod.mk.inj hstate
  obtain ⟨mutex, hmutex⟩ := Option.isSome_iff_exists.1 hids
  have hnow : s.leases.clock ≤ 30 := by
    rw [hclock]
    decide
  exact ⟨s, mutex, hs, hmutex, (acquire_complete.2 sampleFailure s 30 hs hnow).1 mutex hmutex⟩

end Compute

end IcmpPing
