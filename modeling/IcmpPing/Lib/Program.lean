import Mathlib.Data.List.Basic

/-!
# Programs that make calls

A program computes, makes calls to an environment and goes on with the answers. What it does is told by its runs: the exchanges
it has, in order, and its result. A method is a program over a state, which it may change also when it ends with an error.

A loop without a bound is not a program but a relation: one turn is a method, and a run of the loop is a sequence of runs of
its turn.

An environment answers every call, by what was exchanged before it. In an environment a program always has a run, and so has a
loop whose turns cannot go on for ever.
-/

/-- A computation that makes calls: it returns a value, or makes a call and goes on with the answer. -/
inductive Program (Call : Type) (Answer : Call → Type) (α : Type) where
  | ret (value : α)
  | ask (call : Call) (next : Answer call → Program Call Answer α)

/-- A call and the answer to it. -/
abbrev Exchange {Call : Type} (Answer : Call → Type) := (call : Call) × Answer call

namespace Program

variable {Call : Type} {Answer : Call → Type} {α β : Type}

def bind : Program Call Answer α → (α → Program Call Answer β) → Program Call Answer β
  | .ret value, f => f value
  | .ask call next, f => .ask call fun answer => (next answer).bind f

/-- The program has these exchanges, in this order, and returns this value. -/
def Runs : Program Call Answer α → List (Exchange Answer) → α → Prop
  | .ret value, trace, result => trace = [] ∧ result = value
  | .ask call next, trace, result => ∃ answer rest, trace = ⟨call, answer⟩ :: rest ∧ (next answer).Runs rest result

/-- A run of a sequence is a run of the first program, then one of the second. -/
theorem runs_bind (p : Program Call Answer α) (f : α → Program Call Answer β) (trace : List (Exchange Answer)) (result : β) :
    (p.bind f).Runs trace result ↔
      ∃ first second value, trace = first ++ second ∧ p.Runs first value ∧ (f value).Runs second result := by
  induction p generalizing trace with
  | ret value =>
    constructor
    · intro h
      exact ⟨[], trace, value, rfl, ⟨rfl, rfl⟩, h⟩
    · rintro ⟨_, second, _, rfl, ⟨rfl, rfl⟩, h⟩
      exact h
  | ask call next ih =>
    constructor
    · rintro ⟨answer, rest, rfl, h⟩
      obtain ⟨first, second, value, rfl, hp, hf⟩ := (ih answer rest).1 h
      exact ⟨_, second, value, rfl, ⟨answer, first, rfl, hp⟩, hf⟩
    · rintro ⟨_, second, value, rfl, ⟨answer, first, rfl, hp⟩, hf⟩
      exact ⟨answer, first ++ second, rfl, (ih answer _).2 ⟨first, second, value, rfl, hp, hf⟩⟩

/-- After these exchanges, the program is left with this one. -/
inductive Leads : Program Call Answer α → List (Exchange Answer) → Program Call Answer α → Prop where
  | refl (p : Program Call Answer α) : Leads p [] p
  | ask {call : Call} {next : Answer call → Program Call Answer α} {answer : Answer call} {trace : List (Exchange Answer)}
    {rest : Program Call Answer α} : Leads (next answer) trace rest → Leads (.ask call next) (⟨call, answer⟩ :: trace) rest

/-- A program that is left waiting for an answer goes on with it. -/
theorem Leads.snoc {p rest : Program Call Answer α} {trace : List (Exchange Answer)} (h : p.Leads trace rest) {call : Call}
    {next : Answer call → Program Call Answer α} (hrest : rest = .ask call next) (answer : Answer call) :
    p.Leads (trace ++ [⟨call, answer⟩]) (next answer) := by
  induction h with
  | refl p =>
    rw [hrest]
    exact .ask (.refl _)
  | ask _ ih => exact .ask (ih hrest)

/-- A program that is left with nothing to do has run. -/
theorem Leads.runs {p rest : Program Call Answer α} {trace : List (Exchange Answer)} (h : p.Leads trace rest) {value : α}
    (hrest : rest = .ret value) : p.Runs trace value := by
  induction h with
  | refl p =>
    rw [hrest]
    exact ⟨rfl, rfl⟩
  | ask _ ih => exact ⟨_, _, rfl, ih hrest⟩

/-- Every call on the way was asked for. -/
theorem Leads.asked {p rest : Program Call Answer α} {trace before after : List (Exchange Answer)} {x : Exchange Answer}
    (h : p.Leads trace rest) (htrace : trace = before ++ x :: after) : ∃ next, p.Leads before (.ask x.1 next) := by
  induction h generalizing before with
  | refl p => exact absurd htrace.symm (List.append_ne_nil_of_right_ne_nil _ (List.cons_ne_nil _ _))
  | @ask call next answer trace rest _ ih =>
    cases before with
    | nil =>
      obtain ⟨rfl, -⟩ := List.cons.inj htrace
      exact ⟨next, .refl _⟩
    | cons y before =>
      obtain ⟨rfl, htail⟩ := List.cons.inj htrace
      obtain ⟨next', hnext⟩ := ih htail
      exact ⟨next', .ask hnext⟩

/-! ## Which calls, and how many -/

/-- The program makes at most so many calls, and only such ones, whatever the answers. -/
def Within (allowed : Call → Prop) : Program Call Answer α → Nat → Prop
  | .ret _, _ => True
  | .ask call next, n => allowed call ∧ ∃ m, n = m + 1 ∧ ∀ answer, (next answer).Within allowed m

/-- More calls than a program makes may be allowed. -/
theorem Within.mono {allowed : Call → Prop} {p : Program Call Answer α} {n m : Nat} (h : p.Within allowed n) (hle : n ≤ m) :
    p.Within allowed m := by
  induction p generalizing n m with
  | ret value => trivial
  | ask call next ih =>
    obtain ⟨hcall, k, rfl, hnext⟩ := h
    obtain ⟨l, rfl⟩ : ∃ l, m = l + 1 := ⟨m - 1, by omega⟩
    exact ⟨hcall, l, rfl, fun answer => ih answer (hnext answer) (Nat.le_of_succ_le_succ hle)⟩

/-- The bounds of a sequence add up. -/
theorem Within.bind {allowed : Call → Prop} {p : Program Call Answer α} {f : α → Program Call Answer β} {n m : Nat}
    (h : p.Within allowed n) (hf : ∀ value, (f value).Within allowed m) : (p.bind f).Within allowed (n + m) := by
  induction p generalizing n with
  | ret value => exact (hf value).mono (Nat.le_add_left m n)
  | ask call next ih =>
    obtain ⟨hcall, k, rfl, hnext⟩ := h
    exact ⟨hcall, k + m, by omega, fun answer => ih answer (hnext answer)⟩

/-- What the program has called, and what it has yet to call. -/
theorem Within.leads {allowed : Call → Prop} {p rest : Program Call Answer α} {trace : List (Exchange Answer)} {n : Nat}
    (h : p.Within allowed n) (hleads : p.Leads trace rest) :
    (∀ x ∈ trace, allowed x.1) ∧ ∃ m, n = trace.length + m ∧ rest.Within allowed m := by
  induction hleads generalizing n with
  | refl p => exact ⟨nofun, n, (Nat.zero_add n).symm, h⟩
  | ask _ ih =>
    obtain ⟨hcall, k, rfl, hnext⟩ := h
    obtain ⟨htrace, m, rfl, hrest⟩ := ih (hnext _)
    exact ⟨List.forall_mem_cons.2 ⟨hcall, htrace⟩, m, by rw [List.length_cons]; omega, hrest⟩

/-- A run of the program leads to its result. -/
theorem Runs.leads {p : Program Call Answer α} {trace : List (Exchange Answer)} {value : α} (h : p.Runs trace value) :
    p.Leads trace (.ret value) := by
  induction p generalizing trace with
  | ret value' =>
    obtain ⟨rfl, rfl⟩ := h
    exact .refl _
  | ask call next ih =>
    obtain ⟨answer, rest, rfl, hrest⟩ := h
    exact .ask (ih answer hrest)

end Program

/-- What an environment answers to a call, after these exchanges. -/
def Environment {Call : Type} (Answer : Call → Type) := List (Exchange Answer) → (call : Call) → Answer call

namespace Environment

variable {Call : Type} {Answer : Call → Type} {α : Type}

/-- After the first exchanges, the second are those that the environment gives. -/
def Gives (env : Environment Answer) : List (Exchange Answer) → List (Exchange Answer) → Prop
  | _, [] => True
  | past, x :: rest => x.2 = env past x.1 ∧ Gives env (past ++ [x]) rest

/-- The environment answers a trace when it answers the first part, and then the second after the first. -/
theorem gives_append {env : Environment Answer} {past first second : List (Exchange Answer)} :
    env.Gives past (first ++ second) ↔ env.Gives past first ∧ env.Gives (past ++ first) second := by
  induction first generalizing past with
  | nil =>
    rw [List.append_nil]
    exact ⟨fun h => ⟨trivial, h⟩, And.right⟩
  | cons x first ih =>
    simp only [List.cons_append, Gives, ih, List.append_assoc, List.nil_append, and_assoc]

/-- A program has a run in every environment. -/
theorem exists_runs (env : Environment Answer) (p : Program Call Answer α) (past : List (Exchange Answer)) :
    ∃ trace result, p.Runs trace result ∧ env.Gives past trace := by
  induction p generalizing past with
  | ret value => exact ⟨[], value, ⟨rfl, rfl⟩, trivial⟩
  | ask call next ih =>
    obtain ⟨trace, result, hrun, hgives⟩ := ih (env past call) (past ++ [⟨call, env past call⟩])
    exact ⟨⟨call, env past call⟩ :: trace, result, ⟨env past call, trace, rfl, hrun⟩, rfl, hgives⟩

end Environment

/-- A program over a state that ends with a value or an error. -/
def Method (Call : Type) (Answer : Call → Type) (σ ε α : Type) := σ → Program Call Answer (Except ε α × σ)

namespace Method

variable {Call : Type} {Answer : Call → Type} {σ ε α β : Type}

instance : Monad (Method Call Answer σ ε) where
  pure value := fun s => .ret (.ok value, s)
  bind m f := fun s => (m s).bind fun
    | (.ok value, s) => f value s
    | (.error error, s) => .ret (.error error, s)

instance : MonadExcept ε (Method Call Answer σ ε) where
  throw error := fun s => .ret (.error error, s)
  tryCatch m handle := fun s => (m s).bind fun
    | (.ok value, s) => .ret (.ok value, s)
    | (.error error, s) => handle error s

instance : MonadStateOf σ (Method Call Answer σ ε) where
  get := fun s => .ret (.ok s, s)
  set s := fun _ => .ret (.ok (), s)
  modifyGet f := fun s => .ret (.ok (f s).1, (f s).2)

/-- Make a call. -/
def call (c : Call) : Method Call Answer σ ε (Answer c) := fun s => .ask c fun answer => .ret (.ok answer, s)

/-- From a state, the method has these exchanges and ends with this result in this state. -/
def Runs (m : Method Call Answer σ ε α) (s : σ) (trace : List (Exchange Answer)) (result : Except ε α) (s' : σ) : Prop :=
  (m s).Runs trace (result, s')

/-! ## The runs of each construct -/

/-- A method that returns at once makes no call. -/
@[simp] theorem runs_pure {value : α} {s s' : σ} {trace : List (Exchange Answer)} {result : Except ε α} :
    (pure value : Method Call Answer σ ε α).Runs s trace result s' ↔ trace = [] ∧ result = .ok value ∧ s' = s := by
  show trace = [] ∧ (result, s') = (.ok value, s) ↔ _
  rw [Prod.mk.injEq]

/-- A method that fails at once makes no call. -/
@[simp] theorem runs_throw {error : ε} {s s' : σ} {trace : List (Exchange Answer)} {result : Except ε α} :
    (throw error : Method Call Answer σ ε α).Runs s trace result s' ↔ trace = [] ∧ result = .error error ∧ s' = s := by
  show trace = [] ∧ (result, s') = (.error error, s) ↔ _
  rw [Prod.mk.injEq]

/-- Reading the state makes no call. -/
@[simp] theorem runs_get {s s' : σ} {trace : List (Exchange Answer)} {result : Except ε σ} :
    (get : Method Call Answer σ ε σ).Runs s trace result s' ↔ trace = [] ∧ result = .ok s ∧ s' = s := by
  show trace = [] ∧ (result, s') = (.ok s, s) ↔ _
  rw [Prod.mk.injEq]

/-- Changing the state makes no call. -/
@[simp] theorem runs_modify {f : σ → σ} {s s' : σ} {trace : List (Exchange Answer)} {result : Except ε PUnit} :
    (modify f : Method Call Answer σ ε PUnit).Runs s trace result s' ↔ trace = [] ∧ result = .ok ⟨⟩ ∧ s' = f s := by
  show trace = [] ∧ (result, s') = (.ok ⟨⟩, f s) ↔ _
  rw [Prod.mk.injEq]

/-- A sequence of two methods runs through both, or ends with the error of the first. -/
theorem runs_bind {m : Method Call Answer σ ε α} {f : α → Method Call Answer σ ε β} {s s' : σ}
    {trace : List (Exchange Answer)} {result : Except ε β} :
    (m >>= f).Runs s trace result s' ↔
      (∃ first second value s₁, trace = first ++ second ∧ m.Runs s first (.ok value) s₁ ∧ (f value).Runs s₁ second result s') ∨
      (∃ error, m.Runs s trace (.error error) s' ∧ result = .error error) := by
  refine (Program.runs_bind ..).trans ?_
  constructor
  · rintro ⟨first, second, ⟨value | error, s₁⟩, rfl, hm, hf⟩
    · obtain ⟨rfl, h⟩ := hf
      obtain ⟨rfl, rfl⟩ := Prod.mk.inj h
      exact Or.inr ⟨value, by rwa [List.append_nil], rfl⟩
    · exact Or.inl ⟨first, second, error, s₁, rfl, hm, hf⟩
  · rintro (⟨first, second, value, s₁, rfl, hm, hf⟩ | ⟨error, hm, rfl⟩)
    · exact ⟨first, second, (.ok value, s₁), rfl, hm, hf⟩
    · exact ⟨trace, [], (.error error, s'), (List.append_nil trace).symm, hm, rfl, rfl⟩

/-- A call and what is done with its answer. -/
theorem runs_call_bind {c : Call} {f : Answer c → Method Call Answer σ ε β} {s s' : σ} {trace : List (Exchange Answer)}
    {result : Except ε β} :
    (call c >>= f).Runs s trace result s' ↔ ∃ answer rest, trace = ⟨c, answer⟩ :: rest ∧ (f answer).Runs s rest result s' := by
  rfl

/-- A change of the state and what comes after it. -/
theorem runs_modify_bind {f : σ → σ} {g : PUnit → Method Call Answer σ ε β} {s s' : σ} {trace : List (Exchange Answer)}
    {result : Except ε β} : (modify f >>= g).Runs s trace result s' ↔ (g ⟨⟩).Runs (f s) trace result s' := by
  rfl

/-! ## Destructors -/

/-- The method, with its errors mapped. -/
def mapError {ε' : Type} (f : ε → ε') (m : Method Call Answer σ ε α) : Method Call Answer σ ε' α :=
  fun s => (m s).bind fun (result, s) => .ret (result.mapError f, s)

/-- The method, and then the call, however the method ends: a value that the method owns is dropped. -/
def dropping (c : Call) (m : Method Call Answer σ ε α) : Method Call Answer σ ε α :=
  fun s => (m s).bind fun (result, s) => .ask c fun _ => .ret (result, s)

/-- The method, and then the call if it fails: a value that the method gives away with its result is dropped otherwise. -/
def droppingOnError (c : Call) (m : Method Call Answer σ ε α) : Method Call Answer σ ε α :=
  fun s => (m s).bind fun
    | (.ok value, s) => .ret (.ok value, s)
    | (.error error, s) => .ask c fun _ => .ret (.error error, s)

/-- A method whose error is changed runs as the method itself does. -/
theorem runs_mapError {ε' : Type} {f : ε → ε'} {m : Method Call Answer σ ε α} {s s' : σ} {trace : List (Exchange Answer)}
    {result : Except ε' α} : (mapError f m).Runs s trace result s' ↔ ∃ r, result = r.mapError f ∧ m.Runs s trace r s' := by
  refine (Program.runs_bind ..).trans ?_
  constructor
  · rintro ⟨first, second, ⟨r, s₁⟩, rfl, hm, rfl, hresult⟩
    obtain ⟨rfl, rfl⟩ := Prod.mk.inj hresult
    exact ⟨r, rfl, by rwa [List.append_nil]⟩
  · rintro ⟨r, rfl, hm⟩
    exact ⟨trace, [], (r, s'), (List.append_nil trace).symm, hm, rfl, rfl⟩

/-- The call that ends a scope comes last, whatever the method returned. -/
theorem runs_dropping {c : Call} {m : Method Call Answer σ ε α} {s s' : σ} {trace : List (Exchange Answer)}
    {result : Except ε α} :
    (dropping c m).Runs s trace result s' ↔ ∃ first answer, trace = first ++ [⟨c, answer⟩] ∧ m.Runs s first result s' := by
  refine (Program.runs_bind ..).trans ?_
  constructor
  · rintro ⟨first, second, ⟨r, s₁⟩, rfl, hm, answer, rest, rfl, rfl, hresult⟩
    obtain ⟨rfl, rfl⟩ := Prod.mk.inj hresult
    exact ⟨first, answer, rfl, hm⟩
  · rintro ⟨first, answer, rfl, hm⟩
    exact ⟨first, [⟨c, answer⟩], (result, s'), rfl, hm, answer, [], rfl, rfl, rfl⟩

/-- The call that ends a scope comes last, when the method has failed. -/
theorem runs_droppingOnError {c : Call} {m : Method Call Answer σ ε α} {s s' : σ} {trace : List (Exchange Answer)}
    {result : Except ε α} :
    (droppingOnError c m).Runs s trace result s' ↔ (∃ value, result = .ok value ∧ m.Runs s trace (.ok value) s') ∨
      ∃ error first answer, result = .error error ∧ trace = first ++ [⟨c, answer⟩] ∧ m.Runs s first (.error error) s' := by
  refine (Program.runs_bind ..).trans ?_
  constructor
  · rintro ⟨first, second, ⟨value | value, s₁⟩, rfl, hm, hrest⟩
    · obtain ⟨answer, rest, rfl, rfl, hresult⟩ := hrest
      obtain ⟨rfl, rfl⟩ := Prod.mk.inj hresult
      exact Or.inr ⟨value, first, answer, rfl, rfl, hm⟩
    · obtain ⟨rfl, hresult⟩ := hrest
      obtain ⟨rfl, rfl⟩ := Prod.mk.inj hresult
      exact Or.inl ⟨value, rfl, by rwa [List.append_nil]⟩
  · rintro (⟨value, rfl, hm⟩ | ⟨error, first, answer, rfl, rfl, hm⟩)
    · exact ⟨trace, [], (.ok value, s'), (List.append_nil trace).symm, hm, rfl, rfl⟩
    · exact ⟨first, [⟨c, answer⟩], (.error error, s'), rfl, hm, answer, [], rfl, rfl, rfl⟩

/-! ## What a method ensures -/

/-- Every run of the method has such exchanges and such a result. -/
def Ensures (m : Method Call Answer σ ε α) (post : List (Exchange Answer) → Except ε α → Prop) : Prop :=
  ∀ s trace result s', m.Runs s trace result s' → post trace result

section Ensures

variable {post : List (Exchange Answer) → Except ε α → Prop}

/-- A method that returns at once does so after no call. -/
theorem ensures_pure {value : α} (h : post [] (.ok value)) : Ensures (pure value : Method Call Answer σ ε α) post := by
  intro s trace result s' hrun
  obtain ⟨rfl, rfl, -⟩ := runs_pure.1 hrun
  exact h

/-- A method that fails at once does so after no call. -/
theorem ensures_throw {error : ε} (h : post [] (.error error)) : Ensures (throw error : Method Call Answer σ ε α) post := by
  intro s trace result s' hrun
  obtain ⟨rfl, rfl, -⟩ := runs_throw.1 hrun
  exact h

/-- What a method ensures may be said more weakly. -/
theorem ensures_mono {m : Method Call Answer σ ε α} {post' : List (Exchange Answer) → Except ε α → Prop} (h : Ensures m post)
    (hpost : ∀ trace result, post trace result → post' trace result) : Ensures m post' :=
  fun s trace result s' hrun => hpost trace result (h s trace result s' hrun)

/-- A call alone. -/
theorem ensures_call {c : Call} {post : List (Exchange Answer) → Except ε (Answer c) → Prop}
    (h : ∀ answer, post [⟨c, answer⟩] (.ok answer)) : Ensures (call c : Method Call Answer σ ε (Answer c)) post := by
  rintro s trace result s' ⟨answer, rest, rfl, rfl, hresult⟩
  obtain ⟨rfl, -⟩ := Prod.mk.inj hresult
  exact h answer

/-- What follows a call ensures the rest. -/
theorem ensures_call_bind {c : Call} {f : Answer c → Method Call Answer σ ε α}
    (hf : ∀ answer, Ensures (f answer) fun rest result => post (⟨c, answer⟩ :: rest) result) : Ensures (call c >>= f) post := by
  intro s trace result s' hrun
  obtain ⟨answer, rest, rfl, hrest⟩ := runs_call_bind.1 hrun
  exact hf answer s rest result s' hrest

/-- What follows a method ensures the rest, when the method returned. -/
theorem ensures_bind {m : Method Call Answer σ ε β} {f : β → Method Call Answer σ ε α}
    (h : Ensures m fun first result => match result with
      | .ok value => Ensures (f value) fun second result => post (first ++ second) result
      | .error error => post first (.error error)) : Ensures (m >>= f) post := by
  intro s trace result s' hrun
  rcases runs_bind.1 hrun with ⟨first, second, value, s₁, rfl, hm, hf⟩ | ⟨error, hm, rfl⟩
  · exact h s first (.ok value) s₁ hm s₁ second result s' hf
  · exact h s trace (.error error) s' hm

/-- A change of the error is passed to what is ensured. -/
theorem ensures_mapError {ε' : Type} {f : ε' → ε} {m : Method Call Answer σ ε' α}
    (h : Ensures m fun trace result => post trace (result.mapError f)) : Ensures (mapError f m) post := by
  intro s trace result s' hrun
  obtain ⟨r, rfl, hm⟩ := runs_mapError.1 hrun
  exact h s trace r s' hm

/-- The call that ends a scope is appended to what is ensured. -/
theorem ensures_dropping {c : Call} {m : Method Call Answer σ ε α}
    (h : Ensures m fun trace result => ∀ answer, post (trace ++ [⟨c, answer⟩]) result) : Ensures (dropping c m) post := by
  intro s trace result s' hrun
  obtain ⟨first, answer, rfl, hm⟩ := runs_dropping.1 hrun
  exact h s first result s' hm answer

/-- The call that ends a scope is appended to what is ensured of a failure. -/
theorem ensures_droppingOnError {c : Call} {m : Method Call Answer σ ε α}
    (h : Ensures m fun trace result => match result with
      | .ok value => post trace (.ok value)
      | .error error => ∀ answer, post (trace ++ [⟨c, answer⟩]) (.error error)) : Ensures (droppingOnError c m) post := by
  intro s trace result s' hrun
  rcases runs_droppingOnError.1 hrun with ⟨value, rfl, hm⟩ | ⟨error, first, answer, rfl, rfl, hm⟩
  · exact h s trace (.ok value) s' hm
  · exact h s first (.error error) s' hm answer

end Ensures

/-! ## Which calls a method makes, and how many -/

/-- From every state, the method makes at most so many calls, and only such ones. -/
def Within (allowed : Call → Prop) (m : Method Call Answer σ ε α) (n : Nat) : Prop := ∀ s, (m s).Within allowed n

section Within

variable {allowed : Call → Prop} {m : Method Call Answer σ ε α} {n k : Nat}

/-- A run of the method is no longer. -/
theorem Within.length_le (h : Within allowed m n) {s s' : σ} {trace : List (Exchange Answer)} {result : Except ε α}
    (hrun : m.Runs s trace result s') : trace.length ≤ n := by
  obtain ⟨-, k, rfl, -⟩ := (h s).leads hrun.leads
  exact Nat.le_add_right _ _

/-- A method that returns at once is within any bound. -/
theorem within_pure (value : α) : Within allowed (pure value : Method Call Answer σ ε α) n := fun _ => trivial

/-- A method that fails at once is within any bound. -/
theorem within_throw (error : ε) : Within allowed (throw error : Method Call Answer σ ε α) n := fun _ => trivial

/-- A call is within a bound of one. -/
theorem within_call {c : Call} (hc : allowed c) : Within allowed (call c : Method Call Answer σ ε (Answer c)) (n + 1) :=
  fun _ => ⟨hc, n, rfl, fun _ => trivial⟩

/-- A call adds one to the bound of what follows it. -/
theorem within_call_bind {c : Call} {f : Answer c → Method Call Answer σ ε α} (hc : allowed c)
    (hf : ∀ answer, Within allowed (f answer) n) : Within allowed (call c >>= f) (n + 1) :=
  fun s => ⟨hc, n, rfl, fun answer => hf answer s⟩

/-- A sequence makes the calls of its parts. -/
theorem within_bind {f : α → Method Call Answer σ ε β} (hm : Within allowed m n) (hf : ∀ value, Within allowed (f value) k) :
    Within allowed (m >>= f) (n + k) := by
  refine fun s => (hm s).bind fun result => ?_
  obtain ⟨result, s'⟩ := result
  cases result with
  | ok value => exact hf value s'
  | error error => trivial

/-- Reading the state adds nothing to the bound. -/
theorem within_get_bind {f : σ → Method Call Answer σ ε α} (hf : ∀ s, Within allowed (f s) n) : Within allowed (get >>= f) n :=
  fun s => hf s s

/-- Changing the state adds nothing to the bound. -/
theorem within_modify_bind {g : σ → σ} {f : PUnit → Method Call Answer σ ε α} (hf : Within allowed (f ⟨⟩) n) :
    Within allowed (modify g >>= f) n :=
  fun s => hf (g s)

/-- A choice is within the bound of both its branches. -/
theorem within_ite {c : Prop} [Decidable c] {m' : Method Call Answer σ ε α} (hm : Within allowed m n) (hm' : Within allowed m' n) :
    Within allowed (if c then m else m') n := by
  split
  · exact hm
  · exact hm'

/-- A change of the error adds nothing to the bound. -/
theorem within_mapError {ε' : Type} {f : ε → ε'} (hm : Within allowed m n) : Within allowed (mapError f m) n :=
  fun s => (hm s).bind (m := 0) fun _ => trivial

/-- The call that ends a scope adds one to the bound. -/
theorem within_dropping {c : Call} (hc : allowed c) (hm : Within allowed m n) : Within allowed (dropping c m) (n + 1) :=
  fun s => (hm s).bind fun _ => ⟨hc, 0, rfl, fun _ => trivial⟩

/-- The call that ends a scope adds one to the bound, as if the method always failed. -/
theorem within_droppingOnError {c : Call} (hc : allowed c) (hm : Within allowed m n) :
    Within allowed (droppingOnError c m) (n + 1) := by
  refine fun s => (hm s).bind fun result => ?_
  obtain ⟨result, s'⟩ := result
  cases result with
  | ok value => trivial
  | error error => exact ⟨hc, 0, rfl, fun _ => trivial⟩

end Within

/-! ## Errors -/

/-- Where every exchange is as assumed, the method ends with no error but such ones. -/
def Throws (assumed : Exchange Answer → Prop) (m : Method Call Answer σ ε α) (allowed : ε → Prop) : Prop :=
  ∀ s trace error s', (∀ x ∈ trace, assumed x) → m.Runs s trace (.error error) s' → allowed error

section Throws

variable {assumed : Exchange Answer → Prop} {allowed : ε → Prop}

/-- A method that returns at once throws nothing. -/
theorem throws_pure (value : α) : Throws assumed (pure value : Method Call Answer σ ε α) allowed := by
  intro s trace error s' _ h
  cases (runs_pure.1 h).2.1

/-- Reading the state throws nothing. -/
theorem throws_get : Throws assumed (get : Method Call Answer σ ε σ) allowed := by
  intro s trace error s' _ h
  cases (runs_get.1 h).2.1

/-- Changing the state throws nothing. -/
theorem throws_modify (f : σ → σ) : Throws assumed (modify f : Method Call Answer σ ε PUnit) allowed := by
  intro s trace error s' _ h
  cases (runs_modify.1 h).2.1

/-- A method that fails at once throws its error. -/
theorem throws_throw {error : ε} (h : allowed error) : Throws assumed (throw error : Method Call Answer σ ε α) allowed := by
  intro s trace error' s' _ hrun
  obtain ⟨-, he, -⟩ := runs_throw.1 hrun
  cases he
  exact h

/-- A sequence throws what its parts throw. -/
theorem throws_bind {m : Method Call Answer σ ε α} {f : α → Method Call Answer σ ε β} (hm : Throws assumed m allowed)
    (hf : ∀ value, Throws assumed (f value) allowed) : Throws assumed (m >>= f) allowed := by
  intro s trace error s' hassumed h
  rcases runs_bind.1 h with ⟨first, second, value, s₁, rfl, -, h⟩ | ⟨error', h, he⟩
  · exact hf value s₁ second error s' (fun x hx => hassumed x (List.mem_append_right _ hx)) h
  · cases he
    exact hm s trace error s' hassumed h

/-- What is done with the answer to a call may count on the exchange being as assumed. -/
theorem throws_call_bind {c : Call} {f : Answer c → Method Call Answer σ ε β}
    (hf : ∀ answer, assumed ⟨c, answer⟩ → Throws assumed (f answer) allowed) : Throws assumed (call c >>= f) allowed := by
  intro s trace error s' hassumed h
  obtain ⟨answer, rest, rfl, hrest⟩ := runs_call_bind.1 h
  exact hf answer (hassumed _ (List.mem_cons_self ..)) s rest error s'
    (fun x hx => hassumed x (List.mem_cons_of_mem _ hx)) hrest

/-- A branch throws what its sides throw. -/
theorem throws_ite {c : Prop} [Decidable c] {m m' : Method Call Answer σ ε α} (hm : c → Throws assumed m allowed)
    (hm' : ¬c → Throws assumed m' allowed) : Throws assumed (if c then m else m') allowed := by
  by_cases hc : c
  · rw [if_pos hc]
    exact hm hc
  · rw [if_neg hc]
    exact hm' hc

end Throws

/-! ## What a method leaves as it is -/

/-- The method leaves this part of the state as it is. -/
def Keeps {τ : Type} (part : σ → τ) (m : Method Call Answer σ ε α) : Prop :=
  ∀ s trace result s', m.Runs s trace result s' → part s' = part s

section Keeps

variable {τ : Type} {part : σ → τ}

/-- A method that returns at once keeps every part of the state. -/
theorem keeps_pure (value : α) : Keeps part (pure value : Method Call Answer σ ε α) := by
  intro s trace result s' h
  rw [(runs_pure.1 h).2.2]

/-- A method that fails at once keeps every part of the state. -/
theorem keeps_throw (error : ε) : Keeps part (throw error : Method Call Answer σ ε α) := by
  intro s trace result s' h
  rw [(runs_throw.1 h).2.2]

/-- Reading the state keeps every part of it. -/
theorem keeps_get : Keeps part (get : Method Call Answer σ ε σ) := by
  intro s trace result s' h
  rw [(runs_get.1 h).2.2]

/-- A change of the state keeps the parts that it leaves alone. -/
theorem keeps_modify {f : σ → σ} (hf : ∀ s, part (f s) = part s) : Keeps part (modify f : Method Call Answer σ ε PUnit) := by
  intro s trace result s' h
  rw [(runs_modify.1 h).2.2, hf]

/-- A sequence leaves what its parts leave. -/
theorem keeps_bind {m : Method Call Answer σ ε α} {f : α → Method Call Answer σ ε β} (hm : Keeps part m)
    (hf : ∀ value, Keeps part (f value)) : Keeps part (m >>= f) := by
  intro s trace result s' h
  rcases runs_bind.1 h with ⟨first, second, value, s₁, -, hfirst, hsecond⟩ | ⟨error, hfirst, -⟩
  · exact (hf value _ _ _ _ hsecond).trans (hm _ _ _ _ hfirst)
  · exact hm _ _ _ _ hfirst

/-- A call keeps what its continuation keeps. -/
theorem keeps_call_bind {c : Call} {f : Answer c → Method Call Answer σ ε β} (hf : ∀ answer, Keeps part (f answer)) :
    Keeps part (call c >>= f) := by
  intro s trace result s' h
  obtain ⟨answer, rest, -, hrest⟩ := runs_call_bind.1 h
  exact hf answer _ _ _ _ hrest

/-- A choice keeps what both its branches keep. -/
theorem keeps_ite {c : Prop} [Decidable c] {m m' : Method Call Answer σ ε α} (hm : Keeps part m) (hm' : Keeps part m') :
    Keeps part (if c then m else m') := by
  split
  · exact hm
  · exact hm'

end Keeps

/-! ## Loops -/

/-- The runs of `loop { turn }`: a turn that returns nothing is followed by another. -/
inductive LoopRuns (turn : Method Call Answer σ ε (Option α)) : σ → List (Exchange Answer) → Except ε α → σ → Prop
  | again {s s₁ s' : σ} {first rest : List (Exchange Answer)} {result : Except ε α} :
    turn.Runs s first (.ok none) s₁ → LoopRuns turn s₁ rest result s' → LoopRuns turn s (first ++ rest) result s'
  | returned {s s' : σ} {trace : List (Exchange Answer)} {value : α} :
    turn.Runs s trace (.ok (some value)) s' → LoopRuns turn s trace (.ok value) s'
  | failed {s s' : σ} {trace : List (Exchange Answer)} {error : ε} :
    turn.Runs s trace (.error error) s' → LoopRuns turn s trace (.error error) s'

/-- A loop ends with an error only if one of its turns does. -/
theorem LoopRuns.throws {assumed : Exchange Answer → Prop} {allowed : ε → Prop} {turn : Method Call Answer σ ε (Option α)}
    (hturn : Throws assumed turn allowed) {s s' : σ} {trace : List (Exchange Answer)} {error : ε}
    (h : LoopRuns turn s trace (.error error) s') (hassumed : ∀ x ∈ trace, assumed x) : allowed error := by
  generalize hresult : (Except.error error : Except ε α) = result at h
  induction h with
  | again _ _ ih => exact ih (fun x hx => hassumed x (List.mem_append_right _ hx)) hresult
  | returned _ => cases hresult
  | failed h =>
    cases hresult
    exact hturn _ _ _ _ hassumed h

/-- A loop leaves what its turns leave. -/
theorem LoopRuns.keeps {τ : Type} {part : σ → τ} {turn : Method Call Answer σ ε (Option α)} (hturn : Keeps part turn) {s s' : σ}
    {trace : List (Exchange Answer)} {result : Except ε α} (h : LoopRuns turn s trace result s') : part s' = part s := by
  induction h with
  | again hfirst _ ih => exact ih.trans (hturn _ _ _ _ hfirst)
  | returned hlast => exact hturn _ _ _ _ hlast
  | failed hlast => exact hturn _ _ _ _ hlast

/-- Where a property of the exchanges of a turn makes the turn end with one error, the same property of the exchanges of a loop
makes the loop end with that error. -/
theorem LoopRuns.error_of {P : List (Exchange Answer) → Prop} {error : ε} {turn : Method Call Answer σ ε (Option α)}
    (happend : ∀ first second, P (first ++ second) → P first ∨ P second)
    (hturn : ∀ s trace result s', turn.Runs s trace result s' → P trace → result = .error error) {s s' : σ}
    {trace : List (Exchange Answer)} {result : Except ε α} (h : LoopRuns turn s trace result s') (htrace : P trace) :
    result = .error error := by
  induction h with
  | again hfirst _ ih =>
    rcases happend _ _ htrace with hP | hP
    · cases hturn _ _ _ _ hfirst hP
    · exact ih hP
  | returned h => cases hturn _ _ _ _ h htrace
  | failed h =>
    cases hturn _ _ _ _ h htrace
    rfl

/-- Turns of a loop that all return nothing, with the exchanges of each. -/
inductive Turns (turn : Method Call Answer σ ε (Option α)) : σ → List (List (Exchange Answer)) → σ → Prop
  | nil (s : σ) : Turns turn s [] s
  | cons {s s₁ s' : σ} {first : List (Exchange Answer)} {rest : List (List (Exchange Answer))} :
    turn.Runs s first (.ok none) s₁ → Turns turn s₁ rest s' → Turns turn s (first :: rest) s'

/-- One more turn that does not decide. -/
theorem Turns.snoc {turn : Method Call Answer σ ε (Option α)} {s s₁ s' : σ} {turns : List (List (Exchange Answer))}
    {last : List (Exchange Answer)} (h : Turns turn s turns s₁) (hlast : turn.Runs s₁ last (.ok none) s') :
    Turns turn s (turns ++ [last]) s' := by
  induction h with
  | nil s => exact .cons hlast (.nil s')
  | cons hfirst _ ih => exact .cons hfirst (ih hlast)

/-- Turns that make no more than so many calls each. -/
theorem Turns.length_flatten_le {allowed : Call → Prop} {n : Nat} {turn : Method Call Answer σ ε (Option α)} {s s' : σ}
    {turns : List (List (Exchange Answer))} (h : Turns turn s turns s') (hturn : Within allowed turn n) :
    turns.flatten.length ≤ n * turns.length := by
  induction h with
  | nil s => exact Nat.zero_le _
  | cons hfirst _ ih =>
    have hlength := hturn.length_le hfirst
    rw [List.flatten_cons, List.length_append, List.length_cons, Nat.mul_succ]
    omega

/-- A run of a loop is turns that return nothing, and one that ends it. -/
theorem loopRuns_iff {turn : Method Call Answer σ ε (Option α)} {s s' : σ} {trace : List (Exchange Answer)}
    {result : Except ε α} : LoopRuns turn s trace result s' ↔ ∃ turns last s₁, trace = turns.flatten ++ last ∧ Turns turn s turns s₁ ∧
      turn.Runs s₁ last (result.map some) s' := by
  constructor
  · intro h
    induction h with
    | again hfirst _ ih =>
      obtain ⟨turns, last, s₁, rfl, hturns, hlast⟩ := ih
      exact ⟨_ :: turns, last, s₁, (List.append_assoc ..).symm, .cons hfirst hturns, hlast⟩
    | returned h => exact ⟨[], _, _, rfl, .nil _, h⟩
    | failed h => exact ⟨[], _, _, rfl, .nil _, h⟩
  · rintro ⟨turns, last, s₁, rfl, hturns, hlast⟩
    induction hturns with
    | nil s =>
      cases result with
      | ok value => exact .returned hlast
      | error error => exact .failed hlast
    | cons hfirst _ ih =>
      rw [List.flatten_cons, List.append_assoc]
      exact .again hfirst (ih hlast)

/-- In an environment where the turns of a loop are bounded, the loop has a run, of no more than one turn more. -/
theorem exists_loopRuns {turn : Method Call Answer σ ε (Option α)} {env : Environment Answer} {past : List (Exchange Answer)}
    {s : σ} {bound : Nat} (hbound : ∀ turns s₁, Turns turn s turns s₁ → env.Gives past turns.flatten → turns.length ≤ bound) :
    ∃ turns last s₁ result s', Turns turn s turns s₁ ∧ turn.Runs s₁ last (Except.map some result) s' ∧
      env.Gives past (turns.flatten ++ last) ∧ turns.length ≤ bound := by
  by_contra hnone
  have hlong : ∀ n, ∃ turns s₁, Turns turn s turns s₁ ∧ env.Gives past turns.flatten ∧ turns.length = n := by
    intro n
    induction n with
    | zero => exact ⟨[], s, .nil s, trivial, rfl⟩
    | succ n ih =>
      obtain ⟨turns, s₁, hturns, hgives, rfl⟩ := ih
      obtain ⟨last, ⟨result, s'⟩, hlast, hgives'⟩ := env.exists_runs (turn s₁) (past ++ turns.flatten)
      have hall := Environment.gives_append.2 ⟨hgives, hgives'⟩
      cases result with
      | error error => exact absurd ⟨turns, last, s₁, .error error, s', hturns, hlast, hall, hbound _ _ hturns hgives⟩ hnone
      | ok value =>
        cases value with
        | some value => exact absurd ⟨turns, last, s₁, .ok value, s', hturns, hlast, hall, hbound _ _ hturns hgives⟩ hnone
        | none =>
          refine ⟨turns ++ [last], s', hturns.snoc hlast, ?_, by rw [List.length_append, List.length_singleton]⟩
          rw [List.flatten_append, List.flatten_singleton]
          exact hall
  obtain ⟨turns, s₁, hturns, hgives, hlength⟩ := hlong (bound + 1)
  have := hbound turns s₁ hturns hgives
  omega

/-! ## Under way -/

/-- After these exchanges, the method makes this call next. -/
def Asks (m : Method Call Answer σ ε α) (s : σ) (trace : List (Exchange Answer)) (c : Call) : Prop :=
  ∃ next, (m s).Leads trace (.ask c next)

/-- After turns that return nothing, and these exchanges of the next turn, a loop is left with this program of the turn. -/
def LoopLeads (turn : Method Call Answer σ ε (Option α)) (s : σ) (trace : List (Exchange Answer))
    (rest : Program Call Answer (Except ε (Option α) × σ)) : Prop :=
  ∃ turns begun s₁, trace = turns.flatten ++ begun ∧ Turns turn s turns s₁ ∧ (turn s₁).Leads begun rest

/-- After these exchanges, the loop makes this call next. -/
def LoopAsks (turn : Method Call Answer σ ε (Option α)) (s : σ) (trace : List (Exchange Answer)) (c : Call) : Prop :=
  ∃ next, LoopLeads turn s trace (.ask c next)

/-- These exchanges have been made so far: none, or the last one was asked for after those before it. -/
def Begun (asks : List (Exchange Answer) → Call → Prop) (trace : List (Exchange Answer)) : Prop :=
  trace = [] ∨ ∃ before x, trace = before ++ [x] ∧ asks before x.1

section Begun

variable {m : Method Call Answer σ ε α} {turn : Method Call Answer σ ε (Option α)} {s : σ} {trace : List (Exchange Answer)}

/-- Begun with one kind of call, begun with any kind that takes it in. -/
theorem Begun.imp {asks asks' : List (Exchange Answer) → Call → Prop} (h : Begun asks trace)
    (himp : ∀ before c, asks before c → asks' before c) : Begun asks' trace := by
  obtain rfl | ⟨before, x, rfl, hasks⟩ := h
  · exact Or.inl rfl
  · exact Or.inr ⟨before, x, rfl, himp _ _ hasks⟩

/-- A method makes no call but such ones, and no more than so many. -/
theorem Asks.within {allowed : Call → Prop} {n : Nat} {c : Call} (h : m.Asks s trace c) (hm : Within allowed m n) :
    allowed c ∧ trace.length < n := by
  obtain ⟨next, hleads⟩ := h
  obtain ⟨-, k, rfl, hcall, l, rfl, -⟩ := (hm s).leads hleads
  exact ⟨hcall, by omega⟩

/-- A loop makes no call but such ones, and no more than so many in each turn. -/
theorem LoopAsks.within {allowed : Call → Prop} {n : Nat} {c : Call} (h : LoopAsks turn s trace c) (hturn : Within allowed turn n) :
    allowed c ∧ ∃ turns rest s₁, trace = turns.flatten ++ rest ∧ Turns turn s turns s₁ ∧ trace.length < n * (turns.length + 1) := by
  obtain ⟨next, turns, begun, s₁, rfl, hturns, hleads⟩ := h
  obtain ⟨hcall, hbegun⟩ := Asks.within ⟨next, hleads⟩ hturn
  refine ⟨hcall, turns, begun, s₁, rfl, hturns, ?_⟩
  have hflat := hturns.length_flatten_le hturn
  rw [List.length_append, Nat.mul_succ]
  omega

/-- Every call of a run is asked for. -/
theorem Runs.asks {result : Except ε α} {s' : σ} (h : m.Runs s trace result s') {before after : List (Exchange Answer)}
    {x : Exchange Answer} (htrace : trace = before ++ x :: after) : m.Asks s before x.1 :=
  (Program.Runs.leads h).asked htrace

/-- What a loop asks for after its first turn. -/
theorem LoopAsks.again {first : List (Exchange Answer)} {s₁ : σ} {c : Call} (hfirst : turn.Runs s first (.ok none) s₁)
    (h : LoopAsks turn s₁ trace c) : LoopAsks turn s (first ++ trace) c := by
  obtain ⟨next, turns, begun, s₂, rfl, hturns, hleads⟩ := h
  exact ⟨next, first :: turns, begun, s₂, by rw [List.flatten_cons, List.append_assoc], .cons hfirst hturns, hleads⟩

/-- Every call of a run of a loop is asked for. -/
theorem LoopRuns.asks {result : Except ε α} {s' : σ} (h : LoopRuns turn s trace result s') {before after : List (Exchange Answer)}
    {x : Exchange Answer} (htrace : trace = before ++ x :: after) : LoopAsks turn s before x.1 := by
  have hturn : ∀ {s s' : σ} {result : Except ε (Option α)} {trace before after : List (Exchange Answer)}, turn.Runs s trace result s' →
      trace = before ++ x :: after → LoopAsks turn s before x.1 := by
    intro s s' result trace before after hrun htrace
    obtain ⟨next, hleads⟩ := hrun.asks htrace
    exact ⟨next, [], before, s, rfl, .nil s, hleads⟩
  induction h generalizing before with
  | again hfirst _ ih =>
    obtain ⟨between, rfl, hrest⟩ | ⟨between, rfl, hrest⟩ := List.append_eq_append_iff.1 htrace
    · exact (ih hrest).again hfirst
    · cases between with
      | nil =>
        rw [List.append_nil] at hfirst
        have hnext := LoopAsks.again hfirst (@ih [] hrest.symm)
        rwa [List.append_nil] at hnext
      | cons y between =>
        obtain ⟨rfl, -⟩ := List.cons.inj hrest
        exact hturn hfirst rfl
  | returned hlast => exact hturn hlast htrace
  | failed hlast => exact hturn hlast htrace

end Begun

end Method
