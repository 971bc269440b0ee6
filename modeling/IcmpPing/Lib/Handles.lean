import IcmpPing.Lib.Program
import Mathlib.Data.Finset.Card
import Mathlib.Data.Finset.SDiff

/-!
# Programs that own handles

Some calls hand out handles, some are made with handles, and some give them back. A program owns handles when it makes its calls
with handles that it holds, gives back only those, and never holds more than so many. What is left of such a program after a call
owns what is held then, so a program that runs among others can be stopped at any call.
-/

/-- What the calls of a program do with handles: those a call is made with, those it gives back, and those its answer hands out. -/
structure Handling {Call : Type} (Answer : Call → Type) (Handle : Type) where
  uses : Call → Finset Handle
  gives : Call → Finset Handle
  hands : Exchange Answer → Finset Handle

namespace Handling

variable {Call : Type} {Answer : Call → Type} {Handle : Type} [DecidableEq Handle] (H : Handling Answer Handle)

/-- What is held after an exchange. -/
def after (held : Finset Handle) (x : Exchange Answer) : Finset Handle := held \ H.gives x.1 ∪ H.hands x

/-- An exchange that hands nothing out leaves what was held, less what was given back. -/
theorem after_of_handless {held : Finset Handle} {x : Exchange Answer} (hhands : H.hands x = ∅) :
    H.after held x = held \ H.gives x.1 := by
  rw [after, hhands, Finset.union_empty]

/-- An exchange that neither hands out nor gives back leaves what was held. -/
theorem after_of_quiet {held : Finset Handle} {x : Exchange Answer} (hgives : H.gives x.1 = ∅) (hhands : H.hands x = ∅) :
    H.after held x = held := by
  rw [H.after_of_handless hhands, hgives, Finset.sdiff_empty]

end Handling

namespace Program

variable {Call : Type} {Answer : Call → Type} {Handle : Type} [DecidableEq Handle] {H : Handling Answer Handle} {limit : Nat}
  {α β : Type}

/-- From what is held, the program makes its calls with handles that it holds, gives back only those, and never holds more than the
limit; when it returns, its value and what is held then are as said. -/
def Owns (H : Handling Answer Handle) (limit : Nat) : Finset Handle → Program Call Answer α → (α → Finset Handle → Prop) → Prop
  | held, .ret value, post => post value held
  | held, .ask call next, post => H.uses call ⊆ held ∧ H.gives call ⊆ held ∧ ∀ answer, Disjoint (H.hands ⟨call, answer⟩) held →
    (H.after held ⟨call, answer⟩).card ≤ limit ∧ (next answer).Owns H limit (H.after held ⟨call, answer⟩) post

/-- What is held at the end may be said more weakly. -/
theorem Owns.mono {p : Program Call Answer α} {held : Finset Handle} {post post' : α → Finset Handle → Prop}
    (h : p.Owns H limit held post) (hpost : ∀ value held', post value held' → post' value held') : p.Owns H limit held post' := by
  induction p generalizing held with
  | ret value => exact hpost value held h
  | ask call next ih =>
    obtain ⟨huses, hgives, hnext⟩ := h
    refine ⟨huses, hgives, fun answer hfresh => ?_⟩
    obtain ⟨hcard, hrest⟩ := hnext answer hfresh
    exact ⟨hcard, ih answer hrest⟩

/-- A program that starts within the limit ends within it. -/
theorem Owns.card_le {p : Program Call Answer α} {held : Finset Handle} {post : α → Finset Handle → Prop}
    (h : p.Owns H limit held post) (hlimit : held.card ≤ limit) :
    p.Owns H limit held fun value held' => post value held' ∧ held'.card ≤ limit := by
  induction p generalizing held with
  | ret value => exact ⟨h, hlimit⟩
  | ask call next ih =>
    obtain ⟨huses, hgives, hnext⟩ := h
    refine ⟨huses, hgives, fun answer hfresh => ?_⟩
    obtain ⟨hcard, hrest⟩ := hnext answer hfresh
    exact ⟨hcard, ih answer hrest hcard⟩

/-- A program that goes on with another owns what each of the two does. -/
theorem Owns.bind {p : Program Call Answer α} {f : α → Program Call Answer β} {held : Finset Handle}
    {post : β → Finset Handle → Prop} (h : p.Owns H limit held fun value held' => (f value).Owns H limit held' post) :
    (p.bind f).Owns H limit held post := by
  induction p generalizing held with
  | ret value => exact h
  | ask call next ih =>
    obtain ⟨huses, hgives, hnext⟩ := h
    refine ⟨huses, hgives, fun answer hfresh => ?_⟩
    obtain ⟨hcard, hrest⟩ := hnext answer hfresh
    exact ⟨hcard, ih answer hrest⟩

end Program

/-! ## Methods -/

namespace Method

variable {Call : Type} {Answer : Call → Type} {Handle : Type} [DecidableEq Handle] {H : Handling Answer Handle} {limit : Nat}
  {σ ε α β : Type} {held : Finset Handle}

/-- From every state, the method owns what is held, and ends with a result and with handles as said. -/
def Owns (H : Handling Answer Handle) (limit : Nat) (held : Finset Handle) (m : Method Call Answer σ ε α)
    (post : Except ε α → Finset Handle → Prop) : Prop :=
  ∀ s, (m s).Owns H limit held fun result held' => post result.1 held'

/-- A method that returns at once holds what it held. -/
theorem owns_pure {value : α} {post : Except ε α → Finset Handle → Prop} (h : post (.ok value) held) :
    Owns H limit held (pure value : Method Call Answer σ ε α) post := fun _ => h

/-- A method that fails at once holds what it held. -/
theorem owns_throw {error : ε} {post : Except ε α → Finset Handle → Prop} (h : post (.error error) held) :
    Owns H limit held (throw error : Method Call Answer σ ε α) post := fun _ => h

/-- A call, and what is done with its answer. -/
theorem owns_call_bind {c : Call} {f : Answer c → Method Call Answer σ ε β} {post : Except ε β → Finset Handle → Prop}
    (huses : H.uses c ⊆ held) (hgives : H.gives c ⊆ held)
    (hf : ∀ answer, Disjoint (H.hands ⟨c, answer⟩) held →
      (H.after held ⟨c, answer⟩).card ≤ limit ∧ Owns H limit (H.after held ⟨c, answer⟩) (f answer) post) :
    Owns H limit held (call c >>= f) post :=
  fun s => ⟨huses, hgives, fun answer hfresh => ⟨(hf answer hfresh).1, (hf answer hfresh).2 s⟩⟩

/-- A call that neither hands out nor gives back a handle. -/
theorem owns_use_bind {c : Call} {f : Answer c → Method Call Answer σ ε β} {post : Except ε β → Finset Handle → Prop}
    (hlimit : held.card ≤ limit) (huses : H.uses c ⊆ held) (hgives : H.gives c = ∅) (hhands : ∀ answer, H.hands ⟨c, answer⟩ = ∅)
    (hf : ∀ answer, Owns H limit held (f answer) post) : Owns H limit held (call c >>= f) post := by
  refine owns_call_bind huses (by rw [hgives]; exact Finset.empty_subset _) fun answer _ => ?_
  rw [H.after_of_quiet hgives (hhands answer)]
  exact ⟨hlimit, hf answer⟩

/-- A sequence goes on with what the first part holds at its end, or ends with its error. -/
theorem owns_bind {m : Method Call Answer σ ε α} {f : α → Method Call Answer σ ε β} {post : Except ε β → Finset Handle → Prop}
    (h : Owns H limit held m fun result held' => match result with
      | .ok value => Owns H limit held' (f value) post
      | .error error => post (.error error) held') : Owns H limit held (m >>= f) post := by
  refine fun s => Program.Owns.bind ((h s).mono fun result held' hresult => ?_)
  obtain ⟨result, s'⟩ := result
  cases result with
  | ok value => exact hresult s'
  | error error => exact hresult

/-- What a method holds at its end may be said more weakly. -/
theorem owns_mono {m : Method Call Answer σ ε α} {post post' : Except ε α → Finset Handle → Prop} (h : Owns H limit held m post)
    (hpost : ∀ result held', post result held' → post' result held') : Owns H limit held m post' :=
  fun s => (h s).mono fun result held' => hpost result.1 held'

/-- A change of the error changes nothing that is held. -/
theorem owns_mapError {ε' : Type} {f : ε → ε'} {m : Method Call Answer σ ε α} {post : Except ε' α → Finset Handle → Prop}
    (h : Owns H limit held m fun result held' => post (result.mapError f) held') : Owns H limit held (mapError f m) post :=
  fun s => Program.Owns.bind (h s)

/-- A destructor gives back what the method still holds, however it ends. -/
theorem owns_dropping {c : Call} {m : Method Call Answer σ ε α} {post : Except ε α → Finset Handle → Prop}
    (hlimit : held.card ≤ limit) (hhands : ∀ answer, H.hands ⟨c, answer⟩ = ∅)
    (h : Owns H limit held m fun result last => H.uses c ⊆ last ∧ H.gives c ⊆ last ∧ post result (last \ H.gives c)) :
    Owns H limit held (dropping c m) post := by
  refine fun s => Program.Owns.bind (((h s).card_le hlimit).mono fun result held' hresult => ?_)
  obtain ⟨⟨huses, hgives, hpost⟩, hcard⟩ := hresult
  refine ⟨huses, hgives, fun answer _ => ?_⟩
  rw [H.after_of_handless (hhands answer)]
  exact ⟨(Finset.card_le_card Finset.sdiff_subset).trans hcard, hpost⟩

/-- A destructor gives back what a method that fails still holds. -/
theorem owns_droppingOnError {c : Call} {m : Method Call Answer σ ε α} {post : Except ε α → Finset Handle → Prop}
    (hlimit : held.card ≤ limit) (hhands : ∀ answer, H.hands ⟨c, answer⟩ = ∅)
    (h : Owns H limit held m fun result last => match result with
      | .ok value => post (.ok value) last
      | .error error => H.uses c ⊆ last ∧ H.gives c ⊆ last ∧ post (.error error) (last \ H.gives c)) :
    Owns H limit held (droppingOnError c m) post := by
  refine fun s => Program.Owns.bind (((h s).card_le hlimit).mono fun result held' hresult => ?_)
  obtain ⟨result, s'⟩ := result
  obtain ⟨hpost, hcard⟩ := hresult
  cases result with
  | ok value => exact hpost
  | error error =>
    obtain ⟨huses, hgives, hpost⟩ := hpost
    refine ⟨huses, hgives, fun answer _ => ?_⟩
    rw [H.after_of_handless (hhands answer)]
    exact ⟨(Finset.card_le_card Finset.sdiff_subset).trans hcard, hpost⟩

end Method
