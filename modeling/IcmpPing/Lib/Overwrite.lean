import Mathlib.Data.List.Basic

/-!
# Writing into a list

A write replaces a stretch of a list and leaves the rest. Two writes to one place come to the second, writes to places apart can
be made in either order, and writing back what is there changes nothing.
-/

namespace List

variable {α : Type*}

/-- The list with `ys` in the place of the elements from `start` on. -/
def overwrite (xs : List α) (start : Nat) (ys : List α) : List α := xs.take start ++ ys ++ xs.drop (start + ys.length)

variable {xs ys zs : List α} {start start' : Nat}

/-- Overwriting keeps the length. -/
@[simp] theorem length_overwrite (h : start + ys.length ≤ xs.length) : (xs.overwrite start ys).length = xs.length := by
  simp only [overwrite, length_append, length_take, length_drop]
  omega

/-- What a list holds after a write: what was written, where it was written, and elsewhere what was there. -/
theorem getElem?_overwrite (h : start + ys.length ≤ xs.length) (i : Nat) :
    (xs.overwrite start ys)[i]? = if start ≤ i ∧ i < start + ys.length then ys[i - start]? else xs[i]? := by
  have htake : (xs.take start).length = start := by
    rw [length_take]
    omega
  unfold overwrite
  by_cases hbefore : i < start
  · rw [append_assoc, getElem?_append_left (by omega), getElem?_take_of_lt hbefore, if_neg (by omega)]
  by_cases hwithin : i < start + ys.length
  · rw [append_assoc, getElem?_append_right (by omega), htake, getElem?_append_left (by omega), if_pos (by omega)]
  · rw [getElem?_append_right (by rw [length_append]; omega), length_append, htake, getElem?_drop, if_neg (by omega)]
    congr 1
    omega

/-- The second of two writes to one place is what stays. -/
theorem overwrite_overwrite (h : start + ys.length ≤ xs.length) (hlen : zs.length = ys.length) :
    (xs.overwrite start ys).overwrite start zs = xs.overwrite start zs := by
  apply ext_getElem?
  intro i
  rw [getElem?_overwrite (by rw [length_overwrite h]; omega), getElem?_overwrite h, getElem?_overwrite (by omega), hlen]
  split
  · rfl
  · rfl

/-- Writes to places apart can be made in either order. -/
theorem overwrite_comm (h : start + ys.length ≤ xs.length) (h' : start' + zs.length ≤ xs.length)
    (hapart : start + ys.length ≤ start' ∨ start' + zs.length ≤ start) :
    (xs.overwrite start ys).overwrite start' zs = (xs.overwrite start' zs).overwrite start ys := by
  apply ext_getElem?
  intro i
  rw [getElem?_overwrite (by rwa [length_overwrite h]), getElem?_overwrite h, getElem?_overwrite (by rwa [length_overwrite h']),
    getElem?_overwrite h']
  by_cases hi : start ≤ i ∧ i < start + ys.length
  · have hi' : ¬(start' ≤ i ∧ i < start' + zs.length) := by omega
    rw [if_neg hi', if_pos hi, if_pos hi]
  · rw [if_neg hi, if_neg hi]

/-- Writing back what is there changes nothing. -/
theorem overwrite_self (h : start + ys.length ≤ xs.length) (hys : ys = (xs.drop start).take ys.length) :
    xs.overwrite start ys = xs := by
  apply ext_getElem?
  intro i
  rw [getElem?_overwrite h]
  split
  · rename_i hi
    rw [hys, getElem?_take_of_lt (by omega), getElem?_drop, Nat.add_sub_cancel' hi.1]
  · rfl

end List
