import Mathlib.Data.List.Induction
import Mathlib.Data.Nat.ModEq
import Mathlib.Tactic.Ring

/-!
# One's-complement sums

Sums of machine words with an end-around carry, over any modulus `m` (for words of `w` bits, `m = 2 ^ w - 1`), and the sum
of the 16-bit words of a byte sequence that Internet checksums are computed from. Nothing here knows a protocol.

A positive number has one representative in `1 .. m` with the same residue, and zero stands for itself: `endAround m n` is
that representative. Carrying the high part of a sum around to its low part keeps it (`endAround_carry`), which is why a
loop that carries until nothing is left computes it, and why it is what adding word by word with an end-around carry comes to
(`endAroundSum_eq`).
-/

namespace OnesComplement

/-- The one's-complement value of a sum: zero for zero, otherwise the representative in `1 .. m` of its residue. -/
def endAround (m n : Nat) : Nat := if n = 0 then 0 else (n - 1) % m + 1

@[simp] theorem endAround_zero (m : Nat) : endAround m 0 = 0 := rfl

/-- The value of a positive sum. -/
theorem endAround_of_pos {m n : Nat} (h : 0 < n) : endAround m n = (n - 1) % m + 1 := by
  simp [endAround, Nat.pos_iff_ne_zero.mp h]

/-- An end-around sum is no larger than its modulus. -/
theorem endAround_le {m : Nat} (hm : 0 < m) (n : Nat) : endAround m n ≤ m := by
  unfold endAround
  split
  · omega
  · have := Nat.mod_lt (n - 1) hm
    omega

/-- A sum that is a word already is its own value. -/
theorem endAround_of_le {m n : Nat} (h : n ≤ m) : endAround m n = n := by
  unfold endAround
  split
  · omega
  · rw [Nat.mod_eq_of_lt (by omega)]
    omega

/-- Two positive sums with the same residue have the same value. -/
theorem endAround_congr {m a b : Nat} (ha : 0 < a) (hb : 0 < b) (h : a ≡ b [MOD m]) : endAround m a = endAround m b := by
  rw [endAround_of_pos ha, endAround_of_pos hb]
  have h' : a - 1 ≡ b - 1 [MOD m] := by
    apply Nat.ModEq.add_right_cancel' 1
    rwa [Nat.sub_add_cancel ha, Nat.sub_add_cancel hb]
  rw [h']

/-- The end-around carry: adding the part above the word to the word keeps the value. -/
theorem endAround_carry (m n : Nat) : endAround m (n % (m + 1) + n / (m + 1)) = endAround m n := by
  rcases Nat.eq_zero_or_pos n with rfl | hn
  · simp
  have hdm := Nat.mod_add_div n (m + 1)
  apply endAround_congr _ hn
  · have : n % (m + 1) + n / (m + 1) + m * (n / (m + 1)) = n :=
      calc n % (m + 1) + n / (m + 1) + m * (n / (m + 1)) = n % (m + 1) + (m + 1) * (n / (m + 1)) := by ring
        _ = n := hdm
    exact (Nat.modEq_iff_dvd' (by omega)).2 ⟨n / (m + 1), by omega⟩
  · rcases Nat.eq_zero_or_pos (n / (m + 1)) with h0 | h0
    · rw [h0, Nat.mul_zero, Nat.add_zero] at hdm
      omega
    · omega

/-- The value is all ones exactly for the positive multiples of the modulus: "negative zero". -/
theorem endAround_eq_modulus_iff {m : Nat} (hm : 0 < m) (n : Nat) : endAround m n = m ↔ 0 < n ∧ m ∣ n := by
  rcases Nat.eq_zero_or_pos n with rfl | hn
  · simp [hm.ne]
  rw [endAround_of_pos hn]
  constructor
  · intro h
    refine ⟨hn, ⟨(n - 1) / m + 1, ?_⟩⟩
    have := Nat.mod_add_div (n - 1) m
    rw [Nat.mul_add]
    omega
  · rintro ⟨_, k, rfl⟩
    obtain ⟨j, rfl⟩ : ∃ j, k = j + 1 := ⟨k - 1, by rcases k with _ | k <;> simp at hn ⊢⟩
    have : m * (j + 1) - 1 = (m - 1) + m * j := by rw [Nat.mul_add]; omega
    rw [this, Nat.add_mul_mod_self_left, Nat.mod_eq_of_lt (by omega)]
    omega

/-- One's-complement addition of two words: the carry out of the word is added in at its low end. -/
def endAroundAdd (m a b : Nat) : Nat := if a + b ≤ m then a + b else a + b - m

/-- The one's-complement sum of words, added one by one. -/
def endAroundSum (m : Nat) (ws : List Nat) : Nat := ws.foldl (endAroundAdd m) 0

/-- Adding a word to the value of a sum gives the value of the sum with the word. -/
theorem endAroundAdd_endAround {m : Nat} (hm : 0 < m) (n : Nat) {w : Nat} (hw : w ≤ m) :
    endAroundAdd m (endAround m n) w = endAround m (n + w) := by
  have hle := endAround_le hm n
  have hvalue : endAround m (endAround m n + w) = endAround m (n + w) := by
    rcases Nat.eq_zero_or_pos n with rfl | hn
    · rw [endAround_zero]
    · have hdiv := Nat.mod_add_div (n - 1) m
      have hpos : 0 < endAround m n := by rw [endAround_of_pos hn]; omega
      refine endAround_congr (by omega) (by omega) (Nat.ModEq.add_right w ?_)
      refine (Nat.modEq_iff_dvd' ?_).2 ⟨(n - 1) / m, ?_⟩ <;> rw [endAround_of_pos hn] <;> omega
  rw [← hvalue, endAroundAdd]
  split
  · rename_i hfits
    exact (endAround_of_le hfits).symm
  · rename_i hcarry
    have hback : endAround m (endAround m n + w) = endAround m (endAround m n + w - m) := by
      refine endAround_congr (by omega) (by omega) ((Nat.modEq_iff_dvd' (by omega)).2 ⟨1, by omega⟩).symm
    have hword : endAround m (endAround m n + w - m) = endAround m n + w - m := endAround_of_le (by omega)
    rw [hback, hword]

/-- Adding words one by one gives the value of their sum. -/
theorem endAroundSum_eq {m : Nat} (hm : 0 < m) (ws : List Nat) (hws : ∀ w ∈ ws, w ≤ m) :
    endAroundSum m ws = endAround m ws.sum := by
  induction ws using List.reverseRecOn with
  | nil => rfl
  | append_singleton ws w ih =>
    have hinit : ∀ w ∈ ws, w ≤ m := fun w hw => hws w (List.mem_append_left _ hw)
    have hlast : w ≤ m := hws w (List.mem_append_right _ (List.mem_singleton_self w))
    rw [List.sum_append, List.sum_singleton, ← endAroundAdd_endAround hm _ hlast, ← ih hinit, endAroundSum, List.foldl_append]
    rfl

/-! ## The 16-bit words of a byte sequence -/

/-- The big-endian 16-bit words of a byte sequence; an odd last byte is padded with a zero byte. -/
def words : List UInt8 → List Nat
  | [] => []
  | [a] => [a.toNat * 256]
  | a :: b :: rest => (a.toNat * 256 + b.toNat) :: words rest

/-- The words of a byte string fit in sixteen bits. -/
theorem le_of_mem_words (bytes : List UInt8) : ∀ w ∈ words bytes, w ≤ 65535 := by
  induction bytes using words.induct with
  | case1 => exact List.forall_mem_nil _
  | case2 a =>
    have := a.toNat_lt
    simp only [words, List.mem_singleton, forall_eq]
    omega
  | case3 a b rest ih =>
    have ha := a.toNat_lt
    have hb := b.toNat_lt
    simp only [words, List.forall_mem_cons]
    exact ⟨by omega, ih⟩

/-- The sum of the big-endian 16-bit words of a byte sequence; an odd last byte is padded with a zero byte. -/
def wordSum : List UInt8 → Nat
  | [] => 0
  | [a] => a.toNat * 256
  | a :: b :: rest => a.toNat * 256 + b.toNat + wordSum rest

@[simp] theorem wordSum_nil : wordSum [] = 0 := rfl

@[simp] theorem wordSum_singleton (a : UInt8) : wordSum [a] = a.toNat * 256 := rfl

/-- A word at the front adds its value. -/
@[simp] theorem wordSum_cons_cons (a b : UInt8) (rest : List UInt8) :
    wordSum (a :: b :: rest) = a.toNat * 256 + b.toNat + wordSum rest := rfl

/-- The sum of the words, word by word. -/
theorem sum_words (bytes : List UInt8) : (words bytes).sum = wordSum bytes := by
  induction bytes using words.induct with
  | case1 => rfl
  | case2 a => simp only [words, List.sum_singleton, wordSum_singleton]
  | case3 a b rest ih => simp only [words, List.sum_cons, wordSum_cons_cons, ih]

/-- An even number of bytes in front adds its own words. -/
theorem wordSum_append (xs ys : List UInt8) (h : xs.length % 2 = 0) : wordSum (xs ++ ys) = wordSum xs + wordSum ys := by
  induction xs using wordSum.induct with
  | case1 => simp
  | case2 a => simp at h
  | case3 a b rest ih =>
    have ih := ih (by simp only [List.length_cons] at h; omega)
    simp only [List.cons_append, wordSum_cons_cons, ih]
    omega

/-- Every word is at most `2 ^ 16 - 1`, and there is one for each started pair of bytes. -/
theorem wordSum_le (bytes : List UInt8) : wordSum bytes ≤ 65535 * ((bytes.length + 1) / 2) := by
  induction bytes using wordSum.induct with
  | case1 => simp
  | case2 a =>
    have := a.toNat_lt
    simp only [wordSum_singleton, List.length_singleton]
    omega
  | case3 a b rest ih =>
    have ha := a.toNat_lt
    have hb := b.toNat_lt
    have hlen : (rest.length + 1 + 1 + 1) / 2 = (rest.length + 1) / 2 + 1 := by omega
    simp only [wordSum_cons_cons, List.length_cons, hlen]
    omega

/-- The word at a place, padded with zero bytes where the sequence ends. -/
def wordAt (bytes : List UInt8) (k : Nat) : Nat := (bytes.getD (2 * k) 0).toNat * 256 + (bytes.getD (2 * k + 1) 0).toNat

/-- A word fits in sixteen bits. -/
theorem wordAt_le (bytes : List UInt8) (k : Nat) : wordAt bytes k ≤ 65535 := by
  have ha := (bytes.getD (2 * k) 0).toNat_lt
  have hb := (bytes.getD (2 * k + 1) 0).toNat_lt
  unfold wordAt
  omega

/-- The two bytes of a word are determined by it. -/
theorem wordAt_inj {xs ys : List UInt8} {k : Nat} :
    wordAt xs k = wordAt ys k ↔ xs.getD (2 * k) 0 = ys.getD (2 * k) 0 ∧ xs.getD (2 * k + 1) 0 = ys.getD (2 * k + 1) 0 := by
  have ha := (xs.getD (2 * k) 0).toNat_lt
  have hb := (xs.getD (2 * k + 1) 0).toNat_lt
  have ha' := (ys.getD (2 * k) 0).toNat_lt
  have hb' := (ys.getD (2 * k + 1) 0).toNat_lt
  rw [← UInt8.toNat_inj, ← UInt8.toNat_inj]
  unfold wordAt
  omega

/-- Two sequences that agree outside one word have sums that differ as that word does. -/
theorem wordSum_add_wordAt (xs : List UInt8) : ∀ (ys : List UInt8) (k : Nat), ys.length = xs.length →
    (∀ i, i / 2 ≠ k → ys.getD i 0 = xs.getD i 0) → wordSum ys + wordAt xs k = wordSum xs + wordAt ys k := by
  induction xs using wordSum.induct with
  | case1 =>
    intro ys k hlen _
    rw [List.eq_nil_of_length_eq_zero hlen]
  | case2 a =>
    intro ys k hlen hagree
    obtain ⟨b, rfl⟩ := List.length_eq_one_iff.1 hlen
    cases k with
    | zero => simp [wordAt, Nat.add_comm]
    | succ k =>
      have hab : b = a := hagree 0 (by omega)
      rw [hab]
  | case3 a b rest ih =>
    intro ys k hlen hagree
    obtain ⟨c, ys, rfl⟩ := List.exists_cons_of_length_eq_add_one hlen
    obtain ⟨d, ys, rfl⟩ := List.exists_cons_of_length_eq_add_one (Nat.succ.inj hlen)
    have hlen : ys.length = rest.length := by simpa using hlen
    cases k with
    | zero =>
      have hrest : ys = rest := by
        refine List.ext_getElem hlen fun i hi hi' => ?_
        have hi := hagree (i + 2) (by omega)
        simpa [List.getD_eq_getElem?_getD, hi', hlen] using hi
      subst hrest
      simp only [wordSum_cons_cons, wordAt, Nat.mul_zero, List.getD_cons_zero, Nat.zero_add, List.getD_cons_succ]
      omega
    | succ k =>
      have hca : c = a := hagree 0 (by omega)
      have hdb : d = b := hagree 1 (by omega)
      have hrest := ih ys k hlen fun i hi => hagree (i + 2) (by omega)
      have hshift : ∀ (x y : UInt8) (zs : List UInt8), wordAt (x :: y :: zs) (k + 1) = wordAt zs k := fun _ _ _ => rfl
      rw [hca, hdb, wordSum_cons_cons, wordSum_cons_cons, hshift, hshift]
      omega

end OnesComplement
