import Mathlib

/-!
# Numbers in machine words

A number is a list of words of `w` bits, the least significant one first. A sum, a product by one word or an
increment passes a carry from word to word; `value_ripple` turns what one word does into what the number does.
Shifts are read bit by bit, and a quotient bit by bit from the top.
-/

namespace Words

open List

variable {w : ℕ}

/-- The number in the words. -/
def value (xs : List (BitVec w)) : ℕ := Nat.ofDigits (2 ^ w) (xs.map BitVec.toNat)

@[simp] lemma value_nil : value ([] : List (BitVec w)) = 0 := rfl

@[simp] lemma value_cons (x : BitVec w) (xs : List (BitVec w)) : value (x :: xs) = x.toNat + 2 ^ w * value xs := by
  rw [value, map_cons, Nat.ofDigits_cons, value]

lemma value_lt (xs : List (BitVec w)) : value xs < 2 ^ (w * xs.length) := by
  induction xs with
  | nil => simp
  | cons x xs ih =>
    have hx := x.isLt
    rw [value_cons, length_cons, Nat.mul_succ, Nat.add_comm (w * _), pow_add]
    have hle : 2 ^ w * (value xs + 1) ≤ 2 ^ w * 2 ^ (w * xs.length) := Nat.mul_le_mul_left _ ih
    rw [Nat.mul_succ] at hle
    omega

lemma value_replicate_zero (n : ℕ) : value (List.replicate n (0 : BitVec w)) = 0 := by
  induction n with
  | zero => rfl
  | succ n ih => rw [replicate_succ, value_cons, ih]; simp

lemma testBit_value (hw : 0 < w) (xs : List (BitVec w)) (p : ℕ) :
    (value xs).testBit p = (xs.getD (p / w) 0).getLsbD (p % w) := by
  induction xs generalizing p with
  | nil => simp
  | cons x xs ih =>
    rw [value_cons, Nat.add_comm, Nat.testBit_two_pow_mul_add _ x.isLt]
    split_ifs with hp
    · rw [Nat.div_eq_of_lt hp, Nat.mod_eq_of_lt hp, getD_cons_zero, BitVec.getLsbD]
    · have hge : w ≤ p := not_lt.mp hp
      rw [ih, Nat.div_eq_sub_div hw hge, Nat.mod_eq_sub_mod hge, getD_cons_succ]

lemma value_injective {xs ys : List (BitVec w)} (hlen : xs.length = ys.length) (h : value xs = value ys) : xs = ys := by
  induction xs generalizing ys with
  | nil => exact (length_eq_zero_iff.mp hlen.symm).symm
  | cons x xs ih =>
    obtain _ | ⟨y, ys⟩ := ys
    · cases hlen
    rw [value_cons, value_cons] at h
    have hword : x.toNat = y.toNat := by
      have hmod := congrArg (· % 2 ^ w) h
      simpa [Nat.mod_eq_of_lt x.isLt, Nat.mod_eq_of_lt y.isLt] using hmod
    have hrest : value xs = value ys := by
      rw [hword] at h
      exact Nat.eq_of_mul_eq_mul_left (Nat.two_pow_pos w) (Nat.add_left_cancel h)
    rw [BitVec.eq_of_toNat_eq hword, ih (Nat.succ.inj hlen) hrest]

section Ripple

variable {α C : Type}

/-- Goes through the words from the least significant one and hands a carry on. -/
def ripple (step : C → α → BitVec w × C) : C → List α → List (BitVec w)
  | _, [] => []
  | carry, x :: xs => (step carry x).1 :: ripple step (step carry x).2 xs

@[simp] lemma length_ripple (step : C → α → BitVec w × C) (carry : C) (xs : List α) :
    (ripple step carry xs).length = xs.length := by
  induction xs generalizing carry with
  | nil => rfl
  | cons x xs ih => rw [ripple, length_cons, length_cons, ih]

/-- When a step keeps the sum of what it reads and of the carry, so does the whole number, up to the carry out of
the last word. -/
theorem value_ripple {step : C → α → BitVec w × C} (amount : C → ℕ) {digit : α → ℕ} {good : C → Prop}
    (hstep : ∀ carry x, good carry →
      (step carry x).1.toNat + 2 ^ w * amount (step carry x).2 = digit x + amount carry ∧ good (step carry x).2)
    (carry : C) (hcarry : good carry) (xs : List α) :
    value (ripple step carry xs) = (Nat.ofDigits (2 ^ w) (xs.map digit) + amount carry) % 2 ^ (w * xs.length) := by
  have hsum : ∃ out, value (ripple step carry xs) + 2 ^ (w * xs.length) * out =
      Nat.ofDigits (2 ^ w) (xs.map digit) + amount carry := by
    induction xs generalizing carry with
    | nil => exact ⟨amount carry, by simp [ripple]⟩
    | cons x xs ih =>
      obtain ⟨hword, hgood⟩ := hstep carry x hcarry
      obtain ⟨out, hout⟩ := ih _ hgood
      refine ⟨out, ?_⟩
      have hpow : 2 ^ (w * (x :: xs).length) * out = 2 ^ w * (2 ^ (w * xs.length) * out) := by
        rw [length_cons, Nat.mul_succ, pow_add, Nat.mul_comm (2 ^ _), Nat.mul_assoc]
      rw [ripple, value_cons, hpow, map_cons, Nat.ofDigits_cons, Nat.add_assoc, ← Nat.mul_add, hout, Nat.mul_add]
      omega
  obtain ⟨out, hout⟩ := hsum
  have hlt := value_lt (ripple step carry xs)
  rw [length_ripple] at hlt
  rw [← hout, Nat.add_mul_mod_self_left, Nat.mod_eq_of_lt hlt]

end Ripple

lemma ofDigits_zip_add (xs ys : List (BitVec w)) (hlen : xs.length = ys.length) :
    Nat.ofDigits (2 ^ w) ((xs.zip ys).map (fun p => p.1.toNat + p.2.toNat)) = value xs + value ys := by
  induction xs generalizing ys with
  | nil => rw [length_eq_zero_iff.mp hlen.symm]; rfl
  | cons x xs ih =>
    obtain _ | ⟨y, ys⟩ := ys
    · cases hlen
    · rw [zip_cons_cons, map_cons, Nat.ofDigits_cons, ih ys (Nat.succ.inj hlen), value_cons, value_cons, Nat.mul_add]
      dsimp only
      omega

lemma ofDigits_map_mul (b : ℕ) (xs : List (BitVec w)) :
    Nat.ofDigits (2 ^ w) (xs.map (fun x => b * x.toNat)) = b * value xs := by
  induction xs with
  | nil => rfl
  | cons x xs ih =>
    rw [map_cons, Nat.ofDigits_cons, ih, value_cons, Nat.mul_add, Nat.mul_left_comm]

lemma ofDigits_zip_mul_add (b : ℕ) {xs ys : List (BitVec w)} (hlen : xs.length ≤ ys.length) :
    ∃ rest, Nat.ofDigits (2 ^ w) ((xs.zip ys).map (fun p => p.1.toNat + b * p.2.toNat)) + 2 ^ (w * xs.length) * rest =
      value xs + b * value ys := by
  induction xs generalizing ys with
  | nil => exact ⟨b * value ys, by simp⟩
  | cons x xs ih =>
    obtain _ | ⟨y, ys⟩ := ys
    · cases hlen
    · obtain ⟨rest, hrest⟩ := ih (Nat.le_of_succ_le_succ hlen)
      refine ⟨rest, ?_⟩
      rw [zip_cons_cons, map_cons, Nat.ofDigits_cons, length_cons, Nat.mul_succ, pow_add, value_cons, value_cons]
      linear_combination 2 ^ w * hrest

lemma value_map_not (xs : List (BitVec w)) : value (xs.map (~~~ ·)) + value xs + 1 = 2 ^ (w * xs.length) := by
  induction xs with
  | nil => rfl
  | cons x xs ih =>
    have hx := x.isLt
    have hnot : (~~~x).toNat + x.toNat + 1 = 2 ^ w := by rw [BitVec.toNat_not]; omega
    have hpow : 2 ^ (w * (x :: xs).length) = 2 ^ w * (value (xs.map (~~~ ·)) + value xs + 1) := by
      rw [ih, length_cons, Nat.mul_succ, pow_add, Nat.mul_comm]
    rw [map_cons, value_cons, value_cons, hpow, Nat.mul_add, Nat.mul_add]
    omega

/-- Words are compared from the most significant one. -/
def compareWords : List (BitVec w) → List (BitVec w) → Ordering
  | x :: xs, y :: ys => (compareWords xs ys).then (compare x.toNat y.toNat)
  | _, _ => .eq

lemma compareWords_eq {xs ys : List (BitVec w)} (hlen : xs.length = ys.length) :
    compareWords xs ys = compare (value xs) (value ys) := by
  induction xs generalizing ys with
  | nil => rw [length_eq_zero_iff.mp hlen.symm]; rfl
  | cons x xs ih =>
    obtain _ | ⟨y, ys⟩ := ys
    · cases hlen
    have hx := x.isLt
    have hy := y.isLt
    rw [compareWords, ih (Nat.succ.inj hlen), value_cons, value_cons]
    rcases lt_trichotomy (value xs) (value ys) with hlt | heq | hgt
    · have hle : 2 ^ w * (value xs + 1) ≤ 2 ^ w * value ys := Nat.mul_le_mul_left _ hlt
      rw [Nat.mul_succ] at hle
      rw [Nat.compare_eq_lt.mpr hlt, Ordering.lt_then, Nat.compare_eq_lt.mpr (by omega)]
    · rw [heq, Nat.compare_eq_eq.mpr rfl, Ordering.eq_then, Nat.add_comm, Nat.add_comm y.toNat]
      rcases lt_trichotomy x.toNat y.toNat with hlt | heq | hgt
      · rw [Nat.compare_eq_lt.mpr hlt, Nat.compare_eq_lt.mpr (by omega)]
      · rw [heq, Nat.compare_eq_eq.mpr rfl, Nat.compare_eq_eq.mpr rfl]
      · rw [Nat.compare_eq_gt.mpr hgt, Nat.compare_eq_gt.mpr (by omega)]
    · have hle : 2 ^ w * (value ys + 1) ≤ 2 ^ w * value xs := Nat.mul_le_mul_left _ hgt
      rw [Nat.mul_succ] at hle
      rw [Nat.compare_eq_gt.mpr hgt, Ordering.gt_then, Nat.compare_eq_gt.mpr (by omega)]

end Words
