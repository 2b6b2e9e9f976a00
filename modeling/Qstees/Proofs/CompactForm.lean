import Mathlib.Algebra.Order.Field.Power
import Mathlib.Tactic.Linarith
import Qstees.Proofs.ArithUint256

/-!
# Rounding in the compact form

Writing a number in the compact form and reading it back clears the bits below the mantissa.
-/

namespace Qstees

namespace ArithUint256

open BaseUint

/-- The weight of the lowest bit that the compact form of a number keeps. -/
def keptUnit (n : Nat) : Nat := 256 ^ (Nat.size n / 8 - 2)

def rounded (n : Nat) : Nat := n / keptUnit n * keptUnit n

variable {n m : Nat}

lemma byte_pow (k : Nat) : 256 ^ k = 2 ^ (8 * k) := by
  rw [pow_mul]
  rfl

lemma keptUnit_pos : 0 < keptUnit n := Nat.pow_pos (by decide)

lemma rounded_le (n : Nat) : rounded n ≤ n := Nat.div_mul_le_self n _

lemma le_div_mul {d t : Nat} (hd : 0 < d) (hdvd : d ∣ t) (h : t ≤ m) : t ≤ m / d * d := by
  obtain ⟨q, rfl⟩ := hdvd
  rw [Nat.mul_comm d q]
  apply Nat.mul_le_mul_right
  rw [Nat.le_div_iff_mul_le hd, Nat.mul_comm]
  exact h

lemma rounded_mono (h : n ≤ m) : rounded n ≤ rounded m := by
  have hsize : Nat.size n ≤ Nat.size m := Nat.size_le_size h
  by_cases hunit : Nat.size n / 8 - 2 = Nat.size m / 8 - 2
  · rw [rounded, rounded, keptUnit, keptUnit, hunit]
    exact Nat.mul_le_mul_right _ (Nat.div_le_div_right h)
  -- The unit grows at a power of two, which both are compared with.
  · have hjump : Nat.size n ≤ 8 * (Nat.size m / 8) - 1 := by omega
    have hbelow : n < 2 ^ (8 * (Nat.size m / 8) - 1) :=
      (Nat.lt_size_self n).trans_le (Nat.pow_le_pow_right (by decide) hjump)
    have habove : 2 ^ (8 * (Nat.size m / 8) - 1) ≤ m := by
      apply Nat.lt_size.mp
      omega
    have hdvd : keptUnit m ∣ 2 ^ (8 * (Nat.size m / 8) - 1) := by
      rw [keptUnit, byte_pow]
      exact pow_dvd_pow 2 (by omega)
    calc rounded n ≤ n := rounded_le n
      _ ≤ 2 ^ (8 * (Nat.size m / 8) - 1) := hbelow.le
      _ ≤ rounded m := le_div_mul (keptUnit_pos) hdvd habove

lemma rounded_eq_of_word {word k : Nat} (hword : word < 2 ^ 23) : rounded (word * 256 ^ k) = word * 256 ^ k := by
  apply Nat.div_mul_cancel
  apply Nat.dvd_mul_left_of_dvd
  rw [keptUnit]
  apply pow_dvd_pow
  have hsize : Nat.size (word * 256 ^ k) ≤ 23 + 8 * k := by
    rw [Nat.size_le, byte_pow, pow_add]
    exact Nat.mul_lt_mul_of_pos_right hword (Nat.two_pow_pos _)
  omega

def sizeByte (c : BitVec 32) : Nat := c.toNat / 2 ^ 24

/-- The mantissa that `SetCompact` shifts to its place. -/
def wordOf (c : BitVec 32) : Nat := c.toNat % 2 ^ 23 / 256 ^ (3 - sizeByte c)

variable {c : BitVec 32}

lemma wordOf_lt (c : BitVec 32) : wordOf c < 2 ^ 23 :=
  (Nat.div_le_self _ _).trans_lt (Nat.mod_lt _ (by decide))

lemma toNat_size : (c >>> 24).toNat = sizeByte c := by
  rw [BitVec.toNat_ushiftRight, Nat.shiftRight_eq_div_pow, sizeByte]

lemma toNat_word :
    (if sizeByte c ≤ 3 then (c &&& 0x007fffff) >>> (8 * (3 - sizeByte c)) else c &&& 0x007fffff).toNat = wordOf c := by
  have hmask : (c &&& 0x007fffff).toNat = c.toNat % 2 ^ 23 := by
    rw [BitVec.toNat_and]
    exact Nat.and_two_pow_sub_one_eq_mod c.toNat 23
  rw [wordOf, byte_pow, ← hmask]
  by_cases hsize : sizeByte c ≤ 3
  · rw [if_pos hsize, BitVec.toNat_ushiftRight, Nat.shiftRight_eq_div_pow]
  · rw [if_neg hsize, Nat.sub_eq_zero_of_le (by omega), Nat.mul_zero, pow_zero, Nat.div_one]

lemma toNat_value_setCompact (c : BitVec 32) :
    (setCompact c).value.toNat = wordOf c * 256 ^ (sizeByte c - 3) % 2 ^ 256 := by
  have hword := wordOf_lt c
  rw [setCompact]
  dsimp only
  rw [toNat_size, ← toNat_word]
  rw [← toNat_word] at hword
  generalize (if sizeByte c ≤ 3 then (c &&& 0x007fffff) >>> (8 * (3 - sizeByte c)) else c &&& 0x007fffff) = word
    at hword
  have hnumber : (BaseUint.ofUint64 (word.setWidth 64) : ArithUint256).toNat = word.toNat := by
    rw [toNat_ofUint64, BitVec.toNat_setWidth, Nat.mod_eq_of_lt (by omega)]
  by_cases hsize : sizeByte c ≤ 3
  · rw [if_pos hsize, hnumber, Nat.sub_eq_zero_of_le hsize, pow_zero, Nat.mul_one, Nat.mod_eq_of_lt (by omega)]
  · rw [if_neg hsize, toNat_shiftLeft, hnumber, byte_pow]

lemma fOverflow_setCompact : (setCompact c).fOverflow = decide (wordOf c ≠ 0 ∧
    (sizeByte c > 34 ∨ (wordOf c > 0xff ∧ sizeByte c > 33) ∨ (wordOf c > 0xffff ∧ sizeByte c > 32))) := by
  rw [setCompact]
  dsimp only
  rw [toNat_size, ← toNat_word]
  simp only [Ne, ← BitVec.toNat_inj]
  rfl

lemma fNegative_setCompact (h : c.toNat % 2 ^ 24 < 2 ^ 23) : (setCompact c).fNegative = false := by
  have hsign : c &&& 0x00800000 = 0 := by
    rw [← BitVec.toNat_inj, BitVec.toNat_and]
    have hbit : c.toNat.testBit 23 = false := by
      rw [Nat.testBit_eq_decide_div_mod_eq]
      exact decide_eq_false (by omega)
    have hand := Nat.and_two_pow c.toNat 23
    rw [hbit] at hand
    simpa using hand
  rw [setCompact]
  exact decide_eq_false (fun hneg => hneg.2 hsign)

lemma value_fits (h : (setCompact c).fOverflow = false) : wordOf c * 256 ^ (sizeByte c - 3) < 2 ^ 256 := by
  have hword := wordOf_lt c
  rw [fOverflow_setCompact, decide_eq_false_iff_not] at h
  have hbound : ∀ bits, wordOf c < 2 ^ bits → bits + 8 * (sizeByte c - 3) ≤ 256 →
      wordOf c * 256 ^ (sizeByte c - 3) < 2 ^ 256 := by
    intro bits hlt hle
    rw [byte_pow]
    calc wordOf c * 2 ^ (8 * (sizeByte c - 3)) < 2 ^ bits * 2 ^ (8 * (sizeByte c - 3)) :=
          Nat.mul_lt_mul_of_pos_right hlt (Nat.two_pow_pos _)
      _ = 2 ^ (bits + 8 * (sizeByte c - 3)) := (pow_add 2 _ _).symm
      _ ≤ 2 ^ 256 := Nat.pow_le_pow_right (by decide) hle
  by_cases hzero : wordOf c = 0
  · rw [hzero, Nat.zero_mul]
    exact Nat.two_pow_pos _
  · by_cases hone : wordOf c < 2 ^ 8
    · exact hbound 8 hone (by omega)
    · by_cases htwo : wordOf c < 2 ^ 16
      · exact hbound 16 htwo (by omega)
      · exact hbound 23 hword (by omega)

/-- The exponent of the compact form. A full byte is one byte more, since its first bit would be the sign. -/
def exponentOf (n : Nat) : Nat := if n = 0 then 0 else Nat.size n / 8 + 1

lemma keptUnit_eq : keptUnit n = 256 ^ (exponentOf n - 3) := by
  rw [keptUnit, exponentOf]
  split_ifs with hzero
  · rw [hzero]
    rfl
  · congr 1

def keptWord (n e : Nat) : Nat := if e ≤ 3 then n * 256 ^ (3 - e) else n / 256 ^ (e - 3)

lemma keptWord_lt {b e k : Nat} (h : n < 2 ^ b) (hk : b + 24 ≤ k + 8 * e) : keptWord n e < 2 ^ k := by
  rw [keptWord, byte_pow, byte_pow]
  by_cases he : e ≤ 3
  · rw [if_pos he]
    calc n * 2 ^ (8 * (3 - e)) < 2 ^ b * 2 ^ (8 * (3 - e)) := Nat.mul_lt_mul_of_pos_right h (Nat.two_pow_pos _)
      _ = 2 ^ (b + 8 * (3 - e)) := (pow_add 2 _ _).symm
      _ ≤ 2 ^ k := Nat.pow_le_pow_right (by decide) (by omega)
  · rw [if_neg he, Nat.div_lt_iff_lt_mul (Nat.two_pow_pos _), ← pow_add]
    exact h.trans_le (Nat.pow_le_pow_right (by decide) (by omega))

lemma le_keptWord {b e k : Nat} (h : 2 ^ b ≤ n) (hk : k + 8 * e ≤ b + 24) : 2 ^ k ≤ keptWord n e := by
  rw [keptWord, byte_pow, byte_pow]
  by_cases he : e ≤ 3
  · rw [if_pos he]
    calc 2 ^ k ≤ 2 ^ (b + 8 * (3 - e)) := Nat.pow_le_pow_right (by decide) (by omega)
      _ = 2 ^ b * 2 ^ (8 * (3 - e)) := pow_add 2 _ _
      _ ≤ n * 2 ^ (8 * (3 - e)) := Nat.mul_le_mul_right _ h
  · rw [if_neg he, Nat.le_div_iff_mul_le (Nat.two_pow_pos _), ← pow_add]
    exact (Nat.pow_le_pow_right (by decide) (by omega)).trans h

lemma keptWord_succ (e : Nat) : keptWord n e / 256 = keptWord n (e + 1) := by
  rw [keptWord, keptWord]
  rcases Nat.lt_trichotomy e 3 with he | rfl | he
  · rw [if_pos he.le, if_pos (by omega), show 3 - e = 3 - (e + 1) + 1 by omega, pow_succ, ← Nat.mul_assoc,
      Nat.mul_div_cancel _ (by decide)]
  · simp
  · rw [if_neg (by omega), if_neg (by omega), show e + 1 - 3 = e - 3 + 1 by omega, pow_succ, Nat.div_div_eq_div_mul]

lemma toNat_compactForm (hn : n < 2 ^ 256) :
    (compactForm n).toNat = 2 ^ 24 * exponentOf n + keptWord n (exponentOf n) ∧
      keptWord n (exponentOf n) < 2 ^ 23 := by
  rcases Nat.eq_zero_or_pos n with rfl | hpos
  · exact ⟨by decide, by decide⟩
  have hsize : Nat.size n ≤ 256 := Nat.size_le.mpr hn
  have hhigh : n < 2 ^ Nat.size n := Nat.lt_size_self n
  have hlow : 2 ^ (Nat.size n - 1) ≤ n := Nat.lt_size.mp (by have := Nat.size_pos.mpr hpos; omega)
  have hword : keptWord n (Nat.size n / 8 + 1) < 2 ^ 23 := keptWord_lt hhigh (by omega)
  rw [exponentOf, if_neg hpos.ne', compactForm, ← keptWord]
  refine ⟨?_, hword⟩
  by_cases hfull : Nat.size n % 8 = 0
  · have hexp : (Nat.size n + 7) / 8 = Nat.size n / 8 := by omega
    have hsign : ¬ keptWord n (Nat.size n / 8) < 2 ^ 23 := not_lt.mpr (le_keptWord hlow (by omega))
    rw [hexp, if_neg hsign, keptWord_succ, BitVec.toNat_ofNat, Nat.mod_eq_of_lt (by omega)]
  · have hexp : (Nat.size n + 7) / 8 = Nat.size n / 8 + 1 := by omega
    rw [hexp, if_pos hword, BitVec.toNat_ofNat, Nat.mod_eq_of_lt (by omega)]

lemma sizeByte_compactForm (hn : n < 2 ^ 256) : sizeByte (compactForm n) = exponentOf n := by
  obtain ⟨hform, hword⟩ := toNat_compactForm hn
  rw [sizeByte, hform]
  omega

lemma wordOf_compactForm (hn : n < 2 ^ 256) : wordOf (compactForm n) * 256 ^ (exponentOf n - 3) = rounded n ∧
    wordOf (compactForm n) ≤ keptWord n (exponentOf n) := by
  obtain ⟨hform, hword⟩ := toNat_compactForm hn
  have hmod : (compactForm n).toNat % 2 ^ 23 = keptWord n (exponentOf n) := by
    rw [hform]
    omega
  rw [wordOf, sizeByte_compactForm hn, hmod]
  refine ⟨?_, Nat.div_le_self _ _⟩
  rw [rounded, keptUnit_eq, keptWord]
  by_cases he : exponentOf n ≤ 3
  · rw [if_pos he, Nat.sub_eq_zero_of_le he, Nat.mul_div_cancel _ (Nat.pow_pos (by decide)), pow_zero, Nat.div_one]
  · rw [if_neg he, Nat.sub_eq_zero_of_le (by omega : 3 ≤ exponentOf n), pow_zero, Nat.div_one]

lemma value_compactForm (hn : n < 2 ^ 256) : (setCompact (compactForm n)).value.toNat = rounded n := by
  rw [toNat_value_setCompact, sizeByte_compactForm hn, (wordOf_compactForm hn).1,
    Nat.mod_eq_of_lt ((rounded_le n).trans_lt hn)]

lemma flags_compactForm (hn : n < 2 ^ 256) :
    (setCompact (compactForm n)).fNegative = false ∧ (setCompact (compactForm n)).fOverflow = false := by
  obtain ⟨hform, hword⟩ := toNat_compactForm hn
  refine ⟨fNegative_setCompact (by rw [hform]; omega), ?_⟩
  rw [fOverflow_setCompact, sizeByte_compactForm hn, decide_eq_false_iff_not]
  have hle := (wordOf_compactForm hn).2
  have hexp : exponentOf n ≤ 33 := by
    have hsize : Nat.size n ≤ 256 := Nat.size_le.mpr hn
    rw [exponentOf]
    split_ifs <;> omega
  have htop : 32 < exponentOf n → keptWord n (exponentOf n) < 2 ^ 16 := fun h => keptWord_lt hn (by omega)
  omega

lemma sub_rounded_lt : ((n : ℚ) - rounded n) < 2 ^ (8 * ((exponentOf n : ℤ) - 3)) := by
  have hmod : n - rounded n = n % 256 ^ (exponentOf n - 3) := by
    rw [rounded, keptUnit_eq, Nat.mod_eq_sub, Nat.mul_comm]
  rw [← Nat.cast_sub (rounded_le n), hmod]
  by_cases he : exponentOf n ≤ 3
  · rw [Nat.sub_eq_zero_of_le he, pow_zero, Nat.mod_one, Nat.cast_zero]
    positivity
  · rw [show 8 * ((exponentOf n : ℤ) - 3) = (8 * (exponentOf n - 3) : ℕ) by omega, zpow_natCast, byte_pow]
    exact_mod_cast Nat.mod_lt n (Nat.two_pow_pos _)

/-- Only bits below the kept mantissa are lost in the compact form, without a flag; reading it is monotone in the
number written; and writing what was read of any unflagged compact form keeps the number, and is stable. -/
theorem compact_roundTrip :
    (∀ x : ArithUint256, ∃ c, getCompact x = some c ∧
      (setCompact c).fNegative = false ∧ (setCompact c).fOverflow = false ∧
      (setCompact c).value.toNat ≤ x.toNat ∧
      (x.toNat : ℚ) - (setCompact c).value.toNat < 2 ^ (8 * (((c >>> 24).toNat : ℤ) - 3))) ∧
    (∀ x₁ x₂ : ArithUint256, x₁.toNat ≤ x₂.toNat → ∀ c₁ c₂, getCompact x₁ = some c₁ → getCompact x₂ = some c₂ →
      (setCompact c₁).value.toNat ≤ (setCompact c₂).value.toNat) ∧
    (∀ c, (setCompact c).fNegative = false → (setCompact c).fOverflow = false →
      ∃ c', getCompact (setCompact c).value = some c' ∧ (setCompact c').value = (setCompact c).value ∧
        getCompact (setCompact c').value = some c') := by
  refine ⟨fun x => ?_, fun x₁ x₂ hle c₁ c₂ h₁ h₂ => ?_, fun c _ hoverflow => ?_⟩
  · have hx : x.toNat < 2 ^ 256 := x.toNat_lt
    refine ⟨_, getCompact_eq x, (flags_compactForm hx).1, (flags_compactForm hx).2, ?_, ?_⟩
    · rw [value_compactForm hx]
      exact rounded_le _
    · rw [value_compactForm hx, toNat_size, sizeByte_compactForm hx]
      exact sub_rounded_lt
  · rw [getCompact_eq, Option.some_inj] at h₁ h₂
    rw [← h₁, ← h₂, value_compactForm x₁.toNat_lt, value_compactForm x₂.toNat_lt]
    exact rounded_mono hle
  · have hvalue : (setCompact c).value.toNat = wordOf c * 256 ^ (sizeByte c - 3) := by
      rw [toNat_value_setCompact, Nat.mod_eq_of_lt (value_fits hoverflow)]
    have hsame : (setCompact (compactForm (setCompact c).value.toNat)).value = (setCompact c).value := by
      apply eq_of_toNat_eq
      rw [value_compactForm (setCompact c).value.toNat_lt, hvalue]
      exact rounded_eq_of_word (wordOf_lt c)
    refine ⟨_, getCompact_eq _, hsame, ?_⟩
    rw [hsame, getCompact_eq]

theorem compact_roundTrip_denormal :
    (setCompact 0x05000080).fNegative = false ∧ (setCompact 0x05000080).fOverflow = false ∧
      ∃ c', getCompact (setCompact 0x05000080).value = some c' ∧
        (setCompact c').value = (setCompact 0x05000080).value ∧ getCompact (setCompact c').value = some c' :=
  ⟨by decide, by decide, compact_roundTrip.2.2 _ (by decide) (by decide)⟩

end ArithUint256

end Qstees
