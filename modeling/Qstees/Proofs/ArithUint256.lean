import Qstees.Model.ArithUint256

/-!
# What the operations of `base_uint` compute

Each operation in terms of the number its words hold: sums and products modulo `2 ^ (32 * WIDTH)`, shifts, the order,
the bit length, the quotient.
-/

namespace Qstees

open List

namespace BaseUint

variable {WIDTH : Nat}

lemma toNat_lt (a : BaseUint WIDTH) : a.toNat < 2 ^ (32 * WIDTH) := by
  have h := Words.value_lt a.pn
  rwa [a.length_pn] at h

variable {a b : BaseUint WIDTH} {n shift : Nat}

lemma eq_of_toNat_eq (h : a.toNat = b.toNat) : a = b := by
  cases a
  cases b
  congr
  exact Words.value_injective (by simp_all) h

@[simp] lemma toNat_zero : (zero : BaseUint WIDTH).toNat = 0 := Words.value_replicate_zero WIDTH

@[simp] lemma toNat_ofUint64 (b : BitVec 64) : (ofUint64 b : BaseUint (WIDTH + 2)).toNat = b.toNat := by
  have hb := b.isLt
  rw [toNat, ofUint64, Words.value_cons, Words.value_cons, Words.value_replicate_zero, BitVec.toNat_setWidth,
    BitVec.toNat_setWidth, BitVec.toNat_ushiftRight, Nat.shiftRight_eq_div_pow]
  omega

lemma addStep_spec (carry : BitVec 64) (p : BitVec 32 × BitVec 32) (h : carry.toNat ≤ 1) :
    (addStep carry p).1.toNat + 2 ^ 32 * (addStep carry p).2.toNat = (p.1.toNat + p.2.toNat) + carry.toNat ∧
      (addStep carry p).2.toNat ≤ 1 := by
  have hx := p.1.isLt
  have hy := p.2.isLt
  simp only [addStep, BitVec.toNat_setWidth, BitVec.toNat_ushiftRight, BitVec.toNat_add, Nat.shiftRight_eq_div_pow]
  omega

@[simp] lemma toNat_add (a b : BaseUint WIDTH) : (a.add b).toNat = (a.toNat + b.toNat) % 2 ^ (32 * WIDTH) := by
  have hlen : a.pn.length = b.pn.length := a.length_pn.trans b.length_pn.symm
  have hripple := Words.value_ripple BitVec.toNat addStep_spec 0 (by decide) (a.pn.zip b.pn)
  rw [Words.ofDigits_zip_add a.pn b.pn hlen, length_zip, ← hlen, Nat.min_self, a.length_pn] at hripple
  exact hripple

lemma incStep_spec (carry : Bool) (x : BitVec 32) (_ : True) :
    (incStep carry x).1.toNat + 2 ^ 32 * (incStep carry x).2.toNat = x.toNat + carry.toNat ∧ True := by
  refine ⟨?_, trivial⟩
  have hx := x.isLt
  have hinc : (x + 1).toNat = (x.toNat + 1) % 2 ^ 32 := BitVec.toNat_add x 1
  cases carry with
  | false => simp [incStep]
  | true =>
    by_cases hmax : x + 1 = 0
    · have hzero : (x + 1).toNat = 0 := congrArg BitVec.toNat hmax
      simp only [incStep, if_true, beq_iff_eq.mpr hmax, Bool.toNat_true]
      omega
    · have hne : (x + 1).toNat ≠ 0 := fun hzero => hmax (BitVec.eq_of_toNat_eq hzero)
      simp only [incStep, if_true, beq_eq_false_iff_ne.mpr hmax, Bool.toNat_false, Bool.toNat_true]
      omega

lemma toNat_inc : a.inc.toNat = (a.toNat + 1) % 2 ^ (32 * WIDTH) := by
  have hripple := Words.value_ripple Bool.toNat incStep_spec true trivial a.pn
  rwa [a.length_pn] at hripple

lemma toNat_neg : a.neg.toNat = (2 ^ (32 * WIDTH) - a.toNat) % 2 ^ (32 * WIDTH) := by
  have hnot := Words.value_map_not a.pn
  rw [a.length_pn] at hnot
  rw [neg, toNat_inc, toNat, toNat]
  congr 1
  dsimp only
  omega

lemma toNat_sub (h : b.toNat ≤ a.toNat) : (a.sub b).toNat = a.toNat - b.toNat := by
  have ha := a.toNat_lt
  rw [sub, toNat_add, toNat_neg, Nat.add_mod_mod, ← Nat.add_sub_assoc (b.toNat_lt.le), Nat.add_comm,
    Nat.add_sub_assoc h, Nat.add_mod_left, Nat.mod_eq_of_lt (by omega)]

lemma mulAddStep_spec (x : BitVec 32) (carry : BitVec 64) (p : BitVec 32 × BitVec 32) (h : carry.toNat < 2 ^ 32) :
    (mulAddStep x carry p).1.toNat + 2 ^ 32 * (mulAddStep x carry p).2.toNat =
        p.1.toNat + x.toNat * p.2.toNat + carry.toNat ∧ (mulAddStep x carry p).2.toNat < 2 ^ 32 := by
  have hx := x.isLt
  have ha := p.1.isLt
  have hb := p.2.isLt
  -- The product, the word and the carry fit into the 64 bits of `n`.
  have hprod : x.toNat * p.2.toNat ≤ (2 ^ 32 - 1) * (2 ^ 32 - 1) := Nat.mul_le_mul (by omega) (by omega)
  have hx64 : x.toNat % 2 ^ 64 = x.toNat := Nat.mod_eq_of_lt (by omega)
  have hb64 : p.2.toNat % 2 ^ 64 = p.2.toNat := Nat.mod_eq_of_lt (by omega)
  simp only [mulAddStep, BitVec.toNat_setWidth, BitVec.toNat_ushiftRight, BitVec.toNat_add,
    BitVec.toNat_mul, hx64, hb64, Nat.shiftRight_eq_div_pow]
  omega

lemma mulStep_spec (b32 : BitVec 32) (carry : BitVec 64) (x : BitVec 32) (h : carry.toNat < 2 ^ 32) :
    (mulStep b32 carry x).1.toNat + 2 ^ 32 * (mulStep b32 carry x).2.toNat = b32.toNat * x.toNat + carry.toNat ∧
      (mulStep b32 carry x).2.toNat < 2 ^ 32 := by
  have hspec := mulAddStep_spec b32 carry (0, x) h
  have hstep : mulAddStep b32 carry (0, x) = mulStep b32 carry x := by simp [mulAddStep, mulStep]
  rw [hstep] at hspec
  simpa using hspec

@[simp] lemma toNat_mul (a : BaseUint WIDTH) (b32 : BitVec 32) :
    (a.mul b32).toNat = a.toNat * b32.toNat % 2 ^ (32 * WIDTH) := by
  have hripple := Words.value_ripple BitVec.toNat (mulStep_spec b32) 0 (by decide) a.pn
  rw [Words.ofDigits_map_mul, a.length_pn] at hripple
  rw [Nat.mul_comm]
  exact hripple

lemma value_mulRows (b pn a : List (BitVec 32)) (h : a.length ≤ b.length) :
    Words.value (mulRows b pn a) ≡ Words.value a + Words.value pn * Words.value b [MOD 2 ^ (32 * a.length)] := by
  induction pn generalizing a with
  | nil => simp [mulRows, Nat.ModEq]
  | cons x pn ih =>
    have hrow := Words.value_ripple BitVec.toNat (mulAddStep_spec x) 0 (by decide) (a.zip b)
    obtain ⟨rest, hrest⟩ := Words.ofDigits_zip_mul_add x.toNat h
    have hlen : (Words.ripple (mulAddStep x) 0 (a.zip b)).length = a.length := by simp [h]
    rw [mulRows]
    generalize Words.ripple (mulAddStep x) 0 (a.zip b) = row at hrow hlen
    rw [← hlen] at hrest h ⊢
    rw [length_zip, ← hlen, Nat.min_eq_left h] at hrow
    cases row with
    | nil => exact Nat.modEq_one
    | cons w row =>
      have hnext := ((ih row (Nat.le_of_succ_le h)).mul_left' (2 ^ 32)).add_left w.toNat
      rw [← pow_add, Nat.add_comm 32] at hnext
      calc Words.value (w :: mulRows b pn row)
          ≡ Words.value (w :: row) + 2 ^ 32 * (Words.value pn * Words.value b) [MOD 2 ^ (32 * (row.length + 1))] := by
            rw [Words.value_cons, Words.value_cons, Nat.add_assoc, ← Nat.mul_add]
            exact hnext
        _ ≡ Words.value a + x.toNat * Words.value b + 2 ^ 32 * (Words.value pn * Words.value b)
            [MOD 2 ^ (32 * (row.length + 1))] := by
          apply Nat.ModEq.add_right
          rw [hrow, ← hrest]
          exact (Nat.mod_modEq _ _).trans (Nat.ModEq.symm (by simp [Nat.ModEq]))
        _ = Words.value a + Words.value (x :: pn) * Words.value b := by rw [Words.value_cons]; ring

lemma toNat_mulUint : (a.mulUint b).toNat = a.toNat * b.toNat % 2 ^ (32 * WIDTH) := by
  have hrows := value_mulRows b.pn a.pn (List.replicate WIDTH 0) (by simp [b.length_pn])
  rw [length_replicate, Words.value_replicate_zero, Nat.zero_add] at hrows
  exact (Nat.mod_eq_of_lt (a.mulUint b).toNat_lt).symm.trans hrows

lemma testBit_toNat (a : BaseUint WIDTH) (p : Nat) : a.toNat.testBit p = (a.word (p / 32)).getLsbD (p % 32) :=
  Words.testBit_value (by decide) a.pn p

lemma word_of_le {i : Nat} (h : WIDTH ≤ i) : a.word i = 0 :=
  getD_eq_default _ _ (a.length_pn.le.trans h)

lemma getD_ofFn (f : Fin WIDTH → BitVec 32) (j : Nat) (hj : j < WIDTH) : (List.ofFn f).getD j 0 = f ⟨j, hj⟩ := by
  rw [List.getD_eq_getElem?_getD, List.getElem?_ofFn, dif_pos hj, Option.getD_some]

lemma getLsbD_word (q i : Nat) :
    (a.word q).getLsbD i = (decide (i < 32) && a.toNat.testBit (32 * q + i)) := by
  by_cases hi : i < 32
  · rw [testBit_toNat, Nat.mul_add_div (by decide), Nat.div_eq_of_lt hi, Nat.add_zero, Nat.mul_add_mod,
      Nat.mod_eq_of_lt hi, decide_eq_true hi, Bool.true_and]
  · rw [BitVec.getLsbD_of_ge _ _ (not_lt.mp hi), decide_eq_false hi, Bool.false_and]

lemma toNat_shiftLeft (a : BaseUint WIDTH) (shift : Nat) :
    (a.shiftLeft shift).toNat = a.toNat * 2 ^ shift % 2 ^ (32 * WIDTH) := by
  apply Nat.eq_of_testBit_eq
  intro p
  rw [testBit_toNat, Nat.testBit_mod_two_pow, Nat.testBit_mul_two_pow]
  by_cases hp : p < 32 * WIDTH
  · rw [word, shiftLeft, getD_ofFn _ _ (by omega), decide_eq_true hp, Bool.true_and]
    -- Bit `r` of word `j` moves by `k` words and `s` bits, and leaves its word where `r + s` reaches 32.
    have hsplit : p = 32 * (p / 32) + p % 32 := by omega
    have hshift : shift = 32 * (shift / 32) + shift % 32 := by omega
    have hbit : p % 32 < 32 := by omega
    have hs : shift % 32 < 32 := by omega
    simp only [BitVec.getLsbD_or, apply_ite (BitVec.getLsbD · (p % 32)), BitVec.getLsbD_ushiftRight,
      BitVec.getLsbD_shiftLeft, getLsbD_word]
    generalize p / 32 = j at *
    generalize p % 32 = r at *
    generalize shift / 32 = k at *
    generalize shift % 32 = s at *
    subst hsplit hshift
    grind
  · rw [word_of_le (by omega), decide_eq_false hp]
    exact BitVec.getLsbD_zero

lemma toNat_shiftRight : (a.shiftRight shift).toNat = a.toNat / 2 ^ shift := by
  apply Nat.eq_of_testBit_eq
  intro p
  rw [testBit_toNat, Nat.testBit_div_two_pow]
  have hhigh : ∀ q, 32 * WIDTH ≤ q → a.toNat.testBit q = false := fun q hq =>
    Nat.testBit_lt_two_pow (a.toNat_lt.trans_le (Nat.pow_le_pow_right (by decide) hq))
  by_cases hp : p < 32 * WIDTH
  · rw [word, shiftRight, getD_ofFn _ _ (by omega)]
    have hsplit : p = 32 * (p / 32) + p % 32 := by omega
    have hshift : shift = 32 * (shift / 32) + shift % 32 := by omega
    have hbit : p % 32 < 32 := by omega
    have hs : shift % 32 < 32 := by omega
    simp only [BitVec.getLsbD_or, apply_ite (BitVec.getLsbD · (p % 32)), BitVec.getLsbD_ushiftRight,
      BitVec.getLsbD_shiftLeft, getLsbD_word]
    generalize p / 32 = j at *
    generalize p % 32 = r at *
    generalize shift / 32 = k at *
    generalize shift % 32 = s at *
    subst hsplit hshift
    have hplace := hhigh (32 * j + r + (32 * k + s))
    grind
  · rw [word_of_le (by omega), hhigh _ (by omega)]
    exact BitVec.getLsbD_zero

lemma compareTo_eq (a b : BaseUint WIDTH) : a.compareTo b = compare a.toNat b.toNat :=
  Words.compareWords_eq (a.length_pn.trans b.length_pn.symm)

lemma size_eq {m : Nat} (hlow : 2 ^ n ≤ m) (hhigh : m < 2 ^ (n + 1)) : Nat.size m = n + 1 :=
  le_antisymm (Nat.size_le.mpr hhigh) (Nat.lt_size.mpr hlow)

lemma lt_two_pow_of_testBit {x : Nat} (h : x < 2 ^ (n + 1)) (hbit : x.testBit n = false) :
    x < 2 ^ n := by
  apply Nat.lt_pow_two_of_testBit
  intro i hi
  rcases hi.eq_or_lt with rfl | hlt
  · exact hbit
  · exact Nat.testBit_lt_two_pow (h.trans_le (Nat.pow_le_pow_right (by decide) hlt))

lemma topBit_eq {x : BitVec 32} (hx : x ≠ 0) (hn : x.toNat < 2 ^ (n + 1)) :
    topBit x n = Nat.size x.toNat := by
  have hpos : 0 < x.toNat := Nat.pos_of_ne_zero (fun h => hx (BitVec.eq_of_toNat_eq h))
  induction n with
  | zero => exact (size_eq hpos hn).symm
  | succ n ih =>
    rw [topBit]
    split_ifs with hbit
    · exact (size_eq (Nat.ge_two_pow_of_testBit hbit) hn).symm
    · exact ih (lt_two_pow_of_testBit hn (Bool.eq_false_iff.mpr hbit))

lemma wordBits_eq (x : BitVec 32) : wordBits x = Nat.size x.toNat := by
  rw [wordBits]
  split_ifs with hx
  · rw [hx]
    rfl
  · exact topBit_eq hx x.isLt

lemma bitsOf_eq (xs : List (BitVec 32)) : bitsOf xs = Nat.size (Words.value xs) := by
  induction xs with
  | nil => rfl
  | cons x xs ih =>
    rw [bitsOf, ih, Words.value_cons]
    split_ifs with hrest
    · rw [Nat.size_eq_zero.mp hrest, Nat.mul_zero, Nat.add_zero, wordBits_eq]
    obtain ⟨n, hn⟩ := Nat.exists_eq_succ_of_ne_zero hrest
    have hlow : 2 ^ n ≤ Words.value xs := Nat.lt_size.mp (by omega)
    have hhigh : Words.value xs < 2 ^ (n + 1) := Nat.size_le.mp hn.le
    have hx := x.isLt
    have hlow' : 2 ^ (n + 32) ≤ x.toNat + 2 ^ 32 * Words.value xs := by
      rw [pow_add]
      omega
    have hhigh' : x.toNat + 2 ^ 32 * Words.value xs < 2 ^ (n + 32 + 1) := by
      rw [show n + 32 + 1 = n + 1 + 32 by omega, pow_add 2 (n + 1)]
      omega
    rw [size_eq hlow' hhigh', hn]

lemma bits_eq : a.bits = Nat.size a.toNat := bitsOf_eq a.pn

lemma word_setBit (i : Nat) (hi : i < WIDTH) :
    (a.setBit shift).word i = if shift / 32 = i then a.word i ||| 1#32 <<< (shift % 32) else a.word i := by
  have hlen : i < a.pn.length := a.length_pn.symm ▸ hi
  rw [word, word, setBit, List.getD_eq_getElem?_getD, getElem?_modify, List.getD_eq_getElem?_getD,
    getElem?_eq_getElem hlen]
  rfl

lemma toNat_setBit (hshift : shift < 32 * WIDTH) :
    (a.setBit shift).toNat = a.toNat ||| 2 ^ shift := by
  apply Nat.eq_of_testBit_eq
  intro p
  rw [Nat.testBit_or, Nat.testBit_two_pow, testBit_toNat, testBit_toNat]
  by_cases hp : p / 32 < WIDTH
  · rw [word_setBit _ hp]
    split_ifs with hword
    · have hbit : (1#32 <<< (shift % 32)).getLsbD (p % 32) = decide (shift = p) := by
        rw [← BitVec.testBit_toNat, BitVec.toNat_shiftLeft, Nat.testBit_mod_two_pow, BitVec.toNat_one (by decide),
          Nat.one_shiftLeft, Nat.testBit_two_pow, decide_eq_true (show p % 32 < 32 by omega), Bool.true_and]
        exact decide_eq_decide.mpr (by omega)
      rw [BitVec.getLsbD_or, hbit]
    · rw [decide_eq_false (by rintro rfl; exact hword rfl), Bool.or_false]
  · rw [word_of_le (not_lt.mp hp), word_of_le (not_lt.mp hp), decide_eq_false (by omega), Bool.or_false]

lemma toNat_setBit_of_dvd (hshift : shift < 32 * WIDTH) (h : 2 ^ (shift + 1) ∣ a.toNat) :
    (a.setBit shift).toNat = a.toNat + 2 ^ shift := by
  obtain ⟨q, hq⟩ := h
  rw [toNat_setBit hshift, hq, Nat.two_pow_add_eq_or_of_lt (Nat.pow_lt_pow_right (by decide) (Nat.lt_succ_self _))]

lemma compareTo_ne_lt : a.compareTo b ≠ .lt ↔ b.toNat ≤ a.toNat := by
  rw [compareTo_eq, Ne, Nat.compare_eq_lt, not_lt]

section Division

variable {d : Nat} {num div quotient : BaseUint WIDTH} (hd : 0 < d) (hshift : shift < 32 * WIDTH)
  (hdiv : div.toNat = d * 2 ^ shift) (hnum : num.toNat < d * 2 ^ (shift + 1))
    (hquotient : 2 ^ (shift + 1) ∣ quotient.toNat)
include hd hshift hdiv hnum hquotient

lemma divStep_spec :
    (divStep shift num div quotient).1.toNat < d * 2 ^ shift ∧
      2 ^ shift ∣ (divStep shift num div quotient).2.toNat ∧
      (divStep shift num div quotient).2.toNat + (divStep shift num div quotient).1.toNat / d =
        quotient.toNat + num.toNat / d := by
  have hdvd : 2 ^ shift ∣ quotient.toNat := dvd_trans (pow_dvd_pow 2 (Nat.le_succ shift)) hquotient
  by_cases hle : div.toNat ≤ num.toNat
  · have hfit : num.toNat = (num.toNat - d * 2 ^ shift) + d * 2 ^ shift := by omega
    rw [divStep, if_pos ((compareTo_ne_lt).mpr hle)]
    dsimp only
    rw [toNat_sub hle, toNat_setBit_of_dvd hshift hquotient, hdiv]
    refine ⟨?_, dvd_add hdvd dvd_rfl, ?_⟩
    · rw [pow_succ, ← Nat.mul_assoc] at hnum
      omega
    · conv_rhs => rw [hfit, Nat.add_mul_div_left _ _ hd]
      omega
  · rw [divStep, if_neg (mt (compareTo_ne_lt).mp hle)]
    exact ⟨hdiv ▸ not_le.mp hle, hdvd, rfl⟩

lemma divLoop_spec : (divLoop shift num div quotient).toNat = quotient.toNat + num.toNat / d := by
  induction shift generalizing num div quotient with
  | zero =>
    obtain ⟨hless, -, hsum⟩ := divStep_spec hd hshift hdiv hnum hquotient
    rw [Nat.pow_zero, Nat.mul_one] at hless
    rw [Nat.div_eq_of_lt hless, Nat.add_zero] at hsum
    exact hsum
  | succ shift ih =>
    obtain ⟨hless, hdvd, hsum⟩ := divStep_spec hd hshift hdiv hnum hquotient
    have hhalf : (div.shiftRight 1).toNat = d * 2 ^ shift := by
      rw [toNat_shiftRight, hdiv, pow_succ, ← Nat.mul_assoc, Nat.pow_one, Nat.mul_div_cancel _ (by decide)]
    rw [divLoop, ih (by omega) hhalf hless hdvd, hsum]

end Division

lemma div_spec (a : BaseUint WIDTH) (hb : 0 < b.toNat) :
    ∃ q, a.div b = some q ∧ q.toNat = a.toNat / b.toNat := by
  have hbits : b.bits ≠ 0 := by
    rw [bits_eq, Ne, Nat.size_eq_zero]
    omega
  have hsize : Nat.size a.toNat ≤ 32 * WIDTH := Nat.size_le.mpr a.toNat_lt
  have ha : a.toNat < 2 ^ a.bits := by rw [bits_eq]; exact Nat.lt_size_self _
  have hb' : b.toNat < 2 ^ b.bits := by rw [bits_eq]; exact Nat.lt_size_self _
  have hlow : 2 ^ (b.bits - 1) ≤ b.toNat := Nat.lt_size.mp (by rw [bits_eq] at hbits ⊢; omega)
  rw [div, if_neg hbits]
  split_ifs with hlong
  · refine ⟨zero, rfl, ?_⟩
    have hlt : a.toNat < b.toNat :=
      ha.trans_le ((Nat.pow_le_pow_right (by decide) (Nat.le_sub_one_of_lt hlong)).trans hlow)
    rw [toNat_zero, Nat.div_eq_of_lt hlt]
  refine ⟨_, rfl, ?_⟩
  rw [← bits_eq] at hsize
  have hshift : a.bits - b.bits < 32 * WIDTH := by omega
  -- The shifted divisor has as many bits as the numerator, so it is not cut off.
  have hfit : b.toNat * 2 ^ (a.bits - b.bits) < 2 ^ (32 * WIDTH) := by
    calc b.toNat * 2 ^ (a.bits - b.bits) < 2 ^ b.bits * 2 ^ (a.bits - b.bits) :=
          Nat.mul_lt_mul_of_pos_right hb' (Nat.two_pow_pos _)
      _ = 2 ^ a.bits := by rw [← pow_add]; congr 1; omega
      _ ≤ 2 ^ (32 * WIDTH) := Nat.pow_le_pow_right (by decide) hsize
  have hdiv : (b.shiftLeft (a.bits - b.bits)).toNat = b.toNat * 2 ^ (a.bits - b.bits) := by
    rw [toNat_shiftLeft, Nat.mod_eq_of_lt hfit]
  have hnum : a.toNat < b.toNat * 2 ^ (a.bits - b.bits + 1) := by
    calc a.toNat < 2 ^ a.bits := ha
      _ = 2 ^ (b.bits - 1) * 2 ^ (a.bits - b.bits + 1) := by rw [← pow_add]; congr 1; omega
      _ ≤ b.toNat * 2 ^ (a.bits - b.bits + 1) := Nat.mul_le_mul_right _ hlow
  rw [divLoop_spec hb hshift hdiv hnum (by rw [toNat_zero]; exact dvd_zero _), toNat_zero, Nat.zero_add]

lemma toNat_getLow64 : a.getLow64.toNat = a.toNat % 2 ^ 64 := by
  apply Nat.eq_of_testBit_eq
  intro p
  rw [Nat.testBit_mod_two_pow, BitVec.testBit_toNat, getLow64, BitVec.getLsbD_or, BitVec.getLsbD_setWidth,
    BitVec.getLsbD_shiftLeft, BitVec.getLsbD_setWidth, testBit_toNat]
  by_cases hp : p < 64
  · by_cases hlow : p < 32
    · simp [hp, hlow, Nat.div_eq_of_lt hlow, Nat.mod_eq_of_lt hlow]
    · have hdiv : p / 32 = 1 := by omega
      have hmod : p % 32 = p - 32 := by omega
      rw [BitVec.getLsbD_of_ge _ _ (not_lt.mp hlow), hdiv, hmod]
      simp [hp, hlow, show p - 32 < 64 by omega]
  · simp [hp]

end BaseUint

/-- The compact form of a number: its length in bytes, and its three leading bytes, or two where the sign bit would
be set. -/
def compactForm (n : Nat) : BitVec 32 :=
  let size := (Nat.size n + 7) / 8
  let mantissa := if size ≤ 3 then n * 256 ^ (3 - size) else n / 256 ^ (size - 3)
  if mantissa < 2 ^ 23 then BitVec.ofNat 32 (2 ^ 24 * size + mantissa)
  else BitVec.ofNat 32 (2 ^ 24 * (size + 1) + mantissa / 256)

namespace ArithUint256

open BaseUint

variable {x : BitVec 32}

lemma sign_ne_zero_iff (hx : x.toNat < 2 ^ 24) : x &&& 0x00800000 ≠ 0 ↔ ¬ x.toNat < 2 ^ 23 := by
  have hand : (x &&& 0x00800000).toNat = (x.toNat.testBit 23).toNat * 2 ^ 23 := by
    rw [BitVec.toNat_and]
    exact Nat.and_two_pow x.toNat 23
  rw [Ne, ← BitVec.toNat_inj, hand]
  cases hbit : x.toNat.testBit 23 with
  | false => simpa using lt_two_pow_of_testBit hx hbit
  | true => simpa using Nat.ge_two_pow_of_testBit hbit

lemma and_not_mask_eq_zero (hx : x.toNat < 2 ^ 23) : x &&& ~~~0x007fffff = 0 := by
  have hmask : x &&& 0x007fffff = x := by
    apply BitVec.eq_of_toNat_eq
    rw [BitVec.toNat_and]
    exact (Nat.and_two_pow_sub_one_eq_mod x.toNat 23).trans (Nat.mod_eq_of_lt hx)
  rw [← hmask, BitVec.and_assoc]
  simp

lemma toNat_or_size (hx : x.toNat < 2 ^ 24) {size : Nat} (hsize : size < 256) :
    x ||| BitVec.ofNat 32 size <<< 24 = BitVec.ofNat 32 (2 ^ 24 * size + x.toNat) := by
  apply BitVec.eq_of_toNat_eq
  rw [BitVec.toNat_or, BitVec.toNat_shiftLeft, BitVec.toNat_ofNat, BitVec.toNat_ofNat, Nat.mod_eq_of_lt (by omega),
    Nat.shiftLeft_eq, Nat.mod_eq_of_lt (by omega), Nat.mod_eq_of_lt (by omega), Nat.two_pow_add_eq_or_of_lt hx,
    Nat.or_comm, Nat.mul_comm]

def mantissaOf (a : ArithUint256) (nSize : Nat) : BitVec 32 :=
  if nSize ≤ 3 then (a.getLow64 <<< (8 * (3 - nSize))).setWidth 32
  else (a.shiftRight (8 * (nSize - 3))).getLow64.setWidth 32

lemma toNat_mantissaOf (a : ArithUint256) {nSize : Nat} (h : a.toNat < 2 ^ (8 * nSize)) :
    (mantissaOf a nSize).toNat = (if nSize ≤ 3 then a.toNat * 256 ^ (3 - nSize) else a.toNat / 256 ^ (nSize - 3)) ∧
      (mantissaOf a nSize).toNat < 2 ^ 24 := by
  have hbyte : ∀ k, 256 ^ k = 2 ^ (8 * k) := fun k => by rw [pow_mul]; rfl
  rw [mantissaOf, hbyte, hbyte]
  split_ifs with hshort
  · have hlt : a.toNat * 2 ^ (8 * (3 - nSize)) < 2 ^ 24 := by
      calc a.toNat * 2 ^ (8 * (3 - nSize)) < 2 ^ (8 * nSize) * 2 ^ (8 * (3 - nSize)) :=
            Nat.mul_lt_mul_of_pos_right h (Nat.two_pow_pos _)
        _ = 2 ^ 24 := by rw [← pow_add]; congr 1; omega
    have hsmall : a.toNat < 2 ^ 24 := h.trans_le (Nat.pow_le_pow_right (by decide) (by omega))
    rw [BitVec.toNat_setWidth, BitVec.toNat_shiftLeft, toNat_getLow64, Nat.shiftLeft_eq,
      Nat.mod_eq_of_lt (show a.toNat < 2 ^ 64 by omega), Nat.mod_eq_of_lt (show _ < 2 ^ 64 by omega),
      Nat.mod_eq_of_lt (show _ < 2 ^ 32 by omega)]
    exact ⟨rfl, hlt⟩
  · have hlt : a.toNat / 2 ^ (8 * (nSize - 3)) < 2 ^ 24 := by
      rw [Nat.div_lt_iff_lt_mul (Nat.two_pow_pos _), ← pow_add]
      exact h.trans_le (Nat.pow_le_pow_right (by decide) (by omega))
    rw [BitVec.toNat_setWidth, toNat_getLow64, toNat_shiftRight, Nat.mod_eq_of_lt (show _ < 2 ^ 64 by omega),
      Nat.mod_eq_of_lt (show _ < 2 ^ 32 by omega)]
    exact ⟨rfl, hlt⟩

lemma getCompact_eq (a : ArithUint256) : getCompact a = some (compactForm a.toNat) := by
  have hbits : a.bits ≤ 256 := by rw [bits_eq]; exact Nat.size_le.mpr a.toNat_lt
  have hlt : a.toNat < 2 ^ (8 * ((a.bits + 7) / 8)) := by
    have hself : a.toNat < 2 ^ a.bits := by rw [bits_eq]; exact Nat.lt_size_self _
    exact hself.trans_le (Nat.pow_le_pow_right (by decide) (by omega))
  obtain ⟨hmantissa, hbound⟩ := toNat_mantissaOf a hlt
  rw [getCompact, compactForm, ← bits_eq]
  dsimp only
  rw [← hmantissa, ← mantissaOf]
  generalize mantissaOf a ((a.bits + 7) / 8) = m at hbound
  by_cases hsign : m.toNat < 2 ^ 23
  · rw [if_neg (fun h => (sign_ne_zero_iff hbound).mp h hsign), if_pos hsign]
    dsimp only
    rw [if_pos ⟨and_not_mask_eq_zero hsign, by omega⟩, toNat_or_size hbound (by omega)]
    simp
  · have hshift : (m >>> 8).toNat = m.toNat / 256 := by rw [BitVec.toNat_ushiftRight, Nat.shiftRight_eq_div_pow]
    rw [if_pos ((sign_ne_zero_iff hbound).mpr hsign), if_neg hsign]
    dsimp only
    rw [if_pos ⟨and_not_mask_eq_zero (by omega), by omega⟩, toNat_or_size (by omega) (by omega), hshift]
    simp

/-- The operators are those of the numbers modulo 2^256; a division by zero throws. -/
theorem operators_exact (a b : ArithUint256) (k : Nat) :
    (a.mulUint b).toNat = a.toNat * b.toNat % 2 ^ 256 ∧
      (a.div b).map toNat = (if b.toNat = 0 then none else some (a.toNat / b.toNat)) ∧
      (a.shiftLeft k).toNat = a.toNat * 2 ^ k % 2 ^ 256 ∧ (a.shiftRight k).toNat = a.toNat / 2 ^ k := by
  refine ⟨toNat_mulUint, ?_, toNat_shiftLeft a k, toNat_shiftRight⟩
  split_ifs with hb
  · simp [div, bits_eq, hb]
  · obtain ⟨q, hq, hvalue⟩ := div_spec a (Nat.pos_of_ne_zero hb)
    rw [hq, ← hvalue, Option.map_some]

end ArithUint256

end Qstees
