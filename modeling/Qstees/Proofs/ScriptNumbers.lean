import Qstees.Model.Script

/-!
# The numbers of scripts

A number is written as the bytes of its magnitude, the least significant one first, with the sign in the top bit of the
last one. The minimal encodings are what `serialize` writes.
-/

namespace Qstees.Proofs

open List

variable {b : UInt8} {init vch : List UInt8} {fuel n k : Nat}

lemma readLE_append (bytes : List UInt8) (b : UInt8) :
    readLE (bytes ++ [b]) = readLE bytes + 256 ^ bytes.length * b.toNat := by
  induction bytes with
  | nil => simp [readLE]
  | cons c bytes ih =>
    rw [cons_append, readLE, readLE, ih, length_cons, pow_succ]
    ring

lemma readLE_pos (init : List UInt8) (hb : b ≠ 0) : 0 < readLE (init ++ [b]) := by
  have hpos : 0 < b.toNat := Nat.pos_of_ne_zero (fun h => hb (UInt8.toNat_inj.mp h))
  rw [readLE_append]
  positivity

lemma serializeAbs_zero : serializeAbs fuel 0 = [] := by
  cases fuel with
  | zero => rfl
  | succ fuel => rfl

lemma serializeAbs_add (hpos : 0 < b.toNat + 256 * n) :
    serializeAbs (fuel + 1) (b.toNat + 256 * n) = b :: serializeAbs fuel n := by
  have hb := b.toNat_lt
  rw [serializeAbs, if_neg hpos.ne', show (b.toNat + 256 * n) % 256 = b.toNat by omega,
    show (b.toNat + 256 * n) / 256 = n by omega, UInt8.ofNat_toNat]

lemma serializeAbs_readLE (hb : b ≠ 0) (hfuel : init.length < fuel) :
    serializeAbs fuel (readLE (init ++ [b])) = init ++ [b] := by
  induction init generalizing fuel with
  | nil =>
    obtain ⟨fuel, rfl⟩ := Nat.exists_eq_add_one_of_ne_zero (Nat.ne_of_gt hfuel)
    rw [nil_append, readLE, serializeAbs_add (readLE_pos [] hb), readLE, serializeAbs_zero]
  | cons c init ih =>
    obtain ⟨fuel, rfl⟩ := Nat.exists_eq_add_one_of_ne_zero (Nat.ne_of_gt (Nat.zero_lt_of_lt hfuel))
    rw [cons_append, readLE, serializeAbs_add (Nat.add_pos_right _ (Nat.mul_pos (by decide) (readLE_pos _ hb))),
      ih (Nat.lt_of_succ_lt_succ hfuel)]

lemma exists_bytes (hpos : 0 < n) (h : n < 256 ^ k) : ∃ init b, b ≠ 0 ∧ init.length < k ∧ n = readLE (init ++ [b]) := by
  induction k generalizing n with
  | zero => omega
  | succ k ih =>
    have hbyte : (UInt8.ofNat n).toNat = n % 256 := UInt8.toNat_ofNat'
    by_cases hlast : n / 256 = 0
    · refine ⟨[], UInt8.ofNat n, ?_, Nat.succ_pos k, ?_⟩
      · intro hzero
        rw [hzero] at hbyte
        change 0 = _ at hbyte
        omega
      · rw [nil_append, readLE, readLE]
        omega
    · obtain ⟨init, b, hb, hlen, hrest⟩ := ih (Nat.pos_of_ne_zero hlast) (by rw [pow_succ] at h; omega)
      refine ⟨UInt8.ofNat n :: init, b, hb, Nat.succ_lt_succ hlen, ?_⟩
      rw [cons_append, readLE, ← hrest]
      omega

/-- The bytes of a magnitude with the sign of the number: in a byte of its own where the top bit is taken. -/
def signed (init : List UInt8) (b : UInt8) (neg : Bool) : List UInt8 :=
  if b &&& 0x80 ≠ 0 then init ++ [b] ++ [if neg then 0x80 else 0] else init ++ [if neg then b ||| 0x80 else b]

/-- The number with the sign and the magnitude. -/
def ofSign (neg : Bool) (n : Nat) : Int := if neg then -n else n

lemma sign_bits : ∀ b : UInt8, b.toNat = (b &&& 0x7f).toNat + (if b &&& 0x80 ≠ 0 then 128 else 0) := by
  decide +kernel

lemma sign_added : ∀ b : UInt8, b &&& 0x80 = 0 →
    b &&& 0x7f = b ∧ (b ||| 0x80) &&& 0x80 ≠ 0 ∧ (b ||| 0x80) &&& 0x7f = b := by
  decide +kernel

lemma sign_alone : ∀ b : UInt8, b = (if b &&& 0x80 ≠ 0 then (b &&& 0x7f) ||| 0x80 else b &&& 0x7f) := by
  decide +kernel

lemma natAbs_ofSign (neg : Bool) : (ofSign neg n).natAbs = n := by
  cases neg with
  | false => rfl
  | true => exact Int.natAbs_neg n

lemma length_signed (neg : Bool) :
    (signed init b neg).length = init.length + if b &&& 0x80 ≠ 0 then 2 else 1 := by
  rw [signed]
  split_ifs <;> simp

lemma serializeNum_signed (hb : b ≠ 0) (hlen : init.length < 8) (neg : Bool) :
    serializeNum (ofSign neg (readLE (init ++ [b]))) = signed init b neg := by
  have hpos := readLE_pos init hb
  have hneg : ofSign neg (readLE (init ++ [b])) < 0 ↔ neg = true := by
    cases neg with
    | false => simp [ofSign]
    | true => simpa [ofSign] using hpos
  rw [serializeNum, natAbs_ofSign, serializeAbs_readLE hb hlen]
  simp only [getLast?_concat, dropLast_concat, hneg, signed]
  split_ifs <;> rfl

lemma setVch_append (bytes : List UInt8) (back : UInt8) :
    setVch (bytes ++ [back]) = ofSign (decide (back &&& 0x80 ≠ 0)) (readLE (bytes ++ [back &&& 0x7f])) := by
  have hbits := sign_bits back
  simp only [setVch, getLast?_concat, readLE_append, hbits, ofSign, decide_eq_true_eq]
  split_ifs with hsign
  · rw [length_append, length_singleton, Nat.add_sub_cancel, Nat.mul_add, ← Nat.add_assoc, Nat.mul_comm 128,
      Nat.add_sub_cancel]
  · rw [Nat.add_zero]

lemma isMinimalNum_append {bytes : List UInt8} {back : UInt8} :
    isMinimalNum (bytes ++ [back]) = true ↔
      back &&& 0x7f ≠ 0 ∨ ∃ init next, bytes = init ++ [next] ∧ next &&& 0x80 ≠ 0 := by
  obtain rfl | ⟨init, next, rfl⟩ := bytes.eq_nil_or_concat'
  · simp [isMinimalNum]
  · simp only [isMinimalNum, reverse_append, reverse_singleton, singleton_append, Bool.or_eq_true,
      decide_eq_true_eq]
    refine or_congr Iff.rfl ⟨fun h => ⟨init, next, rfl, h⟩, ?_⟩
    rintro ⟨init', next', heq, h⟩
    obtain ⟨-, rfl⟩ := append_singleton_inj.mp heq
    exact h

lemma signed_spec (hb : b ≠ 0) (neg : Bool) :
    isMinimalNum (signed init b neg) = true ∧ setVch (signed init b neg) = ofSign neg (readLE (init ++ [b])) := by
  by_cases hsign : b &&& 0x80 = 0
  · obtain ⟨hlow, htop, hrest⟩ := sign_added b hsign
    rw [signed, if_neg (not_not.mpr hsign), isMinimalNum_append, setVch_append]
    cases neg with
    | false => simp [hlow, hb, hsign]
    | true => simp [htop, hrest, hb]
  · rw [signed, if_pos hsign, isMinimalNum_append, setVch_append, readLE_append (init ++ [b])]
    refine ⟨.inr ⟨init, b, rfl, hsign⟩, ?_⟩
    cases neg with
    | false => simp
    | true => simp

lemma exists_signed (h : isMinimalNum vch = true) (hne : vch ≠ []) : ∃ init b neg, b ≠ 0 ∧ vch = signed init b neg := by
  obtain rfl | ⟨bytes, back, rfl⟩ := vch.eq_nil_or_concat'
  · exact absurd rfl hne
  have hback := sign_alone back
  by_cases hlow : back &&& 0x7f = 0
  · obtain ⟨init, next, rfl, hnext⟩ := (isMinimalNum_append.mp h).resolve_left (not_not.mpr hlow)
    refine ⟨init, next, decide (back &&& 0x80 ≠ 0), ?_, ?_⟩
    · rintro rfl
      exact hnext rfl
    · rw [hlow] at hback
      simpa [signed, hnext] using hback
  · refine ⟨bytes, back &&& 0x7f, decide (back &&& 0x80 ≠ 0), hlow, ?_⟩
    have htop : back &&& 0x7f &&& 0x80 = 0 := by rw [UInt8.and_assoc]; exact UInt8.and_zero
    simpa [signed, htop] using hback

/-- What `CScriptNum` pushes is minimal and reads as the number. -/
lemma serializeNum_spec {n : Int} (h : n.natAbs < 2 ^ 39) :
    (serializeNum n).length ≤ 5 ∧ isMinimalNum (serializeNum n) = true ∧ setVch (serializeNum n) = n := by
  obtain hzero | hpos := Nat.eq_zero_or_pos n.natAbs
  · rw [Int.natAbs_eq_zero.mp hzero]
    decide
  obtain ⟨init, b, hb, hlen, habs⟩ := exists_bytes hpos (h.trans (show 2 ^ 39 < 256 ^ 5 by decide))
  have hn : n = ofSign (decide (n < 0)) (readLE (init ++ [b])) := by
    rw [ofSign, ← habs]
    split_ifs with hneg <;> simp only [decide_eq_true_eq] at hneg <;> omega
  rw [hn, serializeNum_signed hb (by omega)]
  refine ⟨?_, signed_spec hb _⟩
  rw [length_signed]
  split_ifs with hsign
  · -- A fifth byte with its top bit taken would make the number `2 ^ 39` or more.
    have hbits := sign_bits b
    rw [if_pos hsign] at hbits
    have hfour : init.length ≠ 4 := by
      intro hfour
      rw [habs, readLE_append, hfour] at h
      omega
    omega
  · omega

/-- Numbers of up to five bytes and their minimal encodings are in bijection. -/
theorem scriptNum_roundTrip :
    (∀ n : Int, n.natAbs < 2 ^ 39 → scriptNum (serializeNum n) true 5 = .ok n) ∧
      ∀ vch n nMaxNumSize, vch.length ≤ 5 → scriptNum vch true nMaxNumSize = .ok n → serializeNum n = vch := by
  constructor
  · intro n h
    obtain ⟨hlen, hminimal, hread⟩ := serializeNum_spec h
    rw [scriptNum, if_neg (not_lt.mpr hlen), hminimal, hread]
    rfl
  · intro vch n nMaxNumSize hlen h
    rw [scriptNum] at h
    split_ifs at h with hlong hminimal
    obtain rfl := Except.ok.inj h
    obtain rfl | hne := eq_or_ne vch []
    · rfl
    · obtain ⟨init, b, neg, hb, rfl⟩ := exists_signed (by simpa using hminimal) hne
      have hshort : init.length < 8 := by
        rw [length_signed] at hlen
        omega
      rw [(signed_spec hb neg).2, serializeNum_signed hb hshort]

theorem scriptNum_roundTrip_minus255 :
    scriptNum (serializeNum (-255)) true 5 = .ok (-255) ∧ serializeNum (-255) = [0xff, 0x80] :=
  ⟨scriptNum_roundTrip.1 (-255) (by decide), scriptNum_roundTrip.2 [0xff, 0x80] (-255) 5 (by decide) rfl⟩

end Qstees.Proofs
