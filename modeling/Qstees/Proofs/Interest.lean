import Qstees.Proofs.Amounts

/-!
# Bounds on interest

Over the longest term the rate table grows by less than 0.52 per cent and the bonus table by less than 2.11, so the
interest on an amount in money range is below three per cent of it and no 64-bit sum of the formula overflows.
-/

namespace Qstees.Proofs

open List

/-- The entries up to the longest term are reached without overflow, and grow by `c` in `10000` at most. -/
structure TableOk (table : Nat → Nat) (c : Nat) : Prop where
  pos : 0 < table 0
  succ : ∀ i, i < 21600 → table i ≤ table (i + 1)
  growth : ∀ i, i ≤ 21600 → table i * 10000 ≤ table 0 * (10000 + c)

lemma compound_bounds {table : Nat → Nat} (shift base step : Nat) (h0 : table 0 = base)
    (hsucc : ∀ i, table (i + 1) = compound shift (table i)) (hcap : base + 21600 * step ≤ step * 2 ^ shift)
    (hfit : base + 21600 * step < 2 ^ 64) {i : Nat} (hi : i ≤ 21600) :
    table i ≤ base + i * step ∧ (i < 21600 → table (i + 1) = table i + table i / 2 ^ shift) := by
  have hnext : ∀ k, k < 21600 → table k ≤ base + k * step →
      table (k + 1) = table k + table k / 2 ^ shift ∧ table k / 2 ^ shift ≤ step := fun k hk hle => by
    have hgrowth : table k / 2 ^ shift ≤ step := by
      apply Nat.div_le_of_le_mul
      rw [Nat.mul_comm]
      have := Nat.mul_le_mul_right step hk.le
      omega
    have hroom : (k + 1) * step ≤ 21600 * step := Nat.mul_le_mul_right step hk
    rw [Nat.succ_mul] at hroom
    rw [hsucc, compound, Nat.mod_eq_of_lt (by omega)]
    exact ⟨rfl, hgrowth⟩
  have hle : ∀ k, k ≤ 21600 → table k ≤ base + k * step := fun k => by
    induction k with
    | zero => intro _; omega
    | succ k ih =>
      intro hk
      have hprev := ih (by omega)
      obtain ⟨heq, hgrowth⟩ := hnext k hk hprev
      rw [heq, Nat.succ_mul]
      omega
  exact ⟨hle i hi, fun hlt => (hnext i hlt (hle i hi)).1⟩

lemma rateTable_ok : TableOk rateTable 52 := by
  have hbounds : ∀ {i : Nat}, i ≤ 21600 → rateTable i ≤ 2 ^ 62 + i * 1105203249123 ∧
      (i < 21600 → rateTable (i + 1) = rateTable i + rateTable i / 2 ^ 22) :=
    compound_bounds 22 (2 ^ 62) 1105203249123 rfl (fun _ => rfl) (by norm_num) (by norm_num)
  have hzero : rateTable 0 = 2 ^ 62 := rfl
  refine ⟨by omega, fun i hi => ?_, fun i hi => ?_⟩
  · rw [(hbounds hi.le).2 hi]
    exact Nat.le_add_right _ _
  · have := (hbounds hi).1
    omega

lemma bonusTable_ok : TableOk bonusTable 211 := by
  have hbounds : ∀ {i : Nat}, i ≤ 21600 → bonusTable i ≤ 2 ^ 58 + i * 280659310590 ∧
      (i < 21600 → bonusTable (i + 1) = bonusTable i + bonusTable i / 2 ^ 20) :=
    compound_bounds 20 (2 ^ 58) 280659310590 rfl (fun _ => rfl) (by norm_num) (by norm_num)
  have hzero : bonusTable 0 = 2 ^ 58 := rfl
  refine ⟨by omega, fun i hi => ?_, fun i hi => ?_⟩
  · rw [(hbounds hi.le).2 hi]
    exact Nat.le_add_right _ _
  · have := (hbounds hi).1
    omega

variable {table : Nat → Nat} {c : Nat} {nValue o v m : Int}

lemma TableOk.mono (ht : TableOk table c) {i j : Nat} (hij : i ≤ j) (hj : j ≤ 21600) : table i ≤ table j := by
  induction j with
  | zero => rw [Nat.le_zero.mp hij]
  | succ j ih =>
    rcases Nat.of_le_succ hij with hle | rfl
    · exact (ih hle (by omega)).trans (ht.succ j hj)
    · exact le_rfl

def growth (table : Nat → Nat) (periods amount : Int) : Int :=
  if periods ≤ 0 ∨ amount ≤ 0 then 0 else amount * table periods.toNat / table 0 - amount

lemma growth_bounds (ht : TableOk table c) {periods : Int} (amount : Int) (hp : periods ≤ 21600) :
    0 ≤ growth table periods amount ∧ (0 ≤ amount → growth table periods amount * 10000 ≤ amount * c) := by
  rw [growth]
  split_ifs with hcond
  · exact ⟨le_rfl, fun ha => by rw [zero_mul]; exact mul_nonneg ha (Int.natCast_nonneg c)⟩
  have hpos : (0 : Int) < table 0 := by exact_mod_cast ht.pos
  have hlow : (table 0 : Int) ≤ table periods.toNat := by exact_mod_cast ht.mono (Nat.zero_le _) (by omega)
  have hhigh : (table periods.toNat : Int) * 10000 ≤ table 0 * (10000 + c) := by
    exact_mod_cast ht.growth periods.toNat (by omega)
  have hquot : amount * table periods.toNat / table 0 * table 0 ≤ amount * table periods.toNat :=
    Int.ediv_mul_le _ hpos.ne'
  constructor
  · have : amount ≤ amount * table periods.toNat / table 0 :=
      Int.le_ediv_of_mul_le hpos (mul_le_mul_of_nonneg_left hlow (by omega))
    omega
  intro ha
  have hscaled : amount * table periods.toNat / table 0 * 10000 ≤ amount * (10000 + c) := by
    apply le_of_mul_le_mul_right _ hpos
    calc amount * table periods.toNat / table 0 * 10000 * table 0
        = amount * table periods.toNat / table 0 * table 0 * 10000 := by ring
      _ ≤ amount * table periods.toNat * 10000 := mul_le_mul_of_nonneg_right hquot (by decide)
      _ = amount * (table periods.toNat * 10000) := by ring
      _ ≤ amount * (table 0 * (10000 + c)) := mul_le_mul_of_nonneg_left hhigh ha
      _ = amount * (10000 + c) * table 0 := by ring
  rw [mul_add] at hscaled
  omega

lemma growth_mono (ht : TableOk table c) {p q : Int} (amount : Int) (hpq : p ≤ q) (hq : q ≤ 21600) :
    growth table p amount ≤ growth table q amount := by
  by_cases hp : p ≤ 0 ∨ amount ≤ 0
  · rw [growth, if_pos hp]
    exact (growth_bounds ht amount hq).1
  · rw [growth, growth, if_neg hp, if_neg (by omega)]
    have htable : (table p.toNat : Int) ≤ table q.toNat := by exact_mod_cast ht.mono (by omega) (by omega)
    have hquot : amount * table p.toNat / table 0 ≤ amount * table q.toNat / table 0 :=
      Int.ediv_le_ediv (by exact_mod_cast ht.pos) (mul_le_mul_of_nonneg_left htable (by omega))
    omega

lemma growthForAmount_eq (ht : TableOk table c) (hc : c ≤ 300) {periods : Int} (hp : periods ≤ 21600)
    (ha : 0 ≤ nValue ∧ nValue ≤ MAX_MONEY) : ∃ ss,
      growthForAmount table periods nValue = ⟨.ok (growth table periods nValue), ss⟩ ∧ ∀ x ∈ ss, InRange64 x := by
  obtain ⟨hlo, hhi⟩ := growth_bounds ht nValue hp
  have hhi := hhi ha.1
  rw [growthForAmount]
  by_cases hcond : periods ≤ 0 ∨ nValue ≤ 0
  · rw [if_pos hcond, growth, if_pos hcond]
    exact ⟨[], rfl, by simp⟩
  have hle : growth table periods nValue ≤ nValue := by
    have : nValue * c ≤ nValue * 300 := mul_le_mul_of_nonneg_left (by exact_mod_cast hc) ha.1
    omega
  rw [growth, if_neg hcond] at hlo hle ⊢
  rw [if_neg hcond, Int.emod_eq_of_lt (by omega) (by have := MAX_MONEY_eq; omega)]
  have hrange : InRange64 (nValue * table periods.toNat / table 0 - nValue) :=
    inRange64_of_abs_le (by omega) (by omega)
  refine ⟨[_], by rw [Tally.record, wrap64_eq_self hrange], fun x hx => ?_⟩
  rw [mem_singleton.mp hx]
  exact hrange

/-- The interest of a deposit made at height `o` with release block `m`. -/
def interest (nValue o m : Int) : Int :=
  if m ≤ 0 ∨ m - o < 720 then 0
  else growth rateTable (min 21600 (m - o)) nValue +
    if o < THREEMONTHS then growth bonusTable (min 21600 (m - o)) nValue else 0

lemma interest_bounds (ha : 0 ≤ nValue) : 0 ≤ interest nValue o m ∧ interest nValue o m ≤ nValue * 3 / 100 := by
  have hrate := growth_bounds rateTable_ok nValue (min_le_left 21600 (m - o))
  have hbonus := growth_bounds bonusTable_ok nValue (min_le_left 21600 (m - o))
  have hrate' := hrate.2 ha
  have hbonus' := hbonus.2 ha
  rw [interest]
  split_ifs <;> omega

lemma interest_mono {m' : Int} (hm : m ≤ m') (ha : 0 ≤ nValue) : interest nValue o m ≤ interest nValue o m' := by
  by_cases hshort : m ≤ 0 ∨ m - o < 720
  · have hzero : interest nValue o m = 0 := if_pos hshort
    rw [hzero]
    exact (interest_bounds ha).1
  · have hterm : min 21600 (m - o) ≤ min 21600 (m' - o) := by omega
    have hrate := growth_mono rateTable_ok nValue hterm (min_le_left _ _)
    have hbonus := growth_mono bonusTable_ok nValue hterm (min_le_left _ _)
    rw [interest, interest, if_neg hshort, if_neg (show ¬(m' ≤ 0 ∨ m' - o < 720) by omega)]
    split_ifs <;> omega

def NoInterest (o v m : Int) : Prop := m ≥ 500000000 ∨ o < 0 ∨ o ≥ 170000 ∨ v < 0 ∨ v < o

instance : Decidable (NoInterest o v m) := inferInstanceAs (Decidable (_ ∨ _))

/-- The indexes of `tableReads` are all that the value depends on: tables that agree there give the same. -/
lemma getInterestFrom_congr {rate bonus : Nat → Nat} (h : ∀ i ∈ tableReads nValue o v m,
      rate i.toNat = rateTable i.toNat ∧ bonus i.toNat = bonusTable i.toNat) :
    getInterestFrom (growthForAmount rate) (growthForAmount bonus) nValue o v m = getInterest nValue o v m := by
  rw [tableReads] at h
  rw [getInterest, getInterestFrom, getInterestFrom]
  by_cases hguard : m ≥ 500000000 ∨ o < 0 ∨ o ≥ 170000 ∨ v < 0 ∨ v < o
  · rw [if_pos hguard, if_pos hguard]
  rw [if_neg hguard] at h
  rw [if_neg hguard, if_neg hguard]
  dsimp only at h ⊢
  generalize (if m > 0 then min THIRTYDAYS (m - o) else 0) = blocks at h ⊢
  have hgrowth : growthForAmount rate blocks nValue = getRateForAmount blocks nValue ∧
      growthForAmount bonus blocks nValue = getBonusForAmount blocks nValue := by
    unfold getRateForAmount getBonusForAmount growthForAmount
    split_ifs at h ⊢ with hnone
    · exact ⟨rfl, rfl⟩
    · obtain ⟨hblocks, hzero, -⟩ := forall_mem_cons.mp h |>.imp_right forall_mem_cons.mp
      rw [hblocks.1, hblocks.2, show rate 0 = rateTable 0 from hzero.1, show bonus 0 = bonusTable 0 from hzero.2]
      exact ⟨rfl, rfl⟩
  rw [hgrowth.1, bonusInterest, bonusInterest, hgrowth.2]

lemma bonusInterest_eq {blocks : Int} (hblocks : blocks ≤ 21600) (ha : 0 ≤ nValue ∧ nValue ≤ MAX_MONEY) :
    ∃ ss, bonusInterest getBonusForAmount o blocks nValue =
        ⟨.ok (if o < THREEMONTHS then growth bonusTable blocks nValue else 0), ss⟩ ∧ ∀ x ∈ ss, InRange64 x := by
  rw [bonusInterest]
  split_ifs
  · exact growthForAmount_eq bonusTable_ok (by decide) hblocks ha
  · exact ⟨[], rfl, by simp⟩

lemma getInterest_eq (ha : 0 ≤ nValue ∧ nValue ≤ MAX_MONEY) :
    ∃ ss, getInterest nValue o v m = ⟨.ok (nValue + if NoInterest o v m then 0 else interest nValue o m), ss⟩ ∧
      ∀ x ∈ ss, InRange64 x := by
  rw [getInterest, getInterestFrom]
  by_cases hguard : NoInterest o v m
  · rw [if_pos hguard, add_zero]
    exact ⟨[], if_pos hguard, by simp⟩
  have hdays : THIRTYDAYS = 21600 := rfl
  have hday : BLOCKSPERDAY * 1 = 720 := rfl
  have hblocks : (if m > 0 then min THIRTYDAYS (m - o) else 0) ≤ 21600 := by split_ifs <;> omega
  -- What is left of the formula once the terms below a day are put together.
  have hfinal : (if m > 0 ∧ min THIRTYDAYS (m - o) < BLOCKSPERDAY * 1 then 0 else
      growth rateTable (if m > 0 then min THIRTYDAYS (m - o) else 0) nValue +
        if o < THREEMONTHS then growth bonusTable (if m > 0 then min THIRTYDAYS (m - o) else 0) nValue else 0) =
      interest nValue o m := by
    rw [interest, hdays, hday]
    by_cases hm : m > 0
    · rw [if_pos hm]
      exact if_congr (by omega) rfl rfl
    · have hnone : ∀ table, growth table 0 nValue = 0 := fun table => if_pos (.inl le_rfl)
      rw [if_neg hm, hnone, hnone, if_pos (show m ≤ 0 ∨ m - o < 720 by omega), if_neg (by omega), ite_self, add_zero]
  generalize (if m > 0 then min THIRTYDAYS (m - o) else 0) = blocks at hblocks hfinal
  obtain ⟨s₁, hrate, hs₁⟩ := growthForAmount_eq rateTable_ok (by decide) hblocks ha
  obtain ⟨s₂, hbonus, hs₂⟩ := bonusInterest_eq hblocks ha
  have hi := growth_bounds rateTable_ok nValue hblocks
  have hi' := hi.2 ha.1
  have hb := growth_bounds bonusTable_ok nValue hblocks
  have hb' := hb.2 ha.1
  generalize hbonusAmount : (if o < THREEMONTHS then growth bonusTable blocks nValue else 0) = bonus at hbonus hfinal
  have hbonusRange : 0 ≤ bonus ∧ bonus ≤ MAX_MONEY := by split_ifs at hbonusAmount <;> omega
  obtain ⟨hsum, hsumEq⟩ := wrap64_add_of_range (show 0 ≤ growth rateTable blocks nValue ∧ _ by omega) hbonusRange
  have hinterest := interest_bounds (o := o) (m := m) ha.1
  have htotal : InRange64 (nValue + interest nValue o m) := inRange64_of_abs_le (by omega) (by omega)
  rw [if_neg hguard]
  refine ⟨_, (if_neg hguard).trans (Tally.bind_eq_ok.mpr ⟨_, s₁, _, hrate, Tally.bind_eq_ok.mpr ⟨_, s₂, _, hbonus,
    Tally.bind_eq_ok.mpr ⟨_, _, _, sum64_eq_ok.mpr ⟨rfl, rfl⟩,
      Tally.bind_eq_ok.mpr ⟨_, _, _, sum64_eq_ok.mpr ⟨rfl, rfl⟩,
      sum64_eq_ok.mpr ⟨?_, rfl⟩, rfl⟩, rfl⟩, rfl⟩, rfl⟩), ?_⟩
  · rw [hsumEq, hfinal, add_zero, wrap64_eq_self htotal, wrap64_eq_self htotal]
  rw [hsumEq, hfinal, add_zero, wrap64_eq_self htotal]
  simp only [mem_append, mem_singleton]
  rintro x (hx | hx | rfl | rfl | rfl)
  · exact hs₁ x hx
  · exact hs₂ x hx
  · exact hsum
  · exact htotal
  · exact htotal

lemma getInterest_le {n : Int} {ss : List Int} (ha : 0 ≤ nValue ∧ nValue ≤ MAX_MONEY)
    (h : getInterest nValue o v m = ⟨.ok n, ss⟩) : (nValue ≤ n ∧ n ≤ 3 * MAX_MONEY) ∧ ∀ x ∈ ss, InRange64 x := by
  obtain ⟨ss', heq, hsums⟩ := getInterest_eq ha
  rw [heq] at h
  cases h
  have hinterest := interest_bounds (o := o) (m := m) ha.1
  refine ⟨?_, hsums⟩
  split_ifs <;> omega

/-- `GetInterest` stays inside the tables and adds at most three per cent. It does not depend on other entries, nor on
the height of the valuation once that is reached, grows with the release block, and is nothing for late outputs and
short terms. -/
theorem getInterest_bounds (ha : 0 ≤ nValue ∧ nValue ≤ MAX_MONEY) (o : Int) :
    (∀ v m, (∀ i ∈ tableReads nValue o v m, 0 ≤ i ∧ i < ONEYEARPLUS1) ∧
      ∀ rate bonus : Nat → Nat, (∀ i ∈ tableReads nValue o v m,
          rate i.toNat = rateTable i.toNat ∧ bonus i.toNat = bonusTable i.toNat) →
        getInterestFrom (growthForAmount rate) (growthForAmount bonus) nValue o v m = getInterest nValue o v m) ∧
    (∀ v m, ∃ n, (getInterest nValue o v m).result = .ok n ∧ nValue ≤ n ∧ n ≤ nValue + nValue * 3 / 100) ∧
    (∀ v v' m, o ≤ v → o ≤ v' → (getInterest nValue o v m).result = (getInterest nValue o v' m).result) ∧
    (∀ v m m' n n', m ≤ m' → m' < 500000000 → (getInterest nValue o v m).result = .ok n →
      (getInterest nValue o v m').result = .ok n' → n ≤ n') ∧
    (∀ v m, 170000 ≤ o ∨ m ≤ 0 ∨ m - o < 720 → (getInterest nValue o v m).result = .ok nValue) := by
  have hvalue : ∀ v m, (getInterest nValue o v m).result =
      .ok (nValue + if NoInterest o v m then 0 else interest nValue o m) := fun v m => by
    obtain ⟨ss, heq, -⟩ := getInterest_eq ha
    rw [heq]
  refine ⟨fun v m => ⟨fun i hi => ?_, fun rate bonus => getInterestFrom_congr⟩, fun v m => ⟨_, hvalue v m, ?_⟩,
    fun v v' m hv hv' => ?_, ?_, fun v m h => ?_⟩
  · rw [tableReads] at hi
    have hdays : THIRTYDAYS = 21600 := rfl
    have hyear : ONEYEARPLUS1 = 262801 := rfl
    by_cases hguard : m ≥ 500000000 ∨ o < 0 ∨ o ≥ 170000 ∨ v < 0 ∨ v < o
    · rw [if_pos hguard] at hi
      cases hi
    have hblocks : (if m > 0 then min THIRTYDAYS (m - o) else 0) ≤ 21600 := by split_ifs <;> omega
    rw [if_neg hguard] at hi
    dsimp only at hi
    generalize (if m > 0 then min THIRTYDAYS (m - o) else 0) = blocks at hi hblocks
    split_ifs at hi with hnone
    · cases hi
    · simp only [mem_cons, not_mem_nil, or_false] at hi
      omega
  · have hinterest := interest_bounds (o := o) (m := m) ha.1
    split_ifs <;> omega
  · have hsame : NoInterest o v m ↔ NoInterest o v' m := by
      rw [NoInterest, NoInterest]
      omega
    rw [hvalue, hvalue]
    simp only [hsame]
  · intro v m m' n n' hm hm' h h'
    rw [hvalue, Except.ok.injEq] at h h'
    have hmono := interest_mono (o := o) hm ha.1
    have hsame : NoInterest o v m ↔ NoInterest o v m' := by
      rw [NoInterest, NoInterest]
      omega
    rw [if_congr hsame rfl rfl] at h
    split_ifs at h h' <;> omega
  · have hnone : (if NoInterest o v m then 0 else interest nValue o m) = 0 := by
      split_ifs with hguard
      · rfl
      · exact if_pos (h.resolve_left fun ho => hguard (.inr (.inr (.inl ho))))
    rw [hvalue, hnone, add_zero]

theorem getInterest_bounds_coin :
    (∃ n, (getInterest COIN 100 200 30000).result = .ok n ∧ COIN ≤ n ∧ n ≤ COIN + COIN * 3 / 100) ∧
      (getInterest COIN 100 200 700).result = .ok COIN :=
  have h := getInterest_bounds (show 0 ≤ COIN ∧ COIN ≤ MAX_MONEY by decide) 100
  ⟨h.2.1 200 30000, h.2.2.2.2 200 700 (by decide)⟩

lemma getValueWithInterest_le {out : CTxOut} {n : Int} {ss : List Int}
    (ha : 0 ≤ out.nValue ∧ out.nValue ≤ MAX_MONEY) (h : out.getValueWithInterest o v = ⟨.ok n, ss⟩) :
    (out.nValue ≤ n ∧ n ≤ 3 * MAX_MONEY) ∧ ∀ x ∈ ss, InRange64 x := by
  obtain ⟨m, s₁, s₂, hm, hinterest, rfl⟩ := Tally.bind_eq_ok.mp h
  obtain ⟨-, rfl⟩ := liftException_eq_ok.mp hm
  exact getInterest_le ha hinterest

end Qstees.Proofs
