import Qstees.Model.Pow
import Qstees.Proofs.ArithUint256

/-!
# The arithmetic of `DarkGravityWave`

With unbounded integers the loop computes a running average of the last 24 targets and their timespan, and the new
target is their product over the target timespan.
-/

namespace Qstees

open BaseUint

def ArithOp.NoWrap : ArithOp → Prop
  | .uint256 exact => exact < 2 ^ 256
  | _ => True

instance : DecidablePred ArithOp.NoWrap
  | .uint256 exact => inferInstanceAs (Decidable (exact < 2 ^ 256))
  | .int64 _ | .uint32 _ | .uint64 _ | .solvetime _ => inferInstanceAs (Decidable True)

namespace Pow

variable {n : Nat} {b : Int}

lemma toNat_ofInt {w : Nat} (hb : b = n) (h : n < 2 ^ w) : (BitVec.ofInt w b).toNat = n := by
  rw [hb, BitVec.toNat_ofInt]
  have hpos : (2 : Int) ^ w = ((2 ^ w : Nat) : Int) := by push_cast; rfl
  rw [Nat.cast_pow, Nat.cast_ofNat, hpos, ← Int.natCast_mod, Int.toNat_natCast, Nat.mod_eq_of_lt h]

variable (a : ArithUint256)

lemma result_mul (b : Int) : (mul a b).result = .ok (a.mul (BitVec.ofInt 32 b)) := rfl

lemma log_mul (b : Int) :
    (mul a b).log = [.uint32 b, .uint256 (a.toNat * (BitVec.ofInt 32 b).toNat)] := rfl

lemma toNat_mul {a : ArithUint256} (hb : b = n) (hn : n < 2 ^ 32) (h : a.toNat * n < 2 ^ 256) :
    (a.mul (BitVec.ofInt 32 b)).toNat = a.toNat * n := by
  rw [BaseUint.toNat_mul, toNat_ofInt hb hn]
  exact Nat.mod_eq_of_lt h

lemma toNat_add {a b : ArithUint256} (h : a.toNat + b.toNat < 2 ^ 256) : (a.add b).toNat = a.toNat + b.toNat := by
  rw [BaseUint.toNat_add]
  exact Nat.mod_eq_of_lt h

lemma div_eq (hb : b = n) (hpos : 0 < n) (hn : n < 2 ^ 64) :
    ∃ q : ArithUint256, div a b = ⟨.ok q, [.uint64 b]⟩ ∧ q.toNat = a.toNat / n := by
  have hdivisor : (ofUint64 (BitVec.ofInt 64 b) : ArithUint256).toNat = n := by
    rw [toNat_ofUint64, toNat_ofInt hb hn]
  obtain ⟨q, hq, hvalue⟩ := div_spec a (b := ofUint64 (BitVec.ofInt 64 b)) (hdivisor ▸ hpos)
  refine ⟨q, ?_, hdivisor ▸ hvalue⟩
  simp only [div, Traced.record, bind, hq]
  rfl

lemma getCompact_eq : getCompact a = pure (compactForm a.toNat) := by
  rw [getCompact, ArithUint256.getCompact_eq, Traced.ofOption_some]

end Pow

lemma toNat_capTarget (powLimit a : ArithUint256) : (capTarget powLimit a).toNat = min powLimit.toNat a.toNat := by
  simp only [capTarget, compareTo_eq, Nat.compare_eq_gt]
  split_ifs with h
  · exact (Nat.min_eq_left h.le).symm
  · exact (Nat.min_eq_right (not_lt.mp h)).symm

end Qstees

namespace Qstees.Proofs

open Traced (Clean)

def pastAverage : Nat → Nat → List Nat → Nat
  | _, A, [] => A
  | c, A, t :: ts => pastAverage (c + 1) ((A * (c + 1) + t) / (c + 2)) ts

/-- No sum of the running average reaches 2^256. -/
def SumsFit : Nat → Nat → List Nat → Prop
  | _, _, [] => True
  | c, A, t :: ts => A * (c + 1) + t < 2 ^ 256 ∧ SumsFit (c + 1) ((A * (c + 1) + t) / (c + 2)) ts

instance : (c A : Nat) → (ts : List Nat) → Decidable (SumsFit c A ts)
  | _, _, [] => inferInstanceAs (Decidable True)
  | c, A, t :: ts =>
    have := instDecidableSumsFit (c + 1) ((A * (c + 1) + t) / (c + 2)) ts
    inferInstanceAs (Decidable (_ ∧ _))

def wrappedAverage : Nat → Nat → List Nat → Nat
  | _, A, [] => A
  | c, A, t :: ts => wrappedAverage (c + 1) ((A * (c + 1) + t) % 2 ^ 256 / (c + 2)) ts

variable {c A : Nat} {b : PowIndex} {bs : List PowIndex}

lemma wrappedAverage_eq {ts : List Nat} (h : SumsFit c A ts) :
    wrappedAverage c A ts = pastAverage c A ts := by
  induction ts generalizing c A with
  | nil => rfl
  | cons t ts ih => rw [wrappedAverage, pastAverage, Nat.mod_eq_of_lt h.1, ih h.2]

def averageTarget : List PowIndex → Nat
  | [] => 0
  | b :: bs => pastAverage 1 b.target.toNat (bs.map (fun b => b.target.toNat))

/-- The differences of the block times below a block with time `last`; a block with time zero hides the one below. -/
def timespanFrom : Int → List PowIndex → Int
  | _, [] => 0
  | last, b :: bs => (if last > 0 then last - b.getBlockTime else 0) + timespanFrom b.getBlockTime bs

def timespan (blocks : List PowIndex) : Int := timespanFrom 0 blocks

lemma mul_le_pastAverage (c A : Nat) (ts : List Nat) :
    A * (c + 1) ≤ pastAverage c A ts * (c + 1 + ts.length) + ts.length * (c + 1 + ts.length) := by
  induction ts generalizing c A with
  | nil => simp [pastAverage]
  | cons t ts ih =>
    have hstep : A * (c + 1) + t < ((A * (c + 1) + t) / (c + 2) + 1) * (c + 1 + 1) :=
      Nat.lt_mul_of_div_lt (Nat.lt_succ_self _) (by omega)
    have hrest := ih (c + 1) ((A * (c + 1) + t) / (c + 2))
    rw [pastAverage, List.length_cons]
    rw [show c + 1 + (ts.length + 1) = c + 1 + 1 + ts.length by omega]
    rw [Nat.add_mul] at hstep ⊢
    omega

lemma sumsFit_of_average {ts : List Nat} {m : Nat} (hcount : c + ts.length ≤ 24) (hm : 960 ≤ m)
    (h : pastAverage c A ts * m < 2 ^ 256) : SumsFit c A ts := by
  induction ts generalizing c A with
  | nil => trivial
  | cons t ts ih =>
    rw [List.length_cons] at hcount
    refine ⟨?_, ih (by omega) h⟩
    have hlow := mul_le_pastAverage (c + 1) ((A * (c + 1) + t) / (c + 2)) ts
    have hstep : A * (c + 1) + t < ((A * (c + 1) + t) / (c + 2) + 1) * (c + 1 + 1) :=
      Nat.lt_mul_of_div_lt (Nat.lt_succ_self _) (by omega)
    rw [pastAverage] at h
    have hweight : pastAverage (c + 1) ((A * (c + 1) + t) / (c + 2)) ts * 960 < 2 ^ 256 :=
      (Nat.mul_le_mul_left _ hm).trans_lt h
    have hsize : c + 1 + 1 + ts.length ≤ 25 := by omega
    have hone := Nat.mul_le_mul_left (pastAverage (c + 1) ((A * (c + 1) + t) / (c + 2)) ts) hsize
    have htwo := Nat.mul_le_mul (show ts.length ≤ 24 by omega) hsize
    rw [Nat.add_mul] at hstep
    omega

structure Averages (s : DarkGravity) (c A : Nat) : Prop where
  count : s.CountBlocks = c
  prev : s.PastDifficultyAveragePrev.toNat = A
  average : s.PastDifficultyAverage.toNat = A

lemma addTimespan_spec (nActualTimespan last : Int) :
    (addTimespan nActualTimespan last b).result =
        .ok (nActualTimespan + (if last > 0 then last - b.getBlockTime else 0)) ∧
      Clean ArithOp.NoWrap (addTimespan nActualTimespan last b) := by
  rw [addTimespan]
  split_ifs with h
  · refine ⟨rfl, ?_⟩
    rw [Pow.int64, Traced.clean_bind (Traced.result_record _ _), Traced.clean_record, Pow.int64, Traced.clean_record]
    exact ⟨trivial, trivial⟩
  · rw [Int.add_zero]
    exact ⟨rfl, Traced.clean_pure _⟩

lemma darkGravityStep_spec {s : DarkGravity} (hcount : s.CountBlocks + 1 ≤ PastBlocksMin)
    {average : ArithUint256}
    (haverage : (pastDifficultyAverage s.PastDifficultyAveragePrev (s.CountBlocks + 1) b).result = .ok average) :
    (darkGravityStep s b).result = .ok
        ⟨average, average, s.nActualTimespan + (if s.LastBlockTime > 0 then s.LastBlockTime - b.getBlockTime else 0),
          b.getBlockTime, s.CountBlocks + 1⟩ ∧
      (Clean ArithOp.NoWrap (darkGravityStep s b) ↔
        Clean ArithOp.NoWrap (pastDifficultyAverage s.PastDifficultyAveragePrev (s.CountBlocks + 1) b)) := by
  obtain ⟨htimespan, hclean⟩ := addTimespan_spec s.nActualTimespan s.LastBlockTime
  constructor
  · rw [darkGravityStep, Pow.int64, Traced.result_bind (Traced.result_record _ _), if_pos hcount,
      Traced.result_bind haverage, Traced.result_bind htimespan, if_pos hcount]
    rfl
  · rw [darkGravityStep, Pow.int64, Traced.clean_bind (Traced.result_record _ _), if_pos hcount,
      Traced.clean_bind haverage, Traced.clean_bind htimespan, Traced.clean_record]
    exact ⟨fun h => h.2.1, fun h => ⟨trivial, h, hclean, Traced.clean_pure _⟩⟩

lemma pastDifficultyAverage_spec (prev : ArithUint256) (hpos : 0 < c) (hc : c + 2 < 2 ^ 32)
    :
    ∃ average, (pastDifficultyAverage prev (c + 1) b).result = .ok average ∧
      average.toNat = (prev.toNat * (c + 1) + b.target.toNat) % 2 ^ 256 / (c + 2) ∧
      (Clean ArithOp.NoWrap (pastDifficultyAverage prev (c + 1) b) ↔
        prev.toNat * (c + 1) + b.target.toNat < 2 ^ 256) := by
  have hcast : ((c : Int) + 1) = ((c + 1 : Nat) : Int) := by push_cast; rfl
  obtain ⟨average, hdiv, hvalue⟩ := Pow.div_eq ((prev.mul (BitVec.ofInt 32 (c + 1))).add b.target)
    (b := (c : Int) + 1 + 1) (n := c + 2) (by push_cast; ring) (by omega) (by omega)
  have hb32 : (BitVec.ofInt 32 ((c : Int) + 1)).toNat = c + 1 := Pow.toNat_ofInt hcast (by omega)
  have hproduct : (prev.mul (BitVec.ofInt 32 ((c : Int) + 1))).toNat = prev.toNat * (c + 1) % 2 ^ 256 := by
    rw [BaseUint.toNat_mul, hb32]
  rw [pastDifficultyAverage, if_neg (by omega)]
  refine ⟨average, ?_, ?_, ?_⟩
  · rw [Traced.result_bind (Pow.result_mul _ _), Pow.add, Traced.result_bind (Traced.result_record _ _), hdiv]
  · rw [hvalue, BaseUint.toNat_add, hproduct, Nat.mod_add_mod]
  · rw [Traced.clean_bind (Pow.result_mul _ _), Pow.add, Traced.clean_bind (Traced.result_record _ _),
      Traced.clean_record, hdiv]
    simp only [Clean, Pow.log_mul, hb32, hproduct, List.mem_cons, List.not_mem_nil, or_false,
      forall_eq_or_imp, forall_eq, ArithOp.NoWrap, and_true, true_and]
    omega

lemma foldlM_darkGravityStep {s : DarkGravity} (hs : Averages s c A) (hpos : 0 < c)
    (bs : List PowIndex) (hcount : c + bs.length ≤ 24) :
    ∃ s', (bs.foldlM darkGravityStep s).result = .ok s' ∧
      Averages s' (c + bs.length) (wrappedAverage c A (bs.map (fun b => b.target.toNat))) ∧
      s'.nActualTimespan = s.nActualTimespan + timespanFrom s.LastBlockTime bs ∧
      (Clean ArithOp.NoWrap (bs.foldlM darkGravityStep s) ↔ SumsFit c A (bs.map (fun b => b.target.toNat))) := by
  induction bs generalizing s c A with
  | nil =>
    refine ⟨s, rfl, hs, ?_, iff_of_true (Traced.clean_pure _) trivial⟩
    rw [timespanFrom, Int.add_zero]
  | cons b bs ih =>
    rw [List.length_cons] at hcount
    obtain ⟨average, haverage, hvalue, hclean⟩ :=
      pastDifficultyAverage_spec s.PastDifficultyAveragePrev hpos (by omega)
    have hc : s.CountBlocks + 1 ≤ PastBlocksMin := by rw [hs.count, PastBlocksMin]; omega
    obtain ⟨hresult, hstep⟩ := darkGravityStep_spec (b := b) hc (hs.count ▸ haverage)
    rw [hs.count, hclean, hs.prev] at hstep
    rw [hs.prev] at hvalue
    have hnext : Averages
        ⟨average, average, s.nActualTimespan + (if s.LastBlockTime > 0 then s.LastBlockTime - b.getBlockTime else 0),
          b.getBlockTime, s.CountBlocks + 1⟩ (c + 1) ((A * (c + 1) + b.target.toNat) % 2 ^ 256 / (c + 2)) :=
      ⟨by rw [hs.count]; push_cast; rfl, hvalue, hvalue⟩
    obtain ⟨s', hs', haverages, htimespan, hiff⟩ := ih hnext (by omega) (by omega)
    rw [List.foldlM_cons, Traced.clean_bind hresult, Traced.result_bind hresult, hstep, hiff]
    refine ⟨s', hs', ?_, ?_, ?_⟩
    · rw [List.map_cons, wrappedAverage, List.length_cons, show c + (bs.length + 1) = c + 1 + bs.length by omega]
      exact haverages
    · rw [htimespan, timespanFrom]
      ring
    · rw [List.map_cons, SumsFit]
      exact and_congr_right (fun hfit => by rw [Nat.mod_eq_of_lt hfit])

lemma darkGravityLoop_eq {n i : Nat} (hi : i + n = 25) (hlen : n < bs.length) (s : DarkGravity) :
    darkGravityLoop i bs s = (bs.take n).foldlM darkGravityStep s := by
  induction n generalizing i bs s with
  | zero =>
    obtain _ | ⟨b, bs⟩ := bs
    · rfl
    · rw [darkGravityLoop]
      split_ifs with hlast hstop
      · rfl
      · exact absurd ⟨by decide, by rw [PastBlocksMax]; omega⟩ hstop
      · rfl
  | succ n ih =>
    obtain _ | ⟨b, bs⟩ := bs
    · exact absurd hlen (Nat.not_lt_zero _)
    · rw [List.length_cons] at hlen
      rw [darkGravityLoop, if_pos (by omega), if_neg (by rw [PastBlocksMax]; omega),
        List.take_succ_cons, List.foldlM_cons]
      congr 1
      funext s'
      exact ih (by omega) (by omega) s'

lemma darkGravityLoop_spec (hlen : 24 ≤ bs.length) :
    ∃ s, (darkGravityLoop 1 (b :: bs) {}).result = .ok s ∧
      Averages s 24 (wrappedAverage 1 b.target.toNat ((bs.take 23).map (fun b => b.target.toNat))) ∧
      s.nActualTimespan = timespan (b :: bs.take 23) ∧
      (Clean ArithOp.NoWrap (darkGravityLoop 1 (b :: bs) {}) ↔
        SumsFit 1 b.target.toNat ((bs.take 23).map (fun b => b.target.toNat))) := by
  have htake : (bs.take 23).length = 23 := by rw [List.length_take]; omega
  have hfirst : pastDifficultyAverage .zero (0 + 1) b = pure b.target := if_pos rfl
  have haverage : (pastDifficultyAverage .zero (0 + 1) b).result = .ok b.target := by rw [hfirst]; rfl
  obtain ⟨hresult, hclean⟩ := darkGravityStep_spec (s := {}) (by decide) haverage
  have hstart : Averages ⟨b.target, b.target, 0 + (if (0 : Int) > 0 then 0 - b.getBlockTime else 0), b.getBlockTime,
      0 + 1⟩ 1 b.target.toNat := ⟨rfl, rfl, rfl⟩
  obtain ⟨s, hs, haverages, htimespan, hiff⟩ := foldlM_darkGravityStep hstart (by decide) (bs.take 23) (by omega)
  rw [darkGravityLoop_eq (n := 24) rfl (by rw [List.length_cons]; omega), List.take_succ_cons, List.foldlM_cons,
    Traced.clean_bind hresult, Traced.result_bind hresult, hclean, hfirst]
  rw [htake] at haverages
  refine ⟨s, hs, haverages, ?_, ?_⟩
  · rw [htimespan, timespan, timespanFrom]
    rfl
  · rw [hiff]
    exact and_iff_right (Traced.clean_pure _)

lemma clampTimespan_main (t : Int) : clampTimespan t 2880 = max 960 (min t 8640) := by
  have hthird : (2880 : Int).tdiv 3 = 960 := rfl
  rw [clampTimespan, hthird]
  split_ifs <;> omega

lemma darkGravityWave_spec (hlen : 24 ≤ bs.length) {m : Nat}
    (hm : max 960 (min (timespan (b :: bs.take 23)) 8640) = m)
    (hA : wrappedAverage 1 b.target.toNat ((bs.take 23).map (fun b => b.target.toNat)) = A) :
    (darkGravityWave (b :: bs) mainPowParams).result =
        .ok (compactForm (min mainPowParams.powLimit.toNat (A * m % 2 ^ 256 / 2880))) ∧
      (Clean ArithOp.NoWrap (darkGravityWave (b :: bs) mainPowParams) ↔
        SumsFit 1 b.target.toNat ((bs.take 23).map (fun b => b.target.toNat)) ∧ A * m < 2 ^ 256) := by
  have hlong : ¬ (b :: bs = [] ∨ PowIndex.nHeight (b :: bs) < PastBlocksMin) := by
    rw [not_or, PowIndex.nHeight, PastBlocksMin, List.length_cons]
    exact ⟨List.cons_ne_nil _ _, by omega⟩
  obtain ⟨s, hloop, hs, htimespan, hiff⟩ := darkGravityLoop_spec (b := b) hlen
  have htarget : s.CountBlocks * mainPowParams.nPowTargetSpacing = 2880 := by rw [hs.count]; rfl
  have hfactor : clampTimespan s.nActualTimespan 2880 = m := by rw [clampTimespan_main, htimespan, hm]
  have haverage : s.PastDifficultyAverage.toNat = A := hs.average.trans hA
  -- The factor is between 960 and 8640, so it is handed over as it is.
  have hm32 : (BitVec.ofInt 32 (m : Int)).toNat = m := Pow.toNat_ofInt rfl (by omega)
  obtain ⟨bnNew, hdiv, hvalue⟩ := Pow.div_eq (s.PastDifficultyAverage.mul (BitVec.ofInt 32 m))
    (b := 2880) (n := 2880) rfl (by decide) (by decide)
  rw [darkGravityWave, if_neg hlong]
  constructor
  · rw [Traced.result_bind hloop, Pow.int64, Traced.result_bind (Traced.result_record _ _), Pow.int64,
      Traced.result_bind (Traced.result_record _ _), htarget, hfactor, Traced.result_bind (Pow.result_mul _ _), hdiv,
      Traced.result_bind rfl, Pow.getCompact_eq, Traced.result_pure, toNat_capTarget, hvalue, BaseUint.toNat_mul, hm32,
      haverage]
  · rw [Traced.clean_bind hloop, Pow.int64, Traced.clean_bind (Traced.result_record _ _), Pow.int64,
      Traced.clean_bind (Traced.result_record _ _), Traced.clean_record, Traced.clean_record, htarget, hfactor,
      Traced.clean_bind (Pow.result_mul _ _), hdiv, Traced.clean_bind rfl, Pow.getCompact_eq, hiff]
    simp only [Clean, Pow.log_mul, hm32, haverage, List.mem_cons, List.not_mem_nil, or_false,
      forall_eq_or_imp, forall_eq, ArithOp.NoWrap, true_and, and_true, Traced.log_pure, false_imp_iff, implies_true]

/-- On the main network, a chain of at least 25 blocks gets the compact form of the exact new target, with no product or
sum wrapped around, exactly when the average target times the clamped timespan is below `2 ^ 256`. -/
theorem darkGravityWave_exact_iff {path : List PowIndex} (hlen : 25 ≤ path.length) :
    Clean ArithOp.NoWrap (darkGravityWave path mainPowParams) ∧
      (darkGravityWave path mainPowParams).result = .ok (compactForm (min mainPowParams.powLimit.toNat
        (averageTarget (path.take 24) * (max 960 (min (timespan (path.take 24)) 8640)).toNat / 2880))) ↔
      averageTarget (path.take 24) * (max 960 (min (timespan (path.take 24)) 8640)).toNat < 2 ^ 256 := by
  obtain _ | ⟨b, bs⟩ := path
  · exact absurd hlen (by decide)
  rw [List.length_cons] at hlen
  obtain ⟨m, hm⟩ : ∃ m : Nat, max 960 (min (timespan (b :: bs.take 23)) 8640) = m :=
    ⟨_, (Int.toNat_of_nonneg (by omega)).symm⟩
  obtain ⟨hresult, hclean⟩ := darkGravityWave_spec (b := b) (by omega) hm rfl
  rw [List.take_succ_cons, averageTarget, hm, Int.toNat_natCast, hresult, hclean]
  constructor
  · rintro ⟨⟨hsums, hproduct⟩, -⟩
    rwa [wrappedAverage_eq hsums] at hproduct
  · intro hproduct
    have hcount : 1 + ((bs.take 23).map (fun b => b.target.toNat)).length ≤ 24 := by
      rw [List.length_map, List.length_take]
      omega
    have hsums := sumsFit_of_average hcount (show 960 ≤ m by omega) hproduct
    rw [wrappedAverage_eq hsums, Nat.mod_eq_of_lt hproduct]
    exact ⟨⟨hsums, hproduct⟩, rfl⟩

theorem darkGravityWave_exact_genesisTarget :
    Clean ArithOp.NoWrap (darkGravityWave ((List.range 25).map (fun i => ⟨1579181820 - 120 * i, 0x1f00ffff⟩))
      mainPowParams) ∧
      (darkGravityWave ((List.range 25).map (fun i => ⟨1579181820 - 120 * i, 0x1f00ffff⟩)) mainPowParams).result =
        .ok (compactForm (min mainPowParams.powLimit.toNat
          (averageTarget (((List.range 25).map (fun i => ⟨1579181820 - 120 * i, 0x1f00ffff⟩)).take 24) *
            (max 960 (min (timespan (((List.range 25).map (fun i => ⟨1579181820 - 120 * i, 0x1f00ffff⟩)).take 24))
              8640)).toNat / 2880))) :=
  (darkGravityWave_exact_iff (by decide)).mpr (by decide +kernel)

/-- The first 25 blocks of a fresh chain have the limit as their target. With equal block times the timespan asks for a
third of it; the products wrap around and the code returns another target. -/
theorem darkGravityWave_wraps_at_limit :
    (∀ b ∈ List.replicate 25 (⟨1579181820, 0x200fffff⟩ : PowIndex),
      0 < b.target.toNat ∧ b.target.toNat ≤ mainPowParams.powLimit.toNat) ∧
    ¬ Clean ArithOp.NoWrap (darkGravityWave (List.replicate 25 ⟨1579181820, 0x200fffff⟩) mainPowParams) ∧
    (darkGravityWave (List.replicate 25 ⟨1579181820, 0x200fffff⟩) mainPowParams).result = .ok 0x1f0da6eb ∧
    compactForm (min mainPowParams.powLimit.toNat (averageTarget (List.replicate 24 ⟨1579181820, 0x200fffff⟩) *
      (max 960 (min (timespan (List.replicate 24 ⟨1579181820, 0x200fffff⟩)) 8640)).toNat / 2880)) = 0x20055555 := by
  have htarget : (⟨1579181820, 0x200fffff⟩ : PowIndex).target.toNat = 0x0fffff * 2 ^ 232 := by decide +kernel
  have hlimit : mainPowParams.powLimit.toNat = 0x0fffff * 2 ^ 232 := by decide +kernel
  have hspan : timespan (List.replicate 24 ⟨1579181820, 0x200fffff⟩) = 0 := by decide
  have hlong : 24 ≤ (List.replicate 24 (⟨1579181820, 0x200fffff⟩ : PowIndex)).length := by decide
  obtain ⟨hresult, hclean⟩ := darkGravityWave_spec (b := ⟨1579181820, 0x200fffff⟩) hlong (m := 960) (by decide) rfl
  rw [List.take_replicate, List.map_replicate, htarget, hlimit] at hresult
  rw [List.take_replicate, List.map_replicate, htarget] at hclean
  refine ⟨?_, ?_, ?_, ?_⟩
  · intro b hb
    rw [List.eq_of_mem_replicate hb, htarget, hlimit]
    decide
  · intro h
    exact absurd (hclean.mp h).1 (by decide +kernel)
  · refine hresult.trans (congrArg Except.ok ?_)
    rw [compactForm, BaseUint.size_eq (n := 243) (by decide +kernel) (by decide +kernel)]
    decide +kernel
  · rw [hspan, hlimit, List.replicate_succ, averageTarget, List.map_replicate, htarget, compactForm,
      BaseUint.size_eq (n := 250) (by decide +kernel) (by decide +kernel)]
    decide +kernel

end Qstees.Proofs
