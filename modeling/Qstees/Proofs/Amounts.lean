import Qstees.Model.TxVerify

/-!
# Sums of amounts

What a successful amount loop says about its inputs: the outputs are in range, the result is
their exact sum, and no 64-bit sum on the way overflowed.
-/

namespace Qstees.Proofs

open List

lemma inRange64_of_abs_le {x : Int} (hlo : -(4 * MAX_MONEY) ≤ x) (hhi : x ≤ 4 * MAX_MONEY) : InRange64 x := by
  rw [MAX_MONEY_eq] at hlo hhi
  exact ⟨by omega, by omega⟩

lemma sum64_eq_ok {a b n : Int} {ss : List Int} :
    sum64 a b = ⟨.ok n, ss⟩ ↔ n = wrap64 (a + b) ∧ ss = [a + b] :=
  Tally.record_eq_ok

lemma liftException_eq_ok {α : Type} {x : Except String α} {a : α} {ss : List Int} :
    liftException x = ⟨.ok a, ss⟩ ↔ x = .ok a ∧ ss = [] := by
  unfold liftException
  rw [Tally.lift_eq_ok, mapError_eq_ok]

lemma wrap64_add_of_range {a b : Int} (ha : 0 ≤ a ∧ a ≤ MAX_MONEY) (hb : 0 ≤ b ∧ b ≤ MAX_MONEY) :
    InRange64 (a + b) ∧ wrap64 (a + b) = a + b := by
  have h : InRange64 (a + b) := inRange64_of_abs_le (by omega) (by omega)
  exact ⟨h, wrap64_eq_self h⟩

def outputSum (vout : List CTxOut) : Int := (vout.map CTxOut.nValue).sum

@[simp] lemma outputSum_nil : outputSum [] = 0 := rfl

@[simp] lemma outputSum_cons (out : CTxOut) (vout : List CTxOut) :
    outputSum (out :: vout) = out.nValue + outputSum vout := rfl

lemma outputSum_nonneg {vout : List CTxOut} (h : ∀ out ∈ vout, 0 ≤ out.nValue) : 0 ≤ outputSum vout := by
  apply sum_nonneg
  intro x hx
  obtain ⟨out, hout, rfl⟩ := mem_map.mp hx
  exact h out hout

/-- A loop round that adds one output to a total in money range and rejects everything else. -/
def AddsOutput (f : Int → CTxOut → Validation Int) : Prop :=
  ∀ acc out n ss, 0 ≤ acc → acc ≤ MAX_MONEY →
    (f acc out = ⟨.ok n, ss⟩ ↔
      (0 ≤ out.nValue ∧ acc + out.nValue ≤ MAX_MONEY) ∧ n = acc + out.nValue ∧ ss = [acc + out.nValue])

lemma addOutput_addsOutput : AddsOutput addOutput := by
  intro acc out n ss h0 h1
  unfold addOutput
  simp only [Tally.bind_eq_ok, sum64_eq_ok, Tally.check_eq_ok, Tally.pure_eq_ok, Bool.and_eq_true, moneyRange_iff]
  constructor
  · rintro ⟨m, s₁, s₂, ⟨rfl, rfl⟩, ⟨-, s₃, s₄, ⟨⟨hv, hr⟩, rfl⟩, ⟨rfl, rfl⟩, rfl⟩, rfl⟩
    rw [(wrap64_add_of_range ⟨h0, h1⟩ hv).2] at hr ⊢
    exact ⟨⟨hv.1, hr.2⟩, rfl, rfl⟩
  · rintro ⟨⟨hv, hr⟩, rfl, rfl⟩
    have hw := (wrap64_add_of_range ⟨h0, h1⟩ ⟨hv, by omega⟩).2
    refine ⟨acc + out.nValue, [acc + out.nValue], [], ⟨hw.symm, rfl⟩, ⟨(), [], [], ?_, ⟨rfl, rfl⟩, rfl⟩, rfl⟩
    exact ⟨⟨⟨hv, by omega⟩, by omega, hr⟩, rfl⟩

lemma checkOutput_addsOutput : AddsOutput checkOutput := by
  intro acc out n ss h0 h1
  unfold checkOutput
  simp only [Tally.bind_eq_ok, sum64_eq_ok, Tally.check_eq_ok, Tally.pure_eq_ok, moneyRange_iff, decide_eq_true_eq]
  constructor
  · rintro ⟨-, -, s, ⟨hneg, rfl⟩, ⟨-, -, s', ⟨hbig, rfl⟩, ⟨m, s₁, s₂, ⟨rfl, rfl⟩,
      ⟨-, s₃, s₄, ⟨hr, rfl⟩, ⟨rfl, rfl⟩, rfl⟩, rfl⟩, rfl⟩, rfl⟩
    rw [(wrap64_add_of_range ⟨h0, h1⟩ ⟨hneg, hbig⟩).2] at hr ⊢
    exact ⟨⟨hneg, hr.2⟩, rfl, rfl⟩
  · rintro ⟨⟨hv, hr⟩, rfl, rfl⟩
    have hw := (wrap64_add_of_range ⟨h0, h1⟩ ⟨hv, by omega⟩).2
    refine ⟨(), [], [acc + out.nValue], ⟨hv, rfl⟩, ⟨(), [], [acc + out.nValue], ⟨by omega, rfl⟩, ?_, rfl⟩, rfl⟩
    exact ⟨acc + out.nValue, [acc + out.nValue], [], ⟨hw.symm, rfl⟩,
      ⟨(), [], [], ⟨⟨by omega, hr⟩, rfl⟩, ⟨rfl, rfl⟩, rfl⟩, rfl⟩

lemma fold_addsOutput {f : Int → CTxOut → Validation Int} (hf : AddsOutput f) (vout : List CTxOut)
    (acc : Int) (h0 : 0 ≤ acc) (h1 : acc ≤ MAX_MONEY) (n : Int) :
    (∃ ss, Tally.fold f acc vout = ⟨.ok n, ss⟩) ↔
      (∀ out ∈ vout, 0 ≤ out.nValue) ∧ acc + outputSum vout ≤ MAX_MONEY ∧ n = acc + outputSum vout := by
  induction vout generalizing acc with
  | nil =>
    simp only [Tally.fold, Tally.pure_eq_ok, outputSum_nil]
    constructor
    · rintro ⟨ss, rfl, rfl⟩
      exact ⟨by simp, by omega, by omega⟩
    · rintro ⟨-, -, rfl⟩
      exact ⟨[], by omega, rfl⟩
  | cons out vout ih =>
    simp only [Tally.fold, Tally.bind_eq_ok, outputSum_cons]
    constructor
    · rintro ⟨ss, m, s₁, s₂, hstep, hrest, rfl⟩
      obtain ⟨⟨hv, hr⟩, rfl, rfl⟩ := (hf acc out m s₁ h0 h1).mp hstep
      obtain ⟨hall, htot, rfl⟩ := (ih (acc + out.nValue) (by omega) hr).mp ⟨s₂, hrest⟩
      refine ⟨?_, by omega, by omega⟩
      intro o ho
      rcases mem_cons.mp ho with rfl | ho
      · exact hv
      · exact hall o ho
    · rintro ⟨hall, htot, rfl⟩
      have hv : 0 ≤ out.nValue := hall out mem_cons_self
      have hrest : ∀ o ∈ vout, 0 ≤ o.nValue := fun o ho => hall o (mem_cons_of_mem _ ho)
      have hsum := outputSum_nonneg hrest
      obtain ⟨s₂, h₂⟩ := (ih (acc + out.nValue) (by omega) (by omega)).mpr ⟨hrest, by omega, by omega⟩
      exact ⟨_, acc + out.nValue, [acc + out.nValue], s₂,
        (hf acc out _ _ h0 h1).mpr ⟨⟨hv, by omega⟩, rfl, rfl⟩, h₂, rfl⟩

lemma fold_addsOutput_sums {f : Int → CTxOut → Validation Int} (hf : AddsOutput f) {vout : List CTxOut}
    {acc n : Int} {ss : List Int} (h0 : 0 ≤ acc) (h1 : acc ≤ MAX_MONEY)
    (h : Tally.fold f acc vout = ⟨.ok n, ss⟩) : ∀ x ∈ ss, InRange64 x := by
  refine (Tally.fold_invariant (I := fun _ a => 0 ≤ a ∧ a ≤ MAX_MONEY) ?_ ⟨h0, h1⟩ h).2
  rintro out vout a b s ⟨ha0, ha1⟩ hstep
  obtain ⟨⟨hv, hr⟩, rfl, rfl⟩ := (hf a out b s ha0 ha1).mp hstep
  refine ⟨⟨by omega, hr⟩, ?_⟩
  intro x hx
  obtain rfl := mem_singleton.mp hx
  exact (wrap64_add_of_range ⟨ha0, ha1⟩ ⟨hv, by omega⟩).1

lemma MAX_MONEY_nonneg : (0 : Int) ≤ MAX_MONEY := by decide

lemma checkOutputs_iff (vout : List CTxOut) (n : Int) :
    (∃ ss, checkOutputs vout = ⟨.ok n, ss⟩) ↔
      (∀ out ∈ vout, 0 ≤ out.nValue) ∧ outputSum vout ≤ MAX_MONEY ∧ n = outputSum vout := by
  simpa only [checkOutputs, zero_add] using
    fold_addsOutput checkOutput_addsOutput vout 0 le_rfl MAX_MONEY_nonneg n

lemma getValueOut_iff (tx : CTransaction) (n : Int) :
    (∃ ss, tx.getValueOut = ⟨.ok n, ss⟩) ↔
      (∀ out ∈ tx.vout, 0 ≤ out.nValue) ∧ outputSum tx.vout ≤ MAX_MONEY ∧ n = outputSum tx.vout := by
  simpa only [CTransaction.getValueOut, zero_add] using
    fold_addsOutput addOutput_addsOutput tx.vout 0 le_rfl MAX_MONEY_nonneg n

end Qstees.Proofs
