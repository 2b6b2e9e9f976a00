import Qstees.Model.InstantSend
import Qstees.Proofs.Amounts

/-!
# Valid lock requests

`CTxLockRequest::IsValid` as a condition on the outputs, the coins and the fee.
-/

namespace Qstees.Proofs

open List CTxLockRequest

/-- The unspent coin of an input with the confirmations that a lock request needs. -/
def Lockable (ctx : LockRequestContext) (txin : CTxIn) (coin : Coin) : Prop :=
  ctx.getUTXOCoin txin.prevout = some coin ∧ INSTANTSEND_CONFIRMATIONS_REQUIRED - 1 ≤ ctx.height - coin.nHeight + 1

variable {ctx : LockRequestContext}

lemma valueIn_lockable {nValueIn total : Int} {vin : List CTxIn}
    (h : valueIn ctx nValueIn vin = some total) :
    ∀ txin ∈ vin, ∃ coin, Lockable ctx txin coin := by
  induction vin generalizing nValueIn with
  | nil => simp
  | cons first vin ih =>
    unfold valueIn at h
    cases hcoin : ctx.getUTXOCoin first.prevout with
    | none => simp [hcoin] at h
    | some coin =>
      simp only [hcoin] at h
      split_ifs at h with hage
      intro txin htxin
      rcases mem_cons.mp htxin with rfl | htxin
      · exact ⟨coin, hcoin, by omega⟩
      · exact ih h txin htxin

lemma isValid_eq_true_iff {tx : CTransaction} :
    isValid ctx ⟨tx⟩ = .ok true ↔
      tx.vout ≠ [] ∧ checkFinalTx ctx tx = true ∧
        ∃ nValueIn, valueIn ctx 0 tx.vin = some nValueIn ∧ nValueIn ≤ ctx.sporkMaxValue * COIN ∧
          (∀ txout ∈ tx.vout, 0 ≤ txout.nValue) ∧ outputSum tx.vout ≤ MAX_MONEY ∧
            getMinFee ⟨tx⟩ ≤ nValueIn - outputSum tx.vout := by
  have hlength : tx.vout.length < 1 ↔ tx.vout = [] := by simp
  unfold isValid
  dsimp only
  simp only [hlength]
  by_cases hvout : tx.vout = []
  · simp [hvout]
  by_cases hfinal : checkFinalTx ctx tx = true
  · cases hvalue : valueIn ctx 0 tx.vin with
    | none => simp [hvout, hfinal]
    | some nValueIn =>
      by_cases hlimit : nValueIn > ctx.sporkMaxValue * COIN
      · simp [hvout, hfinal, hlimit]
      simp only [hvout, hfinal, hlimit, if_false, Bool.not_true, Bool.false_eq_true]
      simp only [except_bind_eq_ok, Tally.result_eq_iff, getValueOut_iff]
      constructor
      · rintro ⟨nValueOut, ⟨hnonneg, hle, rfl⟩, hfee⟩
        have hfee' := Except.ok.inj hfee
        exact ⟨hvout, trivial, nValueIn, rfl, by omega, hnonneg, hle, by simpa using hfee'⟩
      · rintro ⟨-, -, _, ⟨rfl⟩, -, hnonneg, hle, hfee⟩
        refine ⟨outputSum tx.vout, ⟨hnonneg, hle, rfl⟩, ?_⟩
        rw [decide_eq_false (not_lt.mpr hfee)]
        rfl
  · simp [hvout, hfinal]

lemma vin_ne_nil_of_isValid {request : CTxLockRequest} (h : request.isValid ctx = .ok true) :
    request.tx.vin ≠ [] := by
  obtain ⟨-, -, nValueIn, hvalue, -, hnonneg, -, hfee⟩ := isValid_eq_true_iff.mp h
  intro hnil
  rw [hnil] at hvalue
  obtain rfl : 0 = nValueIn := Option.some.inj hvalue
  have hsum := outputSum_nonneg hnonneg
  have hmin : CTxLockRequest.MIN_FEE ≤ getMinFee ⟨request.tx⟩ := le_max_left _ _
  have hpos : 0 < CTxLockRequest.MIN_FEE := by decide
  omega

lemma unspent_of_isValid {request : CTxLockRequest} (h : request.isValid ctx = .ok true) :
    ∀ txin ∈ request.tx.vin, (ctx.getUTXOCoin txin.prevout).isSome := by
  obtain ⟨-, -, nValueIn, hvalue, -⟩ := isValid_eq_true_iff.mp h
  intro txin htxin
  obtain ⟨coin, hcoin, -⟩ := valueIn_lockable hvalue txin htxin
  rw [hcoin]
  rfl

end Qstees.Proofs
