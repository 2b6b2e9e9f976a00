import Qstees.Proofs.DepositRecognisers
import Qstees.Proofs.NextBlockFee

/-!
# Deposits that the wallet spends

`AvailableCoins` leaves out deposits before their release, and a signature is only produced if the script runs. Preset
inputs of an unsigned transaction pass neither check.
-/

namespace Qstees.Proofs

open CWallet List

lemma getint_le_of_nonneg {n : Int} (h : 0 ≤ n) : getint n ≤ n := by
  unfold getint
  split_ifs
  · omega
  · omega
  · exact le_rfl

/-- What a deposit with release block `r` asks of the transaction that spends it: `OP_CHECKLOCKTIMEVERIFY` refuses a
negative number and then asks `CheckLockTime`. -/
structure Unlocked (tx : CTransaction) (txin : CTxIn) (r nBlockHeight : Int) : Prop where
  nonneg : 0 ≤ r
  release : r ≤ tx.nLockTime
  sequence : txin.nSequence ≠ SEQUENCE_FINAL
  final : ∀ nBlockTime, isFinalTx tx nBlockHeight nBlockTime = true
  check : checkLockTime tx txin r = true

section Deposits

variable {E : WalletEnv} {ctx : WalletContext} {fees : FeeContext} {rand : Randomness} {wallet : CWallet}
    {args : CreateArgs}

lemma Verified.released {nLockTime : Nat} {txout : CTxOut} (h : Verified E nLockTime txout) {r : Int}
    (hdeposit : IsDeposit txout.scriptPubKey r) : 0 ≤ r ∧ r ≤ nLockTime := by
  obtain ⟨txNew, nIn, txin, scriptSig, scriptWitness, rfl, hverify⟩ := h
  obtain ⟨vch, rest, hshape, -, rfl⟩ := isDeposit_iff.mp hdeposit
  unfold verifyScript at hverify
  simp only [except_bind_eq_ok] at hverify
  obtain ⟨-, -, stack, -, stack', heval, -⟩ := hverify
  obtain ⟨hnonneg, hcheck⟩ := hshape.checks (by rfl) heval
  have hle : setVch vch ≤ txNew.nLockTime := by
    simp only [signatureContext, transactionSignatureChecker, checkLockTime] at hcheck
    split_ifs at hcheck
    omega
  exact ⟨getint_nonneg_iff.mpr hnonneg, (getint_le_of_nonneg hnonneg).trans hle⟩

lemma Spends.unlocked {r : Created} {coins : List CInputCoin} {nValueIn : Int}
    (h : Spends E ctx wallet args r coins nValueIn)
    {txin : CTxIn} (htxin : txin ∈ r.tx.vin) {release : Int} (hnonneg : 0 ≤ release) (hle : release ≤ r.tx.nLockTime) :
    Unlocked r.tx txin release (ctx.height + 1) where
  nonneg := hnonneg
  release := hle
  sequence := h.sequences txin htxin
  final := h.final
  check := by
    have hbelow : (r.tx.nLockTime : Int) < LOCKTIME_THRESHOLD := h.lockTime ▸ h.height.2
    unfold checkLockTime
    dsimp only
    rw [if_neg (not_not.mpr (.inl ⟨hbelow, by omega⟩)), if_neg (by omega), if_neg (h.sequences txin htxin).symm]

end Deposits

end Qstees.Proofs
