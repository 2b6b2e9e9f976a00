import Qstees.Proofs.Payees

/-!
# What an accepted coinbase pays

Once a payee has enough votes, `IsTransactionValid` counts the third to fifth output.
-/

namespace Qstees.Proofs

open List

variable (E : PaymentEnv)

variable {E}

lemma le_maxVotes_iff (m : Nat) (ps : List CMasternodePayee) (n : Nat) :
    m ≤ ps.foldl (fun n payee => if payee.getVoteCount ≥ n then payee.getVoteCount else n) n ↔
      m ≤ n ∨ ∃ p ∈ ps, m ≤ p.getVoteCount := by
  induction ps generalizing n with
  | nil => simp
  | cons q ps ih =>
    rw [foldl_cons, ih]
    simp only [mem_cons, exists_eq_or_imp]
    rw [← or_assoc]
    refine or_congr_left ?_
    split_ifs <;> omega

/-- Some payee has as many votes as the check asks for. -/
lemma enoughVotes_iff (bp : CMasternodeBlockPayees) : MNPAYMENTS_SIGNATURES_REQUIRED ≤ bp.nMaxSignatures ↔
    ∃ p ∈ bp.vecPayees, MNPAYMENTS_SIGNATURES_REQUIRED ≤ p.getVoteCount := by
  rw [CMasternodeBlockPayees.nMaxSignatures, le_maxVotes_iff]
  simp [MNPAYMENTS_SIGNATURES_REQUIRED]

lemma sixVotes_payees :
    sixVotes.mapMasternodeBlocks[(170200 : Int)]? = some ⟨170200, [⟨[0x51], 1, List.range 6⟩]⟩ := by
  decide +kernel

end Qstees.Proofs
