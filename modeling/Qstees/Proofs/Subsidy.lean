import Qstees.Model.Rewards

/-!
# The range of the block subsidy
-/

namespace Qstees.Proofs

lemma tierPayment_range (P : Params) (nHeight : Int) {early late : Int} (he : 0 ≤ early ∧ early ≤ 10000)
    (hl : 0 ≤ late ∧ late ≤ 10000) :
    0 ≤ tierPayment P nHeight early late ∧ tierPayment P nHeight early late ≤ 10000 * COIN := by
  unfold tierPayment COIN
  split_ifs <;> omega

lemma getMasternodePayment_range (P : Params) (nHeight qsteestype : Int) :
    0 ≤ getMasternodePayment P nHeight qsteestype ∧ getMasternodePayment P nHeight qsteestype ≤ 10000 * COIN := by
  unfold getMasternodePayment
  split_ifs
  · decide
  · exact tierPayment_range P nHeight ⟨by decide, by decide⟩ ⟨by decide, by decide⟩
  · exact tierPayment_range P nHeight ⟨by decide, by decide⟩ ⟨by decide, by decide⟩
  · exact tierPayment_range P nHeight ⟨by decide, by decide⟩ ⟨by decide, by decide⟩
  · decide

lemma baseReward_range (nHeight : Int) : 0 ≤ baseReward nHeight ∧ baseReward nHeight ≤ 10000 * COIN := by
  unfold baseReward COIN
  split_ifs <;> omega

def subsidySums (P : Params) (nHeight : Int) : List Int :=
  [getMasternodePayment P nHeight 1 + getMasternodePayment P nHeight 5,
    getMasternodePayment P nHeight 1 + getMasternodePayment P nHeight 5 + getMasternodePayment P nHeight 10,
    getBlockSubsidy P nHeight]

lemma subsidySums_range (P : Params) (nHeight : Int) : ∀ x ∈ subsidySums P nHeight, 0 ≤ x ∧ x ≤ 40000 * COIN := by
  have h1 := getMasternodePayment_range P nHeight 1
  have h5 := getMasternodePayment_range P nHeight 5
  have h10 := getMasternodePayment_range P nHeight 10
  have hb := baseReward_range nHeight
  unfold subsidySums getBlockSubsidy
  simp only [List.mem_cons, List.not_mem_nil, or_false]
  rintro x (rfl | rfl | rfl) <;> omega

lemma getBlockSubsidy_range (P : Params) (nHeight : Int) :
    0 ≤ getBlockSubsidy P nHeight ∧ getBlockSubsidy P nHeight ≤ 40000 * COIN :=
  subsidySums_range P nHeight _ (by simp [subsidySums])

end Qstees.Proofs
