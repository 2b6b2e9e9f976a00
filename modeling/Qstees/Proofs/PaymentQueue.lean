import Qstees.Model.PaymentQueue
import Qstees.Proofs.CoinbaseChecks
import Qstees.Proofs.RemovedNodes

/-!
# Elections from the payment queue

The queue is cut to a fifth of the network before the tier is looked at, so a tier may have eligible nodes and none of
them among these.
-/

namespace Qstees.Proofs

open CMasternodeMan List

variable {E : MnEnv} {P : PaymentEnv} {ctx : QueueContext} {payments : CMasternodePayments} {man : CMasternodeMan}
  {nBlockHeight vSinType : Int} {blockHash : UInt256}

/-- The round of the loop that looks at one node. -/
def electStep (E : MnEnv) (ctx : QueueContext) (blockHash : UInt256) (vSinType : Int) (best : Nat × Option CMasternode)
    (s : Int × CMasternode) : Nat × Option CMasternode :=
  if s.2.calculateScore ctx blockHash > best.1 ∧ s.2.getSinType E = vSinType then
    (s.2.calculateScore ctx blockHash, some s.2)
  else best

lemma findBest_eq (N n : Nat) (best : Nat × Option CMasternode) (v : List (Int × CMasternode)) :
    findBest E ctx blockHash vSinType N n best v =
      ((v.take (max 1 (N - n))).foldl (electStep E ctx blockHash vSinType) best).2 := by
  induction v generalizing n best with
  | nil => simp [findBest]
  | cons s v ih =>
    rw [findBest, ← electStep]
    split_ifs with hlast
    · rw [show max 1 (N - n) = 1 by omega]
      rfl
    · rw [ih, show max 1 (N - n) = max 1 (N - (n + 1)) + 1 by omega]
      rfl

variable (E ctx vSinType blockHash) in
lemma elect_spec (v : List (Int × CMasternode)) :
    let best := v.foldl (electStep E ctx blockHash vSinType) (0, none)
    (∀ s ∈ v, s.2.getSinType E = vSinType → s.2.calculateScore ctx blockHash ≤ best.1) ∧ (best.2 = none → best.1 = 0) ∧
      ∀ mn ∈ best.2, mn ∈ v.map Prod.snd ∧ mn.getSinType E = vSinType ∧
        mn.calculateScore ctx blockHash = best.1 ∧ 0 < best.1 := by
  induction v using List.reverseRecOn with
  | nil => simp
  | append_singleton v s ih =>
    rw [foldl_append, foldl_cons, foldl_nil, electStep]
    obtain ⟨hmax, hzero, hbest⟩ := ih
    split_ifs with hmore
    · refine ⟨fun x hx ht => ?_, by simp, fun mn hmn => ?_⟩
      · rcases mem_append.mp hx with hx | hx
        · exact (hmax x hx ht).trans hmore.1.le
        · rw [mem_singleton.mp hx]
      · cases hmn
        exact ⟨by simp, hmore.2, rfl, Nat.zero_lt_of_lt hmore.1⟩
    · refine ⟨fun x hx ht => ?_, hzero, fun mn hmn => ?_⟩
      · rcases mem_append.mp hx with hx | hx
        · exact hmax x hx ht
        · rw [mem_singleton.mp hx] at ht ⊢
          exact not_lt.mp fun hlt => hmore ⟨hlt, ht⟩
      · obtain ⟨hmem, hrest⟩ := hbest mn hmn
        exact ⟨by simp [mem_append, hmem], hrest⟩

instance : Std.TransCmp comparePair :=
  inferInstanceAs (Std.TransCmp (compareLex (compareOn Prod.fst)
    (compareOn fun t : Int × CMasternode => t.2.vin.prevout)))

lemma sortPairs_sorted (v : List (Int × CMasternode)) :
    (sortPairs v).Pairwise (fun s t => (comparePair s t).isLE = true) := by
  have : Std.Total (fun s t : Int × CMasternode => (comparePair s t).isLE = true) :=
    ⟨fun s t => by
      have hswap : comparePair t s = (comparePair s t).swap := Std.OrientedCmp.eq_swap
      rw [hswap]
      cases comparePair s t <;> decide⟩
  have : IsTrans _ (fun s t : Int × CMasternode => (comparePair s t).isLE = true) :=
    ⟨fun _ _ _ => Std.TransCmp.isLE_trans⟩
  exact pairwise_insertionSort _ v

/-- The age filter stays on: a third of the nodes passes it. -/
def FilterKept (E : MnEnv) (P : PaymentEnv) (ctx : QueueContext) (payments : CMasternodePayments) (nBlockHeight : Int)
    (fFilterSigTime : Bool) (man : CMasternodeMan) : Bool :=
  fFilterSigTime && man.countMasternodes ctx / 3 ≤
    (man.vecMasternodeLastPaid E P ctx payments nBlockHeight fFilterSigTime).length

lemma queue_eq (f : Bool) : man.queue E P ctx payments nBlockHeight f =
    man.vecMasternodeLastPaid E P ctx payments nBlockHeight (FilterKept E P ctx payments nBlockHeight f man) := by
  rw [queue, FilterKept]
  cases f with
  | false => rfl
  | true =>
    by_cases h : man.countMasternodes ctx / 3 ≤ (man.vecMasternodeLastPaid E P ctx payments nBlockHeight true).length
    · simp [h, not_lt.mpr h]
    · simp [h, not_le.mp h]

/-- Among the nodes `first`, the one of the tier with the best score is elected. -/
structure Elects (E : MnEnv) (ctx : QueueContext) (blockHash : UInt256) (vSinType : Int)
    (first : List (Int × CMasternode)) (elected : Option CMasternode) : Prop where
  found : elected.isSome ↔ ∃ s ∈ first, s.2.getSinType E = vSinType ∧ 0 < s.2.calculateScore ctx blockHash
  best : ∀ mn ∈ elected, mn ∈ first.map Prod.snd ∧ mn.getSinType E = vSinType ∧
    ∀ s ∈ first, s.2.getSinType E = vSinType → s.2.calculateScore ctx blockHash ≤ mn.calculateScore ctx blockHash

lemma elects_elect (v : List (Int × CMasternode)) :
    Elects E ctx blockHash vSinType v (v.foldl (electStep E ctx blockHash vSinType) (0, none)).2 := by
  obtain ⟨hmax, hzero, hbest⟩ := elect_spec E ctx vSinType blockHash v
  refine ⟨⟨fun h => ?_, fun ⟨s, hs, ht, hpos⟩ => ?_⟩, fun mn hmn => ?_⟩
  · obtain ⟨mn, hmn⟩ := Option.isSome_iff_exists.mp h
    obtain ⟨hmem, ht, hscore, hpos⟩ := hbest mn hmn
    obtain ⟨s, hs, rfl⟩ := mem_map.mp hmem
    exact ⟨s, hs, ht, hscore ▸ hpos⟩
  · by_contra hnone
    have := hmax s hs ht
    rw [hzero (by simpa using hnone)] at this
    omega
  · obtain ⟨hmem, ht, hscore, -⟩ := hbest mn hmn
    exact ⟨hmem, ht, fun s hs hst => hscore ▸ hmax s hs hst⟩

variable (E P ctx payments man nBlockHeight vSinType) in
/-- The node elected is the best of its tier among the nodes that waited longest. -/
theorem election_among_first (fFilterSigTime : Bool) (hsync : ctx.isWinnersListSynced = true)
    (hblock : blockHashAt ctx (nBlockHeight - 101) = some blockHash) (htype : vSinType ≠ 0) :
    ∃ first rest, (first ++ rest).Perm (man.vecMasternodeLastPaid E P ctx payments nBlockHeight
        (FilterKept E P ctx payments nBlockHeight fFilterSigTime man)) ∧
      (rest ≠ [] → first.length = max 1 (man.countMasternodes ctx / 5)) ∧
        first.length ≤ max 1 (man.countMasternodes ctx / 5) ∧
      (∀ s ∈ first, ∀ t ∈ rest, (comparePair s t).isLE = true) ∧
      Elects E ctx blockHash vSinType first
        (man.getNextMasternodeInQueueForPayment E P ctx payments nBlockHeight fFilterSigTime vSinType).2 := by
  generalize hk : max 1 (man.countMasternodes ctx / 5) = k
  generalize hv : sortPairs (man.queue E P ctx payments nBlockHeight fFilterSigTime) = v
  refine ⟨v.take k, v.drop k, ?_, fun hrest => ?_, length_take_le k v, ?_, ?_⟩
  · rw [take_append_drop, ← hv, ← queue_eq]
    exact perm_insertionSort _ _
  · exact length_take_of_le (not_lt.mp fun hlt => hrest (drop_eq_nil_of_le hlt.le))
  · have hsorted := hv ▸ sortPairs_sorted (man.queue E P ctx payments nBlockHeight fFilterSigTime)
    rw [← take_append_drop k v] at hsorted
    exact (pairwise_append.mp hsorted).2.2
  · have hgate : ¬(!ctx.isWinnersListSynced || vSinType == 0) = true := by simp [hsync, htype]
    simp only [getNextMasternodeInQueueForPayment, if_neg hgate, hblock, hv, Option.bind_some,
      findBest_eq, Nat.sub_zero, hk]
    exact elects_elect _

def queueContext : QueueContext where
  toMnContext := { collateralContext with
    getUTXOCoin := fun _ => some ⟨⟨10000 * COIN, [], -10⟩, false, 1⟩
    getTransaction := fun _ _ => none
    hash_getTransaction := fun _ _ _ _ h => nomatch h
    coin_getTransaction := fun _ _ _ _ _ h => nomatch h }
  tooNew := fun _ _ => false
  getLastPaidBlock := fun outpoint => outpoint.hash
  scoreHash := fun outpoint _ _ => outpoint.hash

/-- A node of the largest tier, and one of the smallest that was paid later. -/
def tieredNodes : CMasternodeMan :=
  listedNodes [{ nodeAt 7 1 50 with nBurnAmount := 1000000 }, { nodeAt 8 2 50 with nBurnAmount := 100000 }]

theorem election_among_first_two : ∃ first, Elects smallMnEnv queueContext 0 10 first
    (tieredNodes.getNextMasternodeInQueueForPayment smallMnEnv shippedEnv queueContext ⟨0, ∅, ∅⟩ 150 true 10).2 := by
  obtain ⟨first, -, -, -, -, -, h⟩ := election_among_first smallMnEnv shippedEnv queueContext ⟨0, ∅, ∅⟩ tieredNodes 150
    10 true rfl rfl (by decide)
  exact ⟨first, h⟩

/-- The smallest tier has an eligible node, which is not among the first. -/
theorem smallTier_not_elected : (blockHashAt queueContext (150 - 101)).isSome ∧
    (∃ s ∈ tieredNodes.vecMasternodeLastPaid smallMnEnv shippedEnv queueContext ⟨0, ∅, ∅⟩ 150 true,
      s.2.getSinType smallMnEnv = 1) ∧
    (tieredNodes.getNextMasternodeInQueueForPayment smallMnEnv shippedEnv queueContext ⟨0, ∅, ∅⟩ 150 true 1).2 =
      none := by
  decide +kernel

end Qstees.Proofs
