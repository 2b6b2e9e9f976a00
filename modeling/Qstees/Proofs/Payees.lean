import Qstees.Proofs.Coinbase

/-!
# Miner and validator agree on the payees

In every reachable vote store the payees of a height have distinct scripts, and a height's record carries that height.
-/

namespace Qstees.Proofs

open List CMasternodeBlockPayees

variable (E : PaymentEnv)

/-- The states of `CMasternodePayments` reached from an empty store by votes and clean-ups,
with the block tip moving in between. -/
inductive PaymentsReachable : CMasternodePayments → Prop
  | init (nCachedBlockHeight : Int) : PaymentsReachable ⟨nCachedBlockHeight, ∅, ∅⟩
  | addPaymentVote {s : CMasternodePayments} (vote : CMasternodePaymentVote) (known : Bool)
      (find : COutPoint → Option Int) (h : PaymentsReachable s) :
      PaymentsReachable (s.addPaymentVote E vote known find).2
  | checkAndRemove {s : CMasternodePayments} (isBlockchainSynced : Bool) (size : Nat)
      (h : PaymentsReachable s) : PaymentsReachable (s.checkAndRemove isBlockchainSynced size)
  | updatedBlockTip {s : CMasternodePayments} (nCachedBlockHeight : Int) (h : PaymentsReachable s) :
      PaymentsReachable { s with nCachedBlockHeight := nCachedBlockHeight }

structure BlockPayeesInv (nBlockHeight : Int) (bp : CMasternodeBlockPayees) : Prop where
  height : bp.nBlockHeight = nBlockHeight
  nodup : (bp.vecPayees.map CMasternodePayee.scriptPubKey).Nodup

def PaymentsInv (s : CMasternodePayments) : Prop :=
  ∀ h bp, s.mapMasternodeBlocks[h]? = some bp → BlockPayeesInv h bp

variable {payee : CScript} {hashIn : UInt256} {ps : List CMasternodePayee}
  {bp : CMasternodeBlockPayees} {s : CMasternodePayments}

lemma addVoteHash_split {ps' : List CMasternodePayee} (h : addVoteHash payee hashIn ps = some ps') :
    ∃ pre p post, ps = pre ++ p :: post ∧ p.scriptPubKey = payee ∧
      ps' = pre ++ { p with vecVoteHashes := p.vecVoteHashes ++ [hashIn] } :: post := by
  induction ps generalizing ps' with
  | nil => cases h
  | cons p ps ih =>
    unfold addVoteHash at h
    split_ifs at h with hp
    · exact ⟨[], p, ps, rfl, hp, (Option.some.inj h).symm⟩
    · obtain ⟨qs, hqs, rfl⟩ := Option.map_eq_some_iff.mp h
      obtain ⟨pre, q, post, rfl, hq, rfl⟩ := ih hqs
      exact ⟨p :: pre, q, post, rfl, hq, rfl⟩

lemma addVoteHash_some {ps' : List CMasternodePayee} (h : addVoteHash payee hashIn ps = some ps') :
    ps'.map CMasternodePayee.scriptPubKey = ps.map CMasternodePayee.scriptPubKey := by
  obtain ⟨pre, p, post, rfl, -, rfl⟩ := addVoteHash_split h
  simp

lemma addVoteHash_eq_none :
    addVoteHash payee hashIn ps = none ↔ payee ∉ ps.map CMasternodePayee.scriptPubKey := by
  induction ps with
  | nil => simp [addVoteHash]
  | cons p ps ih =>
    unfold addVoteHash
    by_cases hp : p.scriptPubKey = payee
    · simp [hp]
    · simp [hp, ih, Ne.symm hp]

lemma addPayee_inv {h : Int} (hbp : BlockPayeesInv h bp) (vote : CMasternodePaymentVote)
    (find : COutPoint → Option Int) : BlockPayeesInv h (bp.addPayee E vote find) := by
  unfold addPayee
  cases hadd : addVoteHash vote.payee (E.getHash vote) bp.vecPayees with
  | some ps =>
    refine ⟨hbp.height, ?_⟩
    rw [addVoteHash_some hadd]
    exact hbp.nodup
  | none =>
    cases find vote.vinMasternode.prevout with
    | none => exact hbp
    | some qsteestype =>
      refine ⟨hbp.height, ?_⟩
      simp only [map_append, map_cons, map_nil]
      have hnew := addVoteHash_eq_none.mp hadd
      exact nodup_append.mpr ⟨hbp.nodup, nodup_singleton _, fun a ha b hb hab =>
        hnew (by rw [← mem_singleton.mp hb, ← hab]; exact ha)⟩

lemma addPaymentVote_inv (hs : PaymentsInv s) (vote : CMasternodePaymentVote) (known : Bool)
    (find : COutPoint → Option Int) : PaymentsInv (s.addPaymentVote E vote known find).2 := by
  unfold CMasternodePayments.addPaymentVote
  split_ifs
  · exact hs
  · exact hs
  intro h bp hbp
  simp only [Std.ExtTreeMap.getElem?_insert] at hbp
  split_ifs at hbp with heq
  · cases hbp
    obtain rfl : vote.nBlockHeight = h := Std.LawfulEqCmp.eq_of_compare heq
    apply addPayee_inv
    cases hold : s.mapMasternodeBlocks[vote.nBlockHeight]? with
    | none => exact ⟨rfl, nodup_nil⟩
    | some bp => exact hs _ bp hold
  · exact hs h bp hbp

lemma removeOld_inv (hs : PaymentsInv s) (nLimit : Int) (entry : UInt256 × CMasternodePaymentVote) :
    PaymentsInv (s.removeOld nLimit entry) := by
  unfold CMasternodePayments.removeOld
  split_ifs
  · intro h bp hbp
    simp only [Std.ExtTreeMap.getElem?_erase] at hbp
    split_ifs at hbp
    exact hs h bp hbp
  · exact hs

lemma checkAndRemove_inv (hs : PaymentsInv s) (isBlockchainSynced : Bool) (size : Nat) :
    PaymentsInv (s.checkAndRemove isBlockchainSynced size) := by
  unfold CMasternodePayments.checkAndRemove
  split_ifs
  · exact hs
  · exact List.foldlRecOn _ _ hs (fun t ht entry _ => removeOld_inv ht _ entry)

lemma PaymentsReachable.inv (h : PaymentsReachable E s) : PaymentsInv s := by
  induction h with
  | init n => intro h bp hbp; simp at hbp
  | addPaymentVote vote known find _ ih => exact addPaymentVote_inv E ih vote known find
  | checkAndRemove synced size _ ih => exact checkAndRemove_inv ih synced size
  | updatedBlockTip n _ ih => exact ih

/-- Six tier-1 masternodes vote for one payee at height 170200, enough for the check to apply. -/
def sixVotes : CMasternodePayments :=
  (List.range 6).foldl (fun s i => (s.addPaymentVote plainEnv ⟨⟨⟨7, i⟩, [], 0, []⟩, 170200, [0x51], [1]⟩
    true (fun _ => some 1)).2) noVotes

end Qstees.Proofs
