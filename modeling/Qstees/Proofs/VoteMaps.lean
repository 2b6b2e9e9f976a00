import Qstees.Proofs.VoteCounting

/-!
# The two maps of the payment votes

`mapMasternodeBlocks` lists vote hashes under the payees of a height, and `mapMasternodePaymentVotes` has the votes. A
message only lists a hash that was not stored before.
-/

namespace Qstees.Proofs

open Runs List VoteState

structure PayeesFit (votes : StdMap UInt256 CMasternodePaymentVote) (h : Int) (bp : CMasternodeBlockPayees) : Prop where
  height : bp.nBlockHeight = h
  stored : ∀ p ∈ bp.vecPayees, ∀ x ∈ p.vecVoteHashes,
    ∃ vote, votes[x]? = some vote ∧ vote.nBlockHeight = h ∧ vote.payee = p.scriptPubKey
  scripts : (bp.vecPayees.map CMasternodePayee.scriptPubKey).Nodup
  hashes : (bp.vecPayees.flatMap CMasternodePayee.vecVoteHashes).Nodup

/-- The two maps fit: height by height, and no hash is listed at two heights. -/
structure MapsFit (s : CMasternodePayments) : Prop where
  payees : ∀ h bp, s.mapMasternodeBlocks[h]? = some bp → PayeesFit s.mapMasternodePaymentVotes h bp
  heights : ∀ h h' x, x ∈ s.countedHashes h → x ∈ s.countedHashes h' → h = h'

variable {s t : CMasternodePayments} {h : Int} {x : UInt256} {vote : CMasternodePaymentVote}

lemma mem_countedHashes :
    x ∈ s.countedHashes h ↔ ∃ bp, s.mapMasternodeBlocks[h]? = some bp ∧ ∃ p ∈ bp.vecPayees, x ∈ p.vecVoteHashes := by
  unfold CMasternodePayments.countedHashes
  cases s.mapMasternodeBlocks[h]? with
  | none => simp
  | some bp => simp [mem_flatMap]

lemma mapsFit_of_payees
    (hfit : ∀ h bp, s.mapMasternodeBlocks[h]? = some bp → PayeesFit s.mapMasternodePaymentVotes h bp) :
    MapsFit s := by
  refine ⟨hfit, ?_⟩
  intro h h' x hx hx'
  obtain ⟨bp, hbp, p, hp, hxp⟩ := mem_countedHashes.mp hx
  obtain ⟨bp', hbp', p', hp', hxp'⟩ := mem_countedHashes.mp hx'
  obtain ⟨vote, hvote, hheight, -⟩ := (hfit h bp hbp).stored p hp x hxp
  obtain ⟨vote', hvote', hheight', -⟩ := (hfit h' bp' hbp').stored p' hp' x hxp'
  cases hvote.symm.trans hvote'
  exact hheight.symm.trans hheight'

lemma MapsFit.storedFor (hs : MapsFit s) (hx : x ∈ s.countedHashes h) : StoredFor s h x := by
  obtain ⟨bp, hbp, p, hp, hxp⟩ := mem_countedHashes.mp hx
  obtain ⟨vote, hvote, hheight, -⟩ := (hs.payees h bp hbp).stored p hp x hxp
  exact ⟨vote, hvote, hheight⟩

lemma MapsFit.nodup (hs : MapsFit s) (h : Int) : (s.countedHashes h).Nodup := by
  unfold CMasternodePayments.countedHashes
  cases hbp : s.mapMasternodeBlocks[h]? with
  | none => exact nodup_nil
  | some bp => exact (hs.payees h bp hbp).hashes

lemma mem_addVoteHash {payee : CScript} {ps ps' : List CMasternodePayee}
    (h : addVoteHash payee x ps = some ps') {p' : CMasternodePayee} (hp' : p' ∈ ps') {y : UInt256}
    (hy : y ∈ p'.vecVoteHashes) :
    (y = x ∧ p'.scriptPubKey = payee) ∨ ∃ p ∈ ps, p.scriptPubKey = p'.scriptPubKey ∧ y ∈ p.vecVoteHashes := by
  obtain ⟨pre, p, post, rfl, hp, rfl⟩ := addVoteHash_split h
  rcases mem_append.mp hp' with hpre | hpost
  · exact .inr ⟨p', by simp [hpre], rfl, hy⟩
  rcases mem_cons.mp hpost with rfl | hpost
  · rcases mem_append.mp hy with hold | hnew
    · exact .inr ⟨p, by simp, rfl, hold⟩
    · exact .inl ⟨mem_singleton.mp hnew, hp⟩
  · exact .inr ⟨p', by simp [hpost], rfl, hy⟩

variable {E : VoteEnv}

lemma PayeesFit.addPayee {votes votes' : StdMap UInt256 CMasternodePaymentVote}
    {bp : CMasternodeBlockPayees} (hbp : PayeesFit votes vote.nBlockHeight bp)
    (find : COutPoint → Option Int) (hstored : votes'[E.getHash vote]? = some vote)
    (hothers : ∀ x ≠ E.getHash vote, votes'[x]? = votes[x]?)
    (hnew : E.getHash vote ∉ bp.vecPayees.flatMap CMasternodePayee.vecVoteHashes) :
    PayeesFit votes' vote.nBlockHeight (bp.addPayee E.toPaymentEnv vote find) := by
  have hkept : ∀ p ∈ bp.vecPayees, ∀ x ∈ p.vecVoteHashes,
      ∃ v, votes'[x]? = some v ∧ v.nBlockHeight = vote.nBlockHeight ∧ v.payee = p.scriptPubKey := by
    intro p hp x hx
    have hne : x ≠ E.getHash vote := fun heq => hnew (mem_flatMap.mpr ⟨p, hp, heq ▸ hx⟩)
    rw [hothers x hne]
    exact hbp.stored p hp x hx
  have hhashes : ((bp.addPayee E.toPaymentEnv vote find).vecPayees.flatMap CMasternodePayee.vecVoteHashes).Nodup := by
    rcases hashes_addPayee E bp vote find with hperm | ⟨-, hsame⟩
    · exact hperm.nodup_iff.mpr (nodup_cons.mpr ⟨hnew, hbp.hashes⟩)
    · rw [hsame]
      exact hbp.hashes
  unfold CMasternodeBlockPayees.addPayee at hhashes ⊢
  cases hadd : addVoteHash vote.payee (E.getHash vote) bp.vecPayees with
  | some ps =>
    rw [hadd] at hhashes
    refine ⟨hbp.height, ?_, ?_, hhashes⟩
    · intro p hp x hx
      rcases mem_addVoteHash hadd hp hx with ⟨rfl, hscript⟩ | ⟨q, hq, hscript, hxq⟩
      · exact ⟨vote, hstored, rfl, hscript.symm⟩
      · obtain ⟨v, hv, hheight, hpayee⟩ := hkept q hq x hxq
        exact ⟨v, hv, hheight, hpayee.trans hscript⟩
    · exact (addVoteHash_some hadd).symm ▸ hbp.scripts
  | none =>
    rw [hadd] at hhashes
    cases hfind : find vote.vinMasternode.prevout with
    | none => exact ⟨hbp.height, hkept, hbp.scripts, hbp.hashes⟩
    | some qsteestype =>
      rw [hfind] at hhashes
      refine ⟨hbp.height, ?_, ?_, hhashes⟩
      · intro p hp x hx
        rcases mem_append.mp hp with hold | hnewp
        · exact hkept p hold x hx
        · obtain rfl := mem_singleton.mp hnewp
          obtain rfl := mem_singleton.mp hx
          exact ⟨vote, hstored, rfl, rfl⟩
      · rw [map_append]
        refine nodup_append.mpr ⟨hbp.scripts, nodup_singleton _, ?_⟩
        intro script hold script' hsingle heq
        obtain rfl : script' = vote.payee := mem_singleton.mp hsingle
        subst heq
        exact addVoteHash_eq_none.mp hadd hold

lemma mapsFit_of_addsPayee (hs : MapsFit s) {find : COutPoint → Option Int}
    (hadds : AddsPayee E vote find s t) (hnew : ∀ h, E.getHash vote ∉ s.countedHashes h) :
    MapsFit t := by
  refine mapsFit_of_payees ?_
  intro h bp hbp
  by_cases hh : h = vote.nBlockHeight
  · subst hh
    obtain rfl := Option.some.inj (hadds.here.symm.trans hbp)
    have hnew' := hnew vote.nBlockHeight
    unfold CMasternodePayments.countedHashes at hnew'
    cases hold : s.mapMasternodeBlocks[vote.nBlockHeight]? with
    | none =>
      have hempty : PayeesFit s.mapMasternodePaymentVotes vote.nBlockHeight ⟨vote.nBlockHeight, []⟩ :=
        ⟨rfl, by simp, by simp, by simp⟩
      exact hempty.addPayee find hadds.stored hadds.others (by simp)
    | some old =>
      rw [hold] at hnew'
      exact (hs.payees _ old hold).addPayee find hadds.stored hadds.others hnew'
  · rw [hadds.elsewhere h hh] at hbp
    have hold := hs.payees h bp hbp
    refine ⟨hold.height, ?_, hold.scripts, hold.hashes⟩
    intro p hp x hx
    have hne : x ≠ E.getHash vote := fun heq => hnew h (mem_countedHashes.mpr ⟨bp, hbp, p, hp, heq ▸ hx⟩)
    rw [hadds.others x hne]
    exact hold.stored p hp x hx

lemma not_mapsFit_of_addsPayee {find : COutPoint → Option Int} (hadds : AddsPayee E vote find s t)
    (hlisted : E.getHash vote ∈ s.countedHashes h) : ¬MapsFit t := by
  intro ht
  obtain ⟨bp, hbp, p, hp, hx⟩ := mem_countedHashes.mp hlisted
  by_cases hh : h = vote.nBlockHeight
  · subst hh
    have hhere := hadds.here
    rw [hbp, Option.getD_some] at hhere
    have hfit := ht.payees _ _ hhere
    unfold CMasternodeBlockPayees.addPayee at hfit
    cases hadd : addVoteHash vote.payee (E.getHash vote) bp.vecPayees with
    | some ps =>
      rw [hadd] at hfit
      have hnodup := (hashes_addVoteHash hadd).nodup_iff.mp hfit.hashes
      exact (nodup_cons.mp hnodup).1 (mem_flatMap.mpr ⟨p, hp, hx⟩)
    | none =>
      -- the payee is new, but the entry that lists the hash is for it
      have hp' : p ∈ (bp.addPayee E.toPaymentEnv vote find).vecPayees := by
        unfold CMasternodeBlockPayees.addPayee
        rw [hadd]
        cases find vote.vinMasternode.prevout with
        | none => exact hp
        | some qsteestype => exact mem_append_left _ hp
      obtain ⟨v, hv, -, hpayee⟩ := (ht.payees _ _ hhere).stored p hp' _ hx
      obtain rfl := Option.some.inj (hadds.stored.symm.trans hv)
      exact addVoteHash_eq_none.mp hadd (mem_map.mpr ⟨p, hp, hpayee.symm⟩)
  · rw [← hadds.elsewhere h hh] at hbp
    obtain ⟨v, hv, hheight, -⟩ := (ht.payees h bp hbp).stored p hp _ hx
    obtain rfl := Option.some.inj (hadds.stored.symm.trans hv)
    exact hh hheight.symm

lemma mapsFit_of_blockKept (hs : MapsFit s) (hkept : ∀ h, BlockKept s t h) : MapsFit t := by
  refine mapsFit_of_payees ?_
  intro h bp hbp
  rcases hkept h with hnone | ⟨hsame, hvotes⟩
  · rw [hnone] at hbp
    cases hbp
  · rw [hsame] at hbp
    have hold := hs.payees h bp hbp
    refine ⟨hold.height, ?_, hold.scripts, hold.hashes⟩
    intro p hp x hx
    obtain ⟨vote, hvote, hheight, hpayee⟩ := hold.stored p hp x hx
    exact ⟨vote, (hvotes x ⟨vote, hvote, hheight⟩).trans hvote, hheight, hpayee⟩

/-- Condition on a step: where the own vote of the node is listed already, it is stored with a signature. -/
def NoUnsignedCopy (E : VoteEnv) (s : VoteState) : VoteAction → Prop
  | .updatedBlockTip ctx nHeight => ∀ vote, ownVote E ctx (nHeight + 10) = some vote →
      ctx.getBlockHash (vote.nBlockHeight - 101) = true → ∀ h, E.getHash vote ∈ s.countedHashes h →
      s.hasVerifiedPaymentVote (E.getHash vote) = true
  | .message .. => True
  | .checkAndRemove _ => True
  | .clear => True

lemma mapsFit_step_iff {s : VoteState} (hs : MapsFit s.toCMasternodePayments) (a : VoteAction) :
    MapsFit (s.step E a).toCMasternodePayments ↔ NoUnsignedCopy E s a := by
  constructor
  · intro hfit
    cases a with
    | updatedBlockTip ctx nHeight =>
      intro vote hown hknown h hlisted
      by_contra hnew
      rw [Bool.not_eq_true] at hnew
      have hadds := addPaymentVote_addsPayee E
        (s := { s.toCMasternodePayments with nCachedBlockHeight := nHeight }) ctx.find hknown hnew
      refine not_mapsFit_of_addsPayee hadds hlisted ?_
      simpa only [VoteState.step, updatedBlockTip, processBlock, hown, addPaymentVote] using hfit
    | message ctx nVersion vote => trivial
    | checkAndRemove ctx => trivial
    | clear => trivial
  · intro hcond
    rcases step_payees E s a with hkept | ⟨vote, find, hcounted, hadds⟩
    · exact mapsFit_of_blockKept hs hkept
    refine mapsFit_of_addsPayee hs hadds ?_
    intro h hlisted
    cases a with
    | message ctx nVersion v =>
      obtain ⟨rfl, hrec, -⟩ := hcounted
      obtain ⟨v', hv', -⟩ := hs.storedFor hlisted
      rw [hrec.fresh] at hv'
      cases hv'
    | updatedBlockTip ctx nHeight =>
      obtain ⟨hown, hknown, hnew⟩ := hcounted
      rw [hcond vote hown hknown h hlisted] at hnew
      cases hnew
    | checkAndRemove ctx => exact hcounted.elim
    | clear => exact hcounted.elim

/-- In a run whose steps all meet the condition, the two maps fit. -/
theorem mapsFit_run (nCachedBlockHeight : Int) (actions : List VoteAction)
    (hcond : ∀ p ∈ trace (VoteState.step E) (empty nCachedBlockHeight) actions, NoUnsignedCopy E p.1 p.2) :
    MapsFit (run (VoteState.step E) (empty nCachedBlockHeight) actions).toCMasternodePayments := by
  have hinit : MapsFit (empty nCachedBlockHeight).toCMasternodePayments := by
    refine mapsFit_of_payees ?_
    intro h bp hbp
    simp [empty] at hbp
  exact invariant (P := fun s : VoteState => MapsFit s.toCMasternodePayments)
    (fun _ a hs ha => (mapsFit_step_iff hs a).mpr ha) hinit hcond

def ownNode : VoteContext :=
  { oneNode with
    fMasterNode := true
    activeMasternode := ⟨⟨7, 0⟩, [1], none⟩
    signMessage := fun _ => some [1]
    getNextMasternodeInQueueForPayment := fun _ _ => some (List.replicate 20 9) }

def ownPayee : CScript := getScriptForDestination (.keyID (List.replicate 20 9))

theorem mapsFit_run_ownVote :
    (run (VoteState.step smallVoteEnv) (empty 1000) [.message ownNode 250000 (smallVote 1010 ownPayee [1]),
        .updatedBlockTip ownNode 1000]).countedHashes 1010 = [25001010000] ∧
      MapsFit (run (VoteState.step smallVoteEnv) (empty 1000)
        [.message ownNode 250000 (smallVote 1010 ownPayee [1]),
          .updatedBlockTip ownNode 1000]).toCMasternodePayments := by
  refine ⟨by decide +kernel, mapsFit_run 1000 _ ?_⟩
  intro p hp
  simp only [trace, mem_cons, not_mem_nil, or_false] at hp
  rcases hp with rfl | rfl
  · trivial
  · intro vote hown _ h _
    have hvote : ownVote smallVoteEnv ownNode 1010 = some (smallVote 1010 ownPayee [1]) := by decide +kernel
    cases hvote.symm.trans hown
    decide +kernel

/-- An unsigned copy of the own vote, for a height below the tip; after a reorganisation to a lower tip the node makes
that vote, and its hash is listed twice. -/
theorem ownVote_listed_twice :
    ¬MapsFit (run (VoteState.step smallVoteEnv) (empty 1000)
      [.message ownNode 250000 (smallVote 995 ownPayee []), .updatedBlockTip ownNode 985]).toCMasternodePayments := by
  intro hfit
  exact absurd (hfit.nodup 995) (by decide +kernel)

end Qstees.Proofs
