import Qstees.Proofs.VoteCounting

/-!
# Signatures of payment votes

A counted vote was processed with a signature that verified, unless it came for a height that the chain had reached:
there a failed verification is let through.
-/

namespace Qstees.Proofs

open Runs List VoteState

variable (E : VoteEnv)

/-- The signature of a vote verifies under the key of its node when an action processes it. -/
def VerifiesAt : VoteAction → CMasternodePaymentVote → Prop
  | .message ctx _ _, vote => ∃ mnInfo, ctx.mapMasternodes[vote.vinMasternode.prevout]? = some mnInfo ∧
      E.verifyMessage mnInfo.pubKeyMasternode vote.vchSig (vote.strMessage E) = true
  | .updatedBlockTip ctx _, vote =>
      E.verifyMessage ctx.activeMasternode.pubKeyMasternode vote.vchSig (vote.strMessage E) = true
  | _, _ => False

/-- Every counted hash was added for a vote whose signature verified at that step. -/
def Authentic (past : List (VoteState × VoteAction)) (s : VoteState) : Prop :=
  ∀ h, ∀ x ∈ s.countedHashes h, ∃ p ∈ past, ∃ vote, CountedBy E p.1 p.2 vote ∧ E.getHash vote = x ∧
    vote.nBlockHeight = h ∧ VerifiesAt E p.2 vote

/-- Condition on a step: a vote that comes as far as the signature check is for a height above the chain's,
or its signature verifies. -/
def FutureOrSigned (s : VoteState) : VoteAction → Prop
  | .message ctx nVersion vote => Recorded E ctx nVersion s vote → vote.nBlockHeight > s.nCachedBlockHeight ∨
      ∀ mnInfo, ctx.mapMasternodes[vote.vinMasternode.prevout]? = some mnInfo →
        E.verifyMessage mnInfo.pubKeyMasternode vote.vchSig (vote.strMessage E) = true
  | _ => True

variable {E}

variable {ctx : VoteContext} {vote : CMasternodePaymentVote} {s : VoteState}

lemma ownVote_verifies {nBlockHeight : Int} (h : ownVote E ctx nBlockHeight = some vote) :
    E.verifyMessage ctx.activeMasternode.pubKeyMasternode vote.vchSig (vote.strMessage E) = true := by
  unfold ownVote at h
  split_ifs at h
  obtain ⟨nRank, _, h⟩ := Option.bind_eq_some_iff.mp h
  split_ifs at h
  obtain ⟨keyID, _, h⟩ := Option.bind_eq_some_iff.mp h
  obtain ⟨vchSig, _, h⟩ := Option.bind_eq_some_iff.mp h
  split_ifs at h with hverify
  cases h
  exact hverify

lemma verifies_of_checkSignature {pubKey : CPubKey} {nHeight : Int}
    (hsynced : ctx.isMasternodeListSynced = true) (hfuture : vote.nBlockHeight > nHeight)
    (hcheck : vote.checkSignature E ctx pubKey nHeight = .ok ()) :
    E.verifyMessage pubKey vote.vchSig (vote.strMessage E) = true := by
  by_contra hbad
  simp [CMasternodePaymentVote.checkSignature, hbad, hsynced, hfuture] at hcheck

lemma verifiesAt_of_countedBy {a : VoteAction} (ha : FutureOrSigned E s a)
    (hvote : CountedBy E s a vote) : VerifiesAt E a vote := by
  cases a with
  | message ctx nVersion v =>
    obtain ⟨rfl, hrec, ⟨mnInfo, hinfo, hcheck⟩, _⟩ := hvote
    refine ⟨mnInfo, hinfo, ?_⟩
    rcases ha hrec with hfuture | hsigned
    · have hsynced : ctx.isMasternodeListSynced = true := by
        by_contra hnot
        exact hrec.heard (.inr (.inr (by simpa using hnot)))
      exact verifies_of_checkSignature hsynced hfuture hcheck
    · exact hsigned mnInfo hinfo
  | updatedBlockTip ctx nHeight => exact ownVote_verifies hvote.1
  | checkAndRemove ctx => exact hvote.elim
  | clear => exact hvote.elim

lemma mem_countedHashes_step {a : VoteAction} {h : Int} {x : UInt256}
    (hx : x ∈ (s.step E a).countedHashes h) :
    x ∈ s.countedHashes h ∨ ∃ vote, CountedBy E s a vote ∧ x = E.getHash vote ∧ h = vote.nBlockHeight := by
  rcases step_effect E s a with hkeeps | ⟨vote, hvote, hadds⟩
  · rcases hkeeps h with hnil | ⟨hsame, _⟩
    · rw [hnil] at hx
      cases hx
    · rw [hsame] at hx
      exact .inl hx
  · by_cases hh : h = vote.nBlockHeight
    · subst hh
      rcases hadds.here with hsame | hperm
      · rw [hsame] at hx
        exact .inl hx
      · rcases mem_cons.mp (hperm.mem_iff.mp hx) with rfl | hmem
        · exact .inr ⟨vote, hvote, rfl, rfl⟩
        · exact .inl hmem
    · rw [hadds.elsewhere h hh] at hx
      exact .inl hx

lemma authentic_step (past : List (VoteState × VoteAction)) (s : VoteState) (a : VoteAction) (hs : Authentic E past s)
    (ha : FutureOrSigned E s a) : Authentic E (past ++ [(s, a)]) (s.step E a) := by
  intro h x hx
  rcases mem_countedHashes_step hx with hold | ⟨vote, hvote, rfl, rfl⟩
  · obtain ⟨p, hp, hadded⟩ := hs h x hold
    exact ⟨p, mem_append_left _ hp, hadded⟩
  · exact ⟨(s, a), by simp, vote, hvote, rfl, rfl, verifiesAt_of_countedBy ha hvote⟩

/-- In a run whose steps all meet the condition, every counted vote was processed with a signature that
verified. -/
theorem authentic_run (nCachedBlockHeight : Int) (actions : List VoteAction)
    (hsigned : ∀ p ∈ trace (VoteState.step E) (empty nCachedBlockHeight) actions, FutureOrSigned E p.1 p.2) :
    Authentic E (trace (VoteState.step E) (empty nCachedBlockHeight) actions)
      (run (VoteState.step E) (empty nCachedBlockHeight) actions) := by
  have hinit : Authentic E [] (empty nCachedBlockHeight) := by
    intro h x hx
    rw [countedHashes_empty] at hx
    cases hx
  simpa using invariant_history authentic_step hinit hsigned

theorem authentic_run_signed :
    1001001000 ∈ (run (VoteState.step smallVoteEnv) (empty 1000)
        [.message oneNode 250000 (smallVote 1001 [0x51] [1])]).countedHashes 1001 ∧
      Authentic smallVoteEnv (trace (VoteState.step smallVoteEnv) (empty 1000)
          [.message oneNode 250000 (smallVote 1001 [0x51] [1])])
        (run (VoteState.step smallVoteEnv) (empty 1000) [.message oneNode 250000 (smallVote 1001 [0x51] [1])]) := by
  refine ⟨by decide +kernel, authentic_run 1000 _ ?_⟩
  intro p hp
  obtain rfl := mem_singleton.mp hp
  exact fun _ => .inl (by decide)

/-- A vote with a signature that does not verify is counted. -/
theorem unsignedVote_counted :
    ¬Authentic smallVoteEnv (trace (VoteState.step smallVoteEnv) (empty 1000)
        [.message oneNode 250000 (smallVote 1000 [0x51] [9])])
      (run (VoteState.step smallVoteEnv) (empty 1000) [.message oneNode 250000 (smallVote 1000 [0x51] [9])]) := by
  intro hauth
  obtain ⟨p, hp, vote, hvote, _, _, hverifies⟩ := hauth 1000 1001000000 (by decide +kernel)
  obtain rfl := mem_singleton.mp hp
  obtain ⟨rfl, _, _⟩ := hvote
  obtain ⟨mnInfo, hinfo, hverify⟩ := hverifies
  have hkey : oneNode.mapMasternodes[(⟨7, 0⟩ : COutPoint)]? = some ⟨250000, [1], 1⟩ := by decide +kernel
  cases hinfo.symm.trans hkey
  exact absurd hverify (by decide)

variable (E) in
/-- The message adds the vote to those of its height. -/
def Counts (ctx : VoteContext) (nVersion : Int) (s : VoteState) (vote : CMasternodePaymentVote) : Prop :=
  ((s.processMessage E ctx nVersion vote).2.countedHashes vote.nBlockHeight).Perm
    (E.getHash vote :: s.countedHashes vote.nBlockHeight)

lemma counts_iff (nVersion : Int) :
    Counts E ctx nVersion s vote ↔ Recorded E ctx nVersion s vote ∧ Confirmed E ctx s vote := by
  refine ⟨?_, fun ⟨hrec, hconf⟩ => message_counts hrec hconf⟩
  intro hcounts
  rcases message_payees E s ctx nVersion vote with hkept | ⟨hrec, hconf, _⟩
  · have hlen := hcounts.length_eq
    rcases keeps_of_blockKept (hkept vote.nBlockHeight) with hnil | ⟨hsame, _⟩
    · rw [hnil] at hlen
      simp at hlen
    · rw [hsame] at hlen
      simp at hlen
  · exact ⟨hrec, hconf⟩

lemma counts_after_iff {nVersion : Int} {t : VoteState} (hcounts : Counts E ctx nVersion s vote)
    (hheight : t.nCachedBlockHeight = s.nCachedBlockHeight) :
    Counts E ctx nVersion t vote ↔ t.mapMasternodePaymentVotes[E.getHash vote]? = none ∧
      t.mapMasternodesLastVote[vote.vinMasternode.prevout]? ≠ some vote.nBlockHeight := by
  obtain ⟨hrec, hconf⟩ := (counts_iff nVersion).mp hcounts
  rw [counts_iff]
  refine ⟨fun ⟨hrec', _⟩ => ⟨hrec'.fresh, hrec'.canVote⟩, ?_⟩
  rintro ⟨hfresh, hcan⟩
  have hrange : t.inRange ctx vote.nBlockHeight = true := by
    have hin := hrec.inRange
    unfold inRange at hin ⊢
    rw [hheight]
    exact hin
  refine ⟨⟨⟨hrec.heard, hfresh⟩, hrange, ?_, hcan⟩, ?_⟩
  · rw [hheight]
    exact hrec.valid
  · obtain ⟨hsigned, hextracts, hknown⟩ := hconf
    rw [← hheight] at hsigned
    exact ⟨hsigned, hextracts, hknown⟩

lemma getElem?_markSeen (m : CMasternodePaymentVote) {x : UInt256}
    (hx : s.mapMasternodePaymentVotes[x]? = none) :
    (s.markSeen E m).mapMasternodePaymentVotes[x]? = none ↔ E.getHash m ≠ x := by
  simp only [markSeen, Std.ExtTreeMap.getElem?_insert, Std.LawfulEqCmp.compare_eq_iff_eq]
  split_ifs with heq
  · simp [heq]
  · simp [heq, hx]

lemma getElem?_record (o₁ o₂ : COutPoint) (h₁ h₂ : Int)
    (hcan : s.mapMasternodesLastVote[o₂]? ≠ some h₂) :
    (s.record o₁ h₁).mapMasternodesLastVote[o₂]? ≠ some h₂ ↔ ¬(o₁ = o₂ ∧ h₁ = h₂) := by
  simp only [record, Std.ExtTreeMap.getElem?_insert, Std.LawfulEqCmp.compare_eq_iff_eq]
  split_ifs with heq
  · simp [heq]
  · simp [heq, hcan]

/-- After a message that is not counted, a vote that would have been counted still is, if and only if the
message did not store the same hash and did not record the same node for the same height. -/
theorem counts_after_rejected_iff {ctx ctx' : VoteContext} {nVersion nVersion' : Int} {s : VoteState}
    {m vote : CMasternodePaymentVote} (hm : ¬Counts E ctx nVersion s m) (hvote : Counts E ctx' nVersion' s vote) :
    Counts E ctx' nVersion' (s.processMessage E ctx nVersion m).2 vote ↔
      ¬(Stored E ctx nVersion s m ∧ E.getHash m = E.getHash vote) ∧
      ¬(Recorded E ctx nVersion s m ∧ m.vinMasternode.prevout = vote.vinMasternode.prevout ∧
        m.nBlockHeight = vote.nBlockHeight) := by
  obtain ⟨hrec, _⟩ := (counts_iff nVersion').mp hvote
  have hout := processMessage_outcome E ctx nVersion s m
  generalize (s.processMessage E ctx nVersion m).2 = t at hout ⊢
  cases hout with
  | ignored hnot =>
    have hnotrec : ¬Recorded E ctx nVersion s m := fun h => hnot h.toStored
    simp [hvote, hnot, hnotrec]
  | seen hstored hnot =>
    rw [counts_after_iff (t := s.markSeen E m) hvote rfl, getElem?_markSeen m hrec.fresh]
    simp only [hstored, hnot, true_and, false_and, not_false_eq_true, and_true]
    exact ⟨fun h => h.1, fun h => ⟨h, hrec.canVote⟩⟩
  | recorded hmrec =>
    rw [counts_after_iff (t := recordedState E s m) hvote rfl]
    simp only [hmrec, hmrec.toStored, true_and]
    exact and_congr (getElem?_markSeen m hrec.fresh) (getElem?_record _ _ _ _ hrec.canVote)
  | counted hmrec hconf => exact absurd ((counts_iff nVersion).mpr ⟨hmrec, hconf⟩) hm

theorem counts_after_outOfRange :
    Counts smallVoteEnv oneNode 250000
      ((empty 1000).processMessage smallVoteEnv oneNode 250000 (smallVote 1021 [0x51] [9])).2
        (smallVote 1001 [0x51] [1]) := by
  have hm : ¬Counts smallVoteEnv oneNode 250000 (empty 1000) (smallVote 1021 [0x51] [9]) := by
    unfold Counts
    decide +kernel
  have hvote : Counts smallVoteEnv oneNode 250000 (empty 1000) (smallVote 1001 [0x51] [1]) := by
    unfold Counts
    decide +kernel
  refine (counts_after_rejected_iff hm hvote).mpr ⟨?_, ?_⟩
  · exact fun h => absurd h.2 (by decide)
  · exact fun h => absurd h.2.2 (by decide)

/-- The same vote with a bad signature, for a future block, keeps the genuine one from being counted. -/
theorem badSignature_suppresses :
    ¬Counts smallVoteEnv oneNode 250000 (empty 1000) (smallVote 1001 [0x51] [9]) ∧
      Counts smallVoteEnv oneNode 250000 (empty 1000) (smallVote 1001 [0x51] [1]) ∧
      smallVoteEnv.verifyMessage [1]
        (smallVote 1001 [0x51] [1]).vchSig ((smallVote 1001 [0x51] [1]).strMessage smallVoteEnv) = true ∧
      ¬Counts smallVoteEnv oneNode 250000
        ((empty 1000).processMessage smallVoteEnv oneNode 250000 (smallVote 1001 [0x51] [9])).2
        (smallVote 1001 [0x51] [1]) := by
  unfold Counts
  decide +kernel

end Qstees.Proofs
