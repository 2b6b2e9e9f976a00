import Qstees.Library.Runs
import Qstees.Model.PaymentVotes
import Qstees.Proofs.Payees

/-!
# Which payment votes count

A step of the vote store either keeps what is counted, height by height, or counts one more vote. Every counted hash
belongs to a stored vote, which names its author.
-/

namespace Qstees.Proofs

open Runs List Std.ExtTreeMap CMasternodePayee CMasternodePayments

variable (E : VoteEnv)

section Outcomes

variable (ctx : VoteContext) (nVersion : Int) (s : VoteState) (vote : CMasternodePaymentVote)

/-- The vote is listened to and was not seen before. -/
structure Stored : Prop where
  heard : ¬(ctx.fLiteMode ∨ nVersion < ctx.getMinMasternodePaymentsProto ∨ !ctx.isMasternodeListSynced)
  fresh : s.mapMasternodePaymentVotes[E.getHash vote]? = none

/-- The vote gets as far as being recorded as its node's last one. -/
structure Recorded : Prop extends Stored E ctx nVersion s vote where
  inRange : s.inRange ctx vote.nBlockHeight = true
  valid : vote.isValid ctx s.nCachedBlockHeight = .ok ()
  canVote : s.mapMasternodesLastVote[vote.vinMasternode.prevout]? ≠ some vote.nBlockHeight

/-- The tests behind that: a known node whose signature is let through, a payee whose address can be extracted, and a
known block. -/
structure Confirmed : Prop where
  signed : ∃ mnInfo, ctx.mapMasternodes[vote.vinMasternode.prevout]? = some mnInfo ∧
    vote.checkSignature E ctx mnInfo.pubKeyMasternode s.nCachedBlockHeight = .ok ()
  extracts : extractionThrows vote.payee = false
  known : ctx.getBlockHash (vote.nBlockHeight - 101) = true

def recordedState : VoteState := (s.markSeen E vote).record vote.vinMasternode.prevout vote.nBlockHeight

lemma hasVerified_recordedState : (recordedState E s vote).hasVerifiedPaymentVote (E.getHash vote) = false := by
  simp [hasVerifiedPaymentVote, recordedState, VoteState.record, VoteState.markSeen,
    CMasternodePaymentVote.markAsNotVerified, CMasternodePaymentVote.isVerified]

/-- The state after a vote message, by how far the vote gets. -/
inductive Outcome : VoteState → Prop
  | ignored (h : ¬Stored E ctx nVersion s vote) : Outcome s
  | seen (h : Stored E ctx nVersion s vote) (h' : ¬Recorded E ctx nVersion s vote) : Outcome (s.markSeen E vote)
  | recorded (h : Recorded E ctx nVersion s vote) (h' : ¬Confirmed E ctx s vote) : Outcome (recordedState E s vote)
  | counted (h : Recorded E ctx nVersion s vote) (h' : Confirmed E ctx s vote) :
    Outcome ((recordedState E s vote).addPaymentVote E ctx vote).2

lemma processMessage_outcome : Outcome E ctx nVersion s vote (s.processMessage E ctx nVersion vote).2 := by
  unfold VoteState.processMessage VoteState.canVote
  -- the checks in the order of the source; each failing one ends the message
  by_cases hheard : ctx.fLiteMode ∨ nVersion < ctx.getMinMasternodePaymentsProto ∨ !ctx.isMasternodeListSynced
  · rw [if_pos hheard]
    exact .ignored fun h => h.heard hheard
  by_cases hfresh : s.mapMasternodePaymentVotes[E.getHash vote]? = none
  swap
  · rw [if_neg hheard, if_pos (Option.isSome_iff_ne_none.mpr hfresh)]
    exact .ignored fun h => hfresh h.fresh
  rw [if_neg hheard, hfresh, Option.isSome_none, if_neg Bool.false_ne_true]
  dsimp only
  have hstored : Stored E ctx nVersion s vote := ⟨hheard, hfresh⟩
  cases hrange : (s.markSeen E vote).inRange ctx vote.nBlockHeight with
  | false => exact .seen hstored fun h => Bool.false_ne_true (hrange.symm.trans h.inRange)
  | true =>
    cases hvalid : vote.isValid ctx (s.markSeen E vote).nCachedBlockHeight with
    | error error => exact .seen hstored fun h => by cases hvalid.symm.trans h.valid
    | ok =>
      by_cases hlast : (s.markSeen E vote).mapMasternodesLastVote[vote.vinMasternode.prevout]? = some vote.nBlockHeight
      · rw [if_pos hlast]
        exact .seen hstored fun h => h.canVote hlast
      have hrec : Recorded E ctx nVersion s vote := ⟨hstored, hrange, hvalid, hlast⟩
      rw [if_neg hlast]
      dsimp only
      cases hinfo : ctx.mapMasternodes[vote.vinMasternode.prevout]? with
      | none =>
        refine .recorded hrec ?_
        rintro ⟨⟨mnInfo, hinfo', -⟩, -, -⟩
        cases hinfo.symm.trans hinfo'
      | some mnInfo =>
        dsimp only
        cases hsig : vote.checkSignature E ctx mnInfo.pubKeyMasternode
          ((s.markSeen E vote).record vote.vinMasternode.prevout vote.nBlockHeight).nCachedBlockHeight with
        | error nDos =>
          refine .recorded hrec ?_
          rintro ⟨⟨mnInfo', hinfo', hsig'⟩, -, -⟩
          cases hinfo.symm.trans hinfo'
          cases hsig.symm.trans hsig'
        | ok =>
          by_cases hthrows : extractionThrows vote.payee = true
          · rw [if_pos hthrows]
            exact .recorded hrec fun hconf => Bool.false_ne_true (hconf.extracts.symm.trans hthrows)
          rw [if_neg hthrows]
          by_cases hknown : ctx.getBlockHash (vote.nBlockHeight - 101) = true
          · exact .counted hrec ⟨⟨mnInfo, hinfo, hsig⟩, by simpa using hthrows, hknown⟩
          · have hsame : ((recordedState E s vote).addPaymentVote E ctx vote).2 = recordedState E s vote := by
              simp [VoteState.addPaymentVote, addPaymentVote, hknown]
            have hout := Outcome.recorded hrec fun hconf => hknown hconf.known
            rwa [← hsame] at hout

end Outcomes

variable {s t : CMasternodePayments} {vote : CMasternodePaymentVote} {find : COutPoint → Option Int} {h : Int}

def StoredFor (s : CMasternodePayments) (h : Int) (x : UInt256) : Prop :=
  ∃ vote, s.mapMasternodePaymentVotes[x]? = some vote ∧ vote.nBlockHeight = h

def Keeps (s t : CMasternodePayments) (h : Int) : Prop :=
  t.countedHashes h = [] ∨ t.countedHashes h = s.countedHashes h ∧
    ∀ x, StoredFor s h x → t.mapMasternodePaymentVotes[x]? = s.mapMasternodePaymentVotes[x]?

/-- The payees of a height are gone, or they and the stored votes for the height are as before. -/
def BlockKept (s t : CMasternodePayments) (h : Int) : Prop :=
  t.mapMasternodeBlocks[h]? = none ∨ t.mapMasternodeBlocks[h]? = s.mapMasternodeBlocks[h]? ∧
    ∀ x, StoredFor s h x → t.mapMasternodePaymentVotes[x]? = s.mapMasternodePaymentVotes[x]?

structure AddsPayee (vote : CMasternodePaymentVote) (find : COutPoint → Option Int) (s t : CMasternodePayments) :
    Prop where
  stored : t.mapMasternodePaymentVotes[E.getHash vote]? = some vote
  others : ∀ x ≠ E.getHash vote, t.mapMasternodePaymentVotes[x]? = s.mapMasternodePaymentVotes[x]?
  elsewhere : ∀ h ≠ vote.nBlockHeight, t.mapMasternodeBlocks[h]? = s.mapMasternodeBlocks[h]?
  here : t.mapMasternodeBlocks[vote.nBlockHeight]? =
    some (((s.mapMasternodeBlocks[vote.nBlockHeight]?).getD ⟨vote.nBlockHeight, []⟩).addPayee E.toPaymentEnv vote find)

structure Adds (vote : CMasternodePaymentVote) (s t : CMasternodePayments) : Prop where
  stored : t.mapMasternodePaymentVotes[E.getHash vote]? = some vote
  others : ∀ x ≠ E.getHash vote, t.mapMasternodePaymentVotes[x]? = s.mapMasternodePaymentVotes[x]?
  elsewhere : ∀ h ≠ vote.nBlockHeight, t.countedHashes h = s.countedHashes h
  here : t.countedHashes vote.nBlockHeight = s.countedHashes vote.nBlockHeight ∨
    (t.countedHashes vote.nBlockHeight).Perm (E.getHash vote :: s.countedHashes vote.nBlockHeight)

lemma hashes_addVoteHash {payee : CScript} {x : UInt256} {ps ps' : List CMasternodePayee}
    (h : addVoteHash payee x ps = some ps') :
    (ps'.flatMap vecVoteHashes).Perm (x :: ps.flatMap vecVoteHashes) := by
  obtain ⟨pre, p, post, rfl, -, rfl⟩ := addVoteHash_split h
  rw [flatMap_append, flatMap_append, flatMap_cons, flatMap_cons, append_assoc,
    ← append_assoc, ← append_assoc (pre.flatMap _)]
  exact perm_middle

lemma hashes_addPayee (bp : CMasternodeBlockPayees) (vote : CMasternodePaymentVote) (find : COutPoint → Option Int) :
    ((bp.addPayee E.toPaymentEnv vote find).vecPayees.flatMap vecVoteHashes).Perm
        (E.getHash vote :: bp.vecPayees.flatMap vecVoteHashes) ∨
      find vote.vinMasternode.prevout = none ∧ bp.addPayee E.toPaymentEnv vote find = bp := by
  unfold CMasternodeBlockPayees.addPayee
  cases hadd : addVoteHash vote.payee (E.getHash vote) bp.vecPayees with
  | some ps => exact .inl (hashes_addVoteHash hadd)
  | none =>
    cases find vote.vinMasternode.prevout with
    | none => exact .inr ⟨rfl, rfl⟩
    | some qsteestype =>
      refine .inl ?_
      rw [flatMap_append]
      simp

lemma addPaymentVote_addsPayee {known : Bool}
    (find : COutPoint → Option Int) (hknown : known = true) (hnew : s.hasVerifiedPaymentVote (E.getHash vote) = false) :
    AddsPayee E vote find s (s.addPaymentVote E.toPaymentEnv vote known find).2 := by
  simp only [addPaymentVote, hknown, hnew, Bool.not_true, Bool.false_eq_true, if_false]
  refine ⟨?_, ?_, ?_, ?_⟩
  · exact Std.ExtTreeMap.getElem?_insert_self
  · intro x hx
    simp [Std.ExtTreeMap.getElem?_insert, hx.symm]
  · intro h hh
    simp [Std.ExtTreeMap.getElem?_insert, hh.symm]
  · exact Std.ExtTreeMap.getElem?_insert_self

lemma adds_of_addsPayee
    (h : AddsPayee E vote find s t) :
    Adds E vote s t ∧ (find vote.vinMasternode.prevout ≠ none →
      (t.countedHashes vote.nBlockHeight).Perm (E.getHash vote :: s.countedHashes vote.nBlockHeight)) := by
  have hcounted : s.countedHashes vote.nBlockHeight =
      ((s.mapMasternodeBlocks[vote.nBlockHeight]?).getD ⟨vote.nBlockHeight, []⟩).vecPayees.flatMap
        vecVoteHashes := by
    unfold countedHashes
    cases s.mapMasternodeBlocks[vote.nBlockHeight]? <;> rfl
  have hhashes := hashes_addPayee E ((s.mapMasternodeBlocks[vote.nBlockHeight]?).getD ⟨vote.nBlockHeight, []⟩) vote find
  rw [← hcounted] at hhashes
  refine ⟨⟨h.stored, h.others, ?_, ?_⟩, ?_⟩
  · intro h' hh
    simp only [countedHashes, h.elsewhere h' hh]
  · rw [countedHashes, h.here]
    rcases hhashes with hperm | ⟨_, hsame⟩
    · exact .inr hperm
    · rw [hsame]
      exact .inl hcounted.symm
  · intro hfind
    rw [countedHashes, h.here]
    rcases hhashes with hperm | ⟨hnone, _⟩
    · exact hperm
    · exact absurd hnone hfind

lemma addPaymentVote_refused {known : Bool}
    (find : COutPoint → Option Int) (h : ¬(known = true ∧ s.hasVerifiedPaymentVote (E.getHash vote) = false)) :
    (s.addPaymentVote E.toPaymentEnv vote known find).2 = s := by
  unfold addPaymentVote
  split_ifs with hknown hverified
  · rfl
  · rfl
  · exact absurd ⟨by simpa using hknown, by simpa using hverified⟩ h

lemma blockKept_refl (s : CMasternodePayments) (h : Int) : BlockKept s s h := .inr ⟨rfl, fun _ _ => rfl⟩

lemma keeps_of_blockKept (hkept : BlockKept s t h) : Keeps s t h := by
  unfold Keeps countedHashes
  rcases hkept with hnone | ⟨hsame, hvotes⟩
  · rw [hnone]
    exact .inl rfl
  · rw [hsame]
    exact .inr ⟨rfl, hvotes⟩

lemma blockKept_markSeen {s : VoteState}
    (hfresh : s.mapMasternodePaymentVotes[E.getHash vote]? = none) (h : Int) :
    BlockKept s.toCMasternodePayments (s.markSeen E vote).toCMasternodePayments h := by
  refine .inr ⟨rfl, ?_⟩
  rintro x ⟨v, hv, _⟩
  have hne : E.getHash vote ≠ x := by
    rintro rfl
    rw [hfresh] at hv
    cases hv
  simp [VoteState.markSeen, Std.ExtTreeMap.getElem?_insert, hne]

lemma blockKept_removeOld (ht : ∀ h, BlockKept s t h) (nLimit : Int)
    {entry : UInt256 × CMasternodePaymentVote}
    (hentry : s.mapMasternodePaymentVotes[entry.1]? = some entry.2) (h : Int) :
    BlockKept s (t.removeOld nLimit entry) h := by
  unfold removeOld
  split_ifs with hold
  · by_cases hh : entry.2.nBlockHeight = h
    · refine .inl ?_
      simp only [getElem?_erase, Std.LawfulEqCmp.compare_eq_iff_eq, if_pos hh]
    have hblock : (t.mapMasternodeBlocks.erase entry.2.nBlockHeight)[h]? = t.mapMasternodeBlocks[h]? := by
      simp [getElem?_erase, hh]
    refine (ht h).imp hblock.trans fun ⟨hsame, hvotes⟩ => ⟨hblock.trans hsame, ?_⟩
    rintro x ⟨v, hv, hheight⟩
    have hne : entry.1 ≠ x := by
      rintro rfl
      rw [hentry] at hv
      cases hv
      exact hh hheight
    simp only [getElem?_erase, Std.LawfulEqCmp.compare_eq_iff_eq, if_neg hne]
    exact hvotes x ⟨v, hv, hheight⟩
  · exact ht h

lemma blockKept_checkAndRemove (s : CMasternodePayments) (isBlockchainSynced : Bool) (size : Nat) (h : Int) :
    BlockKept s (s.checkAndRemove isBlockchainSynced size) h := by
  unfold CMasternodePayments.checkAndRemove
  split_ifs
  · exact blockKept_refl s h
  · have hfold := List.foldlRecOn (motive := fun t => ∀ h, BlockKept s t h) s.mapMasternodePaymentVotes.toList
      (removeOld (getStorageLimit size)) (blockKept_refl s)
      (fun t ht entry hentry => blockKept_removeOld ht _ (mem_toList_iff_getElem?_eq_some.mp hentry))
    exact hfold h

/-- The action counts this vote. -/
def CountedBy (s : VoteState) : VoteAction → CMasternodePaymentVote → Prop
  | .message ctx nVersion v, vote => v = vote ∧ Recorded E ctx nVersion s vote ∧ Confirmed E ctx s vote
  | .updatedBlockTip ctx nHeight, vote => VoteState.ownVote E ctx (nHeight + 10) = some vote ∧
      ctx.getBlockHash (vote.nBlockHeight - 101) = true ∧ s.hasVerifiedPaymentVote (E.getHash vote) = false
  | .checkAndRemove _, _ => False
  | .clear, _ => False

lemma message_payees (s : VoteState) (ctx : VoteContext) (nVersion : Int) (vote : CMasternodePaymentVote) :
    (∀ h, BlockKept s.toCMasternodePayments (s.processMessage E ctx nVersion vote).2.toCMasternodePayments h) ∨
      Recorded E ctx nVersion s vote ∧ Confirmed E ctx s vote ∧
        AddsPayee E vote ctx.find s.toCMasternodePayments
          (s.processMessage E ctx nVersion vote).2.toCMasternodePayments := by
  have hout := processMessage_outcome E ctx nVersion s vote
  generalize (s.processMessage E ctx nVersion vote).2 = t at hout ⊢
  cases hout with
  | ignored => exact .inl (blockKept_refl _)
  | seen hstored => exact .inl (blockKept_markSeen E hstored.fresh)
  | recorded hrec => exact .inl (blockKept_markSeen E hrec.fresh)
  | counted hrec hconf =>
    refine .inr ⟨hrec, hconf, ?_⟩
    have hadds := addPaymentVote_addsPayee E ctx.find hconf.known (hasVerified_recordedState E s vote)
    -- the seen mark is at the same hash
    have hothers : ∀ x ≠ E.getHash vote,
        (recordedState E s vote).mapMasternodePaymentVotes[x]? = s.mapMasternodePaymentVotes[x]? := by
      intro x hx
      simp [recordedState, VoteState.record, VoteState.markSeen, Std.ExtTreeMap.getElem?_insert,
        hx.symm]
    exact ⟨hadds.stored, fun x hx => (hadds.others x hx).trans (hothers x hx), hadds.elsewhere, hadds.here⟩

lemma step_payees (s : VoteState) (a : VoteAction) :
    (∀ h, BlockKept s.toCMasternodePayments (s.step E a).toCMasternodePayments h) ∨
      ∃ vote find, CountedBy E s a vote ∧
        AddsPayee E vote find s.toCMasternodePayments (s.step E a).toCMasternodePayments := by
  cases a with
  | message ctx nVersion vote =>
    rcases message_payees E s ctx nVersion vote with hkept | ⟨hrec, hconf, hadds⟩
    · exact .inl hkept
    · exact .inr ⟨vote, ctx.find, ⟨rfl, hrec, hconf⟩, hadds⟩
  | updatedBlockTip ctx nHeight =>
    simp only [VoteState.step, VoteState.updatedBlockTip, VoteState.processBlock]
    cases hown : VoteState.ownVote E ctx (nHeight + 10) with
    | none => exact .inl (blockKept_refl _)
    | some vote =>
      by_cases hadd : ctx.getBlockHash (vote.nBlockHeight - 101) = true ∧
        s.hasVerifiedPaymentVote (E.getHash vote) = false
      · have hadds := addPaymentVote_addsPayee E
          (s := { s.toCMasternodePayments with nCachedBlockHeight := nHeight }) ctx.find hadd.1 hadd.2
        exact .inr ⟨vote, ctx.find, ⟨hown, hadd⟩, hadds.stored, hadds.others, hadds.elsewhere, hadds.here⟩
      · have hsame := addPaymentVote_refused E
          (s := { s.toCMasternodePayments with nCachedBlockHeight := nHeight }) ctx.find hadd
        refine .inl fun h => ?_
        dsimp only [VoteState.addPaymentVote]
        rw [hsame]
        exact blockKept_refl _ h
  | checkAndRemove ctx => exact .inl (blockKept_checkAndRemove _ _ _)
  | clear =>
    refine .inl fun h => .inl ?_
    simp [VoteState.step, VoteState.clear]

lemma step_effect (s : VoteState) (a : VoteAction) :
    (∀ h, Keeps s.toCMasternodePayments (s.step E a).toCMasternodePayments h) ∨
      ∃ vote, CountedBy E s a vote ∧ Adds E vote s.toCMasternodePayments (s.step E a).toCMasternodePayments := by
  rcases step_payees E s a with hkept | ⟨vote, find, hcounted, hadds⟩
  · exact .inl fun h => keeps_of_blockKept (hkept h)
  · exact .inr ⟨vote, hcounted, (adds_of_addsPayee E hadds).1⟩

/-- The votes of one node counted for a height. -/
def authoredBy (s : CMasternodePayments) (h : Int) (o : COutPoint) : List UInt256 :=
  (s.countedHashes h).filter (fun x =>
    (s.mapMasternodePaymentVotes[x]?).any (fun vote => decide (vote.vinMasternode.prevout = o)))

def OneVotePerHeight (s : CMasternodePayments) : Prop := ∀ h o, (authoredBy s h o).length ≤ 1

def VotesStored (s : CMasternodePayments) : Prop := ∀ h, ∀ x ∈ s.countedHashes h, StoredFor s h x

lemma authoredBy_eq (hcounted : t.countedHashes h = s.countedHashes h)
    (hvotes : ∀ x ∈ s.countedHashes h, t.mapMasternodePaymentVotes[x]? = s.mapMasternodePaymentVotes[x]?)
    (o : COutPoint) :
    authoredBy t h o = authoredBy s h o := by
  unfold authoredBy
  rw [hcounted]
  apply filter_congr
  intro x hx
  rw [hvotes x hx]

lemma votesStored_of_keeps (hs : VotesStored s) (hkeeps : ∀ h, Keeps s t h) : VotesStored t := by
  intro h x hx
  rcases hkeeps h with hnil | ⟨hsame, hvotes⟩
  · rw [hnil] at hx
    cases hx
  · rw [hsame] at hx
    obtain ⟨vote, hvote, hheight⟩ := hs h x hx
    exact ⟨vote, (hvotes x ⟨vote, hvote, hheight⟩).trans hvote, hheight⟩

lemma oneVote_of_keeps (hs : VotesStored s) (hone : OneVotePerHeight s)
    (hkeeps : ∀ h, Keeps s t h) : OneVotePerHeight t := by
  intro h o
  rcases hkeeps h with hnil | ⟨hsame, hvotes⟩
  · simp [authoredBy, hnil]
  · rw [authoredBy_eq hsame (fun x hx => hvotes x (hs h x hx))]
    exact hone h o

variable {E}

lemma votesStored_of_adds (hs : VotesStored s)
    (huncounted : ∀ h, E.getHash vote ∉ s.countedHashes h) (hadds : Adds E vote s t) : VotesStored t := by
  have hold : ∀ h, ∀ x ∈ s.countedHashes h, StoredFor t h x := by
    intro h x hx
    obtain ⟨v, hv, hheight⟩ := hs h x hx
    have hne : x ≠ E.getHash vote := fun heq => huncounted h (heq ▸ hx)
    exact ⟨v, (hadds.others x hne).trans hv, hheight⟩
  intro h x hx
  by_cases hh : h = vote.nBlockHeight
  · subst hh
    rcases hadds.here with hsame | hperm
    · exact hold _ x (hsame ▸ hx)
    · rcases mem_cons.mp (hperm.mem_iff.mp hx) with rfl | hmem
      · exact ⟨vote, hadds.stored, rfl⟩
      · exact hold _ x hmem
  · rw [hadds.elsewhere h hh] at hx
    exact hold h x hx

lemma authoredBy_of_counted
    (hstored : t.mapMasternodePaymentVotes[E.getHash vote]? = some vote)
    (hvotes : ∀ x ∈ s.countedHashes vote.nBlockHeight, t.mapMasternodePaymentVotes[x]? =
      s.mapMasternodePaymentVotes[x]?)
    (hperm : (t.countedHashes vote.nBlockHeight).Perm (E.getHash vote :: s.countedHashes vote.nBlockHeight))
    (o : COutPoint) :
    (authoredBy t vote.nBlockHeight o).Perm
      (if vote.vinMasternode.prevout = o then E.getHash vote :: authoredBy s vote.nBlockHeight o
        else authoredBy s vote.nBlockHeight o) := by
  have hrest :
    List.filter (fun x => (t.mapMasternodePaymentVotes[x]?).any (fun v => decide (v.vinMasternode.prevout = o)))
      (s.countedHashes vote.nBlockHeight) = authoredBy s vote.nBlockHeight o := by
    apply filter_congr
    intro x hx
    rw [hvotes x hx]
  refine (hperm.filter _).trans ?_
  rw [filter_cons, hstored, hrest]
  simp

lemma authoredBy_of_adds
    (huncounted : ∀ h, E.getHash vote ∉ s.countedHashes h) (hadds : Adds E vote s t) (h : Int) (o : COutPoint) :
    (authoredBy t h o).Perm (authoredBy s h o) ∨ h = vote.nBlockHeight ∧ vote.vinMasternode.prevout = o ∧
      (authoredBy t h o).Perm (E.getHash vote :: authoredBy s h o) := by
  have hvotes : ∀ h, ∀ x ∈ s.countedHashes h, t.mapMasternodePaymentVotes[x]? = s.mapMasternodePaymentVotes[x]? :=
    fun h x hx => hadds.others x (fun heq => huncounted h (heq ▸ hx))
  by_cases hh : h = vote.nBlockHeight
  · subst hh
    rcases hadds.here with hsame | hperm
    · exact .inl (List.Perm.of_eq (authoredBy_eq hsame (hvotes _) o))
    · have hauthored := authoredBy_of_counted hadds.stored (hvotes _) hperm o
      split_ifs at hauthored with ho
      · exact .inr ⟨rfl, ho, hauthored⟩
      · exact .inl hauthored
  · exact .inl (List.Perm.of_eq (authoredBy_eq (hadds.elsewhere h hh) (hvotes h) o))

lemma oneVote_of_adds (hone : OneVotePerHeight s)
    (huncounted : ∀ h, E.getHash vote ∉ s.countedHashes h) (hadds : Adds E vote s t)
    (hfirst : authoredBy s vote.nBlockHeight vote.vinMasternode.prevout = []) : OneVotePerHeight t := by
  intro h o
  rcases authoredBy_of_adds huncounted hadds h o with hperm | ⟨rfl, rfl, hperm⟩
  · rw [hperm.length_eq]
    exact hone h o
  · rw [hperm.length_eq, hfirst]
    simp

variable (E)

/-- Condition on a step: a vote of a node with a counted vote for the same height is stopped by its last
recorded height, and the node's own vote is either its first for the height or stored as verified already. -/
def Singly (s : VoteState) : VoteAction → Prop
  | .message ctx nVersion vote =>
    Stored E ctx nVersion s vote → s.inRange ctx vote.nBlockHeight = true →
      vote.isValid ctx s.nCachedBlockHeight = .ok () →
      Confirmed E ctx s vote → authoredBy s.toCMasternodePayments vote.nBlockHeight vote.vinMasternode.prevout ≠ [] →
      s.mapMasternodesLastVote[vote.vinMasternode.prevout]? = some vote.nBlockHeight
  | .updatedBlockTip ctx nHeight => ∀ vote, VoteState.ownVote E ctx (nHeight + 10) = some vote →
      s.hasVerifiedPaymentVote (E.getHash vote) = true ∨
        authoredBy s.toCMasternodePayments vote.nBlockHeight vote.vinMasternode.prevout = [] ∧
          ∀ h, E.getHash vote ∉ s.countedHashes h
  | .checkAndRemove _ => True
  | .clear => True

variable {E}

lemma uncounted_of_fresh (hs : VotesStored s) {x : UInt256}
    (hfresh : s.mapMasternodePaymentVotes[x]? = none) (h : Int) : x ∉ s.countedHashes h := by
  intro hmem
  obtain ⟨vote, hvote, _⟩ := hs h x hmem
  rw [hfresh] at hvote
  cases hvote

lemma singly_first {s : VoteState} (hs : VotesStored s.toCMasternodePayments) {a : VoteAction} (ha : Singly E s a)
    {vote : CMasternodePaymentVote} (hvote : CountedBy E s a vote) :
    authoredBy s.toCMasternodePayments vote.nBlockHeight vote.vinMasternode.prevout = [] ∧
      ∀ h, E.getHash vote ∉ s.countedHashes h := by
  cases a with
  | message ctx nVersion v =>
    obtain ⟨rfl, hrec, hconf⟩ := hvote
    refine ⟨?_, uncounted_of_fresh hs hrec.fresh⟩
    by_contra hne
    exact hrec.canVote (ha hrec.toStored hrec.inRange hrec.valid hconf hne)
  | updatedBlockTip ctx nHeight =>
    obtain ⟨hown, _, hnew⟩ := hvote
    rcases ha vote hown with hverified | hfirst
    · rw [hnew] at hverified
      cases hverified
    · exact hfirst
  | checkAndRemove ctx => exact hvote.elim
  | clear => exact hvote.elim

lemma singly_step {s : VoteState} {a : VoteAction}
    (hs : VotesStored s.toCMasternodePayments ∧ OneVotePerHeight s.toCMasternodePayments) (ha : Singly E s a) :
    VotesStored (s.step E a).toCMasternodePayments ∧ OneVotePerHeight (s.step E a).toCMasternodePayments := by
  rcases step_effect E s a with hkeeps | ⟨vote, hvote, hadds⟩
  · exact ⟨votesStored_of_keeps hs.1 hkeeps, oneVote_of_keeps hs.1 hs.2 hkeeps⟩
  · obtain ⟨hfirst, huncounted⟩ := singly_first hs.1 ha hvote
    exact ⟨votesStored_of_adds hs.1 huncounted hadds, oneVote_of_adds hs.2 huncounted hadds hfirst⟩

lemma countedHashes_empty (nCachedBlockHeight h : Int) : (VoteState.empty nCachedBlockHeight).countedHashes h = [] := by
  simp [VoteState.empty, countedHashes]

lemma message_counts {s : VoteState} {ctx : VoteContext} {nVersion : Int}
    (hrec : Recorded E ctx nVersion s vote) (hconf : Confirmed E ctx s vote) :
    ((s.processMessage E ctx nVersion vote).2.countedHashes vote.nBlockHeight).Perm
      (E.getHash vote :: s.countedHashes vote.nBlockHeight) := by
  have hout := processMessage_outcome E ctx nVersion s vote
  generalize (s.processMessage E ctx nVersion vote).2 = t at hout ⊢
  cases hout with
  | ignored hnot => exact absurd hrec.toStored hnot
  | seen _ hnot => exact absurd hrec hnot
  | recorded _ hnot => exact absurd hconf hnot
  | counted =>
    obtain ⟨⟨mnInfo, hinfo, _⟩, -, hknown⟩ := hconf
    have hadds := addPaymentVote_addsPayee E ctx.find hknown (hasVerified_recordedState E s vote)
    exact (adds_of_addsPayee E hadds).2 (by simp [VoteContext.find, hinfo])

def smallVoteEnv : VoteEnv where
  toPaymentEnv := { plainEnv with
    voteHash := fun payee nBlockHeight prevout => (payee.length * 1000000 + nBlockHeight.toNat) * 1000 + prevout.n }
  verifyMessage := fun pubKey vchSig _ => vchSig == pubKey
  scriptToAsmStr := stdString

def oneNode : VoteContext where
  mapMasternodes := (∅ : StdMap COutPoint MasternodeInfo).insert ⟨7, 0⟩ ⟨250000, [1], 1⟩
  getMasternodeRank := fun _ _ _ => some 1
  getBlockHash := fun _ => true
  activeMasternode := ⟨⟨8, 0⟩, [2], none⟩
  signMessage := fun _ => none
  getNextMasternodeInQueueForPayment := fun _ _ => none

def smallVote (nBlockHeight : Int) (payee : CScript) (vchSig : List UInt8) : CMasternodePaymentVote :=
  ⟨⟨⟨7, 0⟩, [], SEQUENCE_FINAL, []⟩, nBlockHeight, payee, vchSig⟩

/-- In a run whose steps all meet the condition, no node has two counted votes for a height. -/
theorem oneVotePerHeight_run (nCachedBlockHeight : Int) (actions : List VoteAction)
    (hsingly : ∀ p ∈ trace (VoteState.step E) (VoteState.empty nCachedBlockHeight) actions, Singly E p.1 p.2) :
    OneVotePerHeight (run (VoteState.step E) (VoteState.empty nCachedBlockHeight) actions).toCMasternodePayments := by
  have hinit : VotesStored (VoteState.empty nCachedBlockHeight).toCMasternodePayments ∧
      OneVotePerHeight (VoteState.empty nCachedBlockHeight).toCMasternodePayments := by
    refine ⟨?_, ?_⟩
    · intro h x hx
      rw [countedHashes_empty] at hx
      cases hx
    · intro h o
      simp [authoredBy, countedHashes_empty]
  exact (invariant (P := fun s => VotesStored s.toCMasternodePayments ∧ OneVotePerHeight s.toCMasternodePayments)
    (fun _ _ => singly_step) hinit hsingly).2

/-- One node votes for height 1001, votes for it again, which its last recorded height stops, and votes for 1002. -/
def repeatedVotes : List VoteAction :=
  [smallVote 1001 [0x51] [1], smallVote 1001 [0x51, 0x51] [1], smallVote 1002 [0x51] [1]].map (.message oneNode 250000)

theorem oneVotePerHeight_run_repeated :
    authoredBy (run (VoteState.step smallVoteEnv) (VoteState.empty 1000) repeatedVotes).toCMasternodePayments
        1001 ⟨7, 0⟩ = [1001001000] ∧
      authoredBy (run (VoteState.step smallVoteEnv) (VoteState.empty 1000) repeatedVotes).toCMasternodePayments
        1002 ⟨7, 0⟩ = [1001002000] ∧
      OneVotePerHeight (run (VoteState.step smallVoteEnv)
        (VoteState.empty 1000) repeatedVotes).toCMasternodePayments := by
  refine ⟨by decide +kernel, by decide +kernel, oneVotePerHeight_run 1000 _ ?_⟩
  intro p hp
  simp only [repeatedVotes, map_cons, map_nil, trace, mem_cons, not_mem_nil, or_false] at hp
  rcases hp with rfl | rfl | rfl
  · exact fun _ _ _ _ hne => absurd (by decide +kernel) hne
  · exact fun _ _ _ _ _ => by decide +kernel
  · exact fun _ _ _ _ hne => absurd (by decide +kernel) hne

/-- Two votes of one node for one height are counted. -/
theorem twoVotes_counted :
    ∃ actions, (∀ a ∈ actions, ∃ vote, a = VoteAction.message oneNode 250000 vote) ∧
      ¬OneVotePerHeight (run (VoteState.step smallVoteEnv) (VoteState.empty 1000) actions).toCMasternodePayments := by
  refine ⟨[.message oneNode 250000 (smallVote 1001 [0x51] [1]), .message oneNode 250000 (smallVote 1002 [0x51] [1]),
    .message oneNode 250000 (smallVote 1001 [0x51, 0x51] [1])], ?_, ?_⟩
  · simp
  · intro hone
    exact absurd (hone 1001 ⟨7, 0⟩) (by decide +kernel)

end Qstees.Proofs
