import Qstees.Proofs.LockEquivocation

/-!
# The hashes of voted outpoints

`Vote` follows every hash that `mapVotedOutpoints` holds for an outpoint to its candidate, without a check that there is
one.
-/

namespace Qstees.Proofs

open CInstantSend Runs List

variable {E : InstantSendEnv}

/-- The candidates of the hashes held for an outpoint are there and lock it. -/
structure HashesFit (s : CInstantSend) : Prop where
  keyed : Keyed s
  listed : ∀ (o : COutPoint) (h : UInt256), h ∈ s.votedHashes o →
    ∃ c : CTxLockCandidate, s.mapTxLockCandidates[h]? = some c ∧ o ∈ c.mapOutPointLocks

variable {s s' : CInstantSend} {key : UInt256} {o : COutPoint} {vote : CTxLockVote}

section

variable (hs : HashesFit s)
include hs

lemma HashesFit.grows (hgrows : MemoryGrows s s')
    (hnew : ∀ o h, h ∈ s'.votedHashes o → h ∈ s.votedHashes o ∨ (lockAt s' h o).isSome) : HashesFit s' where
  keyed := hgrows.keyed hs.keyed
  listed o h hh := by
    apply isSome_lockAt_iff.mp
    rcases hnew o h hh with hold | hfit
    · exact hgrows.locks h o (isSome_lockAt_iff.mpr (hs.listed o h hold))
    · exact hfit

lemma HashesFit.extend (h : LocksExtend E s s') : HashesFit s' := by
  apply hs.grows h.grows
  intro o hash hh
  rw [votedHashes, h.voted] at hh
  exact .inl hh

lemma HashesFit.voteAdded (h : VoteAdded vote s s')
    (hasked : vote.txHash ∈ s.votedHashes vote.outpoint) : HashesFit s' := by
  apply hs.grows (h.grows hasked)
  intro o hash hh
  rw [votedHashes, h.hashes] at hh
  exact .inl hh

lemma HashesFit.addVotedHash {h : UInt256} (hlock : (lockAt s h o).isSome) :
    HashesFit (s.addVotedHash o h) := by
  apply hs.grows (grows_addVotedHash s o h)
  intro o' h' hh
  rcases (mem_votedHashes_addVotedHash _ _ _ _ _).mp hh with ⟨rfl, rfl⟩ | hold
  · exact .inr hlock
  · exact .inl hold

lemma HashesFit.checkAndRemove (ctx : InstantSendContext) :
    HashesFit (s.checkAndRemove E ctx) := by
  by_cases hsynced : ctx.isMasternodeListSynced = true
  · have hclean := checkAndRemove_cleansUp (E := E) hsynced s
    refine ⟨fun k c hc => hs.keyed k c (hclean.only k c hc).1, ?_⟩
    intro o h hh
    by_cases hexpires : LockExpires E s o
    · rw [((checkAndRemove_maps hsynced s o).1 hexpires).1] at hh
      exact absurd hh Std.ExtTreeSet.not_mem_empty
    · rw [((checkAndRemove_maps hsynced s o).2 hexpires).1] at hh
      obtain ⟨c, hc, ho⟩ := hs.listed o h hh
      exact ⟨c, hclean.stays h c hc (fun hex => hexpires ⟨h, c, hc, hex, ho⟩), ho⟩
  · rw [CInstantSend.checkAndRemove, if_pos (by simpa using hsynced)]
    exact hs

lemma HashesFit.dropConflicting (ctx : InstantSendContext)
    (txHash hashConflicting : UInt256) :
    HashesFit (s.dropConflicting E ctx txHash hashConflicting) := by
  unfold CInstantSend.dropConflicting
  split
  · next c c' hc hc' =>
    have hfirst := hs.extend (extend_setHeight (E := E) hc 0)
    -- the second candidate may be the first one, with its height set already
    have hsecond : LocksExtend E (s.setCandidate txHash { c with nConfirmedHeight := 0 })
        ((s.setCandidate txHash { c with nConfirmedHeight := 0 }).setCandidate hashConflicting
          { c' with nConfirmedHeight := 0 }) := by
      by_cases hk : txHash = hashConflicting
      · subst hk
        cases hc.symm.trans hc'
        exact extend_setHeight (c := { c with nConfirmedHeight := 0 }) (by rw [setCandidate_lookup, if_pos rfl]) 0
      · exact extend_setHeight (by rw [setCandidate_lookup, if_neg hk, hc']) 0
    have hclean := (hfirst.extend hsecond).checkAndRemove (E := E) ctx
    exact ⟨hclean.keyed, hclean.listed⟩
  · exact hs

lemma HashesFit.tryToFinalizeAt (ctx : InstantSendContext) (key : UInt256) :
    HashesFit (s.tryToFinalizeAt E ctx key) := by
  unfold CInstantSend.tryToFinalizeAt
  split
  · exact hs
  next c hc =>
  rcases tryToFinalize_cases (E := E) ctx s c with ⟨-, hsame⟩ | ⟨hash, -, -, -, hdrop⟩ | ⟨-, -, hlock⟩
  · rw [hsame]
    exact hs
  · rw [hdrop]
    exact hs.dropConflicting ctx _ _
  · obtain ⟨locked, hlocked⟩ := lockTransactionInputs_eq ctx s c
    rw [hlock, hlocked]
    exact ⟨hs.keyed, hs.listed⟩

end

lemma HashesFit.finish {t : Attempt} (hs : HashesFit t.1) (ctx : InstantSendContext) : HashesFit (finish E ctx t) := by
  unfold Qstees.Proofs.finish
  split
  · exact hs
  · exact hs.tryToFinalizeAt ctx _

lemma hashesFit_countAttempt_iff (hs : HashesFit s) (ctx : InstantSendContext) :
    HashesFit (finish E ctx (countAttempt s vote)) ↔ (lockAt s vote.txHash vote.outpoint).isSome := by
  have hmarks := extend_markAll (E := E) s vote (s.votedHashes vote.outpoint).toList
  have hmem := mem_votedHashes_askedFor.mpr (.inl ⟨rfl, rfl⟩ : _ ∨ vote.txHash ∈ s.votedHashes vote.outpoint)
  have hasked : (lockAt s vote.txHash vote.outpoint).isSome → HashesFit (askedFor s vote) :=
    fun hlock => (hs.extend hmarks).addVotedHash (hmarks.isSome hlock)
  rcases countAttempt_cases s vote with hnone | ⟨hlock, hadded, -⟩
  · rw [hnone]
    refine ⟨fun hfit => ?_, fun hlock => hasked hlock⟩
    rw [← isSome_lockAt_askedFor, isSome_lockAt_iff]
    exact hfit.listed vote.outpoint vote.txHash hmem
  · exact ⟨fun _ => hlock, fun _ => ((hasked hlock).voteAdded hadded hmem).finish ctx⟩

lemma alreadyVoted_ne_none {hashes : List UInt256}
    (h : ∀ hash ∈ hashes, ∃ c : CTxLockCandidate, s.mapTxLockCandidates[hash]? = some c ∧ o ∈ c.mapOutPointLocks) :
    s.alreadyVoted E o hashes ≠ none := by
  induction hashes with
  | nil => simp [alreadyVoted]
  | cons hash hashes ih =>
    obtain ⟨c, hc, -⟩ := h hash mem_cons_self
    unfold alreadyVoted
    rw [hc]
    dsimp only
    split_ifs
    · simp
    · exact ih (fun hash' hmem => h hash' (mem_cons_of_mem _ hmem))

lemma HashesFit.recordOwnVote (hs : HashesFit s) : HashesFit (s.recordOwnVote E vote.txHash vote) := by
  have hstored : LocksExtend E s (storedVote E s vote) := extend_of_eq rfl rfl rfl
  rcases recordOwnVote_cases (E := E) s vote with ⟨-, hsame⟩ | ⟨hlock, hadded⟩
  · rw [hsame]
    exact hs.extend hstored
  · exact ((hs.extend hstored).addVotedHash hlock).voteAdded hadded
      ((mem_votedHashes_addVotedHash _ _ _ _ _).mpr (.inl ⟨rfl, rfl⟩))

lemma HashesFit.ownVote (hs : HashesFit s) (ctx : InstantSendContext) (txHash : UInt256) :
    HashesFit (s.vote E ctx txHash).state ∧ (s.vote E ctx txHash).crashed = false := by
  unfold CInstantSend.vote
  split
  · exact ⟨hs, rfl⟩
  next c hc =>
  have hloop : HashesFit (s.voteCandidate E ctx txHash c).state ∧
    (s.voteCandidate E ctx txHash c).crashed = false := by
    rcases voteCandidate_cases (E := E) ctx hs.keyed hc with hnothing | hvoted
    · rw [hnothing]
      exact ⟨hs, rfl⟩
    rw [hvoted]
    obtain ⟨hfit, hcrash⟩ := voteOutpoints_induct (P := fun t _ => HashesFit t) (E := E) ctx txHash
      c.mapOutPointLocks.keys (fun t _ o _ vote _ _ ht _ _ _ _ hsigned =>
        (signedVote_eq hsigned).1 ▸ ht.recordOwnVote)
      [] hs
    refine ⟨hfit, Bool.eq_false_iff.mpr fun hcrashed => ?_⟩
    obtain ⟨t, -, o, ht, hnone⟩ := hcrash hcrashed
    exact alreadyVoted_ne_none (fun hash hmem => ht.listed o hash (Std.ExtTreeSet.mem_toList.mp hmem)) hnone
  dsimp only
  rw [if_neg (by simp [hloop.2])]
  exact ⟨hloop.1.tryToFinalizeAt ctx txHash, hloop.2⟩

variable (E) in
/-- Condition on a step: a vote that is counted is for an outpoint that its candidate locks. -/
def VotesForInputs (s : CInstantSend) (a : InstantSendContext × Action) : Prop :=
  match a.2 with
  | .message nVersion vote =>
    heardVote a.1 nVersion = true → vote.getHash E ∉ s.mapTxLockVotes → vote.isValid E a.1 = true →
      ∀ c : CTxLockCandidate, s.mapTxLockCandidates[vote.txHash]? = some c → c.txLockRequest.isSet E = true →
        c.isTimedOut a.1 = false → vote.outpoint ∈ c.mapOutPointLocks
  | _ => True

lemma processMessage_hashes (hs : HashesFit s) (ctx : InstantSendContext) (nVersion : Int)
    (vote : CTxLockVote) :
    HashesFit (s.processMessage E ctx nVersion vote).2 ↔ VotesForInputs E s (ctx, .message nVersion vote) := by
  have hseen := hs.extend (extend_seenVote (E := E) s vote)
  rw [processMessage_eq_finish]
  rcases messageAttempt_cases (E := E) ctx nVersion s vote with ⟨c, hreaches, hcount⟩ | ⟨hnot, hattempt⟩
  · obtain ⟨hheard, hunseen, hvalid, hc, hset, htime⟩ := hreaches
    rw [hcount, hashesFit_countAttempt_iff hseen, show lockAt (seenVote E s vote) vote.txHash vote.outpoint = _ from
      lockAt_of_candidate hc vote.outpoint, ← Std.ExtTreeMap.mem_iff_isSome_getElem?]
    constructor
    · intro hlock _ _ _ c' hc' _ _
      cases hc.symm.trans hc'
      exact hlock
    · exact fun hcond => hcond hheard hunseen hvalid c hc hset htime
  · refine iff_of_true ?_ (fun hheard hunseen hvalid c hc hset htime =>
      absurd ⟨hheard, hunseen, hvalid, hc, hset, htime⟩ (hnot c))
    apply HashesFit.finish
    rcases hattempt with hsame | hsame | horphan
    · rwa [hsame]
    · rwa [hsame]
    · rw [horphan]
      exact hseen.extend (extend_orphanAttempt ctx _ vote)

lemma hashesFit_step_iff (hs : HashesFit s) (a : InstantSendContext × Action) :
    HashesFit (s.step E a) ↔ VotesForInputs E s a := by
  obtain ⟨ctx, action⟩ := a
  cases action with
  | request request =>
    refine iff_of_true ?_ trivial
    rw [step_eq_finish]
    exact (hs.extend (extend_requestAttempt ctx s request)).finish ctx
  | accept request => exact iff_of_true (hs.extend (E := E) (extend_of_eq rfl rfl rfl)) trivial
  | reject request => exact iff_of_true (hs.extend (E := E) (extend_of_eq rfl rfl rfl)) trivial
  | vote txHash => exact iff_of_true (hs.ownVote ctx txHash).1 trivial
  | message nVersion vote => exact processMessage_hashes hs ctx nVersion vote
  | syncTransaction tx nHeight => exact iff_of_true (hs.extend (extend_syncTransaction ctx s tx nHeight)) trivial
  | updatedBlockTip nHeight => exact iff_of_true (hs.extend (E := E) (extend_of_eq rfl rfl rfl)) trivial
  | checkAndRemove => exact iff_of_true (hs.checkAndRemove ctx) trivial

/-- In a run whose steps all meet the condition, the hashes held for an outpoint have candidates that lock it, and
`Vote` finds them. -/
theorem hashesFit_run (actions : List (InstantSendContext × Action))
    (hcond : ∀ p ∈ trace (CInstantSend.step E) {} actions, VotesForInputs E p.1 p.2) :
    (∀ (o : COutPoint) (h : UInt256), h ∈ (run (CInstantSend.step E) {} actions).votedHashes o →
      ∃ c : CTxLockCandidate, (run (CInstantSend.step E) {} actions).mapTxLockCandidates[h]? = some c ∧
        o ∈ c.mapOutPointLocks) ∧
    ∀ ctx txHash, ((run (CInstantSend.step E) {} actions).vote E ctx txHash).crashed = false := by
  have hinit : HashesFit {} := by
    refine ⟨fun key c hc => by simp at hc, fun o h hh => ?_⟩
    simp [votedHashes] at hh
  have hfit : HashesFit (run (CInstantSend.step E) {} actions) :=
    invariant (P := HashesFit) (fun _ a hs ha => (hashesFit_step_iff hs a).mpr ha) hinit hcond
  exact ⟨hfit.listed, fun ctx txHash => (hfit.ownVote ctx txHash).2⟩

theorem hashesFit_run_vote :
    (run (CInstantSend.step smallLockEnv) {} ((firstTen, .request (coinRequest 51)) ::
      votesOf firstTen 51 [2])).votedHashes ⟨77, 0⟩ = Std.ExtTreeSet.ofList [51] ∧
      ∀ ctx txHash, ((run (CInstantSend.step smallLockEnv) {}
        ((firstTen, .request (coinRequest 51)) :: votesOf firstTen 51 [2])).vote smallLockEnv ctx txHash).crashed =
          false := by
  refine ⟨by decide +kernel, (hashesFit_run _ ?_).2⟩
  intro p hp
  simp only [votesOf, map_cons, map_nil, trace, mem_cons, not_mem_nil, or_false] at hp
  rcases hp with rfl | rfl
  · trivial
  intro _ _ _ c hc _ _
  have hlock :
    ((CInstantSend.step smallLockEnv {} (firstTen, .request (coinRequest 51))).mapTxLockCandidates[51]?).all
      (fun c => c.mapOutPointLocks.contains ⟨77, 0⟩) = true := by
    decide +kernel
  rw [show (CInstantSend.step smallLockEnv {} (firstTen, .request (coinRequest 51))).mapTxLockCandidates[51]? = some c
    from hc] at hlock
  exact Std.ExtTreeMap.contains_iff_mem.mp hlock

def twoCoins (spent : Bool) : InstantSendContext :=
  { firstTen with
    getUTXOCoin := fun o =>
      if o = ⟨78, 0⟩ ∨ (o = ⟨77, 0⟩ ∧ spent = false) then some ⟨⟨10 * COIN, [0x51], -10⟩, false, 100⟩ else none }

def secondRequest : CTxLockRequest :=
  ⟨{ vin := [⟨⟨78, 0⟩, [], SEQUENCE_FINAL, []⟩], vout := [⟨9 * COIN, [0x51], -10⟩], hash := 52 }⟩

/-- Masternode 2 votes to lock the second coin for transaction 51, which spends the first. -/
def strayVote : List (InstantSendContext × Action) :=
  [(twoCoins false, .request (coinRequest 51)),
    (twoCoins false, .message 250000
      { txHash := 51, outpoint := ⟨78, 0⟩, outpointMasternode := ⟨2, 0⟩, vchMasternodeSignature :=
        [2], nTimeCreated := 1000 })]

/-- Transaction 51 is mined and its candidate expires; then the second coin is to be locked. -/
def strayVoteLater : List (InstantSendContext × Action) :=
  [(twoCoins true, .syncTransaction (coinRequest 51).tx (some 201)), (twoCoins true, .updatedBlockTip 226),
    (twoCoins true, .checkAndRemove), (twoCoins true, .request secondRequest), (twoCoins true, .accept secondRequest)]

/-- A vote for an outpoint outside the request outlives it. -/
theorem strayVote_dangles :
    51 ∈ (run (CInstantSend.step smallLockEnv) {} strayVote).votedHashes ⟨78, 0⟩ ∧
      ((run (CInstantSend.step smallLockEnv) {} strayVote).mapTxLockCandidates[51]?).any
        (fun c => c.mapOutPointLocks.contains ⟨78, 0⟩) = false ∧
      51 ∈ (run (CInstantSend.step smallLockEnv) {} (strayVote ++ strayVoteLater)).votedHashes ⟨78, 0⟩ ∧
      ((run (CInstantSend.step smallLockEnv) {} (strayVote ++ strayVoteLater)).mapTxLockCandidates[51]?).isNone = true ∧
      ((run (CInstantSend.step smallLockEnv) {} (strayVote ++ strayVoteLater)).vote smallLockEnv
        (twoCoins true) 52).crashed = true := by
  decide +kernel

end Qstees.Proofs
