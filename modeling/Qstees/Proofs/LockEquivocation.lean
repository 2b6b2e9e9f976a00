import Qstees.Library.Runs
import Qstees.Proofs.LockCleanup

/-!
# Equivocation

A masternode that remembers its votes signs no two for one outpoint.
-/

namespace Qstees.Proofs

open CInstantSend Runs List Std.ExtTreeMap

variable {E : InstantSendEnv}

variable {s : CInstantSend} {o : COutPoint} {ctx : InstantSendContext}

lemma not_hasVote_of_alreadyVoted {hashes : List UInt256}
    (h : s.alreadyVoted E o hashes = some false) :
    ∀ hash ∈ hashes, ¬HasVote s hash o E.activeOutpoint := by
  induction hashes with
  | nil =>
    intro hash hmem
    cases hmem
  | cons first hashes ih =>
    unfold alreadyVoted at h
    split at h
    · cases h
    next c hc =>
    split_ifs at h with hvoted
    · cases h
    · intro hash hmem
      rcases mem_cons.mp hmem with rfl | hmem
      · rw [hasVote_iff]
        rintro ⟨c', hc', hvoted'⟩
        cases hc.symm.trans hc'
        exact hvoted hvoted'
      · exact ih h hash hmem

lemma not_voted_of_alreadyVoted (hs : Remembers E s)
    (h : s.alreadyVoted E o (s.votedHashes o).toList = some false) (key : UInt256) :
    ¬HasVote s key o E.activeOutpoint := by
  intro hvote
  have hasked := hs.asked key o hvote
  exact not_hasVote_of_alreadyVoted h key (Std.ExtTreeSet.mem_toList.mpr hasked) hvote

lemma signedVote_eq {txHash : UInt256} {vote : CTxLockVote}
    (h : signedVote E ctx txHash o = some vote) :
    vote.txHash = txHash ∧ vote.outpoint = o ∧ vote.outpointMasternode = E.activeOutpoint := by
  unfold signedVote CTxLockVote.sign at h
  split at h
  · cases h
  next vote' hsign =>
  split_ifs at h
  cases h
  split at hsign
  · cases hsign
  · split_ifs at hsign
    cases hsign
    exact ⟨rfl, rfl, rfl⟩

/-- The votes signed so far, from a state on: they are the first of this masternode for their outpoints. -/
structure VoteLoop (s : CInstantSend) (key : UInt256) (t : CInstantSend) (signed : List CTxLockVote) : Prop where
  grows : MemoryGrows s t
  same : SameRequests s t
  hash : ∀ vote ∈ signed, vote.txHash = key
  first : ∀ vote ∈ signed, ∀ k, ¬HasVote s k vote.outpoint E.activeOutpoint
  kept : ∀ vote ∈ signed, HasVote t key vote.outpoint E.activeOutpoint

lemma voteLoop_nothing (s : CInstantSend) (key : UInt256) : VoteLoop (E := E) s key s [] :=
  ⟨MemoryGrows.refl s, SameRequests.refl s, nofun, nofun, nofun⟩

lemma VoteLoop.record {t : CInstantSend} {key : UInt256} {vote : CTxLockVote} {signed : List CTxLockVote}
    (h : VoteLoop (E := E) s key t signed) (hs : Remembers E s) (hlock : (lockAt s key o).isSome)
    (hnot : t.alreadyVoted E o (t.votedHashes o).toList = some false) (hsigned : signedVote E ctx key o = some vote) :
    VoteLoop (E := E) s key (t.recordOwnVote E key vote) (signed ++ [vote]) := by
  obtain ⟨rfl, rfl, hmn⟩ := signedVote_eq hsigned
  have hfresh := not_voted_of_alreadyVoted (h.grows.remembers hs) hnot
  have hnew : (lockAt t vote.txHash vote.outpoint).isSome ∧
    ¬HasVote t vote.txHash vote.outpoint vote.outpointMasternode :=
    ⟨h.grows.locks _ _ hlock, hmn ▸ hfresh _⟩
  rcases recordOwnVote_cases (E := E) t vote with ⟨hold, -⟩ | ⟨-, hadded⟩
  · exact absurd hnew hold
  have hstored : LocksExtend E t (storedVote E t vote) := extend_of_eq rfl rfl rfl
  have hgrows : MemoryGrows t (t.recordOwnVote E vote.txHash vote) :=
    (hstored.grows.trans (grows_addVotedHash _ _ _)).trans
      (hadded.grows ((mem_votedHashes_addVotedHash _ _ _ _ _).mpr (.inl ⟨rfl, rfl⟩)))
  have hsame := hadded.sameRequests
  refine ⟨h.grows.trans hgrows, h.same.trans ⟨hsame.requests, hsame.locked⟩, ?_, ?_, ?_⟩
  · rw [forall_mem_append, forall_mem_singleton]
    exact ⟨h.hash, rfl⟩
  · rw [forall_mem_append, forall_mem_singleton]
    exact ⟨h.first, fun k hvote => hfresh k (h.grows.votes k _ _ hvote)⟩
  · rw [forall_mem_append, forall_mem_singleton]
    exact ⟨fun v hv => hgrows.votes _ _ _ (h.kept v hv), (hadded.votes _ _ _).mpr (.inr ⟨rfl, rfl, hmn.symm⟩)⟩

lemma vote_loop (hs : Remembers E s) {txHash : UInt256} (h : UncontestedAt s txHash)
    (ctx : InstantSendContext) : MemoryGrows s (s.vote E ctx txHash).state ∧
      (∀ vote ∈ (s.vote E ctx txHash).signed, vote.txHash = txHash) ∧
      (∀ vote ∈ (s.vote E ctx txHash).signed, ∀ k, ¬HasVote s k vote.outpoint E.activeOutpoint) ∧
      ∀ vote ∈ (s.vote E ctx txHash).signed,
        HasVote (s.vote E ctx txHash).state txHash vote.outpoint E.activeOutpoint := by
  unfold CInstantSend.vote
  split
  · obtain ⟨hgrows, -, hhash, hfirst, hkept⟩ := voteLoop_nothing (E := E) s txHash
    exact ⟨hgrows, hhash, hfirst, hkept⟩
  next c hc =>
  have hloop :
    VoteLoop (E := E) s txHash (s.voteCandidate E ctx txHash c).state (s.voteCandidate E ctx txHash c).signed := by
    rcases voteCandidate_cases (E := E) ctx hs.keyed hc with hnothing | hvoted
    · rw [hnothing]
      exact voteLoop_nothing s txHash
    · rw [hvoted]
      refine (voteOutpoints_induct ctx txHash _ (fun t signed o ho vote coin nRank hloop _ _ _ hnot hsigned => ?_)
        [] (voteLoop_nothing s txHash)).1
      exact hloop.record hs (isSome_lockAt_iff.mpr ⟨c, hc, mem_keys.mp ho⟩) hnot hsigned
  dsimp only
  split_ifs
  · exact ⟨hloop.grows, hloop.hash, hloop.first, hloop.kept⟩
  · have hfinal : MemoryGrows (s.voteCandidate E ctx txHash c).state
        ((s.voteCandidate E ctx txHash c).state.tryToFinalizeAt E ctx txHash) :=
      grows_finish (t := (_, some txHash)) (fun _ hkey => Option.some.inj hkey ▸ hloop.same.uncontestedAt h) ctx
    exact ⟨hloop.grows.trans hfinal, hloop.hash, hloop.first,
      fun vote hvote => hfinal.votes txHash _ _ (hloop.kept vote hvote)⟩

variable (E) in
/-- Condition on a clean-up: where an outpoint of an expired candidate has an own vote, in whichever candidate, the
outpoint is spent and that candidate is expired too. -/
def ForgetsSpentOnly (ctx : InstantSendContext) (s : CInstantSend) : Prop :=
  ∀ (k : UInt256) (c : CTxLockCandidate), s.mapTxLockCandidates[k]? = some c → Expired E s c → ∀ o ∈ c.mapOutPointLocks,
    ∀ (k' : UInt256) (c' : CTxLockCandidate), s.mapTxLockCandidates[k']? = some c' →
      c'.hasMasternodeVoted o E.activeOutpoint = true → ctx.getUTXOCoin o = none ∧ Expired E s c'

lemma mem_locks_of_hasMasternodeVoted {c : CTxLockCandidate} {mn : COutPoint}
    (h : c.hasMasternodeVoted o mn = true) : o ∈ c.mapOutPointLocks := by
  rw [mem_iff_isSome_getElem?]
  unfold CTxLockCandidate.hasMasternodeVoted at h
  split at h
  · cases h
  · next lock hlock =>
    rw [hlock]
    rfl

lemma CleansUp.remembers {s' : CInstantSend} (h : CleansUp (E := E) s s')
    (hcond : ForgetsSpentOnly E ctx s) (hs : Remembers E s) : Remembers E s' where
  keyed k c hc o ho := hs.keyed k c (h.only k c hc).1 o ho
  asked k o hvote := by
    obtain ⟨c, hc, hvoted⟩ := (hasVote_iff s' k o _).mp hvote
    obtain ⟨hbefore, hlive⟩ := h.only k c hc
    rw [h.hashes o]
    · exact hs.asked k o ((hasVote_iff s k o _).mpr ⟨c, hbefore, hvoted⟩)
    · intro k' c' hc' hex ho
      exact hlive (hcond k' c' hc' hex o ho k c hbefore hvoted).2

lemma CleansUp.keeps {s' : CInstantSend} (h : CleansUp (E := E) s s')
    (hcond : ForgetsSpentOnly E ctx s) {k : UInt256} (hvote : HasVote s k o E.activeOutpoint)
    (hunspent : (ctx.getUTXOCoin o).isSome) : HasVote s' k o E.activeOutpoint := by
  obtain ⟨c, hc, hvoted⟩ := (hasVote_iff s k o _).mp hvote
  have hlive : ¬Expired E s c := by
    intro hex
    have hspent := (hcond k c hc hex o (mem_locks_of_hasMasternodeVoted hvoted) k c hc hvoted).1
    rw [hspent] at hunspent
    cases hunspent
  exact (hasVote_iff s' k o _).mpr ⟨c, h.stays k c hc hlive, hvoted⟩

variable (E) in
/-- Condition on a step: a lock that it completes is not contested by another completed lock, and a clean-up forgets
spent outpoints only. -/
def KeepsMemory (s : CInstantSend) (a : InstantSendContext × Action) : Prop :=
  match a.2 with
  | .request request => RequestUncontested E s request
  | .vote txHash => UncontestedAt s txHash
  | .message _ vote => VoteUncontested E s vote.txHash
  | .checkAndRemove => a.1.isMasternodeListSynced = true → ForgetsSpentOnly E a.1 s
  | _ => True

structure StepMemory (s : CInstantSend) (a : InstantSendContext × Action) : Prop where
  remembers : Remembers E (s.step E a)
  keeps : ∀ k o, HasVote s k o E.activeOutpoint → (a.1.getUTXOCoin o).isSome → HasVote (s.step E a) k o E.activeOutpoint
  agree : ∀ v ∈ s.signedBy E a, ∀ w ∈ s.signedBy E a, v.txHash = w.txHash
  first : ∀ v ∈ s.signedBy E a, ∀ k, ¬HasVote s k v.outpoint E.activeOutpoint
  kept : ∀ v ∈ s.signedBy E a, HasVote (s.step E a) v.txHash v.outpoint E.activeOutpoint

lemma stepMemory_of_grows {a : InstantSendContext × Action} (hs : Remembers E s)
    (hgrows : MemoryGrows s (s.step E a)) (hsigned : s.signedBy E a = []) :
    StepMemory (E := E) s a where
  remembers := hgrows.remembers hs
  keeps k o hvote _ := hgrows.votes k o _ hvote
  agree v hv := by simp [hsigned] at hv
  first v hv := by simp [hsigned] at hv
  kept v hv := by simp [hsigned] at hv

lemma stepMemory {a : InstantSendContext × Action} (hs : Remembers E s) (ha : KeepsMemory E s a) :
    StepMemory (E := E) s a := by
  obtain ⟨ctx, action⟩ := a
  cases action with
  | request request =>
    refine stepMemory_of_grows hs ?_ rfl
    rw [step_eq_finish]
    exact (extend_requestAttempt ctx s request).grows.trans
      (grows_finish (fun _ hkey => uncontested_requestAttempt ha ctx hkey) ctx)
  | accept request => exact stepMemory_of_grows hs (LocksExtend.grows (E := E) (extend_of_eq rfl rfl rfl)) rfl
  | reject request => exact stepMemory_of_grows hs (LocksExtend.grows (E := E) (extend_of_eq rfl rfl rfl)) rfl
  | vote txHash =>
    obtain ⟨hgrows, hhash, hfirst, hkept⟩ := vote_loop hs ha ctx
    refine ⟨hgrows.remembers hs, fun k o hvote _ => hgrows.votes k o _ hvote, ?_, hfirst, ?_⟩
    · intro v hv w hw
      exact (hhash v hv).trans (hhash w hw).symm
    · intro v hv
      rw [hhash v hv]
      exact hkept v hv
  | message nVersion vote =>
    obtain ⟨hgrows, hfree⟩ := messageAttempt_spec ha ctx nVersion
    refine stepMemory_of_grows hs ?_ rfl
    rw [step_eq_finish]
    exact hgrows.trans (grows_finish hfree ctx)
  | syncTransaction tx nHeight => exact stepMemory_of_grows hs (extend_syncTransaction ctx s tx nHeight).grows rfl
  | updatedBlockTip nHeight => exact stepMemory_of_grows hs (LocksExtend.grows (E := E) (extend_of_eq rfl rfl rfl)) rfl
  | checkAndRemove =>
    by_cases hsynced : ctx.isMasternodeListSynced = true
    · have hclean := checkAndRemove_cleansUp (E := E) hsynced s
      refine ⟨hclean.remembers (ha hsynced) hs, fun k o hvote hunspent =>
        hclean.keeps (ha hsynced) hvote hunspent, ?_, ?_, ?_⟩
      · intro v hv
        cases hv
      · intro v hv
        cases hv
      · intro v hv
        cases hv
    · apply stepMemory_of_grows hs _ rfl
      have hnothing : s.step E (ctx, .checkAndRemove) = s := by
        change s.checkAndRemove E ctx = s
        rw [CInstantSend.checkAndRemove, if_pos (by simpa using hsynced)]
      rw [hnothing]
      exact MemoryGrows.refl s

abbrev LockStep := CInstantSend × (InstantSendContext × Action)

variable (E) in
/-- No two votes for one outpoint are for different transactions, if the outpoint is unspent at every step from the one
to the other. -/
def NeverEquivocates (steps : List LockStep) : Prop :=
  ∀ (i j : Nat) (p q : LockStep), i ≤ j → steps[i]? = some p → steps[j]? = some q → ∀ v ∈ p.1.signedBy E p.2,
    ∀ w ∈ q.1.signedBy E q.2,
    v.outpoint = w.outpoint → (∀ (k : Nat) (r : LockStep), i ≤ k → k ≤ j → steps[k]? = some r →
      (r.2.1.getUTXOCoin v.outpoint).isSome) →
    v.txHash = w.txHash

variable (E) in
/-- The node signs a vote for the outpoint in this step. -/
def Signs (s : CInstantSend) (a : InstantSendContext × Action) (o : COutPoint) (txHash : UInt256) : Prop :=
  ∃ v ∈ s.signedBy E a, v.outpoint = o ∧ v.txHash = txHash

lemma votes_remembered : Runs.Remembered (CInstantSend.step E) (Remembers E) (KeepsMemory E) (Signs E)
    (fun a o => (a.1.getUTXOCoin o).isSome) (fun s o h => HasVote s h o E.activeOutpoint) where
  invariant s a hs ha := (stepMemory hs ha).remembers
  one := by
    rintro s a o _ _ hs ha ⟨v, hv, -, rfl⟩ ⟨w, hw, -, rfl⟩
    exact (stepMemory hs ha).agree v hv w hw
  known := by
    rintro s a o h _ hs ha hvote ⟨w, hw, rfl, -⟩
    exact absurd hvote ((stepMemory hs ha).first w hw h)
  stored := by
    rintro s a _ _ hs ha ⟨v, hv, rfl, rfl⟩
    exact (stepMemory hs ha).kept v hv
  kept s a o h hs ha hvote hunspent := (stepMemory hs ha).keeps h o hvote hunspent

lemma remembers_init : Remembers E {} where
  keyed key c hc := by simp at hc
  asked key o hvote := by
    obtain ⟨c, hc, -⟩ := (hasVote_iff {} key o _).mp hvote
    simp at hc

def otherTen : InstantSendContext :=
  lockContext (fun o => if o.hash = 1 then some 1 else if 7 ≤ o.hash ∧
    o.hash ≤ 15 then some (o.hash - 5 : Nat) else none)

def requestAndVote (ctx : InstantSendContext) (hash : UInt256) : List (InstantSendContext × Action) :=
  [(ctx, .request (coinRequest hash)), (ctx, .accept (coinRequest hash)), (ctx, .vote hash)]

def votesOf (ctx : InstantSendContext) (hash : UInt256) (masternodes : List Nat) : List (InstantSendContext × Action) :=
  masternodes.map (fun mn => (ctx, .message 250000 (coinVote hash mn [UInt8.ofNat mn])))

/-- In a run whose steps all meet the condition, a masternode never signs votes for two transactions on an outpoint that
stays unspent. -/
theorem never_equivocates (actions : List (InstantSendContext × Action))
    (h : ∀ p ∈ trace (CInstantSend.step E) {} actions, KeepsMemory E p.1 p.2) :
    NeverEquivocates E (trace (CInstantSend.step E) {} actions) := by
  intro i j p q hij hp hq v hv w hw ho hunspent
  exact votes_remembered.agree remembers_init h i j p q hij hp hq v.outpoint v.txHash w.txHash ⟨v, hv, rfl, rfl⟩
    ⟨w, hw, ho.symm, rfl⟩ hunspent

theorem never_equivocates_two_requests :
    ((trace (CInstantSend.step smallLockEnv) {} (requestAndVote firstTen 51 ++ requestAndVote firstTen 52)).flatMap
        (fun p => p.1.signedBy smallLockEnv p.2)).map CTxLockVote.txHash = [51] ∧
      NeverEquivocates smallLockEnv
        (trace (CInstantSend.step smallLockEnv) {} (requestAndVote firstTen 51 ++ requestAndVote firstTen 52)) := by
  refine ⟨by decide +kernel, never_equivocates _ ?_⟩
  -- nothing is locked before any step of this run
  have hunlocked : ∀ p ∈ trace (CInstantSend.step smallLockEnv) {}
    (requestAndVote firstTen 51 ++ requestAndVote firstTen 52), p.1.mapLockedOutpoints.isEmpty = true := by
    decide +kernel
  intro p hp
  have hnone : ∀ request, Uncontested p.1 request := by
    intro request txin _ h hh
    have hempty := isEmpty_iff.mp (hunlocked p hp)
    rw [hempty] at hh
    simp at hh
  obtain ⟨s, ctx, action⟩ := p
  cases action with
  | request request => exact ⟨hnone request, fun c _ _ => hnone _⟩
  | vote txHash => exact fun c _ => hnone _
  | message nVersion vote => exact ⟨fun c _ => hnone _, fun request _ => ⟨hnone request, fun c _ _ => hnone _⟩⟩
  | checkAndRemove =>
    have hnot := mem_of_mem_trace hp
    simp [requestAndVote] at hnot
  | accept request => trivial
  | reject request => trivial
  | syncTransaction tx nHeight => trivial
  | updatedBlockTip nHeight => trivial

/-- Transaction 51 is locked with the own vote; then the list of masternodes changes and transaction 52 gets a lock of
others. Both candidates are dropped, and the masternode votes for transaction 53 on the same unspent coin. -/
def conflictingLocks : List (InstantSendContext × Action) :=
  (firstTen, .updatedBlockTip 200) :: requestAndVote firstTen 51 ++ votesOf firstTen 51 [2, 3, 4, 5, 6] ++
    [(otherTen, .request (coinRequest 52))] ++ votesOf otherTen 52 [7, 8, 9, 10, 11, 12] ++ requestAndVote otherTen 53

theorem conflictingLocks_equivocate :
    ¬NeverEquivocates smallLockEnv (trace (CInstantSend.step smallLockEnv) {} conflictingLocks) := by
  intro h
  have hfirst : ((trace (CInstantSend.step smallLockEnv) {} conflictingLocks)[3]?).map
      (fun p => p.1.signedBy smallLockEnv p.2) = some [coinVote 51 1 [1]] := by
    decide +kernel
  have hsecond : ((trace (CInstantSend.step smallLockEnv) {} conflictingLocks)[18]?).map
      (fun p => p.1.signedBy smallLockEnv p.2) = some [coinVote 53 1 [1]] := by
    decide +kernel
  have hunspent : ∀ r ∈ trace (CInstantSend.step smallLockEnv) {} conflictingLocks,
      (r.2.1.getUTXOCoin ⟨77, 0⟩).isSome = true := by
    decide +kernel
  obtain ⟨p, hp, hv⟩ := Option.map_eq_some_iff.mp hfirst
  obtain ⟨q, hq, hw⟩ := Option.map_eq_some_iff.mp hsecond
  have hsame := h 3 18 p q (by decide) hp hq (coinVote 51 1 [1]) (by simp [hv]) (coinVote 53 1 [1]) (by simp [hw]) rfl
    (fun k r _ _ hr => hunspent r (mem_of_getElem? hr))
  exact absurd hsame (by decide)

end Qstees.Proofs
