import Qstees.Proofs.LockVotes

/-!
# Attempts to complete a lock

A step tries to complete the lock of at most one candidate, and as the last thing it does.
-/

namespace Qstees.Proofs

open CInstantSend

variable (E : InstantSendEnv) (ctx : InstantSendContext)

/-- A state, and the key of a candidate if its lock is to be completed there. -/
abbrev Attempt := CInstantSend × Option UInt256

variable (s : CInstantSend) (request : CTxLockRequest)

def requestAttempt : Attempt :=
  match s.createTxLockCandidate E ctx request with
  | (false, s) => (s, none)
  | (true, s) => (s, some request.getHash)

variable (vote : CTxLockVote)

def orphanStored : CInstantSend :=
  { s.createEmptyTxLockCandidate E ctx vote.txHash with
    mapTxLockVotesOrphan := s.mapTxLockVotesOrphan.insert (vote.getHash E) vote }

def orphanAttempt : Attempt :=
  if s.mapTxLockVotesOrphan.contains (vote.getHash E) then ((s.limitOrphanVotes ctx vote).2, none)
  else
    match (s.mapLockRequestAccepted[vote.txHash]?).or s.mapLockRequestRejected[vote.txHash]? with
    | none => (((orphanStored E ctx s vote).limitOrphanVotes ctx vote).2, none)
    | some request =>
      if (orphanStored E ctx s vote).isEnoughOrphanVotesForTx request then
        requestAttempt E ctx (orphanStored E ctx s vote) request
      else (((orphanStored E ctx s vote).limitOrphanVotes ctx vote).2, none)

def askedFor : CInstantSend :=
  ((s.votedHashes vote.outpoint).toList.foldl (fun s hash => s.markConflicting vote hash) s).addVotedHash
    vote.outpoint vote.txHash

def countAttempt : Attempt :=
  match ((askedFor s vote).mapTxLockCandidates[vote.txHash]?).bind (fun candidate => candidate.addVote vote) with
  | none => (askedFor s vote, none)
  | some candidate => ((askedFor s vote).setCandidate vote.txHash candidate, some vote.txHash)

def seenVote : CInstantSend :=
  { s with mapTxLockVotes := s.mapTxLockVotes.insert (vote.getHash E) vote }

def validAttempt : Attempt :=
  match s.mapTxLockCandidates[vote.txHash]? with
  | none => orphanAttempt E ctx s vote
  | some candidate =>
    if !candidate.txLockRequest.isSet E then orphanAttempt E ctx s vote
    else if candidate.isTimedOut ctx then (s, none)
    else countAttempt s vote

variable (nVersion : Int)

def messageAttempt (s : CInstantSend) (vote : CTxLockVote) : Attempt :=
  if !heardVote ctx nVersion || s.mapTxLockVotes.contains (vote.getHash E) then (s, none)
  else if !vote.isValid E ctx then (seenVote E s vote, none)
  else validAttempt E ctx (seenVote E s vote) vote

def voteAttempt (txHash : UInt256) : Attempt :=
  match s.mapTxLockCandidates[txHash]? with
  | none => (s, none)
  | some candidate =>
    let voted := s.voteCandidate E ctx txHash candidate
    (voted.state, if voted.crashed then none else some txHash)

variable (a : InstantSendContext × Action)

def attempt : Attempt :=
  match a.2 with
  | .request request => requestAttempt E a.1 s request
  | .vote txHash => voteAttempt E a.1 s txHash
  | .message nVersion vote => messageAttempt E a.1 nVersion s vote
  | _ => (s.step E a, none)

def finish (t : Attempt) : CInstantSend :=
  match t.2 with
  | none => t.1
  | some key => t.1.tryToFinalizeAt E ctx key

variable {E}

lemma processTxLockRequest_eq_finish :
    (s.processTxLockRequest E ctx request).2 = finish E ctx (requestAttempt E ctx s request) := by
  unfold processTxLockRequest requestAttempt
  obtain ⟨created, s'⟩ := s.createTxLockCandidate E ctx request
  cases created <;> rfl

lemma processOrphanVote_eq_finish :
    (s.processOrphanVote E ctx vote).2 = finish E ctx (orphanAttempt E ctx s vote) := by
  unfold processOrphanVote orphanAttempt
  split_ifs
  · rfl
  dsimp only
  change (match (s.mapLockRequestAccepted[vote.txHash]?).or s.mapLockRequestRejected[vote.txHash]? with
    | none => (orphanStored E ctx s vote).limitOrphanVotes ctx vote
    | some request =>
      if (orphanStored E ctx s vote).isEnoughOrphanVotesForTx request then
        (.reprocessed, ((orphanStored E ctx s vote).processTxLockRequest E ctx request).2)
      else (orphanStored E ctx s vote).limitOrphanVotes ctx vote).2 = _
  cases (s.mapLockRequestAccepted[vote.txHash]?).or s.mapLockRequestRejected[vote.txHash]? with
  | none => rfl
  | some request =>
    dsimp only
    split_ifs
    · exact processTxLockRequest_eq_finish ctx _ request
    · rfl

lemma countVote_eq_finish :
    (s.countVote E ctx vote).2 = finish E ctx (countAttempt s vote) := by
  unfold countVote countAttempt askedFor
  dsimp only
  generalize Option.bind _ _ = added
  cases added <;> rfl

lemma processTxLockVote_eq_finish {s : CInstantSend} {vote : CTxLockVote} (hvalid : vote.isValid E ctx = true) :
    (s.processTxLockVote E ctx vote).2 = finish E ctx (validAttempt E ctx s vote) := by
  unfold processTxLockVote validAttempt
  rw [if_neg (by simp [hvalid])]
  cases s.mapTxLockCandidates[vote.txHash]? with
  | none => exact processOrphanVote_eq_finish ctx s vote
  | some c =>
    dsimp only
    split_ifs
    · exact processOrphanVote_eq_finish ctx s vote
    · rfl
    · exact countVote_eq_finish ctx s vote

lemma processMessage_eq_finish (s : CInstantSend) (vote : CTxLockVote) :
    (s.processMessage E ctx nVersion vote).2 = finish E ctx (messageAttempt E ctx nVersion s vote) := by
  unfold processMessage messageAttempt
  cases hheard : heardVote ctx nVersion with
  | false => rfl
  | true =>
    cases hseen : s.mapTxLockVotes.contains (vote.getHash E) with
    | true => rfl
    | false =>
      cases hvalid : vote.isValid E ctx with
      | false =>
        simp [processTxLockVote, hvalid]
        rfl
      | true => exact processTxLockVote_eq_finish ctx hvalid

lemma vote_eq_finish (txHash : UInt256) :
    (s.vote E ctx txHash).state = finish E ctx (voteAttempt E ctx s txHash) := by
  unfold CInstantSend.vote voteAttempt
  cases s.mapTxLockCandidates[txHash]? with
  | none => rfl
  | some c =>
    dsimp only
    split_ifs <;> rfl

lemma step_eq_finish :
    s.step E a = finish E a.1 (attempt E s a) := by
  obtain ⟨ctx, action⟩ := a
  cases action with
  | request request => exact processTxLockRequest_eq_finish ctx s request
  | vote txHash => exact vote_eq_finish ctx s txHash
  | message nVersion vote => exact processMessage_eq_finish ctx nVersion s vote
  | accept request => rfl
  | reject request => rfl
  | syncTransaction tx nHeight => rfl
  | updatedBlockTip nHeight => rfl
  | checkAndRemove => rfl

lemma requestAttempt_cases :
    requestAttempt E ctx s request = (s, none) ∨ ∃ tried, (tried = none ∨ tried = some request.getHash) ∧
      requestAttempt E ctx s request = ((s.createCandidate E ctx request).2, tried) := by
  unfold requestAttempt createTxLockCandidate
  cases request.isValid ctx.toLockRequestContext with
  | error e => exact .inl rfl
  | ok valid =>
    cases valid with
    | false => exact .inl rfl
    | true =>
      right
      dsimp only
      obtain ⟨created, s'⟩ := s.createCandidate E ctx request
      cases created with
      | false => exact ⟨none, .inl rfl, rfl⟩
      | true => exact ⟨_, .inr rfl, rfl⟩

variable (E) in
/-- A vote that is to be counted for a candidate. -/
def ReachesCount (s : CInstantSend) (vote : CTxLockVote) (c : CTxLockCandidate) : Prop :=
  heardVote ctx nVersion = true ∧ vote.getHash E ∉ s.mapTxLockVotes ∧ vote.isValid E ctx = true ∧
    s.mapTxLockCandidates[vote.txHash]? = some c ∧ c.txLockRequest.isSet E = true ∧ c.isTimedOut ctx = false

lemma messageAttempt_cases (s : CInstantSend) (vote : CTxLockVote) :
    (∃ c, ReachesCount E ctx nVersion s vote c ∧ messageAttempt E ctx nVersion s vote =
      countAttempt (seenVote E s vote) vote) ∨
      (∀ c, ¬ReachesCount E ctx nVersion s vote c) ∧ (messageAttempt E ctx nVersion s vote = (s, none) ∨
        messageAttempt E ctx nVersion s vote = (seenVote E s vote, none) ∨
        messageAttempt E ctx nVersion s vote = orphanAttempt E ctx (seenVote E s vote) vote) := by
  unfold messageAttempt validAttempt ReachesCount
  cases hheard : heardVote ctx nVersion with
  | false => simp
  | true =>
    by_cases hseen : vote.getHash E ∈ s.mapTxLockVotes
    · simp [hseen]
    cases hvalid : vote.isValid E ctx with
    | false => simp [hseen]
    | true =>
      simp only [seenVote]
      cases hc : s.mapTxLockCandidates[vote.txHash]? with
      | none => simp [hseen]
      | some c =>
        cases hset : c.txLockRequest.isSet E with
        | false => simp [hseen, hset]
        | true => cases htimed : c.isTimedOut ctx <;> simp [hseen, hset, htimed]

variable (E) in
/-- The attempt to lock the candidate succeeds. -/
def Completes (ctx : InstantSendContext) (s : CInstantSend) (c : CTxLockCandidate) : Prop :=
  ctx.sporkEnabled = true ∧ c.isAllOutPointsReady = true ∧ s.isLockedInstantSendTransaction ctx c.getHash = false ∧
    (s.resolveConflicts E ctx c).1 = true

lemma tryToFinalize_cases (ctx : InstantSendContext) (s : CInstantSend) (c : CTxLockCandidate) :
    (¬Completes E ctx s c ∧ s.tryToFinalizeLockCandidate E ctx c = s) ∨
      (∃ hash, c.isAllOutPointsReady = true ∧ s.findConflict ctx c.getHash c.txLockRequest.tx.vin = .locked hash ∧
        ¬Completes E ctx s c ∧ s.tryToFinalizeLockCandidate E ctx c = s.dropConflicting E ctx c.getHash hash) ∨
      (Completes E ctx s c ∧ s.findConflict ctx c.getHash c.txLockRequest.tx.vin = .clear ∧
        s.tryToFinalizeLockCandidate E ctx c = s.lockTransactionInputs ctx c) := by
  unfold tryToFinalizeLockCandidate Completes
  by_cases hspork : ctx.sporkEnabled = true
  · rw [if_neg (by simp [hspork])]
    by_cases hready : c.isAllOutPointsReady = true ∧ s.isLockedInstantSendTransaction ctx c.getHash = false
    · rw [if_pos (by simp [hready])]
      unfold resolveConflicts
      rw [if_neg (by simp [hready.1])]
      cases s.findConflict ctx c.getHash c.txLockRequest.tx.vin with
      | locked hash => exact .inr (.inl ⟨hash, hready.1, rfl, fun h => by simp at h, rfl⟩)
      | mempool => exact .inl ⟨fun h => by simp at h, rfl⟩
      | clear =>
        dsimp only
        by_cases hblock : ctx.inBlock c.getHash = true
        · rw [if_pos hblock]
          exact .inr (.inr ⟨⟨hspork, hready.1, hready.2, rfl⟩, rfl, rfl⟩)
        · rw [if_neg hblock]
          cases hunspent : c.txLockRequest.tx.vin.all (fun txin => (ctx.getUTXOCoin txin.prevout).isSome) with
          | false => exact .inl ⟨fun h => by simp at h, rfl⟩
          | true => exact .inr (.inr ⟨⟨hspork, hready.1, hready.2, rfl⟩, rfl, rfl⟩)
    · rw [if_neg (by simpa using hready)]
      exact .inl ⟨fun h => hready ⟨h.2.1, h.2.2.1⟩, rfl⟩
  · rw [if_pos (by simpa using hspork)]
    exact .inl ⟨fun h => hspork h.1, rfl⟩

lemma lockTransactionInputs_eq (ctx : InstantSendContext) (s : CInstantSend) (c : CTxLockCandidate) :
    ∃ locked, s.lockTransactionInputs ctx c = { s with mapLockedOutpoints := locked } := by
  unfold lockTransactionInputs
  split_ifs
  · exact ⟨_, rfl⟩
  · exact ⟨_, rfl⟩
  · exact ⟨_, rfl⟩

lemma findConflict_eq_locked {ctx : InstantSendContext} {s : CInstantSend} {txHash hash : UInt256} {vin : List CTxIn}
    (h : s.findConflict ctx txHash vin = .locked hash) :
    ∃ txin ∈ vin, s.mapLockedOutpoints[txin.prevout]? = some hash ∧ hash ≠ txHash := by
  by_contra hnone
  push Not at hnone
  induction vin with
  | nil => cases h
  | cons txin vin ih =>
    unfold findConflict at h
    cases hinput : s.inputConflict ctx txHash txin with
    | clear =>
      rw [hinput] at h
      exact ih h (fun txin htxin => hnone txin (List.mem_cons_of_mem _ htxin))
    | mempool =>
      rw [hinput] at h
      cases h
    | locked hash' =>
      rw [hinput] at h
      obtain rfl : hash' = hash := Conflict.locked.inj h
      unfold inputConflict at hinput
      split at hinput
      · next hash'' hfilter =>
        obtain rfl : hash'' = hash' := Conflict.locked.inj hinput
        obtain ⟨hsome, hne⟩ := Option.filter_eq_some_iff.mp hfilter
        have hsame := hnone txin List.mem_cons_self hsome
        simp [hsame] at hne
      · split at hinput
        · cases hinput
        · cases hinput

instance (s : CInstantSend) (c : CTxLockCandidate) : Decidable (Completes E ctx s c) :=
  inferInstanceAs (Decidable (_ ∧ _ ∧ _ ∧ _))

variable (E) in
/-- The candidate that a step locks, if any. -/
def completedBy : Option CTxLockCandidate :=
  ((attempt E s a).2.bind (fun key => (attempt E s a).1.mapTxLockCandidates[key]?)).filter
    (fun c => Completes E a.1 (attempt E s a).1 c)

lemma completedBy_eq_some {s : CInstantSend} {a : InstantSendContext × Action} {c : CTxLockCandidate}
    (h : completedBy E s a = some c) : ∃ key, (attempt E s a).2 = some key ∧
      (attempt E s a).1.mapTxLockCandidates[key]? = some c ∧ Completes E a.1 (attempt E s a).1 c := by
  obtain ⟨hfound, hcompletes⟩ := Option.filter_eq_some_iff.mp h
  obtain ⟨key, hkey, hc⟩ := Option.bind_eq_some_iff.mp hfound
  exact ⟨key, hkey, hc, by simpa using hcompletes⟩

end Qstees.Proofs
