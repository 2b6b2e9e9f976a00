import Qstees.Proofs.LockShape

/-!
# The memory of lock votes

A masternode knows which outpoints it has voted for from two maps: the candidate holds the vote, and `mapVotedOutpoints`
says which candidates to ask.
-/

namespace Qstees.Proofs

open CInstantSend

variable {E : InstantSendEnv}

variable (E) in
/-- The candidates with an own vote for an outpoint are among those to ask. -/
structure Remembers (s : CInstantSend) : Prop where
  keyed : Keyed s
  asked : ∀ key o, HasVote s key o E.activeOutpoint → key ∈ s.votedHashes o

/-- Locks, votes and hashes stay, and every new vote comes with its hash. -/
structure MemoryGrows (s s' : CInstantSend) : Prop where
  locks : ∀ key o, (lockAt s key o).isSome → (lockAt s' key o).isSome
  votes : ∀ key o mn, HasVote s key o mn → HasVote s' key o mn
  hashes : ∀ o h, h ∈ s.votedHashes o → h ∈ s'.votedHashes o
  newVotes : ∀ key o mn, HasVote s' key o mn → HasVote s key o mn ∨ key ∈ s'.votedHashes o
  keyed : Keyed s → Keyed s'

lemma MemoryGrows.trans {a b c : CInstantSend} (hab : MemoryGrows a b) (hbc : MemoryGrows b c) : MemoryGrows a c where
  locks key o h := hbc.locks key o (hab.locks key o h)
  votes key o mn h := hbc.votes key o mn (hab.votes key o mn h)
  hashes o h hh := hbc.hashes o h (hab.hashes o h hh)
  newVotes key o mn h := by
    rcases hbc.newVotes key o mn h with hb | hc
    · rcases hab.newVotes key o mn hb with ha | hb
      · exact .inl ha
      · exact .inr (hbc.hashes o key hb)
    · exact .inr hc
  keyed h := hbc.keyed (hab.keyed h)

variable {c c' : CTxLockCandidate} {s s' : CInstantSend} {key : UInt256} {vote : CTxLockVote}

lemma MemoryGrows.remembers (h : MemoryGrows s s') (hs : Remembers E s) : Remembers E s' where
  keyed := h.keyed hs.keyed
  asked key o hvote := by
    rcases h.newVotes key o _ hvote with hold | hnew
    · exact h.hashes o key (hs.asked key o hold)
    · exact hnew

lemma LocksExtend.grows (h : LocksExtend E s s') : MemoryGrows s s' where
  locks _ _ := h.isSome
  votes _ _ _ := h.hasVote_iff.mpr
  hashes o hash hh := by rwa [votedHashes, h.voted]
  newVotes _ _ _ hvote := .inl (h.hasVote_iff.mp hvote)
  keyed := h.keyed

lemma MemoryGrows.refl (s : CInstantSend) : MemoryGrows s s :=
  ⟨fun _ _ h => h, fun _ _ _ h => h, fun _ _ h => h, fun _ _ _ h => .inl h, id⟩

lemma grows_addVotedHash (s : CInstantSend) (o : COutPoint) (h : UInt256) : MemoryGrows s (s.addVotedHash o h) where
  locks _ _ hsome := hsome
  votes _ _ _ hvote := hvote
  hashes o' h' hh := (mem_votedHashes_addVotedHash s o h o' h').mpr (.inr hh)
  newVotes _ _ _ hvote := .inl hvote
  keyed hs := hs

lemma VoteAdded.grows (h : VoteAdded vote s s') (hasked : vote.txHash ∈ s.votedHashes vote.outpoint) :
    MemoryGrows s s' where
  locks k o hsome := by
    obtain ⟨lock, hlock⟩ := Option.isSome_iff_exists.mp hsome
    obtain ⟨lock', hlock', -⟩ := h.locks k o lock hlock
    exact Option.isSome_iff_exists.mpr ⟨lock', hlock'⟩
  votes k o mn hvote := (h.votes k o mn).mpr (.inl hvote)
  hashes o hash hh := by rwa [votedHashes, h.hashes]
  newVotes k o mn hvote := by
    rcases (h.votes k o mn).mp hvote with hold | ⟨rfl, rfl, -⟩
    · exact .inl hold
    · right
      rwa [votedHashes, h.hashes]
  keyed hs k c' hc' o ho := by
    obtain ⟨c, hc, hrequest, hmem⟩ := h.candidates k c' hc'
    rw [CTxLockCandidate.getHash, hrequest]
    exact hs k c hc o ((hmem o).mp ho)

def Uncontested (s : CInstantSend) (request : CTxLockRequest) : Prop :=
  ∀ txin ∈ request.tx.vin, ∀ h, s.mapLockedOutpoints[txin.prevout]? = some h → h = request.getHash

def UncontestedAt (s : CInstantSend) (key : UInt256) : Prop :=
  ∀ c : CTxLockCandidate, s.mapTxLockCandidates[key]? = some c → Uncontested s c.txLockRequest

lemma tryToFinalize_of_uncontested (h : Uncontested s c.txLockRequest) (ctx : InstantSendContext) :
    ∃ locked, s.tryToFinalizeLockCandidate E ctx c = { s with mapLockedOutpoints := locked } := by
  rcases tryToFinalize_cases (E := E) ctx s c with ⟨-, hsame⟩ | ⟨hash, -, hconflict, -⟩ | ⟨-, -, hlock⟩
  · exact ⟨s.mapLockedOutpoints, hsame⟩
  · obtain ⟨txin, htxin, hlocked, hne⟩ := findConflict_eq_locked hconflict
    exact absurd (h txin htxin hash hlocked) hne
  · rw [hlock]
    exact lockTransactionInputs_eq ctx s c

lemma grows_finish {t : Attempt} (h : ∀ key, t.2 = some key → UncontestedAt t.1 key) (ctx : InstantSendContext) :
    MemoryGrows t.1 (finish E ctx t) := by
  unfold finish tryToFinalizeAt
  split
  · exact MemoryGrows.refl _
  · next key hkey =>
    split
    · exact MemoryGrows.refl _
    · next c hc =>
      obtain ⟨locked, hlocked⟩ := tryToFinalize_of_uncontested (E := E) (h key hkey c hc) ctx
      rw [hlocked]
      exact ⟨fun _ _ h => h, fun _ _ _ h => h, fun _ _ h => h, fun _ _ _ h => .inl h, id⟩

lemma SameRequests.uncontestedAt (h : SameRequests s s') (hs : UncontestedAt s key) :
    UncontestedAt s' key := by
  intro c' hc' txin htxin hash hhash
  obtain ⟨c, hc, hrequest⟩ := h.requests key c' hc'
  rw [hrequest] at htxin ⊢
  rw [h.locked] at hhash
  exact hs c hc txin htxin hash hhash

lemma createCandidate_request (ctx : InstantSendContext)
    (request : CTxLockRequest)
    (hc : (s.createCandidate E ctx request).2.mapTxLockCandidates[request.getHash]? = some c) :
    c.txLockRequest = request ∨ s.mapTxLockCandidates[request.getHash]? = some c ∧ c.txLockRequest.isSet E = true := by
  unfold createCandidate at hc
  dsimp only at hc
  split at hc
  · rw [setCandidate_lookup, if_pos rfl] at hc
    cases hc
    exact .inl (addOutPointLocks_txLockRequest _ _)
  next c₀ hc₀ =>
  split_ifs at hc with hset
  · cases hc₀.symm.trans hc
    exact .inr ⟨hc₀, hset⟩
  · rw [setCandidate_lookup, if_pos rfl] at hc
    cases hc
    exact .inl rfl
  · rw [setCandidate_lookup, if_pos rfl] at hc
    cases hc
    exact .inl (addOutPointLocks_txLockRequest _ _)

variable (E) in
/-- Neither the request nor the one that a candidate has for its hash is contested. -/
def RequestUncontested (s : CInstantSend) (request : CTxLockRequest) : Prop :=
  Uncontested s request ∧ ∀ c : CTxLockCandidate, s.mapTxLockCandidates[request.getHash]? = some c →
    c.txLockRequest.isSet E = true → Uncontested s c.txLockRequest

lemma uncontested_requestAttempt {request : CTxLockRequest} (h : RequestUncontested E s request)
    (ctx : InstantSendContext) (hkey : (requestAttempt E ctx s request).2 = some key) :
    UncontestedAt (requestAttempt E ctx s request).1 key := by
  rcases requestAttempt_cases (E := E) ctx s request with hnone | ⟨_, rfl | rfl, htried⟩
  · rw [hnone] at hkey
    cases hkey
  · rw [htried] at hkey
    cases hkey
  · rw [htried] at hkey ⊢
    cases hkey
    intro c hc txin htxin hash hhash
    rw [(extend_createCandidate (E := E) ctx s request).locked] at hhash
    rcases createCandidate_request ctx request hc with heq | ⟨hold, hset⟩
    · rw [heq] at htxin ⊢
      exact h.1 txin htxin hash hhash
    · exact h.2 c hold hset txin htxin hash hhash

variable (E) in
def VoteUncontested (s : CInstantSend) (txHash : UInt256) : Prop :=
  UncontestedAt s txHash ∧ ∀ request, (s.mapLockRequestAccepted[txHash]?).or s.mapLockRequestRejected[txHash]? =
    some request → RequestUncontested E s request

lemma uncontested_orphanAttempt (h : VoteUncontested E s vote.txHash) (ctx : InstantSendContext)
    (hkey : (orphanAttempt E ctx s vote).2 = some key) : UncontestedAt (orphanAttempt E ctx s vote).1 key := by
  unfold orphanAttempt at hkey ⊢
  split_ifs at hkey ⊢
  split at hkey
  · cases hkey
  next request hrequest =>
  split_ifs at hkey ⊢
  have hstored : RequestUncontested E (orphanStored E ctx s vote) request := by
    refine ⟨(h.2 request hrequest).1, fun c hc hset => ?_⟩
    rcases createEmpty_lookup (E := E) ctx s vote.txHash request.getHash with hsame | ⟨-, hnew⟩
    · exact (h.2 request hrequest).2 c (hsame ▸ hc) hset
    · cases hc.symm.trans hnew
      simp [CTxLockRequest.isSet] at hset
  exact uncontested_requestAttempt hstored ctx hkey

lemma extend_seenVote (s : CInstantSend) (vote : CTxLockVote) : LocksExtend E s (seenVote E s vote) :=
  extend_of_eq rfl rfl rfl

lemma grows_countAttempt (E : InstantSendEnv) (s : CInstantSend) (vote : CTxLockVote) :
    MemoryGrows s (countAttempt s vote).1 := by
  have hasked : MemoryGrows s (askedFor s vote) :=
    MemoryGrows.trans (markAll_induct MemoryGrows.refl MemoryGrows.trans (fun s key o =>
      (extend_markAttacked (E := E) s key o).grows) s vote _) (grows_addVotedHash _ _ _)
  rcases countAttempt_cases s vote with hnone | ⟨-, hadded, -⟩
  · rw [hnone]
    exact hasked
  · exact hasked.trans (hadded.grows (mem_votedHashes_askedFor.mpr (.inl ⟨rfl, rfl⟩)))

lemma messageAttempt_spec (h : VoteUncontested E s vote.txHash) (ctx : InstantSendContext) (nVersion : Int) :
    MemoryGrows s (messageAttempt E ctx nVersion s vote).1 ∧ ∀ key,
      (messageAttempt E ctx nVersion s vote).2 = some key →
      UncontestedAt (messageAttempt E ctx nVersion s vote).1 key := by
  have hseen := (extend_seenVote (E := E) s vote).grows
  have hafter : VoteUncontested E (seenVote E s vote) vote.txHash := h
  rcases messageAttempt_cases (E := E) ctx nVersion s vote with ⟨c, -, hcount⟩ | ⟨-, hsame | hsame | horphan⟩
  · rw [hcount]
    refine ⟨hseen.trans (grows_countAttempt E _ vote), fun key hkey => ?_⟩
    rcases countAttempt_cases (seenVote E s vote) vote with hnone | ⟨-, hadded, htried⟩
    · rw [hnone] at hkey
      cases hkey
    · obtain rfl := Option.some.inj (htried.symm.trans hkey)
      exact ((sameRequests_askedFor _ vote).trans hadded.sameRequests).uncontestedAt hafter.1
  · rw [hsame]
    exact ⟨MemoryGrows.refl s, fun _ hkey => nomatch hkey⟩
  · rw [hsame]
    exact ⟨hseen, fun _ hkey => nomatch hkey⟩
  · rw [horphan]
    exact ⟨hseen.trans (extend_orphanAttempt ctx _ vote).grows,
      fun key hkey => uncontested_orphanAttempt hafter ctx hkey⟩

end Qstees.Proofs
