import Qstees.Model.InstantSend

/-!
# Lock votes and their hashes

Whether a vote is counted depends on the lock candidates and on the votes seen so far, by their hashes.
-/

namespace Qstees.Proofs

open CInstantSend Std.ExtTreeMap COutPointLock

variable (E : InstantSendEnv) (s : CInstantSend)

/-- The lock that the candidate under a key has for an outpoint. -/
def lockAt (key : UInt256) (o : COutPoint) : Option COutPointLock :=
  (s.mapTxLockCandidates[key]?).bind (fun c => c.mapOutPointLocks[o]?)

def HasVote (key : UInt256) (o mn : COutPoint) : Prop :=
  ∃ lock, lockAt s key o = some lock ∧ mn ∈ lock.mapMasternodeVotes

/-- The candidate locks the outpoint of the vote, without a vote of its masternode. -/
def Unvoted (vote : CTxLockVote) : Prop :=
  (lockAt s vote.txHash vote.outpoint).isSome ∧ ¬HasVote s vote.txHash vote.outpoint vote.outpointMasternode

lemma addVote_isSome_iff (vote : CTxLockVote) :
    ((s.mapTxLockCandidates[vote.txHash]?).bind (fun c => c.addVote vote)).isSome ↔ Unvoted s vote := by
  unfold Unvoted HasVote lockAt
  cases s.mapTxLockCandidates[vote.txHash]? with
  | none => simp
  | some c =>
    cases hl : c.mapOutPointLocks[vote.outpoint]? with
    | none => simp [hl, CTxLockCandidate.addVote]
    | some lock =>
      by_cases hmem : vote.outpointMasternode ∈ lock.mapMasternodeVotes
      · simp [hl, CTxLockCandidate.addVote, addVote, hmem]
      · simp [hl, CTxLockCandidate.addVote, addVote, hmem]

lemma markAttacked_lookup (key : UInt256) (o : COutPoint) (k : UInt256) :
    (s.markAttacked key o).mapTxLockCandidates[k]? =
      if key = k then (s.mapTxLockCandidates[key]?).map (·.markOutpointAsAttacked o)
        else s.mapTxLockCandidates[k]? := by
  simp [markAttacked, getElem?_modify]

lemma markOutpointAsAttacked_lookup (c : CTxLockCandidate) (o o' : COutPoint) :
    (c.markOutpointAsAttacked o).mapOutPointLocks[o']? =
      if o = o' then (c.mapOutPointLocks[o]?).map markAsAttacked else c.mapOutPointLocks[o']? := by
  simp [CTxLockCandidate.markOutpointAsAttacked, getElem?_modify]

lemma lockAt_markAttacked (key : UInt256) (o : COutPoint) (k : UInt256) (o' : COutPoint) :
    lockAt (s.markAttacked key o) k o' =
      if key = k ∧ o = o' then (lockAt s k o').map markAsAttacked else lockAt s k o' := by
  unfold lockAt
  rw [markAttacked_lookup]
  by_cases hk : key = k
  · subst hk
    cases s.mapTxLockCandidates[key]? with
    | none => simp
    | some c =>
      simp only [if_true, Option.map_some, Option.bind_some, markOutpointAsAttacked_lookup, true_and]
      split_ifs with ho
      · rw [ho]
      · rfl
  · rw [if_neg hk, if_neg fun h => hk h.1]

section Marks

variable {R : CInstantSend → CInstantSend → Prop} (hrefl : ∀ s, R s s) (htrans : ∀ {a b c}, R a b → R b c → R a c)
  (hmark : ∀ s key o, R s (s.markAttacked key o))

include hrefl htrans hmark

/-- What a mark keeps, the marks of a vote against an earlier one keep. -/
lemma markConflicting_induct (s : CInstantSend) (vote : CTxLockVote) (hash : UInt256) :
    R s (s.markConflicting vote hash) := by
  unfold markConflicting
  split_ifs
  · exact hrefl s
  · split
    · exact hrefl s
    · split_ifs
      · exact htrans (hmark _ _ _) (hmark _ _ _)
      · exact hrefl s

lemma markAll_induct (s : CInstantSend) (vote : CTxLockVote) (hashes : List UInt256) :
    R s (hashes.foldl (fun s hash => s.markConflicting vote hash) s) := by
  induction hashes generalizing s with
  | nil => exact hrefl s
  | cons hash hashes ih => exact htrans (markConflicting_induct hrefl htrans hmark s vote hash) (ih _)

end Marks

lemma votes_markAll (s : CInstantSend) (vote : CTxLockVote) (hashes : List UInt256) (key : UInt256) (o : COutPoint) :
    (lockAt (hashes.foldl (fun s hash => s.markConflicting vote hash) s) key o).map mapMasternodeVotes =
      (lockAt s key o).map mapMasternodeVotes := by
  refine markAll_induct (fun _ => rfl) (fun hab hbc => hbc.trans hab) (fun s marked o' => ?_) s vote hashes
    (R := fun s s' => (lockAt s' key o).map mapMasternodeVotes = (lockAt s key o).map mapMasternodeVotes)
  rw [lockAt_markAttacked]
  split_ifs
  · rw [Option.map_map]
    rfl
  · rfl

lemma unvoted_congr {s s' : CInstantSend} {vote : CTxLockVote}
    (h : (lockAt s' vote.txHash vote.outpoint).map mapMasternodeVotes =
      (lockAt s vote.txHash vote.outpoint).map mapMasternodeVotes) : Unvoted s' vote ↔ Unvoted s vote := by
  unfold Unvoted HasVote
  cases hs : lockAt s vote.txHash vote.outpoint <;> cases hs' : lockAt s' vote.txHash vote.outpoint <;> simp_all

/-- A vote that meets a candidate with a request, in time, and is the first of its masternode for a locked outpoint. -/
structure Countable (ctx : InstantSendContext) (s : CInstantSend) (vote : CTxLockVote) : Prop where
  valid : vote.isValid E ctx = true
  requested : ∃ c, s.mapTxLockCandidates[vote.txHash]? = some c ∧ c.txLockRequest.isSet E = true ∧
    c.isTimedOut ctx = false
  first : Unvoted s vote

section

variable (ctx : InstantSendContext) (s : CInstantSend) (vote : CTxLockVote)

lemma limitOrphanVotes_ne_counted :
    (s.limitOrphanVotes ctx vote).1 ≠ .counted := by
  unfold limitOrphanVotes
  dsimp only
  split
  · simp
  · split_ifs <;> simp

lemma processOrphanVote_ne_counted :
    (s.processOrphanVote E ctx vote).1 ≠ .counted := by
  unfold processOrphanVote
  split_ifs
  · exact limitOrphanVotes_ne_counted ctx s vote
  · dsimp only
    split
    · exact limitOrphanVotes_ne_counted ctx _ vote
    · split_ifs
      · simp
      · exact limitOrphanVotes_ne_counted ctx _ vote

lemma countVote_counted_iff :
    (s.countVote E ctx vote).1 = .counted ↔ Unvoted s vote := by
  let marked := (s.votedHashes vote.outpoint).toList.foldl (fun s hash => s.markConflicting vote hash) s
  have hvotes : Unvoted (marked.addVotedHash vote.outpoint vote.txHash) vote ↔ Unvoted s vote :=
    unvoted_congr (votes_markAll s vote (s.votedHashes vote.outpoint).toList _ _)
  rw [← hvotes, ← addVote_isSome_iff]
  unfold countVote
  dsimp only
  split
  · next hnone =>
    rw [hnone]
    simp
  · next c hsome =>
    rw [hsome]
    simp

lemma processTxLockVote_counted_iff :
    (s.processTxLockVote E ctx vote).1 = .counted ↔ Countable E ctx s vote := by
  unfold processTxLockVote
  by_cases hvalid : vote.isValid E ctx = true
  · rw [if_neg (by simp [hvalid])]
    cases hc : s.mapTxLockCandidates[vote.txHash]? with
    | none =>
      apply iff_of_false (processOrphanVote_ne_counted E ctx s vote)
      rintro ⟨_, ⟨c, hsome, _⟩, _⟩
      rw [hc] at hsome
      cases hsome
    | some c =>
      dsimp only
      by_cases hset : c.txLockRequest.isSet E = true
      · by_cases htime : c.isTimedOut ctx = true
        · rw [if_neg (by simp [hset]), if_pos htime]
          apply iff_of_false (by simp)
          rintro ⟨_, ⟨c', hsome, _, hin⟩, _⟩
          cases hc.symm.trans hsome
          rw [htime] at hin
          cases hin
        · rw [if_neg (by simp [hset]), if_neg htime, countVote_counted_iff]
          constructor
          · intro hfirst
            exact ⟨hvalid, ⟨c, hc, hset, by simpa using htime⟩, hfirst⟩
          · intro h
            exact h.first
      · rw [if_pos (by simp [hset])]
        apply iff_of_false (processOrphanVote_ne_counted E ctx s vote)
        rintro ⟨_, ⟨c', hsome, hset', _⟩, _⟩
        cases hc.symm.trans hsome
        exact hset hset'
  · rw [if_pos (by simp [hvalid])]
    apply iff_of_false (by simp)
    intro h
    exact hvalid h.valid

end

/-- The message of the vote ends with the vote counted. -/
def CountedFrom (ctx : InstantSendContext) (nVersion : Int) (s : CInstantSend) (vote : CTxLockVote) : Prop :=
  (s.processMessage E ctx nVersion vote).1 = .counted

instance (ctx : InstantSendContext) (nVersion : Int) (s : CInstantSend) (vote : CTxLockVote) :
    Decidable (CountedFrom E ctx nVersion s vote) :=
  inferInstanceAs (Decidable (_ = _))

lemma countable_storeVote {ctx : InstantSendContext} {s : CInstantSend} (votes : StdMap UInt256 CTxLockVote)
    (vote : CTxLockVote) : Countable E ctx { s with mapTxLockVotes := votes } vote ↔ Countable E ctx s vote := by
  constructor
  · rintro ⟨hvalid, hrequested, hfirst⟩
    exact ⟨hvalid, hrequested, hfirst⟩
  · rintro ⟨hvalid, hrequested, hfirst⟩
    exact ⟨hvalid, hrequested, hfirst⟩

lemma countedFrom_iff (ctx : InstantSendContext) (nVersion : Int) (s : CInstantSend) (vote : CTxLockVote) :
    CountedFrom E ctx nVersion s vote ↔
      heardVote ctx nVersion = true ∧ vote.getHash E ∉ s.mapTxLockVotes ∧ Countable E ctx s vote := by
  unfold CountedFrom processMessage
  by_cases hheard : heardVote ctx nVersion = true
  · by_cases hseen : vote.getHash E ∈ s.mapTxLockVotes
    · simp [hheard, hseen]
    · rw [if_neg (by simp [hheard]), if_neg (by simpa using hseen)]
      dsimp only
      rw [processTxLockVote_counted_iff, countable_storeVote]
      simp [hheard, hseen]
  · simp [hheard]

def smallLockEnv : InstantSendEnv where
  verifyMessage pubKey vchSig _ := decide (vchSig = pubKey)
  voteHash txHash outpoint outpointMasternode := txHash * 1000000 + outpoint.hash * 1000 + outpointMasternode.hash
  emptyRequest := ⟨{ vin := [], vout := [], hash := 0 }⟩
  activeOutpoint := ⟨1, 0⟩
  nInstantSendKeepLock := 24

/-- Height 200, with one coin of ten whole units and the masternodes of the given ranks. -/
def lockContext (getMasternodeRank : COutPoint → Option Int) : InstantSendContext where
  height := 200
  getAdjustedTime := 1000
  getUTXOCoin o := if o = ⟨77, 0⟩ then some ⟨⟨10 * COIN, [0x51], -10⟩, false, 100⟩ else none
  sporkMaxValue := 1000
  fMasterNode := true
  getTime := 1000
  getMasternodeInfo o := some [UInt8.ofNat o.hash]
  getMasternodeRank o _ := getMasternodeRank o
  pubKeyMasternode := [1]
  signMessage _ := some [1]
  mapNextTx _ := none
  inBlock _ := false

def firstTen : InstantSendContext := lockContext (fun o => if o.hash ≤ 10 then some o.hash else none)

def coinRequest (hash : UInt256) : CTxLockRequest :=
  ⟨{ vin := [⟨⟨77, 0⟩, [], SEQUENCE_FINAL, []⟩], vout := [⟨9 * COIN, [0x51], -10⟩], hash }⟩

def coinVote (hash : UInt256) (masternode : UInt256) (vchSig : List UInt8) : CTxLockVote :=
  { txHash := hash, outpoint := ⟨77, 0⟩, outpointMasternode := ⟨masternode, 0⟩, vchMasternodeSignature := vchSig,
    nTimeCreated := 1000 }

def oneRequest : CInstantSend := (({} : CInstantSend).processTxLockRequest smallLockEnv firstTen (coinRequest 51)).2

lemma processMessage_of_invalid {ctx : InstantSendContext} {vote : CTxLockVote} (hinvalid : vote.isValid E ctx = false)
    (nVersion : Int) (s : CInstantSend) :
    (s.processMessage E ctx nVersion vote).2 =
      if heardVote ctx nVersion = true ∧ vote.getHash E ∉ s.mapTxLockVotes then
        { s with mapTxLockVotes := s.mapTxLockVotes.insert (vote.getHash E) vote }
      else s := by
  unfold processMessage processTxLockVote
  by_cases hheard : heardVote ctx nVersion = true
  · by_cases hseen : vote.getHash E ∈ s.mapTxLockVotes
    · simp [hheard, hseen]
    · simp [hheard, hseen, hinvalid]
  · simp [hheard]

/-- After an invalid vote, a vote that would have been counted still is, unless the invalid one was listened to and has
the same hash. -/
theorem counted_after_invalidVote_iff (s : CInstantSend) (ctx ctx' : InstantSendContext) (nVersion nVersion' : Int)
    (m v : CTxLockVote) (hm : m.isValid E ctx = false) (hv : CountedFrom E ctx' nVersion' s v) :
    CountedFrom E ctx' nVersion' (s.processMessage E ctx nVersion m).2 v ↔
      ¬(heardVote ctx nVersion = true ∧ m.getHash E = v.getHash E) := by
  rw [countedFrom_iff] at hv
  obtain ⟨hheard', hunseen, hcountable⟩ := hv
  have hstays : Countable E ctx' (s.processMessage E ctx nVersion m).2 v := by
    rw [processMessage_of_invalid E hm]
    split_ifs
    · exact (countable_storeVote E _ v).mpr hcountable
    · exact hcountable
  rw [countedFrom_iff, and_iff_right hheard', and_iff_left hstays, processMessage_of_invalid E hm]
  by_cases hheard : heardVote ctx nVersion = true
  · by_cases hsame : m.getHash E = v.getHash E
    · simp [hheard, hsame, hunseen]
    · split_ifs
      · simp [hsame, hunseen, mem_insert]
      · simp [hsame, hunseen]
  · simp [hheard, hunseen]

theorem counted_after_forgedVote_of_other :
    CountedFrom smallLockEnv firstTen 250000
      (oneRequest.processMessage smallLockEnv firstTen 250000 (coinVote 51 2 [9])).2 (coinVote 51 3 [3]) := by
  rw [counted_after_invalidVote_iff smallLockEnv oneRequest firstTen firstTen 250000 250000 (coinVote 51 2 [9])
    (coinVote 51 3 [3]) (by decide +kernel) (by decide +kernel)]
  decide +kernel

/-- A forged vote is remembered under the hash of the genuine one. -/
theorem forgedVote_suppresses :
    (coinVote 51 2 [9]).isValid smallLockEnv firstTen = false ∧
      CountedFrom smallLockEnv firstTen 250000 oneRequest (coinVote 51 2 [2]) ∧
      ¬CountedFrom smallLockEnv firstTen 250000
        (oneRequest.processMessage smallLockEnv firstTen 250000 (coinVote 51 2 [9])).2 (coinVote 51 2 [2]) := by
  decide +kernel

end Qstees.Proofs
