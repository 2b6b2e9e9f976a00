import Qstees.Proofs.LockAttempts

/-!
# The locks of candidates

Requests and conflicts add locks without votes and mark locks as attacked. They take no vote away, and a candidate with
a request has a lock for each of its inputs. -/

namespace Qstees.Proofs

open CInstantSend List Std.ExtTreeMap COutPointLock

variable {E : InstantSendEnv}

def Keyed (s : CInstantSend) : Prop :=
  ∀ (key : UInt256) (c : CTxLockCandidate), s.mapTxLockCandidates[key]? = some c →
    ∀ o ∈ c.mapOutPointLocks, c.getHash = key

variable {s s' : CInstantSend} {key : UInt256} {c c' : CTxLockCandidate} {o mn : COutPoint} {vote : CTxLockVote}
  {ctx : InstantSendContext}

lemma lockAt_of_candidate (hc : s.mapTxLockCandidates[key]? = some c) (o : COutPoint) :
    lockAt s key o = c.mapOutPointLocks[o]? := by
  rw [lockAt, hc]
  rfl

lemma lockAt_eq_some {lock : COutPointLock} :
    lockAt s key o = some lock ↔ ∃ c, s.mapTxLockCandidates[key]? = some c ∧ c.mapOutPointLocks[o]? = some lock :=
  Option.bind_eq_some_iff

lemma isSome_lockAt_iff :
    (lockAt s key o).isSome ↔ ∃ c : CTxLockCandidate, s.mapTxLockCandidates[key]? = some c ∧
      o ∈ c.mapOutPointLocks := by
  simp only [Option.isSome_iff_exists, lockAt_eq_some, mem_iff_isSome_getElem?]
  constructor
  · rintro ⟨lock, c, hc, hlock⟩
    exact ⟨c, hc, lock, hlock⟩
  · rintro ⟨c, hc, lock, hlock⟩
    exact ⟨lock, c, hc, hlock⟩

lemma hasVote_iff (s : CInstantSend) (key : UInt256) (o mn : COutPoint) :
    HasVote s key o mn ↔ ∃ c : CTxLockCandidate, s.mapTxLockCandidates[key]? = some c ∧
      c.hasMasternodeVoted o mn = true := by
  constructor
  · rintro ⟨lock, hlock, hmem⟩
    obtain ⟨c, hc, hlock⟩ := lockAt_eq_some.mp hlock
    refine ⟨c, hc, ?_⟩
    simpa [CTxLockCandidate.hasMasternodeVoted, hlock, hasMasternodeVoted] using hmem
  · rintro ⟨c, hc, hvoted⟩
    unfold CTxLockCandidate.hasMasternodeVoted at hvoted
    split at hvoted
    · cases hvoted
    · next lock hlock =>
      refine ⟨lock, lockAt_eq_some.mpr ⟨c, hc, hlock⟩, ?_⟩
      simpa [hasMasternodeVoted] using hvoted

lemma isSome_of_hasVote (h : HasVote s key o mn) : (lockAt s key o).isSome := by
  obtain ⟨lock, hlock, -⟩ := h
  rw [hlock]
  rfl

def Attacked (s : CInstantSend) (key : UInt256) (o : COutPoint) : Prop :=
  ∃ lock, lockAt s key o = some lock ∧ lock.fAttacked = true

variable (E) in
/-- A candidate stands under its hash, has a lock for each input of a request it has, and own votes at most without
one. -/
structure ShapedAt (key : UInt256) (c : CTxLockCandidate) : Prop where
  keyed : ∀ o ∈ c.mapOutPointLocks, c.getHash = key
  inputs : c.txLockRequest.isSet E = true → ∀ o ∈ c.mapOutPointLocks, ∀ txin ∈ c.txLockRequest.tx.vin,
    txin.prevout ∈ c.mapOutPointLocks
  unset : c.txLockRequest.isSet E = false → ∀ o mn, c.hasMasternodeVoted o mn = true → mn = E.activeOutpoint

variable (E) in
def Shaped (s : CInstantSend) : Prop :=
  ∀ (key : UInt256) (c : CTxLockCandidate), s.mapTxLockCandidates[key]? = some c → ShapedAt E key c

lemma Shaped.keyed (h : Shaped E s) : Keyed s := fun key c hc => (h key c hc).keyed

variable (E) in
/-- Locks keep their votes and stay attacked, and new ones have no votes. -/
structure LocksExtend (s s' : CInstantSend) : Prop where
  kept : ∀ key o lock, lockAt s key o = some lock → ∃ lock', lockAt s' key o = some lock' ∧
    lock'.mapMasternodeVotes = lock.mapMasternodeVotes ∧ (lock.fAttacked = true → lock'.fAttacked = true)
  new : ∀ key o lock', lockAt s' key o = some lock' → lock'.mapMasternodeVotes = ∅ ∨
    ∃ lock, lockAt s key o = some lock ∧ lock'.mapMasternodeVotes = lock.mapMasternodeVotes
  voted : s'.mapVotedOutpoints = s.mapVotedOutpoints
  locked : s'.mapLockedOutpoints = s.mapLockedOutpoints
  keyed : Keyed s → Keyed s'
  shaped : Shaped E s → Shaped E s'

lemma LocksExtend.trans {a b c : CInstantSend} (hab : LocksExtend E a b) (hbc : LocksExtend E b c) :
    LocksExtend E a c where
  kept key o lock hlock := by
    obtain ⟨lock', hlock', hvotes, hattacked⟩ := hab.kept key o lock hlock
    obtain ⟨lock'', hlock'', hvotes', hattacked'⟩ := hbc.kept key o lock' hlock'
    exact ⟨lock'', hlock'', hvotes'.trans hvotes, fun h => hattacked' (hattacked h)⟩
  new key o lock'' hlock'' := by
    rcases hbc.new key o lock'' hlock'' with hempty | ⟨lock', hlock', hvotes'⟩
    · exact .inl hempty
    · rcases hab.new key o lock' hlock' with hempty | ⟨lock, hlock, hvotes⟩
      · exact .inl (hvotes'.trans hempty)
      · exact .inr ⟨lock, hlock, hvotes'.trans hvotes⟩
  voted := hbc.voted.trans hab.voted
  locked := hbc.locked.trans hab.locked
  keyed h := hbc.keyed (hab.keyed h)
  shaped h := hbc.shaped (hab.shaped h)

lemma LocksExtend.hasVote_iff (h : LocksExtend E s s') :
    HasVote s' key o mn ↔ HasVote s key o mn := by
  constructor
  · rintro ⟨lock', hlock', hmem⟩
    rcases h.new key o lock' hlock' with hempty | ⟨lock, hlock, hvotes⟩
    · rw [hempty] at hmem
      exact absurd hmem not_mem_empty
    · exact ⟨lock, hlock, hvotes ▸ hmem⟩
  · rintro ⟨lock, hlock, hmem⟩
    obtain ⟨lock', hlock', hvotes, -⟩ := h.kept key o lock hlock
    exact ⟨lock', hlock', hvotes ▸ hmem⟩

lemma LocksExtend.attacked (h : LocksExtend E s s') :
    Attacked s key o → Attacked s' key o := by
  rintro ⟨lock, hlock, hattacked⟩
  obtain ⟨lock', hlock', -, hstays⟩ := h.kept key o lock hlock
  exact ⟨lock', hlock', hstays hattacked⟩

lemma LocksExtend.isSome (h : LocksExtend E s s') (hsome : (lockAt s key o).isSome) :
    (lockAt s' key o).isSome := by
  obtain ⟨lock, hlock⟩ := Option.isSome_iff_exists.mp hsome
  obtain ⟨lock', hlock', -⟩ := h.kept key o lock hlock
  rw [hlock']
  rfl

lemma extend_of_lockAt
    (hlock : ∀ k o, lockAt s' k o = lockAt s k o ∨ lockAt s' k o = (lockAt s k o).map markAsAttacked ∨
      lockAt s k o = none ∧ lockAt s' k o = some {})
    (hvoted : s'.mapVotedOutpoints = s.mapVotedOutpoints) (hlocked : s'.mapLockedOutpoints = s.mapLockedOutpoints)
    (hkeyed : Keyed s → Keyed s') (hshaped : Shaped E s → Shaped E s') : LocksExtend E s s' := by
  refine ⟨fun k o lock h => ?_, fun k o lock' h => ?_, hvoted, hlocked, hkeyed, hshaped⟩
  · rcases hlock k o with hsame | hmarked | ⟨hnone, -⟩
    · exact ⟨lock, hsame.trans h, rfl, id⟩
    · exact ⟨lock.markAsAttacked, by rw [hmarked, h]; rfl, rfl, fun _ => rfl⟩
    · cases h.symm.trans hnone
  · rcases hlock k o with hsame | hmarked | ⟨-, hnew⟩
    · exact .inr ⟨lock', hsame.symm.trans h, rfl⟩
    · obtain ⟨lock, hlock, rfl⟩ := Option.map_eq_some_iff.mp (hmarked.symm.trans h)
      exact .inr ⟨lock, hlock, rfl⟩
    · cases h.symm.trans hnew
      exact .inl rfl

lemma extend_of_eq (hcandidates : s'.mapTxLockCandidates = s.mapTxLockCandidates)
    (hvoted : s'.mapVotedOutpoints = s.mapVotedOutpoints) (hlocked : s'.mapLockedOutpoints = s.mapLockedOutpoints) :
    LocksExtend E s s' := by
  refine extend_of_lockAt (fun k o => .inl ?_) hvoted hlocked ?_ ?_
  · rw [lockAt, lockAt, hcandidates]
  · rw [Keyed, Keyed, hcandidates]
    exact id
  · rw [Shaped, Shaped, hcandidates]
    exact id

lemma extend_refl (s : CInstantSend) : LocksExtend E s s := extend_of_eq rfl rfl rfl

lemma extend_of_update (key : UInt256) (f : CTxLockCandidate → CTxLockCandidate)
    (hlookup : ∀ k, s'.mapTxLockCandidates[k]? =
      if key = k then (s.mapTxLockCandidates[key]?).map f else s.mapTxLockCandidates[k]?)
    (hhashes : s'.mapVotedOutpoints = s.mapVotedOutpoints) (hlocked : s'.mapLockedOutpoints = s.mapLockedOutpoints)
    (hrequest : ∀ c, (f c).txLockRequest = c.txLockRequest)
    (hlocks : ∀ (c : CTxLockCandidate) (o : COutPoint), (f c).mapOutPointLocks[o]? = c.mapOutPointLocks[o]? ∨
      (f c).mapOutPointLocks[o]? = (c.mapOutPointLocks[o]?).map markAsAttacked) :
    LocksExtend E s s' := by
  have hmem : ∀ (c : CTxLockCandidate) (o : COutPoint), o ∈ (f c).mapOutPointLocks ↔ o ∈ c.mapOutPointLocks := by
    intro c o
    rw [mem_iff_isSome_getElem?, mem_iff_isSome_getElem?]
    rcases hlocks c o with h | h
    · rw [h]
    · rw [h, Option.isSome_map]
  have hvoted : ∀ (c : CTxLockCandidate) (o mn : COutPoint),
    (f c).hasMasternodeVoted o mn = c.hasMasternodeVoted o mn := by
    intro c o mn
    unfold CTxLockCandidate.hasMasternodeVoted
    rcases hlocks c o with h | h
    · rw [h]
    · rw [h]
      cases c.mapOutPointLocks[o]? <;> rfl
  -- what holds of every candidate that keeps these three things holds of every updated one
  have hall : ∀ P : UInt256 → CTxLockCandidate → Prop, (∀ k c, P k c → P k (f c)) →
      (∀ k c, s.mapTxLockCandidates[k]? = some c → P k c) → ∀ k c, s'.mapTxLockCandidates[k]? = some c → P k c := by
    intro P hP hs k c hc
    rw [hlookup] at hc
    split_ifs at hc with hk
    · subst hk
      obtain ⟨c₀, hc₀, rfl⟩ := Option.map_eq_some_iff.mp hc
      exact hP _ _ (hs _ _ hc₀)
    · exact hs k c hc
  have hkeyed : ∀ k c, (∀ o ∈ c.mapOutPointLocks, c.getHash = k) → ∀ o ∈ (f c).mapOutPointLocks, (f c).getHash = k := by
    intro k c h o ho
    rw [CTxLockCandidate.getHash, hrequest]
    exact h o ((hmem c o).mp ho)
  refine extend_of_lockAt (fun k o => ?_) hhashes hlocked (hall _ hkeyed)
    (hall _ fun k c h => ⟨hkeyed k c h.keyed, fun hset o ho txin htxin => ?_, fun hset o mn hmn => ?_⟩)
  · rw [lockAt, lockAt, hlookup]
    split_ifs with hk
    · subst hk
      cases s.mapTxLockCandidates[key]? with
      | none => exact .inl rfl
      | some c => exact (hlocks c o).imp_right .inl
    · exact .inl rfl
  · rw [hrequest] at hset htxin
    exact (hmem c _).mpr (h.inputs hset o ((hmem c o).mp ho) txin htxin)
  · rw [hrequest] at hset
    rw [hvoted] at hmn
    exact h.unset hset o mn hmn

lemma setCandidate_lookup (s : CInstantSend) (key : UInt256) (c : CTxLockCandidate) (k : UInt256) :
    (s.setCandidate key c).mapTxLockCandidates[k]? = if key = k then some c else s.mapTxLockCandidates[k]? := by
  rw [setCandidate, Std.ExtTreeMap.getElem?_insert]
  simp

lemma extend_setHeight (hc : s.mapTxLockCandidates[key]? = some c) (nHeight : Int) :
    LocksExtend E s (s.setCandidate key { c with nConfirmedHeight := nHeight }) := by
  refine extend_of_update key (fun c => { c with nConfirmedHeight := nHeight }) (fun k => ?_) rfl rfl (fun _ => rfl)
    (fun _ _ => .inl rfl)
  rw [setCandidate_lookup, hc, Option.map_some]

lemma extend_syncTransaction (ctx : InstantSendContext) (s : CInstantSend) (tx : CTransaction) (nHeight : Option Int) :
    LocksExtend E s (s.syncTransaction E ctx tx nHeight) := by
  unfold syncTransaction
  split_ifs
  · exact extend_refl s
  · refine extend_of_update tx.hash (fun c => { c with nConfirmedHeight := nHeight.getD (-1) })
      (fun k => ?_) rfl rfl (fun _ => rfl) (fun _ _ => .inl rfl)
    simp [Std.ExtTreeMap.getElem?_modify]

lemma addOutPointLocks_txLockRequest (c : CTxLockCandidate) (vin : List CTxIn) :
    (c.addOutPointLocks vin).txLockRequest = c.txLockRequest := by
  induction vin with
  | nil => rfl
  | cons txin vin ih => exact ih

lemma addOutPointLocks_nTimeCreated (c : CTxLockCandidate) (vin : List CTxIn) :
    (c.addOutPointLocks vin).nTimeCreated = c.nTimeCreated := by
  induction vin with
  | nil => rfl
  | cons txin vin ih => exact ih

lemma addOutPointLocks_lookup (c : CTxLockCandidate) (vin : List CTxIn) (o : COutPoint) :
    (c.addOutPointLocks vin).mapOutPointLocks[o]? = c.mapOutPointLocks[o]? ∨
      c.mapOutPointLocks[o]? = none ∧ (c.addOutPointLocks vin).mapOutPointLocks[o]? = some {} := by
  induction vin with
  | nil => exact .inl rfl
  | cons txin vin ih =>
    have hstep : (c.addOutPointLocks (txin :: vin)).mapOutPointLocks =
      (c.addOutPointLocks vin).mapOutPointLocks.insertIfNew txin.prevout {} := rfl
    rw [hstep, getElem?_insertIfNew]
    split_ifs with hnew
    · obtain ⟨heq, hnot⟩ := hnew
      rw [Std.LawfulEqCmp.compare_eq_iff_eq] at heq
      subst heq
      rw [mem_iff_isSome_getElem?, Option.not_isSome_iff_eq_none] at hnot
      rcases ih with hsame | ⟨hnone, hsome⟩
      · exact .inr ⟨hsame ▸ hnot, rfl⟩
      · rw [hsome] at hnot
        cases hnot
    · exact ih

lemma mem_addOutPointLocks_iff {vin : List CTxIn} :
    o ∈ (c.addOutPointLocks vin).mapOutPointLocks ↔ o ∈ c.mapOutPointLocks ∨ ∃ txin ∈ vin, txin.prevout = o := by
  induction vin with
  | nil => simp [CTxLockCandidate.addOutPointLocks]
  | cons txin vin ih =>
    change o ∈ (c.addOutPointLocks vin).mapOutPointLocks.insertIfNew txin.prevout {} ↔ _
    rw [mem_insertIfNew, Std.LawfulEqCmp.compare_eq_iff_eq, ih, exists_mem_cons_iff, or_left_comm]

lemma extend_setRequest {request : CTxLockRequest} (vin : List CTxIn)
    (hrequest : c.txLockRequest = request)
    (hlocks : ∀ o, lockAt s request.getHash o = c.mapOutPointLocks[o]?)
    (hbefore : Shaped E s → request.isSet E = true → ∀ o, o ∉ c.mapOutPointLocks)
    (hunset : Shaped E s → request.isSet E = false → ∀ o mn, c.hasMasternodeVoted o mn = true → mn = E.activeOutpoint)
    (hvin : vin = [] ∨ vin = request.tx.vin) :
    LocksExtend E s (s.setCandidate request.getHash (c.addOutPointLocks vin)) := by
  have hlookup := addOutPointLocks_lookup c vin
  have hreq : (c.addOutPointLocks vin).txLockRequest = request := by rw [addOutPointLocks_txLockRequest, hrequest]
  have hkey : (c.addOutPointLocks vin).getHash = request.getHash := congrArg _ hreq
  refine extend_of_lockAt (fun k o => ?_) rfl rfl (fun hs k c' hc' => ?_) (fun hs k c' hc' => ?_)
  · by_cases hk : request.getHash = k
    · subst hk
      rw [lockAt_of_candidate (by rw [setCandidate_lookup, if_pos rfl]), hlocks]
      exact (hlookup o).imp_right .inr
    · rw [lockAt, setCandidate_lookup, if_neg hk]
      exact .inl rfl
  · rw [setCandidate_lookup] at hc'
    split_ifs at hc' with hk
    · cases hc'
      exact fun _ _ => hkey.trans hk
    · exact hs k c' hc'
  · rw [setCandidate_lookup] at hc'
    split_ifs at hc' with hk
    · cases hc'
      refine ⟨fun _ _ => hkey.trans hk, ?_, ?_⟩
      · intro hset o ho txin htxin
        rw [hreq] at hset htxin
        rcases hvin with rfl | rfl
        · exact absurd ho (hbefore hs hset o)
        · exact mem_addOutPointLocks_iff.mpr (.inr ⟨txin, htxin, rfl⟩)
      · intro hset o mn hmn
        rw [hreq] at hset
        apply hunset hs hset o mn
        unfold CTxLockCandidate.hasMasternodeVoted at hmn ⊢
        rcases hlookup o with hsame | ⟨-, hnew⟩
        · rwa [hsame] at hmn
        · rw [hnew] at hmn
          simp [hasMasternodeVoted] at hmn
    · exact hs k c' hc'

section

variable (ctx : InstantSendContext) (s : CInstantSend)

lemma extend_createCandidate (request : CTxLockRequest) :
    LocksExtend E s (s.createCandidate E ctx request).2 := by
  unfold createCandidate
  dsimp only
  split
  · next hnone =>
    apply extend_setRequest (c := { txLockRequest := request, nTimeCreated := ctx.getTime }) request.tx.vin rfl
      _ _ _ (.inr rfl)
    · intro o
      simp [lockAt, hnone]
    · intro _ _ o
      exact not_mem_empty
    · intro _ _ o mn hmn
      simp [CTxLockCandidate.hasMasternodeVoted] at hmn
  · next c hc =>
    by_cases hset : c.txLockRequest.isSet E = true
    · rw [if_pos hset]
      exact extend_refl s
    rw [if_neg hset]
    -- a candidate without a request has locks under the hash of the empty transaction only
    have hbefore : Shaped E s → request.isSet E = true → ∀ o, o ∉ c.mapOutPointLocks := by
      intro hshaped hrequest o ho
      have hhash := hshaped.keyed request.getHash c hc o ho
      unfold CTxLockRequest.isSet at hset hrequest
      rw [show c.txLockRequest.getHash = request.getHash from hhash] at hset
      exact hset hrequest
    have hunset : Shaped E s → request.isSet E = false → ∀ o mn, c.hasMasternodeVoted o mn = true →
      mn = E.activeOutpoint :=
      fun hshaped _ => (hshaped request.getHash c hc).unset (by simpa using hset)
    have hlocks := lockAt_of_candidate hc
    split_ifs
    · exact extend_setRequest (c := { c with txLockRequest := request }) [] rfl hlocks hbefore hunset (.inl rfl)
    · exact extend_setRequest (c := { c with txLockRequest := request }) request.tx.vin rfl hlocks hbefore
        hunset (.inr rfl)

lemma extend_requestAttempt (request : CTxLockRequest) :
    LocksExtend E s (requestAttempt E ctx s request).1 := by
  rcases requestAttempt_cases (E := E) ctx s request with hnone | ⟨_, -, htried⟩
  · rw [hnone]
    exact extend_refl s
  · rw [htried]
    exact extend_createCandidate ctx s request

lemma createEmpty_lookup (txHash key : UInt256) :
    (s.createEmptyTxLockCandidate E ctx txHash).mapTxLockCandidates[key]? = s.mapTxLockCandidates[key]? ∨
      s.mapTxLockCandidates[key]? = none ∧ (s.createEmptyTxLockCandidate E ctx txHash).mapTxLockCandidates[key]? =
        some { txLockRequest := E.emptyRequest, nTimeCreated := ctx.getTime } := by
  rw [createEmptyTxLockCandidate, getElem?_insertIfNew]
  split_ifs with hnew
  · obtain ⟨heq, hnot⟩ := hnew
    rw [Std.LawfulEqCmp.compare_eq_iff_eq] at heq
    subst heq
    rw [mem_iff_isSome_getElem?, Option.not_isSome_iff_eq_none] at hnot
    exact .inr ⟨hnot, rfl⟩
  · exact .inl rfl

lemma extend_createEmpty (txHash : UInt256) :
    LocksExtend E s (s.createEmptyTxLockCandidate E ctx txHash) := by
  have hlookup := createEmpty_lookup (E := E) ctx s txHash
  refine extend_of_lockAt (fun k o => .inl ?_) rfl rfl (fun hs k c hc => ?_) (fun hs k c hc => ?_)
  · rw [lockAt, lockAt]
    rcases hlookup k with hsame | ⟨hnone, hnew⟩
    · rw [hsame]
    · rw [hnone, hnew]
      simp
  · rcases hlookup k with hsame | ⟨-, hnew⟩
    · exact hs k c (hsame ▸ hc)
    · cases hc.symm.trans hnew
      simp
  · rcases hlookup k with hsame | ⟨-, hnew⟩
    · exact hs k c (hsame ▸ hc)
    · cases hc.symm.trans hnew
      constructor <;> simp [CTxLockCandidate.hasMasternodeVoted]

lemma extend_limitOrphanVotes (vote : CTxLockVote) :
    LocksExtend E s (s.limitOrphanVotes ctx vote).2 := by
  unfold limitOrphanVotes
  dsimp only
  split
  · exact extend_of_eq rfl rfl rfl
  · split_ifs <;> exact extend_of_eq rfl rfl rfl

lemma extend_orphanAttempt (vote : CTxLockVote) :
    LocksExtend E s (orphanAttempt E ctx s vote).1 := by
  have hstored : LocksExtend E s (orphanStored E ctx s vote) :=
    (extend_createEmpty ctx s vote.txHash).trans (extend_of_eq rfl rfl rfl)
  unfold orphanAttempt
  split_ifs
  · exact extend_limitOrphanVotes ctx s vote
  · split
    · exact hstored.trans (extend_limitOrphanVotes ctx _ vote)
    · split_ifs
      · exact hstored.trans (extend_requestAttempt ctx _ _)
      · exact hstored.trans (extend_limitOrphanVotes ctx _ vote)

end

lemma extend_markAttacked (s : CInstantSend) (key : UInt256) (o : COutPoint) :
    LocksExtend E s (s.markAttacked key o) := by
  refine extend_of_update key (fun c => c.markOutpointAsAttacked o) (fun k => ?_) rfl rfl (fun _ => rfl) ?_
  · rw [markAttacked_lookup]
  intro c o'
  rw [markOutpointAsAttacked_lookup]
  split_ifs with ho
  · exact .inr (by rw [ho])
  · exact .inl rfl

lemma attacked_markAttacked (h : (lockAt s key o).isSome) :
    Attacked (s.markAttacked key o) key o := by
  obtain ⟨lock, hlock⟩ := Option.isSome_iff_exists.mp h
  refine ⟨lock.markAsAttacked, ?_, rfl⟩
  rw [lockAt_markAttacked, if_pos ⟨rfl, rfl⟩, hlock, Option.map_some]

lemma extend_markConflicting (s : CInstantSend) (vote : CTxLockVote) (hash : UInt256) :
    LocksExtend E s (s.markConflicting vote hash) :=
  markConflicting_induct extend_refl LocksExtend.trans extend_markAttacked s vote hash

lemma extend_markAll (s : CInstantSend) (vote : CTxLockVote) (hashes : List UInt256) :
    LocksExtend E s (hashes.foldl (fun s hash => s.markConflicting vote hash) s) :=
  markAll_induct extend_refl LocksExtend.trans extend_markAttacked s vote hashes

lemma markConflicting_attacked (E : InstantSendEnv) {vote : CTxLockVote} {hash : UInt256}
    (hne : hash ≠ vote.txHash) (hvote : HasVote s hash vote.outpoint vote.outpointMasternode)
    (hlock : (lockAt s vote.txHash vote.outpoint).isSome) :
    Attacked (s.markConflicting vote hash) vote.txHash vote.outpoint ∧
      Attacked (s.markConflicting vote hash) hash vote.outpoint := by
  obtain ⟨c, hc, hvoted⟩ := (hasVote_iff s hash _ _).mp hvote
  have hmark :
    s.markConflicting vote hash = (s.markAttacked vote.txHash vote.outpoint).markAttacked hash vote.outpoint := by
    unfold markConflicting
    rw [if_neg hne, hc]
    exact if_pos hvoted
  have hfirst := extend_markAttacked (E := E) s vote.txHash vote.outpoint
  have hsecond := extend_markAttacked (E := E) (s.markAttacked vote.txHash vote.outpoint) hash vote.outpoint
  rw [hmark]
  exact ⟨hsecond.attacked (attacked_markAttacked hlock),
    attacked_markAttacked (hfirst.isSome (isSome_of_hasVote hvote))⟩

lemma markAll_attacked (E : InstantSendEnv) {vote : CTxLockVote} {hashes : List UInt256}
    {hash : UInt256} (hmem : hash ∈ hashes) (hne : hash ≠ vote.txHash)
    (hvote : HasVote s hash vote.outpoint vote.outpointMasternode)
    (hlock : (lockAt s vote.txHash vote.outpoint).isSome) :
    Attacked (hashes.foldl (fun s hash => s.markConflicting vote hash) s) vote.txHash vote.outpoint ∧
      Attacked (hashes.foldl (fun s hash => s.markConflicting vote hash) s) hash vote.outpoint := by
  induction hashes generalizing s with
  | nil => cases hmem
  | cons first hashes ih =>
    have hfirst := extend_markConflicting (E := E) s vote first
    rcases mem_cons.mp hmem with rfl | hmem
    · obtain ⟨hnew, hold⟩ := markConflicting_attacked E hne hvote hlock
      have hrest := extend_markAll (E := E) (s.markConflicting vote hash) vote hashes
      exact ⟨hrest.attacked hnew, hrest.attacked hold⟩
    · exact ih hmem (hfirst.hasVote_iff.mpr hvote) (hfirst.isSome hlock)

lemma mem_votedHashes_addVotedHash (s : CInstantSend) (o : COutPoint) (h : UInt256) (o' : COutPoint) (h' : UInt256) :
    h' ∈ (s.addVotedHash o h).votedHashes o' ↔ (o' = o ∧ h' = h) ∨ h' ∈ s.votedHashes o' := by
  rw [votedHashes, addVotedHash, Std.ExtTreeMap.getElem?_insert]
  by_cases ho : o = o'
  · subst ho
    simp [Std.ExtTreeSet.mem_insert, votedHashes, eq_comm (a := h')]
  · have ho' : ¬o' = o := fun heq => ho heq.symm
    simp [ho, ho', votedHashes]

lemma mem_votedHashes_askedFor {h : UInt256} :
    h ∈ (askedFor s vote).votedHashes o ↔ (o = vote.outpoint ∧ h = vote.txHash) ∨ h ∈ s.votedHashes o := by
  have hsame := markAll_induct (R := fun s s' => s'.mapVotedOutpoints = s.mapVotedOutpoints) (fun _ => rfl)
    (fun hab hbc => hbc.trans hab) (fun _ _ _ => rfl) s vote (s.votedHashes vote.outpoint).toList
  rw [askedFor, mem_votedHashes_addVotedHash, votedHashes, hsame, ← votedHashes]

lemma isSome_lockAt_askedFor : (lockAt (askedFor s vote) key o).isSome = (lockAt s key o).isSome := by
  have hsame := congrArg Option.isSome (votes_markAll s vote (s.votedHashes vote.outpoint).toList key o)
  rwa [Option.isSome_map, Option.isSome_map] at hsame

structure SameRequests (s s' : CInstantSend) : Prop where
  requests : ∀ (key : UInt256) (c' : CTxLockCandidate), s'.mapTxLockCandidates[key]? = some c' →
    ∃ c, s.mapTxLockCandidates[key]? = some c ∧ c'.txLockRequest = c.txLockRequest
  locked : s'.mapLockedOutpoints = s.mapLockedOutpoints

lemma SameRequests.refl (s : CInstantSend) : SameRequests s s := ⟨fun _ c h => ⟨c, h, rfl⟩, rfl⟩

lemma SameRequests.trans {a b c : CInstantSend} (hab : SameRequests a b) (hbc : SameRequests b c) :
    SameRequests a c where
  requests key c'' hc'' := by
    obtain ⟨c', hc', hrequest'⟩ := hbc.requests key c'' hc''
    obtain ⟨c, hc, hrequest⟩ := hab.requests key c' hc'
    exact ⟨c, hc, hrequest'.trans hrequest⟩
  locked := hbc.locked.trans hab.locked

lemma sameRequests_markAttacked (s : CInstantSend) (key : UInt256) (o : COutPoint) :
    SameRequests s (s.markAttacked key o) := by
  refine ⟨fun k c' hc' => ?_, rfl⟩
  rw [markAttacked_lookup] at hc'
  split_ifs at hc' with hk
  · subst hk
    obtain ⟨c, hc, rfl⟩ := Option.map_eq_some_iff.mp hc'
    exact ⟨c, hc, rfl⟩
  · exact ⟨c', hc', rfl⟩

lemma sameRequests_askedFor (s : CInstantSend) (vote : CTxLockVote) : SameRequests s (askedFor s vote) := by
  have hmarks := markAll_induct SameRequests.refl SameRequests.trans sameRequests_markAttacked s vote
    (s.votedHashes vote.outpoint).toList
  exact ⟨hmarks.requests, hmarks.locked⟩

structure VoteAdded (vote : CTxLockVote) (s s' : CInstantSend) : Prop where
  votes : ∀ k o mn, HasVote s' k o mn ↔ HasVote s k o mn ∨ k = vote.txHash ∧ o = vote.outpoint ∧
    mn = vote.outpointMasternode
  locks : ∀ k o lock, lockAt s k o = some lock → ∃ lock', lockAt s' k o = some lock' ∧
    lock.mapMasternodeVotes.size ≤ lock'.mapMasternodeVotes.size ∧ lock'.fAttacked = lock.fAttacked
  candidates : ∀ (k : UInt256) (c' : CTxLockCandidate), s'.mapTxLockCandidates[k]? = some c' →
    ∃ c : CTxLockCandidate, s.mapTxLockCandidates[k]? = some c ∧ c'.txLockRequest = c.txLockRequest ∧
      ∀ o, o ∈ c'.mapOutPointLocks ↔ o ∈ c.mapOutPointLocks
  hashes : s'.mapVotedOutpoints = s.mapVotedOutpoints
  locked : s'.mapLockedOutpoints = s.mapLockedOutpoints

lemma addVote_lock {c' : CTxLockCandidate} (h : c.addVote vote = some c') :
    ∃ lock lock' : COutPointLock, c.mapOutPointLocks[vote.outpoint]? = some lock ∧
      c'.mapOutPointLocks = c.mapOutPointLocks.insert vote.outpoint lock' ∧ c'.txLockRequest = c.txLockRequest ∧
      lock'.mapMasternodeVotes = lock.mapMasternodeVotes.insert vote.outpointMasternode vote ∧
        lock'.fAttacked = lock.fAttacked ∧
      c'.nTimeCreated = c.nTimeCreated := by
  unfold CTxLockCandidate.addVote at h
  cases hlock : c.mapOutPointLocks[vote.outpoint]? with
  | none =>
    rw [hlock] at h
    cases h
  | some lock =>
    rw [hlock] at h
    unfold addVote at h
    dsimp only at h
    split_ifs at h
    cases h
    exact ⟨lock, _, rfl, rfl, rfl, rfl, rfl, rfl⟩

lemma voteAdded_setCandidate {c' : CTxLockCandidate}
    (hc : s.mapTxLockCandidates[vote.txHash]? = some c) (hadd : c.addVote vote = some c') :
    VoteAdded vote s (s.setCandidate vote.txHash c') := by
  obtain ⟨lock, lock', hlock, hlocks, hrequest, hvotes, hattacked, -⟩ := addVote_lock hadd
  have hbefore : lockAt s vote.txHash vote.outpoint = some lock := (lockAt_of_candidate hc _).trans hlock
  have hafter : ∀ k o, lockAt (s.setCandidate vote.txHash c') k o =
      if k = vote.txHash ∧ o = vote.outpoint then some lock' else lockAt s k o := by
    intro k o
    rw [lockAt, setCandidate_lookup]
    by_cases hk : k = vote.txHash
    · subst hk
      rw [if_pos rfl, Option.bind_some, hlocks, Std.ExtTreeMap.getElem?_insert, lockAt_of_candidate hc]
      simp [eq_comm (a := o)]
    · rw [if_neg (fun h => hk h.symm), if_neg (fun h => hk h.1)]
      rfl
  refine ⟨?_, ?_, ?_, rfl, rfl⟩
  · intro k o mn
    rw [HasVote, HasVote, hafter]
    by_cases hko : k = vote.txHash ∧ o = vote.outpoint
    · obtain ⟨rfl, rfl⟩ := hko
      rw [if_pos ⟨rfl, rfl⟩, hbefore]
      simp [hvotes, mem_insert, or_comm, eq_comm (a := mn)]
    · rw [if_neg hko]
      constructor
      · exact .inl
      · rintro (h | ⟨hk, ho, -⟩)
        · exact h
        · exact absurd ⟨hk, ho⟩ hko
  · intro k o l hl
    rw [hafter]
    split_ifs with hko
    · obtain ⟨rfl, rfl⟩ := hko
      cases hbefore.symm.trans hl
      refine ⟨lock', rfl, ?_, hattacked⟩
      rw [hvotes]
      exact size_le_size_insert
    · exact ⟨l, hl, le_rfl, rfl⟩
  · intro k c₁ hc₁
    rw [setCandidate_lookup] at hc₁
    split_ifs at hc₁ with hk
    · cases hc₁
      subst hk
      refine ⟨c, hc, hrequest, fun o => ?_⟩
      rw [hlocks, mem_insert, Std.LawfulEqCmp.compare_eq_iff_eq]
      refine ⟨?_, .inr⟩
      rintro (rfl | ho)
      · rw [mem_iff_isSome_getElem?, hlock]
        rfl
      · exact ho
    · exact ⟨c₁, hc₁, rfl, fun o => Iff.rfl⟩

lemma VoteAdded.sameRequests (h : VoteAdded vote s s') : SameRequests s s' where
  requests k c' hc' := by
    obtain ⟨c, hc, hrequest, -⟩ := h.candidates k c' hc'
    exact ⟨c, hc, hrequest⟩
  locked := h.locked

lemma addVote_cases (s : CInstantSend) :
    (¬Unvoted s vote ∧
        (s.mapTxLockCandidates[vote.txHash]?).bind (fun candidate => candidate.addVote vote) = none) ∨
      ∃ c', (s.mapTxLockCandidates[vote.txHash]?).bind (fun candidate => candidate.addVote vote) = some c' ∧
        (lockAt s vote.txHash vote.outpoint).isSome ∧ VoteAdded vote s (s.setCandidate vote.txHash c') := by
  cases hadd : (s.mapTxLockCandidates[vote.txHash]?).bind (fun candidate => candidate.addVote vote) with
  | none =>
    rw [← addVote_isSome_iff, hadd]
    exact .inl ⟨Bool.false_ne_true, rfl⟩
  | some c' =>
    have hlock := ((addVote_isSome_iff s vote).mp (by rw [hadd]; rfl)).1
    obtain ⟨c, hc, hadded⟩ := Option.bind_eq_some_iff.mp hadd
    exact .inr ⟨c', rfl, hlock, voteAdded_setCandidate hc hadded⟩

lemma countAttempt_cases (s : CInstantSend) (vote : CTxLockVote) :
    countAttempt s vote = (askedFor s vote, none) ∨
      (lockAt s vote.txHash vote.outpoint).isSome ∧ VoteAdded vote (askedFor s vote) (countAttempt s vote).1 ∧
        (countAttempt s vote).2 = some vote.txHash := by
  unfold countAttempt
  rcases addVote_cases (askedFor s vote) with ⟨-, hnone⟩ | ⟨c', hadd, hlock, hadded⟩
  · rw [hnone]
    exact .inl rfl
  · rw [hadd]
    rw [isSome_lockAt_askedFor] at hlock
    exact .inr ⟨hlock, hadded, rfl⟩

def storedVote (E : InstantSendEnv) (s : CInstantSend) (vote : CTxLockVote) : CInstantSend :=
  { s with mapTxLockVotes := s.mapTxLockVotes.insertIfNew (vote.getHash E) vote }

lemma recordOwnVote_cases (s : CInstantSend) (vote : CTxLockVote) :
    (¬Unvoted s vote ∧
        s.recordOwnVote E vote.txHash vote = storedVote E s vote) ∨
      (lockAt s vote.txHash vote.outpoint).isSome ∧
        VoteAdded vote ((storedVote E s vote).addVotedHash vote.outpoint vote.txHash)
          (s.recordOwnVote E vote.txHash vote) := by
  unfold recordOwnVote
  dsimp only
  rcases addVote_cases ((storedVote E s vote).addVotedHash vote.outpoint vote.txHash) with
    ⟨hnot, hnone⟩ | ⟨c', hadd, hlock, hadded⟩
  · rw [show (s.mapTxLockCandidates[vote.txHash]?).bind _ = none from hnone]
    exact .inl ⟨hnot, rfl⟩
  · rw [show (s.mapTxLockCandidates[vote.txHash]?).bind _ = some c' from hadd]
    exact .inr ⟨hlock, hadded⟩

section OwnVotes

variable {P : CInstantSend → List CTxLockVote → Prop}

/-- What recording an own vote keeps, the loop over the outpoints keeps; the list holds the votes signed so far. -/
lemma voteOutpoints_induct (ctx : InstantSendContext) (key : UInt256) (outpoints : List COutPoint)
    (hrecord : ∀ s signed, ∀ o ∈ outpoints, ∀ vote coin nRank, P s signed → ctx.getUTXOCoin o = some coin →
      ctx.getMasternodeRank E.activeOutpoint (coin.nHeight + 4) = some nRank → ¬nRank > SIGNATURES_TOTAL →
      s.alreadyVoted E o (s.votedHashes o).toList = some false → signedVote E ctx key o = some vote →
      P (s.recordOwnVote E key vote) (signed ++ [vote]))
    (signed : List CTxLockVote) (hs : P s signed) :
    P (s.voteOutpoints E ctx key key outpoints).state (signed ++ (s.voteOutpoints E ctx key key outpoints).signed) ∧
      ((s.voteOutpoints E ctx key key outpoints).crashed = true →
        ∃ t signed o, P t signed ∧ t.alreadyVoted E o (t.votedHashes o).toList = none) := by
  induction outpoints generalizing s signed with
  | nil => simpa [voteOutpoints] using hs
  | cons o outpoints ih =>
    have hlater := fun s signed o' ho' => hrecord s signed o' (mem_cons_of_mem o ho')
    unfold voteOutpoints
    split
    · simpa using hs
    next coin hcoin =>
    split
    · exact ih hlater signed hs
    next nRank hrank =>
    split_ifs with htop
    · exact ih hlater signed hs
    split
    · next hnone => exact ⟨by simpa using hs, fun _ => ⟨s, signed, o, hs, hnone⟩⟩
    · exact ih hlater signed hs
    · next hnot =>
      split
      · simpa using hs
      · next vote hsigned =>
        have hrest :=
          ih hlater _ (hrecord s signed o mem_cons_self vote coin nRank hs hcoin hrank htop hnot hsigned)
        rwa [append_assoc] at hrest

lemma voteCandidate_cases (ctx : InstantSendContext) (hkeyed : Keyed s) (hc : s.mapTxLockCandidates[key]? = some c) :
    s.voteCandidate E ctx key c = { state := s } ∨
      s.voteCandidate E ctx key c = s.voteOutpoints E ctx key key c.mapOutPointLocks.keys := by
  unfold voteCandidate
  split_ifs
  · exact .inl rfl
  · exact .inl rfl
  · exact .inl rfl
  cases hkeys : c.mapOutPointLocks.keys with
  | nil => exact .inl rfl
  | cons o outpoints =>
    have ho : o ∈ c.mapOutPointLocks := by
      rw [← Std.ExtTreeMap.mem_keys, hkeys]
      exact mem_cons_self
    rw [hkeyed key c hc o ho]
    exact .inr rfl

end OwnVotes

end Qstees.Proofs
