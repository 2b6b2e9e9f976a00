import Qstees.Proofs.VotedOutpoints

/-!
# Quorums of lock votes

Six of ten masternodes complete the lock of an outpoint, so two completed locks for it share a masternode.
-/

namespace Qstees.Proofs

open CInstantSend List Std.ExtTreeMap

variable {E : InstantSendEnv}

variable (E) in
/-- Votes for an outpoint are of its masternodes and their candidates are among those to ask; votes of one masternode
for two transactions have both candidates marked; a locked outpoint has the votes for it. -/
structure VotesKept (Q : COutPoint → Finset COutPoint) (s : CInstantSend) : Prop where
  shaped : Shaped E s
  voters : ∀ key o mn, HasVote s key o mn → mn ∈ Q o
  asked : ∀ key o mn, HasVote s key o mn → key ∈ s.votedHashes o
  conflicts : ∀ k k' o mn, k ≠ k' → HasVote s k o mn → HasVote s k' o mn → Attacked s k o
  locked : ∀ (o : COutPoint) (h : UInt256), s.mapLockedOutpoints[o]? = some h →
    ∃ lock, lockAt s h o = some lock ∧ SIGNATURES_REQUIRED ≤ lock.mapMasternodeVotes.size

variable {Q : COutPoint → Finset COutPoint}

variable {s : CInstantSend} {c : CTxLockCandidate} {vote : CTxLockVote} {ctx : InstantSendContext}
  {key : UInt256}

lemma VotesKept.extend {s' : CInstantSend} (hs : VotesKept E Q s) (h : LocksExtend E s s') :
    VotesKept E Q s' where
  shaped := h.shaped hs.shaped
  voters key o mn hvote := hs.voters key o mn (h.hasVote_iff.mp hvote)
  asked key o mn hvote := h.grows.hashes o key (hs.asked key o mn (h.hasVote_iff.mp hvote))
  conflicts k k' o mn hne hvote hvote' :=
    h.attacked (hs.conflicts k k' o mn hne (h.hasVote_iff.mp hvote) (h.hasVote_iff.mp hvote'))
  locked o hash hlocked := by
    rw [h.locked] at hlocked
    obtain ⟨lock, hlock, hvotes⟩ := hs.locked o hash hlocked
    obtain ⟨lock', hlock', hsame, -⟩ := h.kept hash o lock hlock
    exact ⟨lock', hlock', hsame ▸ hvotes⟩

lemma VotesKept.addVotedHash (hs : VotesKept E Q s) (o : COutPoint) (h : UInt256) :
    VotesKept E Q (s.addVotedHash o h) where
  shaped := hs.shaped
  voters := hs.voters
  asked k o' mn hvote := (mem_votedHashes_addVotedHash s o h o' k).mpr (.inr (hs.asked k o' mn hvote))
  conflicts := hs.conflicts
  locked := hs.locked

lemma VotesKept.voteAdded {s' : CInstantSend} (hs : VotesKept E Q s) (h : VoteAdded vote s s')
    (hvoter : vote.outpointMasternode ∈ Q vote.outpoint) (hasked : vote.txHash ∈ s.votedHashes vote.outpoint)
    (hset : vote.outpointMasternode = E.activeOutpoint ∨
      ∀ c : CTxLockCandidate, s.mapTxLockCandidates[vote.txHash]? = some c → c.txLockRequest.isSet E = true)
    (hmarked : ∀ k, k ≠ vote.txHash → HasVote s k vote.outpoint vote.outpointMasternode →
      Attacked s vote.txHash vote.outpoint ∧ Attacked s k vote.outpoint) : VotesKept E Q s' := by
  have hattacked : ∀ k o, Attacked s k o → Attacked s' k o := by
    rintro k o ⟨lock, hlock, hattacked⟩
    obtain ⟨lock', hlock', -, hsame⟩ := h.locks k o lock hlock
    exact ⟨lock', hlock', hsame.trans hattacked⟩
  refine ⟨?_, ?_, ?_, ?_, ?_⟩
  · intro k c' hc'
    obtain ⟨c, hc, hrequest, hmem⟩ := h.candidates k c' hc'
    have hshaped := hs.shaped k c hc
    refine ⟨fun o ho => ?_, fun hset o ho txin htxin => ?_, fun hunset o mn hmn => ?_⟩
    · rw [CTxLockCandidate.getHash, hrequest]
      exact hshaped.keyed o ((hmem o).mp ho)
    · rw [hrequest] at hset htxin
      exact (hmem _).mpr (hshaped.inputs hset o ((hmem o).mp ho) txin htxin)
    · rw [hrequest] at hunset
      rcases (h.votes k o mn).mp ((hasVote_iff s' k o mn).mpr ⟨c', hc', hmn⟩) with hold | ⟨rfl, rfl, rfl⟩
      · obtain ⟨c₀, hc₀, hvoted⟩ := (hasVote_iff s k o mn).mp hold
        cases hc.symm.trans hc₀
        exact hshaped.unset hunset o mn hvoted
      · rcases hset with hown | hset
        · exact hown
        · rw [hset c hc] at hunset
          cases hunset
  · intro k o mn hvote
    rcases (h.votes k o mn).mp hvote with hold | ⟨rfl, rfl, rfl⟩
    · exact hs.voters k o mn hold
    · exact hvoter
  · intro k o mn hvote
    rw [votedHashes, h.hashes]
    rcases (h.votes k o mn).mp hvote with hold | ⟨rfl, rfl, rfl⟩
    · exact hs.asked k o mn hold
    · exact hasked
  · intro k k' o mn hne hvote hvote'
    apply hattacked
    rcases (h.votes k o mn).mp hvote with hold | ⟨rfl, rfl, rfl⟩
    · rcases (h.votes k' o mn).mp hvote' with hold' | ⟨rfl, rfl, rfl⟩
      · exact hs.conflicts k k' o mn hne hold hold'
      · exact (hmarked k hne hold).2
    · rcases (h.votes k' _ _).mp hvote' with hold' | ⟨rfl, -, -⟩
      · exact (hmarked k' hne.symm hold').1
      · exact absurd rfl hne
  · intro o hash hlocked
    rw [h.locked] at hlocked
    obtain ⟨lock, hlock, hsize⟩ := hs.locked o hash hlocked
    obtain ⟨lock', hlock', hgrows, -⟩ := h.locks hash o lock hlock
    exact ⟨lock', hlock', hsize.trans hgrows⟩

lemma findConflict_eq_clear {txHash : UInt256} {vin : List CTxIn}
    (h : s.findConflict ctx txHash vin = .clear) :
    ∀ txin ∈ vin, ∀ hash, s.mapLockedOutpoints[txin.prevout]? = some hash → hash = txHash := by
  induction vin with
  | nil =>
    intro txin htxin
    cases htxin
  | cons first vin ih =>
    unfold findConflict at h
    cases hinput : s.inputConflict ctx txHash first with
    | locked hash =>
      rw [hinput] at h
      cases h
    | mempool =>
      rw [hinput] at h
      cases h
    | clear =>
      rw [hinput] at h
      intro txin htxin hash hhash
      rcases mem_cons.mp htxin with rfl | htxin
      · by_contra hne
        have hfilter : (s.mapLockedOutpoints[txin.prevout]?).filter (fun hash => txHash != hash) = some hash := by
          rw [hhash, Option.filter_some, if_pos]
          simpa using fun heq => hne heq.symm
        simp [inputConflict, hfilter] at hinput
      · exact ih h txin htxin hash hhash

lemma ready_locks (h : c.isAllOutPointsReady = true) :
    (∃ o, o ∈ c.mapOutPointLocks) ∧ ∀ (o : COutPoint) (lock : COutPointLock), c.mapOutPointLocks[o]? = some lock →
      lock.fAttacked = false ∧ SIGNATURES_REQUIRED ≤ lock.mapMasternodeVotes.size := by
  unfold CTxLockCandidate.isAllOutPointsReady at h
  rw [Bool.and_eq_true, all_eq_true] at h
  constructor
  · have hne : ¬c.mapOutPointLocks.isEmpty = true := by simpa using h.1
    rw [Std.ExtTreeMap.isEmpty_iff] at hne
    by_contra hnone
    push Not at hnone
    exact hne (eq_empty_iff_forall_not_mem.mpr hnone)
  · intro o lock hlock
    have hready := h.2 (o, lock) (mem_toList_iff_getElem?_eq_some.mpr hlock)
    simp only [COutPointLock.isReady, Bool.and_eq_true, Bool.not_eq_true', decide_eq_true_eq] at hready
    refine ⟨hready.1, ?_⟩
    have hcount := hready.2
    rwa [COutPointLock.countVotes, hready.1] at hcount

lemma card_keys (m : StdMap COutPoint CTxLockVote) : m.keys.toFinset.card = m.size := by
  rw [toFinset_card_of_nodup nodup_keys, length_keys]

lemma votes_meet {voters : Finset COutPoint} (hvoters : (voters.card : Int) ≤ SIGNATURES_TOTAL)
    {m m' : StdMap COutPoint CTxLockVote}
    (hm : ∀ mn ∈ m, mn ∈ voters) (hm' : ∀ mn ∈ m', mn ∈ voters) (hsize : SIGNATURES_REQUIRED ≤ m.size)
    (hsize' : SIGNATURES_REQUIRED ≤ m'.size) : ∃ mn, mn ∈ m ∧ mn ∈ m' := by
  have hsub : m.keys.toFinset ⊆ voters := fun mn hmn => hm mn (by simpa using hmn)
  have hsub' : m'.keys.toFinset ⊆ voters := fun mn hmn => hm' mn (by simpa using hmn)
  have hlt : voters.card < m.keys.toFinset.card + m'.keys.toFinset.card := by
    rw [card_keys, card_keys]
    simp only [SIGNATURES_TOTAL, SIGNATURES_REQUIRED] at hvoters hsize hsize'
    omega
  obtain ⟨mn, hmn⟩ := Finset.inter_nonempty_of_card_lt_card_add_card hsub hsub' hlt
  rw [Finset.mem_inter] at hmn
  exact ⟨mn, by simpa using hmn.1, by simpa using hmn.2⟩

lemma VotesKept.set_of_ready (hs : VotesKept E Q s) (hc : s.mapTxLockCandidates[key]? = some c)
    (hready : c.isAllOutPointsReady = true) : c.txLockRequest.isSet E = true := by
  obtain ⟨⟨o, ho⟩, hlocks⟩ := ready_locks hready
  by_contra hunset
  rw [mem_iff_isSome_getElem?] at ho
  obtain ⟨lock, hlock⟩ := Option.isSome_iff_exists.mp ho
  have hown : ∀ mn ∈ lock.mapMasternodeVotes, mn = E.activeOutpoint := by
    intro mn hmn
    apply (hs.shaped key c hc).unset (by simpa using hunset) o mn
    simpa [CTxLockCandidate.hasMasternodeVoted, hlock, COutPointLock.hasMasternodeVoted] using hmn
  -- the own vote alone is not enough
  have hsub : lock.mapMasternodeVotes.keys.toFinset ⊆ {E.activeOutpoint} := fun mn hmn => by
    rw [Finset.mem_singleton]
    exact hown mn (by simpa using hmn)
  have hcard := Finset.card_le_card hsub
  rw [card_keys, Finset.card_singleton] at hcard
  have hsix := (hlocks o lock hlock).2
  simp only [SIGNATURES_REQUIRED] at hsix
  omega

lemma VotesKept.not_conflict (hQ : ∀ o, ((Q o).card : Int) ≤ SIGNATURES_TOTAL)
    (hs : VotesKept E Q s) (hc : s.mapTxLockCandidates[key]? = some c)
    (hready : c.isAllOutPointsReady = true) (ctx : InstantSendContext) (hash : UInt256) :
    s.findConflict ctx c.getHash c.txLockRequest.tx.vin ≠ .locked hash := by
  intro hconflict
  obtain ⟨txin, htxin, hlocked, hne⟩ := findConflict_eq_locked hconflict
  obtain ⟨⟨o, ho⟩, hlocks⟩ := ready_locks hready
  have hkey : c.getHash = key := hs.shaped.keyed key c hc o ho
  have hinput := (hs.shaped key c hc).inputs (hs.set_of_ready hc hready) o ho txin htxin
  rw [mem_iff_isSome_getElem?] at hinput
  obtain ⟨lock, hlock⟩ := Option.isSome_iff_exists.mp hinput
  obtain ⟨hclean, hsix⟩ := hlocks txin.prevout lock hlock
  have hlockAt : lockAt s key txin.prevout = some lock := (lockAt_of_candidate hc _).trans hlock
  obtain ⟨lock', hlock', hsix'⟩ := hs.locked txin.prevout hash hlocked
  obtain ⟨mn, hmn, hmn'⟩ := votes_meet (hQ txin.prevout)
    (fun mn hmn => hs.voters key _ mn ⟨lock, hlockAt, hmn⟩)
    (fun mn hmn => hs.voters hash _ mn ⟨lock', hlock', hmn⟩) hsix hsix'
  obtain ⟨lock'', hlock'', hattacked⟩ :=
    hs.conflicts key hash txin.prevout mn (fun heq => hne (heq.symm.trans hkey.symm))
    ⟨lock, hlockAt, hmn⟩ ⟨lock', hlock', hmn'⟩
  cases hlockAt.symm.trans hlock''
  rw [hclean] at hattacked
  cases hattacked

lemma insertAll_lookup (entries : List (COutPoint × COutPointLock)) (m : StdMap COutPoint UInt256)
    (h : UInt256) (o : COutPoint) :
    (entries.foldl (fun m entry => m.insertIfNew entry.1 h) m)[o]? =
      if o ∈ entries.map Prod.fst then some ((m[o]?).getD h) else m[o]? := by
  induction entries generalizing m with
  | nil => simp
  | cons entry entries ih =>
    rw [foldl_cons, ih, map_cons, getElem?_insertIfNew]
    simp only [Std.LawfulEqCmp.compare_eq_iff_eq, mem_cons, mem_iff_isSome_getElem?]
    by_cases ho : entry.1 = o
    · subst ho
      cases m[entry.1]? with
      | none => simp
      | some h' => simp
    · have hor : (o = entry.1 ∨ o ∈ entries.map Prod.fst) = (o ∈ entries.map Prod.fst) :=
        propext (or_iff_right (fun heq => ho heq.symm))
      simp only [ho, false_and, if_false, hor]

lemma lockTransactionInputs_lookup (h : Completes E ctx s c) (o : COutPoint) :
    (s.lockTransactionInputs ctx c).mapLockedOutpoints[o]? =
      if o ∈ c.mapOutPointLocks then some ((s.mapLockedOutpoints[o]?).getD c.getHash)
        else s.mapLockedOutpoints[o]? := by
  unfold lockTransactionInputs
  rw [if_neg (by simp [h.1]), if_neg (by simp [h.2.1])]
  dsimp only
  rw [insertAll_lookup]
  simp only [Std.ExtTreeMap.map_fst_toList_eq_keys, Std.ExtTreeMap.mem_keys]

lemma VotesKept.tryToFinalizeAt (hQ : ∀ o, ((Q o).card : Int) ≤ SIGNATURES_TOTAL)
    (hs : VotesKept E Q s) (ctx : InstantSendContext) (key : UInt256) :
    VotesKept E Q (s.tryToFinalizeAt E ctx key) ∧
      ∀ (o : COutPoint) (h : UInt256), s.mapLockedOutpoints[o]? = some h →
        (s.tryToFinalizeAt E ctx key).mapLockedOutpoints[o]? = some h := by
  unfold CInstantSend.tryToFinalizeAt
  cases hc : s.mapTxLockCandidates[key]? with
  | none => exact ⟨hs, fun _ _ h => h⟩
  | some c =>
    dsimp only
    rcases tryToFinalize_cases (E := E) ctx s c with ⟨-, hsame⟩ | ⟨hash, hready, hconflict, -⟩ | ⟨hcompletes, -, hlock⟩
    · rw [hsame]
      exact ⟨hs, fun _ _ h => h⟩
    · exact absurd hconflict (hs.not_conflict hQ hc hready ctx hash)
    obtain ⟨⟨o₀, ho₀⟩, hlocks⟩ := ready_locks hcompletes.2.1
    have hkey : c.getHash = key := hs.shaped.keyed key c hc o₀ ho₀
    have hlookup := lockTransactionInputs_lookup hcompletes
    obtain ⟨locked, hlocked⟩ := lockTransactionInputs_eq ctx s c
    rw [hlock]
    refine ⟨?_, ?_⟩
    · rw [hlocked] at hlookup ⊢
      refine ⟨hs.shaped, hs.voters, hs.asked, hs.conflicts, ?_⟩
      intro o h hh
      change locked[o]? = some h at hh
      rw [show locked[o]? = _ from hlookup o] at hh
      split_ifs at hh with ho
      · cases hbefore : s.mapLockedOutpoints[o]? with
        | some h' =>
          rw [hbefore] at hh
          exact hs.locked o h (hbefore.trans hh)
        | none =>
          rw [hbefore] at hh
          obtain rfl : c.getHash = h := Option.some.inj hh
          rw [mem_iff_isSome_getElem?] at ho
          obtain ⟨lock, hlock⟩ := Option.isSome_iff_exists.mp ho
          refine ⟨lock, ?_, (hlocks o lock hlock).2⟩
          rw [hkey]
          exact (lockAt_of_candidate hc o).trans hlock
      · exact hs.locked o h hh
    · intro o h hh
      rw [hlookup, hh]
      split_ifs <;> rfl

lemma VotesKept.completed (hs : VotesKept E Q s) (hc : s.mapTxLockCandidates[key]? = some c)
    (h : Completes E ctx s c) {txin : CTxIn} (htxin : txin ∈ c.txLockRequest.tx.vin) :
    (∀ hash, s.mapLockedOutpoints[txin.prevout]? = some hash → hash = c.getHash) ∧
      (s.tryToFinalizeAt E ctx key).mapLockedOutpoints[txin.prevout]? = some c.getHash := by
  unfold CInstantSend.tryToFinalizeAt
  rw [hc]
  dsimp only
  rcases tryToFinalize_cases (E := E) ctx s c with ⟨hnot, -⟩ | ⟨hash, -, -, hnot, -⟩ | ⟨-, hclear, hlock⟩
  · exact absurd h hnot
  · exact absurd h hnot
  have hfree := findConflict_eq_clear hclear txin htxin
  refine ⟨hfree, ?_⟩
  obtain ⟨⟨o, ho⟩, -⟩ := ready_locks h.2.1
  have hinput := (hs.shaped key c hc).inputs (hs.set_of_ready hc h.2.1) o ho txin htxin
  rw [hlock, lockTransactionInputs_lookup h, if_pos hinput]
  cases hbefore : s.mapLockedOutpoints[txin.prevout]? with
  | none => rfl
  | some hash =>
    rw [hfree hash hbefore]
    rfl

end Qstees.Proofs
