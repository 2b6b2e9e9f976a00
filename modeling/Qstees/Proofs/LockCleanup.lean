import Qstees.Library.Traversal
import Qstees.Proofs.LockMemory

/-!
# The clean-up of lock candidates

A candidate expires some blocks after its transaction is confirmed.
-/

namespace Qstees.Proofs

open CInstantSend Std.ExtTreeMap

variable {E : InstantSendEnv}

variable (E) in
def Expired (s : CInstantSend) (c : CTxLockCandidate) : Prop :=
  lockExpired E c.nConfirmedHeight s.nCachedBlockHeight = true

variable (E) in
def LockExpires (s : CInstantSend) (o : COutPoint) : Prop :=
  ∃ (k : UInt256) (c : CTxLockCandidate), s.mapTxLockCandidates[k]? = some c ∧ Expired E s c ∧ o ∈ c.mapOutPointLocks

lemma eraseAll_lookup {V : Type} (entries : List (COutPoint × COutPointLock)) (m : StdMap COutPoint V) (o : COutPoint) :
    (entries.foldl (fun m entry => m.erase entry.1) m)[o]? = if ∃ entry ∈ entries,
      entry.1 = o then none else m[o]? := by
  refine Traversal.view_foldl (fun m => m[o]?) none (fun m entry => ?_) entries m
  rw [getElem?_erase]
  simp

lemma removeCandidate_maps (s : CInstantSend) (key : UInt256) (c : CTxLockCandidate) (o : COutPoint) :
    (s.removeCandidate key c).votedHashes o = (if o ∈ c.mapOutPointLocks then ∅ else s.votedHashes o) ∧
      (s.removeCandidate key c).mapLockedOutpoints[o]? =
        if o ∈ c.mapOutPointLocks then none else s.mapLockedOutpoints[o]? := by
  have hmem : (∃ entry ∈ c.mapOutPointLocks.toList, entry.1 = o) ↔ o ∈ c.mapOutPointLocks := by
    rw [← List.mem_map, map_fst_toList_eq_keys, mem_keys]
  unfold votedHashes removeCandidate
  dsimp only
  rw [eraseAll_lookup, eraseAll_lookup]
  simp only [hmem, and_true]
  split_ifs <;> rfl

variable {s : CInstantSend} {ctx : InstantSendContext}

/-- What the removal of a candidate clears or leaves is cleared by the clean-up if an expired candidate clears it. -/
lemma removeExpired_view {α : Type} (view : CInstantSend → α) (gone : α) {hit : UInt256 → CTxLockCandidate → Prop}
    [∀ k c, Decidable (hit k c)] (hstep : ∀ t k c, view (t.removeCandidate k c) = if hit k c then gone else view t) :
    ((∃ (k : UInt256) (c : CTxLockCandidate), s.mapTxLockCandidates[k]? = some c ∧ Expired E s c ∧ hit k c) →
        view (s.removeExpiredCandidates E) = gone) ∧
      ((¬∃ (k : UInt256) (c : CTxLockCandidate), s.mapTxLockCandidates[k]? = some c ∧ Expired E s c ∧ hit k c) →
        view (s.removeExpiredCandidates E) = view s) := by
  have hfold : view (s.removeExpiredCandidates E) = if ∃ entry ∈ s.mapTxLockCandidates.toList,
      lockExpired E entry.2.nConfirmedHeight s.nCachedBlockHeight = true ∧
        hit entry.1 entry.2 then gone else view s := by
    refine Traversal.view_foldl view gone (fun t entry => ?_) _ s
    by_cases hexpired : lockExpired E entry.2.nConfirmedHeight s.nCachedBlockHeight = true <;> simp [hexpired, hstep]
  rw [hfold]
  constructor
  · rintro ⟨k, c, hc, hex, hhit⟩
    exact if_pos ⟨(k, c), mem_toList_iff_getElem?_eq_some.mpr hc, hex, hhit⟩
  · intro hnot
    apply if_neg
    rintro ⟨⟨k, c⟩, hentry, hex, hhit⟩
    exact hnot ⟨k, c, mem_toList_iff_getElem?_eq_some.mp hentry, hex, hhit⟩

lemma checkAndRemove_lookup (hsynced : ctx.isMasternodeListSynced = true) {k : UInt256} {c : CTxLockCandidate} :
    (s.checkAndRemove E ctx).mapTxLockCandidates[k]? = some c ↔ s.mapTxLockCandidates[k]? = some c ∧
      ¬Expired E s c := by
  have hsame : (s.checkAndRemove E ctx).mapTxLockCandidates = (s.removeExpiredCandidates E).mapTxLockCandidates := by
    rw [CInstantSend.checkAndRemove, if_neg (by simp [hsynced])]
    rfl
  have herase : ∀ (t : CInstantSend) (k' : UInt256) c, (t.removeCandidate k' c).mapTxLockCandidates[k]? =
      if k' = k then none else t.mapTxLockCandidates[k]? := by
    intro t k' c
    rw [removeCandidate, getElem?_erase]
    simp
  obtain ⟨hgone, hkept⟩ := removeExpired_view (E := E) (s := s) (fun t => t.mapTxLockCandidates[k]?) none herase
  rw [hsame]
  by_cases hexpired : ∃ (k' : UInt256) (c : CTxLockCandidate), s.mapTxLockCandidates[k']? = some c ∧
    Expired E s c ∧ k' = k
  · rw [hgone hexpired]
    obtain ⟨k', c', hc', hex, rfl⟩ := hexpired
    grind
  · rw [hkept hexpired]
    exact ⟨fun hc => ⟨hc, fun hex => hexpired ⟨k, c, hc, hex, rfl⟩⟩, And.left⟩

/-- What the clean-up of a synced node does to candidates and hashes. -/
structure CleansUp (s s' : CInstantSend) : Prop where
  stays : ∀ (k : UInt256) (c : CTxLockCandidate), s.mapTxLockCandidates[k]? = some c → ¬Expired E s c →
    s'.mapTxLockCandidates[k]? = some c
  only : ∀ (k : UInt256) (c : CTxLockCandidate), s'.mapTxLockCandidates[k]? = some c →
    s.mapTxLockCandidates[k]? = some c ∧ ¬Expired E s c
  hashes : ∀ o : COutPoint, (∀ (k : UInt256) (c : CTxLockCandidate), s.mapTxLockCandidates[k]? =
    some c → Expired E s c → o ∉ c.mapOutPointLocks) → s'.votedHashes o = s.votedHashes o

lemma checkAndRemove_maps (hsynced : ctx.isMasternodeListSynced = true) (s : CInstantSend) (o : COutPoint) :
    (LockExpires E s o → (s.checkAndRemove E ctx).votedHashes o = ∅ ∧
      (s.checkAndRemove E ctx).mapLockedOutpoints[o]? = none) ∧
      (¬LockExpires E s o → (s.checkAndRemove E ctx).votedHashes o = s.votedHashes o ∧
        (s.checkAndRemove E ctx).mapLockedOutpoints[o]? = s.mapLockedOutpoints[o]?) := by
  have hsame : (s.checkAndRemove E ctx).votedHashes o = (s.removeExpiredCandidates E).votedHashes o ∧
      (s.checkAndRemove E ctx).mapLockedOutpoints = (s.removeExpiredCandidates E).mapLockedOutpoints := by
    rw [CInstantSend.checkAndRemove, if_neg (by simp [hsynced])]
    exact ⟨rfl, rfl⟩
  obtain ⟨hgone, hkept⟩ := removeExpired_view (E := E) (s := s) (fun t => t.votedHashes o) ∅
    (fun t k c => (removeCandidate_maps t k c o).1)
  obtain ⟨hgone', hkept'⟩ := removeExpired_view (E := E) (s := s) (fun t => t.mapLockedOutpoints[o]?) none
    (fun t k c => (removeCandidate_maps t k c o).2)
  rw [hsame.1, hsame.2]
  exact ⟨fun hex => ⟨hgone hex, hgone' hex⟩, fun hnot => ⟨hkept hnot, hkept' hnot⟩⟩

lemma checkAndRemove_cleansUp (hsynced : ctx.isMasternodeListSynced = true) (s : CInstantSend) :
    CleansUp (E := E) s (s.checkAndRemove E ctx) where
  stays _ _ hc hlive := (checkAndRemove_lookup hsynced).mpr ⟨hc, hlive⟩
  only _ _ hc := (checkAndRemove_lookup hsynced).mp hc
  hashes o ho := by
    apply ((checkAndRemove_maps hsynced s o).2 _).1
    rintro ⟨k, c, hc, hex, hlock⟩
    exact ho k c hc hex hlock

def locksRespected (ctx : InstantSendContext) : Bool :=
  ctx.fEnableInstantSend && !ctx.fLargeWorkForkFound && !ctx.fLargeWorkInvalidChainFound && ctx.sporkBlockFiltering

lemma isLocked_iff {k : UInt256} {c : CTxLockCandidate} (hc : s.mapTxLockCandidates[k]? = some c) :
    s.isLockedInstantSendTransaction ctx k = true ↔ locksRespected ctx = true ∧ c.mapOutPointLocks.isEmpty = false ∧
      ∀ o ∈ c.mapOutPointLocks, s.mapLockedOutpoints[o]? = some k := by
  have hall : c.mapOutPointLocks.toList.all (fun entry => s.mapLockedOutpoints[entry.1]? == some k) = true ↔
      ∀ o ∈ c.mapOutPointLocks, s.mapLockedOutpoints[o]? = some k := by
    simp only [List.all_eq_true, Prod.forall, mem_toList_iff_getElem?_eq_some, beq_iff_eq]
    refine forall_congr' fun o => ?_
    rw [mem_iff_isSome_getElem?, Option.isSome_iff_exists]
    exact exists_imp.symm
  unfold isLockedInstantSendTransaction locksRespected
  rw [hc]
  dsimp only
  rw [← hall]
  cases ctx.fEnableInstantSend <;> cases ctx.fLargeWorkForkFound <;> cases ctx.fLargeWorkInvalidChainFound <;>
    cases ctx.sporkBlockFiltering <;> simp

variable (E) in
def Live (s : CInstantSend) (k : UInt256) : Prop := ∃ c, s.mapTxLockCandidates[k]? = some c ∧ ¬Expired E s c

variable (E ctx) in
/-- Between the two states no live transaction is locked or unlocked, and none that `mapVotedOutpoints` holds is
forgotten. -/
def ExpiryLocal (s s' : CInstantSend) : Prop :=
  (∀ k, Live E s k → s'.isLockedInstantSendTransaction ctx k = s.isLockedInstantSendTransaction ctx k) ∧
    ∀ (o : COutPoint) (k : UInt256), Live E s k → k ∈ s.votedHashes o → k ∈ s'.votedHashes o

variable (E ctx) in
/-- An outpoint of an expired candidate has votes for a live transaction, or belongs to one that is locked. -/
def Entangled (s : CInstantSend) : Prop :=
  ∃ o, LockExpires E s o ∧ ∃ (k : UInt256) (c : CTxLockCandidate), s.mapTxLockCandidates[k]? = some c ∧ ¬Expired E s c ∧
    (k ∈ s.votedHashes o ∨ o ∈ c.mapOutPointLocks ∧ s.isLockedInstantSendTransaction ctx k = true)

lemma checkAndRemove_local_iff (hsynced : ctx.isMasternodeListSynced = true) :
    ExpiryLocal E ctx s (s.checkAndRemove E ctx) ↔ ¬Entangled E ctx s := by
  have hmaps := checkAndRemove_maps (E := E) hsynced s
  have hclean := checkAndRemove_cleansUp (E := E) hsynced s
  constructor
  · rintro ⟨hlocks, hvotes⟩ ⟨o, hex, k, c, hc, hlive, hvoted | ⟨ho, hlocked⟩⟩
    · have hknown := hvotes o k ⟨c, hc, hlive⟩ hvoted
      rw [((hmaps o).1 hex).1] at hknown
      exact Std.ExtTreeSet.not_mem_empty hknown
    · rw [← hlocks k ⟨c, hc, hlive⟩, isLocked_iff (hclean.stays k c hc hlive)] at hlocked
      have hkept := hlocked.2.2 o ho
      rw [((hmaps o).1 hex).2] at hkept
      cases hkept
  · intro hfree
    constructor
    · rintro k ⟨c, hc, hlive⟩
      rw [Bool.eq_iff_iff, isLocked_iff (hclean.stays k c hc hlive)]
      constructor
      · rintro ⟨hgates, hnonempty, hall⟩
        rw [isLocked_iff hc]
        refine ⟨hgates, hnonempty, fun o ho => ?_⟩
        have hkept := hall o ho
        by_cases hex : LockExpires E s o
        · rw [((hmaps o).1 hex).2] at hkept
          cases hkept
        · rwa [((hmaps o).2 hex).2] at hkept
      · intro hlocked
        obtain ⟨hgates, hnonempty, hall⟩ := (isLocked_iff hc).mp hlocked
        refine ⟨hgates, hnonempty, fun o ho => ?_⟩
        rw [((hmaps o).2 (fun hex => hfree ⟨o, hex, k, c, hc, hlive, .inr ⟨ho, hlocked⟩⟩)).2]
        exact hall o ho
    · rintro o k ⟨c, hc, hlive⟩ hvoted
      rwa [((hmaps o).2 (fun hex => hfree ⟨o, hex, k, c, hc, hlive, .inl hvoted⟩)).1]

def expireBoth (s : CInstantSend) (txHash hashConflicting : UInt256) (candidate conflicting : CTxLockCandidate) :
    CInstantSend :=
  (s.setCandidate txHash { candidate with nConfirmedHeight := 0 }).setCandidate hashConflicting
    { conflicting with nConfirmedHeight := 0 }

/-- The clean-up is local exactly if no outpoint of an expired candidate concerns a live transaction; the same holds
where `ResolveConflicts` calls it. -/
theorem expiry_local_iff (E : InstantSendEnv) (ctx : InstantSendContext) (s : CInstantSend) :
    (ExpiryLocal E ctx s (s.checkAndRemove E ctx) ↔ ctx.isMasternodeListSynced = false ∨ ¬Entangled E ctx s) ∧
      ∀ (txHash hashConflicting : UInt256) (candidate conflicting : CTxLockCandidate),
        s.mapTxLockCandidates[txHash]? = some candidate → s.mapTxLockCandidates[hashConflicting]? = some conflicting →
        (ExpiryLocal E ctx (expireBoth s txHash hashConflicting candidate conflicting)
            (s.dropConflicting E ctx txHash hashConflicting) ↔
          ctx.isMasternodeListSynced = false ∨
            ¬Entangled E ctx (expireBoth s txHash hashConflicting candidate conflicting)) := by
  have hdirect : ∀ t : CInstantSend, ExpiryLocal E ctx t (t.checkAndRemove E ctx) ↔
      ctx.isMasternodeListSynced = false ∨ ¬Entangled E ctx t := by
    intro t
    cases hsynced : ctx.isMasternodeListSynced with
    | true => simpa using checkAndRemove_local_iff hsynced
    | false =>
      have hidle : t.checkAndRemove E ctx = t := by rw [CInstantSend.checkAndRemove, if_pos (by simp [hsynced])]
      simp [hidle, ExpiryLocal]
  refine ⟨hdirect s, ?_⟩
  intro txHash hashConflicting candidate conflicting hc hconflicting
  rw [← hdirect]
  unfold dropConflicting
  rw [hc, hconflicting]
  -- the rejected requests entered afterwards are not read by `ExpiryLocal`
  exact Iff.rfl

def sixLockVotes : COutPointLock :=
  { mapMasternodeVotes := [1, 2, 3, 4, 5, 6].foldl (fun m i => m.insert ⟨i, 0⟩ (coinVote 0 i [])) ∅ }

def fullCandidate (hash : UInt256) (outpoints : List COutPoint) : CTxLockCandidate where
  txLockRequest := ⟨{ vin := outpoints.map (⟨·, [], SEQUENCE_FINAL, []⟩), vout := [], hash }⟩
  nTimeCreated := 1000
  mapOutPointLocks := outpoints.foldl (fun m o => m.insert o sixLockVotes) ∅

def threeLocks : CInstantSend where
  nCachedBlockHeight := 200
  mapTxLockCandidates :=
    ((∅ : StdMap UInt256 CTxLockCandidate).insert 51 (fullCandidate 51 [⟨77, 0⟩, ⟨78, 0⟩])).insert 52
    (fullCandidate 52 [⟨77, 0⟩]) |>.insert 53 (fullCandidate 53 [⟨78, 0⟩])
  mapVotedOutpoints := ((∅ : StdMap COutPoint (Std.ExtTreeSet UInt256)).insert ⟨77, 0⟩ (.ofList [51, 52])).insert
    ⟨78, 0⟩ (.ofList [51, 53])
  mapLockedOutpoints := ((∅ : StdMap COutPoint UInt256).insert ⟨77, 0⟩ 52).insert ⟨78, 0⟩ 53

def twoLocks : CInstantSend :=
  { threeLocks with
    mapTxLockCandidates :=
      (Std.ExtTreeMap.insert ∅ 51 (fullCandidate 51 [⟨77, 0⟩])).insert 52 (fullCandidate 52 [⟨77, 0⟩]) }

theorem expiry_local_twoLocks :
    ExpiryLocal smallLockEnv firstTen (expireBoth twoLocks 51 52 (fullCandidate 51 [⟨77, 0⟩])
      (fullCandidate 52 [⟨77, 0⟩])) (twoLocks.dropConflicting smallLockEnv firstTen 51 52) := by
  apply ((expiry_local_iff smallLockEnv firstTen twoLocks).2 51 52 _ _ (by simp [twoLocks, getElem_insert])
    (by simp [twoLocks])).mpr
  right
  rintro ⟨o, -, k, c, hc, hlive, -⟩
  apply hlive
  simp only [expireBoth, setCandidate, twoLocks, getElem?_insert, getElem?_empty] at hc
  split_ifs at hc
  all_goals
    cases hc
    unfold Expired
    decide +kernel

theorem expiry_unlocks_third :
    let after := (threeLocks.resolveConflicts smallLockEnv firstTen (fullCandidate 51 [⟨77, 0⟩, ⟨78, 0⟩])).2
    let before := expireBoth threeLocks 51 52 (fullCandidate 51 [⟨77, 0⟩, ⟨78, 0⟩]) (fullCandidate 52 [⟨77, 0⟩])
    Live smallLockEnv before 53 ∧ before.isLockedInstantSendTransaction firstTen 53 = true ∧
      after.isLockedInstantSendTransaction firstTen 53 = false ∧ 53 ∈ before.votedHashes ⟨78, 0⟩ ∧
        53 ∉ after.votedHashes ⟨78, 0⟩ := by
  refine ⟨⟨fullCandidate 53 [⟨78, 0⟩], ?_, ?_⟩, by decide +kernel⟩
  · simp [expireBoth, setCandidate, threeLocks, getElem_insert]
  · unfold Expired
    decide +kernel

end Qstees.Proofs
