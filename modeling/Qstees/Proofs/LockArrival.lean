import Qstees.Proofs.LockRequests
import Qstees.Proofs.LockQuorum

/-!
# The order in which a lock request and its votes arrive

Votes that arrive before their request are kept as orphans.
-/

namespace Qstees.Proofs

open CInstantSend Runs List Std.ExtTreeMap CTxLockCandidate

variable {E : InstantSendEnv}

/-- A vote, the surroundings it arrives in and the version of the peer it comes from. -/
structure Delivery where
  ctx : InstantSendContext
  nVersion : Int
  vote : CTxLockVote

def Delivery.action (d : Delivery) : InstantSendContext × Action := (d.ctx, .message d.nVersion d.vote)

def voters (deliveries : List Delivery) (o : COutPoint) : Finset COutPoint :=
  ((deliveries.filter (fun d => d.vote.outpoint = o)).map (fun d => d.vote.outpointMasternode)).toFinset

variable {deliveries : List Delivery}

lemma mem_voters {o mn : COutPoint} :
    mn ∈ voters deliveries o ↔ ∃ d ∈ deliveries, d.vote.outpoint = o ∧ d.vote.outpointMasternode = mn := by
  simp [voters, and_assoc]

/-- Surroundings in which a lock request is valid, the pool holds nothing that conflicts with it, and its time is not
up. -/
structure Calm (request : CTxLockRequest) (t₀ : Int) (ctx : InstantSendContext) : Prop where
  spork : ctx.sporkEnabled = true
  valid : request.isValid ctx.toLockRequestContext = .ok true
  pool : ∀ txin ∈ request.tx.vin, ∀ hash, ctx.mapNextTx txin.prevout = some hash → hash = request.getHash
  started : t₀ ≤ ctx.getTime
  inTime : ctx.getTime ≤ t₀ + INSTANTSEND_LOCK_TIMEOUT_SECONDS

variable (E) in
/-- A valid vote for an input of the request, heard in time. -/
structure Genuine (request : CTxLockRequest) (t₀ : Int) (d : Delivery) : Prop where
  calm : Calm request t₀ d.ctx
  heard : heardVote d.ctx d.nVersion = true
  valid : d.vote.isValid E d.ctx = true
  hash : d.vote.txHash = request.getHash
  input : ∃ txin ∈ request.tx.vin, txin.prevout = d.vote.outpoint

/-- A node that knows neither the request nor anything that conflicts with it. -/
structure Unheard (request : CTxLockRequest) (s : CInstantSend) : Prop where
  candidate : s.mapTxLockCandidates[request.getHash]? = none
  accepted : s.mapLockRequestAccepted[request.getHash]? = none
  rejected : s.mapLockRequestRejected[request.getHash]? = none
  unvoted : ∀ txin ∈ request.tx.vin, s.votedHashes txin.prevout = ∅
  unlocked : ∀ txin ∈ request.tx.vin, s.mapLockedOutpoints[txin.prevout]? = none

variable (E) in
def SeenSince (s₀ : CInstantSend) (deliveries : List Delivery) (s : CInstantSend) : Prop :=
  ∀ h, h ∈ s.mapTxLockVotes ↔ h ∈ s₀.mapTxLockVotes ∨ ∃ d ∈ deliveries, d.vote.getHash E = h

lemma exists_mem_snoc {α : Type} {l : List α} {a : α} {P : α → Prop} :
    (∃ x ∈ l ++ [a], P x) ↔ (∃ x ∈ l, P x) ∨ P a := by
  simp [or_and_right, exists_or]

variable {s₀ s : CInstantSend}

lemma SeenSince.seenVote (h : SeenSince E s₀ deliveries s) (d : Delivery) :
    SeenSince E s₀ (deliveries ++ [d]) (seenVote E s d.vote) := by
  intro hash
  have hinsert : hash ∈ (Qstees.Proofs.seenVote E s d.vote).mapTxLockVotes ↔ d.vote.getHash E = hash ∨
    hash ∈ s.mapTxLockVotes := by
    change hash ∈ s.mapTxLockVotes.insert (d.vote.getHash E) d.vote ↔ _
    rw [mem_insert, Std.LawfulEqCmp.compare_eq_iff_eq]
  rw [hinsert, h hash, exists_mem_snoc, or_comm, or_assoc]

variable {d : Delivery}

lemma SeenSince.again (h : SeenSince E s₀ deliveries s)
    (hseen : d.vote.getHash E ∈ s.mapTxLockVotes) : SeenSince E s₀ (deliveries ++ [d]) s := by
  intro hash
  rw [h hash, exists_mem_snoc, ← or_assoc]
  refine ⟨.inl, ?_⟩
  rintro (hold | rfl)
  · exact hold
  · exact (h _).mp hseen

def Undecided (request : CTxLockRequest) (s : CInstantSend) : Prop :=
  (s.mapLockRequestAccepted[request.getHash]? = none ∧ s.mapLockRequestRejected[request.getHash]? = none) ∧
    (∀ txin ∈ request.tx.vin, s.votedHashes txin.prevout = ∅) ∧
    ∀ txin ∈ request.tx.vin, s.mapLockedOutpoints[txin.prevout]? = none

variable (E) in
structure AwaitsRequest (request : CTxLockRequest) (t₀ : Int) (s₀ : CInstantSend) (deliveries : List Delivery)
    (s : CInstantSend) : Prop where
  seen : SeenSince E s₀ deliveries s
  candidate : ∀ c : CTxLockCandidate, s.mapTxLockCandidates[request.getHash]? = some c →
    c.txLockRequest = E.emptyRequest ∧ c.mapOutPointLocks = ∅ ∧ t₀ ≤ c.nTimeCreated
  undecided : Undecided request s

variable {request : CTxLockRequest}

lemma Unheard.awaits {s : CInstantSend} (h : Unheard request s) (t₀ : Int) :
    AwaitsRequest E request t₀ s [] s where
  seen hash := by simp
  candidate c hc := by
    rw [h.candidate] at hc
    cases hc
  undecided := ⟨⟨h.accepted, h.rejected⟩, h.unvoted, h.unlocked⟩

lemma limitOrphanVotes_eq (ctx : InstantSendContext) (vote : CTxLockVote) :
    ∃ times, (s.limitOrphanVotes ctx vote).2 = { s with mapMasternodeOrphanVotes := times } := by
  unfold limitOrphanVotes
  dsimp only
  split
  · exact ⟨_, rfl⟩
  · split_ifs
    · exact ⟨_, rfl⟩
    · exact ⟨_, rfl⟩

lemma AwaitsRequest.orphan {t₀ : Int}
    (h : AwaitsRequest E request t₀ s₀ deliveries s) {ctx : InstantSendContext}
    (hctx : Calm request t₀ ctx) {vote : CTxLockVote} (hhash : vote.txHash = request.getHash) :
    AwaitsRequest E request t₀ s₀ deliveries (s.processOrphanVote E ctx vote).2 := by
  have hstored : AwaitsRequest E request t₀ s₀ deliveries (orphanStored E ctx s vote) := by
    refine ⟨h.seen, fun c hc => ?_, h.undecided⟩
    rcases createEmpty_lookup (E := E) ctx s vote.txHash request.getHash with hsame | ⟨-, hnew⟩
    · exact h.candidate c (hsame ▸ hc)
    · cases hc.symm.trans hnew
      exact ⟨rfl, rfl, hctx.started⟩
  have hlimit : ∀ {t : CInstantSend}, AwaitsRequest E request t₀ s₀ deliveries t →
      AwaitsRequest E request t₀ s₀ deliveries (t.limitOrphanVotes ctx vote).2 := by
    intro t ht
    obtain ⟨times, heq⟩ := limitOrphanVotes_eq ctx vote
    rw [heq]
    exact ⟨ht.seen, ht.candidate, ht.undecided⟩
  rw [processOrphanVote_eq_finish]
  unfold orphanAttempt
  split_ifs
  · exact hlimit h
  · rw [hhash, h.undecided.1.1, h.undecided.1.2]
    exact hlimit hstored

lemma step_delivery {s : CInstantSend} (hheard : heardVote d.ctx d.nVersion = true) :
    s.step E d.action = if d.vote.getHash E ∈ s.mapTxLockVotes then s
      else ((seenVote E s d.vote).processTxLockVote E d.ctx d.vote).2 := by
  change (s.processMessage E d.ctx d.nVersion d.vote).2 = _
  unfold processMessage
  rw [if_neg (by simp [hheard])]
  by_cases hseen : d.vote.getHash E ∈ s.mapTxLockVotes
  · rw [if_pos (by simpa using hseen), if_pos hseen]
  · rw [if_neg (by simpa using hseen), if_neg hseen]
    rfl

lemma AwaitsRequest.step {t₀ : Int}
    (h : AwaitsRequest E request t₀ s₀ deliveries s) (hd : Genuine E request t₀ d) :
    AwaitsRequest E request t₀ s₀ (deliveries ++ [d]) (s.step E d.action) := by
  rw [step_delivery hd.heard]
  split_ifs with hseen
  · exact ⟨h.seen.again hseen, h.candidate, h.undecided⟩
  have hnext : AwaitsRequest E request t₀ s₀ (deliveries ++ [d]) (seenVote E s d.vote) :=
    ⟨h.seen.seenVote d, h.candidate, h.undecided⟩
  unfold processTxLockVote
  rw [if_neg (by simp [hd.valid])]
  split
  · exact hnext.orphan hd.calm hd.hash
  · next c hc =>
    rw [hd.hash] at hc
    rw [if_pos (by simp [CTxLockRequest.isSet, (hnext.candidate c hc).1])]
    exact hnext.orphan hd.calm hd.hash

/-- The candidate has a lock for each input, with these votes. -/
structure Tallied (request : CTxLockRequest) (t₀ : Int) (votes : COutPoint → Finset COutPoint) (c : CTxLockCandidate) :
    Prop where
  request_eq : c.txLockRequest = request
  time : t₀ ≤ c.nTimeCreated
  inputs : ∀ o, o ∈ c.mapOutPointLocks ↔ ∃ txin ∈ request.tx.vin, txin.prevout = o
  locks : ∀ (o : COutPoint) (lock : COutPointLock), c.mapOutPointLocks[o]? = some lock →
    lock.fAttacked = false ∧ lock.mapMasternodeVotes.keys.toFinset = votes o

/-- Each input has the votes it needs. -/
def Enough (request : CTxLockRequest) (votes : COutPoint → Finset COutPoint) : Prop :=
  ∀ txin ∈ request.tx.vin, SIGNATURES_REQUIRED ≤ (votes txin.prevout).card

variable (E) in
structure Gathered (request : CTxLockRequest) (t₀ : Int) (s₀ : CInstantSend) (deliveries : List Delivery)
    (votes : COutPoint → Finset COutPoint) (s : CInstantSend) : Prop where
  seen : SeenSince E s₀ deliveries s
  candidate : ∃ c : CTxLockCandidate, s.mapTxLockCandidates[request.getHash]? = some c ∧ Tallied request t₀ votes c
  voted : ∀ txin ∈ request.tx.vin, ∀ h ∈ s.votedHashes txin.prevout, h = request.getHash
  locked : ∀ txin ∈ request.tx.vin, ∀ h, s.mapLockedOutpoints[txin.prevout]? = some h → h = request.getHash

variable (E) in
structure Collecting (request : CTxLockRequest) (t₀ : Int) (s₀ : CInstantSend) (deliveries : List Delivery)
    (votes : COutPoint → Finset COutPoint) (s : CInstantSend) :
    Prop extends Gathered E request t₀ s₀ deliveries votes s where
  completed : Enough request votes → ∀ txin ∈ request.tx.vin, s.mapLockedOutpoints[txin.prevout]? = some request.getHash
  pending : ¬Enough request votes → ∀ txin ∈ request.tx.vin, s.mapLockedOutpoints[txin.prevout]? = none

section Request

variable {request : CTxLockRequest} {t₀ : Int} {s₀ s : CInstantSend} {votes : COutPoint → Finset COutPoint}
  {c : CTxLockCandidate}

lemma Tallied.lockAt (h : Tallied request t₀ votes c) {o : COutPoint} (ho : ∃ txin ∈ request.tx.vin, txin.prevout = o) :
    ∃ lock, c.mapOutPointLocks[o]? = some lock := by
  have hmem := (h.inputs o).mpr ho
  rw [mem_iff_isSome_getElem?] at hmem
  exact Option.isSome_iff_exists.mp hmem

lemma Tallied.nonempty (h : Tallied request t₀ votes c) (hvin : request.tx.vin ≠ []) :
    c.mapOutPointLocks.isEmpty = false := by
  obtain ⟨txin, htxin⟩ := exists_mem_of_ne_nil _ hvin
  obtain ⟨lock, hlock⟩ := h.lockAt ⟨txin, htxin, rfl⟩
  rw [← Bool.not_eq_true, Std.ExtTreeMap.isEmpty_iff]
  intro hempty
  simp [hempty] at hlock

lemma Tallied.ready_iff (h : Tallied request t₀ votes c) (hvin : request.tx.vin ≠ []) :
    c.isAllOutPointsReady = true ↔ Enough request votes := by
  constructor
  · intro hready txin htxin
    obtain ⟨lock, hlock⟩ := h.lockAt ⟨txin, htxin, rfl⟩
    rw [← (h.locks _ lock hlock).2, card_keys]
    exact ((ready_locks hready).2 _ lock hlock).2
  · intro henough
    unfold isAllOutPointsReady
    rw [Bool.and_eq_true, all_eq_true]
    refine ⟨by simp [h.nonempty hvin], ?_⟩
    rintro ⟨o, lock⟩ hentry
    rw [mem_toList_iff_getElem?_eq_some] at hentry
    obtain ⟨hclean, hvotes⟩ := h.locks o lock hentry
    obtain ⟨txin, htxin, rfl⟩ := (h.inputs o).mp (by rw [mem_iff_isSome_getElem?, hentry]; rfl)
    have hsix := henough txin htxin
    rw [← hvotes, card_keys] at hsix
    simpa [COutPointLock.isReady, COutPointLock.countVotes, hclean] using hsix

lemma Gathered.isLocked_iff (h : Gathered E request t₀ s₀ deliveries votes s) (hvin : request.tx.vin ≠ [])
    (ctx : InstantSendContext) :
    s.isLockedInstantSendTransaction ctx request.getHash = true ↔ locksRespected ctx = true ∧
      ∀ txin ∈ request.tx.vin, s.mapLockedOutpoints[txin.prevout]? = some request.getHash := by
  obtain ⟨c, hc, htallied⟩ := h.candidate
  rw [Proofs.isLocked_iff hc]
  simp only [htallied.nonempty hvin, true_and, htallied.inputs]
  apply and_congr_right
  intro _
  constructor
  · exact fun hall txin htxin => hall _ ⟨txin, htxin, rfl⟩
  · rintro hall o ⟨txin, htxin, rfl⟩
    exact hall txin htxin

variable {ctx : InstantSendContext}

lemma findConflict_of_free {txHash : UInt256} {vin : List CTxIn}
    (hlocked : ∀ txin ∈ vin, ∀ h, s.mapLockedOutpoints[txin.prevout]? = some h → h = txHash)
    (hpool : ∀ txin ∈ vin, ∀ h, ctx.mapNextTx txin.prevout = some h → h = txHash) :
    s.findConflict ctx txHash vin = .clear := by
  induction vin with
  | nil => rfl
  | cons txin vin ih =>
    have hfirst : s.inputConflict ctx txHash txin = .clear := by
      have hnone : (s.mapLockedOutpoints[txin.prevout]?).filter (fun hash => txHash != hash) = none := by
        rw [Option.filter_eq_none_iff]
        intro h hh
        simp [hlocked txin mem_cons_self h hh]
      have hnone' : (ctx.mapNextTx txin.prevout).filter (fun hash => txHash != hash) = none := by
        rw [Option.filter_eq_none_iff]
        intro h hh
        simp [hpool txin mem_cons_self h hh]
      unfold inputConflict
      rw [hnone, hnone']
    unfold findConflict
    rw [hfirst]
    exact ih (fun txin htxin => hlocked txin (mem_cons_of_mem _ htxin))
      (fun txin htxin => hpool txin (mem_cons_of_mem _ htxin))

lemma vin_ne_nil (h : Calm request t₀ ctx) : request.tx.vin ≠ [] := vin_ne_nil_of_isValid h.valid

lemma Gathered.finalize (h : Gathered E request t₀ s₀ deliveries votes s) (hctx : Calm request t₀ ctx)
    (hopen : ¬Enough request votes → ∀ txin ∈ request.tx.vin, s.mapLockedOutpoints[txin.prevout]? = none) :
    Collecting E request t₀ s₀ deliveries votes (s.tryToFinalizeAt E ctx request.getHash) := by
  obtain ⟨c, hc, htallied⟩ := h.candidate
  have hready := htallied.ready_iff (vin_ne_nil hctx)
  have hrequest := htallied.request_eq
  have hhash : c.getHash = request.getHash := by rw [getHash, hrequest]
  have hclear : s.findConflict ctx c.getHash c.txLockRequest.tx.vin = .clear := by
    rw [hhash, hrequest]
    exact findConflict_of_free h.locked hctx.pool
  unfold CInstantSend.tryToFinalizeAt
  rw [hc]
  dsimp only
  rcases tryToFinalize_cases (E := E) ctx s c with ⟨hnot, hsame⟩ | ⟨hash, -, hconflict, -⟩ | ⟨hcompletes, -, hlock⟩
  · rw [hsame]
    refine ⟨h, fun henough => ?_, hopen⟩
    -- with enough votes the lock is not completed only because it has been
    have hresolved : (s.resolveConflicts E ctx c).1 = true := by
      unfold resolveConflicts
      rw [if_neg (by simp [hready.mpr henough]), hclear]
      dsimp only
      split_ifs
      · rfl
      · rw [hrequest]
        exact all_eq_true.mpr (unspent_of_isValid hctx.valid)
    have hdone : s.isLockedInstantSendTransaction ctx request.getHash = true := by
      by_contra hlocked
      exact hnot ⟨hctx.spork, hready.mpr henough, by simpa [hhash] using hlocked, hresolved⟩
    exact ((h.isLocked_iff (vin_ne_nil hctx) ctx).mp hdone).2
  · rw [hclear] at hconflict
    cases hconflict
  · rw [hlock]
    have henough := hready.mp hcompletes.2.1
    have hlookup := lockTransactionInputs_lookup hcompletes
    have hlocked : ∀ txin ∈ request.tx.vin,
        (s.lockTransactionInputs ctx c).mapLockedOutpoints[txin.prevout]? = some request.getHash := by
      intro txin htxin
      rw [hlookup, if_pos ((htallied.inputs _).mpr ⟨txin, htxin, rfl⟩), hhash]
      cases hbefore : s.mapLockedOutpoints[txin.prevout]? with
      | none => rfl
      | some hash =>
        rw [h.locked txin htxin hash hbefore]
        rfl
    obtain ⟨locked, heq⟩ := lockTransactionInputs_eq ctx s c
    rw [heq] at hlocked ⊢
    refine ⟨⟨h.seen, h.candidate, h.voted, fun txin htxin hash hh => ?_⟩, fun _ => hlocked,
      fun hnot => absurd henough hnot⟩
    exact (Option.some.inj ((hlocked txin htxin).symm.trans hh)).symm

lemma AwaitsRequest.requested (h : AwaitsRequest E request t₀ s₀ deliveries s) (hctx : Calm request t₀ ctx) :
    Collecting E request t₀ s₀ deliveries (fun _ => ∅) (s.step E (ctx, .request request)) := by
  -- the candidate that the votes have left, or a new one, gets the locks
  have hcreate : ∃ c : CTxLockCandidate, c.txLockRequest = request ∧ t₀ ≤ c.nTimeCreated ∧ c.mapOutPointLocks = ∅ ∧
      s.createTxLockCandidate E ctx request =
        (true, s.setCandidate request.getHash (c.addOutPointLocks request.tx.vin)) := by
    unfold createTxLockCandidate
    rw [hctx.valid]
    dsimp only
    unfold createCandidate
    cases hc : s.mapTxLockCandidates[request.getHash]? with
    | none => exact ⟨{ txLockRequest := request, nTimeCreated := ctx.getTime }, rfl, hctx.started, rfl, rfl⟩
    | some c =>
      obtain ⟨hempty, hlocks, htime⟩ := h.candidate c hc
      refine ⟨{ c with txLockRequest := request }, rfl, htime, hlocks, ?_⟩
      dsimp only
      rw [if_neg (by simp [CTxLockRequest.isSet, hempty]), if_neg]
      have hlate := hctx.inTime
      simp only [isTimedOut, decide_eq_true_eq]
      omega
  obtain ⟨c, hrequest, htime, hlocks, hcreate⟩ := hcreate
  change Collecting E request t₀ s₀ deliveries (fun _ => ∅) (s.processTxLockRequest E ctx request).2
  unfold processTxLockRequest
  rw [hcreate]
  dsimp only
  have htallied : Tallied request t₀ (fun _ => ∅) (c.addOutPointLocks request.tx.vin) := by
    refine ⟨?_, ?_, fun o => ?_, fun o lock hlock => ?_⟩
    · rw [addOutPointLocks_txLockRequest, hrequest]
    · rw [addOutPointLocks_nTimeCreated]
      exact htime
    · rw [mem_addOutPointLocks_iff, hlocks]
      simp
    · rcases addOutPointLocks_lookup c request.tx.vin o with hsame | ⟨-, hnew⟩
      · rw [hsame, hlocks, getElem?_empty] at hlock
        cases hlock
      · cases hlock.symm.trans hnew
        simp
  obtain ⟨-, hunvoted, hunlocked⟩ := h.undecided
  refine Gathered.finalize ⟨h.seen, ⟨_, by rw [setCandidate_lookup, if_pos rfl], htallied⟩, ?_,
    ?_⟩ hctx (fun _ => hunlocked)
  · intro txin htxin hash hh
    have hnone : hash ∈ s.votedHashes txin.prevout := hh
    rw [hunvoted txin htxin] at hnone
    exact absurd hnone Std.ExtTreeSet.not_mem_empty
  · intro txin htxin hash hh
    cases (hunlocked txin htxin).symm.trans hh

lemma markAll_of_same {vote : CTxLockVote} {hashes : List UInt256} (h : ∀ hash ∈ hashes, hash = vote.txHash) :
    hashes.foldl (fun s hash => s.markConflicting vote hash) s = s := by
  induction hashes with
  | nil => rfl
  | cons hash hashes ih =>
    have hfirst : s.markConflicting vote hash = s := if_pos (h hash mem_cons_self)
    rw [foldl_cons, hfirst]
    exact ih (fun hash hmem => h hash (mem_cons_of_mem _ hmem))

variable {d : Delivery} {early late : List Delivery}

lemma voters_append (o : COutPoint) : voters (early ++ late) o = voters early o ∪ voters late o := by
  simp [voters]

lemma voters_snoc (l : List Delivery) (o : COutPoint) :
    voters (l ++ [d]) o = if d.vote.outpoint =
      o then insert d.vote.outpointMasternode (voters l o) else voters l o := by
  rw [voters_append]
  by_cases ho : d.vote.outpoint = o
  · simp [voters, ho, Finset.union_comm]
  · simp [voters, ho]

/-- The votes that count: those that were first delivered after the request. -/
def counted (early late : List Delivery) (o : COutPoint) : Finset COutPoint := voters late o \ voters early o

lemma counted_again (h : d.vote.outpointMasternode ∈ voters (early ++ late) d.vote.outpoint) :
    counted early (late ++ [d]) = counted early late := by
  funext o
  ext mn
  simp only [counted, voters_snoc, Finset.mem_sdiff]
  rw [voters_append, Finset.mem_union] at h
  grind

lemma counted_first (h : d.vote.outpointMasternode ∉ voters (early ++ late) d.vote.outpoint) (o : COutPoint) :
    counted early (late ++ [d]) o =
      if d.vote.outpoint = o then insert d.vote.outpointMasternode (counted early late o)
        else counted early late o := by
  rw [voters_append, Finset.notMem_union] at h
  unfold counted
  rw [voters_snoc]
  split_ifs with ho
  · subst ho
    exact Finset.insert_sdiff_of_notMem _ h.1
  · rfl

lemma Collecting.count (h : Collecting E request t₀ s₀ (early ++ late) (counted early late) s)
    (hset : request.isSet E = true) (hd : Genuine E request t₀ d)
    (hmn : d.vote.outpointMasternode ∉ voters (early ++ late) d.vote.outpoint) :
    Collecting E request t₀ s₀ (early ++ late ++ [d]) (counted early (late ++ [d]))
      ((seenVote E s d.vote).processTxLockVote E d.ctx d.vote).2 := by
  obtain ⟨c, hc, hrequest, htime, hinputs, hlocks⟩ := h.candidate
  have hgrows : Enough request (counted early late) → Enough request (counted early (late ++ [d])) := by
    intro henough txin htxin
    refine (henough txin htxin).trans (Finset.card_le_card ?_)
    rw [counted_first hmn]
    split_ifs
    · exact Finset.subset_insert _ _
    · exact Finset.Subset.refl _
  -- the vote meets its candidate, which has a request and is in time
  unfold processTxLockVote
  rw [if_neg (by simp [hd.valid]), hd.hash, show (seenVote E s d.vote).mapTxLockCandidates[request.getHash]? =
    some c from hc]
  have htimed : c.isTimedOut d.ctx = false := by
    have hlate := hd.calm.inTime
    simp only [isTimedOut, decide_eq_false_iff_not]
    omega
  dsimp only
  rw [if_neg (by simp [hrequest, hset]), if_neg (by simp [htimed]), countVote_eq_finish, countAttempt, hd.hash]
  have hasked : askedFor (seenVote E s d.vote) d.vote =
    (seenVote E s d.vote).addVotedHash d.vote.outpoint request.getHash := by
    unfold askedFor
    rw [markAll_of_same, hd.hash]
    intro hash hmem
    obtain ⟨txin, htxin, ho⟩ := hd.input
    rw [hd.hash]
    apply h.voted txin htxin hash
    rw [ho]
    exact Std.ExtTreeSet.mem_toList.mp hmem
  rw [hasked]
  -- it is the first of its masternode
  obtain ⟨lock, hlock⟩ := Tallied.lockAt ⟨hrequest, htime, hinputs, hlocks⟩ hd.input
  have hfirst : d.vote.outpointMasternode ∉ lock.mapMasternodeVotes := by
    intro hmem
    have hmem' : d.vote.outpointMasternode ∈ lock.mapMasternodeVotes.keys.toFinset := by simpa using hmem
    rw [(hlocks _ lock hlock).2] at hmem'
    rw [voters_append] at hmn
    exact hmn (Finset.mem_union_right _ (Finset.mem_sdiff.mp hmem').1)
  obtain ⟨c', hadd⟩ : ∃ c', c.addVote d.vote = some c' := by
    unfold addVote COutPointLock.addVote
    rw [hlock]
    dsimp only
    rw [if_neg (by simpa using hfirst)]
    exact ⟨_, rfl⟩
  obtain ⟨lock₁, lock', hlock₁, hlocks', hrequest', hvotes', hattacked', htime'⟩ := addVote_lock hadd
  cases hlock.symm.trans hlock₁
  rw [show ((seenVote E s d.vote).addVotedHash d.vote.outpoint request.getHash).mapTxLockCandidates[request.getHash]? =
    some c from hc, Option.bind_some, hadd]
  dsimp only
  refine Gathered.finalize ⟨h.seen.seenVote d, ⟨c', by rw [setCandidate_lookup, if_pos rfl], hrequest'.trans hrequest,
    htime'.symm ▸ htime, ?_, ?_⟩, ?_, h.locked⟩ hd.calm (fun hn => h.pending (fun he => hn (hgrows he)))
  · intro o
    rw [hlocks', mem_insert, Std.LawfulEqCmp.compare_eq_iff_eq, hinputs]
    refine ⟨?_, .inr⟩
    rintro (rfl | hinput)
    · exact hd.input
    · exact hinput
  · intro o l hl
    rw [hlocks', Std.ExtTreeMap.getElem?_insert] at hl
    rw [counted_first hmn]
    simp only [Std.LawfulEqCmp.compare_eq_iff_eq] at hl
    split_ifs at hl ⊢ with ho
    · subst ho
      cases hl
      refine ⟨hattacked'.trans (hlocks _ lock hlock).1, ?_⟩
      rw [← (hlocks _ lock hlock).2, hvotes']
      ext mn
      simp [mem_insert, eq_comm (a := mn)]
    · exact hlocks o l hl
  · intro txin htxin hash hh
    rcases (mem_votedHashes_addVotedHash _ _ _ _ _).mp hh with ⟨-, rfl⟩ | hold
    · rfl
    · exact h.voted txin htxin hash hold

/-- Votes with the same hash are for the same outpoint, by the same masternode. -/
def HashesDiffer (E : InstantSendEnv) (deliveries : List Delivery) : Prop :=
  ∀ d ∈ deliveries, ∀ w ∈ deliveries, d.vote.getHash E = w.vote.getHash E →
    d.vote.outpoint = w.vote.outpoint ∧ d.vote.outpointMasternode = w.vote.outpointMasternode

lemma Collecting.step (h : Collecting E request t₀ s₀ (early ++ late) (counted early late) s)
    (hset : request.isSet E = true)
    (hd : Genuine E request t₀ d) (hhashes : ∀ w ∈ early ++ late, Genuine E request t₀ w)
    (hdiffer : HashesDiffer E (early ++ late ++ [d]))
    (hunseen : d.vote.getHash E ∉ s₀.mapTxLockVotes) :
    Collecting E request t₀ s₀ (early ++ late ++ [d]) (counted early (late ++ [d])) (s.step E d.action) := by
  rw [step_delivery hd.heard]
  split_ifs with hseen
  · obtain ⟨w, hw, hhash⟩ := ((h.seen _).mp hseen).resolve_left hunseen
    obtain ⟨hwo, hwm⟩ := hdiffer w (mem_append_left _ hw) d (by simp) hhash
    rw [counted_again (mem_voters.mpr ⟨w, hw, hwo, hwm⟩)]
    exact ⟨⟨h.seen.again hseen, h.candidate, h.voted, h.locked⟩, h.completed, h.pending⟩
  · apply h.count hset hd
    intro hmem
    obtain ⟨w, hw, hwo, hwm⟩ := mem_voters.mp hmem
    apply hseen
    refine (h.seen _).mpr (.inr ⟨w, hw, ?_⟩)
    rw [CTxLockVote.getHash, CTxLockVote.getHash, hwo, hwm, hd.hash, (hhashes w hw).hash]

lemma AwaitsRequest.run (h : AwaitsRequest E request t₀ s₀ early s) {deliveries : List Delivery}
    (hgenuine : ∀ d ∈ deliveries, Genuine E request t₀ d) :
    AwaitsRequest E request t₀ s₀ (early ++ deliveries)
      (run (CInstantSend.step E) s (deliveries.map Delivery.action)) := by
  induction deliveries generalizing early s with
  | nil => simpa using h
  | cons d deliveries ih =>
    have hnext := ih (h.step (hgenuine d mem_cons_self)) (fun w hw => hgenuine w (mem_cons_of_mem _ hw))
    rwa [append_assoc] at hnext

lemma Collecting.run (h : Collecting E request t₀ s₀ (early ++ late) (counted early late) s)
    (hset : request.isSet E = true)
    {deliveries : List Delivery} (hgenuine : ∀ d ∈ early ++ late ++ deliveries, Genuine E request t₀ d)
    (hdiffer : HashesDiffer E (early ++ late ++ deliveries))
    (hunseen : ∀ d ∈ deliveries, d.vote.getHash E ∉ s₀.mapTxLockVotes) :
    Collecting E request t₀ s₀ (early ++ (late ++ deliveries)) (counted early (late ++ deliveries))
      (run (CInstantSend.step E) s (deliveries.map Delivery.action)) := by
  induction deliveries generalizing late s with
  | nil => simpa using h
  | cons d deliveries ih =>
    have hsplit : early ++ late ++ d :: deliveries = early ++ (late ++ [d]) ++ deliveries := by simp
    have hmem : ∀ w ∈ early ++ late ++ [d], w ∈ early ++ late ++ d :: deliveries := by
      rw [hsplit, ← append_assoc]
      exact fun w => mem_append_left _
    have hstep := h.step hset (hgenuine d (hmem d (by simp))) (fun w hw => hgenuine w (mem_append_left _ hw))
      (fun w hw w' hw' => hdiffer w (hmem w hw) w' (hmem w' hw')) (hunseen d mem_cons_self)
    rw [hsplit] at hgenuine hdiffer
    rw [append_assoc] at hstep
    have hrest := ih hstep hgenuine hdiffer (fun w hw => hunseen w (mem_cons_of_mem _ hw))
    rwa [append_assoc] at hrest

lemma isLocked_iff_enough (early late : List Delivery) (hs : Unheard request s)
    (hset : request.isSet E = true) (hctx : Calm request t₀ ctx)
    (hgenuine : ∀ d ∈ early ++ late, Genuine E request t₀ d)
    (hdiffer : HashesDiffer E (early ++ late))
    (hunseen : ∀ d ∈ early ++ late, d.vote.getHash E ∉ s.mapTxLockVotes)
    (ctx' : InstantSendContext) :
    (run (CInstantSend.step E) s (early.map Delivery.action ++ (ctx, .request request) :: late.map Delivery.action)
      ).isLockedInstantSendTransaction ctx' request.getHash = true ↔
      locksRespected ctx' = true ∧ Enough request (counted early late) := by
  have hbefore := (hs.awaits t₀).run (fun d hd => hgenuine d (mem_append_left _ hd))
  rw [nil_append] at hbefore
  have hrequested : Collecting E request t₀ s (early ++ []) (counted early [])
      ((run (CInstantSend.step E) s (early.map Delivery.action)).step E (ctx, .request request)) := by
    have hnone : counted early [] = fun _ => ∅ := by
      funext o
      simp [counted, voters]
    rw [append_nil, hnone]
    exact hbefore.requested hctx
  have hafter := hrequested.run hset (by rwa [append_nil]) (by rwa [append_nil])
    (fun d hd => hunseen d (mem_append_right _ hd))
  rw [nil_append] at hafter
  rw [run_append, run_cons, hafter.isLocked_iff (vin_ne_nil hctx)]
  refine and_congr_right (fun _ => ⟨fun hlocked => ?_, hafter.completed⟩)
  by_contra hnot
  obtain ⟨txin, htxin⟩ := exists_mem_of_ne_nil _ (vin_ne_nil hctx)
  have hnone := hafter.pending hnot txin htxin
  rw [hlocked txin htxin] at hnone
  cases hnone

end Request

def votesFor51 (masternodes : List Nat) : List Delivery :=
  masternodes.map (fun mn => ⟨firstTen, 250000, coinVote 51 mn [UInt8.ofNat mn]⟩)

lemma calm_firstTen : Calm (coinRequest 51) 1000 firstTen where
  spork := rfl
  valid := by decide +kernel
  pool txin _ hash hhash := by cases hhash
  started := by decide
  inTime := by decide

lemma genuine_votesFor51 {masternodes : List Nat} (h : ∀ mn ∈ masternodes, mn ∈ List.range 11) :
    ∀ d ∈ votesFor51 masternodes, Genuine smallLockEnv (coinRequest 51) 1000 d := by
  have hvalid : ∀ mn ∈ List.range 11, (coinVote 51 mn [UInt8.ofNat mn]).isValid smallLockEnv firstTen = true := by
    decide +kernel
  intro d hd
  obtain ⟨mn, hmn, rfl⟩ := mem_map.mp hd
  exact ⟨calm_firstTen, rfl, hvalid mn (h mn hmn), rfl, _, mem_cons_self, rfl⟩

/-- A request and its votes, some before and some after it, end with the same lock as the request and then the votes
exactly if locks are not respected at all, or the votes are too few for some input, or those that came first after the
request are enough for every input. -/
theorem locked_as_requestFirst_iff (request : CTxLockRequest) (hset : request.isSet E = true) (s : CInstantSend)
    (hs : Unheard request s) (t₀ : Int) (early late first : List Delivery)
    (hgenuine : ∀ d ∈ early ++ late ++ first, Genuine E request t₀ d)
    (hunseen : ∀ d ∈ early ++ late, d.vote.getHash E ∉ s.mapTxLockVotes) (hdiffer : HashesDiffer E (early ++ late))
    (hsame : ∀ vote, (∃ d ∈ first, d.vote = vote) ↔ ∃ d ∈ early ++ late, d.vote = vote)
    (ctx ctxFirst : InstantSendContext) (hctx : Calm request t₀ ctx) (hctxFirst : Calm request t₀ ctxFirst)
    (ctx' : InstantSendContext) :
    (run (CInstantSend.step E) s (early.map Delivery.action ++ (ctx, .request request) :: late.map Delivery.action)
        ).isLockedInstantSendTransaction ctx' request.getHash =
      (run (CInstantSend.step E) s ((ctxFirst, .request request) :: first.map Delivery.action)
        ).isLockedInstantSendTransaction ctx' request.getHash ↔
      locksRespected ctx' = false ∨
        (∃ txin ∈ request.tx.vin, (voters (early ++ late) txin.prevout).card < SIGNATURES_REQUIRED) ∨
        ∀ txin ∈ request.tx.vin, SIGNATURES_REQUIRED ≤ (voters late txin.prevout \ voters early txin.prevout).card := by
  have hlater :=
    isLocked_iff_enough early late hs hset hctx (fun d hd => hgenuine d (mem_append_left _ hd)) hdiffer hunseen ctx'
  have hvote : ∀ d ∈ first, ∃ w ∈ early ++ late, w.vote = d.vote := fun d hd => (hsame d.vote).mp ⟨d, hd, rfl⟩
  have hfirst := isLocked_iff_enough [] first hs hset hctxFirst
    (fun d hd => hgenuine d (mem_append_right _ (by simpa using hd)))
    (by
      intro d hd w hw hhash
      obtain ⟨d', hd', hdv⟩ := hvote d (by simpa using hd)
      obtain ⟨w', hw', hwv⟩ := hvote w (by simpa using hw)
      rw [← hdv, ← hwv] at hhash ⊢
      exact hdiffer d' hd' w' hw' hhash)
    (by
      intro d hd
      obtain ⟨d', hd', hdv⟩ := hvote d (by simpa using hd)
      rw [← hdv]
      exact hunseen d' hd') ctx'
  rw [map_nil, nil_append] at hfirst
  have hvoters : ∀ o, counted [] first o = voters (early ++ late) o := by
    intro o
    rw [counted, show voters [] o = ∅ from rfl, Finset.sdiff_empty]
    ext mn
    rw [mem_voters, mem_voters]
    constructor
    · rintro ⟨d, hd, ho, hmn⟩
      obtain ⟨w, hw, hwv⟩ := hvote d hd
      exact ⟨w, hw, by rw [hwv, ho], by rw [hwv, hmn]⟩
    · rintro ⟨w, hw, ho, hmn⟩
      obtain ⟨d, hd, hdv⟩ := (hsame w.vote).mpr ⟨w, hw, rfl⟩
      exact ⟨d, hd, by rw [hdv, ho], by rw [hdv, hmn]⟩
  have hall : Enough request (counted [] first) ↔
      ∀ txin ∈ request.tx.vin, SIGNATURES_REQUIRED ≤ (voters (early ++ late) txin.prevout).card := by
    unfold Enough
    simp only [hvoters]
  have hmore : Enough request (counted early late) →
      ∀ txin ∈ request.tx.vin, SIGNATURES_REQUIRED ≤ (voters (early ++ late) txin.prevout).card := by
    intro henough txin htxin
    refine (henough txin htxin).trans (Finset.card_le_card ?_)
    rw [voters_append]
    exact Finset.sdiff_subset.trans Finset.subset_union_right
  change _ ↔ locksRespected ctx' = false ∨ _ ∨ Enough request (counted early late)
  rw [Bool.eq_iff_iff, hlater, hfirst, hall]
  cases locksRespected ctx' with
  | false => simp
  | true =>
    simp only [true_and, Bool.true_eq_false, false_or]
    constructor
    · intro hiff
      by_cases htotal : ∀ txin ∈ request.tx.vin, SIGNATURES_REQUIRED ≤ (voters (early ++ late) txin.prevout).card
      · exact .inr (hiff.mpr htotal)
      · push Not at htotal
        exact .inl htotal
    · rintro (⟨txin, htxin, hfew⟩ | henough)
      · have hnot : ¬∀ txin ∈ request.tx.vin, SIGNATURES_REQUIRED ≤ (voters (early ++ late) txin.prevout).card :=
          fun htotal => absurd (htotal txin htxin) (not_le.mpr hfew)
        exact iff_of_false (fun henough => hnot (hmore henough)) hnot
      · exact iff_of_true henough (hmore henough)

theorem locked_as_requestFirst_oneEarly :
    (run (CInstantSend.step smallLockEnv) {} ((votesFor51 [7]).map Delivery.action ++
        (firstTen, .request (coinRequest 51)) :: (votesFor51 [1, 2, 3, 4, 5, 6]).map Delivery.action)
        ).isLockedInstantSendTransaction firstTen (coinRequest 51).getHash =
      (run (CInstantSend.step smallLockEnv) {} ((firstTen, .request (coinRequest 51)) ::
        (votesFor51 [1, 2, 3, 4, 5, 6, 7]).map Delivery.action)).isLockedInstantSendTransaction firstTen
          (coinRequest 51).getHash := by
  have hunheard : Unheard (coinRequest 51) {} :=
    ⟨by simp, by simp, by simp, fun _ _ => by simp [votedHashes], fun _ _ => by simp⟩
  refine (locked_as_requestFirst_iff (coinRequest 51) (by decide) {} hunheard 1000 (votesFor51 [7])
    (votesFor51 [1, 2, 3, 4, 5, 6]) (votesFor51 [1, 2, 3, 4, 5, 6, 7]) ?_ (fun d _ => by
      simp) (by unfold HashesDiffer; decide +kernel) ?_ firstTen firstTen
    calm_firstTen calm_firstTen firstTen).mpr ?_
  · intro d hd
    rcases mem_append.mp hd with hd | hd
    · rcases mem_append.mp hd with hd | hd
      · exact genuine_votesFor51 (by decide) d hd
      · exact genuine_votesFor51 (by decide) d hd
    · exact genuine_votesFor51 (by decide) d hd
  · intro vote
    simp only [votesFor51, map_cons, map_nil, cons_append, nil_append, mem_cons, not_mem_nil,
      or_false, exists_eq_or_imp, exists_eq_left]
    tauto
  · refine .inr (.inr ?_)
    decide +kernel

/-- Six votes lock after the request, but not before it. -/
theorem earlyVotes_lost :
    (run (CInstantSend.step smallLockEnv) {} ((votesFor51 [1, 2, 3, 4, 5, 6]).map Delivery.action ++
        [(firstTen, .request (coinRequest 51))])).isLockedInstantSendTransaction firstTen (coinRequest 51).getHash =
          false ∧
      (run (CInstantSend.step smallLockEnv) {} ((firstTen, .request (coinRequest 51)) ::
        (votesFor51 [1, 2, 3, 4, 5, 6]).map Delivery.action)).isLockedInstantSendTransaction firstTen
          (coinRequest 51).getHash = true := by
  decide +kernel

end Qstees.Proofs
