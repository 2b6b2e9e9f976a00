import Qstees.Proofs.LockQuorum

/-!
# Lock safety

No two transactions that share an input are both completed as locks while the input is unspent, unless a clean-up
forgets the votes of candidates that stay: it removes what `mapVotedOutpoints` holds for the outpoints of an expired
candidate, whichever transactions the votes were for. -/

namespace Qstees.Proofs

open CInstantSend Runs List CTxLockCandidate

variable {E : InstantSendEnv} {Q : COutPoint → Finset COutPoint}

variable (E Q) in
/-- Valid votes for an outpoint come from `Q` of it. -/
def VotersIn (ctx : InstantSendContext) : Prop :=
  ∀ vote : CTxLockVote, vote.isValid E ctx = true → vote.outpointMasternode ∈ Q vote.outpoint

variable {s : CInstantSend} {vote : CTxLockVote} {ctx : InstantSendContext}

lemma VotesKept.countAttempt (hs : VotesKept E Q s) {c : CTxLockCandidate}
    (hc : s.mapTxLockCandidates[vote.txHash]? = some c) (hset : c.txLockRequest.isSet E = true)
    (hvoter : vote.outpointMasternode ∈ Q vote.outpoint) :
    VotesKept E Q (countAttempt s vote).1 ∧ (countAttempt s vote).1.mapLockedOutpoints = s.mapLockedOutpoints := by
  have hmarks := extend_markAll (E := E) s vote (s.votedHashes vote.outpoint).toList
  have hasked : VotesKept E Q (askedFor s vote) := (hs.extend hmarks).addVotedHash _ _
  rcases countAttempt_cases s vote with hnone | ⟨hlock, hadded, -⟩
  · rw [hnone]
    exact ⟨hasked, hmarks.locked⟩
  refine ⟨?_, hadded.locked.trans hmarks.locked⟩
  apply hasked.voteAdded hadded hvoter
  · exact mem_votedHashes_askedFor.mpr (.inl ⟨rfl, rfl⟩)
  · refine .inr (fun c₂ hc₂ => ?_)
    obtain ⟨c₁, hc₁, hrequest⟩ := (sameRequests_askedFor s vote).requests vote.txHash c₂ hc₂
    cases hc.symm.trans hc₁
    rwa [hrequest]
  · intro k hne hvote
    have hbefore := hmarks.hasVote_iff.mp hvote
    have hmem : k ∈ (s.votedHashes vote.outpoint).toList :=
      Std.ExtTreeSet.mem_toList.mpr (hs.asked k _ _ hbefore)
    exact markAll_attacked E hmem hne hbefore hlock

lemma VotesKept.messageAttempt (hctx : VotersIn E Q ctx) (hs : VotesKept E Q s) (nVersion : Int)
    (vote : CTxLockVote) : VotesKept E Q (messageAttempt E ctx nVersion s vote).1 ∧
      (messageAttempt E ctx nVersion s vote).1.mapLockedOutpoints = s.mapLockedOutpoints := by
  have hseen := hs.extend (extend_seenVote s vote)
  rcases messageAttempt_cases (E := E) ctx nVersion s vote with ⟨c, ⟨-, -, hvalid, hc, hset, -⟩, hcount⟩ |
    ⟨-, hsame | hsame | horphan⟩
  · rw [hcount]
    exact hseen.countAttempt hc hset (hctx vote hvalid)
  · rw [hsame]
    exact ⟨hs, rfl⟩
  · rw [hsame]
    exact ⟨hseen, rfl⟩
  · have hextend := extend_orphanAttempt (E := E) ctx (seenVote E s vote) vote
    rw [horphan]
    exact ⟨hseen.extend hextend, hextend.locked⟩

lemma signedVote_isValid {txHash : UInt256} {o : COutPoint} {coin : Coin} {nRank : Int}
    (hsigned : signedVote E ctx txHash o = some vote) (hcoin : ctx.getUTXOCoin o = some coin)
    (hrank : ctx.getMasternodeRank E.activeOutpoint (coin.nHeight + 4) = some nRank)
    (htop : ¬nRank > SIGNATURES_TOTAL) : vote.isValid E ctx = true := by
  obtain ⟨-, rfl, hmn⟩ := signedVote_eq hsigned
  have hsignature : vote.checkSignature E ctx = true := by
    unfold signedVote at hsigned
    split at hsigned
    · cases hsigned
    · split_ifs at hsigned with hchecked
      cases hsigned
      exact hchecked
  have hinfo : (ctx.getMasternodeInfo vote.outpointMasternode).isNone = false := by
    unfold CTxLockVote.checkSignature at hsignature
    cases hinfo : ctx.getMasternodeInfo vote.outpointMasternode with
    | none =>
      rw [hinfo] at hsignature
      cases hsignature
    | some pubKey => rfl
  rw [CTxLockVote.isValid, if_neg (by simp [hinfo]), hcoin]
  dsimp only
  rw [hmn, hrank]
  exact (if_neg htop).trans hsignature

lemma VotesKept.remembers (hs : VotesKept E Q s) : Remembers E s where
  keyed := hs.shaped.keyed
  asked key o hvote := hs.asked key o _ hvote

lemma VotesKept.recordOwnVote (hs : VotesKept E Q s)
    (hvoter : vote.outpointMasternode ∈ Q vote.outpoint)
    (hmn : vote.outpointMasternode = E.activeOutpoint)
    (hfresh : ∀ k, ¬HasVote s k vote.outpoint E.activeOutpoint) :
    VotesKept E Q (s.recordOwnVote E vote.txHash vote) ∧
      (s.recordOwnVote E vote.txHash vote).mapLockedOutpoints = s.mapLockedOutpoints := by
  have hstored : LocksExtend E s (storedVote E s vote) := extend_of_eq rfl rfl rfl
  rcases recordOwnVote_cases (E := E) s vote with ⟨-, hsame⟩ | ⟨-, hadded⟩
  · rw [hsame]
    exact ⟨hs.extend hstored, rfl⟩
  · refine ⟨((hs.extend hstored).addVotedHash _ _).voteAdded hadded hvoter ?_ (.inl hmn) (fun k _ hvote => ?_),
      hadded.locked⟩
    · exact (mem_votedHashes_addVotedHash _ _ _ _ _).mpr (.inl ⟨rfl, rfl⟩)
    · rw [hmn] at hvote
      exact absurd (hstored.hasVote_iff.mp hvote) (hfresh k)

lemma VotesKept.voteAttempt (hctx : VotersIn E Q ctx) (hs : VotesKept E Q s) (txHash : UInt256) :
    VotesKept E Q (voteAttempt E ctx s txHash).1 ∧
      (voteAttempt E ctx s txHash).1.mapLockedOutpoints = s.mapLockedOutpoints := by
  unfold Qstees.Proofs.voteAttempt
  split
  · exact ⟨hs, rfl⟩
  next c hc =>
  dsimp only
  rcases voteCandidate_cases (E := E) ctx hs.shaped.keyed hc with hnothing | hvoted
  · rw [hnothing]
    exact ⟨hs, rfl⟩
  rw [hvoted]
  refine (voteOutpoints_induct (P := fun t _ => VotesKept E Q t ∧
    t.mapLockedOutpoints = s.mapLockedOutpoints) ctx txHash _
    (fun t _ o _ vote coin nRank ht hcoin hrank htop hnot hsigned => ?_) [] ⟨hs, rfl⟩).1
  have hvalid := signedVote_isValid hsigned hcoin hrank htop
  obtain ⟨rfl, rfl, hmn⟩ := signedVote_eq hsigned
  obtain ⟨hrecord, hlocked⟩ :=
    ht.1.recordOwnVote (hctx vote hvalid) hmn (not_voted_of_alreadyVoted ht.1.remembers hnot)
  exact ⟨hrecord, hlocked.trans ht.2⟩

variable (E) in
/-- Condition on a clean-up: the outpoints of the candidates that it removes are spent, and no candidate that stays has
a vote for them. -/
def CleansSpent (s : CInstantSend) (a : InstantSendContext × Action) : Prop :=
  match a.2 with
  | .checkAndRemove => a.1.isMasternodeListSynced = true → ∀ o, LockExpires E s o → a.1.getUTXOCoin o = none ∧
      ∀ (k : UInt256) (c : CTxLockCandidate), s.mapTxLockCandidates[k]? = some c → ¬Expired E s c →
        ∀ mn, c.hasMasternodeVoted o mn = false
  | _ => True

lemma VotesKept.checkAndRemove (hs : VotesKept E Q s)
    (hcond : CleansSpent E s (ctx, .checkAndRemove)) : VotesKept E Q (s.checkAndRemove E ctx) ∧
      ∀ (o : COutPoint) (h : UInt256), s.mapLockedOutpoints[o]? = some h → (ctx.getUTXOCoin o).isSome →
        (s.checkAndRemove E ctx).mapLockedOutpoints[o]? = some h := by
  by_cases hsynced : ctx.isMasternodeListSynced = true
  · have hclean := checkAndRemove_cleansUp (E := E) hsynced s
    have hmaps := checkAndRemove_maps (E := E) hsynced s
    have hkept : ∀ k o mn, HasVote (s.checkAndRemove E ctx) k o mn → HasVote s k o mn ∧ ¬LockExpires E s o := by
      intro k o mn hvote
      obtain ⟨c, hc, hvoted⟩ := (hasVote_iff _ k o mn).mp hvote
      obtain ⟨hbefore, hlive⟩ := hclean.only k c hc
      refine ⟨(hasVote_iff s k o mn).mpr ⟨c, hbefore, hvoted⟩, fun hexpires => ?_⟩
      have hnot := (hcond hsynced o hexpires).2 k c hbefore hlive mn
      rw [hvoted] at hnot
      cases hnot
    -- a lock on an outpoint that no expired candidate locks stays
    have hstays : ∀ k o lock, ¬LockExpires E s o → lockAt s k o = some lock →
      lockAt (s.checkAndRemove E ctx) k o = some lock := by
      intro k o lock hexpires hlock
      obtain ⟨c, hc, hlock⟩ := lockAt_eq_some.mp hlock
      refine lockAt_eq_some.mpr ⟨c, hclean.stays k c hc (fun hex => hexpires ⟨k, c, hc, hex, ?_⟩), hlock⟩
      rw [Std.ExtTreeMap.mem_iff_isSome_getElem?, hlock]
      rfl
    refine ⟨⟨fun k c hc => hs.shaped k c (hclean.only k c hc).1, ?_, ?_, ?_, ?_⟩, ?_⟩
    · exact fun k o mn hvote => hs.voters k o mn (hkept k o mn hvote).1
    · intro k o mn hvote
      obtain ⟨hbefore, hexpires⟩ := hkept k o mn hvote
      rw [((hmaps o).2 hexpires).1]
      exact hs.asked k o mn hbefore
    · intro k k' o mn hne hvote hvote'
      obtain ⟨hbefore, hexpires⟩ := hkept k o mn hvote
      obtain ⟨lock, hlock, hattacked⟩ := hs.conflicts k k' o mn hne hbefore (hkept k' o mn hvote').1
      exact ⟨lock, hstays k o lock hexpires hlock, hattacked⟩
    · intro o h hlocked
      by_cases hexpires : LockExpires E s o
      · rw [((hmaps o).1 hexpires).2] at hlocked
        cases hlocked
      · rw [((hmaps o).2 hexpires).2] at hlocked
        obtain ⟨lock, hlock, hsix⟩ := hs.locked o h hlocked
        exact ⟨lock, hstays h o lock hexpires hlock, hsix⟩
    · intro o h hlocked hunspent
      by_cases hexpires : LockExpires E s o
      · rw [(hcond hsynced o hexpires).1] at hunspent
        cases hunspent
      · rw [((hmaps o).2 hexpires).2, hlocked]
  · rw [CInstantSend.checkAndRemove, if_pos (by simpa using hsynced)]
    exact ⟨hs, fun _ _ h _ => h⟩

lemma VotesKept.attempt {a : InstantSendContext × Action} (hs : VotesKept E Q s)
    (hctx : VotersIn E Q a.1) (hcond : CleansSpent E s a) : VotesKept E Q (attempt E s a).1 ∧
      ∀ (o : COutPoint) (h : UInt256), s.mapLockedOutpoints[o]? = some h → (a.1.getUTXOCoin o).isSome ∨
        (attempt E s a).2.isSome → (attempt E s a).1.mapLockedOutpoints[o]? = some h := by
  have hsame : ∀ {t : CInstantSend} {P : COutPoint → Prop}, VotesKept E Q t ∧
    t.mapLockedOutpoints = s.mapLockedOutpoints →
      VotesKept E Q t ∧ ∀ (o : COutPoint) (h : UInt256), s.mapLockedOutpoints[o]? = some h → P o →
        t.mapLockedOutpoints[o]? = some h := by
    intro t P ⟨ht, hlocked⟩
    refine ⟨ht, fun o h hh _ => ?_⟩
    rw [hlocked, hh]
  have hextend : ∀ {t : CInstantSend}, LocksExtend E s t → VotesKept E Q t ∧
    t.mapLockedOutpoints = s.mapLockedOutpoints :=
    fun ht => ⟨hs.extend ht, ht.locked⟩
  obtain ⟨ctx, action⟩ := a
  cases action with
  | request request => exact hsame (hextend (extend_requestAttempt ctx s request))
  | accept request => exact hsame (hextend (extend_of_eq rfl rfl rfl))
  | reject request => exact hsame (hextend (extend_of_eq rfl rfl rfl))
  | vote txHash => exact hsame (hs.voteAttempt hctx txHash)
  | message nVersion vote => exact hsame (hs.messageAttempt hctx nVersion vote)
  | syncTransaction tx nHeight => exact hsame (hextend (extend_syncTransaction ctx s tx nHeight))
  | updatedBlockTip nHeight => exact hsame (hextend (extend_of_eq rfl rfl rfl))
  | checkAndRemove =>
    obtain ⟨hsound, hlocked⟩ := hs.checkAndRemove hcond
    refine ⟨hsound, fun o h hh hunspent => hlocked o h hh ?_⟩
    rcases hunspent with hunspent | hnone
    · exact hunspent
    · cases hnone

variable (E) in
/-- A step reaches `LockTransactionInputs` for a transaction that spends an outpoint. -/
def LocksInput (s : CInstantSend) (a : InstantSendContext × Action) (o : COutPoint) (txHash : UInt256) : Prop :=
  ∃ c, completedBy E s a = some c ∧ c.getHash = txHash ∧ ∃ txin ∈ c.txLockRequest.tx.vin, txin.prevout = o

lemma locks_remembered (hQ : ∀ o, ((Q o).card : Int) ≤ SIGNATURES_TOTAL) :
    Runs.Remembered (CInstantSend.step E) (VotesKept E Q)
      (fun s a => VotersIn E Q a.1 ∧ CleansSpent E s a) (LocksInput E)
      (fun a o => (a.1.getUTXOCoin o).isSome) (fun s o h => s.mapLockedOutpoints[o]? = some h) where
  invariant s a hs ha := by
    obtain ⟨hsound, -⟩ := hs.attempt ha.1 ha.2
    rw [step_eq_finish]
    unfold finish
    split
    · exact hsound
    · exact (hsound.tryToFinalizeAt hQ a.1 _).1
  one := by
    rintro s a o _ _ - - ⟨c, hc, rfl, -⟩ ⟨c', hc', rfl, -⟩
    rw [Option.some.inj (hc.symm.trans hc')]
  known := by
    rintro s a _ h _ hs ha hlocked ⟨c, hc, rfl, txin, htxin, rfl⟩
    obtain ⟨key, hkey, hfound, hcompletes⟩ := completedBy_eq_some hc
    obtain ⟨hsound, hkept⟩ := hs.attempt ha.1 ha.2
    have hlocked' := hkept txin.prevout h hlocked (.inr (by rw [hkey]; rfl))
    exact (hsound.completed hfound hcompletes htxin).1 h hlocked'
  stored := by
    rintro s a _ _ hs ha ⟨c, hc, rfl, txin, htxin, rfl⟩
    obtain ⟨key, hkey, hfound, hcompletes⟩ := completedBy_eq_some hc
    obtain ⟨hsound, -⟩ := hs.attempt ha.1 ha.2
    rw [step_eq_finish]
    unfold finish
    rw [hkey]
    exact (hsound.completed hfound hcompletes htxin).2
  kept s a o h hs ha hlocked hunspent := by
    obtain ⟨hsound, hkept⟩ := hs.attempt ha.1 ha.2
    have hlocked' := hkept o h hlocked (.inl hunspent)
    rw [step_eq_finish]
    unfold finish
    split
    · exact hlocked'
    · exact (hsound.tryToFinalizeAt hQ a.1 _).2 o h hlocked'

lemma votesKept_init : VotesKept E Q {} := by
  have hnone : ∀ key o mn, ¬HasVote {} key o mn := fun key o mn hvote => by
    obtain ⟨c, hc, -⟩ := (hasVote_iff {} key o mn).mp hvote
    simp at hc
  exact ⟨fun key c hc => by simp at hc, fun key o mn hvote => absurd hvote (hnone key o mn),
    fun key o mn hvote => absurd hvote (hnone key o mn), fun k k' o mn _ hvote => absurd hvote (hnone k o mn),
    fun o h hh => by simp at hh⟩

variable (E) in
/-- Two completed locks for an outpoint are for the same transaction, if the outpoint is unspent at every step from the
one to the other. -/
def NeverBothLocked (steps : List LockStep) : Prop :=
  Agree (LocksInput E) (fun a o => (a.1.getUTXOCoin o).isSome) steps

def tenVoters : Finset COutPoint := (Finset.range 10).image (fun i => ⟨i + 1, 0⟩)

/-- One coin, which may be spent, the ten masternodes, and perhaps a pool transaction that spends the coin. -/
def tenContext (height time : Int) (spent : Bool) (pool : Option UInt256) : InstantSendContext :=
  { lockContext (fun o => if o.n = 0 ∧ 1 ≤ o.hash ∧ o.hash ≤ 10 then some o.hash else none) with
    height := height
    getAdjustedTime := time
    getTime := time
    getUTXOCoin := fun o => if o = ⟨77, 0⟩ ∧ spent = false then some ⟨⟨10 * COIN, [0x51], -10⟩, false, 100⟩ else none
    mapNextTx := fun _ => pool }

lemma votersIn_tenContext (height time : Int) (spent : Bool) (pool : Option UInt256) :
    VotersIn smallLockEnv (fun _ => tenVoters) (tenContext height time spent pool) := by
  intro vote hvalid
  by_contra hnot
  have hrank : (tenContext height time spent pool).getMasternodeRank vote.outpointMasternode = fun _ => none := by
    have hout : ¬(vote.outpointMasternode.n = 0 ∧ 1 ≤ vote.outpointMasternode.hash ∧
      vote.outpointMasternode.hash ≤ 10) := by
      rintro ⟨hn, hlow, hhigh⟩
      apply hnot
      rw [tenVoters, Finset.mem_image]
      refine ⟨vote.outpointMasternode.hash - 1, Finset.mem_range.mpr (Nat.sub_one_lt_of_le hlow hhigh), ?_⟩
      rw [Nat.sub_add_cancel hlow, ← hn]
    funext nHeight
    exact if_neg hout
  unfold CTxLockVote.isValid at hvalid
  split_ifs at hvalid
  split at hvalid
  · cases hvalid
  · rw [hrank] at hvalid
    cases hvalid

/-- In a run whose clean-ups all meet the condition, with ten masternodes for each outpoint, no two transactions that
share an input are both completed as locks while the input stays unspent. -/
theorem never_both_locked (voters : COutPoint → Finset COutPoint)
    (hten : ∀ o, ((voters o).card : Int) ≤ SIGNATURES_TOTAL)
    (actions : List (InstantSendContext × Action)) (hvoters : ∀ a ∈ actions, VotersIn E voters a.1)
    (hcond : ∀ p ∈ trace (CInstantSend.step E) {} actions, CleansSpent E p.1 p.2) :
    NeverBothLocked E (trace (CInstantSend.step E) {} actions) :=
  (locks_remembered hten).agree votesKept_init (fun p hp => ⟨hvoters p.2 (mem_of_mem_trace hp), hcond p hp⟩)

def lockedAndMined : List (InstantSendContext × Action) :=
  (tenContext 200 1000 false none, .request (coinRequest 51)) ::
    votesOf (tenContext 200 1000 false none) 51 [1, 2, 3, 4, 5, 6] ++
    [(tenContext 201 1120 true none, .syncTransaction (coinRequest 51).tx (some 201)),
      (tenContext 226 4120 true none, .updatedBlockTip 226),
      (tenContext 226 4120 true none, .checkAndRemove)]

theorem never_both_locked_mined :
    (trace (CInstantSend.step smallLockEnv) {} lockedAndMined).filterMap
        (fun p => (completedBy smallLockEnv p.1 p.2).map getHash) = [51] ∧
      NeverBothLocked smallLockEnv (trace (CInstantSend.step smallLockEnv) {} lockedAndMined) := by
  refine ⟨by decide +kernel, never_both_locked (fun _ => tenVoters) (fun _ => by decide) lockedAndMined ?_ ?_⟩
  · intro a ha
    simp only [lockedAndMined, votesOf, map_cons, map_nil, cons_append, nil_append, mem_cons,
      not_mem_nil, or_false] at ha
    rcases ha with rfl | rfl | rfl | rfl | rfl | rfl | rfl | rfl | rfl | rfl <;> exact votersIn_tenContext _ _ _ _
  -- the only clean-up removes the only candidate, and the coin is spent
  have hexpired : ∀ p ∈ trace (CInstantSend.step smallLockEnv) {} lockedAndMined,
      (match p.2.2 with
        | .checkAndRemove => p.1.mapTxLockCandidates.toList.all
            (fun entry => lockExpired smallLockEnv entry.2.nConfirmedHeight p.1.nCachedBlockHeight)
        | _ => true) = true := by
    decide +kernel
  intro p hp
  obtain ⟨s, ctx, action⟩ := p
  have hcheck := hexpired _ hp
  have haction := mem_of_mem_trace hp
  cases action
  case checkAndRemove =>
    obtain rfl : ctx = tenContext 226 4120 true none := by simpa [lockedAndMined, votesOf] using haction
    intro _ o _
    refine ⟨if_neg (by simp), fun k c hc hlive => ?_⟩
    have hall := all_eq_true.mp hcheck (k, c) (Std.ExtTreeMap.mem_toList_iff_getElem?_eq_some.mpr hc)
    exact absurd hall hlive
  all_goals trivial

/-- Transaction 52 gets its votes while the pool holds transaction 51, which is then mined and cleaned up. -/
def minedOverVotes : List (InstantSendContext × Action) :=
  [(tenContext 200 1000 false (some 51), .request (coinRequest 51)),
    (tenContext 200 1000 false (some 51), .request (coinRequest 52))] ++
    votesOf (tenContext 200 1000 false (some 51)) 52 [1, 2, 3, 4, 5, 6] ++
    [(tenContext 201 1120 true none, .syncTransaction (coinRequest 51).tx (some 201)),
      (tenContext 226 4120 true none, .updatedBlockTip 226),
      (tenContext 226 4120 true none, .checkAndRemove)]

/-- A reorganisation gives the coin back. The same six masternodes vote for transaction 53, the request for 52 comes
again, and they vote for transaction 54. -/
def votesAfterReorg : List (InstantSendContext × Action) :=
  (tenContext 227 4200 false none, .updatedBlockTip 227) ::
    (tenContext 227 4200 false none, .request (coinRequest 53)) ::
    votesOf (tenContext 227 4200 false none) 53 [1, 2, 3, 4, 5, 6] ++
    [(tenContext 227 4200 false none, .request (coinRequest 52)),
      (tenContext 227 4200 false none, .request (coinRequest 54))] ++
    votesOf (tenContext 227 4200 false none) 54 [1, 2, 3, 4, 5, 6]

/-- After a reorganisation the same voters lock a second transaction. -/
theorem reorg_locks_two :
    (∀ a ∈ minedOverVotes ++ votesAfterReorg, VotersIn smallLockEnv (fun _ => tenVoters) a.1) ∧
      ¬NeverBothLocked smallLockEnv (trace (CInstantSend.step smallLockEnv) {}
        (minedOverVotes ++ votesAfterReorg)) := by
  constructor
  · intro a ha
    have hctx : ∃ height time spent pool, a.1 = tenContext height time spent pool := by
      simp only [minedOverVotes, votesAfterReorg, votesOf, map_cons, map_nil, cons_append, nil_append,
        mem_cons, not_mem_nil, or_false] at ha
      repeat' rcases ha with rfl | ha
      all_goals exact ⟨_, _, _, _, rfl⟩
    obtain ⟨height, time, spent, pool, heq⟩ := hctx
    rw [heq]
    exact votersIn_tenContext height time spent pool
  · intro h
    have hfirst : ((trace (CInstantSend.step smallLockEnv) {} (minedOverVotes ++ votesAfterReorg))[18]?).bind
        (fun p => (completedBy smallLockEnv p.1 p.2).map txLockRequest) = some (coinRequest 53) := by
      decide +kernel
    have hsecond : ((trace (CInstantSend.step smallLockEnv) {} (minedOverVotes ++ votesAfterReorg))[26]?).bind
        (fun p => (completedBy smallLockEnv p.1 p.2).map txLockRequest) = some (coinRequest 54) := by
      decide +kernel
    have hunspent : ∀ r ∈ (trace (CInstantSend.step smallLockEnv) {} (minedOverVotes ++ votesAfterReorg)).drop 18,
        (r.2.1.getUTXOCoin ⟨77, 0⟩).isSome = true := by
      decide +kernel
    obtain ⟨p, hp, hp'⟩ := Option.bind_eq_some_iff.mp hfirst
    obtain ⟨q, hq, hq'⟩ := Option.bind_eq_some_iff.mp hsecond
    obtain ⟨c, hc, hrequest⟩ := Option.map_eq_some_iff.mp hp'
    obtain ⟨c', hc', hrequest'⟩ := Option.map_eq_some_iff.mp hq'
    have hlocks : LocksInput smallLockEnv p.1 p.2 ⟨77, 0⟩ 53 :=
      ⟨c, hc, by rw [getHash, hrequest]; rfl, by rw [hrequest]; exact ⟨_, mem_cons_self, rfl⟩⟩
    have hlocks' : LocksInput smallLockEnv q.1 q.2 ⟨77, 0⟩ 54 :=
      ⟨c', hc', by rw [getHash, hrequest']; rfl, by rw [hrequest']; exact ⟨_, mem_cons_self, rfl⟩⟩
    have hsame := h 18 26 p q (by decide) hp hq ⟨77, 0⟩ 53 54 hlocks hlocks' (fun n r hn _ hr => ?_)
    · exact absurd hsame (by decide)
    · apply hunspent r
      apply mem_of_getElem? (i := n - 18)
      rw [getElem?_drop, Nat.add_sub_of_le hn, hr]

end Qstees.Proofs
