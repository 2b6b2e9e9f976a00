import Qstees.Library.FirstCome
import Qstees.Proofs.VoteCounting

/-!
# The elected payee and the order of the votes

`AddPayee` looks for a payee by its script alone, and a new payee takes the tier of the masternode that voted first.
-/

namespace Qstees.Proofs

open FirstCome List CMasternodePayee

variable (E : PaymentEnv) (find : COutPoint → Option Int)

def voterTier (vote : CMasternodePaymentVote) : Int := (find vote.vinMasternode.prevout).getD (-1)

variable (votes : List CMasternodePaymentVote)

def votesFor (payee : CScript) : Nat := votes.countP (fun vote => vote.payee = payee)

/-- What `GetBestPayee` compares: the votes, then the hash of script and tier. -/
def payeeRank (qsteestype : Int) (payee : CScript) : Nat ×ₗ Nat :=
  toLex (votesFor votes payee, E.payeeHash payee qsteestype)

def addPayees (nBlockHeight : Int) (votes : List CMasternodePaymentVote) : CMasternodeBlockPayees :=
  votes.foldl (fun bp vote => bp.addPayee E vote find) ⟨nBlockHeight, []⟩

def Tallies (p : CMasternodePayee) : Prop :=
  groupOf CMasternodePaymentVote.payee (voterTier find) votes p.scriptPubKey = some p.qsteestype ∧
    p.getVoteCount = votesFor votes p.scriptPubKey

/-- Each payee voted for is there once, with its votes and the tier of the first of them. -/
structure Collected (votes : List CMasternodePaymentVote) (ps : List CMasternodePayee) : Prop where
  nodup : (ps.map scriptPubKey).Nodup
  entry : ∀ p ∈ ps, Tallies find votes p
  complete : ∀ vote ∈ votes, vote.payee ∈ ps.map scriptPubKey

variable {find}

lemma votesFor_concat (vote : CMasternodePaymentVote) (payee : CScript) :
    votesFor (votes ++ [vote]) payee = votesFor votes payee + if vote.payee = payee then 1 else 0 := by
  unfold votesFor
  rw [countP_append, countP_singleton]
  simp

lemma groupOf_concat (vote : CMasternodePaymentVote) (payee : CScript) :
    groupOf CMasternodePaymentVote.payee (voterTier find) (votes ++ [vote]) payee =
      (groupOf CMasternodePaymentVote.payee (voterTier find) votes payee).or
        (if vote.payee = payee then some (voterTier find vote) else none) := by
  rw [groupOf_append, groupOf_singleton]

variable {payee : CScript} {ps : List CMasternodePayee} {p : CMasternodePayee} {qsteestype : Int}

lemma entry_addVoteHash {hashIn : UInt256} {ps' : List CMasternodePayee}
    (h : addVoteHash payee hashIn ps = some ps')
    (hnodup : (ps.map scriptPubKey).Nodup) {p' : CMasternodePayee}
    (hp' : p' ∈ ps') :
    (p' ∈ ps ∧ p'.scriptPubKey ≠ payee) ∨
      ∃ p ∈ ps, p.scriptPubKey = payee ∧ p' = { p with vecVoteHashes := p.vecVoteHashes ++ [hashIn] } := by
  obtain ⟨pre, p, post, rfl, rfl, rfl⟩ := addVoteHash_split h
  rw [map_append, map_cons, nodup_middle, nodup_cons, ← map_append] at hnodup
  have hothers : ∀ q ∈ pre ++ post, q.scriptPubKey ≠ p.scriptPubKey :=
    fun q hq hsame => hnodup.1 (hsame ▸ mem_map_of_mem hq)
  rcases mem_append.mp hp' with hpre | hpost
  · exact .inl ⟨by simp [hpre], hothers p' (by simp [hpre])⟩
  rcases mem_cons.mp hpost with rfl | hpost
  · exact .inr ⟨p, by simp, rfl, rfl⟩
  · exact .inl ⟨by simp [hpost], hothers p' (by simp [hpost])⟩

variable {votes : List CMasternodePaymentVote}

lemma Tallies.other (h : Tallies find votes p) {vote : CMasternodePaymentVote}
    (hne : p.scriptPubKey ≠ vote.payee) : Tallies find (votes ++ [vote]) p := by
  rw [Tallies, groupOf_concat, votesFor_concat, h.1, h.2, if_neg hne.symm, if_neg hne.symm]
  exact ⟨rfl, rfl⟩

lemma Collected.addPayee {bp : CMasternodeBlockPayees}
    (h : Collected find votes bp.vecPayees) {vote : CMasternodePaymentVote}
    (hknown : find vote.vinMasternode.prevout = some qsteestype) :
    Collected find (votes ++ [vote]) (bp.addPayee E vote find).vecPayees := by
  have hnodup := (addPayee_inv E (h := bp.nBlockHeight) ⟨rfl, h.nodup⟩ vote find).nodup
  unfold CMasternodeBlockPayees.addPayee at hnodup ⊢
  cases hadd : addVoteHash vote.payee (E.getHash vote) bp.vecPayees with
  | some ps =>
    rw [hadd] at hnodup
    refine ⟨hnodup, fun p hp => ?_, fun v hv => ?_⟩
    · rcases entry_addVoteHash hadd h.nodup hp with ⟨hmem, hne⟩ | ⟨q, hq, hsame, rfl⟩
      · exact (h.entry p hmem).other hne
      · obtain ⟨htier, hcount⟩ := h.entry q hq
        rw [getVoteCount] at hcount
        rw [Tallies, groupOf_concat, votesFor_concat, htier, if_pos hsame.symm, if_pos hsame.symm]
        simp [getVoteCount, hcount]
    · rw [addVoteHash_some hadd]
      rcases mem_append.mp hv with hv | hv
      · exact h.complete v hv
      · rw [mem_singleton.mp hv]
        by_contra hnone
        rw [addVoteHash_eq_none.mpr hnone] at hadd
        cases hadd
  | none =>
    rw [hadd, hknown] at hnodup
    rw [hknown]
    have hnew := addVoteHash_eq_none.mp hadd
    have hunvoted : ∀ v ∈ votes, v.payee ≠ vote.payee := fun v hv hsame => hnew (hsame ▸ h.complete v hv)
    refine ⟨hnodup, fun p hp => ?_, fun v hv => ?_⟩
    · rcases mem_append.mp hp with hp | hp
      · exact (h.entry p hp).other (fun hsame => hnew (hsame ▸ mem_map_of_mem hp))
      · obtain rfl := mem_singleton.mp hp
        have hnone : groupOf CMasternodePaymentVote.payee (voterTier find) votes vote.payee = none := by
          simpa [groupOf] using hunvoted
        have hzero : votesFor votes vote.payee = 0 := by simpa [votesFor, countP_eq_zero] using hunvoted
        rw [Tallies, groupOf_concat, votesFor_concat, hnone, hzero]
        simp [getVoteCount, voterTier, hknown]
    · rcases mem_append.mp hv with hv | hv
      · simpa using .inl (mem_map.mp (h.complete v hv))
      · simp [mem_singleton.mp hv]

lemma collected_addPayees (nBlockHeight : Int)
    (hknown : ∀ vote ∈ votes, ∃ qsteestype, find vote.vinMasternode.prevout = some qsteestype) :
    Collected find votes (addPayees E find nBlockHeight votes).vecPayees := by
  induction votes using List.reverseRecOn with
  | nil => exact ⟨nodup_nil, by simp [addPayees], by simp⟩
  | append_singleton votes vote ih =>
    obtain ⟨qsteestype, hvoter⟩ := hknown vote (by simp)
    rw [addPayees, foldl_concat]
    exact (ih (fun v hv => hknown v (mem_append_left _ hv))).addPayee E hvoter

def entryRank (p : CMasternodePayee) : Nat ×ₗ Nat := toLex (p.getVoteCount, E.payeeHash p.scriptPubKey p.qsteestype)

/-- After the payees seen so far: none of the tier, or one of greatest rank among those of the tier. -/
inductive Ahead (qsteestype : Int) (seen : List CMasternodePayee) : BestPayee → Prop
  | none (b : BestPayee) (hvotes : b.nVotes = -1) (hseen : ∀ p ∈ seen, p.qsteestype ≠ qsteestype) :
    Ahead qsteestype seen b
  | one (p : CMasternodePayee) (hmem : p ∈ seen) (htier : p.qsteestype = qsteestype)
      (hmax : ∀ q ∈ seen, q.qsteestype = qsteestype → entryRank E q ≤ entryRank E p) :
      Ahead qsteestype seen ⟨p.getVoteCount, p.scriptPubKey, p⟩

lemma entryRank_le {q : CMasternodePayee} :
    entryRank E p ≤ entryRank E q ↔ p.getVoteCount < q.getVoteCount ∨ p.getVoteCount = q.getVoteCount ∧
      E.payeeHash p.scriptPubKey p.qsteestype ≤ E.payeeHash q.scriptPubKey q.qsteestype := by
  simp [entryRank, Prod.Lex.toLex_le_toLex]

lemma bestPayeeStep_tier (best : CMasternodePayee) (htier : p.qsteestype = qsteestype) :
    bestPayeeStep E qsteestype ⟨best.getVoteCount, best.scriptPubKey, best⟩ p =
      if entryRank E p ≤ entryRank E best then ⟨best.getVoteCount, best.scriptPubKey, best⟩
      else ⟨p.getVoteCount, p.scriptPubKey, p⟩ := by
  simp only [entryRank_le]
  unfold bestPayeeStep
  by_cases hmore : best.getVoteCount < p.getVoteCount
  · have hworse : ¬(p.getVoteCount < best.getVoteCount ∨ p.getVoteCount = best.getVoteCount ∧
        E.payeeHash p.scriptPubKey p.qsteestype ≤ E.payeeHash best.scriptPubKey best.qsteestype) := by omega
    rw [if_neg hworse]
    simp [hmore, htier]
  · have hnot : ¬((p.getVoteCount : Int) > best.getVoteCount ∧ p.qsteestype = qsteestype) := by omega
    simp only [if_neg hnot]
    by_cases hsame : p.getVoteCount = best.getVoteCount
    · rw [if_pos ⟨by omega, htier⟩]
      by_cases hhash : E.payeeHash p.scriptPubKey p.qsteestype > E.payeeHash best.scriptPubKey best.qsteestype
      · rw [if_pos hhash, if_neg (by omega), hsame]
      · rw [if_neg hhash, if_pos (by omega)]
    · rw [if_neg (by omega), if_pos (by omega)]

lemma Ahead.step {seen : List CMasternodePayee} {b : BestPayee} (h : Ahead E qsteestype seen b)
    (p : CMasternodePayee) : Ahead E qsteestype (seen ++ [p]) (bestPayeeStep E qsteestype b p) := by
  by_cases htier : p.qsteestype = qsteestype
  · cases h with
    | none b hvotes hseen =>
      have hstep : bestPayeeStep E qsteestype b p = ⟨p.getVoteCount, p.scriptPubKey, p⟩ := by
        have hfirst : (-1 : Int) < p.getVoteCount := by omega
        simp [bestPayeeStep, htier, hvotes, hfirst]
      rw [hstep]
      exact .one p (by simp) htier (forall_mem_append.mpr ⟨fun q hq hqt => absurd hqt (hseen q hq), by simp⟩)
    | one best hmem hbest hmax =>
      rw [bestPayeeStep_tier E best htier]
      split_ifs with hle
      · exact .one best (mem_append_left _ hmem) hbest (forall_mem_append.mpr ⟨hmax, by simp [hle]⟩)
      · have hworse : ∀ q ∈ seen, q.qsteestype = qsteestype → entryRank E q ≤ entryRank E p :=
          fun q hq hqt => (hmax q hq hqt).trans (lt_of_not_ge hle).le
        exact .one p (by simp) htier (forall_mem_append.mpr ⟨hworse, by simp⟩)
  · have hstep : bestPayeeStep E qsteestype b p = b := by simp [bestPayeeStep, htier]
    rw [hstep]
    have hold : ∀ q ∈ seen ++ [p], q.qsteestype = qsteestype → q ∈ seen := by
      intro q hq hqt
      rcases mem_append.mp hq with hq | hq
      · exact hq
      · exact absurd (mem_singleton.mp hq ▸ hqt) htier
    cases h with
    | none b hvotes hseen => exact .none b hvotes (fun q hq hqt => hseen q (hold q hq hqt) hqt)
    | one best hmem hbest hmax =>
      exact .one best (mem_append_left _ hmem) hbest (fun q hq hqt => hmax q (hold q hq hqt) hqt)

lemma Ahead.loop {seen : List CMasternodePayee} {b : BestPayee} (h : Ahead E qsteestype seen b)
    (ps : List CMasternodePayee) :
    Ahead E qsteestype (seen ++ ps) (ps.foldl (bestPayeeStep E qsteestype) b) := by
  induction ps generalizing seen b with
  | nil => simpa using h
  | cons p ps ih => simpa using ih (h.step E p)

variable {E} {votes : List CMasternodePaymentVote}

/-- Different payees of a vote list have different hashes. -/
def DistinctHashes (E : PaymentEnv) (find : COutPoint → Option Int) (votes : List CMasternodePaymentVote) : Prop :=
  ∀ v ∈ votes, ∀ w ∈ votes, E.payeeHash v.payee (voterTier find v) = E.payeeHash w.payee (voterTier find w) →
    v.payee = w.payee ∧ voterTier find v = voterTier find w

lemma Collected.entryRank (h : Collected find votes ps) (hp : p ∈ ps) :
    entryRank E p = payeeRank E votes p.qsteestype p.scriptPubKey := by
  rw [Proofs.entryRank, payeeRank, (h.entry p hp).2]

lemma Collected.exists_entry (h : Collected find votes ps)
    (hgroup : groupOf CMasternodePaymentVote.payee (voterTier find) votes payee = some qsteestype) :
    ∃ p ∈ ps, p.scriptPubKey = payee ∧ p.qsteestype = qsteestype := by
  obtain ⟨v, hv, rfl, -⟩ := exists_of_groupOf hgroup
  obtain ⟨p, hp, hscript⟩ := mem_map.mp (h.complete v hv)
  have htier := (h.entry p hp).1
  rw [hscript, hgroup] at htier
  exact ⟨p, hp, hscript, (Option.some.inj htier).symm⟩

lemma eq_of_payeeRank (hdistinct : DistinctHashes E find votes) {payee' : CScript}
    (hp : groupOf CMasternodePaymentVote.payee (voterTier find) votes payee = some qsteestype)
    (hp' : groupOf CMasternodePaymentVote.payee (voterTier find) votes payee' = some qsteestype)
    (hrank : payeeRank E votes qsteestype payee = payeeRank E votes qsteestype payee') :
    payee = payee' := by
  obtain ⟨v, hv, rfl, rfl⟩ := exists_of_groupOf hp
  obtain ⟨w, hw, rfl, htier⟩ := exists_of_groupOf hp'
  have hhash := congrArg (fun rank => (ofLex rank).2) hrank
  rw [← htier] at hhash
  exact (hdistinct v hv w hw (by simpa [payeeRank, htier] using hhash)).1

lemma getBestPayee_eq_some_iff (nBlockHeight : Int) (hdistinct : DistinctHashes E find votes)
    (hknown : ∀ vote ∈ votes, ∃ qsteestype, find vote.vinMasternode.prevout = some qsteestype)
    :
    (addPayees E find nBlockHeight votes).getBestPayee E qsteestype = some payee ↔
      Leads CMasternodePaymentVote.payee (voterTier find) (payeeRank E votes) votes qsteestype payee := by
  have hcollected := collected_addPayees E nBlockHeight hknown
  generalize addPayees E find nBlockHeight votes = bp at hcollected ⊢
  have hstart : Ahead E qsteestype [] ⟨-1, [], ⟨[], 0, []⟩⟩ := .none _ rfl (by simp)
  have hloop := hstart.loop E bp.vecPayees
  unfold CMasternodeBlockPayees.getBestPayee
  dsimp only
  generalize bp.vecPayees.foldl (bestPayeeStep E qsteestype) ⟨-1, [], ⟨[], 0, []⟩⟩ = b at hloop ⊢
  rw [nil_append] at hloop
  cases hloop with
  | none b hvotes hseen =>
    have hnone : ¬∃ p ∈ bp.vecPayees, p.scriptPubKey = payee ∧ p.qsteestype = qsteestype :=
      fun ⟨p, hp, _, htier⟩ => hseen p hp htier
    constructor
    · simp [hvotes]
    · intro hleads
      exact absurd (hcollected.exists_entry hleads.1) hnone
  | one p hmem htier hmax =>
    have hnonempty : bp.vecPayees.isEmpty = false := by
      cases hps : bp.vecPayees with
      | nil => rw [hps] at hmem; cases hmem
      | cons q qs => rfl
    have hfound : ((p.getVoteCount : Int) > -1) := by omega
    have hstands : groupOf CMasternodePaymentVote.payee (voterTier find) votes p.scriptPubKey = some qsteestype := by
      rw [(hcollected.entry p hmem).1, htier]
    have hleads : Leads CMasternodePaymentVote.payee (voterTier find)
      (payeeRank E votes) votes qsteestype p.scriptPubKey := by
      refine ⟨hstands, ?_⟩
      intro payee' hstands'
      obtain ⟨q, hq, rfl, rfl⟩ := hcollected.exists_entry hstands'
      have hle := hmax q hq rfl
      rwa [hcollected.entryRank hq, hcollected.entryRank hmem, htier] at hle
    simp only [hnonempty, hfound, Bool.false_eq_true, if_false, if_true, Option.some.injEq]
    constructor
    · rintro rfl
      exact hleads
    · intro hother
      apply eq_of_payeeRank hdistinct hstands hother.1
      exact le_antisymm (hother.2 _ hstands) (hleads.2 _ hother.1)

/-- Votes for this height that `IsValid` accepts. -/
def ValidVotes (ctx : VoteContext) (nValidationHeight nBlockHeight : Int) (votes : List CMasternodePaymentVote) :
    Prop :=
  ∀ vote ∈ votes, vote.nBlockHeight = nBlockHeight ∧ vote.isValid ctx nValidationHeight = .ok ()

lemma ValidVotes.known {ctx : VoteContext} {nValidationHeight nBlockHeight : Int}
    (h : ValidVotes ctx nValidationHeight nBlockHeight votes) :
    ∀ vote ∈ votes, ∃ qsteestype, ctx.find vote.vinMasternode.prevout = some qsteestype := by
  intro vote hvote
  have hvalid := (h vote hvote).2
  unfold CMasternodePaymentVote.isValid at hvalid
  cases hnode : ctx.mapMasternodes[vote.vinMasternode.prevout]? with
  | none =>
    rw [hnode] at hvalid
    cases hvalid
  | some mnInfo => exact ⟨mnInfo.qsteestype, by rw [VoteContext.find, hnode]; rfl⟩

lemma payeeRank_perm {votes' : List CMasternodePaymentVote} (h : votes'.Perm votes) :
    payeeRank E votes' = payeeRank E votes := by
  funext qsteestype payee
  unfold payeeRank votesFor
  rw [h.countP_eq]

/-- The payee of every tier is the same in all orders of the votes if and only if each payee voted for from several
tiers is outvoted, in each of them, by one whose voters are all of that tier. -/
theorem bestPayee_order_iff (ctx : VoteContext) (nValidationHeight nBlockHeight : Int)
    (hvalid : ValidVotes ctx nValidationHeight nBlockHeight votes) (hdistinct : DistinctHashes E ctx.find votes) :
    (∀ order order', order.Perm votes → order'.Perm votes → ∀ qsteestype,
        (addPayees E ctx.find nBlockHeight order).getBestPayee E qsteestype =
          (addPayees E ctx.find nBlockHeight order').getBestPayee E qsteestype) ↔
      Outranked CMasternodePaymentVote.payee (voterTier ctx.find) (payeeRank E votes) votes := by
  have hleads : ∀ order, order.Perm votes → ∀ qsteestype payee,
      (addPayees E ctx.find nBlockHeight order).getBestPayee E qsteestype = some payee ↔
        Leads CMasternodePaymentVote.payee (voterTier ctx.find) (payeeRank E votes) order qsteestype payee := by
    intro order horder qsteestype payee
    rw [← payeeRank_perm horder]
    apply getBestPayee_eq_some_iff
    · exact fun v hv w hw => hdistinct v (horder.mem_iff.mp hv) w (horder.mem_iff.mp hw)
    · exact fun vote hvote => hvalid.known vote (horder.mem_iff.mp hvote)
  rw [← leads_perm_iff]
  constructor
  · intro hsame order order' horder horder' qsteestype payee
    rw [← hleads order horder, ← hleads order' horder', hsame order order' horder horder']
  · intro hsame order order' horder horder' qsteestype
    ext payee
    rw [hleads order horder, hleads order' horder', hsame order order' horder horder']

def tierHashEnv : PaymentEnv := { plainEnv with payeeHash :=
    fun payee qsteestype => payee.length * 100 + qsteestype.toNat }

def twoTiers : VoteContext :=
  { oneNode with mapMasternodes := oneNode.mapMasternodes.insert ⟨7, 1⟩ ⟨250000, [2], 5⟩ }

def tierVote (n : Nat) (payee : CScript) : CMasternodePaymentVote :=
  ⟨⟨⟨7, n⟩, [], SEQUENCE_FINAL, []⟩, 1001, payee, [1]⟩

instance (nValidationHeight nBlockHeight : Int) (ctx : VoteContext) :
    Decidable (ValidVotes ctx nValidationHeight nBlockHeight votes) := inferInstanceAs (Decidable (∀ vote ∈ votes, _))

instance : Decidable (DistinctHashes E find votes) := inferInstanceAs (Decidable (∀ v ∈ votes, ∀ w ∈ votes, _))

theorem bestPayee_order_twoPayees :
    (addPayees tierHashEnv twoTiers.find 1001 [tierVote 0 [0x51], tierVote 1 [0x52, 0x53]]).getBestPayee tierHashEnv 5 =
      (addPayees tierHashEnv twoTiers.find 1001 [tierVote 1 [0x52, 0x53], tierVote 0 [0x51]]).getBestPayee
        tierHashEnv 5 := by
  apply (bestPayee_order_iff twoTiers 1000 1001 (by decide +kernel) (by decide +kernel)).mpr _ _ _ (List.Perm.refl _)
    (List.Perm.swap _ _ _)
  intro b hb b' hb' hsame hgroup
  have hnever : ∀ b ∈ [tierVote 0 [0x51], tierVote 1 [0x52, 0x53]], ∀ b' ∈ [tierVote 0 [0x51], tierVote 1 [0x52, 0x53]],
      b.payee = b'.payee → voterTier twoTiers.find b = voterTier twoTiers.find b' := by decide +kernel
  exact absurd (hnever b hb b' hb' hsame) hgroup

/-- Two tiers vote for one payee: the first vote decides. -/
theorem bestPayee_order_differs :
    ValidVotes twoTiers 1000 1001 [tierVote 0 [0x51], tierVote 1 [0x51]] ∧
      DistinctHashes tierHashEnv twoTiers.find [tierVote 0 [0x51], tierVote 1 [0x51]] ∧
      (addPayees tierHashEnv twoTiers.find 1001 [tierVote 0 [0x51], tierVote 1 [0x51]]).getBestPayee tierHashEnv 1 =
        some [0x51] ∧
      (addPayees tierHashEnv twoTiers.find 1001 [tierVote 1 [0x51], tierVote 0 [0x51]]).getBestPayee tierHashEnv 1 =
        none := by
  decide +kernel

end Qstees.Proofs
