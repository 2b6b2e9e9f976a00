import Qstees.Proofs.BlockAcceptance

/-!
# What commands leave among the candidates

Between two activations every usable block that is not worse than the tip is a candidate, and a block with data is
linked unless its parent failed or it waits for its parent.
-/

namespace Qstees.Proofs

open ParentTree List CBlockIndex

variable {E : ChainEnv} {s t : ChainState}

variable {xs chain : List UInt256} {f : CBlockIndex → CBlockIndex} {x y pindex : UInt256}

lemma failed_setIndices_of_mem (hf : ∀ i, (f i).failed = true) (hx : x ∈ xs) :
    ((s.setIndices xs f).index x).failed = true := by
  simp only [ChainState.setIndices, hx, if_true, hf]

lemma index_setIndices_of_notMem (f : CBlockIndex → CBlockIndex) (hx : x ∉ xs) :
    (s.setIndices xs f).index x = s.index x := by
  simp only [ChainState.setIndices, hx, if_false]

/-- The active blocks have not failed, and a block with data is linked, or queued, or waits for its parent, or its
parent failed. -/
structure Orderly (E : ChainEnv) (queue : List UInt256) (s : ChainState) : Prop where
  consistent : Consistent E s
  chain_valid : ∀ x ∈ s.chainActive, (s.index x).failed = false
  failed_blocks : ∀ x ∈ s.m_failed_blocks, x ∈ s.mapBlockIndex ∧ (s.index x).failed = true
  waiting : ∀ x ∈ s.mapBlockIndex, (s.index x).nStatus.haveData = true → (s.index x).nChainTx = 0 →
    x ∈ queue ∨ ∃ p, prev s x = some p ∧ ((s.index p).failed = true ∨ (p, x) ∈ s.mapBlocksUnlinked)

/-- Every usable block not worse than `base` is a candidate. -/
def Offered (E : ChainEnv) (s : ChainState) (base : UInt256) : Prop :=
  ∀ x ∈ s.mapBlockIndex, (s.index x).failed = false → (s.index x).nChainTx ≠ 0 → workKey E s base ≤ workKey E s x →
    x ∈ s.setBlockIndexCandidates

structure Based (E : ChainEnv) (s : ChainState) : Prop extends Orderly E [] s where
  offered : Offered E s s.tip

lemma Orderly.extend {queue queue' : List UInt256} (hs : Orderly E queue s) (ht : Consistent E t) (h : Extends s t)
    (hchain : ∀ x ∈ t.chainActive, (t.index x).failed = false)
    (hlist : ∀ x ∈ t.m_failed_blocks, x ∈ s.m_failed_blocks ∨ x ∈ t.mapBlockIndex ∧ (t.index x).failed = true)
    (hfailed : ∀ x ∈ s.mapBlockIndex, (s.index x).failed = true → (t.index x).failed = true)
    (hwaiting : ∀ x ∈ t.mapBlockIndex, x ∉ queue' → (t.index x).nStatus.haveData = true → (t.index x).nChainTx = 0 →
      x ∈ s.mapBlockIndex ∧ x ∉ queue ∧ (s.index x).nStatus.haveData = true ∧ (s.index x).nChainTx = 0)
    (hunlinked : ∀ a x, (a, x) ∈ s.mapBlocksUnlinked → (a, x) ∈ t.mapBlocksUnlinked ∨ x ∈ queue') :
    Orderly E queue' t := by
  refine ⟨ht, hchain, ?_, ?_⟩
  · intro x hx
    rcases hlist x hx with hx | hx
    · obtain ⟨hknown, hx⟩ := hs.failed_blocks x hx
      exact ⟨h.known x hknown, hfailed x hknown hx⟩
    · exact hx
  · intro x hx hdata hzero
    by_cases hqueue : x ∈ queue'
    · exact .inl hqueue
    obtain ⟨hx, hout, hdata, hzero⟩ := hwaiting x hx hqueue hdata hzero
    rcases hs.waiting x hx hdata hzero with hqueue | ⟨p, hp, hparent⟩
    · exact absurd hqueue hout
    · refine .inr ⟨p, (h.prev hx).trans hp, ?_⟩
      exact hparent.imp (hfailed p (hs.consistent.child hx hp).known)
        (fun hmem => (hunlinked p x hmem).resolve_right hqueue)

lemma Orderly.transfer (hs : Orderly E [] s) (ht : Consistent E t) (h : Flags s t)
    (hchain : ∀ x ∈ t.chainActive, (t.index x).failed = false)
    (hlist : ∀ x ∈ t.m_failed_blocks, x ∈ s.m_failed_blocks ∨ x ∈ t.mapBlockIndex ∧ (t.index x).failed = true)
    (hunlinked : t.mapBlocksUnlinked = s.mapBlocksUnlinked) : Orderly E [] t := by
  refine hs.extend ht h.extends hchain hlist (fun x _ => h.failed x) ?_ ?_
  · intro x hx hqueue hdata hzero
    rw [h.known] at hx
    rw [(h.index x).haveData] at hdata
    rw [(h.index x).nChainTx] at hzero
    exact ⟨hx, hqueue, hdata, hzero⟩
  · rw [hunlinked]
    exact fun a x => .inl

lemma Offered.transfer {base base' : UInt256} (hs : Offered E s base) (h : Flags s t)
    (hbase : workKey E s base ≤ workKey E s base')
    (hkeep : ∀ x ∈ s.setBlockIndexCandidates, (t.index x).failed = false → workKey E s base' ≤ workKey E s x →
      x ∈ t.setBlockIndexCandidates) : Offered E t base' := by
  intro x hx hvalid hlinked hkey
  rw [h.known] at hx
  rw [(h.index x).nChainTx] at hlinked
  rw [h.workKey, h.workKey] at hkey
  exact hkeep x (hs x hx (h.valid hvalid) hlinked (hbase.trans hkey)) hvalid hkey

lemma Based.flag (hs : Based E s) (hf : ∀ i, SameIndex i (f i))
    (hfailed : ∀ i, (f i).failed = true) (hoff : ∀ x ∈ xs, x ∉ s.chainActive) :
    Based E (s.setIndices xs f) := by
  have hflags := Flags.setIndices s xs hf (fun i _ => hfailed i)
  have hconsistent := hs.consistent.reflag hflags.toSameTree rfl (fun _ h => h) (fun _ h => h)
  refine ⟨hs.transfer hconsistent hflags ?_ (fun _ => .inl) rfl, hs.offered.transfer hflags le_rfl (fun _ h _ _ => h)⟩
  intro x hx
  rw [index_setIndices_of_notMem f (fun hmem => hoff x hmem hx)]
  exact hs.chain_valid x hx

lemma Based.addToBlockIndex (hs : Based E s) {block : CBlockHeader} {moment : HeaderMoment}
    (hnew : NewHeader E s block moment) : Based E (addToBlockIndex s block) := by
  have hold : ∀ {x}, x ∈ s.mapBlockIndex → (Qstees.addToBlockIndex s block).index x = s.index x :=
    addToBlockIndex_index hnew
  have hgrows := grows_addToBlockIndex hnew
  have hkey : ∀ {x}, x ∈ s.mapBlockIndex → workKey E (Qstees.addToBlockIndex s block) x = workKey E s x := by
    intro x hx
    rw [workKey, workKey, hold hx]
  refine ⟨hs.extend (hs.consistent.addToBlockIndex hnew) hgrows.toExtends ?_ ?_ ?_ ?_ ?_, ?_⟩
  · intro x hx
    rw [hgrows.chainActive] at hx
    rw [hold (hs.consistent.chain.known x hx)]
    exact hs.chain_valid x hx
  · rw [addToBlockIndex_eq hnew]
    exact fun x => .inl
  · intro x hx hfailed
    rw [hold hx]
    exact hfailed
  · intro x hx hqueue hdata hzero
    rcases (mem_addToBlockIndex hnew).mp hx with rfl | hx
    · rw [addToBlockIndex_new hnew] at hdata
      cases hdata
    · rw [hold hx] at hdata hzero
      exact ⟨hx, hqueue, hdata, hzero⟩
  · rw [addToBlockIndex_eq hnew]
    exact fun a x => .inl
  · intro x hx hvalid hlinked hbetter
    rcases (mem_addToBlockIndex hnew).mp hx with rfl | hx
    · rw [addToBlockIndex_new hnew] at hlinked
      exact absurd rfl hlinked
    · rw [hold hx] at hvalid hlinked
      rw [hgrows.tip, hkey hx, hkey (hs.consistent.chain.known _ hs.consistent.tip_mem)] at hbetter
      rw [addToBlockIndex_eq hnew]
      exact hs.offered x hx hvalid hlinked hbetter

lemma failedAncestor_spec (hs : Based E s) (h : failedAncestor s x = some y) :
    y ∈ s.ancestors x ∧ y ∉ s.chainActive := by
  have hmem : y ∈ s.m_failed_blocks := mem_of_find?_eq_some h
  have hancestor : s.getAncestor x (s.index y).nHeight = some y := by
    simpa using find?_some h
  refine ⟨mem_of_find?_eq_some hancestor, ?_⟩
  intro hchain
  have hvalid := hs.chain_valid y hchain
  rw [(hs.failed_blocks y hmem).2] at hvalid
  cases hvalid

lemma Based.acceptBlockHeader (hs : Based E s) (block : CBlockHeader) (moment : HeaderMoment) :
    Based E (acceptBlockHeader E s block moment).2 := by
  rcases acceptBlockHeader_cases hs.consistent block moment with ⟨heq, _⟩ | ⟨hnew, heq⟩
    | ⟨failedit, hprev, hfailed, heq⟩
  · rw [heq]
    exact hs
  · rw [heq]
    exact hs.addToBlockIndex hnew
  · rw [heq]
    obtain ⟨hancestor, hoff⟩ := failedAncestor_spec hs hfailed
    apply hs.flag SameIndex.setFailedChild failed_setFailedChild
    intro x hx hchain
    -- an active block over the failed one would make that active too
    have hdescends : Descends (prev s) x failedit := descends_of_isChain (isChain_walk _ _) hancestor hx
    exact hoff (hs.consistent.chain_descends hchain hdescends)

structure Linking (E : ChainEnv) (queue : List UInt256) (s : ChainState) : Prop extends Orderly E queue s where
  offered : Offered E s s.tip
  queued : ∀ x ∈ queue, Queued s x

lemma Linking.linkBlock {queue : List UInt256} (h : Linking E (x :: queue) s) :
    Linking E (queue ++ unlinkedChildren s x) (linkBlock E s x) := by
  have hx := h.queued x mem_cons_self
  have hfailed : ∀ y, ((Qstees.linkBlock E s x).index y).failed = (s.index y).failed := by
    intro y
    rw [failed, failed, linkBlock_status]
  refine ⟨h.extend (h.consistent.linkBlock hx)
    (grows_linkBlock h.consistent hx).toExtends ?_ (fun _ => .inl) ?_ ?_ ?_, ?_,
    queued_linkBlock h.consistent h.queued⟩
  · intro y hy
    rw [hfailed]
    exact h.chain_valid y hy
  · intro y _ hy
    rw [hfailed]
    exact hy
  · intro y hy hqueue hdata hzero
    rw [linkBlock_status] at hdata
    have hne : y ≠ x := by
      rintro rfl
      exact linkBlock_linked_self h.consistent hx hzero
    rw [linkBlock_index hne] at hzero
    refine ⟨hy, ?_, hdata, hzero⟩
    rw [mem_cons, not_or]
    exact ⟨hne, fun hmem => hqueue (mem_append_left _ hmem)⟩
  · intro a y hunlinked
    by_cases hax : a = x
    · refine .inr (mem_append_right _ (mem_map.mpr ⟨(a, y), ?_, rfl⟩))
      exact mem_filter.mpr ⟨hunlinked, by simpa using hax⟩
    · exact .inl (mem_filter.mpr ⟨hunlinked, by simpa using hax⟩)
  · intro y hy hvalid hlinked hkey
    have htip : s.tip ≠ x := by
      intro htip
      apply hx.off
      rw [← htip]
      exact h.consistent.tip_mem
    by_cases hyx : y = x
    · rw [hyx] at hkey ⊢
      exact mem_linkBlock.mpr (.inr ⟨rfl, hkey⟩)
    have hsame : ∀ z, z ≠ x → workKey E (Qstees.linkBlock E s x) z = workKey E s z := by
      intro z hz
      rw [workKey, workKey, linkBlock_index hz]
    have hkey' : workKey E s s.tip ≤ workKey E s y := by
      rw [← hsame y hyx, ← hsame s.tip htip]
      exact hkey
    rw [hfailed] at hvalid
    rw [linkBlock_index hyx] at hlinked
    exact mem_linkBlock.mpr (.inl (h.offered y hy hvalid hlinked hkey'))

section Store

variable {x : UInt256} {nTx : Nat} (hvalid : (s.index x).failed = false)
include hvalid

lemma storeBlock_failed (y : UInt256) : ((storeBlock s x nTx).index y).failed = (s.index y).failed := by
  by_cases h : y = x
  · rw [h, storeBlock_index_self s nTx hvalid]
    rfl
  · rw [storeBlock_index nTx h]

section

variable (hs : Based E s) (hx : x ∈ s.mapBlockIndex) (hdata : (s.index x).nStatus.haveData = false) (hpos : nTx ≠ 0)
include hs hx hdata hpos

lemma Based.storeBlock :
    Orderly E [x] (storeBlock s x nTx) ∧ Offered E (storeBlock s x nTx) (storeBlock s x nTx).tip := by
  have hzero := (hs.consistent.not_linked hx hdata).1
  have hgrows : Grows s (Qstees.storeBlock s x nTx) := grows_storeBlock hvalid hzero
  refine ⟨hs.extend (hs.consistent.storeBlock hvalid hx hdata hpos) hgrows.toExtends ?_ (fun _ => .inl) ?_ ?_
    (fun _ _ => .inl), ?_⟩
  · intro y hy
    rw [storeBlock_failed hvalid]
    exact hs.chain_valid y hy
  · intro y _ hy
    rw [storeBlock_failed hvalid]
    exact hy
  · intro y hy hne hydata hyzero
    rw [storeBlock_index nTx (by simpa using hne)] at hydata hyzero
    exact ⟨hy, not_mem_nil, hydata, hyzero⟩
  · intro y hy hyvalid hlinked hkey
    have hsame : ∀ z, workKey E (Qstees.storeBlock s x nTx) z = workKey E s z := by
      intro z
      by_cases hzx : z = x
      · rw [hzx, workKey, workKey, storeBlock_index_self s nTx hvalid]
      · rw [workKey, workKey, storeBlock_index nTx hzx]
    rw [storeBlock_failed hvalid] at hyvalid
    rw [storeBlock_nChainTx hvalid hzero] at hlinked
    rw [hsame, hsame] at hkey
    exact hs.offered y hy hyvalid hlinked hkey

lemma Based.receivedBlockTransactions
    : Based E (receivedBlockTransactions E s x nTx) := by
  obtain ⟨horderly, hoffered⟩ := hs.storeBlock hvalid hx hdata hpos
  have hafter := (grows_receivedBlockTransactions hvalid hs.consistent hx hdata hpos).1
  rcases receivedBlockTransactions_cases nTx hvalid hs.consistent hx hdata with
    ⟨hqueue, heq⟩ | ⟨p, hp, _, heq | ⟨htree, heq⟩⟩
  · rw [heq]
    have h := linkQueue_induct (E := E) (P := Linking E)
      (fun _ _ _ h => h.linkBlock) _ ⟨horderly, hoffered, hqueue⟩ le_rfl
    exact ⟨h.toOrderly, h.offered⟩
  · rw [heq] at hafter ⊢
    refine ⟨⟨hafter, horderly.chain_valid, horderly.failed_blocks, ?_⟩, hoffered⟩
    intro y hy hydata hyzero
    rcases horderly.waiting y hy hydata hyzero with hqueue | ⟨q, hq, hparent⟩
    · rw [mem_singleton.mp hqueue]
      exact .inr ⟨p, (storeBlock_pprev hvalid x).trans hp, .inr mem_cons_self⟩
    · exact .inr ⟨q, hq, hparent.imp id (mem_cons_of_mem _)⟩
  · rw [heq] at hafter ⊢
    refine ⟨⟨hafter, horderly.chain_valid, horderly.failed_blocks, ?_⟩, hoffered⟩
    intro y hy hydata hyzero
    rcases horderly.waiting y hy hydata hyzero with hqueue | hparent
    · -- every known block has at least a valid tree, so the parent failed
      rw [mem_singleton.mp hqueue]
      have hp' : prev (Qstees.storeBlock s x nTx) x = some p := (storeBlock_pprev hvalid x).trans hp
      refine .inr ⟨p, hp', .inl ?_⟩
      have hlevel := (hafter.checked p (hafter.child hx hp').known).tree
      simpa [CBlockIndex.isValid, hlevel] using htree
    · exact .inr hparent

end

end Store

lemma Based.acceptBlock (hs : Based E s) (block : BlockData) (moment : HeaderMoment) (fRequested : Bool) :
    Based E (acceptBlock E s block moment fRequested) := by
  have hafter := hs.acceptBlockHeader block.toCBlockHeader moment
  rcases acceptBlock_cases hs.consistent block moment fRequested with heq | ⟨hknown, hvalid, hdata, ⟨hpos, heq⟩ | heq⟩
  · rw [heq]
    exact hafter
  · rw [heq]
    exact hafter.receivedBlockTransactions hvalid hknown hdata hpos
  · rw [heq, setIndex_eq]
    apply hafter.flag SameIndex.setFailedValid failed_setFailedValid
    intro x hx
    rw [mem_singleton.mp hx]
    exact (hafter.consistent.not_linked hknown hdata).2

/-- The start of an activation: a state as between commands, with some blocks disconnected. -/
def Rewound (E : ChainEnv) (chain : List UInt256) (s : ChainState) : Prop :=
  ∃ t n, Based E t ∧ (∀ x ∈ t.chainActive, x ∈ chain) ∧ s = disconnectBlocks t n

lemma Based.rewound (hs : Based E s) (hchain : ∀ x ∈ s.chainActive, x ∈ chain) : Rewound E chain s :=
  ⟨s, 0, hs, hchain, by simp [disconnectBlocks]⟩

lemma Consistent.chain_nodup (hs : Consistent E s) : s.chainActive.Nodup :=
  hs.chain_sorted.imp (fun h heq => by simp [heq] at h)

/-- The blocks that `InvalidateBlock` flags: the block itself and the active ones over it. -/
def invalidated (s : ChainState) (x : UInt256) : List UInt256 :=
  x :: if x ∈ s.chainActive then s.chainActive.takeWhile (· ≠ x) else []

def invalidatedDepth (s : ChainState) (x : UInt256) : Nat :=
  if x ∈ s.chainActive then (s.chainActive.takeWhile (· ≠ x)).length + 1 else 0

lemma Consistent.notMem_invalidated (hs : Consistent E s)
    (hdepth : ¬(x ∈ s.chainActive ∧ invalidatedDepth s x ≥ s.chainActive.length))
    (hy : y ∈ (Qstees.disconnectBlocks s (invalidatedDepth s x)).chainActive) :
    y ∉ invalidated s x := by
  by_cases hx : x ∈ s.chainActive
  · have hlength : invalidatedDepth s x < s.chainActive.length := by
      by_contra hge
      exact hdepth ⟨hx, Nat.le_of_not_lt hge⟩
    obtain ⟨x', rest, hcut, hx', _⟩ := exists_split (l := s.chainActive) (p := fun z => decide (z = x)) ⟨x, hx, by simp⟩
    have hcut' : s.chainActive = s.chainActive.takeWhile (· ≠ x) ++ x :: rest := by
      simpa [of_decide_eq_true hx'] using hcut
    have hdrop : (Qstees.disconnectBlocks s (invalidatedDepth s x)).chainActive = rest := by
      have hmin : min (invalidatedDepth s x) (s.chainActive.length - 1) = invalidatedDepth s x := by omega
      have hcount : invalidatedDepth s x = (s.chainActive.takeWhile (· ≠ x)).length + 1 := by
        rw [invalidatedDepth, if_pos hx]
      simp only [Qstees.disconnectBlocks]
      rw [hmin, hcount]
      generalize s.chainActive.takeWhile (· ≠ x) = walked at hcut'
      rw [hcut', ← drop_drop]
      simp
    rw [hdrop] at hy
    have hnodup := hs.chain_nodup
    rw [hcut', nodup_append, nodup_cons] at hnodup
    rw [invalidated, if_pos hx, mem_cons]
    rintro (rfl | hmem)
    · exact hnodup.2.1.1 hy
    · exact hnodup.2.2 y hmem y (mem_cons_of_mem _ hy) rfl
  · rw [invalidated, if_neg hx, mem_singleton]
    rintro rfl
    exact hx (mem_of_mem_disconnectBlocks hy)

def afterInvalidation (s : ChainState) (x : UInt256) : ChainState :=
  let walked := if x ∈ s.chainActive then s.chainActive.takeWhile (· ≠ x) else []
  let marked := (((disconnectBlocks s (invalidatedDepth s x)).setIndices walked setFailedChild).setIndex x
    setFailedValid).eraseCandidates (x :: walked)
  { marked with m_failed_blocks := x :: s.m_failed_blocks }

lemma invalidateBlock_eq (x : UInt256) : invalidateBlock E s x =
    if x ∈ s.chainActive ∧ invalidatedDepth s x ≥ s.chainActive.length then disconnectBlocks s (invalidatedDepth s x)
    else (afterInvalidation s x).insertCandidates (validCandidates E (afterInvalidation s x)) := by
  by_cases hx : x ∈ s.chainActive
  · simp only [invalidateBlock, afterInvalidation, invalidatedDepth, hx, if_true]
  · simp only [invalidateBlock, afterInvalidation, invalidatedDepth, hx, if_false]

lemma flags_afterInvalidation (s : ChainState) (x : UInt256) : Flags s (afterInvalidation s x) := by
  have hwalked := Flags.setIndices (disconnectBlocks s (invalidatedDepth s x))
    (if x ∈ s.chainActive then s.chainActive.takeWhile (· ≠ x) else []) SameIndex.setFailedChild (by simp)
  have h := hwalked.trans (Flags.setIndices _ [x] SameIndex.setFailedValid (by simp))
  rw [← setIndex_eq] at h
  exact ⟨⟨h.known, h.index⟩, h.failed⟩

lemma failed_afterInvalidation : ((afterInvalidation s x).index y).failed = true ↔
    y ∈ invalidated s x ∨ (s.index y).failed = true := by
  have hindex : (afterInvalidation s x).index y = (((disconnectBlocks s (invalidatedDepth s x)).setIndices
      (if x ∈ s.chainActive then s.chainActive.takeWhile (· ≠ x) else []) setFailedChild).setIndex x
      setFailedValid).index y := rfl
  rw [hindex, setIndex_eq, invalidated, mem_cons]
  by_cases hyx : y = x
  · rw [failed_setIndices_of_mem failed_setFailedValid (mem_singleton.mpr hyx)]
    simp [hyx]
  rw [index_setIndices_of_notMem _ (by simpa using hyx)]
  by_cases hmem : y ∈ if x ∈ s.chainActive then s.chainActive.takeWhile (· ≠ x) else []
  · rw [failed_setIndices_of_mem failed_setFailedChild hmem]
    simp only [true_iff]
    exact .inl (.inr hmem)
  · rw [index_setIndices_of_notMem _ hmem]
    simp only [hyx, hmem, or_false, false_or]
    rfl

lemma mem_validCandidates : x ∈ validCandidates E s ↔ x ∈ s.mapBlockIndex ∧
    (s.index x).isValid BLOCK_VALID_TRANSACTIONS = true ∧ (s.index x).nChainTx ≠ 0 ∧
      workKey E s s.tip ≤ workKey E s x := by
  simp only [validCandidates, mem_filter, Bool.and_eq_true, bne_iff_ne, Bool.not_eq_true', workComparator_eq_false_iff,
    and_assoc]

lemma Consistent.isValid (hs : Consistent E s) (hx : x ∈ s.mapBlockIndex) (hvalid : (s.index x).failed = false)
    (hlinked : (s.index x).nChainTx ≠ 0) : (s.index x).isValid BLOCK_VALID_TRANSACTIONS = true := by
  have hlevel := ((hs.checked x hx).data (hs.linked x hx hlinked).1).2
  simp [CBlockIndex.isValid, hvalid, hlevel]

lemma Based.invalidateBlock (hs : Based E s) (hx : x ∈ s.mapBlockIndex)
    (hchain : ∀ x ∈ s.chainActive, x ∈ chain) : Rewound E chain (invalidateBlock E s x) := by
  rw [invalidateBlock_eq]
  by_cases hgenesis : x ∈ s.chainActive ∧ invalidatedDepth s x ≥ s.chainActive.length
  · rw [if_pos hgenesis]
    exact ⟨s, _, hs, hchain, rfl⟩
  rw [if_neg hgenesis]
  have hflags := flags_afterInvalidation s x
  have hdisconnected := hs.consistent.disconnectBlocks (invalidatedDepth s x)
  have hmarked : Consistent E (afterInvalidation s x) := by
    apply hdisconnected.reflag ⟨hflags.known, hflags.index⟩ rfl
    · intro y hy
      exact mem_of_mem_filter hy
    · exact fun _ h => h
  have hnew : ∀ y ∈ validCandidates E (afterInvalidation s x) ++ (afterInvalidation s x).setBlockIndexCandidates,
      (y ∈ (afterInvalidation s x).mapBlockIndex ∧ ((afterInvalidation s x).index y).nChainTx ≠ 0) ∧
        (y ∈ (afterInvalidation s x).chainActive → y = (afterInvalidation s x).tip) := by
    intro y hy
    rcases mem_append.mp hy with hy | hy
    · obtain ⟨hknown, _, hlinked, hkey⟩ := mem_validCandidates.mp hy
      refine ⟨⟨hknown, hlinked⟩, ?_⟩
      intro hmem
      by_contra hne
      exact absurd (work_le_of_workKey_le hkey) (Nat.not_le_of_lt (hmarked.work_lt_tip hmem hne))
    · exact ⟨hmarked.candidates_linked y hy, hmarked.candidates_tip y hy⟩
  have hbased : Based E ((afterInvalidation s x).insertCandidates (validCandidates E (afterInvalidation s x))) := by
    have hconsistent := hmarked.transfer
      (t := (afterInvalidation s x).insertCandidates (validCandidates E (afterInvalidation s x)))
      ⟨rfl, fun _ => SameIndex.refl _⟩ hmarked.chain (fun y hy => (hnew y hy).1)
        (fun y hy => (hnew y hy).2) (fun _ h => h)
    refine ⟨hs.transfer hconsistent (hflags.congr rfl rfl) ?_ ?_ rfl, ?_⟩
    · intro y hy
      have hvalid := hs.chain_valid y (mem_of_mem_disconnectBlocks hy)
      apply Bool.eq_false_iff.mpr
      intro hfailed
      rcases failed_afterInvalidation.mp hfailed with hmem | hfailed
      · exact hs.consistent.notMem_invalidated hgenesis hy hmem
      · rw [hvalid] at hfailed
        cases hfailed
    · intro y hy
      rcases mem_cons.mp hy with rfl | hy
      · exact .inr ⟨hx, failed_afterInvalidation.mpr (.inl mem_cons_self)⟩
      · exact .inl hy
    · intro y hy hvalid hlinked hkey
      exact mem_append_left _ (mem_validCandidates.mpr ⟨hy, hmarked.isValid hy hvalid hlinked, hlinked, hkey⟩)
  exact hbased.rewound (fun y hy => hchain y (mem_of_mem_disconnectBlocks hy))

def Clears (s : ChainState) (pindex x : UInt256) : Prop :=
  s.getAncestor x (s.index pindex).nHeight = some pindex ∨ x ∈ s.ancestors pindex

instance (s : ChainState) (pindex x : UInt256) : Decidable (Clears s pindex x) := inferInstanceAs (Decidable (_ ∨ _))

/-- What has to hold where flags are reset: the failed ancestors, which do not become candidates again,
are worse than the tip, and what has come on top of a cleared block is linked or waits for it. -/
structure Resettable (E : ChainEnv) (s : ChainState) (pindex : UInt256) : Prop where
  ancestors_worse : ∀ a ∈ s.ancestors pindex, a ≠ pindex → (s.index a).failed = true → workComparator E s a s.tip = true
  children_wait : ∀ a ∈ s.mapBlockIndex, (s.index a).failed = true → Clears s pindex a → ∀ x ∈ s.mapBlockIndex,
    prev s x = some a → (s.index x).nStatus.haveData = true → (s.index x).nChainTx = 0 → (a, x) ∈ s.mapBlocksUnlinked

def failedAncestors (s : ChainState) (pindex : UInt256) : List UInt256 :=
  (s.ancestors pindex).filter (fun x => ((clearIndices s (invalidDescendants s pindex)).index x).failed)

lemma index_clearIndices_of_mem (hx : x ∈ xs) :
    (clearIndices s xs).index x = (s.index x).clearFailed := by
  simp only [clearIndices, ChainState.setIndices, hx, if_true]

lemma index_clearIndices_of_notMem (hx : x ∉ xs) :
    (clearIndices s xs).index x = s.index x := by
  simp only [clearIndices, ChainState.setIndices, hx, if_false]

lemma sameTree_clearIndices (s : ChainState) (xs : List UInt256) : SameTree s (clearIndices s xs) := by
  have h := SameTree.setIndices s xs SameIndex.clearFailed
  exact ⟨h.known, h.index⟩

lemma resetBlockFailureFlags_index (x : UInt256) : (resetBlockFailureFlags E s pindex).index x =
    (clearIndices (clearIndices s (invalidDescendants s pindex)) (failedAncestors s pindex)).index x := rfl

lemma sameTree_resetBlockFailureFlags (E : ChainEnv) (s : ChainState) (pindex : UInt256) :
    SameTree s (resetBlockFailureFlags E s pindex) := by
  have h :=
    (sameTree_clearIndices s (invalidDescendants s pindex)).trans (sameTree_clearIndices _ (failedAncestors s pindex))
  exact ⟨h.known, h.index⟩

lemma reset_index_of_notMem (hx : x ∉ invalidDescendants s pindex)
    (hx' : x ∉ failedAncestors s pindex) :
    (resetBlockFailureFlags E s pindex).index x = s.index x := by
  rw [resetBlockFailureFlags_index, index_clearIndices_of_notMem hx', index_clearIndices_of_notMem hx]

lemma reset_failed (h : ((resetBlockFailureFlags E s pindex).index x).failed = true) :
    x ∉ invalidDescendants s pindex ∧ x ∉ failedAncestors s pindex := by
  rw [resetBlockFailureFlags_index] at h
  by_cases hup : x ∈ failedAncestors s pindex
  · rw [index_clearIndices_of_mem hup] at h
    cases h
  rw [index_clearIndices_of_notMem hup] at h
  by_cases hdown : x ∈ invalidDescendants s pindex
  · rw [index_clearIndices_of_mem hdown] at h
    cases h
  exact ⟨hdown, hup⟩

lemma mem_invalidDescendants : x ∈ invalidDescendants s pindex ↔ x ∈ s.mapBlockIndex ∧
    (s.index x).isValid BLOCK_VALID_TRANSACTIONS = false ∧ s.getAncestor x (s.index pindex).nHeight = some pindex := by
  simp [invalidDescendants]

lemma clears_of_mem
    (h : x ∈ invalidDescendants s pindex ∨ x ∈ failedAncestors s pindex) : Clears s pindex x := by
  rcases h with h | h
  · exact .inl (mem_invalidDescendants.mp h).2.2
  · exact .inr (mem_of_mem_filter h)

lemma mem_reset : x ∈ (resetBlockFailureFlags E s pindex).setBlockIndexCandidates ↔
    (x ∈ invalidDescendants s pindex ∧
      ((clearIndices s (invalidDescendants s pindex)).index x).isValid BLOCK_VALID_TRANSACTIONS = true ∧
      ((clearIndices s (invalidDescendants s pindex)).index x).nChainTx ≠ 0 ∧ workKey E s s.tip < workKey E s x) ∨
    x ∈ s.setBlockIndexCandidates := by
  have hcand : (resetBlockFailureFlags E s pindex).setBlockIndexCandidates =
      (invalidDescendants s pindex).filter (fun x =>
        ((clearIndices s (invalidDescendants s pindex)).index x).isValid BLOCK_VALID_TRANSACTIONS &&
        ((clearIndices s (invalidDescendants s pindex)).index x).nChainTx != 0 && workComparator E s s.tip x) ++
      s.setBlockIndexCandidates := rfl
  rw [hcand, mem_append, mem_filter]
  simp only [Bool.and_eq_true, bne_iff_ne, workComparator_iff, and_assoc]

lemma Based.resetBlockFailureFlags (hs : Based E s) (hp : pindex ∈ s.mapBlockIndex)
    (hreset : Resettable E s pindex) : Based E (resetBlockFailureFlags E s pindex) := by
  have hsame := sameTree_resetBlockFailureFlags E s pindex
  have htip : (Qstees.resetBlockFailureFlags E s pindex).tip = s.tip := rfl
  have htipKnown := hs.consistent.chain.known _ hs.consistent.tip_mem
  refine ⟨⟨?_, ?_, ?_, ?_⟩, ?_⟩
  · refine hs.consistent.transfer hsame hs.consistent.chain ?_ ?_ (fun _ h => h)
    · intro x hx
      rcases mem_reset.mp hx with ⟨hmem, _, hlinked, _⟩ | hx
      · rw [((sameTree_clearIndices s _).index x).nChainTx] at hlinked
        exact ⟨(mem_invalidDescendants.mp hmem).1, hlinked⟩
      · exact hs.consistent.candidates_linked x hx
    · intro x hx hchain
      rcases mem_reset.mp hx with ⟨_, _, _, hkey⟩ | hx
      · -- a block of the chain is not better than the tip
        by_contra hne
        exact absurd (work_le_of_workKey_le hkey.le) (Nat.not_le_of_lt (hs.consistent.work_lt_tip hchain hne))
      · exact hs.consistent.candidates_tip x hx hchain
  · intro x hx
    apply Bool.eq_false_iff.mpr
    intro hfailed
    obtain ⟨hdown, hup⟩ := reset_failed hfailed
    rw [reset_index_of_notMem hdown hup, hs.chain_valid x hx] at hfailed
    cases hfailed
  · intro x hx
    obtain ⟨hx, hup⟩ := mem_filter.mp hx
    obtain ⟨hx, hdown⟩ := mem_filter.mp hx
    rw [reset_index_of_notMem (of_decide_eq_true hdown) (of_decide_eq_true hup)]
    exact hs.failed_blocks x hx
  · intro x hx hdata hzero
    rw [hsame.known] at hx
    rw [(hsame.index x).haveData] at hdata
    rw [(hsame.index x).nChainTx] at hzero
    rcases hs.waiting x hx hdata hzero with hqueue | ⟨p, hxp, hparent⟩
    · cases hqueue
    refine .inr ⟨p, (hsame.pprev x).trans hxp, ?_⟩
    rcases hparent with hfailed | hunlinked
    · by_cases hcleared : p ∈ invalidDescendants s pindex ∨ p ∈ failedAncestors s pindex
      · have hpKnown := (hs.consistent.child hx hxp).known
        exact .inr (hreset.children_wait p hpKnown hfailed (clears_of_mem hcleared) x hx hxp hdata hzero)
      · push Not at hcleared
        rw [reset_index_of_notMem hcleared.1 hcleared.2]
        exact .inl hfailed
    · exact .inr hunlinked
  · intro x hx hvalid hlinked hkey
    rw [hsame.known] at hx
    rw [(hsame.index x).nChainTx] at hlinked
    rw [htip, hsame.workKey, hsame.workKey] at hkey
    by_cases hdown : x ∈ invalidDescendants s pindex
    · have hne : x ≠ s.tip := by
        rintro rfl
        have htipValid := hs.consistent.isValid htipKnown (hs.chain_valid _ hs.consistent.tip_mem) hlinked
        rw [(mem_invalidDescendants.mp hdown).2.1] at htipValid
        cases htipValid
      refine mem_reset.mpr (.inl ⟨hdown, ?_, ?_, ?_⟩)
      · have hlevel := ((hs.consistent.checked x hx).data (hs.consistent.linked x hx hlinked).1).2
        rw [index_clearIndices_of_mem hdown]
        simp only [CBlockIndex.isValid, failed_clearFailed, Bool.not_false, Bool.true_and, decide_eq_true_eq]
        exact hlevel
      · rw [((sameTree_clearIndices s _).index x).nChainTx]
        exact hlinked
      · exact lt_of_le_of_ne hkey (fun heq => hne (workKey_inj heq).symm)
    · refine mem_reset.mpr (.inr ?_)
      by_cases hup : x ∈ failedAncestors s pindex
      · -- a cleared ancestor that is as good as the tip is excluded
        obtain ⟨hancestor, hfailed⟩ := mem_filter.mp hup
        rw [index_clearIndices_of_notMem hdown] at hfailed
        have hne : x ≠ pindex := by
          rintro rfl
          apply hdown
          refine mem_invalidDescendants.mpr ⟨hx, ?_, ?_⟩
          · simp [CBlockIndex.isValid, hfailed]
          · obtain ⟨rest, hrest⟩ := ancestors_cons s x
            rw [ChainState.getAncestor, hrest, find?_cons_of_pos (by simp)]
        have hworse := (workComparator_iff x s.tip).mp (hreset.ancestors_worse x hancestor hne hfailed)
        exact absurd hworse (not_lt.mpr hkey)
      · rw [reset_index_of_notMem hdown hup] at hvalid
        exact hs.offered x hx hvalid hlinked hkey

def Resettables (E : ChainEnv) : ChainState → List UInt256 → Prop
  | _, [] => True
  | s, pindex :: rest => Resettable E s pindex ∧ Resettables E (resetBlockFailureFlags E s pindex) rest

lemma Based.resets (hs : Based E s) {pindices : List UInt256} (hknown : ∀ x ∈ pindices, x ∈ s.mapBlockIndex)
    (hreset : Resettables E s pindices) : Based E (pindices.foldl (Qstees.resetBlockFailureFlags E) s) ∧
      (pindices.foldl (Qstees.resetBlockFailureFlags E) s).chainActive = s.chainActive := by
  induction pindices generalizing s with
  | nil => exact ⟨hs, rfl⟩
  | cons pindex rest ih =>
    have hnext := hs.resetBlockFailureFlags (hknown pindex mem_cons_self) hreset.1
    have hknown' : ∀ x ∈ rest, x ∈ (Qstees.resetBlockFailureFlags E s pindex).mapBlockIndex :=
      fun x hx => hknown x (mem_cons_of_mem _ hx)
    exact ih hnext hknown' hreset.2

/-- What a command needs so that no candidate is lost. -/
def Permitted (E : ChainEnv) (s : ChainState) : ChainCommand → Prop
  | .resetBlockFailureFlags pindex => pindex ∈ s.mapBlockIndex → Resettable E s pindex
  | .reprocessBlocks rejected _ => Resettables E s (rejected.filter (· ∈ s.mapBlockIndex))
  | _ => True

lemma Based.apply (hs : Based E s) {command : ChainCommand} (hpermitted : Permitted E s command) :
    Rewound E s.chainActive (command.apply E s) := by
  cases command with
  | header block moment =>
    apply (hs.acceptBlockHeader block moment).rewound
    rw [(grows_acceptBlockHeader hs.consistent block moment).2.chainActive]
    exact fun x hx => hx
  | block block moment fRequested =>
    apply (hs.acceptBlock block moment fRequested).rewound
    rw [(grows_acceptBlock hs.consistent block moment fRequested).2.chainActive]
    exact fun x hx => hx
  | invalidateBlock pindex =>
    by_cases hp : pindex ∈ s.mapBlockIndex
    · rw [ChainCommand.apply, if_pos hp]
      exact hs.invalidateBlock hp (fun _ h => h)
    · rw [ChainCommand.apply, if_neg hp]
      exact hs.rewound (fun _ h => h)
  | resetBlockFailureFlags pindex =>
    by_cases hp : pindex ∈ s.mapBlockIndex
    · rw [ChainCommand.apply, if_pos hp]
      exact (hs.resetBlockFailureFlags hp (hpermitted hp)).rewound (fun _ h => h)
    · rw [ChainCommand.apply, if_neg hp]
      exact hs.rewound (fun _ h => h)
  | reprocessBlocks rejected nBlocks =>
    obtain ⟨hbased, hchain⟩ := hs.resets (fun x hx => of_decide_eq_true (mem_filter.mp hx).2) hpermitted
    refine ⟨_, _, hbased, ?_, rfl⟩
    rw [hchain]
    exact fun x hx => hx

end Qstees.Proofs
