import Qstees.Proofs.ChainOperations

/-!
# Accepting headers and blocks

A header adds a block to the tree. The data of a block links it, and the blocks that wait for it, once
all its ancestors have theirs.
-/

namespace Qstees.Proofs

open ParentTree List CBlockIndex

variable {E : ChainEnv} {s t : ChainState}

variable {block : CBlockHeader} {moment : HeaderMoment} {y : UInt256} {queue : List UInt256}

structure Grows (s t : ChainState) : Prop extends Extends s t where
  chainActive : t.chainActive = s.chainActive

namespace Grows

lemma refl (s : ChainState) : Grows s s := ⟨Extends.refl s, rfl⟩

lemma trans {u : ChainState} (h : Grows s t) (h' : Grows t u) : Grows s u :=
  ⟨h.toExtends.trans h'.toExtends, h'.chainActive.trans h.chainActive⟩

lemma tip (h : Grows s t) : t.tip = s.tip := by
  rw [ChainState.tip, ChainState.tip, h.chainActive]

lemma onPath (h : Grows s t) {path : List UInt256} {m : UInt256} (hp : OnPath s path m) : OnPath t path m := by
  refine ⟨?_, ?_, ?_, ?_, hp.nodup⟩
  · rw [h.tip]
    apply List.IsChain.imp_of_mem_tail_imp _ hp.links
    intro p x _ hx hpx
    exact (h.prev (hp.known x hx).1).trans hpx
  · rw [h.tip]
    exact hp.last
  · intro x hx
    obtain ⟨hknown, hlinked⟩ := hp.known x hx
    exact ⟨h.known x hknown, h.linked x hknown hlinked⟩
  · intro x hx
    rw [h.chainActive]
    exact hp.off x hx

end Grows

lemma Consistent.grow (hs : Consistent E s) (h : Grows s t)
    (hparent : ∀ x ∈ t.mapBlockIndex, x ∉ s.mapBlockIndex → ∃ p, Child s t x p)
    (hchecked : ∀ x ∈ t.mapBlockIndex, Checked (t.index x))
    (hlinked : ∀ x ∈ t.mapBlockIndex, (t.index x).nChainTx ≠ 0 →
      x ∈ s.mapBlockIndex ∧ (s.index x).nChainTx ≠ 0 ∨ Linkable t x)
    (hcand : ∀ x ∈ t.setBlockIndexCandidates, x ∈ s.setBlockIndexCandidates ∨
      x ∈ t.mapBlockIndex ∧ (t.index x).nChainTx ≠ 0 ∧ x ∉ s.chainActive)
    (hunlinked : ∀ a x, (a, x) ∈ t.mapBlocksUnlinked → (a, x) ∈ s.mapBlocksUnlinked ∧ (t.index a).nChainTx = 0) :
    Consistent E t := by
  refine hs.extend h.toExtends hparent hchecked hlinked ?_ ?_ ?_ hunlinked
  · rw [h.chainActive]
    exact hs.chain
  · intro x hx
    rcases hcand x hx with hx | ⟨hknown, hx, _⟩
    · obtain ⟨hknown, hx⟩ := hs.candidates_linked x hx
      exact ⟨h.known x hknown, h.linked x hknown hx⟩
    · exact ⟨hknown, hx⟩
  · intro x hx hmem
    rw [h.chainActive] at hmem
    rw [h.tip]
    rcases hcand x hx with hx | ⟨_, _, hoff⟩
    · exact hs.candidates_tip x hx hmem
    · exact absurd hmem hoff

structure NewHeader (E : ChainEnv) (s : ChainState) (block : CBlockHeader) (moment : HeaderMoment) : Prop where
  fresh : block.hash ∉ s.mapBlockIndex
  prev_known : block.hashPrevBlock ∈ s.mapBlockIndex
  proof_pos : 0 < block.proof
  prev_valid : (s.index block.hashPrevBlock).failed = false
  context : contextualCheckBlockHeader E s block.hashPrevBlock moment = true

def newIndex (s : ChainState) (block : CBlockHeader) : CBlockIndex where
  pprev := some block.hashPrevBlock
  nHeight := (s.index block.hashPrevBlock).nHeight + 1
  nChainWork := (s.index block.hashPrevBlock).nChainWork + block.proof
  nStatus := { validity := BLOCK_VALID_TREE }

section Header

variable (h : NewHeader E s block moment)
include h

lemma addToBlockIndex_eq : addToBlockIndex s block =
    { s with
      mapBlockIndex := block.hash :: s.mapBlockIndex
      index := fun y => if y = block.hash then newIndex s block else s.index y } := by
  rw [addToBlockIndex, if_neg h.fresh]
  simp [h.prev_known, newIndex, raiseValidity, failed]

lemma addToBlockIndex_new : (addToBlockIndex s block).index block.hash = newIndex s block := by
  rw [addToBlockIndex_eq h]
  exact if_pos rfl

variable {x : UInt256}

lemma addToBlockIndex_index (hx : x ∈ s.mapBlockIndex) :
    (addToBlockIndex s block).index x = s.index x := by
  rw [addToBlockIndex_eq h]
  exact if_neg (ne_of_mem_of_not_mem hx h.fresh)

lemma mem_addToBlockIndex :
    x ∈ (addToBlockIndex s block).mapBlockIndex ↔ x = block.hash ∨ x ∈ s.mapBlockIndex := by
  rw [addToBlockIndex_eq h]
  exact mem_cons

lemma grows_addToBlockIndex : Grows s (addToBlockIndex s block) := by
  refine ⟨⟨fun x hx => (mem_addToBlockIndex h).mpr (.inr hx), ?_, ?_, ?_⟩, by rw [addToBlockIndex_eq h]⟩
  all_goals
    intro x hx
    rw [addToBlockIndex_index h hx]
  · exact id
  · exact id

lemma Consistent.addToBlockIndex (hs : Consistent E s) : Consistent E (addToBlockIndex s block) := by
  have hold : ∀ {x}, x ∈ s.mapBlockIndex → (Qstees.addToBlockIndex s block).index x = s.index x :=
    addToBlockIndex_index h
  have hindex := addToBlockIndex_new h
  refine hs.grow (grows_addToBlockIndex h) ?_ ?_ ?_ ?_ ?_
  · intro x hx hnew
    obtain rfl : x = block.hash := ((mem_addToBlockIndex h).mp hx).resolve_right hnew
    have hwork := Nat.lt_add_of_pos_right (n := (s.index block.hashPrevBlock).nChainWork) h.proof_pos
    exact ⟨block.hashPrevBlock, h.prev_known,
      by rw [prev, hindex]; rfl, by rw [hindex]; rfl, by rw [hindex]; exact hwork⟩
  · intro x hx
    rcases (mem_addToBlockIndex h).mp hx with rfl | hx
    · rw [hindex]
      exact ⟨le_rfl, fun hdata => by cases hdata⟩
    · rw [hold hx]
      exact hs.checked x hx
  · intro x hx hlinked
    rcases (mem_addToBlockIndex h).mp hx with rfl | hx
    · rw [hindex] at hlinked
      exact absurd rfl hlinked
    · rw [hold hx] at hlinked
      exact .inl ⟨hx, hlinked⟩
  · intro x hx
    rw [addToBlockIndex_eq h] at hx
    exact .inl hx
  · intro a x hax
    have hax' : (a, x) ∈ s.mapBlocksUnlinked := by
      rw [addToBlockIndex_eq h] at hax
      exact hax
    obtain ⟨hx, hp, _, hzero⟩ := hs.unlinked a x hax'
    rw [hold (hs.child hx hp).known]
    exact ⟨hax', hzero⟩

end Header

lemma acceptBlockHeader_cases (hs : Consistent E s) (block : CBlockHeader) (moment : HeaderMoment) :
    ((acceptBlockHeader E s block moment).2 = s ∧ ((acceptBlockHeader E s block moment).1 = true →
      block.hash ∈ s.mapBlockIndex ∧ ((s.index block.hash).failed = false ∨ block.hash = E.hashGenesisBlock))) ∨
    (NewHeader E s block moment ∧ acceptBlockHeader E s block moment = (true, addToBlockIndex s block)) ∨
    ∃ failedit, block.hashPrevBlock ∈ s.mapBlockIndex ∧ failedAncestor s block.hashPrevBlock = some failedit ∧
      acceptBlockHeader E s block moment = (false,
        s.setIndices ((s.ancestors block.hashPrevBlock).takeWhile (· ≠ failedit)) setFailedChild) := by
  by_cases hgenesis : block.hash = E.hashGenesisBlock
  · have hknown : block.hash ∈ s.mapBlockIndex := by
      rw [hgenesis]
      exact hs.genesis_known
    rw [acceptBlockHeader, if_pos hgenesis, addToBlockIndex, if_pos hknown]
    exact .inl ⟨rfl, fun _ => ⟨hknown, .inr hgenesis⟩⟩
  by_cases hknown : block.hash ∈ s.mapBlockIndex
  · rw [acceptBlockHeader, if_neg hgenesis, if_pos hknown]
    refine .inl ⟨rfl, ?_⟩
    intro hok
    exact ⟨hknown, .inl (by simpa using hok)⟩
  rw [acceptBlockHeader, if_neg hgenesis, if_neg hknown]
  by_cases hcheck : checkBlockHeader block moment = true
  case neg =>
    rw [if_pos (by simpa using hcheck)]
    exact .inl ⟨rfl, fun h => by cases h⟩
  rw [if_neg (by simpa using hcheck)]
  by_cases hprev : block.hashPrevBlock ∈ s.mapBlockIndex
  case neg =>
    rw [if_pos hprev]
    exact .inl ⟨rfl, fun h => by cases h⟩
  rw [if_neg (not_not.mpr hprev)]
  by_cases hfailed : (s.index block.hashPrevBlock).failed = true
  · rw [if_pos hfailed]
    exact .inl ⟨rfl, fun h => by cases h⟩
  rw [if_neg hfailed]
  by_cases hcontext : contextualCheckBlockHeader E s block.hashPrevBlock moment = true
  case neg =>
    rw [if_pos (by simpa using hcontext)]
    exact .inl ⟨rfl, fun h => by cases h⟩
  rw [if_neg (by simpa using hcontext)]
  have hnew : NewHeader E s block moment := by
    refine ⟨hknown, hprev, ?_, Bool.eq_false_iff.mpr hfailed, hcontext⟩
    simp only [checkBlockHeader, Bool.and_eq_true, decide_eq_true_eq] at hcheck
    exact hcheck.2
  by_cases hscripts : (s.index block.hashPrevBlock).isValid BLOCK_VALID_SCRIPTS = true
  · rw [if_neg (by simpa using hscripts)]
    exact .inr (.inl ⟨hnew, rfl⟩)
  rw [if_pos (by simpa using hscripts)]
  cases hancestor : failedAncestor s block.hashPrevBlock with
  | none => exact .inr (.inl ⟨hnew, rfl⟩)
  | some failedit => exact .inr (.inr ⟨failedit, hprev, rfl, rfl⟩)

lemma grows_acceptBlockHeader (hs : Consistent E s) (block : CBlockHeader) (moment : HeaderMoment) :
    Consistent E (acceptBlockHeader E s block moment).2 ∧ Grows s (acceptBlockHeader E s block moment).2 := by
  rcases acceptBlockHeader_cases hs block moment with ⟨heq, _⟩ | ⟨hnew, heq⟩ | ⟨failedit, _, _, heq⟩
  · rw [heq]
    exact ⟨hs, Grows.refl s⟩
  · rw [heq]
    exact ⟨hs.addToBlockIndex hnew, grows_addToBlockIndex hnew⟩
  · rw [heq]
    have hsame :=
      SameTree.setIndices s ((s.ancestors block.hashPrevBlock).takeWhile (· ≠ failedit)) SameIndex.setFailedChild
    exact ⟨hs.reflag hsame rfl (fun _ h => h) (fun _ h => h), hsame.extends, rfl⟩

lemma linkBlock_index_self (x : UInt256) : (linkBlock E s x).index x =
    { s.index x with
      nChainTx := (prev s x).elim 0 (fun p => (s.index p).nChainTx) + (s.index x).nTx
      nSequenceId := s.nBlockSequenceId } :=
  if_pos rfl

lemma linkBlock_index (h : y ≠ x) : (linkBlock E s x).index y = s.index y := if_neg h

lemma linkBlock_header (x : UInt256) : ((linkBlock E s x).index y).toHeaderIndex = (s.index y).toHeaderIndex := by
  by_cases h : y = x
  · rw [h, linkBlock_index_self]
  · rw [linkBlock_index h]

lemma linkBlock_pprev (x : UInt256) : prev (linkBlock E s x) y = prev s y :=
  congrArg HeaderIndex.pprev (linkBlock_header x)

lemma linkBlock_status (x y : UInt256) : ((linkBlock E s x).index y).nStatus = (s.index y).nStatus := by
  by_cases h : y = x
  · rw [h, linkBlock_index_self]
  · rw [linkBlock_index h]

lemma linkBlock_nTx (x : UInt256) : ((linkBlock E s x).index y).nTx = (s.index y).nTx := by
  by_cases h : y = x
  · rw [h, linkBlock_index_self]
  · rw [linkBlock_index h]

lemma mem_linkBlock : y ∈ (linkBlock E s x).setBlockIndexCandidates ↔
    y ∈ s.setBlockIndexCandidates ∨ y = x ∧ workKey E (linkBlock E s x) s.tip ≤ workKey E (linkBlock E s x) x := by
  have hcand : (linkBlock E s x).setBlockIndexCandidates =
      if workComparator E (linkBlock E s x) x s.tip then s.setBlockIndexCandidates
        else x :: s.setBlockIndexCandidates := rfl
  rw [hcand, ← workComparator_eq_false_iff]
  cases workComparator E (linkBlock E s x) x s.tip with
  | true => simp
  | false => simp [or_comm]

/-- The blocks of the queue have their data and linked parents and are not in the active chain. -/
structure Queued (s : ChainState) (x : UInt256) : Prop where
  known : x ∈ s.mapBlockIndex
  stored : (s.index x).nStatus.haveData = true
  off : x ∉ s.chainActive
  parent : ∀ p, prev s x = some p → (s.index p).nChainTx ≠ 0

section

variable (hs : Consistent E s) (hx : Queued s x)
include hs hx

lemma linkBlock_linked_self :
    ((linkBlock E s x).index x).nChainTx ≠ 0 := by
  rw [linkBlock_index_self]
  have hpos := ((hs.checked x hx.known).data hx.stored).1
  simp only
  omega

lemma linkBlock_linked
    (hy : (s.index y).nChainTx ≠ 0) : ((linkBlock E s x).index y).nChainTx ≠ 0 := by
  by_cases h : y = x
  · rw [h]
    exact linkBlock_linked_self hs hx
  · rw [linkBlock_index h]
    exact hy

lemma grows_linkBlock : Grows s (linkBlock E s x) := by
  refine ⟨⟨fun _ h => h, fun y _ => linkBlock_header x, ?_, fun _ _ h => linkBlock_linked hs hx h⟩, rfl⟩
  intro y _ hdata
  rw [linkBlock_status]
  exact hdata

lemma Consistent.linkBlock : Consistent E (linkBlock E s x) := by
  refine hs.grow (grows_linkBlock hs hx) (fun y hy hnew => absurd hy hnew) ?_ ?_ ?_ ?_
  · intro y hy
    have hchecked := hs.checked y hy
    refine ⟨?_, ?_⟩
    · rw [linkBlock_status]
      exact hchecked.tree
    · rw [linkBlock_status, linkBlock_nTx]
      exact hchecked.data
  · intro y hy hlinked
    by_cases h : y = x
    · rw [h]
      refine .inr ⟨?_, ?_⟩
      · rw [linkBlock_status]
        exact hx.stored
      · intro p hp
        exact linkBlock_linked hs hx (hx.parent p ((linkBlock_pprev x).symm.trans hp))
    · rw [linkBlock_index h] at hlinked
      exact .inl ⟨hy, hlinked⟩
  · intro y hy
    rcases mem_linkBlock.mp hy with hy | ⟨rfl, _⟩
    · exact .inl hy
    · exact .inr ⟨hx.known, linkBlock_linked_self hs hx, hx.off⟩
  · intro a y hay
    obtain ⟨hmem, hne⟩ := mem_filter.mp hay
    rw [linkBlock_index (by simpa using hne)]
    exact ⟨hmem, (hs.unlinked a y hmem).2.2.2⟩

end

lemma queued_linkBlock (hs : Consistent E s) (hqueue : ∀ y ∈ x :: queue, Queued s y) :
    ∀ y ∈ queue ++ unlinkedChildren s x, Queued (linkBlock E s x) y := by
  have hx := hqueue x mem_cons_self
  intro y hy
  rcases mem_append.mp hy with hy | hy
  · have hold := hqueue y (mem_cons_of_mem _ hy)
    refine ⟨hold.known, ?_, hold.off, ?_⟩
    · rw [linkBlock_status]
      exact hold.stored
    · intro p hp
      exact linkBlock_linked hs hx (hold.parent p ((linkBlock_pprev x).symm.trans hp))
  · obtain ⟨⟨a, z⟩, he, rfl⟩ := mem_map.mp hy
    obtain ⟨hmem, hax⟩ := mem_filter.mp he
    obtain rfl : a = x := by simpa using hax
    obtain ⟨hz, hp, hdata, _⟩ := hs.unlinked a z hmem
    refine ⟨hz, ?_, ?_, ?_⟩
    · rw [linkBlock_status]
      exact hdata
    · exact fun hchain => hx.off (hs.chain_closed hchain hp)
    · intro p hzp
      have hpa : a = p := Option.some.inj (hp.symm.trans ((linkBlock_pprev a).symm.trans hzp))
      rw [← hpa]
      exact linkBlock_linked_self hs hx

lemma linkQueue_induct {P : List UInt256 → ChainState → Prop}
    (hstep : ∀ x queue s, P (x :: queue) s → P (queue ++ unlinkedChildren s x) (linkBlock E s x))
    (fuel : Nat) (hs : P queue s) (hfuel : queue.length + s.mapBlocksUnlinked.length ≤ fuel) :
    P [] (linkQueue E fuel queue s) := by
  induction fuel generalizing queue s with
  | zero =>
    have hnil : queue = [] := length_eq_zero_iff.mp (by omega)
    rw [linkQueue, ← hnil]
    exact hs
  | succ fuel ih =>
    cases queue with
    | nil => exact hs
    | cons x queue =>
      rw [linkQueue]
      apply ih (hstep x queue s hs)
      have hsplit : (unlinkedChildren s x).length + (linkBlock E s x).mapBlocksUnlinked.length =
        s.mapBlocksUnlinked.length := by
        have hlength := length_eq_length_filter_add (l := s.mapBlocksUnlinked) (fun e => e.1 == x)
        simp only [unlinkedChildren, length_map]
        rw [hlength]
        rfl
      simp only [length_append, length_cons] at hfuel ⊢
      omega

lemma grows_linkQueue (hs : Consistent E s) (hqueue : ∀ y ∈ queue, Queued s y) {fuel : Nat}
    (hfuel : queue.length + s.mapBlocksUnlinked.length ≤ fuel) :
    Consistent E (linkQueue E fuel queue s) ∧ Grows s (linkQueue E fuel queue s) := by
  have h := linkQueue_induct (E := E) (P := fun queue t => (Consistent E t ∧ Grows s t) ∧ ∀ y ∈ queue, Queued t y) (by
    intro x queue t ⟨⟨ht, hgrows⟩, hqueue⟩
    have hx := hqueue x mem_cons_self
    exact ⟨⟨ht.linkBlock hx, hgrows.trans (grows_linkBlock ht hx)⟩, queued_linkBlock ht hqueue⟩)
    fuel ⟨⟨hs, Grows.refl s⟩, hqueue⟩ hfuel
  exact h.1

lemma storeBlock_index_self (s : ChainState) (nTx : Nat) (hvalid : (s.index x).failed = false) :
    (storeBlock s x nTx).index x =
      { s.index x with
        nTx := nTx
        nChainTx := 0
        nStatus := { (s.index x).nStatus with
          haveData := true
          validity := max (s.index x).nStatus.validity BLOCK_VALID_TRANSACTIONS } } := by
  simp only [failed, Bool.or_eq_false_iff] at hvalid
  simp [storeBlock, ChainState.setIndex, raiseValidity, failed, hvalid.1, hvalid.2]

lemma storeBlock_index (nTx : Nat) (h : y ≠ x) :
    (storeBlock s x nTx).index y = s.index y := if_neg h

lemma Consistent.not_linked (hs : Consistent E s) (hx : x ∈ s.mapBlockIndex)
    (hdata : (s.index x).nStatus.haveData = false) : (s.index x).nChainTx = 0 ∧ x ∉ s.chainActive := by
  have hzero : (s.index x).nChainTx = 0 := by
    by_contra hlinked
    rw [(hs.linked x hx hlinked).1] at hdata
    cases hdata
  exact ⟨hzero, fun hmem => hs.chain.linked x hmem hzero⟩

section Store

variable {x : UInt256} {nTx : Nat} (hvalid : (s.index x).failed = false)
include hvalid

lemma storeBlock_header (y : UInt256) : ((storeBlock s x nTx).index y).toHeaderIndex = (s.index y).toHeaderIndex := by
  by_cases h : y = x
  · rw [h, storeBlock_index_self s nTx hvalid]
  · rw [storeBlock_index nTx h]

lemma storeBlock_pprev (y : UInt256) : prev (storeBlock s x nTx) y = prev s y :=
  congrArg HeaderIndex.pprev (storeBlock_header hvalid y)

lemma storeBlock_haveData {y : UInt256} (h : (s.index y).nStatus.haveData = true) :
    ((storeBlock s x nTx).index y).nStatus.haveData = true := by
  by_cases hyx : y = x
  · rw [hyx, storeBlock_index_self s nTx hvalid]
  · rw [storeBlock_index nTx hyx]
    exact h

lemma storeBlock_nChainTx (hzero : (s.index x).nChainTx = 0) (y : UInt256) :
    ((storeBlock s x nTx).index y).nChainTx = (s.index y).nChainTx := by
  by_cases h : y = x
  · rw [h, storeBlock_index_self s nTx hvalid, hzero]
  · rw [storeBlock_index nTx h]

lemma grows_storeBlock (hzero : (s.index x).nChainTx = 0) : Grows s (storeBlock s x nTx) := by
  refine ⟨⟨fun _ h => h, fun y _ => storeBlock_header hvalid y, fun y _ => storeBlock_haveData hvalid, ?_⟩, rfl⟩
  intro y _ hlinked
  rw [storeBlock_nChainTx hvalid hzero]
  exact hlinked

section

variable (hs : Consistent E s) (hx : x ∈ s.mapBlockIndex) (hdata : (s.index x).nStatus.haveData = false)
include hs hx hdata

lemma Consistent.storeBlock
    (hpos : nTx ≠ 0) : Consistent E (storeBlock s x nTx) := by
  have hzero := (hs.not_linked hx hdata).1
  have hchainTx : ∀ y, ((Qstees.storeBlock s x nTx).index y).nChainTx = (s.index y).nChainTx :=
    storeBlock_nChainTx hvalid hzero
  refine hs.grow (grows_storeBlock hvalid hzero) (fun y hy hnew => absurd hy hnew) ?_ ?_ (fun _ => .inl) ?_
  · intro y hy
    by_cases h : y = x
    · rw [h, storeBlock_index_self s nTx hvalid]
      exact ⟨(hs.checked x hx).tree.trans (le_max_left _ _), fun _ => ⟨hpos, le_max_right _ _⟩⟩
    · rw [storeBlock_index nTx h]
      exact hs.checked y hy
  · intro y hy hlinked
    rw [hchainTx] at hlinked
    exact .inl ⟨hy, hlinked⟩
  · intro a y hay
    rw [hchainTx]
    exact ⟨hay, (hs.unlinked a y hay).2.2.2⟩

lemma queued_storeBlock
    (hparent : ∀ p, prev (storeBlock s x nTx) x = some p → ((storeBlock s x nTx).index p).nChainTx ≠ 0) :
    ∀ y ∈ [x], Queued (storeBlock s x nTx) y := by
  intro y hy
  rw [mem_singleton.mp hy]
  refine ⟨hx, ?_, (hs.not_linked hx hdata).2, hparent⟩
  rw [storeBlock_index_self s nTx hvalid]

end

variable (nTx) in
/-- The data of a block either links it, or makes it wait, or is only stored when its parent failed. -/
theorem receivedBlockTransactions_cases (hs : Consistent E s) (hx : x ∈ s.mapBlockIndex)
    (hdata : (s.index x).nStatus.haveData = false) :
    ((∀ y ∈ [x], Queued (storeBlock s x nTx) y) ∧ receivedBlockTransactions E s x nTx =
      linkQueue E ([x].length + (storeBlock s x nTx).mapBlocksUnlinked.length) [x] (storeBlock s x nTx)) ∨
    ∃ p, prev s x = some p ∧ ((storeBlock s x nTx).index p).nChainTx = 0 ∧
      ((receivedBlockTransactions E s x nTx =
          { storeBlock s x nTx with mapBlocksUnlinked := (p, x) :: s.mapBlocksUnlinked }) ∨
        ((storeBlock s x nTx).index p).isValid BLOCK_VALID_TREE = false ∧
          receivedBlockTransactions E s x nTx = storeBlock s x nTx) := by
  have hfuel : s.mapBlocksUnlinked.length + 1 = [x].length + (storeBlock s x nTx).mapBlocksUnlinked.length := by
    rw [length_singleton, Nat.add_comm]
    rfl
  cases hp : prev (storeBlock s x nTx) x with
  | none =>
    refine .inl ⟨queued_storeBlock hvalid hs hx hdata (by simp [hp]), ?_⟩
    simp only [receivedBlockTransactions, prev] at hp ⊢
    rw [hp, hfuel]
  | some p =>
    by_cases hlinked : ((storeBlock s x nTx).index p).nChainTx = 0
    · refine .inr ⟨p, (storeBlock_pprev hvalid x).symm.trans hp, hlinked, ?_⟩
      by_cases htree : ((storeBlock s x nTx).index p).isValid BLOCK_VALID_TREE = true
      · refine .inl ?_
        simp only [receivedBlockTransactions, prev] at hp ⊢
        rw [hp]
        simp only [hlinked, htree, ne_eq, not_true, if_true, if_false]
      · refine .inr ⟨Bool.eq_false_iff.mpr htree, ?_⟩
        simp only [receivedBlockTransactions, prev] at hp ⊢
        rw [hp]
        simp only [hlinked, htree, ne_eq, not_true, if_false]
        rfl
    · have hparent : ∀ q, prev (storeBlock s x nTx) x = some q → ((storeBlock s x nTx).index q).nChainTx ≠ 0 := by
        intro q hq
        rw [← Option.some.inj (hp.symm.trans hq)]
        exact hlinked
      refine .inl ⟨queued_storeBlock hvalid hs hx hdata hparent, ?_⟩
      simp only [receivedBlockTransactions, prev] at hp ⊢
      rw [hp, hfuel]
      simp only [hlinked, ne_eq, not_false_eq_true, if_true]

lemma grows_receivedBlockTransactions (hs : Consistent E s) (hx : x ∈ s.mapBlockIndex)
    (hdata : (s.index x).nStatus.haveData = false) (hpos : nTx ≠ 0) :
    Consistent E (receivedBlockTransactions E s x nTx) ∧ Grows s (receivedBlockTransactions E s x nTx) := by
  have hstored := hs.storeBlock hvalid hx hdata hpos
  have hgrows : Grows s (storeBlock s x nTx) := grows_storeBlock hvalid (hs.not_linked hx hdata).1
  rcases receivedBlockTransactions_cases nTx hvalid hs hx hdata with ⟨hqueue, heq⟩ | ⟨p, hp, hzero, heq | ⟨_, heq⟩⟩
  · rw [heq]
    obtain ⟨hconsistent, hqueued⟩ := grows_linkQueue hstored hqueue le_rfl
    exact ⟨hconsistent, hgrows.trans hqueued⟩
  · rw [heq]
    refine ⟨⟨hstored.genesis_known, hstored.genesis_root, hstored.genesis_height, ?_, ?_,
      hstored.checked, hstored.linked, hstored.candidates_linked, hstored.candidates_tip, ?_⟩,
        ⟨hgrows.known, hgrows.header, hgrows.stored, hgrows.linked⟩, rfl⟩
    · exact fun y hy hne => (hstored.parent y hy hne).imp (fun p h => ⟨h.known, h.prev, h.height, h.work⟩)
    · exact ⟨hstored.chain.links, hstored.chain.last, hstored.chain.known, hstored.chain.linked⟩
    intro a y hay
    rcases mem_cons.mp hay with hnew | hay
    · obtain ⟨rfl, rfl⟩ := Prod.mk.inj hnew
      refine ⟨hx, (storeBlock_pprev hvalid y).trans hp, ?_, hzero⟩
      simp only [storeBlock_index_self s nTx hvalid]
    · exact hstored.unlinked a y hay
  · rw [heq]
    exact ⟨hstored, hgrows⟩

end Store

lemma acceptBlockHeader_true (hs : Consistent E s)
    (h : (acceptBlockHeader E s block moment).1 = true) :
    block.hash ∈ (acceptBlockHeader E s block moment).2.mapBlockIndex ∧
      (((acceptBlockHeader E s block moment).2.index block.hash).failed = false ∨ block.hash = E.hashGenesisBlock) := by
  rcases acceptBlockHeader_cases hs block moment with ⟨heq, htrue⟩ | ⟨hnew, heq⟩ | ⟨failedit, _, _, heq⟩
  · rw [heq]
    exact htrue h
  · rw [heq]
    refine ⟨(mem_addToBlockIndex hnew).mpr (.inl rfl), .inl ?_⟩
    simp only [addToBlockIndex_new hnew, newIndex, failed, Bool.or_false]
  · rw [heq] at h
    cases h

lemma acceptBlock_cases (hs : Consistent E s) (block : BlockData) (moment : HeaderMoment) (fRequested : Bool) :
    let after := (acceptBlockHeader E s block.toCBlockHeader moment).2
    acceptBlock E s block moment fRequested = after ∨
    (block.hash ∈ after.mapBlockIndex ∧ (after.index block.hash).failed = false ∧
      (after.index block.hash).nStatus.haveData = false ∧
      (block.nTx ≠ 0 ∧ acceptBlock E s block moment fRequested =
        receivedBlockTransactions E after block.hash block.nTx ∨
        acceptBlock E s block moment fRequested = after.setIndex block.hash setFailedValid)) := by
  intro after
  have hconsistent : Consistent E after := (grows_acceptBlockHeader hs _ _).1
  unfold acceptBlock
  cases hresult : acceptBlockHeader E s block.toCBlockHeader moment with
  | mk ok t =>
    have hafter : after = t := by
      simp only [after, hresult]
    rw [hafter] at hconsistent ⊢
    cases ok with
    | false => exact .inl rfl
    | true =>
      have hok : (acceptBlockHeader E s block.toCBlockHeader moment).1 = true := by rw [hresult]
      have htrue := acceptBlockHeader_true hs hok
      rw [hresult] at htrue
      dsimp only
      by_cases hdata : (t.index block.hash).nStatus.haveData = true
      · rw [if_pos hdata]
        exact .inl rfl
      by_cases hskip : (!fRequested && skipUnrequested E t block.hash) = true
      · rw [if_neg hdata, if_pos hskip]
        exact .inl rfl
      -- the genesis block has its data
      have hvalid : (t.index block.hash).failed = false := by
        rcases htrue.2 with hvalid | hgenesis
        · exact hvalid
        · have hlinked := hconsistent.chain.linked _ hconsistent.genesis_mem
          rw [← hgenesis] at hlinked
          exact absurd (hconsistent.linked _ htrue.1 hlinked).1 hdata
      rw [if_neg hdata, if_neg hskip]
      cases hcheck : blockCheck block with
      | ok =>
        refine .inr ⟨htrue.1, hvalid, Bool.eq_false_iff.mpr hdata, .inl ⟨?_, rfl⟩⟩
        intro hzero
        simp only [blockCheck, hzero, if_true] at hcheck
        cases hcheck
      | invalid => exact .inr ⟨htrue.1, hvalid, Bool.eq_false_iff.mpr hdata, .inr rfl⟩
      | corruptionPossible => exact .inl rfl

lemma grows_acceptBlock (hs : Consistent E s) (block : BlockData) (moment : HeaderMoment) (fRequested : Bool) :
    Consistent E (acceptBlock E s block moment fRequested) ∧ Grows s (acceptBlock E s block moment fRequested) := by
  obtain ⟨hafter, hheader⟩ := grows_acceptBlockHeader hs block.toCBlockHeader moment
  rcases acceptBlock_cases hs block moment fRequested with heq | ⟨hknown, hvalid, hdata, ⟨hpos, heq⟩ | heq⟩
  · rw [heq]
    exact ⟨hafter, hheader⟩
  · rw [heq]
    obtain ⟨hreceived, hgrows⟩ := grows_receivedBlockTransactions hvalid hafter hknown hdata hpos
    exact ⟨hreceived, hheader.trans hgrows⟩
  · rw [heq]
    have hsame :=
      SameTree.setIndex (acceptBlockHeader E s block.toCBlockHeader moment).2 block.hash SameIndex.setFailedValid
    exact ⟨hafter.reflag hsame rfl (fun _ h => h) (fun _ h => h), hheader.trans ⟨hsame.extends, rfl⟩⟩

end Qstees.Proofs
