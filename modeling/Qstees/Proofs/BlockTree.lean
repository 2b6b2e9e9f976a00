import Qstees.Model.ChainState

/-!
# The block tree, the active chain and the candidates

`Consistent` is what holds of the tree, of the active chain and of the candidates whatever the flags of
the blocks are.
-/

namespace Qstees.Proofs

open ParentTree List

variable {E : ChainEnv} {s t : ChainState}

def workKey (E : ChainEnv) (s : ChainState) (x : UInt256) : ℕ ×ₗ ℕᵒᵈ ×ₗ ℕᵒᵈ :=
  toLex ((s.index x).nChainWork, toLex (OrderDual.toDual (s.index x).nSequenceId, OrderDual.toDual (E.address x)))

lemma workKey_lt_iff (x y : UInt256) : workKey E s x < workKey E s y ↔
    (s.index x).nChainWork < (s.index y).nChainWork ∨ (s.index x).nChainWork = (s.index y).nChainWork ∧
      ((s.index y).nSequenceId < (s.index x).nSequenceId ∨
        (s.index x).nSequenceId = (s.index y).nSequenceId ∧ E.address y < E.address x) := by
  simp only [workKey, Prod.Lex.toLex_lt_toLex, OrderDual.toDual_lt_toDual, OrderDual.toDual_inj]

lemma workComparator_iff (x y : UInt256) : workComparator E s x y = true ↔ workKey E s x < workKey E s y := by
  rw [workKey_lt_iff]
  unfold workComparator
  split_ifs with h₁ h₂ h₃ h₄ h₅
  · simp; omega
  · simp; omega
  · simp; omega
  · simp; omega
  · simp; omega
  · simp; omega

lemma workComparator_eq_false_iff (x y : UInt256) : workComparator E s x y = false ↔ workKey E s y ≤ workKey E s x := by
  rw [← not_lt, ← workComparator_iff, Bool.not_eq_true]

variable {x y : UInt256}

lemma workKey_inj (h : workKey E s x = workKey E s y) : x = y := by
  simp only [workKey, toLex_inj, Prod.mk.injEq, OrderDual.toDual_inj] at h
  exact E.address_inj h.2.2

lemma workKey_lt_of_work_lt (h : (s.index x).nChainWork < (s.index y).nChainWork) :
    workKey E s x < workKey E s y :=
  (workKey_lt_iff x y).mpr (.inl h)

lemma work_le_of_workKey_le (h : workKey E s x ≤ workKey E s y) :
    (s.index x).nChainWork ≤ (s.index y).nChainWork := by
  by_contra hlt
  exact absurd (workKey_lt_of_work_lt (E := E) (Nat.lt_of_not_le hlt)) (not_lt.mpr h)

/-- Two indices of a block that differ in flags, or in a validity that has been raised. -/
structure SameIndex (i j : CBlockIndex) : Prop where
  header : j.toHeaderIndex = i.toHeaderIndex
  nTx : j.nTx = i.nTx
  nChainTx : j.nChainTx = i.nChainTx
  nSequenceId : j.nSequenceId = i.nSequenceId
  haveData : j.nStatus.haveData = i.nStatus.haveData
  validity : i.nStatus.validity ≤ j.nStatus.validity

namespace SameIndex

variable (i : CBlockIndex)

lemma refl : SameIndex i i := ⟨rfl, rfl, rfl, rfl, rfl, le_rfl⟩

lemma trans {i j k : CBlockIndex} (h : SameIndex i j) (h' : SameIndex j k) : SameIndex i k :=
  ⟨h'.header.trans h.header, h'.nTx.trans h.nTx, h'.nChainTx.trans h.nChainTx, h'.nSequenceId.trans h.nSequenceId,
    h'.haveData.trans h.haveData, h.validity.trans h'.validity⟩

lemma setFailedValid : SameIndex i i.setFailedValid := ⟨rfl, rfl, rfl, rfl, rfl, le_rfl⟩

lemma setFailedChild : SameIndex i i.setFailedChild := ⟨rfl, rfl, rfl, rfl, rfl, le_rfl⟩

lemma clearFailed : SameIndex i i.clearFailed := ⟨rfl, rfl, rfl, rfl, rfl, le_rfl⟩

lemma raiseValidity (nUpTo : Nat) : SameIndex i (i.raiseValidity nUpTo) := by
  unfold CBlockIndex.raiseValidity
  split_ifs
  · exact refl i
  · exact ⟨rfl, rfl, rfl, rfl, rfl, le_max_left _ _⟩

end SameIndex

lemma setIndex_eq (s : ChainState) (x : UInt256) (f : CBlockIndex → CBlockIndex) :
    s.setIndex x f = s.setIndices [x] f := by
  simp only [ChainState.setIndex, ChainState.setIndices, mem_singleton]

structure SameTree (s t : ChainState) : Prop where
  known : t.mapBlockIndex = s.mapBlockIndex
  index : ∀ x, SameIndex (s.index x) (t.index x)

namespace SameTree

lemma refl (s : ChainState) : SameTree s s := ⟨rfl, fun _ => SameIndex.refl _⟩

variable {u : ChainState}

lemma trans (h : SameTree s t) (h' : SameTree t u) : SameTree s u :=
  ⟨h'.known.trans h.known, fun x => (h.index x).trans (h'.index x)⟩

variable {f : CBlockIndex → CBlockIndex}

lemma setIndices (s : ChainState) (xs : List UInt256) (hf : ∀ i, SameIndex i (f i)) :
    SameTree s (s.setIndices xs f) := by
  refine ⟨rfl, ?_⟩
  intro y
  simp only [ChainState.setIndices]
  split_ifs
  · exact hf _
  · exact SameIndex.refl _

lemma setIndex (s : ChainState) (x : UInt256) (hf : ∀ i, SameIndex i (f i)) :
    SameTree s (s.setIndex x f) := by
  rw [setIndex_eq]
  exact setIndices s [x] hf

variable (h : SameTree s t)
include h

lemma pprev (x : UInt256) : (t.index x).pprev = (s.index x).pprev := congrArg HeaderIndex.pprev (h.index x).header

lemma nHeight (x : UInt256) : (t.index x).nHeight = (s.index x).nHeight :=
  congrArg HeaderIndex.nHeight (h.index x).header

lemma nChainWork (x : UInt256) : (t.index x).nChainWork = (s.index x).nChainWork :=
  congrArg HeaderIndex.nChainWork (h.index x).header

lemma workKey (E : ChainEnv) (x : UInt256) : workKey E t x = workKey E s x := by
  simp only [Proofs.workKey, h.nChainWork, (h.index x).nSequenceId]

end SameTree

variable (i : CBlockIndex)

@[simp] lemma failed_setFailedValid : i.setFailedValid.failed = true := rfl

@[simp] lemma failed_setFailedChild : i.setFailedChild.failed = true := by
  simp [CBlockIndex.failed, CBlockIndex.setFailedChild]

@[simp] lemma failed_clearFailed : i.clearFailed.failed = false := rfl

@[simp] lemma failed_raiseValidity (nUpTo : Nat) : (i.raiseValidity nUpTo).failed = i.failed := by
  unfold CBlockIndex.raiseValidity
  split_ifs
  · rfl
  · rfl

/-- The tree is the same and no flag is taken back. -/
structure Flags (s t : ChainState) : Prop extends SameTree s t where
  failed : ∀ x, (s.index x).failed = true → (t.index x).failed = true

namespace Flags

lemma refl (s : ChainState) : Flags s s := ⟨SameTree.refl s, fun _ h => h⟩

lemma trans (h : Flags s t) (h' : Flags t u) : Flags s u :=
  ⟨h.toSameTree.trans h'.toSameTree, fun x hx => h'.failed x (h.failed x hx)⟩

lemma congr (h : Flags s t) (hknown : u.mapBlockIndex = t.mapBlockIndex) (hindex : u.index = t.index) :
    Flags s u := by
  obtain ⟨⟨hsame, hall⟩, hfailed⟩ := h
  rw [← hknown] at hsame
  rw [← hindex] at hall hfailed
  exact ⟨⟨hsame, hall⟩, hfailed⟩

lemma valid (h : Flags s t) {x : UInt256} (hx : (t.index x).failed = false) : (s.index x).failed = false := by
  apply Bool.eq_false_iff.mpr
  intro hfailed
  exact Bool.eq_false_iff.mp hx (h.failed x hfailed)

lemma setIndices (s : ChainState) (xs : List UInt256) (hf : ∀ i, SameIndex i (f i))
    (hfailed : ∀ i, i.failed = true → (f i).failed = true) : Flags s (s.setIndices xs f) := by
  refine ⟨SameTree.setIndices s xs hf, ?_⟩
  intro x hx
  simp only [ChainState.setIndices]
  split_ifs
  · exact hfailed _ hx
  · exact hx

end Flags

/-- The parent of a block. -/
abbrev prev (s : ChainState) (x : UInt256) : Option UInt256 := (s.index x).pprev

/-- The parent of a block is known, with one block less below it and less work. -/
structure Child (s t : ChainState) (x p : UInt256) : Prop where
  known : p ∈ s.mapBlockIndex
  prev : prev t x = some p
  height : (t.index x).nHeight = (s.index p).nHeight + 1
  work : (s.index p).nChainWork < (t.index x).nChainWork

structure LinkedChain (E : ChainEnv) (s : ChainState) (chain : List UInt256) : Prop where
  links : chain.IsChain (fun x p => prev s x = some p)
  last : chain.getLast? = some E.hashGenesisBlock
  known : ∀ x ∈ chain, x ∈ s.mapBlockIndex
  linked : ∀ x ∈ chain, (s.index x).nChainTx ≠ 0

structure Checked (pindex : CBlockIndex) : Prop where
  tree : BLOCK_VALID_TREE ≤ pindex.nStatus.validity
  data : pindex.nStatus.haveData = true → pindex.nTx ≠ 0 ∧ BLOCK_VALID_TRANSACTIONS ≤ pindex.nStatus.validity

lemma SameIndex.checked {i j : CBlockIndex} (h : SameIndex i j) (hi : Checked i) : Checked j := by
  refine ⟨hi.tree.trans h.validity, ?_⟩
  intro hdata
  rw [h.nTx]
  rw [h.haveData] at hdata
  exact ⟨(hi.data hdata).1, (hi.data hdata).2.trans h.validity⟩

/-- Stored, on a parent with all its transactions. -/
def Linkable (s : ChainState) (x : UInt256) : Prop :=
  (s.index x).nStatus.haveData = true ∧ ∀ p, prev s x = some p → (s.index p).nChainTx ≠ 0

/-- The invariant of the index, the active chain and the candidates. -/
structure Consistent (E : ChainEnv) (s : ChainState) : Prop where
  genesis_known : E.hashGenesisBlock ∈ s.mapBlockIndex
  genesis_root : prev s E.hashGenesisBlock = none
  genesis_height : (s.index E.hashGenesisBlock).nHeight = 0
  parent : ∀ x ∈ s.mapBlockIndex, x ≠ E.hashGenesisBlock → ∃ p, Child s s x p
  chain : LinkedChain E s s.chainActive
  checked : ∀ x ∈ s.mapBlockIndex, Checked (s.index x)
  linked : ∀ x ∈ s.mapBlockIndex, (s.index x).nChainTx ≠ 0 → Linkable s x
  candidates_linked : ∀ x ∈ s.setBlockIndexCandidates, x ∈ s.mapBlockIndex ∧ (s.index x).nChainTx ≠ 0
  candidates_tip : ∀ x ∈ s.setBlockIndexCandidates, x ∈ s.chainActive → x = s.tip
  unlinked : ∀ a x, (a, x) ∈ s.mapBlocksUnlinked →
    x ∈ s.mapBlockIndex ∧ prev s x = some a ∧ (s.index x).nStatus.haveData = true ∧ (s.index a).nChainTx = 0

namespace Consistent

variable {x p y : UInt256}

section

variable (hs : Consistent E s)
include hs

lemma child (hx : x ∈ s.mapBlockIndex) (hp : prev s x = some p) : Child s s x p := by
  have hne : x ≠ E.hashGenesisBlock := by
    rintro rfl
    rw [hs.genesis_root] at hp
    cases hp
  obtain ⟨q, hq⟩ := hs.parent x hx hne
  obtain rfl : q = p := Option.some.inj (hq.prev.symm.trans hp)
  exact hq

lemma ranked : Ranked (prev s) (fun x => (s.index x).nHeight) s.mapBlockIndex :=
  ⟨fun hx hp => (hs.child hx hp).known, fun hx hp => (hs.child hx hp).height⟩

lemma mem_ancestors_iff (hx : x ∈ s.mapBlockIndex) :
    y ∈ s.ancestors x ↔ Descends (prev s) x y :=
  hs.ranked.mem_walk_iff hx

lemma ancestors_eq (hx : x ∈ s.mapBlockIndex) (hp : prev s x = some p) :
    s.ancestors x = x :: s.ancestors p :=
  hs.ranked.walk_eq hx hp

/-- What holds of the first block, and of a block when it holds of its parent, holds of every block. -/
lemma induct {P : UInt256 → Prop} (hgenesis : P E.hashGenesisBlock)
    (hstep : ∀ x p, x ∈ s.mapBlockIndex → Child s s x p → P p → P x) (hx : x ∈ s.mapBlockIndex) : P x := by
  generalize hn : (s.index x).nHeight = n
  induction n using Nat.strong_induction_on generalizing x with
  | _ n ih =>
    by_cases hg : x = E.hashGenesisBlock
    · rw [hg]
      exact hgenesis
    · obtain ⟨p, hp⟩ := hs.parent x hx hg
      have hheight := hp.height
      exact hstep x p hx hp (ih _ (by omega) hp.known rfl)

lemma descends_genesis (hx : x ∈ s.mapBlockIndex) :
    Descends (prev s) x E.hashGenesisBlock :=
  hs.induct (P := fun x => Descends (prev s) x E.hashGenesisBlock) Relation.ReflTransGen.refl
    (fun _ _ _ hp h => Relation.ReflTransGen.head hp.prev h) hx

lemma linked_of_descends (hx : x ∈ s.mapBlockIndex)
    (hlinked : (s.index x).nChainTx ≠ 0) (h : Descends (prev s) x y) :
    (s.index y).nChainTx ≠ 0 := by
  have hboth : y ∈ s.mapBlockIndex ∧ (s.index y).nChainTx ≠ 0 := by
    apply h.mem_of_closed (S := fun z => z ∈ s.mapBlockIndex ∧ (s.index z).nChainTx ≠ 0) _ ⟨hx, hlinked⟩
    intro z p hz hp
    exact ⟨(hs.child hz.1 hp).known, (hs.linked z hz.1 hz.2).2 p hp⟩
  exact hboth.2

/-! The active chain. -/

lemma chain_ne_nil : s.chainActive ≠ [] := by
  intro h
  have hlast := hs.chain.last
  rw [h] at hlast
  cases hlast

lemma chain_eq : s.chainActive = s.tip :: s.chainActive.tail := by
  unfold ChainState.tip
  cases h : s.chainActive with
  | nil => exact absurd h hs.chain_ne_nil
  | cons x rest => rfl

lemma tip_mem : s.tip ∈ s.chainActive := by
  rw [hs.chain_eq]
  exact mem_cons_self

lemma genesis_mem : E.hashGenesisBlock ∈ s.chainActive := mem_of_getLast? hs.chain.last

lemma chain_closed (hx : x ∈ s.chainActive) (hp : prev s x = some p) :
    p ∈ s.chainActive :=
  parent_mem_of_isChain hs.chain.links hs.chain.last hs.genesis_root hx hp

lemma chain_descends (hx : x ∈ s.chainActive) (h : Descends (prev s) x y) :
    y ∈ s.chainActive :=
  h.mem_of_closed (fun _ _ => hs.chain_closed) hx

lemma chain_getElem? {d : Nat} (hx : s.chainActive[d]? = some x) :
    d + (s.index x).nHeight + 1 = s.chainActive.length :=
  rank_of_isChain hs.ranked hs.chain.links hs.chain.last hs.genesis_height hs.chain.known hx

lemma sorted_of_isChain {l : List UInt256} (hl : l.IsChain (fun x p => prev s x = some p))
    (hknown : ∀ x ∈ l, x ∈ s.mapBlockIndex) :
    l.Pairwise (fun x y => (s.index y).nChainWork < (s.index x).nChainWork) := by
  have htrans : IsTrans UInt256 (fun x y => (s.index y).nChainWork < (s.index x).nChainWork) :=
    ⟨fun _ _ _ h h' => lt_trans h' h⟩
  rw [← isChain_iff_pairwise]
  apply hl.imp_of_mem_imp
  intro x y hx _ hxy
  exact (hs.child (hknown x hx) hxy).work

lemma chain_sorted :
    s.chainActive.Pairwise (fun x y => (s.index y).nChainWork < (s.index x).nChainWork) :=
  hs.sorted_of_isChain hs.chain.links hs.chain.known

lemma ancestors_sorted (hx : x ∈ s.mapBlockIndex) :
    (s.ancestors x).Pairwise (fun x y => (s.index y).nChainWork < (s.index x).nChainWork) := by
  apply hs.sorted_of_isChain (isChain_walk _ x)
  intro y hy
  exact hs.ranked.mem_of_descends hx ((hs.mem_ancestors_iff hx).mp hy)

lemma work_lt_tip (hx : x ∈ s.chainActive) (hne : x ≠ s.tip) :
    (s.index x).nChainWork < (s.index s.tip).nChainWork := by
  have hsorted := hs.chain_sorted
  rw [hs.chain_eq] at hsorted hx
  rcases mem_cons.mp hx with rfl | hx
  · exact absurd rfl hne
  · exact (pairwise_cons.mp hsorted).1 x hx

end

end Consistent

lemma consistent_genesisState (E : ChainEnv) : Consistent E (genesisState E) := by
  have hmem : ∀ x, x ∈ [E.hashGenesisBlock] ↔ x = E.hashGenesisBlock := fun x => mem_singleton
  have hlinked : ∀ x ∈ [E.hashGenesisBlock], ((genesisState E).index x).nChainTx ≠ 0 := by
    intro x hx
    rw [(hmem x).mp hx]
    simp [genesisState]
  constructor
  case genesis_known => exact mem_cons_self
  case genesis_root => simp [prev, genesisState]
  case genesis_height => simp [genesisState]
  case parent => exact fun x hx hne => absurd ((hmem x).mp hx) hne
  case chain => exact ⟨isChain_singleton _, rfl, fun x hx => hx, hlinked⟩
  case checked =>
    intro x hx
    rw [(hmem x).mp hx]
    constructor
    · simp [genesisState, BLOCK_VALID_TREE, BLOCK_VALID_TRANSACTIONS]
    · simp [genesisState]
  case linked =>
    intro x hx _
    rw [(hmem x).mp hx]
    simp [Linkable, genesisState, prev]
  case candidates_linked => exact fun x hx => ⟨hx, hlinked x hx⟩
  case candidates_tip => exact fun x hx _ => (hmem x).mp hx
  case unlinked => exact fun a x h => by cases h

end Qstees.Proofs
