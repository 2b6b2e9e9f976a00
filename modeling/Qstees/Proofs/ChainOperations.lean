import Qstees.Proofs.BlockTree

/-!
# What the operations on the chain do

The loops of the source are given as induction rules; each primitive change keeps a state consistent.
-/

namespace Qstees.Proofs

open ParentTree List ChainState

variable {E : ChainEnv} {s t : ChainState}

/-- Blocks keep their headers, their data and their links while the tree grows. -/
structure Extends (s t : ChainState) : Prop where
  known : ∀ x ∈ s.mapBlockIndex, x ∈ t.mapBlockIndex
  header : ∀ x ∈ s.mapBlockIndex, (t.index x).toHeaderIndex = (s.index x).toHeaderIndex
  stored : ∀ x ∈ s.mapBlockIndex, (s.index x).nStatus.haveData = true → (t.index x).nStatus.haveData = true
  linked : ∀ x ∈ s.mapBlockIndex, (s.index x).nChainTx ≠ 0 → (t.index x).nChainTx ≠ 0

lemma SameTree.extends (h : SameTree s t) : Extends s t where
  known := by
    rw [h.known]
    exact fun _ hx => hx
  header := fun x _ => (h.index x).header
  stored := fun x _ hdata => (h.index x).haveData.trans hdata
  linked := by
    intro x _ hlinked
    rw [(h.index x).nChainTx]
    exact hlinked

namespace Extends

variable {x p : UInt256}

lemma refl (s : ChainState) : Extends s s := (SameTree.refl s).extends

lemma trans {u : ChainState} (h : Extends s t) (h' : Extends t u) : Extends s u :=
  ⟨fun x hx => h'.known x (h.known x hx), fun x hx => (h'.header x (h.known x hx)).trans (h.header x hx),
    fun x hx hdata => h'.stored x (h.known x hx) (h.stored x hx hdata),
    fun x hx hlinked => h'.linked x (h.known x hx) (h.linked x hx hlinked)⟩

variable (h : Extends s t)
include h

lemma prev (hx : x ∈ s.mapBlockIndex) : prev t x = prev s x := congrArg HeaderIndex.pprev (h.header x hx)

lemma child (hx : x ∈ s.mapBlockIndex) (hp : Child s s x p) : Child s t x p where
  known := hp.known
  prev := (h.prev hx).trans hp.prev
  height := (congrArg HeaderIndex.nHeight (h.header x hx)).trans hp.height
  work := lt_of_lt_of_eq hp.work (congrArg HeaderIndex.nChainWork (h.header x hx)).symm

lemma parent (hp : Child s t x p) : Child t t x p where
  known := h.known p hp.known
  prev := hp.prev
  height := by
    rw [congrArg HeaderIndex.nHeight (h.header p hp.known)]
    exact hp.height
  work := by
    rw [congrArg HeaderIndex.nChainWork (h.header p hp.known)]
    exact hp.work

lemma chain {l : List UInt256} (hl : LinkedChain E s l) : LinkedChain E t l where
  links := hl.links.imp_of_mem_imp (fun x _ hx _ hp => (h.prev (hl.known x hx)).trans hp)
  last := hl.last
  known := fun x hx => h.known x (hl.known x hx)
  linked := fun x hx => h.linked x (hl.known x hx) (hl.linked x hx)

end Extends

lemma Consistent.extend (hs : Consistent E s) (h : Extends s t)
    (hparent : ∀ x ∈ t.mapBlockIndex, x ∉ s.mapBlockIndex → ∃ p, Child s t x p)
    (hchecked : ∀ x ∈ t.mapBlockIndex, Checked (t.index x))
    (hlinked : ∀ x ∈ t.mapBlockIndex, (t.index x).nChainTx ≠ 0 →
      x ∈ s.mapBlockIndex ∧ (s.index x).nChainTx ≠ 0 ∨ Linkable t x)
    (hchain : LinkedChain E s t.chainActive)
    (hcand : ∀ x ∈ t.setBlockIndexCandidates, x ∈ t.mapBlockIndex ∧ (t.index x).nChainTx ≠ 0)
    (htip : ∀ x ∈ t.setBlockIndexCandidates, x ∈ t.chainActive → x = t.tip)
    (hunlinked : ∀ a x, (a, x) ∈ t.mapBlocksUnlinked → (a, x) ∈ s.mapBlocksUnlinked ∧ (t.index a).nChainTx = 0) :
    Consistent E t where
  genesis_known := h.known _ hs.genesis_known
  genesis_root := (h.prev hs.genesis_known).trans hs.genesis_root
  genesis_height := (congrArg HeaderIndex.nHeight (h.header _ hs.genesis_known)).trans hs.genesis_height
  parent := by
    intro x hx hne
    by_cases hold : x ∈ s.mapBlockIndex
    · obtain ⟨p, hp⟩ := hs.parent x hold hne
      exact ⟨p, h.parent (h.child hold hp)⟩
    · obtain ⟨p, hp⟩ := hparent x hx hold
      exact ⟨p, h.parent hp⟩
  chain := h.chain hchain
  checked := hchecked
  linked := by
    intro x hx hx'
    rcases hlinked x hx hx' with ⟨hold, hx'⟩ | hx'
    · obtain ⟨hdata, hp⟩ := hs.linked x hold hx'
      refine ⟨h.stored x hold hdata, ?_⟩
      intro p hxp
      have hxp' := (h.prev hold).symm.trans hxp
      exact h.linked p (hs.child hold hxp').known (hp p hxp')
    · exact hx'
  candidates_linked := hcand
  candidates_tip := htip
  unlinked := by
    intro a x hax
    obtain ⟨hax, hzero⟩ := hunlinked a x hax
    obtain ⟨hx, hp, hdata, _⟩ := hs.unlinked a x hax
    exact ⟨h.known x hx, (h.prev hx).trans hp, h.stored x hx hdata, hzero⟩

lemma Consistent.transfer (hs : Consistent E s) (h : SameTree s t) (hchain : LinkedChain E s t.chainActive)
    (hcand : ∀ x ∈ t.setBlockIndexCandidates, x ∈ s.mapBlockIndex ∧ (s.index x).nChainTx ≠ 0)
    (htip : ∀ x ∈ t.setBlockIndexCandidates, x ∈ t.chainActive → x = t.tip)
    (hunlinked : ∀ e ∈ t.mapBlocksUnlinked, e ∈ s.mapBlocksUnlinked) : Consistent E t := by
  have hlinked : ∀ x, (t.index x).nChainTx = (s.index x).nChainTx := fun x => (h.index x).nChainTx
  refine hs.extend h.extends ?_ ?_ ?_ hchain ?_ htip ?_
  · intro x hx hnew
    rw [h.known] at hx
    exact absurd hx hnew
  · intro x hx
    rw [h.known] at hx
    exact (h.index x).checked (hs.checked x hx)
  · intro x hx hx'
    rw [h.known] at hx
    rw [hlinked] at hx'
    exact .inl ⟨hx, hx'⟩
  · intro x hx
    rw [h.known, hlinked]
    exact hcand x hx
  · intro a x hax
    rw [hlinked]
    exact ⟨hunlinked _ hax, (hs.unlinked a x (hunlinked _ hax)).2.2.2⟩

lemma Consistent.reflag (hs : Consistent E s) (h : SameTree s t) (hchain : t.chainActive = s.chainActive)
    (hcand : ∀ x ∈ t.setBlockIndexCandidates, x ∈ s.setBlockIndexCandidates)
    (hunlinked : ∀ e ∈ t.mapBlocksUnlinked, e ∈ s.mapBlocksUnlinked) : Consistent E t := by
  have htip : t.tip = s.tip := by rw [ChainState.tip, ChainState.tip, hchain]
  refine hs.transfer h ?_ (fun x hx => hs.candidates_linked x (hcand x hx)) ?_ hunlinked
  · rw [hchain]
    exact hs.chain
  · intro x hx hmem
    rw [hchain] at hmem
    rw [htip]
    exact hs.candidates_tip x (hcand x hx) hmem

lemma bestCandidate_fold (l : List UInt256) (b : UInt256) :
    ∃ m, l.foldl (fun best x => match best with
        | none => some x
        | some b => if workComparator E s b x then some x else some b) (some b) = some m ∧
      m ∈ b :: l ∧ ∀ x ∈ b :: l, workKey E s x ≤ workKey E s m := by
  induction l generalizing b with
  | nil =>
    refine ⟨b, rfl, mem_cons_self, ?_⟩
    intro x hx
    rw [mem_singleton.mp hx]
  | cons y l ih =>
    have hstep : ∃ c, (if workComparator E s b y then some y else some b) = some c ∧ (c = b ∨ c = y) ∧
        workKey E s b ≤ workKey E s c ∧ workKey E s y ≤ workKey E s c := by
      by_cases hworse : workComparator E s b y = true
      · exact ⟨y, if_pos hworse, .inr rfl, ((workComparator_iff b y).mp hworse).le, le_rfl⟩
      · exact ⟨b, if_neg hworse, .inl rfl, le_rfl, (workComparator_eq_false_iff b y).mp (by simpa using hworse)⟩
    obtain ⟨c, hc, hcmem, hbc, hyc⟩ := hstep
    obtain ⟨m, hm, hmem, hmax⟩ := ih c
    refine ⟨m, ?_, ?_, ?_⟩
    · rw [foldl_cons]
      simp only [hc]
      exact hm
    · rcases mem_cons.mp hmem with rfl | hmem
      · rcases hcmem with rfl | rfl
        · exact mem_cons_self
        · exact mem_cons_of_mem _ mem_cons_self
      · exact mem_cons_of_mem _ (mem_cons_of_mem _ hmem)
    · have hc' := hmax c mem_cons_self
      intro x hx
      rcases mem_cons.mp hx with rfl | hx
      · exact hbc.trans hc'
      · rcases mem_cons.mp hx with rfl | hx
        · exact hyc.trans hc'
        · exact hmax x (mem_cons_of_mem _ hx)

variable {m x y : UInt256} {path : List UInt256} {a : Activation}

lemma bestCandidate_cases :
    (bestCandidate E s = none ∧ s.setBlockIndexCandidates = []) ∨ ∃ m, bestCandidate E s = some m ∧
      m ∈ s.setBlockIndexCandidates ∧ ∀ x ∈ s.setBlockIndexCandidates, workKey E s x ≤ workKey E s m := by
  unfold bestCandidate
  cases s.setBlockIndexCandidates with
  | nil => exact .inl ⟨rfl, rfl⟩
  | cons b l => exact .inr (bestCandidate_fold l b)

lemma bestCandidate_spec (h : bestCandidate E s = some m) :
    m ∈ s.setBlockIndexCandidates ∧ ∀ x ∈ s.setBlockIndexCandidates, workKey E s x ≤ workKey E s m := by
  rcases bestCandidate_cases with ⟨hnone, _⟩ | ⟨m', hm', hbest⟩
  · rw [hnone] at h
    cases h
  · obtain rfl : m' = m := Option.some.inj (hm'.symm.trans h)
    exact hbest

lemma bestCandidate_eq_none (h : bestCandidate E s = none) : s.setBlockIndexCandidates = [] := by
  rcases bestCandidate_cases with ⟨_, hnil⟩ | ⟨m, hm, _⟩
  · exact hnil
  · rw [hm] at h
    cases h

lemma ancestors_cons (s : ChainState) (x : UInt256) : ∃ rest, s.ancestors x = x :: rest := ⟨_, rfl⟩

lemma mem_offChain (h : y ∈ s.offChain x) : y ∈ s.ancestors x ∧ y ∉ s.chainActive := by
  refine ⟨(takeWhile_sublist _).subset h, ?_⟩
  simpa using mem_takeWhile_imp h

lemma offChain_cons (hx : x ∉ s.chainActive) : ∃ rest, s.offChain x = x :: rest := by
  obtain ⟨rest, hrest⟩ := ancestors_cons s x
  refine ⟨rest.takeWhile (· ∉ s.chainActive), ?_⟩
  rw [offChain, hrest, takeWhile_cons_of_pos (by simpa using hx)]

lemma offChain_eq_nil (hx : x ∈ s.chainActive) : s.offChain x = [] := by
  obtain ⟨rest, hrest⟩ := ancestors_cons s x
  rw [offChain, hrest, takeWhile_cons_of_neg (by simpa using hx)]

lemma firstUnusable_spec (hs : Consistent E s) (hx : x ∈ s.mapBlockIndex)
    (hlinked : (s.index x).nChainTx ≠ 0) (h : firstUnusable s x = some y) :
    y ∈ s.offChain x ∧ (s.index y).failed = true := by
  have hmem := mem_of_find?_eq_some h
  have hdescends := (hs.mem_ancestors_iff hx).mp (mem_offChain hmem).1
  have hdata := (hs.linked y (hs.ranked.mem_of_descends hx hdescends) (hs.linked_of_descends hx hlinked hdescends)).1
  have hbad := find?_some h
  exact ⟨hmem, by simpa [hdata] using hbad⟩

lemma descends_of_mem_takeWhile {z : UInt256} (hy : y ∈ s.offChain x)
    (hz : z ∈ (s.offChain x).takeWhile (· ≠ y)) : Descends (prev s) z y := by
  have hchain : (s.ancestors x).IsChain (fun x p => prev s x = some p) := isChain_walk _ x
  rw [← takeWhile_append_dropWhile (p := fun y => decide (y ∉ s.chainActive)) (l := s.ancestors x)] at hchain
  exact descends_of_isChain hchain.left_of_append hy hz

lemma flags_dropChain (s : ChainState) (x y : UInt256) : Flags s (dropChain s x y) := by
  unfold dropChain
  split_ifs
  · exact (Flags.setIndices s _ SameIndex.setFailedChild (by simp)).congr rfl rfl
  · exact (Flags.refl s).congr rfl rfl

lemma dropChain_chainActive (s : ChainState) (x y : UInt256) : (dropChain s x y).chainActive = s.chainActive := by
  unfold dropChain
  split_ifs
  · rfl
  · rfl

lemma mem_dropChain {z : UInt256} : z ∈ (dropChain s x y).setBlockIndexCandidates ↔
    z ∈ s.setBlockIndexCandidates ∧ z ∉ y :: (s.offChain x).takeWhile (· ≠ y) := by
  unfold dropChain
  split_ifs
  · simp [eraseCandidates, setIndices]
  · simp [eraseCandidates]

lemma dropChain_eq (hfailed : (s.index y).failed = true) : dropChain s x y =
    (s.setIndices ((s.offChain x).takeWhile (· ≠ y)) CBlockIndex.setFailedChild).eraseCandidates
      (y :: (s.offChain x).takeWhile (· ≠ y)) := by
  simp only [dropChain, hfailed, if_true]

lemma Consistent.dropChain (hs : Consistent E s) (hx : x ∈ s.setBlockIndexCandidates)
    (h : firstUnusable s x = some y) : Consistent E (dropChain s x y) := by
  obtain ⟨hknown, hlinked⟩ := hs.candidates_linked x hx
  have hfailed := (firstUnusable_spec hs hknown hlinked h).2
  apply hs.reflag (flags_dropChain s x y).toSameTree (dropChain_chainActive s x y)
  · intro z hz
    exact (mem_dropChain.mp hz).1
  · rw [dropChain_eq hfailed]
    exact fun e he => he

lemma dropChain_length (hx : x ∈ s.setBlockIndexCandidates) (h : firstUnusable s x = some y) :
    (dropChain s x y).setBlockIndexCandidates.length < s.setBlockIndexCandidates.length := by
  have hy := mem_of_find?_eq_some h
  have hoff : x ∉ s.chainActive := by
    intro hmem
    rw [offChain_eq_nil hmem] at hy
    cases hy
  obtain ⟨rest, hrest⟩ := offChain_cons hoff
  have hgone : x ∈ y :: (s.offChain x).takeWhile (· ≠ y) := by
    by_cases hxy : x = y
    · rw [hxy]
      exact mem_cons_self
    · apply mem_cons_of_mem
      rw [hrest, takeWhile_cons_of_pos (by simpa using hxy)]
      exact mem_cons_self
  have heq : (dropChain s x y).setBlockIndexCandidates =
      s.setBlockIndexCandidates.filter (· ∉ y :: (s.offChain x).takeWhile (· ≠ y)) := by
    unfold Qstees.dropChain
    split_ifs
    · rfl
    · rfl
  rw [heq]
  apply length_filter_lt_length_iff_exists.mpr
  exact ⟨x, hx, fun h => of_decide_eq_true h hgone⟩

/-- The search for the most work: what dropping a chain keeps holds afterwards, the block found is the
best candidate, and no block is found only when there is no candidate. -/
theorem findMostWorkChainLoop_induct {P : ChainState → Prop}
    (hdrop : ∀ s x y, P s → bestCandidate E s = some x → firstUnusable s x = some y → P (dropChain s x y))
    (fuel : Nat) (hs : P s) (hfuel : s.setBlockIndexCandidates.length < fuel) :
    P (findMostWorkChainLoop E fuel s).2 ∧
    bestCandidate E (findMostWorkChainLoop E fuel s).2 = (findMostWorkChainLoop E fuel s).1 ∧
    ∀ m, (findMostWorkChainLoop E fuel s).1 = some m → firstUnusable (findMostWorkChainLoop E fuel s).2 m = none := by
  induction fuel generalizing s with
  | zero => omega
  | succ fuel ih =>
    cases hbest : bestCandidate E s with
    | none =>
      simp only [findMostWorkChainLoop, hbest]
      exact ⟨hs, trivial, by simp⟩
    | some x =>
      cases hbad : firstUnusable s x with
      | none =>
        simp only [findMostWorkChainLoop, hbest, hbad]
        refine ⟨hs, trivial, ?_⟩
        intro m hm
        rw [← Option.some.inj hm]
        exact hbad
      | some y =>
        have hlength := dropChain_length (bestCandidate_spec hbest).1 hbad
        simp only [findMostWorkChainLoop, hbest, hbad]
        exact ih (hdrop s x y hs hbest hbad) (by omega)

lemma findMostWorkChain_induct {P : ChainState → Prop}
    (hdrop : ∀ s x y, P s → bestCandidate E s = some x → firstUnusable s x = some y → P (dropChain s x y)) (hs : P s) :
    P (findMostWorkChain E s).2 ∧ bestCandidate E (findMostWorkChain E s).2 = (findMostWorkChain E s).1 ∧
    ∀ m, (findMostWorkChain E s).1 = some m → firstUnusable (findMostWorkChain E s).2 m = none :=
  findMostWorkChainLoop_induct hdrop _ hs (Nat.lt_succ_self _)

lemma disconnectBlocks_chainActive (n : Nat) :
    ∃ k, k ≤ s.chainActive.length - 1 ∧ (disconnectBlocks s n).chainActive = s.chainActive.drop k :=
  ⟨min n (s.chainActive.length - 1), min_le_right _ _, rfl⟩

lemma mem_of_mem_disconnectBlocks {n : Nat} (h : x ∈ (disconnectBlocks s n).chainActive) :
    x ∈ s.chainActive :=
  mem_of_mem_drop h

lemma Consistent.disconnectBlocks (hs : Consistent E s) (n : Nat) : Consistent E (disconnectBlocks s n) := by
  obtain ⟨k, hk, hchain⟩ := disconnectBlocks_chainActive n
  have hpos : 0 < s.chainActive.length := length_pos_of_ne_nil hs.chain_ne_nil
  have hsame : SameTree s (Qstees.disconnectBlocks s n) := ⟨rfl, fun _ => SameIndex.refl _⟩
  refine hs.transfer hsame ⟨?_, ?_, ?_, ?_⟩ hs.candidates_linked ?_ (fun e he => he)
  · rw [hchain]
    exact hs.chain.links.drop k
  · rw [hchain, getLast?_drop, if_neg (by omega)]
    exact hs.chain.last
  · exact fun x hx => hs.chain.known x (mem_of_mem_disconnectBlocks hx)
  · exact fun x hx => hs.chain.linked x (mem_of_mem_disconnectBlocks hx)
  · intro x hx hmem
    have htip := hs.candidates_tip x hx (mem_of_mem_disconnectBlocks hmem)
    rw [hchain] at hmem
    cases k with
    | zero => rw [htip, ChainState.tip, ChainState.tip, hchain, drop_zero]
    | succ k =>
      -- the old tip has more work than what is left
      have hsorted := hs.chain_sorted
      rw [hs.chain_eq, pairwise_cons] at hsorted
      rw [hs.chain_eq, drop_succ_cons] at hmem
      have hlt := hsorted.1 x (mem_of_mem_drop hmem)
      rw [htip] at hlt
      exact absurd hlt (lt_irrefl _)

structure OnPath (s : ChainState) (path : List UInt256) (m : UInt256) : Prop where
  links : (s.tip :: path).IsChain (fun p x => prev s x = some p)
  last : (s.tip :: path).getLast? = some m
  known : ∀ x ∈ path, x ∈ s.mapBlockIndex ∧ (s.index x).nChainTx ≠ 0
  off : ∀ x ∈ path, x ∉ s.chainActive
  nodup : path.Nodup

lemma Consistent.ancestors_of_path (hs : Consistent E s)
    (hlinks : (y :: path).IsChain (fun p x => prev s x = some p))
    (hlast : (y :: path).getLast? = some m) (hknown : ∀ x ∈ path, x ∈ s.mapBlockIndex) :
    s.ancestors m = path.reverse ++ s.ancestors y := by
  induction path generalizing y with
  | nil =>
    obtain rfl : y = m := by simpa using hlast
    rfl
  | cons b rest ih =>
    obtain ⟨hyb, hrest⟩ := isChain_cons_cons.mp hlinks
    rw [ih hrest (by simpa using hlast) (fun x hx => hknown x (mem_cons_of_mem _ hx)),
      hs.ancestors_eq (hknown b mem_cons_self) hyb]
    simp

lemma OnPath.offChain_eq (hs : Consistent E s) (h : OnPath s path m) :
    s.offChain m = path.reverse ∧ s.findFork m = some s.tip := by
  obtain ⟨rest, hrest⟩ := ancestors_cons s s.tip
  have hanc := hs.ancestors_of_path h.links h.last (fun x hx => (h.known x hx).1)
  rw [hrest] at hanc
  refine ⟨?_, ?_⟩
  · rw [offChain, hanc, takeWhile_append_of_pos (by simpa using h.off),
      takeWhile_cons_of_neg (by simpa using hs.tip_mem), append_nil]
  · have hnone : path.reverse.find? (fun x => decide (x ∈ s.chainActive)) = none := by
      simpa using h.off
    rw [findFork, hanc, find?_append, hnone, Option.none_or, find?_cons_of_pos (by simpa using hs.tip_mem)]

lemma OnPath.blocks (hs : Consistent E s) (h : OnPath s path m) :
    blocksToDisconnect s m = [] ∧ blocksToConnect s m = path := by
  obtain ⟨hoff, hfork⟩ := h.offChain_eq hs
  refine ⟨?_, ?_⟩
  · rw [blocksToDisconnect, hs.chain_eq, takeWhile_cons_of_neg (by simpa using hfork)]
  · rw [blocksToConnect, hoff, reverse_reverse]

lemma Consistent.ancestors_split (hs : Consistent E s) (hx : x ∈ s.mapBlockIndex) : ∃ fork below,
    s.ancestors x = s.offChain x ++ fork :: below ∧ fork ∈ s.chainActive ∧ s.findFork x = some fork := by
  obtain ⟨fork, below, hanc, hfork, hfind⟩ :=
    exists_split (l := s.ancestors x) (p := fun y => decide (y ∈ s.chainActive))
    ⟨E.hashGenesisBlock, (hs.mem_ancestors_iff hx).mpr (hs.descends_genesis hx), by simpa using hs.genesis_mem⟩
  exact ⟨fork, below, by simpa [offChain] using hanc, of_decide_eq_true hfork, hfind⟩

lemma Consistent.onPath_fork (hs : Consistent E s) (hm : m ∈ s.mapBlockIndex)
    (hlinked : (s.index m).nChainTx ≠ 0) :
    s.chainActive = blocksToDisconnect s m ++ (Qstees.disconnectBlocks s (blocksToDisconnect s m).length).chainActive ∧
    OnPath (Qstees.disconnectBlocks s (blocksToDisconnect s m).length) (blocksToConnect s m) m := by
  obtain ⟨fork, below, hoff, hfork, hfindFork⟩ := hs.ancestors_split hm
  obtain ⟨fork', rest, hchain, hfork', _⟩ := exists_split (l := s.chainActive) (p := fun x => decide (x = fork))
    ⟨fork, hfork, by simp⟩
  obtain rfl : fork' = fork := of_decide_eq_true hfork'
  have hcut : s.chainActive = blocksToDisconnect s m ++ fork' :: rest := by
    have hsame : blocksToDisconnect s m = s.chainActive.takeWhile (fun x => !decide (x = fork')) := by
      unfold blocksToDisconnect
      rw [hfindFork]
      congr 1
      funext x
      simp [eq_comm]
    rw [hsame]
    exact hchain
  have hlength : min (blocksToDisconnect s m).length (s.chainActive.length - 1) = (blocksToDisconnect s m).length := by
    have hlen := congrArg List.length hcut
    simp only [length_append, length_cons] at hlen
    omega
  have hrest : (Qstees.disconnectBlocks s (blocksToDisconnect s m).length).chainActive = fork' :: rest := by
    simp only [Qstees.disconnectBlocks, hlength]
    conv_lhs => rw [hcut]
    simp
  have htip : (Qstees.disconnectBlocks s (blocksToDisconnect s m).length).tip = fork' := by
    rw [ChainState.tip, hrest, headD_cons]
  have hlinks : (s.ancestors m).IsChain (fun x p => prev s x = some p) := isChain_walk _ m
  refine ⟨by rw [hrest]; exact hcut, ?_⟩
  have hmem : ∀ x ∈ blocksToConnect s m, x ∈ s.ancestors m ∧ x ∉ s.chainActive := by
    intro x hx
    exact mem_offChain (mem_reverse.mp hx)
  have hnodup : (s.ancestors m).Nodup := (hs.ancestors_sorted hm).imp (fun h heq => by simp [heq] at h)
  refine ⟨?_, ?_, ?_, ?_, ?_⟩
  · rw [htip]
    rw [hoff] at hlinks
    exact isChain_reverse_path hlinks
  · rw [htip]
    obtain ⟨below', hbelow'⟩ := ancestors_cons s m
    rw [hbelow'] at hoff
    unfold blocksToConnect
    cases hpath : s.offChain m with
    | nil =>
      rw [hpath] at hoff
      have hm' := (List.cons.inj hoff).1
      simp [hm']
    | cons b path =>
      rw [hpath] at hoff
      have hm' := (List.cons.inj hoff).1
      simp [hm', getLast?_cons]
  · intro x hx
    have hdescends := (hs.mem_ancestors_iff hm).mp (hmem x hx).1
    exact ⟨hs.ranked.mem_of_descends hm hdescends, hs.linked_of_descends hm hlinked hdescends⟩
  · intro x hx hin
    exact (hmem x hx).2 (mem_of_mem_disconnectBlocks hin)
  · unfold blocksToConnect
    rw [nodup_reverse]
    exact hnodup.sublist (takeWhile_sublist _)

/-- `ConnectTip` followed by `PruneBlockIndexCandidates`. -/
abbrev connected (E : ChainEnv) (s : ChainState) (b : UInt256) : ChainState :=
  pruneBlockIndexCandidates E (connectTip s b)

lemma flags_connectTip (b : UInt256) : Flags s (connectTip s b) := by
  have h := Flags.setIndices s [b] (fun i => SameIndex.raiseValidity i BLOCK_VALID_SCRIPTS) (by simp)
  rw [← setIndex_eq] at h
  exact h.congr rfl rfl

lemma flags_connected (E : ChainEnv) (s : ChainState) (b : UInt256) : Flags s (connected E s b) :=
  (flags_connectTip b).congr rfl rfl

lemma mem_connected {b : UInt256} : x ∈ (connected E s b).setBlockIndexCandidates ↔
    x ∈ s.setBlockIndexCandidates ∧ workKey E s b ≤ workKey E s x := by
  have htip : (connectTip s b).tip = b := rfl
  have hcand : (connectTip s b).setBlockIndexCandidates = s.setBlockIndexCandidates := rfl
  simp only [connected, pruneBlockIndexCandidates, mem_filter, Bool.not_eq_true', workComparator_eq_false_iff, htip,
    hcand, (flags_connectTip b).workKey]

lemma Consistent.connected (hs : Consistent E s) {b : UInt256} {rest : List UInt256}
    (h : OnPath s (b :: rest) m) :
    Consistent E (connected E s b) ∧ OnPath (connected E s b) rest m := by
  have hsame := (flags_connected E s b).toSameTree
  have hchain : (Proofs.connected E s b).chainActive = b :: s.chainActive := rfl
  have htip : (Proofs.connected E s b).tip = b := rfl
  obtain ⟨hprev, hrest⟩ := isChain_cons_cons.mp h.links
  obtain ⟨hb, hlinked⟩ := h.known b mem_cons_self
  refine ⟨?_, ?_⟩
  · refine hs.transfer hsame ⟨?_, ?_, ?_, ?_⟩ (fun x hx => hs.candidates_linked x (mem_connected.mp hx).1)
      ?_ (fun e he => he)
    · rw [hchain, hs.chain_eq]
      refine isChain_cons_cons.mpr ⟨hprev, ?_⟩
      rw [← hs.chain_eq]
      exact hs.chain.links
    · rw [hchain, getLast?_cons_of_ne_nil hs.chain_ne_nil]
      exact hs.chain.last
    · exact forall_mem_cons.mpr ⟨hb, hs.chain.known⟩
    · exact forall_mem_cons.mpr ⟨hlinked, hs.chain.linked⟩
    · intro x hx hmem
      rcases mem_cons.mp hmem with rfl | hmem
      · rfl
      -- a block of the old chain is worse than the new tip and has been pruned
      have hkey := (mem_connected.mp hx).2
      have hwork := (hs.child hb hprev).work
      have hle : (s.index x).nChainWork ≤ (s.index s.tip).nChainWork := by
        by_cases hxt : x = s.tip
        · rw [hxt]
        · exact (hs.work_lt_tip hmem hxt).le
      exact absurd (work_le_of_workKey_le hkey) (by omega)
  · refine ⟨?_, ?_, ?_, ?_, (nodup_cons.mp h.nodup).2⟩
    · rw [htip]
      exact hrest.imp (fun p x hx => (hsame.pprev x).trans hx)
    · rw [htip]
      have hlast := h.last
      rw [getLast?_cons_cons] at hlast
      exact hlast
    · intro x hx
      rw [hsame.known, (hsame.index x).nChainTx]
      exact h.known x (mem_cons_of_mem _ hx)
    · intro x hx hmem
      rcases mem_cons.mp hmem with rfl | hmem
      · exact (nodup_cons.mp h.nodup).1 hx
      · exact h.off x (mem_cons_of_mem _ hx) hmem

lemma flags_invalidBlockFound (s : ChainState) (b : UInt256) : Flags s (invalidBlockFound s b) := by
  have h := Flags.setIndices s [b] SameIndex.setFailedValid (by simp)
  rw [← setIndex_eq] at h
  exact h.congr rfl rfl

lemma Consistent.invalidBlockFound (hs : Consistent E s) (b : UInt256) : Consistent E (invalidBlockFound s b) := by
  apply hs.reflag (flags_invalidBlockFound s b).toSameTree rfl
  · intro x hx
    exact mem_of_mem_filter hx
  · exact fun e he => he

variable {connectBlock : Verdict}

/-- The loop over the blocks to connect stops with some of them left, or at one that is refused. -/
theorem connectBlocks_induct {P : Nat → List UInt256 → ChainState → Prop}
    (hok : ∀ calls b rest s, P calls (b :: rest) s → connectBlock calls b = true → P (calls + 1) rest (connected E s b))
    (oldWork : Nat) {calls : Nat} (hs : P calls path s) :
    (∃ rest, (rest.length < path.length ∨ path = [] ∧ rest = []) ∧
      P (connectBlocks E connectBlock oldWork path calls s).calls rest
        (connectBlocks E connectBlock oldWork path calls s).state ∧
      (connectBlocks E connectBlock oldWork path calls s).fInvalidFound = false) ∨
    ∃ calls' b rest s', P calls' (b :: rest) s' ∧ connectBlock calls' b = false ∧
      connectBlocks E connectBlock oldWork path calls s = ⟨invalidBlockFound s' b, true, calls' + 1⟩ := by
  induction path generalizing calls s with
  | nil => exact .inl ⟨[], .inr ⟨rfl, rfl⟩, hs, rfl⟩
  | cons b rest ih =>
    by_cases hverdict : connectBlock calls b = true
    · have hnext := hok calls b rest s hs hverdict
      by_cases hbetter : ((connected E s b).index b).nChainWork > oldWork
      · have heq : connectBlocks E connectBlock oldWork (b :: rest) calls s = ⟨connected E s b, false, calls + 1⟩ := by
          simp only [connectBlocks, hverdict, if_true]
          exact if_pos hbetter
        rw [heq]
        exact .inl ⟨rest, .inl (Nat.lt_succ_self _), hnext, rfl⟩
      · have heq : connectBlocks E connectBlock oldWork (b :: rest) calls s =
            connectBlocks E connectBlock oldWork rest (calls + 1) (connected E s b) := by
          simp only [connectBlocks, hverdict, if_true]
          exact if_neg hbetter
        rw [heq]
        rcases ih hnext with ⟨left, hleft, hdone⟩ | hfailed
        · refine .inl ⟨left, .inl ?_, hdone⟩
          rcases hleft with hleft | ⟨_, rfl⟩
          · rw [length_cons]
            omega
          · exact Nat.succ_pos _
        · exact .inr hfailed
    · have heq : connectBlocks E connectBlock oldWork (b :: rest) calls s =
        ⟨invalidBlockFound s b, true, calls + 1⟩ := by
        simp only [connectBlocks, hverdict]
        rfl
      exact .inr ⟨calls, b, rest, s, hs, Bool.eq_false_iff.mpr hverdict, heq⟩

def Remembered (a : Activation) : Prop := ∀ m, a.pindexMostWork = some m → ∃ path, OnPath a.state path m

lemma Consistent.findMostWorkChain (hs : Consistent E s) : Consistent E (findMostWorkChain E s).2 ∧
    Flags s (findMostWorkChain E s).2 ∧ (findMostWorkChain E s).2.chainActive = s.chainActive ∧
    ∀ m, (findMostWorkChain E s).1 = some m → m ∈ (findMostWorkChain E s).2.setBlockIndexCandidates := by
  have h := findMostWorkChain_induct (E := E)
    (P := fun t => Consistent E t ∧ Flags s t ∧ t.chainActive = s.chainActive) (by
    intro t x y ⟨ht, hflags, hchain⟩ hbest hbad
    exact ⟨ht.dropChain (bestCandidate_spec hbest).1 hbad, hflags.trans (flags_dropChain t x y),
      (dropChain_chainActive t x y).trans hchain⟩) ⟨hs, Flags.refl s, rfl⟩
  obtain ⟨⟨hconsistent, hflags, hchain⟩, hbest, _⟩ := h
  refine ⟨hconsistent, hflags, hchain, ?_⟩
  intro m hm
  exact (bestCandidate_spec (hbest.trans hm)).1

lemma Consistent.target (hs : Consistent E a.state) : Consistent E (a.target E).2 ∧
    Flags a.state (a.target E).2 ∧ (a.target E).2.chainActive = a.state.chainActive ∧
    ∀ m, (a.target E).1 = some m → (a.pindexMostWork = some m ∧ (a.target E).2 = a.state) ∨
      m ∈ (a.target E).2.setBlockIndexCandidates := by
  unfold Activation.target
  cases hm : a.pindexMostWork with
  | none =>
    obtain ⟨hconsistent, hflags, hchain, hcand⟩ := hs.findMostWorkChain
    exact ⟨hconsistent, hflags, hchain, fun m h => .inr (hcand m h)⟩
  | some m => exact ⟨hs, Flags.refl _, rfl, fun m' h => .inl ⟨h, rfl⟩⟩

lemma Consistent.target_linked (hs : Consistent E a.state) (ha : Remembered a)
    (hm : (a.target E).1 = some m) (hne : m ≠ (a.target E).2.tip) :
    m ∈ (a.target E).2.mapBlockIndex ∧ ((a.target E).2.index m).nChainTx ≠ 0 := by
  obtain ⟨hconsistent, _, _, htarget⟩ := hs.target
  rcases htarget m hm with ⟨hmem, heq⟩ | hcand
  · obtain ⟨path, hpath⟩ := ha m hmem
    have hlast := hpath.last
    rw [← heq] at hpath hlast
    cases path with
    | nil => exact absurd (by simpa using hlast.symm) hne
    | cons b rest =>
      have hmem' : m ∈ b :: rest := by
        rw [getLast?_cons_cons] at hlast
        exact mem_of_getLast? hlast
      exact hpath.known m hmem'
  · exact hconsistent.candidates_linked m hcand

variable (connectBlock) in
/-- A round that works towards a block connects some of the blocks on the way, or stops at one that is
refused. -/
theorem round_induct {P : Nat → List UInt256 → ChainState → Prop}
    (hok : ∀ calls b rest s, P calls (b :: rest) s → connectBlock calls b = true → P (calls + 1) rest (connected E s b))
    (hm : (a.target E).1 = some m) (hne : m ≠ (a.target E).2.tip) (hs : P a.calls (blocksToConnect (a.target E).2 m)
      (disconnectBlocks (a.target E).2 (blocksToDisconnect (a.target E).2 m).length)) :
    (∃ calls rest t, P calls rest t ∧
      (rest.length < (blocksToConnect (a.target E).2 m).length ∨ blocksToConnect (a.target E).2 m = [] ∧ rest = []) ∧
      (t.tip = m ∧ a.round E connectBlock = ⟨t, none, calls, true⟩ ∨
        t.tip ≠ m ∧ a.round E connectBlock = ⟨t, some m, calls, false⟩)) ∨
    ∃ calls b rest t, P calls (b :: rest) t ∧ connectBlock calls b = false ∧
      a.round E connectBlock = ⟨invalidBlockFound t b, none, calls + 1, false⟩ := by
  have hround : a.round E connectBlock =
      let r := activateBestChainStep E connectBlock a.calls (a.target E).2 m
      if r.fInvalidFound then ⟨r.state, none, r.calls, false⟩
      else if r.state.tip = m then ⟨r.state, none, r.calls, true⟩
      else ⟨r.state, some m, r.calls, false⟩ := by
    unfold Activation.round
    cases htarget : a.target E with
    | mk m' t =>
      rw [htarget] at hm hne
      obtain rfl : m' = some m := hm
      exact if_neg hne
  rcases connectBlocks_induct hok ((a.target E).2.index (a.target E).2.tip).nChainWork hs with
    ⟨rest, hrest, hend, hvalid⟩ | ⟨calls, b, rest, t, ht, hverdict, heq⟩
  · refine .inl ⟨_, rest, _, hend, hrest, ?_⟩
    by_cases htip : (activateBestChainStep E connectBlock a.calls (a.target E).2 m).state.tip = m
    · refine .inl ⟨htip, ?_⟩
      rw [hround]
      dsimp only
      rw [if_neg (by rw [activateBestChainStep, hvalid]; exact Bool.false_ne_true), if_pos htip]
      rfl
    · refine .inr ⟨htip, ?_⟩
      rw [hround]
      dsimp only
      rw [if_neg (by rw [activateBestChainStep, hvalid]; exact Bool.false_ne_true), if_neg htip]
      rfl
  · refine .inr ⟨calls, b, rest, t, ht, hverdict, ?_⟩
    rw [hround, activateBestChainStep, heq]
    rfl

lemma round_idle (h : ∀ m, (a.target E).1 = some m → m = (a.target E).2.tip) :
    a.round E connectBlock = ⟨(a.target E).2, none, a.calls, true⟩ := by
  unfold Activation.round
  cases htarget : a.target E with
  | mk m' t =>
    rw [htarget] at h
    cases m' with
    | none => rfl
    | some m => exact if_pos (h m rfl)

variable (connectBlock) in
lemma Consistent.round (hs : Consistent E a.state) (ha : Remembered a) :
    Consistent E (a.round E connectBlock).state ∧ Flags a.state (a.round E connectBlock).state ∧
      Remembered (a.round E connectBlock) := by
  obtain ⟨hconsistent, hflags, hchain, _⟩ := hs.target
  by_cases hidle : ∀ m, (a.target E).1 = some m → m = (a.target E).2.tip
  · rw [round_idle hidle]
    exact ⟨hconsistent, hflags, fun m hm => by cases hm⟩
  push Not at hidle
  obtain ⟨m, hm, hne⟩ := hidle
  obtain ⟨hknown, hlinked⟩ := hs.target_linked ha hm hne
  obtain ⟨_, hpath⟩ := hconsistent.onPath_fork hknown hlinked
  have hfork := hconsistent.disconnectBlocks (blocksToDisconnect (a.target E).2 m).length
  have hstep := round_induct (E := E) connectBlock
    (P := fun _ path t => Consistent E t ∧ OnPath t path m ∧ Flags a.state t) (by
    intro calls b rest t ⟨ht, htpath, htflags⟩ _
    obtain ⟨hnext, hrest⟩ := ht.connected htpath
    exact ⟨hnext, hrest, htflags.trans (flags_connected E t b)⟩)
    hm hne ⟨hfork, hpath, hflags.congr rfl rfl⟩
  rcases hstep with ⟨calls, rest, t, ⟨ht, htpath, htflags⟩, _, ⟨_, heq⟩ | ⟨_, heq⟩⟩ |
    ⟨calls, b, rest, t, ⟨ht, _, htflags⟩, _, heq⟩
  · rw [heq]
    exact ⟨ht, htflags, fun m hm => by cases hm⟩
  · rw [heq]
    refine ⟨ht, htflags, ?_⟩
    intro m' hm'
    rw [← Option.some.inj hm']
    exact ⟨rest, htpath⟩
  · rw [heq]
    exact ⟨ht.invalidBlockFound b, htflags.trans (flags_invalidBlockFound t b), fun m hm => by cases hm⟩

end Qstees.Proofs
