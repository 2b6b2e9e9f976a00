import Qstees.Library.Runs
import Qstees.Proofs.BlockAcceptance

/-!
# How deep a reorganisation goes

The depth of a fork is looked at when the header of a block comes, and never again.
-/

namespace Qstees.Proofs

open ParentTree Runs List

variable {E : ChainEnv} {s t : ChainState}

lemma linkQueue_mapBlockIndex (fuel : Nat) (queue : List UInt256) (s : ChainState) :
    (linkQueue E fuel queue s).mapBlockIndex = s.mapBlockIndex := by
  induction fuel generalizing queue s with
  | zero => rfl
  | succ fuel ih =>
    cases queue with
    | nil => rfl
    | cons x queue => exact ih _ _

lemma receivedBlockTransactions_mapBlockIndex (s : ChainState) (x : UInt256) (nTx : Nat) :
    (receivedBlockTransactions E s x nTx).mapBlockIndex = s.mapBlockIndex := by
  unfold receivedBlockTransactions
  dsimp only
  split
  · exact linkQueue_mapBlockIndex _ _ _
  · split_ifs
    · exact linkQueue_mapBlockIndex _ _ _
    · rfl
    · rfl

variable {moment : HeaderMoment} {n : ChainNode} {block : CBlockHeader}

lemma mem_acceptBlockHeader (hs : Consistent E s) {x : UInt256}
    (hx : x ∈ (acceptBlockHeader E s block moment).2.mapBlockIndex) (hnew : x ∉ s.mapBlockIndex) :
    NewHeader E s block moment ∧
      ((acceptBlockHeader E s block moment).2.index x).nHeight = (s.index block.hashPrevBlock).nHeight + 1 := by
  rcases acceptBlockHeader_cases hs block moment with ⟨heq, _⟩ | ⟨hheader, heq⟩ | ⟨failedit, _, _, heq⟩
  · rw [heq] at hx
    exact absurd hx hnew
  · rw [heq] at hx ⊢
    rcases (mem_addToBlockIndex hheader).mp hx with rfl | hx
    · refine ⟨hheader, ?_⟩
      simp only [addToBlockIndex_new hheader, newIndex]
    · exact absurd hx hnew
  · rw [heq] at hx
    exact absurd hx hnew

lemma mem_acceptBlock (hs : Consistent E s) {block : BlockData} {fRequested : Bool} {x : UInt256}
    (hx : x ∈ (acceptBlock E s block moment fRequested).mapBlockIndex) (hnew : x ∉ s.mapBlockIndex) :
    NewHeader E s block.toCBlockHeader moment ∧
      ((acceptBlock E s block moment fRequested).index x).nHeight = (s.index block.hashPrevBlock).nHeight + 1 := by
  have hafter := (grows_acceptBlockHeader hs block.toCBlockHeader moment).1
  rcases acceptBlock_cases hs block moment fRequested with heq | ⟨hknown, hvalid, hdata, ⟨hpos, heq⟩ | heq⟩
  · rw [heq] at hx ⊢
    exact mem_acceptBlockHeader hs hx hnew
  · rw [heq] at hx ⊢
    rw [receivedBlockTransactions_mapBlockIndex] at hx
    obtain ⟨hheader, hheight⟩ := mem_acceptBlockHeader hs hx hnew
    have hgrows := (grows_receivedBlockTransactions hvalid hafter hknown hdata hpos).2
    exact ⟨hheader, (congrArg HeaderIndex.nHeight (hgrows.header x hx)).trans hheight⟩
  · rw [heq] at hx ⊢
    obtain ⟨hheader, hheight⟩ := mem_acceptBlockHeader hs hx hnew
    exact ⟨hheader, ((SameTree.setIndex _ block.hash SameIndex.setFailedValid).nHeight x).trans hheight⟩

/-- The depth rule applies: enough peers, no initial download. -/
def Gated (E : ChainEnv) : ChainAction → Prop
  | .header _ moment => moment.nodeCount > E.nMinReorgPeers ∧ moment.initialBlockDownload = false
  | .block _ moment _ => moment.nodeCount > E.nMinReorgPeers ∧ moment.initialBlockDownload = false
  | .activate _ => True

def AcceptedAt (E : ChainEnv) (x : UInt256) (e : ChainNode × ChainAction) : Prop :=
  x ∉ e.1.chain.mapBlockIndex ∧ x ∈ (e.1.step E e.2).chain.mapBlockIndex

lemma NewHeader.depth_lt (h : NewHeader E s block moment)
    (hpeers : moment.nodeCount > E.nMinReorgPeers)
    (hdownload : moment.initialBlockDownload = false) :
    s.height - (s.index block.hashPrevBlock).nHeight < E.nMaxReorgDepth := by
  have hcontext := h.context
  simp only [contextualCheckBlockHeader, fGreaterThanMaxReorg, hpeers, hdownload, decide_true,
    Bool.and_true, Bool.not_false, Bool.not_eq_true', decide_eq_false_iff_not] at hcontext
  omega

/-- Every block but the first was accepted at some step, close enough to the tip of that time. -/
structure History (E : ChainEnv) (past : List (ChainNode × ChainAction)) (n : ChainNode) : Prop where
  consistent : Consistent E n.chain
  remembered : Remembered n.activation
  accepted : ∀ x ∈ n.chain.mapBlockIndex, x ≠ E.hashGenesisBlock → ∃ e ∈ past, AcceptedAt E x e ∧
    e.1.chain.height + 1 - (n.chain.index x).nHeight < E.nMaxReorgDepth

variable {past : List (ChainNode × ChainAction)}

lemma History.extend (h : History E past n) (action : ChainAction)
    (hconsistent : Consistent E (n.step E action).chain) (hremembered : Remembered (n.step E action).activation)
    (hheader : ∀ x ∈ n.chain.mapBlockIndex,
      ((n.step E action).chain.index x).toHeaderIndex = (n.chain.index x).toHeaderIndex)
    (hnew : ∀ x ∈ (n.step E action).chain.mapBlockIndex, x ∉ n.chain.mapBlockIndex →
      n.chain.height + 1 - ((n.step E action).chain.index x).nHeight < E.nMaxReorgDepth) :
    History E (past ++ [(n, action)]) (n.step E action) := by
  refine ⟨hconsistent, hremembered, ?_⟩
  intro x hx hne
  by_cases hold : x ∈ n.chain.mapBlockIndex
  · obtain ⟨e, he, hat, hdepth⟩ := h.accepted x hold hne
    refine ⟨e, mem_append_left _ he, hat, ?_⟩
    rw [congrArg HeaderIndex.nHeight (hheader x hold)]
    exact hdepth
  · exact ⟨(n, action), mem_append_right _ mem_cons_self, ⟨hold, hx⟩, hnew x hx hold⟩

lemma History.grow (h : History E past n) (action : ChainAction)
    (hpeers : moment.nodeCount > E.nMinReorgPeers) (hdownload : moment.initialBlockDownload = false)
    (hstep : n.step E action = ⟨t, n.pindexMostWork⟩) (ht : Consistent E t ∧ Grows n.chain t)
    (hnew : ∀ x ∈ t.mapBlockIndex, x ∉ n.chain.mapBlockIndex → NewHeader E n.chain block moment ∧
      (t.index x).nHeight = (n.chain.index block.hashPrevBlock).nHeight + 1) :
    History E (past ++ [(n, action)]) (n.step E action) := by
  have hremembered : Remembered (ChainNode.activation ⟨t, n.pindexMostWork⟩) := by
    intro m hm
    obtain ⟨path, hpath⟩ := h.remembered m hm
    exact ⟨path, ht.2.onPath hpath⟩
  rw [← hstep] at hremembered
  have hchain : (n.step E action).chain = t := by rw [hstep]
  refine h.extend action (by rw [hchain]; exact ht.1) hremembered (by rw [hchain]; exact ht.2.header) ?_
  rw [hchain]
  intro x hx hfresh
  obtain ⟨hheader, hheight⟩ := hnew x hx hfresh
  have hdepth := hheader.depth_lt hpeers hdownload
  rw [hheight]
  push_cast
  omega

lemma history_step {action : ChainAction}
    (h : History E past n) (hgated : Gated E action) :
    History E (past ++ [(n, action)]) (n.step E action) := by
  cases action with
  | header block moment =>
    exact h.grow _ hgated.1 hgated.2 rfl (grows_acceptBlockHeader h.consistent block moment)
      (fun x => mem_acceptBlockHeader h.consistent)
  | block block moment fRequested =>
    exact h.grow _ hgated.1 hgated.2 rfl (grows_acceptBlock h.consistent block moment fRequested)
      (fun x => mem_acceptBlock h.consistent)
  | activate connectBlock =>
    obtain ⟨hconsistent, hsame, hremembered⟩ := Consistent.round connectBlock (a := n.activation) h.consistent
      h.remembered
    apply h.extend (.activate connectBlock) hconsistent hremembered (fun x _ => (hsame.index x).header)
    intro x hx hnew
    have hmap : (n.step E (.activate connectBlock)).chain.mapBlockIndex = n.chain.mapBlockIndex := hsame.known
    rw [hmap] at hx
    exact absurd hx hnew

lemma history_run {actions : List ChainAction} (hgated : ∀ action ∈ actions, Gated E action) :
    History E (trace (ChainNode.step E) (genesisNode E) actions) (run (ChainNode.step E) (genesisNode E) actions) := by
  have hstart : History E [] (genesisNode E) := by
    refine ⟨consistent_genesisState E, ?_, ?_⟩
    · intro m hm
      cases hm
    · intro x hx hne
      exact absurd (mem_singleton.mp hx) hne
  have hstep : ∀ past n action, History E past n → Gated E action →
      History E (past ++ [(n, action)]) (ChainNode.step E n action) :=
    fun past n action h hgood => history_step h hgood
  have h := invariant_history hstep hstart (fun p hp => hgated p.2 (mem_of_mem_trace hp))
  simpa using h

lemma depth_of_step (hs : Consistent E s) {m : UInt256} (hm : m ∈ s.setBlockIndexCandidates) (hne : m ≠ s.tip) :
    ∃ c, (blocksToConnect s m).head? = some c ∧ c ∈ s.mapBlockIndex ∧ c ≠ E.hashGenesisBlock ∧
      ((blocksToDisconnect s m).length : Int) = s.height + 1 - (s.index c).nHeight := by
  obtain ⟨hknown, hlinked⟩ := hs.candidates_linked m hm
  have hoff : m ∉ s.chainActive := fun hmem => hne (hs.candidates_tip m hm hmem)
  obtain ⟨hcut, hpath⟩ := hs.onPath_fork hknown hlinked
  obtain ⟨above, habove⟩ := offChain_cons hoff
  have hsome : blocksToConnect s m ≠ [] := by
    rw [blocksToConnect, habove]
    simp
  obtain ⟨c, rest, hc⟩ := exists_cons_of_ne_nil hsome
  rw [hc] at hpath
  obtain ⟨hfork, _⟩ := isChain_cons_cons.mp hpath.links
  have hcKnown := (hpath.known c mem_cons_self).1
  refine ⟨c, ?_, hcKnown, ?_, ?_⟩
  · rw [hc, head?_cons]
  · rintro rfl
    exact absurd (hs.genesis_root.symm.trans hfork) (by simp)
  -- the fork stands right below the disconnected blocks
  have hdisconnected := hs.disconnectBlocks (blocksToDisconnect s m).length
  have hget : s.chainActive[(blocksToDisconnect s m).length]? =
      some (disconnectBlocks s (blocksToDisconnect s m).length).tip := by
    conv_lhs => rw [hcut, hdisconnected.chain_eq]
    simp
  have hforkHeight := hs.chain_getElem? hget
  have hheight := (hs.child hcKnown hfork).height
  unfold ChainState.height
  omega

/-- A step that disconnects blocks adopts a branch whose first header was accepted earlier; it goes at
most as deep as the rule allowed then, and by the growth of the active chain since. -/
theorem reorgDepth_run (E : ChainEnv) (actions : List ChainAction) (hgated : ∀ action ∈ actions, Gated E action)
    (hreorg : ((run (ChainNode.step E) (genesisNode E) actions).nextStep E).1 ≠ []) :
    ∃ c, ((run (ChainNode.step E) (genesisNode E) actions).nextStep E).2.head? = some c ∧
      ∃ e ∈ trace (ChainNode.step E) (genesisNode E) actions, AcceptedAt E c e ∧
        (((run (ChainNode.step E) (genesisNode E) actions).nextStep E).1.length : Int) <
          E.nMaxReorgDepth + ((run (ChainNode.step E) (genesisNode E) actions).chain.height - e.1.chain.height) := by
  have h := history_run hgated
  generalize run (ChainNode.step E) (genesisNode E) actions = n at h hreorg ⊢
  obtain ⟨hconsistent, hsame, hchain, htarget⟩ := Consistent.target (a := n.activation) h.consistent
  have hheight : (n.activation.target E).2.height = n.chain.height := by
    rw [ChainState.height, ChainState.height, hchain]
    rfl
  unfold ChainNode.nextStep at hreorg ⊢
  cases hn : n.activation.target E with
  | mk target s =>
    rw [hn] at hreorg hconsistent hsame htarget hheight
    cases target with
    | none => exact absurd rfl hreorg
    | some m =>
      by_cases hne : m = s.tip
      · simp only [hne, if_true] at hreorg
        exact absurd rfl hreorg
      simp only [hne, if_false] at hreorg ⊢
      rcases htarget m rfl with ⟨hmem, heq⟩ | hcand
      · -- a remembered target is ahead of the tip
        obtain ⟨path, hpath⟩ := h.remembered m hmem
        rw [← heq] at hpath
        exact absurd (hpath.blocks hconsistent).1 hreorg
      · obtain ⟨c, hc, hknown, hgenesis, hdepth⟩ := depth_of_step hconsistent hcand hne
        have hknown' : c ∈ n.chain.mapBlockIndex := by
          rw [hsame.known] at hknown
          exact hknown
        obtain ⟨e, he, hat, hbound⟩ := h.accepted c hknown' hgenesis
        refine ⟨c, hc, e, he, hat, ?_⟩
        have hcHeight : (s.index c).nHeight = (n.chain.index c).nHeight := hsame.nHeight c
        rw [hdepth, hcHeight, hheight]
        omega

def shallowEnv : ChainEnv where
  hashGenesisBlock := 0
  nGenesisProof := 1
  nMaxReorgDepth := 1
  nMinReorgPeers := 3
  nMinimumChainWork := 0
  address := id
  address_inj := Function.injective_id

def connectedMoment : HeaderMoment := ⟨4, false, true⟩

/-- Two branches grow side by side: 11 and 12 are activated, then the data of 21, 22 and 23 comes. -/
def sideBySide : List ChainAction :=
  let header (hash prev : UInt256) : ChainAction := .header ⟨hash, prev, 1⟩ connectedMoment
  let block (hash prev : UInt256) : ChainAction := .block ⟨⟨hash, prev, 1⟩, 1, .ok⟩ connectedMoment true
  let activate : ChainAction := .activate (fun _ _ => true)
  [header 11 0, header 21 0, block 11 0, activate, header 12 11, header 22 21, block 12 11, activate, header 23 22,
    block 21 0, block 22 21, block 23 22]

lemma gated_sideBySide : ∀ action ∈ sideBySide, Gated shallowEnv action := by
  intro action h
  simp only [sideBySide, mem_cons, not_mem_nil, or_false] at h
  rcases h with rfl | rfl | rfl | rfl | rfl | rfl | rfl | rfl | rfl | rfl | rfl | rfl
  all_goals first
    | exact trivial
    | exact ⟨by decide, rfl⟩

theorem reorgDepth_run_sideBySide :
    ∃ c, ((run (ChainNode.step shallowEnv) (genesisNode shallowEnv) sideBySide).nextStep shallowEnv).2.head? = some c ∧
      ∃ e ∈ trace (ChainNode.step shallowEnv) (genesisNode shallowEnv) sideBySide, AcceptedAt shallowEnv c e ∧
        (((run (ChainNode.step shallowEnv) (genesisNode shallowEnv) sideBySide).nextStep shallowEnv).1.length : Int) <
          1 + ((run (ChainNode.step shallowEnv) (genesisNode shallowEnv) sideBySide).chain.height - e.1.chain.height) :=
  reorgDepth_run shallowEnv sideBySide gated_sideBySide (by decide +kernel)

/-- Blocks accepted side by side make a deep reorganisation. -/
theorem sideBySide_tooDeep : (∀ action ∈ sideBySide, Gated shallowEnv action) ∧
    shallowEnv.nMaxReorgDepth <
      ((run (ChainNode.step shallowEnv) (genesisNode shallowEnv) sideBySide).nextStep shallowEnv).1.length :=
  ⟨gated_sideBySide, by decide +kernel⟩

end Qstees.Proofs
