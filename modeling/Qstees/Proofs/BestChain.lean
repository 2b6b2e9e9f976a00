import Qstees.Library.Runs
import Qstees.Proofs.Candidates

/-!
# Activating the best chain

While `ActivateBestChain` runs, some block that was active before, or that has been connected since, stays a candidate
together with everything better.
-/

namespace Qstees.Proofs

open ParentTree Runs List ChainState

variable {E : ChainEnv} {s t : ChainState} {connectBlock : Verdict} {chain : List UInt256} {calls : Nat}

/-- A block that was active when the operation began, or that an earlier call accepted. -/
def Trusted (connectBlock : Verdict) (chain : List UInt256) (calls : Nat) (x : UInt256) : Prop :=
  x ∈ chain ∨ ∃ i < calls, connectBlock i x = true

/-- `ConnectBlock` does not refuse what was active when the operation began, nor what it accepted during
the operation. -/
def Steady (connectBlock : Verdict) (chain : List UInt256) : Prop :=
  ∀ calls x, Trusted connectBlock chain calls x → connectBlock calls x = true

variable {x b : UInt256} {a : Activation}

lemma Trusted.mono (h : Trusted connectBlock chain calls x) :
    Trusted connectBlock chain (calls + 1) x := by
  rcases h with hx | ⟨i, hi, hx⟩
  · exact .inl hx
  · exact .inr ⟨i, Nat.lt_succ_of_lt hi, hx⟩

/-- A block to fall back on: its chain is trusted, and all that is as good is a candidate. -/
structure Anchored (E : ChainEnv) (connectBlock : Verdict) (chain : List UInt256) (calls : Nat) (s : ChainState)
    (base : UInt256) : Prop where
  known : base ∈ s.mapBlockIndex
  linked : (s.index base).nChainTx ≠ 0
  trusted : ∀ y, Descends (prev s) base y → (s.index y).failed = false ∧ Trusted connectBlock chain calls y
  offered : Offered E s base

lemma Anchored.valid {base : UInt256} (h : Anchored E connectBlock chain calls s base) :
    (s.index base).failed = false :=
  (h.trusted base Relation.ReflTransGen.refl).1

lemma Anchored.mem {base : UInt256} (h : Anchored E connectBlock chain calls s base) :
    base ∈ s.setBlockIndexCandidates :=
  h.offered base h.known h.valid h.linked le_rfl

structure Underway (E : ChainEnv) (connectBlock : Verdict) (chain : List UInt256) (calls : Nat) (s : ChainState) : Prop
    extends Orderly E [] s where
  chain_trusted : ∀ x ∈ s.chainActive, Trusted connectBlock chain calls x
  anchored : ∃ base, Anchored E connectBlock chain calls s base

lemma SameTree.descends_iff (h : SameTree s t) (x y : UInt256) : Descends (prev t) x y ↔ Descends (prev s) x y := by
  have hprev : prev t = prev s := funext h.pprev
  rw [hprev]

lemma Underway.disconnectBlocks (h : Underway E connectBlock chain calls s) (n : Nat) :
    Underway E connectBlock chain calls (disconnectBlocks s n) := by
  obtain ⟨base, hbase⟩ := h.anchored
  exact ⟨⟨h.consistent.disconnectBlocks n, fun x hx => h.chain_valid x (mem_of_mem_disconnectBlocks hx),
    h.failed_blocks,
    h.waiting⟩, fun x hx => h.chain_trusted x (mem_of_mem_disconnectBlocks hx), base, hbase.known, hbase.linked,
    hbase.trusted, hbase.offered⟩

lemma Rewound.underway (h : Rewound E chain s) : Underway E connectBlock chain 0 s := by
  obtain ⟨t, n, ht, hchain, rfl⟩ := h
  have htip := ht.consistent.tip_mem
  have hstart : Underway E connectBlock chain 0 t := by
    refine ⟨ht.toOrderly, fun x hx => .inl (hchain x hx), t.tip, ht.consistent.chain.known _ htip,
      ht.consistent.chain.linked _ htip, ?_, ht.offered⟩
    intro y hy
    have hmem := ht.consistent.chain_descends htip hy
    exact ⟨ht.chain_valid y hmem, .inl (hchain y hmem)⟩
  exact hstart.disconnectBlocks n

lemma Underway.succ (h : Underway E connectBlock chain calls s) : Underway E connectBlock chain (calls + 1) s := by
  obtain ⟨base, hbase⟩ := h.anchored
  refine ⟨h.toOrderly, fun x hx => (h.chain_trusted x hx).mono, base, hbase.known, hbase.linked, ?_, hbase.offered⟩
  intro y hy
  exact ⟨(hbase.trusted y hy).1, (hbase.trusted y hy).2.mono⟩

lemma Underway.flag (h : Underway E connectBlock chain calls s) (hflags : Flags s t) (hconsistent : Consistent E t)
    (hchain : t.chainActive = s.chainActive) (hunlinked : t.mapBlocksUnlinked = s.mapBlocksUnlinked) {xs : List UInt256}
    (hindex : ∀ x ∉ xs, t.index x = s.index x) (hactive : ∀ x ∈ xs, x ∉ s.chainActive)
    (hlist : ∀ x ∈ t.m_failed_blocks, x ∈ s.m_failed_blocks ∨ x ∈ t.mapBlockIndex ∧ (t.index x).failed = true)
    (hkeep : ∀ x ∈ s.setBlockIndexCandidates, (t.index x).failed = false → x ∈ t.setBlockIndexCandidates)
    (hanchor : ∀ base, Anchored E connectBlock chain calls s base → ∀ x ∈ xs, ¬Descends (prev s) base x) :
    Underway E connectBlock chain calls t := by
  obtain ⟨base, hbase⟩ := h.anchored
  have hvalid : ∀ x ∈ t.chainActive, (t.index x).failed = false := by
    intro x hx
    rw [hchain] at hx
    rw [hindex x (fun hmem => hactive x hmem hx)]
    exact h.chain_valid x hx
  refine ⟨h.transfer hconsistent hflags hvalid hlist hunlinked, ?_, base, hflags.extends.known _ hbase.known,
    hflags.extends.linked _ hbase.known hbase.linked, ?_, ?_⟩
  · rw [hchain]
    exact h.chain_trusted
  · intro y hy
    have hy' := (hflags.descends_iff base y).mp hy
    rw [hindex y (fun hmem => hanchor base hbase y hmem hy')]
    exact hbase.trusted y hy'
  · exact hbase.offered.transfer hflags le_rfl (fun x hx hvalid _ => hkeep x hx hvalid)

lemma Underway.dropChain (h : Underway E connectBlock chain calls s) {y : UInt256}
    (hx : x ∈ s.setBlockIndexCandidates) (hbad : firstUnusable s x = some y) :
    Underway E connectBlock chain calls (dropChain s x y) := by
  obtain ⟨hknown, hlinked⟩ := h.consistent.candidates_linked x hx
  obtain ⟨hy, hfailed⟩ := firstUnusable_spec h.consistent hknown hlinked hbad
  have heq := dropChain_eq (x := x) hfailed
  have hflags := flags_dropChain s x y
  apply h.flag hflags (h.consistent.dropChain hx hbad) (dropChain_chainActive s x y)
  · rw [heq]
    rfl
  · intro z hz
    rw [heq]
    exact index_setIndices_of_notMem _ hz
  · intro z hz
    exact (mem_offChain ((takeWhile_sublist _).subset hz)).2
  · rw [heq]
    exact fun z => .inl
  · intro z hz hvalid
    refine mem_dropChain.mpr ⟨hz, ?_⟩
    intro hmem
    apply Bool.eq_false_iff.mp hvalid
    rcases mem_cons.mp hmem with rfl | hmem
    · exact hflags.failed z hfailed
    · rw [heq]
      exact failed_setIndices_of_mem failed_setFailedChild hmem
  · intro base hbase z hz hdescends
    have hvalid := (hbase.trusted y (hdescends.trans (descends_of_mem_takeWhile hy hz))).1
    exact Bool.eq_false_iff.mp hvalid hfailed

lemma invalidBlockFound_failed : ((invalidBlockFound s b).index b).failed = true := by
  simp [invalidBlockFound, setIndex, eraseCandidates]

lemma Underway.invalidBlockFound (h : Underway E connectBlock chain calls s)
    (hsteady : Steady connectBlock chain) (hknown : b ∈ s.mapBlockIndex)
    (hverdict : connectBlock calls b = false) :
    Underway E connectBlock chain calls (invalidBlockFound s b) := by
  have hnot : ∀ x ∈ [b], ¬Trusted connectBlock chain calls x := by
    intro x hx htrusted
    rw [mem_singleton.mp hx] at htrusted
    exact Bool.eq_false_iff.mp hverdict (hsteady calls b htrusted)
  have hindex : ∀ x ∉ [b], (Qstees.invalidBlockFound s b).index x = s.index x := fun x hx => if_neg (by simpa using hx)
  apply h.flag (flags_invalidBlockFound s b) (h.consistent.invalidBlockFound b) rfl rfl hindex
  · exact fun x hx hmem => hnot x hx (h.chain_trusted x hmem)
  · intro x hx
    rcases mem_cons.mp hx with rfl | hx
    · exact .inr ⟨hknown, invalidBlockFound_failed⟩
    · exact .inl hx
  · intro x hx hvalid
    refine mem_filter.mpr ⟨hx, ?_⟩
    have hne : x ≠ b := by
      rintro rfl
      exact Bool.eq_false_iff.mp hvalid (invalidBlockFound_failed)
    simpa using hne
  · exact fun base hbase x hx hdescends => hnot x hx (hbase.trusted x hdescends).2

lemma connected_failed (E : ChainEnv) (s : ChainState) (b x : UInt256) :
    ((connected E s b).index x).failed = (s.index x).failed := by
  have hindex : (connected E s b).index x = (s.setIndex b (CBlockIndex.raiseValidity · BLOCK_VALID_SCRIPTS)).index x :=
    rfl
  rw [hindex, setIndex_eq]
  by_cases hx : x ∈ [b]
  · simp only [setIndices, hx, if_true, failed_raiseValidity]
  · rw [index_setIndices_of_notMem _ hx]

lemma Underway.connected (h : Underway E connectBlock chain calls s) {m : UInt256}
    {rest : List UInt256} (hpath : OnPath s (b :: rest) m) (hvalid : (s.index b).failed = false)
    (hverdict : connectBlock calls b = true) :
    Underway E connectBlock chain (calls + 1) (connected E s b) := by
  have hflags := flags_connected E s b
  have hconsistent := (h.consistent.connected hpath).1
  have hfailed := connected_failed E s b
  obtain ⟨hprev, _⟩ := isChain_cons_cons.mp hpath.links
  have hchain : ∀ x ∈ (Proofs.connected E s b).chainActive, ((Proofs.connected E s b).index x).failed = false ∧
      Trusted connectBlock chain (calls + 1) x := by
    intro x hx
    rw [hfailed]
    rcases mem_cons.mp hx with rfl | hx
    · exact ⟨hvalid, .inr ⟨calls, Nat.lt_succ_self _, hverdict⟩⟩
    · exact ⟨h.chain_valid x hx, (h.chain_trusted x hx).mono⟩
  obtain ⟨base, hbase⟩ := h.anchored
  refine ⟨h.transfer hconsistent hflags (fun x hx => (hchain x hx).1) (fun _ => .inl) rfl,
    fun x hx => (hchain x hx).2, ?_⟩
  have hoffered : ∀ anchor, workKey E s base ≤ workKey E s anchor → workKey E s b ≤ workKey E s anchor →
      Offered E (Proofs.connected E s b) anchor := by
    intro anchor hanchor hb
    exact hbase.offered.transfer hflags hanchor (fun x hx _ hkey => mem_connected.mpr ⟨hx, hb.trans hkey⟩)
  rcases le_total (workKey E s base) (workKey E s b) with hle | hle
  · refine ⟨b, ?_, ?_, ?_, hoffered b hle le_rfl⟩
    · exact (hpath.known b mem_cons_self).1
    · rw [(hflags.index b).nChainTx]
      exact (hpath.known b mem_cons_self).2
    · intro y hy
      exact hchain y (hconsistent.chain_descends hconsistent.tip_mem hy)
  · refine ⟨base, hbase.known, ?_, ?_, hoffered base le_rfl hle⟩
    · rw [(hflags.index base).nChainTx]
      exact hbase.linked
    · intro y hy
      obtain ⟨hyvalid, hytrusted⟩ := hbase.trusted y ((hflags.descends_iff base y).mp hy)
      rw [hfailed]
      exact ⟨hyvalid, hytrusted.mono⟩

lemma Consistent.workKey_le_of_mem_ancestors (hs : Consistent E s) {y : UInt256}
    (hx : x ∈ s.mapBlockIndex) (hy : y ∈ s.ancestors x) : workKey E s y ≤ workKey E s x := by
  have hsorted := hs.ancestors_sorted hx
  obtain ⟨rest, hrest⟩ := ancestors_cons s x
  rw [hrest] at hsorted hy
  rcases mem_cons.mp hy with rfl | hy
  · exact le_rfl
  · exact (workKey_lt_of_work_lt ((pairwise_cons.mp hsorted).1 y hy)).le

structure Aimed (E : ChainEnv) (s : ChainState) (m : UInt256) (path : List UInt256) : Prop where
  onPath : OnPath s path m
  valid : ∀ x ∈ path, (s.index x).failed = false
  mem : m ∈ s.setBlockIndexCandidates
  best : ∀ x ∈ s.setBlockIndexCandidates, workKey E s x ≤ workKey E s m

lemma Aimed.connected (hs : Consistent E s) {m : UInt256} {rest : List UInt256}
    (h : Aimed E s m (b :: rest)) : Aimed E (connected E s b) m rest := by
  have hflags := flags_connected E s b
  have hancestor : b ∈ s.ancestors m := by
    rw [hs.ancestors_of_path h.onPath.links h.onPath.last (fun x hx => (h.onPath.known x hx).1)]
    simp
  have hb := hs.workKey_le_of_mem_ancestors (hs.candidates_linked m h.mem).1 hancestor
  refine ⟨(hs.connected h.onPath).2, ?_, mem_connected.mpr ⟨h.mem, hb⟩, ?_⟩
  · intro x hx
    rw [connected_failed]
    exact h.valid x (mem_cons_of_mem _ hx)
  · intro x hx
    rw [hflags.workKey, hflags.workKey]
    exact h.best x (mem_connected.mp hx).1

def unflaggedCount (s : ChainState) : Nat := (s.mapBlockIndex.filter (fun x => !(s.index x).failed)).length

lemma unflagged_eq (h : Flags s t) :
    t.mapBlockIndex.filter (fun x => !(t.index x).failed) =
      (s.mapBlockIndex.filter (fun x => !(s.index x).failed)).filter (fun x => !(t.index x).failed) := by
  rw [filter_filter, h.known]
  apply filter_congr
  intro x _
  cases hs : (s.index x).failed with
  | false => simp
  | true => simp [h.failed x hs]

lemma unflaggedCount_le (h : Flags s t) :
    unflaggedCount t ≤ unflaggedCount s := by
  unfold unflaggedCount
  rw [unflagged_eq h]
  exact length_filter_le _ _

lemma unflaggedCount_lt (h : Flags s t) (hb : b ∈ s.mapBlockIndex) (hvalid : (s.index b).failed = false)
    (hnew : (t.index b).failed = true) : unflaggedCount t < unflaggedCount s := by
  unfold unflaggedCount
  rw [unflagged_eq h]
  apply length_filter_lt_length_iff_exists.mpr
  exact ⟨b, mem_filter.mpr ⟨hb, by simp [hvalid]⟩, by simp [hnew]⟩

lemma walk_length_le (parent : UInt256 → Option UInt256) (n : Nat) (x : UInt256) : (walk parent n x).length ≤ n := by
  induction n generalizing x with
  | zero => exact le_rfl
  | succ n ih =>
    rw [walk_succ, length_cons]
    cases parent x with
    | none => exact Nat.succ_le_succ (Nat.zero_le n)
    | some p => exact Nat.succ_le_succ (ih p)

lemma Consistent.offChain_length_le (hs : Consistent E s) (hx : x ∈ s.mapBlockIndex) :
    (s.offChain x).length ≤ (s.index x).nHeight := by
  obtain ⟨fork, below, hanc, _, _⟩ := hs.ancestors_split hx
  have hlength := congrArg List.length hanc
  have hle : (s.ancestors x).length ≤ (s.index x).nHeight + 1 := walk_length_le _ _ _
  simp only [length_append, length_cons] at hlength
  omega

/-- The target of a round is the best candidate, with a clean way to it. -/
structure Target (E : ChainEnv) (connectBlock : Verdict) (chain : List UInt256) (a : Activation)
    (m : UInt256) : Prop where
  found : (a.target E).1 = some m
  underway : Underway E connectBlock chain a.calls (a.target E).2
  flags : Flags a.state (a.target E).2
  mem : m ∈ (a.target E).2.setBlockIndexCandidates
  best : ∀ x ∈ (a.target E).2.setBlockIndexCandidates, workKey E (a.target E).2 x ≤ workKey E (a.target E).2 m
  valid : ∀ x ∈ (a.target E).2.offChain m, ((a.target E).2.index x).failed = false

lemma Underway.target_fresh (h : Underway E connectBlock chain a.calls a.state)
    (ha : a.pindexMostWork = none) : ∃ m, Target E connectBlock chain a m := by
  have htarget : a.target E = findMostWorkChain E a.state := by
    rw [Activation.target, ha]
  obtain ⟨hunderway, hbest, husable⟩ := findMostWorkChain_induct (E := E) (s := a.state)
    (P := Underway E connectBlock chain a.calls)
    (fun t x y ht hx hy => ht.dropChain (bestCandidate_spec hx).1 hy) h
  rw [← htarget] at hunderway hbest husable
  obtain ⟨base, hbase⟩ := hunderway.anchored
  cases hm : (a.target E).1 with
  | none =>
    -- the anchor is a candidate
    rw [hm] at hbest
    have hmem := hbase.mem
    rw [bestCandidate_eq_none hbest] at hmem
    cases hmem
  | some m =>
    rw [hm] at hbest
    obtain ⟨hmem, hmax⟩ := bestCandidate_spec hbest
    refine ⟨m, hm, hunderway, h.consistent.target.2.1, hmem, hmax, ?_⟩
    intro x hx
    have hnone := find?_eq_none.mp (husable m hm) x hx
    apply Bool.eq_false_iff.mpr
    intro hfail
    exact hnone (by simp [hfail])

lemma Underway.target (h : Underway E connectBlock chain a.calls a.state)
    (ha : ∀ m, a.pindexMostWork = some m → ∃ path, Aimed E a.state m path) :
    ∃ m, Target E connectBlock chain a m := by
  cases hm : a.pindexMostWork with
  | none => exact h.target_fresh hm
  | some m =>
    have htarget : a.target E = (some m, a.state) := by
      rw [Activation.target, hm]
    obtain ⟨path, haim⟩ := ha m hm
    refine ⟨m, ?_⟩
    constructor
    all_goals rw [htarget]
    · exact h
    · exact Flags.refl _
    · exact haim.mem
    · exact haim.best
    · intro x hx
      rw [(haim.onPath.offChain_eq h.consistent).1, mem_reverse] at hx
      exact haim.valid x hx

structure Activated (E : ChainEnv) (s : ChainState) : Prop extends Based E s where
  tip_candidate : s.tip ∈ s.setBlockIndexCandidates
  tip_best : ∀ x ∈ s.setBlockIndexCandidates, workKey E s x ≤ workKey E s s.tip

lemma Underway.activated (h : Underway E connectBlock chain calls s) (hmem : s.tip ∈ s.setBlockIndexCandidates)
    (hbest : ∀ x ∈ s.setBlockIndexCandidates, workKey E s x ≤ workKey E s s.tip) : Activated E s := by
  obtain ⟨base, hbase⟩ := h.anchored
  refine ⟨⟨h.toOrderly, ?_⟩, hmem, hbest⟩
  intro x hx hvalid hlinked hkey
  exact hbase.offered x hx hvalid hlinked ((hbest base hbase.mem).trans hkey)

/-- How many rounds the loop can still take: no more blocks can fail than have no flag, and between two
failures the target comes closer. -/
def rank (top : Nat) (a : Activation) : Nat :=
  unflaggedCount a.state * (top + 3) + a.pindexMostWork.elim (top + 2) (fun m => (a.state.offChain m).length + 1)

lemma Underway.round (hsteady : Steady connectBlock chain)
    (h : Underway E connectBlock chain a.calls a.state)
    (ha : ∀ m, a.pindexMostWork = some m → ∃ path, Aimed E a.state m path) {top : Nat}
    (htop : ∀ x ∈ a.state.mapBlockIndex, (a.state.index x).nHeight ≤ top) :
    ((a.round E connectBlock).finished = true ∧ Activated E (a.round E connectBlock).state) ∨
    ((a.round E connectBlock).finished = false ∧
      Underway E connectBlock chain (a.round E connectBlock).calls (a.round E connectBlock).state ∧
      (∀ m, (a.round E connectBlock).pindexMostWork = some m → ∃ path, Aimed E (a.round E connectBlock).state m path) ∧
      SameTree a.state (a.round E connectBlock).state ∧ rank top (a.round E connectBlock) < rank top a) := by
  obtain ⟨m, hm⟩ := h.target ha
  have hknown := (hm.underway.consistent.candidates_linked m hm.mem).1
  have hlinked := (hm.underway.consistent.candidates_linked m hm.mem).2
  by_cases htip : m = (a.target E).2.tip
  · have hidle : ∀ m', (a.target E).1 = some m' → m' = (a.target E).2.tip := by
      intro m' hm'
      rw [← Option.some.inj (hm.found.symm.trans hm')]
      exact htip
    rw [round_idle hidle]
    refine .inl ⟨rfl, hm.underway.activated ?_ ?_⟩
    · rw [← htip]
      exact hm.mem
    · rw [← htip]
      exact hm.best
  have hslot : ((a.target E).2.offChain m).length <
      a.pindexMostWork.elim (top + 2) (fun m => (a.state.offChain m).length + 1) := by
    cases hremembered : a.pindexMostWork with
    | none =>
      have hle := hm.underway.consistent.offChain_length_le hknown
      rw [hm.flags.nHeight] at hle
      rw [hm.flags.known] at hknown
      have := htop m hknown
      rw [Option.elim_none]
      omega
    | some m' =>
      have htarget : a.target E = (some m', a.state) := by
        rw [Activation.target, hremembered]
      have hfound := hm.found
      rw [htarget] at hfound
      rw [htarget, Option.elim_some, Option.some.inj hfound]
      exact Nat.lt_succ_self _
  obtain ⟨_, hpath⟩ := hm.underway.consistent.onPath_fork hknown hlinked
  have hstart : Aimed E (Qstees.disconnectBlocks (a.target E).2 (blocksToDisconnect (a.target E).2 m).length) m
      (blocksToConnect (a.target E).2 m) :=
    ⟨hpath, fun x hx => hm.valid x (mem_reverse.mp hx), hm.mem, hm.best⟩
  have hstep := round_induct (E := E) connectBlock
    (P := fun calls path t => Underway E connectBlock chain calls t ∧ Aimed E t m path ∧ Flags a.state t) (by
    intro calls b rest t ⟨ht, htaim, hflags⟩ hverdict
    exact ⟨ht.connected htaim.onPath (htaim.valid b mem_cons_self) hverdict, htaim.connected ht.consistent,
      hflags.trans (flags_connected E t b)⟩)
    hm.found htip ⟨hm.underway.disconnectBlocks _, hstart, hm.flags.congr rfl rfl⟩
  rcases hstep with ⟨calls, rest, t, ⟨ht, htaim, hflags⟩, hlength, ⟨hend, heq⟩ | ⟨hend, heq⟩⟩ |
    ⟨calls, b, rest, t, ⟨ht, htaim, hflags⟩, hverdict, heq⟩
  · rw [heq]
    refine .inl ⟨rfl, ht.activated ?_ ?_⟩
    · rw [hend]
      exact htaim.mem
    · rw [hend]
      exact htaim.best
  · rw [heq]
    refine .inr ⟨rfl, ht, ?_, hflags.toSameTree, ?_⟩
    · intro m' hm'
      rw [← Option.some.inj hm']
      exact ⟨rest, htaim⟩
    have hrest : rest.length < (blocksToConnect (a.target E).2 m).length := by
      rcases hlength with hlength | ⟨_, hnil⟩
      · exact hlength
      · have hlast := htaim.onPath.last
        rw [hnil] at hlast
        exact absurd (by simpa using hlast) hend
    have hoff : (t.offChain m).length = rest.length := by
      rw [(htaim.onPath.offChain_eq ht.consistent).1, length_reverse]
    have hconnect : (blocksToConnect (a.target E).2 m).length = ((a.target E).2.offChain m).length := length_reverse
    have hmul := Nat.mul_le_mul_right (top + 3) (unflaggedCount_le hflags)
    simp only [rank, Option.elim_some]
    omega
  · rw [heq]
    have hbKnown := (htaim.onPath.known b mem_cons_self).1
    have hbValid := hflags.valid (htaim.valid b mem_cons_self)
    have hflags' := hflags.trans (flags_invalidBlockFound t b)
    refine .inr ⟨rfl, (ht.invalidBlockFound hsteady hbKnown hverdict).succ, fun m' hm' => ?_, hflags'.toSameTree, ?_⟩
    · cases hm'
    · rw [hflags.known] at hbKnown
      have hless := unflaggedCount_lt hflags' hbKnown hbValid (invalidBlockFound_failed)
      have hmul := Nat.mul_le_mul_right (top + 3) (Nat.succ_le_of_lt hless)
      rw [Nat.succ_mul] at hmul
      simp only [rank, Option.elim_none]
      omega

lemma activateLoop_activated (hsteady : Steady connectBlock chain) (top : Nat) (fuel : Nat)
    (h : Underway E connectBlock chain a.calls a.state)
    (ha : ∀ m, a.pindexMostWork = some m → ∃ path, Aimed E a.state m path)
    (htop : ∀ x ∈ a.state.mapBlockIndex, (a.state.index x).nHeight ≤ top)
    (hfuel : rank top a < fuel) :
    ∃ t, activateLoop E connectBlock fuel a = some t ∧ Activated E t := by
  induction fuel generalizing a with
  | zero => omega
  | succ fuel ih =>
    rcases h.round hsteady ha htop with ⟨hfinished, hactivated⟩ | ⟨hfinished, hnext, haim, hsame, hrank⟩
    · refine ⟨(a.round E connectBlock).state, ?_, hactivated⟩
      simp only [activateLoop, hfinished, if_true]
    have htop' : ∀ x ∈ (a.round E connectBlock).state.mapBlockIndex,
        ((a.round E connectBlock).state.index x).nHeight ≤ top := by
      intro x hx
      rw [hsame.known] at hx
      rw [hsame.nHeight]
      exact htop x hx
    obtain ⟨t, ht, hactivated⟩ := ih hnext haim htop' (by omega)
    refine ⟨t, ?_, hactivated⟩
    simp only [activateLoop, hfinished]
    exact ht

lemma le_foldr_max {l : List Nat} {n : Nat} (hn : n ∈ l) : n ≤ l.foldr max 0 := by
  induction l with
  | nil => cases hn
  | cons m l ih =>
    rcases mem_cons.mp hn with rfl | hn
    · exact le_max_left _ _
    · exact (ih hn).trans (le_max_right _ _)

lemma Rewound.activateBestChain (h : Rewound E chain s) (hsteady : Steady connectBlock chain) :
    ∃ t, activateBestChain E connectBlock s = some t ∧ Activated E t := by
  apply activateLoop_activated hsteady ((s.mapBlockIndex.map (fun x => (s.index x).nHeight)).foldr max 0) _ h.underway
  · intro m hm
    cases hm
  · intro x hx
    exact le_foldr_max (mem_map_of_mem hx)
  · have hcount : unflaggedCount s ≤ s.mapBlockIndex.length := length_filter_le _ _
    have hmul := Nat.mul_le_mul_right ((s.mapBlockIndex.map (fun x => (s.index x).nHeight)).foldr max 0 + 3) hcount
    simp only [rank, activationFuel, Option.elim_none, Nat.succ_mul]
    omega

/-- A known block all of whose ancestors are stored and not failed. -/
structure Eligible (s : ChainState) (x : UInt256) : Prop where
  known : x ∈ s.mapBlockIndex
  usable : ∀ y ∈ s.ancestors x, (s.index y).nStatus.haveData = true ∧ (s.index y).failed = false

/-- The tip has the most work of all eligible blocks. -/
structure BestChainLaw (E : ChainEnv) (s : ChainState) : Prop where
  tip_candidate : s.tip ∈ s.setBlockIndexCandidates
  candidates : ∀ x, Eligible s x → workComparator E s x s.tip = false → x ∈ s.setBlockIndexCandidates
  most_work : ∀ x, Eligible s x → (s.index x).nChainWork ≤ (s.index s.tip).nChainWork

lemma Eligible.linked (hs : Based E s) (hx : Eligible s x) : (s.index x).nChainTx ≠ 0 := by
  refine hs.consistent.induct (P := fun x => Eligible s x → (s.index x).nChainTx ≠ 0) ?_ ?_ hx.known hx
  · exact fun _ => hs.consistent.chain.linked _ hs.consistent.genesis_mem
  intro x p hknown hp ih hx hzero
  have husable : ∀ y ∈ x :: s.ancestors p, (s.index y).nStatus.haveData = true ∧ (s.index y).failed = false := by
    rw [← hs.consistent.ancestors_eq hknown hp.prev]
    exact hx.usable
  have hparent : Eligible s p := ⟨hp.known, fun y hy => husable y (mem_cons_of_mem _ hy)⟩
  rcases hs.waiting x hknown (husable x mem_cons_self).1 hzero with hqueue | ⟨q, hq, hwaits⟩
  · cases hqueue
  obtain rfl : p = q := Option.some.inj (hp.prev.symm.trans hq)
  rcases hwaits with hfailed | hunlinked
  · rw [(hparent.usable p mem_cons_self).2] at hfailed
    cases hfailed
  · exact ih hparent (hs.consistent.unlinked p x hunlinked).2.2.2

lemma Activated.law (hs : Activated E s) : BestChainLaw E s := by
  have hoffered : ∀ x, Eligible s x → workKey E s s.tip ≤ workKey E s x → x ∈ s.setBlockIndexCandidates := by
    intro x hx hkey
    obtain ⟨rest, hrest⟩ := ancestors_cons s x
    have hself : x ∈ s.ancestors x := by
      rw [hrest]
      exact mem_cons_self
    exact hs.offered x hx.known (hx.usable x hself).2 (hx.linked hs.toBased) hkey
  refine ⟨hs.tip_candidate, ?_, ?_⟩
  · intro x hx hworse
    exact hoffered x hx ((workComparator_eq_false_iff x s.tip).mp hworse)
  · intro x hx
    rcases le_total (workKey E s x) (workKey E s s.tip) with hkey | hkey
    · exact work_le_of_workKey_le hkey
    · exact work_le_of_workKey_le (hs.tip_best x (hoffered x hx hkey))

/-- An operation with a permitted command and a steady verdict. -/
structure Sound (E : ChainEnv) (s : ChainState) (o : ChainOperation) : Prop where
  permitted : Permitted E s o.command
  steady : Steady o.connectBlock s.chainActive

lemma Activated.activate (hs : Activated E s) {o : ChainOperation} (ho : Sound E s o) :
    ∃ t, o.activate E s = some t ∧ Activated E t :=
  (hs.toBased.apply ho.permitted).activateBestChain ho.steady

lemma Activated.operate (hs : Activated E s) {o : ChainOperation} (ho : Sound E s o) : Activated E (s.operate E o) := by
  obtain ⟨t, ht, hactivated⟩ := hs.activate ho
  rw [ChainState.operate, ht]
  exact hactivated

lemma activated_genesisState : Activated E (genesisState E) := by
  refine ⟨⟨⟨consistent_genesisState E, ?_, ?_, ?_⟩, ?_⟩, mem_cons_self, ?_⟩
  · intro x hx
    rw [mem_singleton.mp hx]
    simp [genesisState, CBlockIndex.failed]
  · intro x hx
    cases hx
  · intro x hx _ hzero
    rw [mem_singleton.mp hx] at hzero
    simp [genesisState] at hzero
  · intro x hx _ _ _
    exact hx
  · intro x hx
    rw [mem_singleton.mp hx]
    rfl

/-- Every activation ends, and the law of the best chain holds after it. -/
theorem bestChain_run (E : ChainEnv) (operations : List ChainOperation)
    (hsound : ∀ p ∈ trace (ChainState.operate E) (genesisState E) operations, Sound E p.1 p.2) :
    (∀ p ∈ trace (ChainState.operate E) (genesisState E) operations, (p.2.activate E p.1).isSome = true) ∧
      BestChainLaw E (run (ChainState.operate E) (genesisState E) operations) := by
  have hstep : ∀ s o, Activated E s → Sound E s o → Activated E (ChainState.operate E s o) :=
    fun s o hs ho => hs.operate ho
  refine ⟨?_, ?_⟩
  · intro p hp
    have hactivated := invariant_trace hstep (activated_genesisState) hsound p hp
    obtain ⟨t, ht, _⟩ := hactivated.activate (hsound p hp)
    rw [ht]
    rfl
  · exact (invariant hstep (activated_genesisState) hsound).law

def smallEnv : ChainEnv where
  hashGenesisBlock := 0
  nGenesisProof := 1
  nMaxReorgDepth := 55
  nMinReorgPeers := 3
  nMinimumChainWork := 0
  address := id
  address_inj := Function.injective_id

def headerCommand (hash prev : UInt256) : ChainCommand := .header ⟨hash, prev, 1⟩ ⟨4, false, true⟩

def blockCommand (hash prev : UInt256) : ChainCommand := .block ⟨⟨hash, prev, 1⟩, 1, .ok⟩ ⟨4, false, true⟩ true

def acceptAll : Verdict := fun _ _ => true

/-- A block is invalidated and reconsidered while another one grows beside it. -/
def reconsidered : List ChainOperation :=
  [⟨blockCommand 1 0, acceptAll⟩, ⟨.invalidateBlock 1, acceptAll⟩, ⟨blockCommand 2 0, acceptAll⟩,
    ⟨.resetBlockFailureFlags 1, acceptAll⟩]

lemma steady_acceptAll : Steady acceptAll chain := fun _ _ _ => rfl

theorem bestChain_run_reconsidered :
    (∀ p ∈ trace (ChainState.operate smallEnv) (genesisState smallEnv) reconsidered,
      (p.2.activate smallEnv p.1).isSome = true) ∧
      BestChainLaw smallEnv (run (ChainState.operate smallEnv) (genesisState smallEnv) reconsidered) := by
  apply bestChain_run smallEnv reconsidered
  intro p hp
  simp only [reconsidered, trace, mem_cons, not_mem_nil, or_false] at hp
  rcases hp with rfl | rfl | rfl | rfl
  · exact ⟨trivial, steady_acceptAll⟩
  · exact ⟨trivial, steady_acceptAll⟩
  · exact ⟨trivial, steady_acceptAll⟩
  · refine ⟨fun _ => ⟨?_, ?_⟩, steady_acceptAll⟩
    · decide +kernel
    · decide +kernel

def refusedLater : List ChainOperation :=
  [⟨blockCommand 1 0, acceptAll⟩, ⟨.reprocessBlocks [] 1, fun _ _ => false⟩]

/-- Block 2 is never valid. Resetting it clears its parent 1 as well, without making that a candidate. -/
def clearedParent : List ChainOperation :=
  let verdict : Verdict := fun _ x => x != 2
  [⟨blockCommand 1 0, verdict⟩, ⟨blockCommand 2 1, verdict⟩, ⟨.invalidateBlock 1, verdict⟩,
    ⟨.resetBlockFailureFlags 2, verdict⟩]

/-- The data of block 2 comes while its parent is marked as failed, and is never linked. -/
def forgottenChild : List ChainOperation :=
  [⟨headerCommand 1 0, acceptAll⟩, ⟨headerCommand 2 1, acceptAll⟩, ⟨.invalidateBlock 1, acceptAll⟩,
    ⟨blockCommand 2 1, acceptAll⟩, ⟨.resetBlockFailureFlags 1, acceptAll⟩, ⟨blockCommand 1 0, acceptAll⟩]

/-- Three runs after which a better chain is left aside. -/
theorem bestChain_broken :
    ¬BestChainLaw smallEnv (run (ChainState.operate smallEnv) (genesisState smallEnv) refusedLater) ∧
    ¬BestChainLaw smallEnv (run (ChainState.operate smallEnv) (genesisState smallEnv) clearedParent) ∧
    ¬BestChainLaw smallEnv (run (ChainState.operate smallEnv) (genesisState smallEnv) forgottenChild) := by
  refine ⟨?_, ?_, ?_⟩
  · intro h
    exact absurd h.tip_candidate (by decide +kernel)
  · intro h
    exact absurd h.tip_candidate (by decide +kernel)
  · intro h
    exact absurd (h.most_work 2 ⟨by decide +kernel, by decide +kernel⟩) (by decide +kernel)

end Qstees.Proofs
