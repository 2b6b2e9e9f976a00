import Qstees.Proofs.Rebuild
import Qstees.Proofs.Roster

/-!
# Stability of the reward schedule

A recomputation counts the nodes that have matured by the last build.
-/

namespace Qstees.Proofs

open Windows List CInfinitynodeMan

variable {E : InfinityEnv} {C : Chain} {t : SinType} {h₀ x : Int} {s₀ : InfinityState}

lemma ListOk.regs_iff {h h' : Int} {s s' : InfinityState} (hok : ListOk E C h s) (hok' : ListOk E C h' s') (hh : h ≤ h')
    (hx : x ≤ h - INF_MATURED_LIMIT) (o : COutPoint) (inf : CInfinitynode) (hlt : inf.nHeight < x) :
    regs s'.infnodeman o = some inf ↔ regs s.infnodeman o = some inf := by
  rw [hok.nodes, hok'.nodes]
  unfold RegisteredIn
  have hmature : inf.nHeight < h' - INF_MATURED_LIMIT ↔ inf.nHeight < h - INF_MATURED_LIMIT := by omega
  rw [hmature]

/-- A later state, with the statements of a tier up to `w` as they were. -/
structure Settled (E : InfinityEnv) (C : Chain) (t : SinType) (h₀ : Int) (s₀ : InfinityState) (pre : List (Int × Int))
    (w : Int × Int) (a : Int × InfinityState) : Prop where
  list : ListOk E C a.1 a.2
  height : h₀ ≤ a.1
  cached : s₀.infnodeman.nCachedBlockHeight ≤ a.2.infnodeman.nCachedBlockHeight
  statements : ∃ post, (a.2.infnodeman.getStatements t).map.toList = pre ++ w :: post ∧ ∀ v ∈ post, w.1 + w.2 ≤ v.1

variable {man : CInfinitynodeMan} {P : Params} {pre : List (Int × Int)} {w : Int × Int}
  {a : Int × InfinityState}

lemma after_of_rounds {post : List (Int × Int)} (heq : statementRounds man t P = pre ++ w :: post) :
    ∀ v ∈ post, w.1 + w.2 ≤ v.1 := by
  have hpairs := pairwise_statementRounds man t P
  rw [heq, pairwise_append, pairwise_cons] at hpairs
  intro v hv
  exact (hpairs.2.1.1 v hv).2

lemma before_of_rounds {post : List (Int × Int)} (heq : statementRounds man t P = pre ++ w :: post) :
    ∀ v ∈ pre ++ [w], v.1 ≤ w.1 := by
  have hpairs := pairwise_statementRounds man t P
  rw [heq, pairwise_append] at hpairs
  intro v hv
  rcases mem_append.mp hv with hpre | hw
  · have hbefore := hpairs.2.2 v hpre w mem_cons_self
    omega
  · rw [mem_singleton.mp hw]

section

variable (hC : UniqueTxids C) (hok₀ : ListOk E C h₀ s₀) {post₀ : List (Int × Int)}
  (hrounds : statementRounds s₀.infnodeman t E.params = pre ++ w :: post₀) (hne : w.2 ≠ 0)
  (hmature : w.1 ≤ h₀ - INF_MATURED_LIMIT) {b : Int × InfinityState} (ha : Settled E C t h₀ s₀ pre w a)
include hC hok₀ hrounds hne hmature ha

lemma Settled.step (hstep : ListStep E C a b) : Settled E C t h₀ s₀ pre w b := by
  have hlist := (ha.list.step hC hstep).1
  have hheight := ha.height.trans hstep.height_le
  cases hstep with
  | @build C' now nLow h h' s s' hext hh hbuild =>
    have hsame := sameSchedule_build E C' now h' nLow s
    rw [hbuild] at hsame
    refine ⟨hlist, hheight, ha.cached.trans hsame.cached.ge, ?_⟩
    rw [hsame.statements t]
    exact ha.statements
  | tip htip =>
    refine ⟨hlist, hheight, ha.cached.trans htip, ?_⟩
    have hstm := ha.statements
    cases t <;> exact hstm
  | rank y t' updateList =>
    refine ⟨hlist, hheight, ha.cached, ?_⟩
    have hstm := ha.statements
    cases t <;> exact hstm
  | @statement t' h s =>
    have hcached : (s.infnodeman.deterministicRewardStatement E.params t').nCachedBlockHeight =
        s.infnodeman.nCachedBlockHeight := by
      unfold deterministicRewardStatement
      cases t' <;> rfl
    refine ⟨hlist, hheight, ha.cached.trans hcached.ge, ?_⟩
    by_cases ht : t = t'
    · -- the recomputation counts the same nodes at every statement up to `w`
      subst ht
      have hcount : ∀ y ≤ h₀ - INF_MATURED_LIMIT, validCount s.infnodeman t y = validCount s₀.infnodeman t y := by
        intro y hy
        exact validCount_congr (hok₀.regs_iff ha.list ha.height hy)
      obtain ⟨post, heq⟩ :=
        rounds_common (validCount_nonneg s₀.infnodeman t) hcount ha.cached le_rfl hrounds hne hmature
      refine ⟨post, ?_, after_of_rounds heq⟩
      rw [toList_statements]
      exact heq
    · rw [deterministicRewardStatement, getStatements_setStatements_ne _ _ _ ht]
      exact ha.statements

lemma Settled.steps (hsteps : Relation.ReflTransGen (ListStep E C) a b) : Settled E C t h₀ s₀ pre w b := by
  induction hsteps with
  | refl => exact ha
  | tail _ hstep ih => exact ih.step hC hok₀ hrounds hne hmature hstep

end

lemma Settled.findStatement (ha : Settled E C t h₀ s₀ pre w a) (hcovers : Covers w x) :
    findStatement x (a.2.infnodeman.getStatements t).map.toList 100000 0 =
      findStatement x (pre ++ [w]) 100000 0 := by
  obtain ⟨post, heq, hafter⟩ := ha.statements
  rw [heq, append_cons, findStatement_append]
  intro v hv
  exact hcovers.2.trans (hafter v hv)

lemma registered_getD (ranked : List CInfinitynode) (i : Nat) (now : Int) :
    registered (((ranked.map unranked)[i]?).getD { sigTime := now }) =
      ((ranked.map registered)[i]?).getD (registered {}) := by
  rw [getElem?_map, getElem?_map]
  cases ranked[i]? <;> rfl

lemma found_of_reward {now : Int} {inf : CInfinitynode}
    (hreward : (man.deterministicRewardAtHeight P now x t).map Prod.fst = .ok (some inf)) :
    P.nInfinityNodeGenesisStatement ≤ x ∧
      findStatement x (man.getStatements t).map.toList 100000 0 ≠ 0 := by
  unfold deterministicRewardAtHeight at hreward
  split_ifs at hreward with hG
  · cases hreward
  · refine ⟨not_lt.mp hG, ?_⟩
    intro hzero
    simp only [hzero, if_true] at hreward
    cases hreward

/-- Once a recomputation has recorded a statement for a height that is no higher than the last scanned
height, the node rewarded at that height does not change any more. -/
theorem deterministicReward_stable {h₁ h₂ h₃ : Int} (hC : UniqueTxids C) (hlow : fullScanLow E + INF_MATURED_LIMIT ≤ h₁)
    (hrun : ListRun E C h₁ (h₀, s₀)) {w : Int × Int}
    (hw : w ∈ ((s₀.infnodeman.deterministicRewardStatement E.params t).getStatements t).map.toList)
    (hcovers : Covers w x) (hmature : w.1 ≤ s₀.infnodeman.nLastScanHeight) {s₂ s₃ : InfinityState}
    (h₁₂ : Relation.ReflTransGen (ListStep E C)
      (h₀, { s₀ with infnodeman := s₀.infnodeman.deterministicRewardStatement E.params t }) (h₂, s₂))
    (h₂₃ : Relation.ReflTransGen (ListStep E C) (h₂, s₂) (h₃, s₃)) {now₂ : Int} {inf : CInfinitynode}
    (hreward : (s₂.infnodeman.deterministicRewardAtHeight E.params now₂ x t).map Prod.fst = .ok (some inf))
      (now₃ : Int) :
    ∃ inf', (s₃.infnodeman.deterministicRewardAtHeight E.params now₃ x t).map Prod.fst = .ok (some inf') ∧
      registered inf' = registered inf := by
  have hok₀ := (hrun.ok hC (by omega)).1
  rw [hok₀.scanned] at hmature
  rw [toList_statements] at hw
  obtain ⟨pre, post, heq⟩ := append_of_mem hw
  have hne : w.2 ≠ 0 := by
    obtain ⟨hlt, hle⟩ := hcovers
    omega
  have hstart : Settled E C t h₀ s₀ pre w
      (h₀, { s₀ with infnodeman := s₀.infnodeman.deterministicRewardStatement E.params t }) := by
    refine ⟨(hok₀.step hC (.statement t)).1, le_rfl, ?_, post, ?_, after_of_rounds heq⟩
    · unfold deterministicRewardStatement
      cases t <;> exact le_rfl
    · rw [toList_statements]
      exact heq
  have hs₂ := hstart.steps hC hok₀ heq hne hmature h₁₂
  have hs₃ := hs₂.steps hC hok₀ heq hne hmature h₂₃
  obtain ⟨hG, hfound⟩ := found_of_reward hreward
  rw [hs₂.findStatement hcovers] at hfound
  -- the statement found is one of those that were mature at the recomputation
  have hH : findStatement x (pre ++ [w]) 100000 0 ≤ h₀ - INF_MATURED_LIMIT := by
    rcases findStatement_covers x (pre ++ [w]) 100000 0 with hzero | ⟨v, hv, -, -, hv'⟩
    · exact absurd hzero hfound
    · rw [hv']
      exact (before_of_rounds heq v hv).trans hmature
  have hlater := Int.sub_le_sub_right hs₂.height INF_MATURED_LIMIT
  have hranked := rankedNodes_congr (t := t) (hs₂.list.regs_iff hs₃.list (le_of_steps h₂₃) (hH.trans hlater))
  rw [reward_of_found hG (hs₂.findStatement hcovers) hfound] at hreward
  rw [reward_of_found hG (hs₃.findStatement hcovers) hfound]
  refine ⟨_, rfl, ?_⟩
  rw [← Option.some.inj (Except.ok.inj hreward), registered_getD, registered_getD, hranked]

def exampleChecked : InfinityState := checkAndRemove exampleEnv exampleChain 0 exampleTip

def exampleRestated (s : InfinityState) : InfinityState :=
  { s with infnodeman := s.infnodeman.deterministicRewardStatement exampleEnv.params .QSTEESNODE_10 }

def exampleSecondNode : CInfinitynode :=
  { vinBurnFund := ⟨1001, 0⟩, nHeight := 111, nExpireHeight := 262911, nBurnValue := 1000000 * COIN, nQSTEESType := 10,
    collateralAddress := ownerAddress, scriptPubKey := getScriptForBurn (List.replicate 20 1) [] }

theorem deterministicReward_stable_example :
    ∃ inf', ((updateInfinitynodeList exampleEnv exampleChain 0 190 (exampleRestated exampleChecked)).2.infnodeman
        |>.deterministicRewardAtHeight exampleEnv.params 0 114 .QSTEESNODE_10).map Prod.fst = .ok (some inf') ∧
      registered inf' = registered exampleSecondNode := by
  have hupdate : updateInfinitynodeList exampleEnv exampleChain 0 190 (exampleRestated exampleChecked) =
      (true, (updateInfinitynodeList exampleEnv exampleChain 0 190 (exampleRestated exampleChecked)).2) :=
    Prod.ext (by decide +kernel) rfl
  have hreward : ((exampleRestated exampleChecked).infnodeman.deterministicRewardAtHeight exampleEnv.params 0 114
      .QSTEESNODE_10).map Prod.fst = .ok (some exampleSecondNode) := by decide +kernel
  exact deterministicReward_stable (w := (112, 2)) exampleChain_unique (by decide) exampleTip_run
    (by decide +kernel) ⟨by decide, by decide⟩ (by decide +kernel) .refl
    (.single (.update (.refl _) (by decide) hupdate)) hreward 0

/-- The second node matures after the first recomputation: the statement of height 114 and the node of that
height change. -/
theorem deterministicReward_unstable :
    let s := exampleRestated { exampleList with infnodeman := exampleList.infnodeman.updatedBlockTip 160 }
    let u := updateInfinitynodeList exampleEnv exampleChain 0 167 s
    let s' := exampleRestated { u.2 with infnodeman := u.2.infnodeman.updatedBlockTip 167 }
    u.1 = true ∧
      ((s.infnodeman.deterministicRewardAtHeight exampleEnv.params 0 114 .QSTEESNODE_10).map
        (fun r => r.1.map CInfinitynode.vinBurnFund)) = .ok (some ⟨1000, 0⟩) ∧
      ((s'.infnodeman.deterministicRewardAtHeight exampleEnv.params 0 114 .QSTEESNODE_10).map
        (fun r => r.1.map CInfinitynode.vinBurnFund)) = .ok (some ⟨1001, 0⟩) := by
  decide +kernel

end Qstees.Proofs
