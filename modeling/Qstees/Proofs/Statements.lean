import Qstees.Library.Traversal
import Qstees.Library.Windows
import Qstees.Model.InfinitynodeMan

/-!
# The statements of a tier and the lookup in them

`deterministicRewardStatement` records the rounds of a schedule whose sizes are the numbers of valid
nodes; `deterministicRewardAtHeight` finds the window of a height and takes the node of that rank.
-/

namespace Qstees.Proofs

open Windows List CInfinitynodeMan

variable (man : CInfinitynodeMan) (t : SinType)

def validCount (x : Int) : Int := (man.validNodes t x).length

lemma validCount_nonneg (x : Int) : 0 ≤ validCount man t x := Int.natCast_nonneg _

lemma getStatements_setStatements (stm : Statements) : (man.setStatements stm t).getStatements t = stm := by
  cases t <;> rfl

lemma getStatements_setStatements_ne (stm : Statements) {t' : SinType} (hne : t' ≠ t) :
    (man.setStatements stm t).getStatements t' = man.getStatements t' := by
  cases t <;> cases t' <;> first | rfl | exact absurd rfl hne

lemma getElem?_insert_statement (map : StdMap Int Int) (y n k : Int) :
    (map.insert y n)[k]? = if y = k then some n else map[k]? := by
  simp [Std.ExtTreeMap.getElem?_insert]

variable {x h : Int} {inf : CInfinitynode}

lemma statementLoop_getElem? {fuel : Nat} {stm : Statements}
    (hkeys : ∀ k, x ≤ k → stm.map[k]? = none) (k v : Int) :
    (man.statementLoop t fuel x stm).map[k]? = some v ↔
      (k, v) ∈ rounds (validCount man t) man.nCachedBlockHeight fuel x ∨ stm.map[k]? = some v := by
  induction fuel generalizing x stm with
  | zero => simp [statementLoop, rounds]
  | succ fuel ih =>
    have hinsert : ∀ y n : Int, x ≤ y → ((stm.map.insert y n)[k]? = some v ↔ (k, v) = (y, n) ∨
      stm.map[k]? = some v) := by
      intro y n hy
      rw [getElem?_insert_statement, Prod.mk.injEq]
      split_ifs with hk
      · subst hk
        simp [hkeys y hy, eq_comm]
      · simp [Ne.symm hk]
    rw [statementLoop, rounds]
    by_cases hx : x < man.nCachedBlockHeight
    · simp only [hx, if_true]
      have hcount : ((man.validNodes t x).length : Int) = validCount man t x := rfl
      rw [hcount]
      by_cases hzero : validCount man t x = 0
      · -- the loop ends: the next round starts at the cached height
        have hdone : ∀ n stm', man.statementLoop t n man.nCachedBlockHeight stm' = stm' := by
          intro n stm'
          cases n <;> simp [statementLoop]
        simp only [hzero, if_true, add_zero, hdone, mem_singleton]
        exact hinsert _ 0 hx.le
      · simp only [hzero, if_false, mem_cons]
        have hpos := validCount_nonneg man t x
        have hnext : ∀ j, x + validCount man t x ≤ j → (stm.map.insert x (validCount man t x))[j]? = none := by
          intro j hj
          rw [getElem?_insert_statement, if_neg (by omega)]
          exact hkeys j (by omega)
        rw [ih hnext]
        show (k, v) ∈ _ ∨ (stm.map.insert x (validCount man t x))[k]? = some v ↔ _
        rw [hinsert _ _ le_rfl, or_left_comm, or_assoc]
    · simp [hx]

def statementRounds (P : Params) : List (Int × Int) :=
  rounds (validCount man t) man.nCachedBlockHeight (man.nCachedBlockHeight - P.nInfinityNodeGenesisStatement).toNat
    P.nInfinityNodeGenesisStatement

lemma pairwise_statementRounds (P : Params) :
    (statementRounds man t P).Pairwise (fun a b => 0 < a.2 ∧ a.1 + a.2 ≤ b.1) :=
  pairwise_rounds (validCount_nonneg man t) _ _

lemma toList_statements (P : Params) :
    ((man.deterministicRewardStatement P t).getStatements t).map.toList = statementRounds man t P := by
  have hmem : ∀ w : Int × Int, w ∈ ((man.deterministicRewardStatement P t).getStatements t).map.toList ↔
      w ∈ statementRounds man t P := by
    rintro ⟨k, v⟩
    rw [Std.ExtTreeMap.mem_toList_iff_getElem?_eq_some, deterministicRewardStatement,
      getStatements_setStatements, statementLoop_getElem? man t (by simp)]
    simp [statementRounds]
  have hsorted : (statementRounds man t P).Pairwise (fun a b => a.1 < b.1) := by
    refine (pairwise_statementRounds man t P).imp ?_
    intro a b hab
    omega
  have hsorted' : ((man.deterministicRewardStatement P t).getStatements t).map.toList.Pairwise (fun a b => a.1 < b.1) :=
    Std.ExtTreeMap.ordered_keys_toList.imp (fun hlt => compare_lt_iff_lt.mp hlt)
  have hnodup : ∀ l : List (Int × Int), l.Pairwise (fun a b => a.1 < b.1) → l.Nodup := by
    intro l hl
    exact hl.imp (fun hlt heq => absurd (congrArg Prod.fst heq) hlt.ne)
  refine List.Perm.eq_of_pairwise ?_ hsorted' hsorted
    ((perm_ext_iff_of_nodup (hnodup _ hsorted') (hnodup _ hsorted)).mpr hmem)
  intro a b _ _ hab hba
  exact absurd hab hba.asymm

lemma findStatement_of_le {stms : List (Int × Int)} (hle : ∀ w ∈ stms, h ≤ w.1)
    (nDelta lastStatement : Int) :
    findStatement h stms nDelta lastStatement = lastStatement := by
  induction stms with
  | nil => rfl
  | cons w stms ih =>
    have hw := hle w mem_cons_self
    rw [findStatement, if_neg (by omega)]
    exact ih (fun w' hw' => hle w' (mem_cons_of_mem _ hw'))

lemma findStatement_append {post : List (Int × Int)} (hle : ∀ w ∈ post, h ≤ w.1)
    (pre : List (Int × Int)) (nDelta lastStatement : Int) :
    findStatement h (pre ++ post) nDelta lastStatement =
      findStatement h pre nDelta lastStatement := by
  induction pre generalizing nDelta lastStatement with
  | nil => exact findStatement_of_le hle nDelta lastStatement
  | cons w pre ih =>
    rw [cons_append, findStatement, findStatement]
    simp only [ih]

lemma findStatement_last {pre : List (Int × Int)} {w : Int × Int} (hpre : ∀ v ∈ pre, v.1 < w.1)
    (hcovers : Covers w h) {nDelta : Int} (hdelta : h - w.1 < nDelta) (lastStatement : Int) :
    findStatement h (pre ++ [w]) nDelta lastStatement = w.1 := by
  induction pre generalizing nDelta lastStatement with
  | nil =>
    obtain ⟨hlt, hle⟩ := hcovers
    simp only [nil_append, findStatement]
    rw [if_pos ⟨hlt, hdelta⟩, if_pos (by omega)]
  | cons v pre ih =>
    have hv := hpre v mem_cons_self
    have hrest : ∀ v' ∈ pre, v'.1 < w.1 := fun v' hv' => hpre v' (mem_cons_of_mem _ hv')
    rw [cons_append, findStatement]
    split_ifs
    · exact ih hrest (by omega) _
    · exact ih hrest (by omega) _
    · exact ih hrest hdelta _

lemma findStatement_of_covers {stms : List (Int × Int)}
    (hpairs : stms.Pairwise (fun a b => 0 < a.2 ∧ a.1 + a.2 ≤ b.1)) {w : Int × Int} (hw : w ∈ stms)
    (hcovers : Covers w h) {nDelta : Int} (hdelta : h - w.1 < nDelta) (lastStatement : Int) :
    findStatement h stms nDelta lastStatement = w.1 := by
  obtain ⟨pre, post, rfl⟩ := append_of_mem hw
  rw [pairwise_append] at hpairs
  have hpost : ∀ v ∈ post, h ≤ v.1 := by
    intro v hv
    exact hcovers.2.trans ((pairwise_cons.mp hpairs.2.1).1 v hv).2
  have hpre : ∀ v ∈ pre, v.1 < w.1 := by
    intro v hv
    have hbefore := hpairs.2.2 v hv w mem_cons_self
    omega
  rw [append_cons, findStatement_append hpost]
  exact findStatement_last hpre hcovers hdelta lastStatement

lemma findStatement_covers (h : Int) (stms : List (Int × Int)) (nDelta lastStatement : Int) :
    findStatement h stms nDelta lastStatement = lastStatement ∨
      ∃ w ∈ stms, Covers w h ∧ h - w.1 < nDelta ∧ findStatement h stms nDelta lastStatement = w.1 := by
  induction stms generalizing nDelta lastStatement with
  | nil => exact .inl rfl
  | cons w stms ih =>
    rw [findStatement]
    have hmem : ∀ {x d : Int}, d ≤ nDelta → (∃ v ∈ stms, Covers v h ∧ h - v.1 < d ∧ x = v.1) →
        ∃ v ∈ w :: stms, Covers v h ∧ h - v.1 < nDelta ∧ x = v.1 := by
      rintro x d hd ⟨v, hv, hcovers, hlt, heq⟩
      exact ⟨v, mem_cons_of_mem _ hv, hcovers, hlt.trans_le hd, heq⟩
    split_ifs with hnear hcovers
    · rcases ih (h - w.1) w.1 with heq | hfound
      · exact .inr ⟨w, mem_cons_self, ⟨hnear.1, by omega⟩, hnear.2, heq⟩
      · exact .inr (hmem hnear.2.le hfound)
    · exact (ih _ _).imp_right (hmem hnear.2.le)
    · exact (ih _ _).imp_right (hmem le_rfl)

def unranked (inf : CInfinitynode) : CInfinitynode := { inf with nRank := 0 }

variable {man t}

lemma mem_nodeList : inf ∈ man.nodeList ↔ man.mapInfinitynodes.nodes[inf.vinBurnFund]? = some inf :=
  Traversal.mem_values_iff man.mapInfinitynodes.keyed

variable (man) in
lemma nodeList_ordered : man.nodeList.Pairwise (fun a b => compare a.vinBurnFund b.vinBurnFund = .lt) :=
  Traversal.values_ordered man.mapInfinitynodes.keyed

lemma mem_validNodes :
    inf ∈ man.validNodes t x ↔ man.mapInfinitynodes.nodes[inf.vinBurnFund]? = some inf ∧
      inf.nQSTEESType = t.toInt ∧ inf.nHeight < x ∧ x ≤ inf.nExpireHeight := by
  rw [validNodes, mem_filter, mem_nodeList, isValidAt, decide_eq_true_eq]

lemma nodup_validNodes (x : Int) : ((man.validNodes t x).map CInfinitynode.vinBurnFund).Nodup := by
  refine pairwise_map.mpr (((nodeList_ordered man).filter _).imp fun hlt heq => ?_)
  rw [heq, Std.compare_self] at hlt
  cases hlt

lemma calculInfinityNodeRank_fst (x : Int) :
    (man.calculInfinityNodeRank x t false).1 = (man.rankedNodes t x).map unranked := by
  apply map_congr_left
  intro inf hinf
  have hvalid := mem_validNodes.mp ((perm_insertionSort _ _).mem_iff.mp hinf)
  unfold newRank
  rw [if_pos hvalid.2.1]
  split <;> rfl

lemma rankedNodes_perm (x : Int) : (man.rankedNodes t x).Perm (man.validNodes t x) := perm_insertionSort _ _

lemma reward_of_found {P : Params} {H : Int} (hG : P.nInfinityNodeGenesisStatement ≤ h)
    (hfind : findStatement h (man.getStatements t).map.toList 100000 0 = H)
    (hH : H ≠ 0) (now : Int) :
    man.deterministicRewardAtHeight P now h t =
      .ok (some ((((man.rankedNodes t H).map unranked)[(h - H - 1).toNat]?).getD { sigTime := now }),
        (man.calculInfinityNodeRank H t false).2) := by
  rw [deterministicRewardAtHeight, if_neg (not_lt.mpr hG)]
  simp only [hfind, hH, if_false, calculInfinityNodeRank_fst]

lemma rankedNodes_statement (P : Params) (x : Int) :
    (man.deterministicRewardStatement P t).rankedNodes t x = man.rankedNodes t x := by
  unfold deterministicRewardStatement
  cases t <;> rfl

def numberedNode (k : Nat) : CInfinitynode :=
  { vinBurnFund := ⟨k, 0⟩, nQSTEESType := 10, nHeight := 100, nExpireHeight := 1000 }

def numberedNodes : Nat → NodeMap
  | 0 => .empty
  | k + 1 => (numberedNodes k).insert (numberedNode k)

lemma numberedNodes_mem {k : Nat} {o : COutPoint} (h : (numberedNodes k).nodes[o]? = some inf) :
    ∃ j < k, inf = numberedNode j := by
  induction k with
  | zero => simp [numberedNodes, NodeMap.empty] at h
  | succ k ih =>
    simp only [numberedNodes, NodeMap.insert, Std.ExtTreeMap.getElem?_insert] at h
    split_ifs at h with heq
    · exact ⟨k, Nat.lt_succ_self k, (Option.some.inj h).symm⟩
    · obtain ⟨j, hj, rfl⟩ := ih h
      exact ⟨j, hj.trans (Nat.lt_succ_self k), rfl⟩

lemma numberedNodes_size (k : Nat) : (numberedNodes k).nodes.size = k := by
  induction k with
  | zero => rfl
  | succ k ih =>
    have hnew : (numberedNode k).vinBurnFund ∉ (numberedNodes k).nodes := by
      rw [Std.ExtTreeMap.mem_iff_isSome_getElem?]
      intro hsome
      obtain ⟨inf, hinf⟩ := Option.isSome_iff_exists.mp hsome
      obtain ⟨j, hj, rfl⟩ := numberedNodes_mem hinf
      have hkey := congrArg COutPoint.hash ((numberedNodes k).keyed _ _ hinf)
      exact absurd hkey hj.ne
    rw [numberedNodes, NodeMap.insert, Std.ExtTreeMap.size_insert, ih]
    exact if_neg (by simpa using hnew)

/-- As many nodes of the highest tier, at the block after the first statement. -/
def crowdedMan (k : Nat) : CInfinitynodeMan := { nCachedBlockHeight := 111, mapInfinitynodes := numberedNodes k }

lemma crowdedMan_validCount (k : Nat) : validCount (crowdedMan k) .QSTEESNODE_10 110 = k := by
  have hall : (crowdedMan k).validNodes .QSTEESNODE_10 110 = (crowdedMan k).nodeList := by
    apply filter_eq_self.mpr
    intro inf hinf
    obtain ⟨j, -, rfl⟩ := numberedNodes_mem (mem_nodeList.mp hinf)
    rfl
  rw [validCount, hall, nodeList, length_map, Std.ExtTreeMap.length_toList]
  exact congrArg Nat.cast (numberedNodes_size k)

/-- After a recomputation the windows of the statements follow each other, and over a window of less
than 100000 blocks every node that was valid at its statement is returned once. -/
theorem deterministicReward_windows {P : Params} (hP : Configured P) (man : CInfinitynodeMan) (t : SinType) :
    (((man.deterministicRewardStatement P t).getStatements t).map.toList.filter (fun w => w.2 ≠ 0)).IsChain
        (fun a b => b.1 = a.1 + a.2) ∧
      ((man.deterministicRewardStatement P t).getStatements t).map.toList.Pairwise
        (fun a b => Disjoint (Set.Ioc a.1 (a.1 + a.2)) (Set.Ioc b.1 (b.1 + b.2))) ∧
      ∀ H n : Int, ((man.deterministicRewardStatement P t).getStatements t).map[H]? = some n → 0 < n → n < 100000 →
        ∃ rets : List CInfinitynode, (rets.length : Int) = n ∧
          (∀ now (i : Nat) (hi : i < rets.length),
            ((man.deterministicRewardStatement P t).deterministicRewardAtHeight P now (H + 1 + i) t).map Prod.fst =
              .ok (some rets[i])) ∧
          rets.Perm ((man.validNodes t H).map unranked) ∧ (rets.map CInfinitynode.vinBurnFund).Nodup := by
  have hpairs := pairwise_statementRounds man t P
  refine ⟨?_, ?_, ?_⟩
  · rw [toList_statements]
    exact (consecutive_rounds (validCount_nonneg man t) _ _).isChain
  · rw [toList_statements]
    refine hpairs.imp ?_
    intro a b hab
    rw [Set.disjoint_left]
    rintro x ⟨-, hle⟩ ⟨hlt, -⟩
    omega
  · intro H n hstm hpos hsize
    have hmem : (H, n) ∈ statementRounds man t P := by
      rw [← toList_statements]
      exact Std.ExtTreeMap.mem_toList_iff_getElem?_eq_some.mpr hstm
    obtain ⟨hge, hcount⟩ := mem_rounds (validCount_nonneg man t) hmem
    have hcount : n = validCount man t H := hcount hpos.ne'
    have hlen : (((man.rankedNodes t H).map unranked).length : Int) = n := by
      rw [length_map, (rankedNodes_perm H).length_eq, hcount, validCount]
    refine ⟨(man.rankedNodes t H).map unranked, hlen, ?_, (rankedNodes_perm H).map _, ?_⟩
    · intro now i hi
      have hcovers : Covers (H, n) (H + 1 + i) := by
        unfold Covers
        omega
      have hfind : findStatement (H + 1 + i) (statementRounds man t P) 100000 0 = H :=
        findStatement_of_covers hpairs hmem hcovers (by simp only; omega) 0
      rw [← toList_statements] at hfind
      have hG := hP.genesisStatement_pos
      have hindex : (H + 1 + i - H - 1).toNat = i := by omega
      rw [reward_of_found (by omega) hfind (by omega), rankedNodes_statement, hindex, getElem?_eq_getElem hi]
      rfl
    · rw [map_map]
      exact ((rankedNodes_perm H).map CInfinitynode.vinBurnFund).nodup_iff.mpr (nodup_validNodes H)

theorem deterministicReward_windows_three :
    ∃ rets : List CInfinitynode, (rets.length : Int) = 3 ∧
      rets.Perm (((crowdedMan 3).validNodes .QSTEESNODE_10 110).map unranked) ∧
        ∀ i (hi : i < rets.length), (((crowdedMan 3).deterministicRewardStatement (finalParams 100)
          .QSTEESNODE_10).deterministicRewardAtHeight (finalParams 100) 0 (110 + 1 + i) .QSTEESNODE_10).map Prod.fst =
            .ok (some rets[i]) := by
  obtain ⟨-, -, hwindow⟩ := deterministicReward_windows (.final 100) (crowdedMan 3) .QSTEESNODE_10
  obtain ⟨rets, hlen, hrets, hperm, -⟩ := hwindow 110 3 (by decide +kernel) (by decide) (by decide)
  exact ⟨rets, hlen, hperm, hrets 0⟩

/-- A tier so large that the last lookup finds no node. -/
theorem deterministicReward_crowded :
    (((crowdedMan 100000).deterministicRewardStatement (finalParams 100) .QSTEESNODE_10).getStatements
        .QSTEESNODE_10).map[(110 : Int)]? = some 100000 ∧
      (((crowdedMan 100000).deterministicRewardStatement (finalParams 100) .QSTEESNODE_10).deterministicRewardAtHeight
        (finalParams 100) 0 (110 + 100000) .QSTEESNODE_10).map Prod.fst = .ok none := by
  have hrounds : statementRounds (crowdedMan 100000) .QSTEESNODE_10 (finalParams 100) = [(110, 100000)] := by
    have hone : statementRounds (crowdedMan 100000) .QSTEESNODE_10 (finalParams 100) =
      rounds (validCount (crowdedMan 100000) .QSTEESNODE_10) 111 1 110 := rfl
    rw [hone, rounds, crowdedMan_validCount]
    rfl
  rw [← toList_statements] at hrounds
  refine ⟨?_, ?_⟩
  · rw [← Std.ExtTreeMap.mem_toList_iff_getElem?_eq_some, hrounds]
    exact mem_singleton_self _
  · have hfind : findStatement (110 + 100000) [(110, 100000)] 100000 0 = 0 := by decide
    rw [deterministicRewardAtHeight, if_neg (by decide)]
    simp only [hrounds, hfind, if_true]
    rfl

end Qstees.Proofs
