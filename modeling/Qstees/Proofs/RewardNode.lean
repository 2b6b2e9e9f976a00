import Qstees.Proofs.Schedule

/-!
# The node a reward lookup returns

The statements and the nodes are kept by different operations.
-/

namespace Qstees.Proofs

open Windows List CInfinitynodeMan

def NoStatements (man : CInfinitynodeMan) : Prop := ∀ t (H n : Int), (man.getStatements t).map[H]? = some n → n ≤ 0

/-- The states of a manager under any interleaving of its operations, on any chains. An operation that discards the
nodes, which are `Clear`, a build that starts from an empty list and a reload with a wrong version, is only made where
`may` holds of the manager whose statements stay. -/
inductive ManRun (E : InfinityEnv) (may : CInfinitynodeMan → Prop) : InfinityState → Prop
  | init : ManRun E may {}
  | clear {s : InfinityState} (hs : ManRun E may s) (hmay : may s.infnodeman) :
      ManRun E may { s with infnodeman := s.infnodeman.clear }
  | build {s : InfinityState} (hs : ManRun E may s) (C : Chain) (now h nLow : Int)
      (hmay : h < E.params.nInfinityNodeBeginHeight ∨ nLow = E.params.nInfinityNodeBeginHeight → may s.infnodeman) :
      ManRun E may (buildInfinitynodeList E C now h nLow s).2
  | statement {s : InfinityState} (hs : ManRun E may s) (t : SinType) :
      ManRun E may { s with infnodeman := s.infnodeman.deterministicRewardStatement E.params t }
  | rank {s : InfinityState} (hs : ManRun E may s) (x : Int) (t : SinType) (updateList : Bool) :
      ManRun E may { s with infnodeman := (s.infnodeman.calculInfinityNodeRank x t updateList).2 }
  | tip {s : InfinityState} (hs : ManRun E may s) (nHeight : Int) :
      ManRun E may { s with infnodeman := s.infnodeman.updatedBlockTip nHeight }
  | reload {s saved : InfinityState} (hs : ManRun E may s) (hsaved : ManRun E may saved) (versionOk : Bool)
      (hmay : versionOk = false → may saved.infnodeman) :
      ManRun E may { s with infnodeman := s.infnodeman.reload saved.infnodeman versionOk }

variable {E : InfinityEnv} {P : Params} {may : CInfinitynodeMan → Prop} {man man' : CInfinitynodeMan}
    {s : InfinityState}

/-- The statements of each tier are windows that follow each other from the first statement on. -/
def ScheduleOk (P : Params) (man : CInfinitynodeMan) : Prop :=
  ∀ t, (man.getStatements t).map.toList.Pairwise (fun a b => 0 < a.2 ∧ a.1 + a.2 ≤ b.1) ∧
    ∀ w ∈ (man.getStatements t).map.toList, P.nInfinityNodeGenesisStatement ≤ w.1

lemma ScheduleOk.congr (hok : ScheduleOk P man) (hsame : ∀ t, man'.getStatements t = man.getStatements t) :
    ScheduleOk P man' := by
  intro t
  rw [hsame t]
  exact hok t

lemma ScheduleOk.statement (hok : ScheduleOk P man) (t : SinType) :
    ScheduleOk P (man.deterministicRewardStatement P t) := by
  intro t'
  by_cases ht : t' = t
  · subst ht
    rw [toList_statements]
    exact ⟨pairwise_statementRounds man t' P, fun w hw => (mem_rounds (validCount_nonneg man t') hw).1⟩
  · rw [deterministicRewardStatement, getStatements_setStatements_ne _ _ _ ht]
    exact hok t'

lemma getStatements_rank (x : Int) (t : SinType) (updateList : Bool) (t' : SinType) :
    (man.calculInfinityNodeRank x t updateList).2.getStatements t' = man.getStatements t' := by
  cases t' <;> rfl

lemma getStatements_clear (t : SinType) : man.clear.getStatements t = man.getStatements t := by
  cases t <;> rfl

lemma getStatements_reload (man saved : CInfinitynodeMan) (versionOk : Bool) (t : SinType) :
    (man.reload saved versionOk).getStatements t = saved.getStatements t := by
  unfold reload
  cases versionOk <;> cases t <;> rfl

lemma ManRun.scheduleOk (hrun : ManRun E may s) : ScheduleOk E.params s.infnodeman := by
  induction hrun with
  | init =>
    intro t
    cases t <;> exact ⟨.nil, nofun⟩
  | clear hs hmay ih => exact ih.congr (getStatements_clear)
  | @build s hs C now h nLow hmay ih => exact ih.congr (sameSchedule_build E C now h nLow s).statements
  | statement hs t ih => exact ih.statement t
  | rank hs x t updateList ih => exact ih.congr (getStatements_rank x t updateList)
  | tip hs nHeight ih => exact ih.congr (fun t => by cases t <;> rfl)
  | reload hs hsaved versionOk hmay ih ihsaved => exact ihsaved.congr (getStatements_reload _ _ versionOk)

def Covered (man : CInfinitynodeMan) : Prop :=
  ∀ t (H n : Int), (man.getStatements t).map[H]? = some n → n ≤ validCount man t H

lemma Covered.of_noStatements (hnone : NoStatements man) (hsame : ∀ t, man'.getStatements t = man.getStatements t) :
    Covered man' := by
  intro t H n hstm
  rw [hsame t] at hstm
  exact (hnone t H n hstm).trans (validCount_nonneg man' t H)

lemma Covered.congr (hok : Covered man) (hsame : ∀ t, man'.getStatements t = man.getStatements t)
    (hkept : ∀ o inf, regs man o = some inf → regs man' o = some inf) : Covered man' := by
  intro t H n hstm
  rw [hsame t] at hstm
  exact (hok t H n hstm).trans (validCount_mono hkept)

lemma regs_statement (t : SinType) (o : COutPoint) :
    regs (man.deterministicRewardStatement P t) o = regs man o := (sameList_setStatements man _ t).nodes o

lemma Covered.statement (hok : Covered man) (P : Params) (t : SinType) :
    Covered (man.deterministicRewardStatement P t) := by
  have hcount : ∀ t' H, validCount (man.deterministicRewardStatement P t) t' H = validCount man t' H := by
    intro t' H
    exact validCount_congr (fun o inf _ => by rw [regs_statement])
  intro t' H n hstm
  rw [hcount]
  by_cases ht : t' = t
  · subst ht
    have hmem : (H, n) ∈ statementRounds man t' P := by
      rw [← toList_statements]
      exact Std.ExtTreeMap.mem_toList_iff_getElem?_eq_some.mpr hstm
    by_cases hzero : n = 0
    · rw [hzero]
      exact validCount_nonneg man t' H
    · exact ((mem_rounds (validCount_nonneg _ _) hmem).2 hzero).le
  · rw [deterministicRewardStatement, getStatements_setStatements_ne _ _ _ ht] at hstm
    exact hok t' H n hstm

lemma build_kept {C : Chain} {now h nLow : Int} (hbegin : ¬ h < E.params.nInfinityNodeBeginHeight)
    (hinc : nLow ≠ E.params.nInfinityNodeBeginHeight) (o : COutPoint) (inf : CInfinitynode)
    (hinf : regs s.infnodeman o = some inf) :
    regs (buildInfinitynodeList E C now h nLow s).2.infnodeman o = some inf := by
  refine build_invariant (P := fun a => regs a.infnodeman o = some inf) hbegin ?_ ?_ ?_
  · rw [prepareScan_incremental hinc]
    exact hinf
  · intro e _ a ha
    rw [regs_applyEvent, ha]
    rfl
  · exact fun a ha => (regs_updateLastPaid _ o).trans ha

lemma ManRun.covered (hrun : ManRun E NoStatements s) : Covered s.infnodeman := by
  induction hrun with
  | init =>
    intro t H n hstm
    cases t <;> simp [getStatements] at hstm
  | clear hs hmay ih => exact .of_noStatements hmay (getStatements_clear)
  | @build s hs C now h nLow hmay ih =>
    have hsame := (sameSchedule_build E C now h nLow s).statements
    by_cases hreset : h < E.params.nInfinityNodeBeginHeight ∨ nLow = E.params.nInfinityNodeBeginHeight
    · exact .of_noStatements (hmay hreset) hsame
    · rw [not_or] at hreset
      exact ih.congr hsame (build_kept hreset.1 hreset.2)
  | statement hs t ih => exact ih.statement E.params t
  | rank hs x t updateList ih =>
    refine ih.congr (getStatements_rank x t updateList) ?_
    intro o inf hinf
    rw [(sameList_rank _ x t updateList).nodes]
    exact hinf
  | tip hs nHeight ih => exact ih.congr (fun t => by cases t <;> rfl) (fun o inf hinf => hinf)
  | @reload s saved hs hsaved versionOk hmay ih ihsaved =>
    have hsame := getStatements_reload s.infnodeman saved.infnodeman versionOk
    cases versionOk with
    | false => exact .of_noStatements (hmay rfl) hsame
    | true =>
      refine ihsaved.congr hsame ?_
      intro o inf hinf
      rw [← hinf]
      have hranks : ∀ inf : CInfinitynode, registered { inf with nRank := 0 } = registered inf := fun _ => rfl
      exact map_registered_modify rfl hranks o

/-- A node returned for a height: it is an entry of the list after the lookup, of the tier, registered before the
statement that covers the height and not expired at it. -/
structure ProperReward (man man' : CInfinitynodeMan) (t : SinType) (h : Int) (inf : CInfinitynode) : Prop where
  entry : man'.mapInfinitynodes.nodes[inf.vinBurnFund]? = some inf
  tier : inf.nQSTEESType = t.toInt
  valid : ∃ H n : Int, (man.getStatements t).map[H]? = some n ∧ H < h ∧ h ≤ H + n ∧ inf.nHeight < H ∧
    H ≤ inf.nExpireHeight

/-- Every node that a lookup names is a proper one. -/
def RewardsProper (P : Params) (man : CInfinitynodeMan) : Prop :=
  ∀ t h now inf man', man.deterministicRewardAtHeight P now h t = .ok (some inf, man') → ProperReward man man' t h inf

/-- The heights at which a statement is found are the first 99999 of its window. -/
def CoveredNear (man : CInfinitynodeMan) : Prop :=
  ∀ t (H n : Int), (man.getStatements t).map[H]? = some n → min n 99999 ≤ validCount man t H

lemma Covered.near (hok : Covered man) : CoveredNear man :=
  fun t H n hstm => (min_le_left n 99999).trans (hok t H n hstm)

lemma getElem?_rank {t : SinType} {H : Int} {inf : CInfinitynode} (hinf : inf ∈ man.rankedNodes t H) :
    (man.calculInfinityNodeRank H t false).2.mapInfinitynodes.nodes[(unranked inf).vinBurnFund]? =
      some (unranked inf) := by
  obtain ⟨hentry, htype, -⟩ := mem_validNodes.mp ((rankedNodes_perm H).mem_iff.mp hinf)
  have hrank : newRank t (man.rankedNodes t H) false inf = unranked inf := by
    unfold newRank
    rw [if_pos htype]
    split <;> rfl
  simp only [calculInfinityNodeRank, NodeMap.modify, Std.ExtTreeMap.getElem?_map, unranked]
  rw [hentry, Option.map_some, hrank]
  rfl

lemma length_rankedNodes (man : CInfinitynodeMan) (t : SinType) (H : Int) :
    ((man.rankedNodes t H).length : Int) = validCount man t H := by
  rw [(rankedNodes_perm H).length_eq, validCount]

lemma CoveredNear.rewardsProper (hok : CoveredNear man) : RewardsProper P man := by
  intro t h now inf man' hreward
  have hfst : (man.deterministicRewardAtHeight P now h t).map Prod.fst = .ok (some inf) := by
    rw [hreward]
    rfl
  obtain ⟨hG, hfound⟩ := found_of_reward hfst
  obtain ⟨⟨H, n⟩, hmem, hcovers, hnear, hH⟩ :=
    (findStatement_covers h (man.getStatements t).map.toList 100000 0).resolve_left hfound
  have hstm := Std.ExtTreeMap.mem_toList_iff_getElem?_eq_some.mp hmem
  rw [reward_of_found hG hH (hH ▸ hfound)] at hreward
  obtain ⟨hinf, hman'⟩ := Prod.mk.inj (Except.ok.inj hreward)
  have hlen := length_rankedNodes man t H
  have hle := hok t H n hstm
  simp only [Covers] at hcovers hnear
  have hi : (h - H - 1).toNat < (man.rankedNodes t H).length := by omega
  rw [getElem?_map, getElem?_eq_getElem hi] at hinf
  cases hinf
  have hranked : (man.rankedNodes t H)[(h - H - 1).toNat] ∈ man.rankedNodes t H := getElem_mem hi
  obtain ⟨-, htype, hlt, hexpire⟩ := mem_validNodes.mp ((rankedNodes_perm H).mem_iff.mp hranked)
  refine ⟨?_, htype, H, n, hstm, hcovers.1, hcovers.2, hlt, hexpire⟩
  rw [← hman']
  exact getElem?_rank hranked

lemma RewardsProper.coveredNear (hG : 0 < P.nInfinityNodeGenesisStatement) (hschedule : ScheduleOk P man)
    (hok : RewardsProper P man) :
    CoveredNear man := by
  intro t H n hstm
  by_contra hlt
  rw [not_le] at hlt
  have hmem : (H, n) ∈ (man.getStatements t).map.toList := Std.ExtTreeMap.mem_toList_iff_getElem?_eq_some.mpr hstm
  have hcount := validCount_nonneg man t H
  have hlen := length_rankedNodes man t H
  have hge := (hschedule t).2 _ hmem
  have hcovers : Covers (H, n) (H + min n 99999) := by
    unfold Covers
    simp only
    omega
  have hfind : findStatement (H + min n 99999) (man.getStatements t).map.toList 100000 0 = H :=
    findStatement_of_covers (hschedule t).1 hmem hcovers (by simp only; omega) 0
  simp only at hge
  have hreward := reward_of_found (by omega : P.nInfinityNodeGenesisStatement ≤ H + min n 99999) hfind (by omega) 0
  have hindex : (man.rankedNodes t H).length ≤ (H + min n 99999 - H - 1).toNat := by omega
  rw [getElem?_eq_none (by rw [length_map]; exact hindex)] at hreward
  have htier := (hok t _ 0 _ _ hreward).tier
  cases t <;> cases htier

/-- In every state of every run the lookups return nodes of the list exactly if each recorded statement has its valid
nodes, as far as it is searched; and that is so in the runs that discard nodes only while no statement with nodes is
recorded. -/
theorem deterministicReward_proper_iff (hG : 0 < E.params.nInfinityNodeGenesisStatement) (s : InfinityState) :
    (ManRun E (fun _ => True) s → (RewardsProper E.params s.infnodeman ↔ CoveredNear s.infnodeman)) ∧
      (ManRun E NoStatements s → RewardsProper E.params s.infnodeman) := by
  refine ⟨?_, ?_⟩
  · intro hrun
    exact ⟨fun hok => hok.coveredNear hG hrun.scheduleOk, fun hok => hok.rewardsProper⟩
  · intro hrun
    exact hrun.covered.near.rewardsProper

def exampleStated : InfinityState :=
  exampleRestated { exampleList with infnodeman := exampleList.infnodeman.updatedBlockTip 160 }

lemma exampleStated_run {may : CInfinitynodeMan → Prop} (hmay : may {}) : ManRun exampleEnv may exampleStated :=
  have hinit : ManRun exampleEnv may {} := .init
  have hbuild := hinit.build exampleChain 0 160 100 (fun _ => hmay)
  .statement (.tip hbuild 160) .QSTEESNODE_10

theorem deterministicReward_proper_example : RewardsProper exampleEnv.params exampleStated.infnodeman := by
  have hnone : NoStatements {} := by
    intro t H n hstm
    cases t <;> simp [getStatements] at hstm
  exact (deterministicReward_proper_iff (by decide) exampleStated).2 (exampleStated_run hnone)

theorem deterministicReward_cleared :
    let s := { exampleStated with infnodeman := exampleStated.infnodeman.clear }
    ManRun exampleEnv (fun _ => True) s ∧
      (s.infnodeman.deterministicRewardAtHeight exampleEnv.params 7 113 .QSTEESNODE_10).map Prod.fst =
        .ok (some { sigTime := 7 }) ∧
      ¬ RewardsProper exampleEnv.params s.infnodeman := by
  have hrun : ManRun exampleEnv (fun _ => True) { exampleStated with infnodeman := exampleStated.infnodeman.clear } :=
    .clear (exampleStated_run trivial) trivial
  refine ⟨hrun, by decide +kernel, ?_⟩
  intro hproper
  have hcovered := hproper.coveredNear (by decide) hrun.scheduleOk .QSTEESNODE_10 112 1 (by decide +kernel)
  exact absurd hcovered (by decide +kernel)

end Qstees.Proofs
