import Qstees.Model.FlatDatabase
import Qstees.Library.Runs

/-!
# Restarting the infinity-node manager

The file keeps everything but the ranks, the nodes that are not matured and the cached height.
-/

namespace Qstees.Proofs

open CInfinitynodeMan List

def forgetRank (inf : CInfinitynode) : CInfinitynode := { inf with nRank := 0 }

/-- Two managers that differ in ranks and nodes that are not matured only. -/
structure Alike (man man' : CInfinitynodeMan) : Prop where
  cached : man.nCachedBlockHeight = man'.nCachedBlockHeight
  nodes : ∀ o : COutPoint, (man.mapInfinitynodes.nodes[o]?).map forgetRank =
    (man'.mapInfinitynodes.nodes[o]?).map forgetRank
  statements : ∀ t, man.getStatements t = man'.getStatements t
  paid : man.mapLastPaid = man'.mapLastPaid
  scanned : man.nLastScanHeight = man'.nLastScanHeight

lemma read_write (db : CFlatDB SavedManager) (fresh man : CInfinitynodeMan) :
    db.read flatObject (some (db.write flatObject man)) fresh false = (.Ok, fresh.unserialize man.serialize) := by
  simp [CFlatDB.read, CFlatDB.write, flatObject]

lemma alike_restart (fresh man : CInfinitynodeMan) (tip : Int) :
    Alike ((fresh.unserialize man.serialize).updatedBlockTip tip) (man.updatedBlockTip tip) := by
  simp only [unserialize, serialize, ne_eq, not_true_eq_false, if_false]
  refine ⟨rfl, fun o => ?_, fun t => by cases t <;> rfl, rfl, rfl⟩
  simp only [updatedBlockTip, Std.ExtTreeMap.getElem?_map, Option.map_map]
  rfl

section Managers

variable {man man' : CInfinitynodeMan}

section

variable (h : Alike man man')
include h

lemma Alike.updatedBlockTip (nHeight : Int) :
    Alike (man.updatedBlockTip nHeight) (man'.updatedBlockTip nHeight) :=
  ⟨rfl, h.nodes, h.statements, h.paid, h.scanned⟩

lemma Alike.clear : Alike man.clear man'.clear :=
  ⟨h.cached, fun _ => rfl, h.statements, rfl, rfl⟩

lemma Alike.lookup (o : COutPoint) :
    (man.mapInfinitynodes.nodes[o]? = none ∧ man'.mapInfinitynodes.nodes[o]? = none) ∨
      ∃ inf inf', man.mapInfinitynodes.nodes[o]? = some inf ∧ man'.mapInfinitynodes.nodes[o]? = some inf' ∧
        forgetRank inf = forgetRank inf' := by
  have hnode := h.nodes o
  cases hfound : man.mapInfinitynodes.nodes[o]? <;> cases hfound' : man'.mapInfinitynodes.nodes[o]? <;>
    simp_all

lemma Alike.add (inf : CInfinitynode) : Alike (man.add inf) (man'.add inf) := by
  unfold CInfinitynodeMan.add
  rcases h.lookup inf.vinBurnFund with ⟨hnone, hnone'⟩ | ⟨old, old', hold, hold', -⟩
  · rw [hnone, hnone']
    refine ⟨h.cached, fun o => ?_, h.statements, h.paid, h.scanned⟩
    simp only [NodeMap.insert, Std.ExtTreeMap.getElem?_insert]
    split_ifs
    · rfl
    · exact h.nodes o
  · rw [hold, hold']
    exact h

lemma Alike.addUpdateLastPaid (scriptPubKey : CScript) (nHeight : Int) :
    Alike (man.addUpdateLastPaid scriptPubKey nHeight) (man'.addUpdateLastPaid scriptPubKey nHeight) := by
  have hpaid : Alike { man with mapLastPaid := man.mapLastPaid.insert scriptPubKey nHeight }
      { man' with mapLastPaid := man'.mapLastPaid.insert scriptPubKey nHeight } :=
    ⟨h.cached, h.nodes, h.statements, by rw [h.paid], h.scanned⟩
  unfold CInfinitynodeMan.addUpdateLastPaid
  rw [← h.paid]
  cases man.mapLastPaid[scriptPubKey]? with
  | none => exact h.paid ▸ hpaid
  | some paid =>
    dsimp only
    split_ifs
    · exact h.paid ▸ hpaid
    · exact h

lemma Alike.modify {f f' : CInfinitynode → CInfinitynode}
    (hkey : ∀ inf, (f inf).vinBurnFund = inf.vinBurnFund) (hkey' : ∀ inf, (f' inf).vinBurnFund = inf.vinBurnFund)
    (hf : ∀ inf inf', forgetRank inf = forgetRank inf' → forgetRank (f inf) = forgetRank (f' inf')) :
    Alike { man with mapInfinitynodes := man.mapInfinitynodes.modify f hkey }
      { man' with mapInfinitynodes := man'.mapInfinitynodes.modify f' hkey' } := by
  refine ⟨h.cached, fun o => ?_, h.statements, h.paid, h.scanned⟩
  simp only [NodeMap.modify, Std.ExtTreeMap.getElem?_map]
  rcases h.lookup o with ⟨hnone, hnone'⟩ | ⟨inf, inf', hinf, hinf', heq⟩
  · rw [hnone, hnone']
    rfl
  · rw [hinf, hinf']
    exact congrArg some (hf inf inf' heq)

lemma Alike.updateMetadata (nodeowner nodeAddress : String) (nodeService : CService) (nHeight : Int) :
    Alike (man.updateMetadata nodeowner nodeAddress nodeService nHeight)
      (man'.updateMetadata nodeowner nodeAddress nodeService nHeight) := by
  have hforget : ∀ inf, forgetRank (setMetadata nodeowner nodeAddress nodeService nHeight inf) =
      setMetadata nodeowner nodeAddress nodeService nHeight (forgetRank inf) := by
    intro inf
    by_cases hc : inf.collateralAddress = nodeowner ∧ inf.nMetadataHeight < nHeight
    · have hc' : (forgetRank inf).collateralAddress = nodeowner ∧ (forgetRank inf).nMetadataHeight < nHeight := hc
      rw [setMetadata, if_pos hc, setMetadata, if_pos hc']
      rfl
    · have hc' : ¬((forgetRank inf).collateralAddress = nodeowner ∧ (forgetRank inf).nMetadataHeight < nHeight) := hc
      rw [setMetadata, if_neg hc, setMetadata, if_neg hc']
  apply h.modify
  intro inf inf' hinf
  rw [hforget, hforget, hinf]

lemma Alike.updateLastPaid : Alike man.updateLastPaid man'.updateLastPaid := by
  have hforget : ∀ paid inf, forgetRank (setLastReward paid inf) = setLastReward paid (forgetRank inf) := by
    intro paid inf
    have hscript : (forgetRank inf).scriptPubKey = inf.scriptPubKey := rfl
    unfold setLastReward
    rw [hscript]
    cases paid[inf.scriptPubKey]? <;> rfl
  apply h.modify
  intro inf inf' hinf
  rw [hforget, hforget, hinf, h.paid]

lemma Alike.nodeList : man.nodeList.map forgetRank = man'.nodeList.map forgetRank := by
  have hmaps : man.mapInfinitynodes.nodes.map (fun _ inf => forgetRank inf) =
      man'.mapInfinitynodes.nodes.map (fun _ inf => forgetRank inf) := by
    apply Std.ExtTreeMap.ext_getElem?
    intro o
    rw [Std.ExtTreeMap.getElem?_map, Std.ExtTreeMap.getElem?_map]
    exact h.nodes o
  have hlists := congrArg (fun m => m.toList.map Prod.snd) hmaps
  simpa only [CInfinitynodeMan.nodeList, Std.ExtTreeMap.toList_map, map_map, Function.comp_def] using hlists

lemma Alike.validNodes (t : SinType) (nHeight : Int) :
    (man.validNodes t nHeight).map forgetRank = (man'.validNodes t nHeight).map forgetRank := by
  have hvalid : isValidAt t nHeight ∘ forgetRank = isValidAt t nHeight := rfl
  unfold CInfinitynodeMan.validNodes
  rw [← hvalid, ← filter_map, ← filter_map, h.nodeList]

lemma Alike.rankedNodes (t : SinType) (nHeight : Int) :
    (man.rankedNodes t nHeight).map forgetRank = (man'.rankedNodes t nHeight).map forgetRank := by
  unfold CInfinitynodeMan.rankedNodes
  have hsort : ∀ nodes : List CInfinitynode,
      (nodes.insertionSort rankBefore).map forgetRank = (nodes.map forgetRank).insertionSort rankBefore :=
    fun nodes => map_insertionSort rankBefore rankBefore forgetRank nodes (fun _ _ _ _ => Iff.rfl)
  rw [hsort, hsort, h.validNodes]

lemma Alike.setStatements (stm : Statements) (t : SinType) :
    Alike (man.setStatements stm t) (man'.setStatements stm t) := by
  cases t
  all_goals
    refine ⟨h.cached, h.nodes, fun t' => ?_, h.paid, h.scanned⟩
    have hstm := h.statements t'
    cases t' <;> first | rfl | exact hstm

lemma Alike.statementLoop (t : SinType) (fuel : Nat) (height : Int) (stm : Statements) :
    man.statementLoop t fuel height stm = man'.statementLoop t fuel height stm := by
  induction fuel generalizing height stm with
  | zero => rfl
  | succ fuel ih =>
    have htotal : (man.validNodes t height).length = (man'.validNodes t height).length := by
      simpa using congrArg List.length (h.validNodes t height)
    simp only [CInfinitynodeMan.statementLoop, htotal, h.cached, ih]

lemma Alike.deterministicRewardStatement (P : Params) (t : SinType) :
    Alike (man.deterministicRewardStatement P t) (man'.deterministicRewardStatement P t) := by
  unfold CInfinitynodeMan.deterministicRewardStatement
  rw [h.statementLoop, h.cached, h.statements]
  exact h.setStatements _ t

end

lemma forgetRank_newRank (t : SinType) (ranked : List CInfinitynode) (updateList : Bool) (inf : CInfinitynode) :
    forgetRank (newRank t ranked updateList inf) = forgetRank inf := by
  unfold newRank
  by_cases htype : inf.nQSTEESType = t.toInt
  · rw [if_pos htype]
    cases ranked.findIdx? (fun r => r.vinBurnFund == inf.vinBurnFund) <;> rfl
  · rw [if_neg htype]

lemma newRank_forgetRank {t : SinType} {ranked : List CInfinitynode} {updateList : Bool} {inf : CInfinitynode}
    (htype : inf.nQSTEESType = t.toInt) :
    newRank t (ranked.map forgetRank) updateList (forgetRank inf) = newRank t ranked updateList inf := by
  have htype' : (forgetRank inf).nQSTEESType = t.toInt := htype
  have hplace : (ranked.map forgetRank).findIdx? (fun r => r.vinBurnFund == (forgetRank inf).vinBurnFund) =
      ranked.findIdx? (fun r => r.vinBurnFund == inf.vinBurnFund) := by
    rw [findIdx?_map]
    rfl
  unfold newRank
  rw [if_pos htype, if_pos htype', hplace]
  cases ranked.findIdx? (fun r => r.vinBurnFund == inf.vinBurnFund) <;> rfl

lemma type_of_mem_rankedNodes {t : SinType} {nHeight : Int} {inf : CInfinitynode}
    (h : inf ∈ man.rankedNodes t nHeight) :
    inf.nQSTEESType = t.toInt := by
  rw [CInfinitynodeMan.rankedNodes, mem_insertionSort] at h
  have hvalid := (mem_filter.mp h).2
  exact (of_decide_eq_true hvalid).1

lemma Alike.calculInfinityNodeRank (h : Alike man man') (nHeight : Int) (t : SinType) (updateList : Bool) :
    (man.calculInfinityNodeRank nHeight t updateList).1 = (man'.calculInfinityNodeRank nHeight t updateList).1 ∧
      Alike (man.calculInfinityNodeRank nHeight t updateList).2
        (man'.calculInfinityNodeRank nHeight t updateList).2 := by
  have hanswer : ∀ man : CInfinitynodeMan, (man.calculInfinityNodeRank nHeight t updateList).1 =
      ((man.rankedNodes t nHeight).map forgetRank).map
        (newRank t ((man.rankedNodes t nHeight).map forgetRank) updateList) := by
    intro man
    unfold CInfinitynodeMan.calculInfinityNodeRank
    rw [map_map]
    apply map_congr_left
    intro inf hinf
    exact (newRank_forgetRank (type_of_mem_rankedNodes hinf)).symm
  refine ⟨by rw [hanswer, hanswer, h.rankedNodes], ?_⟩
  apply h.modify
  intro inf inf' hinf
  rw [forgetRank_newRank, forgetRank_newRank, hinf]

lemma Alike.deterministicRewardAtHeight (h : Alike man man') (P : Params) (now nHeight : Int) (t : SinType) :
    (∃ e, man.deterministicRewardAtHeight P now nHeight t = .error e ∧
      man'.deterministicRewardAtHeight P now nHeight t = .error e) ∨
      ∃ node after after', man.deterministicRewardAtHeight P now nHeight t = .ok (node, after) ∧
        man'.deterministicRewardAtHeight P now nHeight t = .ok (node, after') ∧ Alike after after' := by
  unfold CInfinitynodeMan.deterministicRewardAtHeight
  rw [h.statements]
  by_cases hheight : nHeight < P.nInfinityNodeGenesisStatement
  · rw [if_pos hheight, if_pos hheight]
    exact .inl ⟨_, rfl, rfl⟩
  rw [if_neg hheight, if_neg hheight]
  dsimp only
  generalize findStatement nHeight (man'.getStatements t).map.toList 100000 0 = lastStatement
  obtain ⟨hranks, hnext⟩ := h.calculInfinityNodeRank lastStatement t false
  right
  by_cases hfound : lastStatement = 0
  · rw [if_pos hfound, if_pos hfound]
    exact ⟨_, _, _, rfl, rfl, h⟩
  · rw [if_neg hfound, if_neg hfound, hranks]
    exact ⟨_, _, _, rfl, rfl, hnext⟩

end Managers

section Builds

variable {E : InfinityEnv} {s s' : InfinityState}

section

variable (h : Alike s.infnodeman s'.infnodeman)
include h

lemma Alike.applyEvent (now nBlockHeight : Int) (event : Event) :
    Alike (applyEvent E now nBlockHeight s event).infnodeman (applyEvent E now nBlockHeight s' event).infnodeman := by
  cases event with
  | register inf =>
    simp only [Qstees.applyEvent]
    split_ifs
    · exact h.add _
    · exact ⟨h.cached, h.nodes, h.statements, h.paid, h.scanned⟩
  | burnVote vote => exact h
  | governanceVote vote =>
    simp only [Qstees.applyEvent]
    split_ifs
    · exact h
    · exact h
  | metadata nodeowner nodeAddress service nHeight => exact h.updateMetadata nodeowner nodeAddress service nHeight
  | paid scriptPubKey nHeight =>
    simp only [Qstees.applyEvent]
    split_ifs
    · exact h.addUpdateLastPaid scriptPubKey nHeight
    · exact h
  | abort => exact h

lemma Alike.runEvents (now nBlockHeight : Int) (events : List Event) :
    (runEvents E now nBlockHeight events s).1 = (runEvents E now nBlockHeight events s').1 ∧
      Alike (runEvents E now nBlockHeight events s).2.infnodeman
        (runEvents E now nBlockHeight events s').2.infnodeman := by
  induction events generalizing s s' with
  | nil => exact ⟨rfl, h⟩
  | cons event events ih =>
    have hnext := ih (h.applyEvent (E := E) now nBlockHeight event)
    cases event with
    | abort => exact ⟨rfl, h⟩
    | _ => exact hnext

lemma Alike.prepareScan (nLowHeight : Int) :
    (prepareScan E nLowHeight s).2 = (prepareScan E nLowHeight s').2 ∧
      Alike (prepareScan E nLowHeight s).1.infnodeman (prepareScan E nLowHeight s').1.infnodeman := by
  unfold Qstees.prepareScan
  dsimp only
  split_ifs
  · exact ⟨rfl, h.cached, fun _ => rfl, h.statements, rfl, rfl⟩
  · exact ⟨h.scanned, h.cached, h.nodes, h.statements, h.paid, h.scanned⟩

lemma Alike.finishScan (nBlockHeight : Int) :
    Alike (finishScan nBlockHeight s).infnodeman (finishScan nBlockHeight s').infnodeman :=
  Alike.updateLastPaid ⟨h.cached, h.nodes, h.statements, h.paid, rfl⟩

lemma Alike.build (C : Chain) (now nBlockHeight nLowHeight : Int) :
    (buildInfinitynodeList E C now nBlockHeight nLowHeight s).1 =
      (buildInfinitynodeList E C now nBlockHeight nLowHeight s').1 ∧
      Alike (buildInfinitynodeList E C now nBlockHeight nLowHeight s).2.infnodeman
        (buildInfinitynodeList E C now nBlockHeight nLowHeight s').2.infnodeman := by
  obtain ⟨hlow, hprepared⟩ := h.prepareScan (E := E) nLowHeight
  obtain ⟨hresult, hscanned⟩ := hprepared.runEvents (E := E) now nBlockHeight
    (scanEvents E C nBlockHeight (Qstees.prepareScan E nLowHeight s').2)
  unfold buildInfinitynodeList
  by_cases hbegin : nBlockHeight < E.params.nInfinityNodeBeginHeight
  · rw [if_pos hbegin, if_pos hbegin]
    exact ⟨rfl, h.clear⟩
  rw [if_neg hbegin, if_neg hbegin]
  dsimp only
  rw [hlow]
  by_cases hchain : nBlockHeight > C.height
  · rw [if_pos hchain, if_pos hchain]
    exact ⟨rfl, hprepared⟩
  rw [if_neg hchain, if_neg hchain]
  generalize Qstees.runEvents E now nBlockHeight _ (Qstees.prepareScan E nLowHeight s).1 =
    scanned at hresult hscanned ⊢
  generalize Qstees.runEvents E now nBlockHeight _ (Qstees.prepareScan E nLowHeight s').1 =
    scanned' at hresult hscanned ⊢
  obtain ⟨ok, after⟩ := scanned
  obtain ⟨ok', after'⟩ := scanned'
  obtain rfl : ok = ok' := hresult
  cases ok with
  | false => exact ⟨rfl, hscanned⟩
  | true => exact ⟨rfl, hscanned.finishScan nBlockHeight⟩

lemma Alike.update (C : Chain) (now nBlockHeight : Int) :
    (updateInfinitynodeList E C now nBlockHeight s).1 = (updateInfinitynodeList E C now nBlockHeight s').1 ∧
      Alike (updateInfinitynodeList E C now nBlockHeight s).2.infnodeman
        (updateInfinitynodeList E C now nBlockHeight s').2.infnodeman := by
  unfold updateInfinitynodeList
  rw [h.scanned]
  split_ifs
  · exact h.build C now nBlockHeight _
  · exact ⟨rfl, h⟩
  · exact h.build C now nBlockHeight _

end

lemma Alike.renewStatement {man man' : CInfinitynodeMan} (h : Alike man man') (P : Params) (t : SinType) :
    Alike (man.renewStatement P t) (man'.renewStatement P t) := by
  have hnew := h.deterministicRewardStatement P t
  unfold CInfinitynodeMan.renewStatement
  dsimp only
  rw [h.statements, h.cached]
  split_ifs
  · rw [hnew.statements]
    exact (hnew.calculInfinityNodeRank _ t true).2
  · exact h

lemma Alike.checkScan (h : Alike s.infnodeman s'.infnodeman) (C : Chain) (now : Int) :
    Alike (checkScan E C now s).infnodeman (checkScan E C now s').infnodeman := by
  unfold Qstees.checkScan
  dsimp only
  rw [h.cached, h.scanned]
  split_ifs
  · exact (h.build C now _ _).2
  · exact h

lemma Alike.checkAndRemove (h : Alike s.infnodeman s'.infnodeman) (C : Chain) (now : Int) :
    Alike (checkAndRemove E C now s).infnodeman (checkAndRemove E C now s').infnodeman := by
  unfold Qstees.checkAndRemove
  dsimp only
  rw [h.cached, h.scanned]
  split_ifs
  · exact (h.build C now _ _).2
  · exact (((h.checkScan C now).renewStatement _ _).renewStatement _ _).renewStatement _ _

end Builds

inductive ManagerAction where
  | updatedBlockTip (nHeight : Int)
  | build (C : Chain) (now nBlockHeight nLowHeight : Int)
  | update (C : Chain) (now nBlockHeight : Int)
  | checkAndRemove (C : Chain) (now : Int)
  | statement (t : SinType)
  | rank (nBlockHeight : Int) (t : SinType) (updateList : Bool)
  | reward (now nBlockHeight : Int) (t : SinType)

inductive ManagerAnswer where
  | done
  | built (result : Bool)
  | statements (stm : SinType → Statements)
  | ranks (nodes : List CInfinitynode)
  | reward (node : Except String (Option CInfinitynode))

/-- One call, with what its caller sees of it; after a recomputation these are the statements. -/
def ManagerAction.step (E : InfinityEnv) (s : InfinityState) : ManagerAction → ManagerAnswer × InfinityState
  | .updatedBlockTip nHeight => (.done, { s with infnodeman := s.infnodeman.updatedBlockTip nHeight })
  | .build C now nBlockHeight nLowHeight =>
    let (result, s) := buildInfinitynodeList E C now nBlockHeight nLowHeight s
    (.built result, s)
  | .update C now nBlockHeight =>
    let (result, s) := updateInfinitynodeList E C now nBlockHeight s
    (.built result, s)
  | .checkAndRemove C now =>
    let s := Qstees.checkAndRemove E C now s
    (.statements s.infnodeman.getStatements, s)
  | .statement t =>
    let man := s.infnodeman.deterministicRewardStatement E.params t
    (.statements man.getStatements, { s with infnodeman := man })
  | .rank nBlockHeight t updateList =>
    let (nodes, man) := s.infnodeman.calculInfinityNodeRank nBlockHeight t updateList
    (.ranks nodes, { s with infnodeman := man })
  | .reward now nBlockHeight t =>
    match s.infnodeman.deterministicRewardAtHeight E.params now nBlockHeight t with
    | .error e => (.reward (.error e), s)
    | .ok (node, man) => (.reward (.ok node), { s with infnodeman := man })

lemma Alike.step {E : InfinityEnv} {s s' : InfinityState} (h : Alike s.infnodeman s'.infnodeman)
    (action : ManagerAction) :
    (action.step E s).1 = (action.step E s').1 ∧
      Alike (action.step E s).2.infnodeman (action.step E s').2.infnodeman := by
  cases action with
  | updatedBlockTip nHeight => exact ⟨rfl, h.updatedBlockTip nHeight⟩
  | build C now nBlockHeight nLowHeight =>
    obtain ⟨hresult, hnext⟩ := h.build (E := E) C now nBlockHeight nLowHeight
    exact ⟨congrArg ManagerAnswer.built hresult, hnext⟩
  | update C now nBlockHeight =>
    obtain ⟨hresult, hnext⟩ := h.update (E := E) C now nBlockHeight
    exact ⟨congrArg ManagerAnswer.built hresult, hnext⟩
  | checkAndRemove C now =>
    have hnext := h.checkAndRemove (E := E) C now
    exact ⟨congrArg ManagerAnswer.statements (funext hnext.statements), hnext⟩
  | statement t =>
    have hnext := h.deterministicRewardStatement E.params t
    exact ⟨congrArg ManagerAnswer.statements (funext hnext.statements), hnext⟩
  | rank nBlockHeight t updateList =>
    obtain ⟨hresult, hnext⟩ := h.calculInfinityNodeRank nBlockHeight t updateList
    exact ⟨congrArg ManagerAnswer.ranks hresult, hnext⟩
  | reward now nBlockHeight t =>
    simp only [ManagerAction.step]
    rcases h.deterministicRewardAtHeight E.params now nBlockHeight t with ⟨e, he, he'⟩
      | ⟨node, after, after', hok, hok', hnext⟩
    · rw [he, he']
      exact ⟨rfl, h⟩
    · rw [hok, hok']
      exact ⟨rfl, hnext⟩

lemma Alike.serialize {man man' : CInfinitynodeMan} (h : Alike man man') : man.serialize = man'.serialize := by
  have hnodes : (man.mapInfinitynodes.nodes.map fun _ inf => inf.serialize) =
      man'.mapInfinitynodes.nodes.map fun _ inf => inf.serialize := by
    apply Std.ExtTreeMap.ext_getElem?
    intro o
    have hnode := congrArg (Option.map CInfinitynode.serialize) (h.nodes o)
    rw [Option.map_map, Option.map_map] at hnode
    rw [Std.ExtTreeMap.getElem?_map, Std.ExtTreeMap.getElem?_map]
    exact hnode
  have hbig : man.stmBIG = man'.stmBIG := h.statements .QSTEESNODE_10
  have hmid : man.stmMID = man'.stmMID := h.statements .QSTEESNODE_5
  have hlil : man.stmLIL = man'.stmLIL := h.statements .QSTEESNODE_1
  unfold CInfinitynodeMan.serialize
  simp only [hnodes, hbig, hmid, hlil, h.paid, h.scanned]

/-- The votes are kept elsewhere, and nothing that is asked of the manager reads them. -/
def AlikeState (s s' : InfinityState) : Prop := Alike s.infnodeman s'.infnodeman

/-- The file of a manager, read into any other one: with the height of the tip, every run of calls has the answers of
the manager that was written, and ends with the same file. -/
theorem restart_answers (E : InfinityEnv) (db : CFlatDB SavedManager) (fresh man : CInfinitynodeMan)
    (rsv rsv' : CInfinitynodersv) (tip : Int) (actions : List ManagerAction) :
    ∃ loaded, db.read flatObject (some (db.write flatObject man)) fresh false = (.Ok, loaded) ∧
      Runs.answers (ManagerAction.step E) ⟨loaded.updatedBlockTip tip, rsv'⟩ actions =
        Runs.answers (ManagerAction.step E) ⟨man.updatedBlockTip tip, rsv⟩ actions ∧
      (Runs.final (ManagerAction.step E) ⟨loaded.updatedBlockTip tip, rsv'⟩ actions).infnodeman.serialize =
        (Runs.final (ManagerAction.step E) ⟨man.updatedBlockTip tip, rsv⟩ actions).infnodeman.serialize := by
  have hrestart :
    AlikeState ⟨(fresh.unserialize man.serialize).updatedBlockTip tip, rsv'⟩ ⟨man.updatedBlockTip tip, rsv⟩ :=
    alike_restart fresh man tip
  obtain ⟨hanswers, hfinal⟩ := Runs.answers_eq_of_bisim (R := AlikeState)
    (fun s s' action (h : AlikeState s s') => Alike.step (E := E) h action) hrestart actions
  exact ⟨_, read_write db fresh man, hanswers, Alike.serialize hfinal⟩

section Dumps

variable (db : CFlatDB SavedManager) (tmpObjToLoad : CInfinitynodeMan)

/-- The file after the managers were dumped one after the other. -/
def dumped (file : Option (FlatFile SavedManager)) (saves : List CInfinitynodeMan) : Option (FlatFile SavedManager) :=
  saves.foldl (fun file man => (db.dump flatObject file tmpObjToLoad man).2) file

lemma dumped_of_refused {file : Option (FlatFile SavedManager)} (saves : List CInfinitynodeMan)
    (h : CFlatDB.proceeds (db.read flatObject file tmpObjToLoad true).1 = false) :
    dumped db tmpObjToLoad file saves = file := by
  induction saves with
  | nil => rfl
  | cons man saves ih =>
    rw [dumped, foldl_cons, CFlatDB.dump, h]
    exact ih

lemma proceeds_dumped {file : Option (FlatFile SavedManager)} (saves : List CInfinitynodeMan)
    (h : CFlatDB.proceeds (db.read flatObject file tmpObjToLoad true).1 = true) :
    CFlatDB.proceeds (db.read flatObject (dumped db tmpObjToLoad file saves) tmpObjToLoad true).1 = true := by
  induction saves generalizing file with
  | nil => exact h
  | cons man saves ih =>
    rw [dumped, foldl_cons, CFlatDB.dump, h]
    -- a file that was written is read without an error
    exact ih (by simp [CFlatDB.read, CFlatDB.write, flatObject, CFlatDB.proceeds])

/-- A file that cannot be told to be ours is never overwritten; otherwise a node starts with what was dumped last. -/
theorem dumps_restore_or_refuse (fresh man : CInfinitynodeMan) (file : Option (FlatFile SavedManager))
    (saves : List CInfinitynodeMan) :
    if CFlatDB.proceeds (db.read flatObject file tmpObjToLoad true).1 then
      ∃ loaded, db.load flatObject (dumped db tmpObjToLoad file (saves ++ [man])) fresh = (true, loaded) ∧
        ∀ tip, Alike (loaded.updatedBlockTip tip) (man.updatedBlockTip tip)
    else dumped db tmpObjToLoad file (saves ++ [man]) = file := by
  split_ifs with h
  · have hlast : dumped db tmpObjToLoad file (saves ++ [man]) = some (db.write flatObject man) := by
      rw [dumped, foldl_append]
      exact congrArg Prod.snd (if_pos (proceeds_dumped db tmpObjToLoad saves h))
    refine ⟨fresh.unserialize man.serialize, ?_, alike_restart fresh man⟩
    rw [hlast, CFlatDB.load, read_write]
    rfl
  · exact dumped_of_refused db tmpObjToLoad _ (Bool.not_eq_true _ ▸ h)

end Dumps

end Qstees.Proofs
