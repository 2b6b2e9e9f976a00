import Qstees.Model.Infinitynode

/-!
# The infinity-node manager

`CInfinitynodeMan`: the list of nodes built from the chain, the reward statements of each tier and
the lookup of the node to reward at a height.
-/

namespace Qstees

def INF_MATURED_LIMIT : Int := 55

inductive SinType where
  | QSTEESNODE_1 | QSTEESNODE_5 | QSTEESNODE_10
deriving DecidableEq, Repr

def SinType.toInt : SinType → Int
  | .QSTEESNODE_1 => 1
  | .QSTEESNODE_5 => 5
  | .QSTEESNODE_10 => 10

structure Statements where
  map : StdMap Int Int := ∅
  lastHeight : Int := 0
  lastSize : Int := 0
deriving DecidableEq

structure CInfinitynodeMan where
  nCachedBlockHeight : Int := 0
  mapInfinitynodes : NodeMap := .empty
  mapInfinitynodesNonMatured : NodeMap := .empty
  /-- `mapStatementBIG`, `nBIGLastStmHeight` and `nBIGLastStmSize`, and the same for `MID` and `LIL`. -/
  stmBIG : Statements := {}
  stmMID : Statements := {}
  stmLIL : Statements := {}
  mapLastPaid : StdMap CScript Int := ∅
  nLastScanHeight : Int := 0

namespace CInfinitynodeMan

variable (man : CInfinitynodeMan)

def clear : CInfinitynodeMan :=
  { man with mapInfinitynodes := .empty, mapLastPaid := ∅, nLastScanHeight := 0 }

def add (inf : CInfinitynode) : CInfinitynodeMan :=
  match man.mapInfinitynodes.nodes[inf.vinBurnFund]? with
  | some _ => man
  | none => { man with mapInfinitynodes := man.mapInfinitynodes.insert inf }

/-- The highest payment to a script stays. -/
def addUpdateLastPaid (scriptPubKey : CScript) (nHeightLastPaid : Int) : CInfinitynodeMan :=
  match man.mapLastPaid[scriptPubKey]? with
  | some paid =>
    if paid < nHeightLastPaid then { man with mapLastPaid := man.mapLastPaid.insert scriptPubKey nHeightLastPaid }
      else man
  | none => { man with mapLastPaid := man.mapLastPaid.insert scriptPubKey nHeightLastPaid }

def updatedBlockTip (nHeight : Int) : CInfinitynodeMan := { man with nCachedBlockHeight := nHeight }

def setMetadata (nodeowner nodeAddress : String) (nodeService : CService) (nHeightUpdate : Int) (inf : CInfinitynode) :
    CInfinitynode :=
  if inf.collateralAddress = nodeowner ∧ inf.nMetadataHeight < nHeightUpdate then
    { inf with metadataNodeAddress := nodeAddress, metadataService := nodeService }
  else inf

/-- Sets the metadata of the owner's nodes. -/
def updateMetadata (nodeowner nodeAddress : String) (nodeService : CService) (nHeightUpdate : Int) : CInfinitynodeMan :=
  { man with
    mapInfinitynodes := man.mapInfinitynodes.modify (setMetadata nodeowner nodeAddress nodeService nHeightUpdate)
      (fun inf => by unfold setMetadata; split_ifs <;> rfl) }

def setLastReward (mapLastPaid : StdMap CScript Int) (inf : CInfinitynode) : CInfinitynode :=
  match mapLastPaid[inf.scriptPubKey]? with
  | some paid => { inf with nLastRewardHeight := paid }
  | none => inf

def updateLastPaid : CInfinitynodeMan :=
  { man with
    mapInfinitynodes := man.mapInfinitynodes.modify (setLastReward man.mapLastPaid)
      (fun inf => by unfold setLastReward; split <;> rfl) }

def getStatements : SinType → Statements
  | .QSTEESNODE_1 => man.stmLIL
  | .QSTEESNODE_5 => man.stmMID
  | .QSTEESNODE_10 => man.stmBIG

def setStatements (stm : Statements) : SinType → CInfinitynodeMan
  | .QSTEESNODE_1 => { man with stmLIL := stm }
  | .QSTEESNODE_5 => { man with stmMID := stm }
  | .QSTEESNODE_10 => { man with stmBIG := stm }

variable (nSinType : SinType) (nBlockHeight : Int)

/-- A node of the tier that is registered before a statement and not expired at it. The statement
loop and the ranking test this in a different order. -/
def isValidAt (inf : CInfinitynode) : Bool :=
  decide (inf.nQSTEESType = nSinType.toInt ∧ inf.nHeight < nBlockHeight ∧ nBlockHeight ≤ inf.nExpireHeight)

def nodeList : List CInfinitynode := man.mapInfinitynodes.nodes.toList.map Prod.snd

def validNodes : List CInfinitynode :=
  man.nodeList.filter (isValidAt nSinType nBlockHeight)

def Statements.record (stm : Statements) (nHeight nSize : Int) : Statements :=
  ⟨stm.map.insert nHeight nSize, nHeight, nSize⟩

/-- The loop of `deterministicRewardStatement`. Every round moves on by at least one block, or ends
the loop, so the distance to the cached height bounds the number of rounds. -/
def statementLoop (nSinType : SinType) : Nat → Int → Statements → Statements
  | 0, _, stm => stm
  | fuel + 1, stm_height, stm =>
    if stm_height < man.nCachedBlockHeight then
      let totalSinType : Int := (man.validNodes nSinType stm_height).length
      let stm_height := if totalSinType = 0 then man.nCachedBlockHeight else stm_height
      statementLoop nSinType fuel (stm_height + totalSinType) (Statements.record stm stm_height totalSinType)
    else stm

/-- `deterministicRewardStatement`. -/
def deterministicRewardStatement (P : Params) (nSinType : SinType) : CInfinitynodeMan :=
  man.setStatements
    (man.statementLoop nSinType (man.nCachedBlockHeight - P.nInfinityNodeGenesisStatement).toNat
      P.nInfinityNodeGenesisStatement { man.getStatements nSinType with map := ∅ }) nSinType

def rankBefore (a b : CInfinitynode) : Prop :=
  a.nHeight < b.nHeight ∨ (a.nHeight = b.nHeight ∧ compare a.vinBurnFund b.vinBurnFund ≠ .gt)

instance : DecidableRel rankBefore := fun a b => by unfold rankBefore; infer_instance

/-- The nodes valid at a height in the order of their ranks, with the rank they had. -/
def rankedNodes : List CInfinitynode :=
  (man.validNodes nSinType nBlockHeight).insertionSort rankBefore

def newRank (ranked : List CInfinitynode) (updateList : Bool) (inf : CInfinitynode) : CInfinitynode :=
  if inf.nQSTEESType = nSinType.toInt then
    match ranked.findIdx? (fun r => r.vinBurnFund == inf.vinBurnFund) with
    | some i => { inf with nRank := if updateList then i + 1 else 0 }
    | none => { inf with nRank := 0 }
  else inf

/-- `calculInfinityNodeRank`: the nodes in the order of their ranks, from rank 1 on, and the manager
with the ranks it sets. The returned copies carry the ranks as well. -/
def calculInfinityNodeRank (nSinType : SinType) (updateList : Bool) :
    List CInfinitynode × CInfinitynodeMan :=
  let ranked := man.rankedNodes nSinType nBlockHeight
  (ranked.map (newRank nSinType ranked updateList),
    { man with
      mapInfinitynodes := man.mapInfinitynodes.modify (newRank nSinType ranked updateList)
        (fun inf => by unfold newRank; split_ifs <;> (try split) <;> rfl) })

/-- The loop over the statements of a tier. -/
def findStatement (nBlockHeight : Int) : List (Int × Int) → Int → Int → Int
  | [], _, lastStatement => lastStatement
  | (height, size) :: stms, nDelta, lastStatement =>
    if nBlockHeight > height ∧ nDelta > nBlockHeight - height then
      findStatement nBlockHeight stms (nBlockHeight - height)
        (if nBlockHeight - height ≤ size then height else lastStatement)
    else findStatement nBlockHeight stms nDelta lastStatement

/-- `deterministicRewardAtHeight`: the node, or none where it returns false, and the manager after the
ranking. A rank without a node yields a new one, made at the time `now`. -/
def deterministicRewardAtHeight (P : Params) (now : Int) (nBlockHeight : Int) (nSinType : SinType) :
    Except String (Option CInfinitynode × CInfinitynodeMan) :=
  if nBlockHeight < P.nInfinityNodeGenesisStatement then
    .error "Assertion failed: nBlockHeight >= nInfinityNodeGenesisStatement"
  else
    let lastStatement := findStatement nBlockHeight (man.getStatements nSinType).map.toList 100000 0
    if lastStatement = 0 then .ok (none, man)
    else
      let (rankOfStatement, man) := man.calculInfinityNodeRank lastStatement nSinType false
      .ok (some ((rankOfStatement[(nBlockHeight - lastStatement - 1).toNat]?).getD { sigTime := now }), man)

end CInfinitynodeMan

structure InfinityState where
  infnodeman : CInfinitynodeMan := {}
  infnodersv : CInfinitynodersv := ∅

section Build

variable (E : InfinityEnv) (C : Chain) (now : Int)

def lastPaidScanDeepth (nBlockHeight : Int) : Int :=
  let deepth := max E.params.nLimitQSTEESNODE_1 (max E.params.nLimitQSTEESNODE_5 E.params.nLimitQSTEESNODE_10)
  let deepth := if nBlockHeight ≥ 350000 then 800 else deepth
  if deepth > nBlockHeight then nBlockHeight - 1 else deepth

/-- Apply one event of a scan that starts at `nBlockHeight`. -/
def applyEvent (nBlockHeight : Int) (s : InfinityState) : Event → InfinityState
  | .register inf =>
    let inf := { inf with sigTime := now }
    if inf.nHeight < nBlockHeight - INF_MATURED_LIMIT then { s with infnodeman := s.infnodeman.add inf }
    else
      { s with infnodeman :=
        { s.infnodeman with mapInfinitynodesNonMatured := s.infnodeman.mapInfinitynodesNonMatured.insert inf } }
  | .burnVote vote => { s with infnodersv := s.infnodersv.add vote }
  | .governanceVote vote =>
    if vote.nHeight < nBlockHeight - INF_MATURED_LIMIT then { s with infnodersv := s.infnodersv.add vote } else s
  | .metadata nodeowner nodeAddress service nHeight =>
    { s with infnodeman := s.infnodeman.updateMetadata nodeowner nodeAddress service nHeight }
  | .paid scriptPubKey nHeight =>
    if nHeight ≥ nBlockHeight - lastPaidScanDeepth E nBlockHeight then
      { s with infnodeman := s.infnodeman.addUpdateLastPaid scriptPubKey nHeight }
    else s
  | .abort => s

/-- Applies the events up to an abort. -/
def runEvents (nBlockHeight : Int) : List Event → InfinityState → Bool × InfinityState
  | [], s => (true, s)
  | .abort :: _, s => (false, s)
  | event :: events, s => runEvents nBlockHeight events (applyEvent E now nBlockHeight s event)

def InfinityState.reset (s : InfinityState) : InfinityState := ⟨s.infnodeman.clear, ∅⟩

def fullScanLow : Int := if E.params.network = .test then 1 else E.params.nInfinityNodeBeginHeight

def prepareScan (nLowHeight : Int) (s : InfinityState) : InfinityState × Int :=
  let s := { s with infnodeman := { s.infnodeman with mapInfinitynodesNonMatured := .empty } }
  if nLowHeight = E.params.nInfinityNodeBeginHeight then (s.reset, fullScanLow E)
  else (s, s.infnodeman.nLastScanHeight)

def finishScan (nBlockHeight : Int) (s : InfinityState) : InfinityState :=
  { s with infnodeman :=
    CInfinitynodeMan.updateLastPaid { s.infnodeman with nLastScanHeight := nBlockHeight - INF_MATURED_LIMIT } }

/-- `buildInfinitynodeList`: its result and the state it leaves, also where it returns false. The
dumps to disk are left out. -/
def buildInfinitynodeList (nBlockHeight nLowHeight : Int) (s : InfinityState) : Bool × InfinityState :=
  if nBlockHeight < E.params.nInfinityNodeBeginHeight then (true, s.reset)
  else
    let (s, low) := prepareScan E nLowHeight s
    if nBlockHeight > C.height then (false, s)
    else
      match runEvents E now nBlockHeight (scanEvents E C nBlockHeight low) s with
      | (false, s) => (false, s)
      | (true, s) => (true, finishScan nBlockHeight s)

/-- `initialInfinitynodeList`: a scan from the start. -/
def initialInfinitynodeList (nBlockHeight : Int) (s : InfinityState) : Bool × InfinityState :=
  if nBlockHeight < E.params.nInfinityNodeBeginHeight then (false, s)
  else buildInfinitynodeList E C now nBlockHeight E.params.nInfinityNodeBeginHeight s

/-- `updateInfinitynodeList`: a scan from the last one. -/
def updateInfinitynodeList (nBlockHeight : Int) (s : InfinityState) : Bool × InfinityState :=
  if s.infnodeman.nLastScanHeight = 0 then
    buildInfinitynodeList E C now nBlockHeight E.params.nInfinityNodeBeginHeight s
  else if nBlockHeight < s.infnodeman.nLastScanHeight then (false, s)
  else buildInfinitynodeList E C now nBlockHeight s.infnodeman.nLastScanHeight s

def CInfinitynodeMan.renewStatement (man : CInfinitynodeMan) (P : Params) (nSinType : SinType) : CInfinitynodeMan :=
  let stm := man.getStatements nSinType
  if stm.lastHeight + stm.lastSize - man.nCachedBlockHeight < INF_MATURED_LIMIT then
    let man := man.deterministicRewardStatement P nSinType
    (man.calculInfinityNodeRank (man.getStatements nSinType).lastHeight nSinType true).2
  else man

def CInfinitynodeMan.renewStatements (man : CInfinitynodeMan) (P : Params) : CInfinitynodeMan :=
  ((man.renewStatement P .QSTEESNODE_10).renewStatement P .QSTEESNODE_5).renewStatement P .QSTEESNODE_1

def checkScan (s : InfinityState) : InfinityState :=
  let man := s.infnodeman
  if man.nCachedBlockHeight > man.nLastScanHeight ∧ man.nLastScanHeight > 0 then
    (buildInfinitynodeList E C now man.nCachedBlockHeight man.nLastScanHeight s).2
  else s

/-- `CheckAndRemove` of the list. -/
def checkAndRemove (s : InfinityState) : InfinityState :=
  let man := s.infnodeman
  if man.nLastScanHeight = 0 ∧ man.nCachedBlockHeight > E.params.nInfinityNodeBeginHeight then
    (buildInfinitynodeList E C now man.nCachedBlockHeight E.params.nInfinityNodeBeginHeight s).2
  else
    let s := checkScan E C now s
    { s with infnodeman := s.infnodeman.renewStatements E.params }

end Build

/-- Reading a serialized manager back. Ranks, the nodes that are not matured and the cached height are
not stored; a wrong version string clears what was read. -/
def CInfinitynodeMan.reload (man saved : CInfinitynodeMan) (versionOk : Bool) : CInfinitynodeMan :=
  let man :=
    { saved with
      nCachedBlockHeight := man.nCachedBlockHeight
      mapInfinitynodesNonMatured := man.mapInfinitynodesNonMatured
      mapInfinitynodes := saved.mapInfinitynodes.modify (fun inf => { inf with nRank := 0 }) (fun _ => rfl) }
  if versionOk then man else man.clear

end Qstees
