import Qstees.Model.MasternodeMan

/-!
# The checks of the whole list

The passes over `mapMasternodes` that remove nodes with a burn of another node and nodes above the limit of their tier.
-/

namespace Qstees

variable (E : MnEnv) (ctx : MnContext)

/-- Less for `CompareSigTime` and for `CompareLastPaidBlock`, which compare inputs by their outpoints. -/
def comparePair : Int × CMasternode → Int × CMasternode → Ordering :=
  compareLex (compareOn Prod.fst) (compareOn fun t => t.2.vin.prevout)

def sortPairs (v : List (Int × CMasternode)) : List (Int × CMasternode) :=
  v.insertionSort (fun t1 t2 => (comparePair t1 t2).isLE)

namespace CMasternodeMan

def nodes (man : CMasternodeMan) : List CMasternode := man.mapMasternodes.toList.map Prod.snd

/-- The loop over `vpMasternodesToBan`; a node that is not found would be undefined behaviour. -/
def removeNodes (man : CMasternodeMan) (vpMasternodesToBan : List CMasternode) : CMasternodeMan :=
  vpMasternodesToBan.foldl (fun man pmn =>
    match man.mapMasternodes[pmn.vin.prevout]? with
    | none => man
    | some mn =>
      { man.eraseSeen (mn.getHash E) with mapMasternodes := man.mapMasternodes.erase pmn.vin.prevout }) man

structure BurnFundPass where
  nBurnFundMap : StdMap COutPoint CMasternode := ∅
  vpMasternodesToBan : List CMasternode := []

/-- Of two nodes on one burn the later signed goes. -/
def BurnFundPass.visit (s : BurnFundPass) (mnb : CMasternode) : BurnFundPass :=
  match s.nBurnFundMap[mnb.vinBurnFund.prevout]? with
  | some candidate =>
    if candidate.sigTime > mnb.sigTime then
      { nBurnFundMap := (s.nBurnFundMap.erase candidate.vinBurnFund.prevout).insert mnb.vinBurnFund.prevout mnb
        vpMasternodesToBan := s.vpMasternodesToBan ++ [candidate] }
    else { s with vpMasternodesToBan := s.vpMasternodesToBan ++ [mnb] }
  | none => { s with nBurnFundMap := s.nBurnFundMap.insert mnb.vinBurnFund.prevout mnb }

def checkAndRemoveBurnFundNotUniqueNode (man : CMasternodeMan) : CMasternodeMan :=
  if !ctx.isMasternodeListSynced then man
  else man.removeNodes E (man.nodes.foldl BurnFundPass.visit {}).vpMasternodesToBan

def limitAt (nCachedBlockHeight nLimit : Int) : Int :=
  if nCachedBlockHeight ≥ 330000 ∨ (E.networkID = .test ∧ nCachedBlockHeight ≥ 1000) then 5000 else nLimit

/-- `CheckAndRemoveLimitNumberNode`. -/
def checkAndRemoveLimitNumberNode (nCachedBlockHeight nSinType nLimit : Int) (man : CMasternodeMan) : CMasternodeMan :=
  if !ctx.isMasternodeListSynced then man
  else
    let vecSigTimeType :=
      sortPairs ((man.nodes.filter (fun mn => mn.getSinTypeInt == nSinType)).map (fun mn => (mn.sigTime, mn)))
    let nLimit := limitAt E nCachedBlockHeight nLimit
    if vecSigTimeType.length ≤ nLimit then man
    else
      -- `count` is one more than the position.
      man.removeNodes E ((vecSigTimeType.zipIdx.filter (fun p => nLimit ≤ (p.2 : Int) + 1)).map (fun p => p.1.2))

end CMasternodeMan

end Qstees
