import Qstees.Model.InfinitynodeMan

/-!
# The reserve votes

`CInfinitynodersv`: the scanner that collects the governance votes on its own, and the tally of a
proposal.
-/

namespace Qstees

def INFINITYNODE_RSV_BEGIN : Int := 300000

section Scan

variable (E : InfinityEnv) (C : Chain)

/-- The body of the loop over the outputs in `rsvScan`: only the governance address counts. -/
def rsvOutputEvents (nHeight : Int) (tx : CTransaction) (out : CTxOut) : List Event :=
  match solver out.scriptPubKey with
  | .error _ => [.abort]
  | .ok ⟨_, .burnData, id :: data⟩ =>
    if E.params.cGovernanceAddress = E.keyIO.encodeDestination (.keyID id) then
      voteEvents E C .governanceVote nHeight tx out data
    else []
  | .ok _ => []

def rsvBlockEvents (nHeight : Int) : List Event :=
  match C.readBlock nHeight with
  | none => [.abort]
  | some block => block.vtx.flatMap (fun tx =>
      if tx.isCoinBase then [] else tx.vout.flatMap (rsvOutputEvents E C nHeight tx))

def rsvScanEvents (nBlockHeight : Int) : List Event :=
  (List.range (nBlockHeight - INFINITYNODE_RSV_BEGIN + 1).toNat).flatMap
    (fun (k : Nat) => rsvBlockEvents E C (nBlockHeight - k))

/-- Adds the votes that are deep enough, up to an abort. -/
def addVotes (maxReorganizationDepth nBlockHeight : Int) : List Event → CInfinitynodersv → Bool × CInfinitynodersv
  | [], rsv => (true, rsv)
  | .abort :: _, rsv => (false, rsv)
  | .governanceVote vote :: events, rsv =>
    addVotes maxReorganizationDepth nBlockHeight events
      (if vote.nHeight < nBlockHeight - maxReorganizationDepth then rsv.add vote else rsv)
  | _ :: events, rsv => addVotes maxReorganizationDepth nBlockHeight events rsv

/-- `rsvScan`: the votes rebuilt from the chain. -/
def rsvScan (maxReorganizationDepth nBlockHeight : Int) : Bool × CInfinitynodersv :=
  if nBlockHeight ≤ INFINITYNODE_RSV_BEGIN then (false, ∅)
  else if nBlockHeight > C.height then (false, ∅)
  else addVotes maxReorganizationDepth nBlockHeight (rsvScanEvents E C nBlockHeight) ∅

end Scan

/-- The weight of a vote by tier. -/
def tierWeight (nQSTEESType : Int) : Option Int :=
  if nQSTEESType = 1 then some 2
  else if nQSTEESType = 5 then some 10
  else if nQSTEESType = 10 then some 20
  else none

def nodeWeight (voter : String) (value : Int) (nodes : List CInfinitynode) : Int :=
  nodes.foldl (fun value inf => if inf.collateralAddress =
    voter then (tierWeight inf.nQSTEESType).getD value else value) value

/-- The weight of one vote. `ExtractDestination` leaves the destination empty where it finds none. -/
def voteWeight (E : InfinityEnv) (nodes : List CInfinitynode) (mode : Int) (v : CVote) : Except String Int := do
  let value := if mode = 0 then 1 else 0
  if mode = 1 ∨ mode = 2 then
    let value := if mode = 1 then 0 else value
    let voter ← extractDestination E.hashes v.voter
    return nodeWeight (E.keyIO.encodeDestination (voter.getD .noDestination)) value nodes
  else return value

/-- `getResult` of a proposal. -/
def getResult (E : InfinityEnv) (man : CInfinitynodeMan) (rsv : CInfinitynodersv) (proposal : String) (opinion : Bool)
    (mode : Int) : Except String Int :=
  match rsv[proposal]? with
  | none => .ok 0
  | some votes => (votes.filter (fun v => v.opinion == opinion)).foldlM
      (fun result v => (fun value => result + value) <$> voteWeight E man.nodeList mode v) 0

end Qstees
