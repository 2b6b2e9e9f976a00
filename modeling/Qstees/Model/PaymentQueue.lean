import Qstees.Model.MasternodeChecks

/-!
# The payment queue

`GetNextMasternodeInQueueForPayment` and `IsScheduled`. The comparison of a time with `nMnCount*2.6*60` is made in
`double` and is a parameter, as are the hash behind a score and the height at which a node was last paid.
-/

namespace Qstees

structure QueueContext extends MnContext where
  isWinnersListSynced : Bool := true
  /-- `SPORK_14_REQUIRE_SENTINEL_FLAG`. -/
  requireSentinel : Bool := false
  /-- `sigTime + (nMnCount*2.6*60) > GetAdjustedTime()`, by `nMnCount` and `sigTime`. -/
  tooNew : Nat → Int → Bool
  getLastPaidBlock : COutPoint → Int
  /-- The hash of an outpoint, `nCollateralMinConfBlockHash` and the hash of a block. -/
  scoreHash : COutPoint → UInt256 → UInt256 → Nat

variable (E : MnEnv) (P : PaymentEnv) (ctx : QueueContext) (payments : CMasternodePayments)

namespace CMasternode

def isValidForPayment (mn : CMasternode) : Bool :=
  mn.nActiveState == .enabled || (!ctx.requireSentinel && mn.nActiveState == .watchdogExpired)

def calculateScore (mn : CMasternode) (blockHash : UInt256) : Nat :=
  ctx.scoreHash mn.vin.prevout mn.nCollateralMinConfBlockHash blockHash

end CMasternode

/-- Is the node elected for one of the next blocks? -/
def CMasternodePayments.isScheduled (mn : CMasternode) (nNotBlockHeight : Int) : Bool :=
  ctx.isMasternodeListSynced && (List.range 9).any (fun i =>
    payments.nCachedBlockHeight + i != nNotBlockHeight &&
      payments.getBlockPayee P (payments.nCachedBlockHeight + i) mn.getSinTypeInt ==
        some (getScriptForDestination (.keyID (E.getID mn.pubKeyCollateralAddress))))

def getUTXOConfirmations (outpoint : COutPoint) : Int :=
  match ctx.getUTXOCoin outpoint with
  | some coin => ctx.height - coin.nHeight + 1
  | none => -1

variable (nBlockHeight : Int)

def blockHashAt : Option UInt256 :=
  if nBlockHeight < -1 ∨ nBlockHeight > ctx.height then none
  else some (ctx.getBlockHash (if nBlockHeight = -1 then ctx.height else nBlockHeight))

namespace CMasternodeMan

def countMasternodes (man : CMasternodeMan) : Nat := man.nodes.countP (fun mn => ctx.minProto ≤ mn.nProtocolVersion)

variable (fFilterSigTime : Bool)

/-- The filters on a node of the queue. -/
def inQueue (man : CMasternodeMan) (mnpair : COutPoint × CMasternode) : Bool :=
  mnpair.2.isValidForPayment ctx && ctx.minProto ≤ mnpair.2.nProtocolVersion &&
    !payments.isScheduled E P ctx mnpair.2 nBlockHeight &&
    !(fFilterSigTime && ctx.tooNew (man.countMasternodes ctx) mnpair.2.sigTime) &&
    man.countMasternodes ctx ≤ getUTXOConfirmations ctx mnpair.1

def vecMasternodeLastPaid (man : CMasternodeMan) : List (Int × CMasternode) :=
  (man.mapMasternodes.toList.filter (inQueue E P ctx payments nBlockHeight fFilterSigTime man)).map
    (fun mnpair => (ctx.getLastPaidBlock mnpair.1, mnpair.2))

/-- The best score of the tier among the first nodes. -/
def findBest (blockHash : UInt256) (vSinType : Int) (nTenthNetwork : Nat) :
    Nat → Nat × Option CMasternode → List (Int × CMasternode) → Option CMasternode
  | _, best, [] => best.2
  | nCountTenth, best, s :: rest =>
    let nScore := s.2.calculateScore ctx blockHash
    let best := if nScore > best.1 ∧ s.2.getSinType E = vSinType then (nScore, some s.2) else best
    if nCountTenth + 1 ≥ nTenthNetwork then best.2
      else findBest blockHash vSinType nTenthNetwork (nCountTenth + 1) best rest

/-- The vector that the election is made from: without the filter by time if too few nodes pass it. -/
def queue (man : CMasternodeMan) : List (Int × CMasternode) :=
  let v := man.vecMasternodeLastPaid E P ctx payments nBlockHeight fFilterSigTime
  if fFilterSigTime && v.length < man.countMasternodes ctx / 3 then
    man.vecMasternodeLastPaid E P ctx payments nBlockHeight false
  else v

/-- `GetNextMasternodeInQueueForPayment`. -/
def getNextMasternodeInQueueForPayment (vSinType : Int)
    (man : CMasternodeMan) : Nat × Option CMasternode :=
  let queue := man.queue E P ctx payments nBlockHeight fFilterSigTime
  if !ctx.isWinnersListSynced || vSinType == 0 then (0, none)
  else
    (queue.length, (blockHashAt ctx (nBlockHeight - 101)).bind fun blockHash =>
      findBest E ctx blockHash vSinType (man.countMasternodes ctx / 5) 0 (0, none) (sortPairs queue))

end CMasternodeMan

end Qstees
