import Qstees.Model.Coins
import Qstees.Model.Masternode

/-!
# The masternode list

What `CMasternodeMan` does with announcements and pings. `MnContext` is what it reads at one moment of the clock, the
chain, the sync state and the wallet's masternode configuration. `cs_main` is taken first and is recursive, so the
nested attempts to lock it are given by `lockMain`. An exception out of `Solver` is treated as its `false`.
-/

namespace Qstees

def PROTOCOL_VERSION : Int := 250003

def MASTERNODE_CHECK_SECONDS : Int := 5

def MASTERNODE_MIN_MNB_SECONDS : Int := 5 * 60

def MASTERNODE_MIN_MNP_SECONDS : Int := 10 * 60

def MASTERNODE_EXPIRATION_SECONDS : Int := 65 * 60

def MASTERNODE_WATCHDOG_MAX_SECONDS : Int := 120 * 60

def MASTERNODE_NEW_START_REQUIRED_SECONDS : Int := 180 * 60

def MASTERNODE_POSE_BAN_MAX_SCORE : Int := 5

def IN_FULL_SCAN_SECONDS : Int := 2 * 60

inductive NodeState where
  | preEnabled | enabled | expired | outpointSpent | updateRequired | watchdogExpired | newStartRequired | poseBan
deriving DecidableEq, Repr

structure CMasternode where
  vin : CTxIn
  vinBurnFund : CTxIn
  addr : CService
  pubKeyCollateralAddress : CPubKey
  pubKeyMasternode : CPubKey
  lastPing : CMasternodePing
  vchSig : List UInt8
  sigTime : Int
  nProtocolVersion : Int
  nActiveState : NodeState
  nTimeLastWatchdogVote : Int := 0
  nTimeLastChecked : Int := 0
  nTimeLastFullINScan : Int := 0
  nCollateralMinConfBlockHash : UInt256 := 0
  nPoSeBanScore : Int := 0
  nPoSeBanHeight : Int := 0
  nSinType : Int := -1
  nBurnAmount : Int := 0
  nCollateralAmount : Int := 0
  nExpireHeight : Int := -1
  burnfundAddress : String := ""
  nodeBurntoAddress : String := ""
  collateralAddress : String := ""
  burnTxStandard : String := "nonstandard"
deriving DecidableEq, Repr

inductive ActiveState where
  | initial | syncInProcess | inputTooNew | notCapable | started
deriving DecidableEq, Repr

structure ActiveNode where
  outpoint : COutPoint
  pubKeyMasternode : CPubKey
  service : CService
  nState : ActiveState := .initial
  remote : Bool := false
  fPingerEnabled : Bool := false
  nSentinelPingTime : Int := 0
deriving DecidableEq, Repr

structure MnEnv extends MasternodeEnv where
  hashes : Hashes
  encodeDestination : CTxDestination → String
  cBurnAddress : String
  nMasternodeCollateralMinimum : Int
  nMasternodeMinimumConfirmations : Int
  nMasternodeBurnQSTEESNODE_1 : Int
  nMasternodeBurnQSTEESNODE_5 : Int
  nMasternodeBurnQSTEESNODE_10 : Int
  nPowTargetSpacing : Int
  /-- `CMasternodeBroadcast::GetHash`, of the input, the collateral key and the time. -/
  hashBroadcast : CTxIn → CPubKey → Int → UInt256
  /-- `CMasternodePing::GetHash`, of the input and the time. -/
  hashPing : CTxIn → Int → UInt256

/-- What a call reads of the node around it. -/
structure MnContext extends MasternodeMoment where
  getTime : Int
  fLiteMode : Bool := false
  fMasterNode : Bool := false
  shutdownRequested : Bool := false
  lockMain : Bool := true
  isBlockchainSynced : Bool := true
  isMasternodeListSynced : Bool := true
  isSynced : Bool := true
  height : Int
  getBlockTime : Int → Int
  getBlockHash : Int → UInt256
  blockHeight : UInt256 → Int
  getUTXOCoin : COutPoint → Option Coin
  /-- By `fAllowSlow` and hash; the second part is the hash of its block. -/
  getTransaction : Bool → UInt256 → Option (CTransaction × UInt256)
  /-- The address `ManageStateInitial` settles on, and whether the node may be a masternode with it. -/
  localService : CService × Bool
  signMessage : String → Option (List UInt8)
  hash_getTransaction : ∀ slow hash tx block, getTransaction slow hash = some (tx, block) → tx.hash = hash
  /-- A coin is the output of the transaction that its outpoint names. -/
  coin_getTransaction : ∀ outpoint coin tx block, getUTXOCoin outpoint = some coin →
    getTransaction true outpoint.hash = some (tx, block) → tx.vout[outpoint.n]? = some coin.out

structure CMasternodeMan where
  mapMasternodes : StdMap COutPoint CMasternode := ∅
  mapSeenMasternodeBroadcast : StdMap UInt256 (Int × CMasternodeBroadcast) := ∅
  mapSeenMasternodePing : StdMap UInt256 CMasternodePing := ∅
  mMnbRecoveryRequests : StdMap UInt256 (Int × List (List UInt8)) := ∅
  mMnbRecoveryGoodReplies : StdMap UInt256 (List CMasternodeBroadcast) := ∅
  nLastWatchdogVoteTime : Int := 0
  activeMasternode : ActiveNode

variable (E : MnEnv) (ctx : MnContext)

inductive CollateralStatus where
  | ok (nHeight : Int)
  | utxoNotFound
  | invalidAmount
deriving DecidableEq, Repr

def hasCollateralAmount (coin : Coin) : Bool := coin.out.nValue.tdiv COIN == E.nMasternodeCollateralMinimum

/-- `CheckCollateral`. -/
def checkCollateral (outpoint : COutPoint) : CollateralStatus :=
  match ctx.getUTXOCoin outpoint with
  | none => .utxoNotFound
  | some coin => if hasCollateralAmount E coin then .ok coin.nHeight else .invalidAmount

def MasternodeMoment.minProto (now : MasternodeMoment) : Int :=
  if now.isSporkActive then MIN_MASTERNODE_PAYMENT_PROTO_VERSION_2 else MIN_MASTERNODE_PAYMENT_PROTO_VERSION_1

/-- What `ExtractDestination` finds; `updateThrows` says where its exception ends the caller. -/
def destinationOf (scriptPubKey : CScript) : Option CTxDestination :=
  match extractDestination E.hashes scriptPubKey with
  | .ok dest => dest
  | .error _ => none

namespace CMasternode

variable (mn : CMasternode)

def getHash : UInt256 := E.hashBroadcast mn.vin mn.pubKeyCollateralAddress mn.sigTime

def isOwn (active : ActiveNode) (mn : CMasternode) : Bool :=
  ctx.fMasterNode && active.pubKeyMasternode == mn.pubKeyMasternode

def isPingedWithin (nSeconds : Int) (nTimeToCheckAt : Int) : Bool :=
  if mn.lastPing.same {} then false
  else (if nTimeToCheckAt = -1 then ctx.getAdjustedTime else nTimeToCheckAt) - mn.lastPing.sigTime < nSeconds

def isBroadcastedWithin (nSeconds : Int) : Bool := ctx.getAdjustedTime - mn.sigTime < nSeconds

/-- The script of the output that the first input of the burn transaction spends. -/
def burnFundScript : Option CScript := do
  let (tx, _) ← ctx.getTransaction false mn.vinBurnFund.prevout.hash
  let txin ← tx.vin.head?
  let (prevtx, _) ← ctx.getTransaction false txin.prevout.hash
  let out ← prevtx.vout[txin.prevout.n]?
  return out.scriptPubKey

def findBurnfundAddress : Option String := do
  let addressBurnFund ← destinationOf E (← mn.burnFundScript ctx)
  return E.encodeDestination addressBurnFund

/-- An `ExtractDestination` of `updateInfinityNodeInfo` throws. -/
def updateThrows (fAllowFull : Bool) : Bool :=
  match ctx.getUTXOCoin mn.vinBurnFund.prevout, ctx.getUTXOCoin mn.vin.prevout with
  | some coinBurnFund, some coinCollateral =>
    extractionThrows coinCollateral.out.scriptPubKey ||
      (destinationOf E coinCollateral.out.scriptPubKey).isSome &&
        (extractionThrows coinBurnFund.out.scriptPubKey ||
          (destinationOf E coinBurnFund.out.scriptPubKey).isSome && fAllowFull &&
            (mn.burnFundScript ctx).any extractionThrows)
  | _, _ => false

/-- The node as `updateInfinityNodeInfo` leaves it, also when it throws. -/
def updateInfinityNodeInfo (fAllowFull : Bool) (mn : CMasternode) : CMasternode :=
  match ctx.getUTXOCoin mn.vinBurnFund.prevout, ctx.getUTXOCoin mn.vin.prevout with
  | some coinBurnFund, some coinCollateral =>
    match destinationOf E coinCollateral.out.scriptPubKey, destinationOf E coinBurnFund.out.scriptPubKey with
    | some addressCollateral, some addressBurnNode =>
      let burnData : Bool := match solver coinBurnFund.out.scriptPubKey with
        | .ok s => decide (s.typeRet = .burnData)
        | .error _ => false
      let nBurnAmount := coinBurnFund.out.nValue.tdiv COIN + 1
      let mn := { mn with
        burnTxStandard := if burnData then "burn_and_data" else mn.burnTxStandard
        nExpireHeight := coinBurnFund.nHeight + 720 * 365
        nBurnAmount := nBurnAmount
        nCollateralAmount := coinCollateral.out.nValue.tdiv COIN
        collateralAddress := E.encodeDestination addressCollateral
        nSinType := if nBurnAmount ≥ 100000 then nBurnAmount.tdiv 100000 else nBurnAmount
        nodeBurntoAddress := E.encodeDestination addressBurnNode }
      if fAllowFull then { mn with burnfundAddress := (mn.findBurnfundAddress E ctx).getD mn.burnfundAddress } else mn
    | _, _ => mn
  | _, _ => mn

def checkBurnFund : Bool :=
  !(decide (ctx.height > mn.nExpireHeight ∧ mn.nExpireHeight ≠ -1)) &&
    (mn.nBurnAmount == E.nMasternodeBurnQSTEESNODE_1 || mn.nBurnAmount == E.nMasternodeBurnQSTEESNODE_5 ||
      mn.nBurnAmount == E.nMasternodeBurnQSTEESNODE_10)

def getSinType : Int :=
  if E.nMasternodeBurnQSTEESNODE_1 = mn.nBurnAmount then 1
  else if E.nMasternodeBurnQSTEESNODE_5 = mn.nBurnAmount then 5
  else if E.nMasternodeBurnQSTEESNODE_10 = mn.nBurnAmount then 10
  else 0

def getSinTypeInt : Int := mn.nSinType

def checkCollateralBurnFundRelation : Bool :=
  mn.nodeBurntoAddress == E.cBurnAddress && mn.burnfundAddress == mn.collateralAddress

/-- The states that depend on version and pings. -/
def checkActivity (man : CMasternodeMan) (mn : CMasternode) : CMasternode :=
  let fOurMasternode := mn.isOwn ctx man.activeMasternode
  let fWaitForPing := !ctx.isMasternodeListSynced && !mn.isPingedWithin ctx MASTERNODE_MIN_MNP_SECONDS (-1)
  let fWatchdogActive :=
    ctx.isSynced && decide (ctx.getTime - man.nLastWatchdogVoteTime ≤ MASTERNODE_WATCHDOG_MAX_SECONDS)
  if mn.nProtocolVersion < ctx.minProto ∨ (fOurMasternode ∧ mn.nProtocolVersion < PROTOCOL_VERSION) then
    { mn with nActiveState := .updateRequired }
  else if fWaitForPing ∧ ¬fOurMasternode ∧
      (mn.nActiveState = .expired ∨ mn.nActiveState = .watchdogExpired ∨ mn.nActiveState = .newStartRequired) then mn
  else if (¬fWaitForPing ∨ fOurMasternode) ∧ !mn.isPingedWithin ctx MASTERNODE_NEW_START_REQUIRED_SECONDS (-1) then
    { mn with nActiveState := .newStartRequired }
  else if (¬fWaitForPing ∨ fOurMasternode) ∧ fWatchdogActive ∧
      ctx.getAdjustedTime - mn.nTimeLastWatchdogVote > MASTERNODE_WATCHDOG_MAX_SECONDS then
    { mn with nActiveState := .watchdogExpired }
  else if (¬fWaitForPing ∨ fOurMasternode) ∧ !mn.isPingedWithin ctx MASTERNODE_EXPIRATION_SECONDS (-1) then
    { mn with nActiveState := .expired }
  else if mn.lastPing.sigTime - mn.sigTime < MASTERNODE_MIN_MNP_SECONDS then { mn with nActiveState := .preEnabled }
  else { mn with nActiveState := .enabled }

/-- The tests of `Check` behind its throttles. -/
def checkChain (man : CMasternodeMan) (fDoFullUpdate : Bool) (mn : CMasternode) : CMasternode :=
  if !ctx.lockMain then mn
  else if checkCollateral E ctx mn.vin.prevout = .utxoNotFound then { mn with nActiveState := .outpointSpent }
  else if !mn.checkBurnFund E ctx then { mn with nActiveState := .outpointSpent }
  else if fDoFullUpdate && !mn.checkCollateralBurnFundRelation E then { mn with nActiveState := .outpointSpent }
  else if mn.nActiveState = .poseBan then
    if ctx.height < mn.nPoSeBanHeight then mn
    else
      checkActivity ctx man
        { mn with
          nPoSeBanScore :=
            if mn.nPoSeBanScore > -MASTERNODE_POSE_BAN_MAX_SCORE then mn.nPoSeBanScore - 1 else mn.nPoSeBanScore }
  else if mn.nPoSeBanScore ≥ MASTERNODE_POSE_BAN_MAX_SCORE then
    { mn with nActiveState := .poseBan, nPoSeBanHeight := ctx.height + man.mapMasternodes.size }
  else mn.checkActivity ctx man

/-- `CMasternode::Check`. -/
def check (man : CMasternodeMan) (fForce : Bool) (mn : CMasternode) : CMasternode :=
  if ctx.shutdownRequested then mn
  else if !fForce && decide (ctx.getTime - mn.nTimeLastChecked < MASTERNODE_CHECK_SECONDS) then mn
  else
    let mn := { mn with nTimeLastChecked := ctx.getTime }
    if mn.nActiveState = .outpointSpent then mn
    else
      let fDoFullUpdate := !fForce && decide (ctx.getTime - mn.nTimeLastFullINScan < IN_FULL_SCAN_SECONDS)
      let mn := if fDoFullUpdate then { mn with nTimeLastFullINScan := ctx.getTime } else mn
      let updated := mn.updateInfinityNodeInfo E ctx fDoFullUpdate
      -- an exception ends `Check` before its tests
      if mn.updateThrows E ctx fDoFullUpdate then updated else updated.checkChain E ctx man fDoFullUpdate

def isValidStateForAutoStart (nActiveState : NodeState) : Bool :=
  nActiveState == .enabled || nActiveState == .preEnabled || nActiveState == .expired ||
    nActiveState == .watchdogExpired

end CMasternode

namespace CMasternodeMan

variable (man : CMasternodeMan)

def setNode (outpoint : COutPoint) (mn : CMasternode) : CMasternodeMan :=
  { man with mapMasternodes := man.mapMasternodes.insert outpoint mn }

def eraseSeen (hash : UInt256) : CMasternodeMan :=
  { man with mapSeenMasternodeBroadcast := man.mapSeenMasternodeBroadcast.erase hash }

def insertSeen (hash : UInt256) (seen : Int × CMasternodeBroadcast) : CMasternodeMan :=
  { man with mapSeenMasternodeBroadcast := man.mapSeenMasternodeBroadcast.insertIfNew hash seen }

def updateSeenPing (mn : CMasternode) (mnp : CMasternodePing) : CMasternodeMan :=
  match man.mapSeenMasternodeBroadcast[mn.getHash E]? with
  | none => man
  | some (time, mnb) =>
    { man with mapSeenMasternodeBroadcast :=
        man.mapSeenMasternodeBroadcast.insert (mn.getHash E) (time, { mnb with lastPing := mnp }) }

def insertSeenPing (mnp : CMasternodePing) : CMasternodeMan :=
  { man with mapSeenMasternodePing := man.mapSeenMasternodePing.insertIfNew (E.hashPing mnp.vin mnp.sigTime) mnp }

/-- `UpdateWatchdogVoteTime`. -/
def updateWatchdogVoteTime (outpoint : COutPoint) (nVoteTime : Int) : CMasternodeMan :=
  match man.mapMasternodes[outpoint]? with
  | none => man
  | some pmn =>
    { man.setNode outpoint
        { pmn with nTimeLastWatchdogVote := if nVoteTime = 0 then ctx.getAdjustedTime else nVoteTime } with
      nLastWatchdogVoteTime := ctx.getTime }

def findByKey (pubKeyMasternode : CPubKey) : Option (COutPoint × CMasternode) :=
  man.mapMasternodes.toList.find? (fun node => node.2.pubKeyMasternode == pubKeyMasternode)

def checkMasternode (pubKeyMasternode : CPubKey) (fForce : Bool) : CMasternodeMan :=
  match man.findByKey pubKeyMasternode with
  | none => man
  | some (outpoint, mn) => man.setNode outpoint (mn.check E ctx man fForce)

def setMasternodeLastPing (outpoint : COutPoint) (mnp : CMasternodePing) : CMasternodeMan :=
  match man.mapMasternodes[outpoint]? with
  | none => man
  | some pmn =>
    let man := man.setNode outpoint { pmn with lastPing := mnp }
    let man := if mnp.fSentinelIsCurrent then man.updateWatchdogVoteTime ctx mnp.vin.prevout mnp.sigTime else man
    (man.insertSeenPing E mnp).updateSeenPing E pmn mnp

end CMasternodeMan

def COutPoint.toText (o : COutPoint) : String :=
  "COutPoint(" ++ String.ofList ((getHex o.hash).toList.take 10) ++ ", " ++ toString o.n ++ ")"

def CTxIn.toText (txin : CTxIn) : String :=
  "CTxIn(" ++ txin.prevout.toText ++
    (if txin.prevout.isNull then ", coinbase " ++ hexStr txin.scriptSig
      else ", scriptSig=" ++ String.ofList ((hexStr txin.scriptSig).toList.take 24)) ++
    (if txin.nSequence ≠ SEQUENCE_FINAL then ", nSequence=" ++ toString txin.nSequence else "") ++ ")"

namespace CMasternodePing

def strMessage (mnp : CMasternodePing) : String := mnp.vin.toText ++ getHex mnp.blockHash ++ toString mnp.sigTime

def checkSignature (mnp : CMasternodePing) (pubKeyMasternode : CPubKey) : Bool :=
  E.verifyMessage pubKeyMasternode mnp.vchSig mnp.strMessage

def timely (pmn : CMasternode) (fFromNewBroadcast : Bool) (mnp : CMasternodePing) : Bool :=
  !(!fFromNewBroadcast && (pmn.nActiveState == .updateRequired || pmn.nActiveState == .expired)) &&
    !(ctx.blockHeight mnp.blockHash < ctx.height - MASTERNODE_NEW_START_REQUIRED_SECONDS.tdiv E.nPowTargetSpacing) &&
    !pmn.isPingedWithin ctx (MASTERNODE_MIN_MNP_SECONDS - 60) mnp.sigTime

/-- `CMasternodePing::CheckAndUpdate`. -/
def checkAndUpdate (man : CMasternodeMan) (outpoint : COutPoint) (pmn : CMasternode) (fFromNewBroadcast : Bool)
    (mnp : CMasternodePing) : Bool × Int × CMasternodeMan :=
  let simple := mnp.simpleCheck ctx.toMasternodeMoment
  if !simple.1 then (false, simple.2, man)
  else if !mnp.timely E ctx pmn fFromNewBroadcast then (false, 0, man)
  else if !mnp.checkSignature E pmn.pubKeyMasternode then (false, 33, man)
  else
    let pmn := { pmn with lastPing := mnp }
    let man := (man.setNode outpoint pmn).updateSeenPing E pmn mnp
    let pmn := pmn.check E ctx man true
    (pmn.nActiveState == .enabled || pmn.nActiveState == .expired || pmn.nActiveState == .watchdogExpired, 0,
      man.setNode outpoint pmn)

end CMasternodePing

namespace CMasternodeMan

variable (man : CMasternodeMan)

def recordPing (mnp : CMasternodePing) : CMasternodeMan :=
  if mnp.fSentinelIsCurrent then (man.insertSeenPing E mnp).updateWatchdogVoteTime ctx mnp.vin.prevout mnp.sigTime
  else man.insertSeenPing E mnp

/-- A `MNPING` message. -/
def processPing (mnp : CMasternodePing) : Int × CMasternodeMan :=
  if ctx.fLiteMode || !ctx.isBlockchainSynced then (0, man)
  else if (man.mapSeenMasternodePing[E.hashPing mnp.vin mnp.sigTime]?).isSome then (0, man)
  else
    let man := man.recordPing E ctx mnp
    match man.mapMasternodes[mnp.vin.prevout]? with
    | none => ((mnp.simpleCheck ctx.toMasternodeMoment).2, man)
    | some pmn =>
      if pmn.nActiveState = .expired then (0, man)
      else (mnp.checkAndUpdate E ctx man mnp.vin.prevout pmn false).2

def ownPing : CMasternodePing :=
  let mnp : CMasternodePing :=
    if ctx.height < 12 then {}
    else
      { vin := ⟨man.activeMasternode.outpoint, [], SEQUENCE_FINAL, []⟩,
        blockHash := ctx.getBlockHash (ctx.height - 12) }
  { mnp with
    sigTime := ctx.getAdjustedTime
    fSentinelIsCurrent :=
      (ctx.getAdjustedTime - man.activeMasternode.nSentinelPingTime).natAbs < MASTERNODE_WATCHDOG_MAX_SECONDS }

def setActive (active : ActiveNode) : CMasternodeMan := { man with activeMasternode := active }

def setState (nState : ActiveState) : CMasternodeMan :=
  man.setActive { man.activeMasternode with nState := nState }

/-- `SendMasternodePing`. -/
def sendMasternodePing : CMasternodeMan :=
  let active := man.activeMasternode
  if !active.fPingerEnabled then man
  else match man.mapMasternodes[active.outpoint]? with
    | none => man.setState .notCapable
    | some pmn =>
      let mnp := man.ownPing ctx
      match ctx.signMessage mnp.strMessage with
      | none => man
      | some vchSig =>
        let mnp := { mnp with vchSig := vchSig }
        if !mnp.checkSignature E active.pubKeyMasternode then man
        else if pmn.isPingedWithin ctx MASTERNODE_MIN_MNP_SECONDS mnp.sigTime then man
        else man.setMasternodeLastPing E ctx active.outpoint mnp

def manageStateInitial : CMasternodeMan :=
  if ctx.localService.2 then man.setActive { man.activeMasternode with service := ctx.localService.1, remote := true }
  else man.setActive { man.activeMasternode with service := ctx.localService.1, nState := .notCapable }

def manageStateRemote : CMasternodeMan :=
  let man := man.checkMasternode E ctx man.activeMasternode.pubKeyMasternode true
  match man.findByKey man.activeMasternode.pubKeyMasternode with
  | none => man.setState .notCapable
  | some (_, info) =>
    if info.nProtocolVersion ≠ PROTOCOL_VERSION ∨ man.activeMasternode.service ≠ info.addr ∨
        !CMasternode.isValidStateForAutoStart info.nActiveState then man.setState .notCapable
    else if man.activeMasternode.nState = .started then man
    else man.setActive { man.activeMasternode with
      outpoint := info.vin.prevout, service := info.addr, fPingerEnabled := true, nState := .started }

/-- `CActiveMasternode::ManageState`. -/
def manageState : CMasternodeMan :=
  if !ctx.fMasterNode then man
  else if E.networkID ≠ .regtest ∧ !ctx.isBlockchainSynced then man.setState .syncInProcess
  else
    let man := if man.activeMasternode.nState = .syncInProcess then man.setState .initial else man
    let man := if !man.activeMasternode.remote then man.manageStateInitial ctx else man
    let man := if man.activeMasternode.remote then man.manageStateRemote E ctx else man
    man.sendMasternodePing E ctx

end CMasternodeMan

namespace CMasternodeBroadcast

variable (mnb : CMasternodeBroadcast)

def getHash : UInt256 := E.hashBroadcast mnb.vin mnb.pubKeyCollateralAddress mnb.sigTime

def empty : CMasternodeBroadcast where
  vin := ⟨⟨0, 0xffffffff⟩, [], SEQUENCE_FINAL, []⟩
  vinBurnFund := ⟨⟨0, 0xffffffff⟩, [], SEQUENCE_FINAL, []⟩
  addr := ⟨List.replicate 16 0, 0⟩
  pubKeyCollateralAddress := []
  pubKeyMasternode := []
  vchSig := []
  sigTime := ctx.getAdjustedTime
  nProtocolVersion := PROTOCOL_VERSION
  lastPing := {}
  ip_length := rfl

/-- The announced node; the broadcast is a `CMasternode` with the state that `SimpleCheck` leaves. -/
def toCMasternode (nActiveState : NodeState) : CMasternode where
  vin := mnb.vin
  vinBurnFund := mnb.vinBurnFund
  addr := mnb.addr
  pubKeyCollateralAddress := mnb.pubKeyCollateralAddress
  pubKeyMasternode := mnb.pubKeyMasternode
  lastPing := mnb.lastPing
  vchSig := mnb.vchSig
  sigTime := mnb.sigTime
  nProtocolVersion := mnb.nProtocolVersion
  nActiveState := nActiveState

/-- The loop of `IsInputAssociatedWithPubkey`, over all outputs of the collateral transaction. -/
def isInputAssociatedWithPubkey : Bool :=
  let payee := getScriptForDestination (.keyID (E.getID mnb.pubKeyCollateralAddress))
  match ctx.getTransaction true mnb.vin.prevout.hash with
  | none => false
  | some (tx, _) => (List.range tx.vout.length).any (fun i =>
      (match checkCollateral E ctx ⟨tx.hash, i⟩ with | .ok _ => true | _ => false) &&
        (tx.vout[i]?).any (fun out => out.scriptPubKey == payee))

/-- Why `CheckOutpoint` fails. -/
inductive OutpointError where
  | own
  | badSignature
  | lock
  | utxoNotFound
  | invalidAmount
  | confirmations
  | notAssociated
  | badSigTime
deriving DecidableEq, Repr

namespace OutpointError

def nDos : OutpointError → Int
  | .badSignature => 100
  | .notAssociated => 33
  | _ => 0

/-- The failures after which the announcement is to be checked again later. -/
def retried : OutpointError → Bool
  | .lock => true
  | .confirmations => true
  | _ => false

end OutpointError

def signedTooEarly : Bool :=
  match ctx.getTransaction true mnb.vin.prevout.hash with
  | none => false
  | some (_, hashBlock) => ctx.mapBlockIndex hashBlock &&
      decide (ctx.getBlockTime (ctx.blockHeight hashBlock + E.nMasternodeMinimumConfirmations - 1) > mnb.sigTime)

variable (man : CMasternodeMan)

/-- `CMasternodeBroadcast::CheckOutpoint`. -/
def checkOutpoint (mnb : CMasternodeBroadcast) : Except OutpointError UInt256 :=
  if ctx.fMasterNode ∧ mnb.vin.prevout = man.activeMasternode.outpoint ∧
      mnb.pubKeyMasternode = man.activeMasternode.pubKeyMasternode then .error .own
  else if !(mnb.checkSignature E.toMasternodeEnv).1 then .error .badSignature
  else if !ctx.lockMain then .error .lock
  else match checkCollateral E ctx mnb.vin.prevout with
    | .utxoNotFound => .error .utxoNotFound
    | .invalidAmount => .error .invalidAmount
    | .ok nHeight =>
      if ctx.height - nHeight + 1 < E.nMasternodeMinimumConfirmations then .error .confirmations
      else if !mnb.isInputAssociatedWithPubkey E ctx then .error .notAssociated
      else if mnb.signedTooEarly E ctx then .error .badSigTime
      else .ok (ctx.getBlockHash (nHeight + E.nMasternodeMinimumConfirmations - 1))

def isOwn (active : ActiveNode) (mnb : CMasternodeBroadcast) : Bool :=
  ctx.fMasterNode && mnb.pubKeyMasternode == active.pubKeyMasternode

/-- `UpdateFromNewBroadcast` without the ping. -/
def takeOver (pmn : CMasternode) (mnb : CMasternodeBroadcast) : CMasternode :=
  { pmn with
    pubKeyMasternode := mnb.pubKeyMasternode
    sigTime := mnb.sigTime
    vchSig := mnb.vchSig
    nProtocolVersion := mnb.nProtocolVersion
    addr := mnb.addr
    nPoSeBanScore := 0
    nPoSeBanHeight := 0
    nTimeLastChecked := 0
    nTimeLastFullINScan := 0 }

def updatePing (outpoint : COutPoint) (pmn : CMasternode) (mnb : CMasternodeBroadcast) :
    CMasternodeMan :=
  if mnb.lastPing.same {} then
    (man.setNode outpoint { pmn with lastPing := mnb.lastPing }).insertSeenPing E mnb.lastPing
  else
    let r := mnb.lastPing.checkAndUpdate E ctx man outpoint pmn true
    if r.1 then r.2.2.insertSeenPing E mnb.lastPing else r.2.2

def updateFromNewBroadcast (outpoint : COutPoint) (pmn : CMasternode) (mnb : CMasternodeBroadcast) :
    Bool × CMasternodeMan :=
  if mnb.sigTime ≤ pmn.sigTime ∧ !mnb.fRecovery then (false, man)
  else
    let pmn := mnb.takeOver pmn
    let man := mnb.updatePing E ctx (man.setNode outpoint pmn) outpoint pmn
    if mnb.isOwn ctx man.activeMasternode then
      let man := match man.mapMasternodes[outpoint]? with
        | none => man
        | some pmn => man.setNode outpoint { pmn with nPoSeBanScore := -MASTERNODE_POSE_BAN_MAX_SCORE }
      if mnb.nProtocolVersion = PROTOCOL_VERSION then (true, man.manageState E ctx) else (false, man)
    else (true, man)

/-- `Update` past the check of the node. -/
def updateChecked (outpoint : COutPoint) (pmn : CMasternode) (mnb : CMasternodeBroadcast) :
    Bool × Int × CMasternodeMan :=
  if pmn.nActiveState = .poseBan then (false, 0, man)
  else if pmn.pubKeyCollateralAddress ≠ mnb.pubKeyCollateralAddress then (false, 33, man)
  else if !(mnb.checkSignature E.toMasternodeEnv).1 then (false, 100, man)
  else if !pmn.isBroadcastedWithin ctx MASTERNODE_MIN_MNB_SECONDS || mnb.isOwn ctx man.activeMasternode then
    let r := mnb.updateFromNewBroadcast E ctx man outpoint pmn
    if r.1 then
      match r.2.mapMasternodes[outpoint]? with
      | none => (true, 0, r.2)
      | some pmn => (true, 0, r.2.setNode outpoint (pmn.check E ctx r.2 false))
    else (true, 0, r.2)
  else (true, 0, man)

def update (outpoint : COutPoint) (pmn : CMasternode) (mnb : CMasternodeBroadcast) :
    Bool × Int × CMasternodeMan :=
  if pmn.sigTime = mnb.sigTime ∧ !mnb.fRecovery then (false, 0, man)
  else if pmn.sigTime > mnb.sigTime then (false, 0, man)
  else
    let pmn := pmn.check E ctx man false
    mnb.updateChecked E ctx (man.setNode outpoint pmn) outpoint pmn

end CMasternodeBroadcast

namespace CMasternodeMan

variable (man : CMasternodeMan)

/-- An announcement that was seen before. -/
def seenAgain (pfrom : Option (List UInt8)) (hash : UInt256) (mnb : CMasternodeBroadcast)
    (seen : Int × CMasternodeBroadcast) : CMasternodeMan :=
  let man :=
    if ctx.getTime - seen.1 > MASTERNODE_NEW_START_REQUIRED_SECONDS - MASTERNODE_MIN_MNP_SECONDS * 2 then
      { man with mapSeenMasternodeBroadcast := man.mapSeenMasternodeBroadcast.insert hash (ctx.getTime, seen.2) }
    else man
  match pfrom, man.mMnbRecoveryRequests[hash]? with
  | some addr, some (time, asked) =>
    if ctx.getTime < time ∧ addr ∈ asked then
      let man := { man with mMnbRecoveryRequests :=
        man.mMnbRecoveryRequests.insert hash (time, asked.filter (· ≠ addr)) }
      if mnb.lastPing.sigTime > seen.2.lastPing.sigTime then
        -- the node as the announcement alone describes it, with the announcement's time as its watchdog vote
        let mnTemp : CMasternode :=
          { mnb.toCMasternode .enabled with
            vin := ⟨mnb.vin.prevout, [], SEQUENCE_FINAL, []⟩
            vinBurnFund := ⟨mnb.vinBurnFund.prevout, [], SEQUENCE_FINAL, []⟩
            nTimeLastWatchdogVote := mnb.sigTime }
        if CMasternode.isValidStateForAutoStart (mnTemp.check E ctx man false).nActiveState then
          { man with mMnbRecoveryGoodReplies :=
              man.mMnbRecoveryGoodReplies.insert hash ((man.mMnbRecoveryGoodReplies[hash]?).getD [] ++ [mnb]) }
        else man
      else man
    else man
  | _, _ => man

def updateListed (pmn : CMasternode) (mnb : CMasternodeBroadcast) : Bool × Int × CMasternodeMan :=
  -- `operator[]` enters an empty announcement for a node whose own was not seen
  let man := man.insertSeen (pmn.getHash E) (0, .empty ctx)
  let mnbOld := ((man.mapSeenMasternodeBroadcast[pmn.getHash E]?).getD (0, .empty ctx)).2
  let r := mnb.update E ctx man mnb.vin.prevout pmn
  if !r.1 then r
  else if mnb.getHash E ≠ mnbOld.getHash E then (true, r.2.1, r.2.2.eraseSeen (mnbOld.getHash E))
  else r

def addNew (expired : Bool) (mnb : CMasternodeBroadcast) : Bool × Int × CMasternodeMan :=
  match mnb.checkOutpoint E ctx man with
  | .error e => (false, e.nDos, if e.retried then man.eraseSeen (mnb.getHash E) else man)
  | .ok nCollateralMinConfBlockHash =>
    let mn := { mnb.toCMasternode (if expired then .expired else .enabled) with
      nCollateralMinConfBlockHash := nCollateralMinConfBlockHash }
    let man := man.setNode mnb.vin.prevout mn
    if mnb.isOwn ctx man.activeMasternode then
      if mnb.nProtocolVersion = PROTOCOL_VERSION then (true, 0, man.manageState E ctx) else (false, 0, man)
    else (true, 0, man)

/-- An announcement that was not seen before. -/
def processNew (mnb : CMasternodeBroadcast) : Bool × Int × CMasternodeMan :=
  let man := man.insertSeen (mnb.getHash E) (ctx.getTime, mnb)
  let simple := mnb.simpleCheck E.toMasternodeEnv ctx.toMasternodeMoment
  if !simple.ok then (false, simple.nDos, man)
  else match man.mapMasternodes[mnb.vin.prevout]? with
    | some pmn => man.updateListed E ctx pmn mnb
    | none => man.addNew E ctx simple.expired mnb

/-- `CheckMnbAndUpdateMasternodeList`. -/
def checkMnbAndUpdateMasternodeList (pfrom : Option (List UInt8)) (mnb : CMasternodeBroadcast) :
    Bool × Int × CMasternodeMan :=
  match man.mapSeenMasternodeBroadcast[mnb.getHash E]?, mnb.fRecovery with
  | some seen, false => (true, 0, man.seenAgain E ctx pfrom (mnb.getHash E) mnb seen)
  | _, _ => man.processNew E ctx mnb

end CMasternodeMan

end Qstees
