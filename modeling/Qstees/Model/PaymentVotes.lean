import Qstees.Library.Encoding
import Qstees.Model.Payments

/-!
# Processing payment votes

What a node does with the payment votes it is sent and with its own. `VoteState` is the part of
`CMasternodePayments` that this code changes; `VoteContext` is what it reads from the masternode list, the
chain and the sync state at one moment.
-/

namespace Qstees

def MNPAYMENTS_SIGNATURES_TOTAL : Int := 30

def MIN_MASTERNODE_PAYMENT_PROTO_VERSION_1 : Int := 250000

def MIN_MASTERNODE_PAYMENT_PROTO_VERSION_2 : Int := 250000

abbrev CPubKey := List UInt8

def hexStr (bytes : List UInt8) : String := String.ofList (Encoding.hexText bytes)

def getHex (h : UInt256) : String := hexStr ((List.range 32).map (fun k => UInt8.ofNat (h / 256 ^ k)))

def COutPoint.toStringShort (o : COutPoint) : String := getHex o.hash ++ "-" ++ toString o.n

/-- `masternode_info_t`, as far as votes read it. `qsteestype` is the tier after the `Check()` of an unset one. -/
structure MasternodeInfo where
  nProtocolVersion : Int
  pubKeyMasternode : CPubKey
  qsteestype : Int
deriving DecidableEq, Repr

structure CActiveMasternode where
  outpoint : COutPoint
  pubKeyMasternode : CPubKey
  burnFundValue : Option Int
deriving DecidableEq, Repr

structure VoteEnv extends PaymentEnv where
  verifyMessage : CPubKey → List UInt8 → String → Bool
  scriptToAsmStr : CScript → String

/-- What a step reads of the node around it. -/
structure VoteContext where
  fLiteMode : Bool := false
  fMasterNode : Bool := false
  isSporkActive : Bool := false
  isMasternodeListSynced : Bool := true
  isBlockchainSynced : Bool := true
  mapMasternodes : StdMap COutPoint MasternodeInfo
  getMasternodeRank : COutPoint → Int → Int → Option Int
  getBlockHash : Int → Bool
  activeMasternode : CActiveMasternode
  signMessage : String → Option (List UInt8)
  /-- The collateral key of the next masternode to pay, by height and tier. -/
  getNextMasternodeInQueueForPayment : Int → Int → Option (List UInt8)

structure VoteState extends CMasternodePayments where
  mapMasternodesLastVote : StdMap COutPoint Int

namespace VoteContext

def getMinMasternodePaymentsProto (ctx : VoteContext) : Int :=
  if ctx.isSporkActive then MIN_MASTERNODE_PAYMENT_PROTO_VERSION_2 else MIN_MASTERNODE_PAYMENT_PROTO_VERSION_1

def find (ctx : VoteContext) (o : COutPoint) : Option Int := (ctx.mapMasternodes[o]?).map MasternodeInfo.qsteestype

end VoteContext

variable (E : VoteEnv) (ctx : VoteContext)

namespace CMasternodePaymentVote

variable (vote : CMasternodePaymentVote)

def markAsNotVerified : CMasternodePaymentVote := { vote with vchSig := [] }

def strMessage : String :=
  vote.vinMasternode.prevout.toStringShort ++ toString vote.nBlockHeight ++ E.scriptToAsmStr vote.payee

/-- Why a vote is not valid, and the score that the peer gets for it. -/
structure Invalid where
  strError : String
  misbehaving : Int := 0
deriving DecidableEq, Repr

/-- `CMasternodePaymentVote::IsValid`. -/
def isValid (nValidationHeight : Int) : Except Invalid Unit :=
  match ctx.mapMasternodes[vote.vinMasternode.prevout]? with
  | none => .error ⟨"Unknown Masternode: prevout=" ++ vote.vinMasternode.prevout.toStringShort, 0⟩
  | some mnInfo =>
    let nMinRequiredProtocol :=
      if vote.nBlockHeight ≥ nValidationHeight then ctx.getMinMasternodePaymentsProto
      else MIN_MASTERNODE_PAYMENT_PROTO_VERSION_1
    if mnInfo.nProtocolVersion < nMinRequiredProtocol then
      .error ⟨"Masternode protocol is too old: nProtocolVersion=" ++ toString mnInfo.nProtocolVersion ++
        ", nMinRequiredProtocol=" ++ toString nMinRequiredProtocol, 0⟩
    else if !ctx.fMasterNode ∧ vote.nBlockHeight < nValidationHeight then .ok ()
    else
      match ctx.getMasternodeRank vote.vinMasternode.prevout (vote.nBlockHeight - 101) nMinRequiredProtocol with
      | none => .error ⟨"", 0⟩
      | some nRank =>
        if nRank > MNPAYMENTS_SIGNATURES_TOTAL then
          if nRank > MNPAYMENTS_SIGNATURES_TOTAL * 2 ∧ vote.nBlockHeight > nValidationHeight then
            .error ⟨"Masternode is not in the top " ++ toString (MNPAYMENTS_SIGNATURES_TOTAL * 2) ++ " (" ++
              toString nRank ++ ")", 20⟩
          else
            .error ⟨"Masternode is not in the top " ++ toString MNPAYMENTS_SIGNATURES_TOTAL ++ " (" ++
              toString nRank ++ ")", 0⟩
        else .ok ()

/-- `CheckSignature`, with `nDos` as the error. The `return error` stands inside the inner `if`, so
that a failed verification for a height up to `nValidationHeight` falls through to `return true`. -/
def checkSignature (pubKeyMasternode : CPubKey) (nValidationHeight : Int) :
    Except Int Unit :=
  if !E.verifyMessage pubKeyMasternode vote.vchSig (vote.strMessage E) then
    if ctx.isMasternodeListSynced ∧ vote.nBlockHeight > nValidationHeight then .error 20 else .ok ()
  else .ok ()

end CMasternodePaymentVote

inductive VoteOutcome where
  | ignored
  | seen
  | outOfRange
  | invalid (error : CMasternodePaymentVote.Invalid)
  | alreadyVoted
  | missing
  | badSignature (nDos : Int)
  | exception
  | notAdded
  | added
deriving DecidableEq, Repr

namespace VoteState

variable (s : VoteState) (vote : CMasternodePaymentVote)

def markSeen : VoteState :=
  { s with mapMasternodePaymentVotes :=
      s.mapMasternodePaymentVotes.insert (E.getHash vote) vote.markAsNotVerified }

def record (outMasternode : COutPoint) (nBlockHeight : Int) : VoteState :=
  { s with mapMasternodesLastVote := s.mapMasternodesLastVote.insert outMasternode nBlockHeight }

/-- None where the last vote was for this height. -/
def canVote (outMasternode : COutPoint) (nBlockHeight : Int) : Option VoteState :=
  if s.mapMasternodesLastVote[outMasternode]? = some nBlockHeight then none
  else some (s.record outMasternode nBlockHeight)

/-- `AddPaymentVote`. -/
def addPaymentVote : Bool × VoteState :=
  let r :=
    s.toCMasternodePayments.addPaymentVote E.toPaymentEnv vote (ctx.getBlockHash (vote.nBlockHeight - 101)) ctx.find
  (r.1, { s with toCMasternodePayments := r.2 })

def inRange (nBlockHeight : Int) : Bool :=
  decide (s.nCachedBlockHeight - getStorageLimit ctx.mapMasternodes.size ≤ nBlockHeight ∧
    nBlockHeight ≤ s.nCachedBlockHeight + 20)

/-- `ProcessMessage` for a `MASTERNODEPAYMENTVOTE` of a peer with protocol version `nVersion`. -/
def processMessage (nVersion : Int) (s : VoteState) (vote : CMasternodePaymentVote) : VoteOutcome × VoteState :=
  if ctx.fLiteMode ∨ nVersion < ctx.getMinMasternodePaymentsProto ∨ !ctx.isMasternodeListSynced then (.ignored, s)
  else if (s.mapMasternodePaymentVotes[E.getHash vote]?).isSome then (.seen, s)
  else
    let s := s.markSeen E vote
    if !s.inRange ctx vote.nBlockHeight then (.outOfRange, s)
    else match vote.isValid ctx s.nCachedBlockHeight with
      | .error error => (.invalid error, s)
      | .ok () => match s.canVote vote.vinMasternode.prevout vote.nBlockHeight with
        | none => (.alreadyVoted, s)
        | some s => match ctx.mapMasternodes[vote.vinMasternode.prevout]? with
          | none => (.missing, s)
          | some mnInfo => match vote.checkSignature E ctx mnInfo.pubKeyMasternode s.nCachedBlockHeight with
            | .error nDos => (.badSignature nDos, s)
            | .ok () =>
              -- the address of the payee is extracted for a log line
              if extractionThrows vote.payee then (.exception, s)
              else
                let r := s.addPaymentVote E ctx vote
                (if r.1 then .added else .notAdded, r.2)

def getSinType (P : Params) (burnValue : Int) : Int :=
  if (P.nMasternodeBurnQSTEESNODE_1 - 1) * COIN < burnValue ∧ burnValue ≤ P.nMasternodeBurnQSTEESNODE_1 * COIN then 1
  else if (P.nMasternodeBurnQSTEESNODE_5 - 1) * COIN < burnValue ∧
    burnValue ≤ P.nMasternodeBurnQSTEESNODE_5 * COIN then 5
  else if (P.nMasternodeBurnQSTEESNODE_10 - 1) * COIN < burnValue ∧
    burnValue ≤ P.nMasternodeBurnQSTEESNODE_10 * COIN then 10
  else 0

def sign : Option CMasternodePaymentVote := do
  let vchSig ← ctx.signMessage (vote.strMessage E)
  if E.verifyMessage ctx.activeMasternode.pubKeyMasternode vchSig (vote.strMessage E) then
    some { vote with vchSig := vchSig }
  else none

/-- The vote of the node itself. -/
def ownVote (nBlockHeight : Int) : Option CMasternodePaymentVote :=
  if ctx.fLiteMode ∨ !ctx.fMasterNode ∨ !ctx.isMasternodeListSynced then none
  else do
    let nRank ← ctx.getMasternodeRank ctx.activeMasternode.outpoint (nBlockHeight - 101)
      ctx.getMinMasternodePaymentsProto
    if nRank > MNPAYMENTS_SIGNATURES_TOTAL then none
    else
      let vSinType := getSinType E.params (ctx.activeMasternode.burnFundValue.getD 0)
      let keyID ← ctx.getNextMasternodeInQueueForPayment nBlockHeight vSinType
      sign E ctx ⟨⟨ctx.activeMasternode.outpoint, [], SEQUENCE_FINAL, []⟩, nBlockHeight,
        getScriptForDestination (.keyID keyID), []⟩

/-- `ProcessBlock`. -/
def processBlock (nBlockHeight : Int) : VoteState :=
  match ownVote E ctx nBlockHeight with
  | none => s
  | some voteNew => (s.addPaymentVote E ctx voteNew).2

def updatedBlockTip (nHeight : Int) : VoteState :=
  let s := { s with nCachedBlockHeight := nHeight }
  s.processBlock E ctx (nHeight + 10)

def checkAndRemove : VoteState :=
  { s with toCMasternodePayments :=
      s.toCMasternodePayments.checkAndRemove ctx.isBlockchainSynced ctx.mapMasternodes.size }

def clear : VoteState :=
  { s with mapMasternodePaymentVotes := ∅, mapMasternodeBlocks := ∅ }

def empty (nCachedBlockHeight : Int) : VoteState := ⟨⟨nCachedBlockHeight, ∅, ∅⟩, ∅⟩

end VoteState

def CMasternodePayments.countedHashes (s : CMasternodePayments) (nBlockHeight : Int) : List UInt256 :=
  match s.mapMasternodeBlocks[nBlockHeight]? with
  | none => []
  | some bp => bp.vecPayees.flatMap CMasternodePayee.vecVoteHashes

inductive VoteAction where
  | message (ctx : VoteContext) (nVersion : Int) (vote : CMasternodePaymentVote)
  | updatedBlockTip (ctx : VoteContext) (nHeight : Int)
  | checkAndRemove (ctx : VoteContext)
  | clear

def VoteState.step (s : VoteState) : VoteAction → VoteState
  | .message ctx nVersion vote => (s.processMessage E ctx nVersion vote).2
  | .updatedBlockTip ctx nHeight => s.updatedBlockTip E ctx nHeight
  | .checkAndRemove ctx => s.checkAndRemove ctx
  | .clear => s.clear

end Qstees
