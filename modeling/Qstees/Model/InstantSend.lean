import Qstees.Model.Coins
import Qstees.Model.PaymentVotes

/-!
# InstantSend

Lock requests, lock votes and lock candidates, and what `CInstantSend` does with them. A reference to a
candidate is the key under which `mapTxLockCandidates` holds it. `Relay`, the notifications, the logs and the
`PoSeBan` of a masternode act outside `CInstantSend` and are left out.
-/

namespace Qstees

def INSTANTSEND_CONFIRMATIONS_REQUIRED : Int := 6

def MIN_INSTANTSEND_PROTO_VERSION : Int := 250000

def INSTANTSEND_LOCK_TIMEOUT_SECONDS : Int := 15

def INSTANTSEND_FAILED_TIMEOUT_SECONDS : Int := 60

def SIGNATURES_REQUIRED : Nat := 6

def SIGNATURES_TOTAL : Int := 10

structure CTxLockRequest where
  tx : CTransaction
deriving DecidableEq, Repr

structure LockRequestContext where
  height : Int
  getAdjustedTime : Int
  getUTXOCoin : COutPoint → Option Coin
  sporkMaxValue : Int

def checkFinalTx (ctx : LockRequestContext) (tx : CTransaction) : Bool :=
  isFinalTx tx (ctx.height + 1) ctx.getAdjustedTime

namespace CTxLockRequest

def MIN_FEE : Int := COIN / 10

def getHash (request : CTxLockRequest) : UInt256 := request.tx.hash

def getMinFee (request : CTxLockRequest) : Int := max MIN_FEE (request.tx.vin.length * MIN_FEE)

def valueIn (ctx : LockRequestContext) : Int → List CTxIn → Option Int
  | nValueIn, [] => some nValueIn
  | nValueIn, txin :: vin =>
    match ctx.getUTXOCoin txin.prevout with
    | none => none
    | some coin =>
      if ctx.height - coin.nHeight + 1 < INSTANTSEND_CONFIRMATIONS_REQUIRED - 1 then none
      else valueIn ctx (wrap64 (nValueIn + coin.out.nValue)) vin

/-- `CTxLockRequest::IsValid`. -/
def isValid (ctx : LockRequestContext) (request : CTxLockRequest) : Except Failure Bool :=
  if request.tx.vout.length < 1 then .ok false
  else if !checkFinalTx ctx request.tx then .ok false
  else
    match valueIn ctx 0 request.tx.vin with
    | none => .ok false
    | some nValueIn =>
      if nValueIn > ctx.sporkMaxValue * COIN then .ok false
      else do
        let nValueOut ← request.tx.getValueOut.result
        pure (!decide (nValueIn - nValueOut < request.getMinFee))

end CTxLockRequest

structure InstantSendEnv where
  verifyMessage : CPubKey → List UInt8 → String → Bool
  /-- The hash of a transaction hash, an outpoint and the outpoint of a masternode. -/
  voteHash : UInt256 → COutPoint → COutPoint → UInt256
  emptyRequest : CTxLockRequest
  activeOutpoint : COutPoint
  nInstantSendKeepLock : Int

structure InstantSendContext extends LockRequestContext where
  fLiteMode : Bool := false
  fMasterNode : Bool := false
  fEnableInstantSend : Bool := true
  fLargeWorkForkFound : Bool := false
  fLargeWorkInvalidChainFound : Bool := false
  sporkEnabled : Bool := true
  sporkBlockFiltering : Bool := true
  isMasternodeListSynced : Bool := true
  /-- There is a wallet, and the locks on the chain, the wallet and InstantSend are free. -/
  lockable : Bool := true
  getTime : Int
  getMasternodeInfo : COutPoint → Option CPubKey
  getMasternodeRank : COutPoint → Int → Option Int
  pubKeyMasternode : CPubKey
  signMessage : String → Option (List UInt8)
  /-- The hash of the pool transaction that spends an outpoint. -/
  mapNextTx : COutPoint → Option UInt256
  /-- Whether `GetTransaction` finds a transaction in a block. -/
  inBlock : UInt256 → Bool

structure CTxLockVote where
  txHash : UInt256
  outpoint : COutPoint
  outpointMasternode : COutPoint
  vchMasternodeSignature : List UInt8 := []
  nConfirmedHeight : Int := -1
  nTimeCreated : Int
deriving DecidableEq, Repr

structure COutPointLock where
  mapMasternodeVotes : StdMap COutPoint CTxLockVote := ∅
  fAttacked : Bool := false

structure CTxLockCandidate where
  txLockRequest : CTxLockRequest
  nTimeCreated : Int
  nConfirmedHeight : Int := -1
  mapOutPointLocks : StdMap COutPoint COutPointLock := ∅

variable (E : InstantSendEnv) (ctx : InstantSendContext)

def CTxLockRequest.isSet (request : CTxLockRequest) : Bool := request.getHash != E.emptyRequest.getHash

def lockExpired (nConfirmedHeight nHeight : Int) : Bool :=
  nConfirmedHeight != -1 && decide (nHeight - nConfirmedHeight > E.nInstantSendKeepLock)

namespace CTxLockVote

variable (vote : CTxLockVote)

def getHash : UInt256 := E.voteHash vote.txHash vote.outpoint vote.outpointMasternode

def strMessage : String := getHex vote.txHash ++ vote.outpoint.toStringShort

def checkSignature : Bool :=
  match ctx.getMasternodeInfo vote.outpointMasternode with
  | none => false
  | some pubKeyMasternode => E.verifyMessage pubKeyMasternode vote.vchMasternodeSignature vote.strMessage

/-- `CTxLockVote::IsValid`. -/
def isValid : Bool :=
  if (ctx.getMasternodeInfo vote.outpointMasternode).isNone then false
  else
    match ctx.getUTXOCoin vote.outpoint with
    | none => false
    | some coin =>
      match ctx.getMasternodeRank vote.outpointMasternode (coin.nHeight + 4) with
      | none => false
      | some nRank => if nRank > SIGNATURES_TOTAL then false else vote.checkSignature E ctx

/-- `CTxLockVote::Sign`, checked after signing. -/
def sign : Option CTxLockVote :=
  match ctx.signMessage vote.strMessage with
  | none => none
  | some vchSig =>
    if E.verifyMessage ctx.pubKeyMasternode vchSig vote.strMessage then
      some { vote with vchMasternodeSignature := vchSig }
    else none

def isTimedOut : Bool := decide (ctx.getTime - vote.nTimeCreated > INSTANTSEND_LOCK_TIMEOUT_SECONDS)

end CTxLockVote

namespace COutPointLock

variable (lock : COutPointLock)

def countVotes : Nat := if lock.fAttacked then 0 else lock.mapMasternodeVotes.size

def isReady : Bool := !lock.fAttacked && decide (SIGNATURES_REQUIRED ≤ lock.countVotes)

def hasMasternodeVoted (outpointMasternode : COutPoint) : Bool :=
  lock.mapMasternodeVotes.contains outpointMasternode

def addVote (vote : CTxLockVote) : Option COutPointLock :=
  if lock.mapMasternodeVotes.contains vote.outpointMasternode then none
  else some { lock with mapMasternodeVotes := lock.mapMasternodeVotes.insert vote.outpointMasternode vote }

def markAsAttacked : COutPointLock := { lock with fAttacked := true }

end COutPointLock

namespace CTxLockCandidate

variable (candidate : CTxLockCandidate)

def getHash : UInt256 := candidate.txLockRequest.getHash

def addOutPointLock (outpoint : COutPoint) : CTxLockCandidate :=
  { candidate with mapOutPointLocks := candidate.mapOutPointLocks.insertIfNew outpoint {} }

def addOutPointLocks (vin : List CTxIn) : CTxLockCandidate :=
  vin.foldr (fun txin candidate => candidate.addOutPointLock txin.prevout) candidate

def markOutpointAsAttacked (outpoint : COutPoint) : CTxLockCandidate :=
  { candidate with mapOutPointLocks := candidate.mapOutPointLocks.modify outpoint COutPointLock.markAsAttacked }

def addVote (vote : CTxLockVote) : Option CTxLockCandidate :=
  match candidate.mapOutPointLocks[vote.outpoint]? with
  | none => none
  | some lock =>
    match lock.addVote vote with
    | none => none
    | some lock => some { candidate with mapOutPointLocks := candidate.mapOutPointLocks.insert vote.outpoint lock }

def isAllOutPointsReady : Bool :=
  !candidate.mapOutPointLocks.isEmpty && candidate.mapOutPointLocks.toList.all (fun entry => entry.2.isReady)

def hasMasternodeVoted (outpoint outpointMasternode : COutPoint) : Bool :=
  match candidate.mapOutPointLocks[outpoint]? with
  | none => false
  | some lock => lock.hasMasternodeVoted outpointMasternode

def isTimedOut : Bool := decide (ctx.getTime - candidate.nTimeCreated > INSTANTSEND_LOCK_TIMEOUT_SECONDS)

end CTxLockCandidate

/-- The maps of `CInstantSend`. -/
structure CInstantSend where
  nCachedBlockHeight : Int := 0
  mapLockRequestAccepted : StdMap UInt256 CTxLockRequest := ∅
  mapLockRequestRejected : StdMap UInt256 CTxLockRequest := ∅
  mapTxLockVotes : StdMap UInt256 CTxLockVote := ∅
  mapTxLockVotesOrphan : StdMap UInt256 CTxLockVote := ∅
  mapTxLockCandidates : StdMap UInt256 CTxLockCandidate := ∅
  mapVotedOutpoints : StdMap COutPoint (Std.ExtTreeSet UInt256) := ∅
  mapLockedOutpoints : StdMap COutPoint UInt256 := ∅
  mapMasternodeOrphanVotes : StdMap COutPoint Int := ∅

namespace CInstantSend

variable (s : CInstantSend)

def votedHashes (outpoint : COutPoint) : Std.ExtTreeSet UInt256 :=
  (s.mapVotedOutpoints[outpoint]?).getD ∅

def addVotedHash (outpoint : COutPoint) (txHash : UInt256) : CInstantSend :=
  { s with mapVotedOutpoints := s.mapVotedOutpoints.insert outpoint ((s.votedHashes outpoint).insert txHash) }

def setCandidate (key : UInt256) (candidate : CTxLockCandidate) : CInstantSend :=
  { s with mapTxLockCandidates := s.mapTxLockCandidates.insert key candidate }

/-- `IsLockedInstantSendTransaction`. -/
def isLockedInstantSendTransaction (txHash : UInt256) : Bool :=
  if !ctx.fEnableInstantSend || ctx.fLargeWorkForkFound || ctx.fLargeWorkInvalidChainFound ||
    !ctx.sporkBlockFiltering then
    false
  else
    match s.mapTxLockCandidates[txHash]? with
    | none => false
    | some candidate =>
      !candidate.mapOutPointLocks.isEmpty &&
        candidate.mapOutPointLocks.toList.all (fun entry => s.mapLockedOutpoints[entry.1]? == some txHash)

def isFailed (vote : CTxLockVote) : Bool :=
  decide (ctx.getTime - vote.nTimeCreated > INSTANTSEND_FAILED_TIMEOUT_SECONDS) &&
    !s.isLockedInstantSendTransaction ctx vote.txHash

/-- What the clean-up drops with a candidate. -/
def removeCandidate (key : UInt256) (candidate : CTxLockCandidate) : CInstantSend :=
  { s with
    mapLockedOutpoints := candidate.mapOutPointLocks.toList.foldl (fun m entry => m.erase entry.1) s.mapLockedOutpoints
    mapVotedOutpoints := candidate.mapOutPointLocks.toList.foldl (fun m entry => m.erase entry.1) s.mapVotedOutpoints
    mapLockRequestAccepted := s.mapLockRequestAccepted.erase candidate.getHash
    mapLockRequestRejected := s.mapLockRequestRejected.erase candidate.getHash
    mapTxLockCandidates := s.mapTxLockCandidates.erase key }

def removeExpiredCandidates : CInstantSend :=
  s.mapTxLockCandidates.toList.foldl
    (fun t entry =>
      if lockExpired E entry.2.nConfirmedHeight s.nCachedBlockHeight then t.removeCandidate entry.1 entry.2 else t) s

def removeExpiredVotes : CInstantSend :=
  { s with mapTxLockVotes :=
      s.mapTxLockVotes.filter (fun _ vote => !lockExpired E vote.nConfirmedHeight s.nCachedBlockHeight) }

def removeTimedOutOrphans : CInstantSend :=
  { s with
    mapTxLockVotes := s.mapTxLockVotesOrphan.toList.foldl
      (fun m entry => if entry.2.isTimedOut ctx then m.erase entry.1 else m) s.mapTxLockVotes
    mapTxLockVotesOrphan := s.mapTxLockVotesOrphan.filter (fun _ vote => !vote.isTimedOut ctx) }

def removeFailedVotes : CInstantSend :=
  { s with mapTxLockVotes := s.mapTxLockVotes.filter (fun _ vote => !s.isFailed ctx vote) }

def removeOrphanTimes : CInstantSend :=
  { s with mapMasternodeOrphanVotes := s.mapMasternodeOrphanVotes.filter (fun _ time => !decide (time < ctx.getTime)) }

/-- `CheckAndRemove`. -/
def checkAndRemove : CInstantSend :=
  if !ctx.isMasternodeListSynced then s
  else
    ((((s.removeExpiredCandidates E).removeExpiredVotes E).removeTimedOutOrphans ctx).removeFailedVotes
      ctx).removeOrphanTimes ctx

inductive Conflict where
  | clear
  | locked (hashConflicting : UInt256)
  | mempool
deriving DecidableEq, Repr

/-- How one input conflicts with what is locked. -/
def inputConflict (txHash : UInt256) (txin : CTxIn) : Conflict :=
  match (s.mapLockedOutpoints[txin.prevout]?).filter (fun hash => txHash != hash) with
  | some hashConflicting => .locked hashConflicting
  | none =>
    match (ctx.mapNextTx txin.prevout).filter (fun hash => txHash != hash) with
    | some _ => .mempool
    | none => .clear

def findConflict (s : CInstantSend) (txHash : UInt256) : List CTxIn → Conflict
  | [] => .clear
  | txin :: vin =>
    match s.inputConflict ctx txHash txin with
    | .clear => findConflict s txHash vin
    | conflict => conflict

def dropConflicting (txHash hashConflicting : UInt256) : CInstantSend :=
  match s.mapTxLockCandidates[txHash]?, s.mapTxLockCandidates[hashConflicting]? with
  | some candidate, some conflicting =>
    let s := (s.setCandidate txHash { candidate with nConfirmedHeight := 0 }).setCandidate hashConflicting
      { conflicting with nConfirmedHeight := 0 }
    let s := s.checkAndRemove E ctx
    let s := { s with mapLockRequestRejected := s.mapLockRequestRejected.insertIfNew txHash candidate.txLockRequest }
    { s with mapLockRequestRejected := s.mapLockRequestRejected.insertIfNew hashConflicting conflicting.txLockRequest }
  | _, _ => s

variable (candidate : CTxLockCandidate)

/-- `ResolveConflicts`. -/
def resolveConflicts : Bool × CInstantSend :=
  if !candidate.isAllOutPointsReady then (false, s)
  else
    match s.findConflict ctx candidate.getHash candidate.txLockRequest.tx.vin with
    | .locked hashConflicting => (false, s.dropConflicting E ctx candidate.getHash hashConflicting)
    | .mempool => (false, s)
    | .clear =>
      if ctx.inBlock candidate.getHash then (true, s)
      else (candidate.txLockRequest.tx.vin.all (fun txin => (ctx.getUTXOCoin txin.prevout).isSome), s)

/-- `LockTransactionInputs`. -/
def lockTransactionInputs : CInstantSend :=
  if !ctx.sporkEnabled then s
  else if !candidate.isAllOutPointsReady then s
  else
    { s with
      mapLockedOutpoints :=
        candidate.mapOutPointLocks.toList.foldl (fun m entry => m.insertIfNew entry.1 candidate.getHash)
          s.mapLockedOutpoints }

/-- `TryToFinalizeLockCandidate`. -/
def tryToFinalizeLockCandidate : CInstantSend :=
  if !ctx.sporkEnabled then s
  else if candidate.isAllOutPointsReady && !s.isLockedInstantSendTransaction ctx candidate.getHash then
    match s.resolveConflicts E ctx candidate with
    | (true, s) => s.lockTransactionInputs ctx candidate
    | (false, s) => s
  else s

def tryToFinalizeAt (key : UInt256) : CInstantSend :=
  match s.mapTxLockCandidates[key]? with
  | none => s
  | some candidate => s.tryToFinalizeLockCandidate E ctx candidate

/-- `CreateTxLockCandidate`. -/
def createCandidate (request : CTxLockRequest) : Bool × CInstantSend :=
  match s.mapTxLockCandidates[request.getHash]? with
  | none =>
    let candidate : CTxLockCandidate := { txLockRequest := request, nTimeCreated := ctx.getTime }
    (true, s.setCandidate request.getHash (candidate.addOutPointLocks request.tx.vin))
  | some candidate =>
    if candidate.txLockRequest.isSet E then (true, s)
    else
      let candidate := { candidate with txLockRequest := request }
      -- a candidate that has timed out keeps the request, without locks
      if candidate.isTimedOut ctx then (false, s.setCandidate request.getHash candidate)
      else (true, s.setCandidate request.getHash (candidate.addOutPointLocks request.tx.vin))

/-- `CreateTxLockCandidate`; an exception of `IsValid` leaves the state alone as well. -/
def createTxLockCandidate (request : CTxLockRequest) : Bool × CInstantSend :=
  match request.isValid ctx.toLockRequestContext with
  | .ok true => s.createCandidate E ctx request
  | _ => (false, s)

def createEmptyTxLockCandidate (txHash : UInt256) : CInstantSend :=
  { s with mapTxLockCandidates :=
      s.mapTxLockCandidates.insertIfNew txHash { txLockRequest := E.emptyRequest, nTimeCreated := ctx.getTime } }

/-- `ProcessTxLockRequest`. -/
def processTxLockRequest (request : CTxLockRequest) : Bool × CInstantSend :=
  match s.createTxLockCandidate E ctx request with
  | (false, s) => (false, s)
  | (true, s) => (true, s.tryToFinalizeAt E ctx request.getHash)

def acceptLockRequest (request : CTxLockRequest) : CInstantSend :=
  { s with mapLockRequestAccepted := s.mapLockRequestAccepted.insertIfNew request.getHash request }

def rejectLockRequest (request : CTxLockRequest) : CInstantSend :=
  { s with mapLockRequestRejected := s.mapLockRequestRejected.insertIfNew request.getHash request }

/-- `fAlreadyVoted`. A hash without a candidate makes the source follow an iterator past the end: `none`. -/
def alreadyVoted (s : CInstantSend) (outpoint : COutPoint) : List UInt256 → Option Bool
  | [] => some false
  | hash :: hashes =>
    match s.mapTxLockCandidates[hash]? with
    | none => none
    | some candidate =>
      if candidate.hasMasternodeVoted outpoint E.activeOutpoint then some true else s.alreadyVoted outpoint hashes

def recordOwnVote (key : UInt256) (vote : CTxLockVote) : CInstantSend :=
  let s := { s with mapTxLockVotes := s.mapTxLockVotes.insertIfNew (vote.getHash E) vote }
  match (s.mapTxLockCandidates[key]?).bind (fun candidate => candidate.addVote vote) with
  | none => s
  | some candidate => (s.setCandidate key candidate).addVotedHash vote.outpoint vote.txHash

/-- The state after `Vote`, with the votes that were signed and whether it ran past the end of a map. -/
structure Voted where
  state : CInstantSend
  signed : List CTxLockVote := []
  crashed : Bool := false

/-- An own vote, if its signature verifies. -/
def signedVote (txHash : UInt256) (outpoint : COutPoint) : Option CTxLockVote :=
  match CTxLockVote.sign E ctx
      { txHash, outpoint, outpointMasternode := E.activeOutpoint, nTimeCreated := ctx.getTime } with
  | none => none
  | some vote => if vote.checkSignature E ctx then some vote else none

/-- The loop of `Vote` over the inputs. -/
def voteOutpoints (key txHash : UInt256) : CInstantSend → List COutPoint → Voted
  | s, [] => { state := s }
  | s, outpoint :: outpoints =>
    match ctx.getUTXOCoin outpoint with
    | none => { state := s }
    | some coin =>
      match ctx.getMasternodeRank E.activeOutpoint (coin.nHeight + 4) with
      | none => voteOutpoints key txHash s outpoints
      | some nRank =>
        if nRank > SIGNATURES_TOTAL then voteOutpoints key txHash s outpoints
        else
          match s.alreadyVoted E outpoint (s.votedHashes outpoint).toList with
          | none => { state := s, crashed := true }
          | some true => voteOutpoints key txHash s outpoints
          | some false =>
            match signedVote E ctx txHash outpoint with
            | none => { state := s }
            | some vote =>
              let rest := voteOutpoints key txHash (s.recordOwnVote E key vote) outpoints
              { rest with signed := vote :: rest.signed }

def voteCandidate (key : UInt256) (candidate : CTxLockCandidate) : Voted :=
  if !ctx.fMasterNode then { state := s }
  else if !ctx.sporkEnabled then { state := s }
  else if !s.mapLockRequestAccepted.contains candidate.getHash then { state := s }
  else s.voteOutpoints E ctx key candidate.getHash candidate.mapOutPointLocks.keys

def vote (txHash : UInt256) : Voted :=
  match s.mapTxLockCandidates[txHash]? with
  | none => { state := s }
  | some candidate =>
    let voted := s.voteCandidate E ctx txHash candidate
    if voted.crashed then voted else { voted with state := voted.state.tryToFinalizeAt E ctx txHash }

inductive LockVoteOutcome where
  | ignored
  | seen
  | invalid
  | reprocessed
  | spam
  | orphan
  | timedOut
  | notAdded
  | counted
deriving DecidableEq, Repr

def isEnoughOrphanVotesForTxAndOutPoint (txHash : UInt256) (outpoint : COutPoint) : Bool :=
  decide (SIGNATURES_REQUIRED ≤
    s.mapTxLockVotesOrphan.toList.countP (fun entry => entry.2.txHash == txHash && entry.2.outpoint == outpoint))

def isEnoughOrphanVotesForTx (request : CTxLockRequest) : Bool :=
  request.tx.vin.all (fun txin => s.isEnoughOrphanVotesForTxAndOutPoint request.getHash txin.prevout)

def getAverageMasternodeOrphanVoteTime : Int :=
  if s.mapMasternodeOrphanVotes.isEmpty then 0
  else (s.mapMasternodeOrphanVotes.toList.map Prod.snd).sum / s.mapMasternodeOrphanVotes.size

/-- The rate limit for orphan votes. -/
def limitOrphanVotes (vote : CTxLockVote) : LockVoteOutcome × CInstantSend :=
  let refreshed := { s with mapMasternodeOrphanVotes :=
    s.mapMasternodeOrphanVotes.insert vote.outpointMasternode (ctx.getTime + 60 * 10) }
  match s.mapMasternodeOrphanVotes[vote.outpointMasternode]? with
  | none => (.orphan, refreshed)
  | some nPrevOrphanVote =>
    if nPrevOrphanVote > ctx.getTime ∧ nPrevOrphanVote > s.getAverageMasternodeOrphanVoteTime then (.spam, s)
    else (.orphan, refreshed)

/-- A vote before its request. -/
def processOrphanVote (vote : CTxLockVote) : LockVoteOutcome × CInstantSend :=
  if s.mapTxLockVotesOrphan.contains (vote.getHash E) then s.limitOrphanVotes ctx vote
  else
    let s := s.createEmptyTxLockCandidate E ctx vote.txHash
    let s := { s with mapTxLockVotesOrphan := s.mapTxLockVotesOrphan.insert (vote.getHash E) vote }
    match (s.mapLockRequestAccepted[vote.txHash]?).or s.mapLockRequestRejected[vote.txHash]? with
    | none => s.limitOrphanVotes ctx vote
    | some request =>
      if s.isEnoughOrphanVotesForTx request then (.reprocessed, (s.processTxLockRequest E ctx request).2)
      else s.limitOrphanVotes ctx vote

def markAttacked (key : UInt256) (outpoint : COutPoint) : CInstantSend :=
  { s with mapTxLockCandidates := s.mapTxLockCandidates.modify key (fun c => c.markOutpointAsAttacked outpoint) }

/-- The candidates of `txHash` and of another vote of the same masternode are marked. -/
def markConflicting (vote : CTxLockVote) (hash : UInt256) : CInstantSend :=
  if hash = vote.txHash then s
  else
    match s.mapTxLockCandidates[hash]? with
    | none => s
    | some candidate =>
      if candidate.hasMasternodeVoted vote.outpoint vote.outpointMasternode then
        (s.markAttacked vote.txHash vote.outpoint).markAttacked hash vote.outpoint
      else s

/-- A vote for a transaction with a lock request that has not timed out. -/
def countVote (vote : CTxLockVote) : LockVoteOutcome × CInstantSend :=
  let s := (s.votedHashes vote.outpoint).toList.foldl (fun s hash => s.markConflicting vote hash) s
  let s := s.addVotedHash vote.outpoint vote.txHash
  match (s.mapTxLockCandidates[vote.txHash]?).bind (fun candidate => candidate.addVote vote) with
  | none => (.notAdded, s)
  | some candidate => (.counted, (s.setCandidate vote.txHash candidate).tryToFinalizeAt E ctx vote.txHash)

/-- `ProcessTxLockVote`. -/
def processTxLockVote (vote : CTxLockVote) : LockVoteOutcome × CInstantSend :=
  if !vote.isValid E ctx then (.invalid, s)
  else
    match s.mapTxLockCandidates[vote.txHash]? with
    | none => s.processOrphanVote E ctx vote
    | some candidate =>
      if !candidate.txLockRequest.isSet E then s.processOrphanVote E ctx vote
      else if candidate.isTimedOut ctx then (.timedOut, s)
      else s.countVote E ctx vote

def heardVote (nVersion : Int) : Bool :=
  !ctx.fLiteMode && ctx.sporkEnabled && decide (MIN_INSTANTSEND_PROTO_VERSION ≤ nVersion) &&
    ctx.isMasternodeListSynced && ctx.lockable

/-- A `TXLOCKVOTE` message. -/
def processMessage (nVersion : Int) (s : CInstantSend) (vote : CTxLockVote) : LockVoteOutcome × CInstantSend :=
  if !heardVote ctx nVersion then (.ignored, s)
  else if s.mapTxLockVotes.contains (vote.getHash E) then (.seen, s)
  else
    let s := { s with mapTxLockVotes := s.mapTxLockVotes.insert (vote.getHash E) vote }
    s.processTxLockVote E ctx vote

def setVoteHeights (nHeightNew : Int) (mapTxLockVotes : StdMap UInt256 CTxLockVote) (candidate : CTxLockCandidate) :
    StdMap UInt256 CTxLockVote :=
  candidate.mapOutPointLocks.toList.foldl
    (fun m entry => entry.2.mapMasternodeVotes.toList.foldl
      (fun m stored => m.modify (stored.2.getHash E) (fun vote => { vote with nConfirmedHeight := nHeightNew })) m)
    mapTxLockVotes

def setOrphanHeight (nHeightNew : Int) (m : StdMap UInt256 CTxLockVote) (hash : UInt256) : StdMap UInt256 CTxLockVote :=
  let vote := (m[hash]?).getD
    { txHash := 0, outpoint := ⟨0, 0xffffffff⟩, outpointMasternode := ⟨0, 0xffffffff⟩, nTimeCreated := ctx.getTime }
  m.insert hash { vote with nConfirmedHeight := nHeightNew }

/-- `SyncTransaction`; the height is `none` for a transaction that is not in a block. -/
def syncTransaction (tx : CTransaction) (nHeight : Option Int) : CInstantSend :=
  if tx.isCoinBase then s
  else
    let nHeightNew := nHeight.getD (-1)
    let mapTxLockVotes :=
      match s.mapTxLockCandidates[tx.hash]? with
      | none => s.mapTxLockVotes
      | some candidate => setVoteHeights E nHeightNew s.mapTxLockVotes candidate
    { s with
      mapTxLockCandidates := s.mapTxLockCandidates.modify tx.hash (fun c => { c with nConfirmedHeight := nHeightNew })
      mapTxLockVotes := s.mapTxLockVotesOrphan.toList.foldl
        (fun m entry => if entry.2.txHash = tx.hash then setOrphanHeight ctx nHeightNew m entry.1 else m)
          mapTxLockVotes }

def updatedBlockTip (nHeight : Int) : CInstantSend := { s with nCachedBlockHeight := nHeight }

inductive Action where
  | request (request : CTxLockRequest)
  | accept (request : CTxLockRequest)
  | reject (request : CTxLockRequest)
  | vote (txHash : UInt256)
  | message (nVersion : Int) (vote : CTxLockVote)
  | syncTransaction (tx : CTransaction) (nHeight : Option Int)
  | updatedBlockTip (nHeight : Int)
  | checkAndRemove

/-- One action, with the votes that the node signs in it. -/
def perform (ctx : InstantSendContext) : Action → CInstantSend × List CTxLockVote
  | .request request => ((s.processTxLockRequest E ctx request).2, [])
  | .accept request => (s.acceptLockRequest request, [])
  | .reject request => (s.rejectLockRequest request, [])
  | .vote txHash => ((s.vote E ctx txHash).state, (s.vote E ctx txHash).signed)
  | .message nVersion vote => ((s.processMessage E ctx nVersion vote).2, [])
  | .syncTransaction tx nHeight => (s.syncTransaction E ctx tx nHeight, [])
  | .updatedBlockTip nHeight => (s.updatedBlockTip nHeight, [])
  | .checkAndRemove => (s.checkAndRemove E ctx, [])

def step (a : InstantSendContext × Action) : CInstantSend := (s.perform E a.1 a.2).1

def signedBy (a : InstantSendContext × Action) : List CTxLockVote := (s.perform E a.1 a.2).2

end CInstantSend

end Qstees
