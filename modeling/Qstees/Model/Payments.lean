import Qstees.Model.Rewards
import Qstees.Model.Standard

/-!
# Masternode payments

The vote store `CMasternodePayments`, the payments a miner writes into its coinbase from it,
and the check of a coinbase against it. `createCoinbase` is the part of
`BlockAssembler::CreateNewBlock` that assembles the coinbase outputs.
-/

namespace Qstees

def MNPAYMENTS_SIGNATURES_REQUIRED : Nat := 6

structure CMasternodePayee where
  scriptPubKey : CScript
  qsteestype : Int
  vecVoteHashes : List UInt256
deriving DecidableEq, Repr

def CMasternodePayee.getVoteCount (p : CMasternodePayee) : Nat := p.vecVoteHashes.length

structure CMasternodePaymentVote where
  vinMasternode : CTxIn
  nBlockHeight : Int
  payee : CScript
  vchSig : List UInt8
deriving DecidableEq, Repr

def CMasternodePaymentVote.isVerified (v : CMasternodePaymentVote) : Bool := !v.vchSig.isEmpty

structure CMasternodeBlockPayees where
  nBlockHeight : Int
  vecPayees : List CMasternodePayee
deriving DecidableEq, Repr

/-- The votes by hash, and the payees by height. -/
structure CMasternodePayments where
  nCachedBlockHeight : Int
  mapMasternodePaymentVotes : StdMap UInt256 CMasternodePaymentVote
  mapMasternodeBlocks : StdMap Int CMasternodeBlockPayees

/-- What the payment code reads from outside: the parameters, the two object hashes (a
payee's already as a number), the address decoder and the local payment queue. -/
structure PaymentEnv where
  params : Params
  voteHash : CScript → Int → COutPoint → UInt256
  payeeHash : CScript → Int → Nat
  decodeDestination : String → CTxDestination
  getNextMasternodeInQueueForPayment : Int → Option CScript

variable (E : PaymentEnv)

def PaymentEnv.getHash (vote : CMasternodePaymentVote) : UInt256 :=
  E.voteHash vote.payee vote.nBlockHeight vote.vinMasternode.prevout

/-- The loop of `AddPayee`: append the vote hash to the payee with this script, if there is one. -/
def addVoteHash (payee : CScript) (hashIn : UInt256) : List CMasternodePayee → Option (List CMasternodePayee)
  | [] => none
  | p :: ps =>
    if p.scriptPubKey = payee then some ({ p with vecVoteHashes := p.vecVoteHashes ++ [hashIn] } :: ps)
    else (addVoteHash payee hashIn ps).map (p :: ·)

variable (bp : CMasternodeBlockPayees)

/-- `AddPayee`. `find` is the tier of a known masternode, after the `Check()` of an unset one. -/
def CMasternodeBlockPayees.addPayee (vote : CMasternodePaymentVote)
    (find : COutPoint → Option Int) : CMasternodeBlockPayees :=
  match addVoteHash vote.payee (E.getHash vote) bp.vecPayees with
  | some vecPayees => { bp with vecPayees := vecPayees }
  | none =>
    match find vote.vinMasternode.prevout with
    | none => bp
    | some qsteestype =>
      { bp with vecPayees := bp.vecPayees ++ [⟨vote.payee, qsteestype, [E.getHash vote]⟩] }

variable (s : CMasternodePayments)

def CMasternodePayments.hasVerifiedPaymentVote (hashIn : UInt256) : Bool :=
  match s.mapMasternodePaymentVotes[hashIn]? with
  | none => false
  | some vote => vote.isVerified

/-- `AddPaymentVote`; `known` says whether `GetBlockHash(vote.nBlockHeight - 101)` succeeds. -/
def CMasternodePayments.addPaymentVote (vote : CMasternodePaymentVote)
    (known : Bool) (find : COutPoint → Option Int) : Bool × CMasternodePayments :=
  if !known then (false, s)
  else if s.hasVerifiedPaymentVote (E.getHash vote) then (false, s)
  else
    let blockPayees := (s.mapMasternodeBlocks[vote.nBlockHeight]?).getD ⟨vote.nBlockHeight, []⟩
    (true, { s with
      mapMasternodePaymentVotes := s.mapMasternodePaymentVotes.insert (E.getHash vote) vote
      mapMasternodeBlocks :=
        s.mapMasternodeBlocks.insert vote.nBlockHeight (blockPayees.addPayee E vote find) })

/-- `GetStorageLimit`. The source multiplies in `float`, exactly so below `2^22` masternodes. -/
def getStorageLimit (size : Nat) : Int := max ((size * 5 / 4 : Nat) : Int) 5000

/-- Drops votes that are too far below the tip. -/
def CMasternodePayments.removeOld (nLimit : Int) (s : CMasternodePayments)
    (entry : UInt256 × CMasternodePaymentVote) : CMasternodePayments :=
  if s.nCachedBlockHeight - entry.2.nBlockHeight > nLimit then
    { s with
      mapMasternodePaymentVotes := s.mapMasternodePaymentVotes.erase entry.1
      mapMasternodeBlocks := s.mapMasternodeBlocks.erase entry.2.nBlockHeight }
  else s

/-- `CheckAndRemove`. -/
def CMasternodePayments.checkAndRemove (isBlockchainSynced : Bool)
    (size : Nat) : CMasternodePayments :=
  if !isBlockchainSynced then s
  else s.mapMasternodePaymentVotes.toList.foldl (removeOld (getStorageLimit size)) s

structure BestPayee where
  nVotes : Int
  payeeRet : CScript
  payeetmp : CMasternodePayee

/-- One payee of a tier against the best so far. -/
def bestPayeeStep (qsteestype : Int) (b : BestPayee) (payee : CMasternodePayee) : BestPayee :=
  let b : BestPayee :=
    if (payee.getVoteCount : Int) > b.nVotes ∧ payee.qsteestype = qsteestype then
      ⟨payee.getVoteCount, payee.scriptPubKey, payee⟩
    else b
  if (payee.getVoteCount : Int) = b.nVotes ∧ payee.qsteestype = qsteestype then
    if E.payeeHash payee.scriptPubKey payee.qsteestype >
        E.payeeHash b.payeetmp.scriptPubKey b.payeetmp.qsteestype then
      ⟨b.nVotes, payee.scriptPubKey, payee⟩
    else b
  else b

def CMasternodeBlockPayees.getBestPayee (qsteestype : Int) : Option CScript :=
  if bp.vecPayees.isEmpty then none
  else
    let b := bp.vecPayees.foldl (bestPayeeStep E qsteestype) ⟨-1, [], ⟨[], 0, []⟩⟩
    if b.nVotes > -1 then some b.payeeRet else none

def CMasternodePayments.getBlockPayee (nBlockHeight qsteestype : Int) : Option CScript :=
  match s.mapMasternodeBlocks[nBlockHeight]? with
  | some bp => bp.getBestPayee E qsteestype
  | none => none

def CMasternodePayments.networkDiagnostic (nBlockHeight qsteestype : Int) : Bool :=
  (s.getBlockPayee E nBlockHeight qsteestype).isSome

variable (nBlockHeight : Int)

def vSinType : List (Int × Bool) :=
  [1, 5, 10].map (fun t => (t, s.networkDiagnostic E nBlockHeight t))

def burnfundScript : CScript := keyIDScript (parseHex E.params.cBurnAddressPubKey)

/-- What one output adds to the count of payments. -/
def CMasternodeBlockPayees.countPayment (txout : CTxOut) : Nat :=
  if txout.scriptPubKey = burnfundScript E then 1
  else bp.vecPayees.countP (fun payee => decide (payee.scriptPubKey = txout.scriptPubKey ∧
    (getMasternodePayment E.params bp.nBlockHeight payee.qsteestype = txout.nValue ∨
      payee.getVoteCount ≥ MNPAYMENTS_SIGNATURES_REQUIRED - 1)))

def CMasternodeBlockPayees.nMaxSignatures : Nat :=
  bp.vecPayees.foldl (fun n payee => if payee.getVoteCount ≥ n then payee.getVoteCount else n) 0

/-- The verdict of `IsTransactionValid` on a coinbase, where no address throws. -/
def CMasternodeBlockPayees.isTransactionValid (vout : List CTxOut) : Bool :=
  if bp.nMaxSignatures < MNPAYMENTS_SIGNATURES_REQUIRED then true
  else (((vout.drop 2).take 3).map (bp.countPayment E)).sum == 3

def CMasternodePayments.isTransactionValid (vout : List CTxOut) (nBlockHeight : Int) : Bool :=
  match s.mapMasternodeBlocks[nBlockHeight]? with
  | some bp => bp.isTransactionValid E vout
  | none => true

/-- For its log, `IsTransactionValid` extracts the address of each output that it counts and, unless the output burns,
of every payee. -/
def CMasternodeBlockPayees.logThrows (vout : List CTxOut) : Bool :=
  decide (MNPAYMENTS_SIGNATURES_REQUIRED ≤ bp.nMaxSignatures) && ((vout.drop 2).take 3).any (fun txout =>
    extractionThrows txout.scriptPubKey || !decide (txout.scriptPubKey = burnfundScript E) &&
      bp.vecPayees.any (fun payee => extractionThrows payee.scriptPubKey))

/-- `IsTransactionValid` as its caller meets it: the verdict or the exception of an address. -/
def CMasternodePayments.checkTransactionValid (vout : List CTxOut) (nBlockHeight : Int) : Except String Bool :=
  if (s.mapMasternodeBlocks[nBlockHeight]?).any (fun bp => bp.logThrows E vout) then .error "ExtractDestination"
  else .ok (s.isTransactionValid E vout nBlockHeight)

/-- What `IsBlockPayeeValid` reads besides the votes: the state of the sync, the heights of the budget system and
two sporks. -/
structure PayeeRules where
  isSynced : Bool
  nSuperblockStartBlock : Int
  nBudgetPaymentsStartBlock : Int
  nBudgetPaymentsCycleBlocks : Int
  nBudgetPaymentsWindowBlocks : Int
  spork13OldSuperblock : Bool
  spork8PaymentEnforcement : Bool

/-- `IsBlockPayeeValid`. -/
def CMasternodePayments.isBlockPayeeValid (R : PayeeRules) (vout : List CTxOut)
    (nBlockHeight : Int) : Except String Bool :=
  if !R.isSynced then return true
  else do
    if ← s.checkTransactionValid E vout nBlockHeight then return true
    else if nBlockHeight < R.nSuperblockStartBlock ∧ R.nBudgetPaymentsStartBlock ≤ nBlockHeight ∧
        nBlockHeight.tmod R.nBudgetPaymentsCycleBlocks <
          R.nBudgetPaymentsWindowBlocks then return R.spork13OldSuperblock
    else return !R.spork8PaymentEnforcement

end Qstees
