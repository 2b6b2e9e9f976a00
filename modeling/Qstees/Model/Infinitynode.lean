import Qstees.Model.Rewards
import Qstees.Model.Standard

/-!
# Infinity nodes and what a block says about them

Building the node list reads blocks from the tip downwards. What an output means does not
depend on what has been read before, so a block is first turned into a list of events; the manager
then applies them in the order in which the source meets them.
-/

namespace Qstees

structure CService where
  ip : List UInt8 := List.replicate 16 0
  port : Nat := 0
deriving DecidableEq, Repr

/-- The members of `infinitynode_info_t` that are read somewhere; `vinBurnFund` is its prevout. -/
structure CInfinitynode where
  sigTime : Int := 0
  vinBurnFund : COutPoint := ⟨0, 0xffffffff⟩
  nHeight : Int := -1
  nExpireHeight : Int := -1
  nLastRewardHeight : Int := -1
  nBurnValue : Int := 0
  nQSTEESType : Int := 0
  collateralAddress : String := ""
  scriptPubKey : CScript := []
  backupAddress : String := "BackupAddress"
  nRank : Int := 0
  nMetadataHeight : Int := 0
  metadataNodeAddress : String := "NodeAddress"
  metadataService : CService := {}
deriving DecidableEq, Repr

def CInfinitynode.setHeight (inf : CInfinitynode) (nInHeight : Int) : CInfinitynode :=
  { inf with nHeight := nInHeight, nExpireHeight := nInHeight + 720 * 365 }

/-- Nodes under their burn outpoints. -/
structure NodeMap where
  nodes : StdMap COutPoint CInfinitynode
  keyed : ∀ (o : COutPoint) (inf : CInfinitynode), nodes[o]? = some inf → inf.vinBurnFund = o

namespace NodeMap

def empty : NodeMap where
  nodes := ∅
  keyed := by simp

/-- The entry stands under its burn outpoint. -/
def insert (m : NodeMap) (inf : CInfinitynode) : NodeMap where
  nodes := m.nodes.insert inf.vinBurnFund inf
  keyed := by
    intro o inf' h
    rw [Std.ExtTreeMap.getElem?_insert] at h
    split_ifs at h with heq
    · obtain rfl := Option.some.inj h
      exact Std.LawfulEqCmp.eq_of_compare heq
    · exact m.keyed o inf' h

def modify (m : NodeMap) (f : CInfinitynode → CInfinitynode) (hf : ∀ inf, (f inf).vinBurnFund = inf.vinBurnFund) :
    NodeMap where
  nodes := m.nodes.map (fun _ inf => f inf)
  keyed := by
    intro o inf' h
    rw [Std.ExtTreeMap.getElem?_map] at h
    obtain ⟨inf, hinf, rfl⟩ := Option.map_eq_some_iff.mp h
    rw [hf]
    exact m.keyed o inf hinf

end NodeMap

structure CVote where
  proposalId : String
  voter : CScript
  nHeight : Int
  opinion : Bool
deriving DecidableEq, Repr

abbrev CInfinitynodersv := StdMap String (List CVote)

/-- A newer vote replaces that of its voter. -/
def addToProposal (votes : List CVote) (vote : CVote) : List CVote :=
  match votes.findIdx? (fun v => v.voter == vote.voter) with
  | none => votes ++ [vote]
  | some i =>
    if (votes[i]?).any (fun v => v.nHeight ≥ vote.nHeight) then votes else votes.eraseIdx i ++ [vote]

def CInfinitynodersv.add (rsv : CInfinitynodersv) (vote : CVote) : CInfinitynodersv :=
  rsv.insert vote.proposalId (addToProposal ((rsv[vote.proposalId]?).getD []) vote)

structure KeyIO where
  encodeDestination : CTxDestination → String
  decodeDestination : String → CTxDestination
  encode_none : encodeDestination .noDestination = ""
  decode_empty : decodeDestination "" = .noDestination
  /-- The default of `metadataNodeAddress` has no valid checksum. -/
  decode_default : decodeDestination "NodeAddress" = .noDestination

structure InfinityEnv where
  params : Params
  hashes : Hashes
  keyIO : KeyIO
  lookup : String → Option CService

structure Chain where
  height : Int
  readBlock : Int → Option CBlock
  getTransaction : UInt256 → Option CTransaction

/-- What an output of a block at some height makes the scan do. `abort` is a `return false`
in the middle of the scan, or an exception. -/
inductive Event where
  | register (inf : CInfinitynode)
  | burnVote (vote : CVote)
  | governanceVote (vote : CVote)
  | metadata (nodeowner nodeAddress : String) (service : CService) (nHeight : Int)
  | paid (scriptPubKey : CScript) (nHeight : Int)
  | abort
deriving DecidableEq, Repr

/-- `std::getline` with a separator, until it fails. -/
def getlines (sep : UInt8) : List UInt8 → List (List UInt8)
  | [] => []
  | b :: bs =>
    if b = sep then [] :: getlines sep bs
    else match getlines sep bs with
      | [] => [[b]]
      | line :: lines => (b :: line) :: lines

example : getlines 0x20 [0x61, 0x20, 0x20, 0x62, 0x20] = [[0x61], [], [0x62]] := rfl

def cStr (s : List UInt8) : String := stdString (s.takeWhile (· ≠ 0))

def isValidDestination (dest : CTxDestination) : Bool := dest ≠ .noDestination

section Events

variable (E : InfinityEnv) (C : Chain)

/-- The script and address that funded the first input of a transaction. The source returns false
where there is none. -/
def funding (tx : CTransaction) : Option (CScript × CTxDestination) := do
  let txin ← tx.vin.head?
  let prevtx ← C.getTransaction txin.prevout.hash
  let out ← prevtx.vout[txin.prevout.n]?
  match extractDestination E.hashes out.scriptPubKey with
  | .ok (some addressBurnFund) => some (out.scriptPubKey, addressBurnFund)
  | _ => none

def isBurnOf (nBurn nValue : Int) : Bool := decide ((nBurn - 1) * COIN < nValue ∧ nValue ≤ nBurn * COIN)

/-- A burn of one of the three tiers. -/
def isNodeBurn (nValue : Int) : Bool :=
  isBurnOf E.params.nMasternodeBurnQSTEESNODE_1 nValue || isBurnOf E.params.nMasternodeBurnQSTEESNODE_5 nValue ||
    isBurnOf E.params.nMasternodeBurnQSTEESNODE_10 nValue

/-- The backup address of a burn's data. -/
def backupAddress (data : List (List UInt8)) : String :=
  match data with
  | [address] =>
    if isValidDestination (E.keyIO.decodeDestination (stdString address)) then stdString address else "BackupAddress"
  | _ => "BackupAddress"

variable (nHeight : Int)

/-- The node that a burn registers, or the abort of the scan. -/
def registerEvent (tx : CTransaction) (i : Nat) (out : CTxOut) (data : List (List UInt8)) : Event :=
  match funding E C tx with
  | none => .abort
  | some (_, addressBurnFund) =>
    .register (CInfinitynode.setHeight
      { vinBurnFund := ⟨tx.hash, i⟩
        nBurnValue := out.nValue
        scriptPubKey := out.scriptPubKey
        backupAddress := backupAddress E data
        nQSTEESType := ((out.nValue.tdiv COIN) + 1).tdiv 100000
        collateralAddress := E.keyIO.encodeDestination addressBurnFund } nHeight)

/-- The vote in a burn, if it has one. -/
def voteEvents (event : CVote → Event) (nHeight : Int) (tx : CTransaction) (out : CTxOut) (data : List (List UInt8)) :
    List Event :=
  match data with
  | [voteOpinion] =>
    if out.nValue = E.params.nInfinityNodeVoteValue * COIN ∧ voteOpinion.length = 9 then
      match funding E C tx with
      | none => [.abort]
      | some (voter, _) => [event ⟨stdString (voteOpinion.take 8), voter, nHeight, voteOpinion.drop 8 == [0x31]⟩]
    else []
  | _ => []

/-- The loop over the words of a metadata payload. `NodeAddress` and `service` are declared in its
body, so the word after a valid address starts from the default address again. -/
def metadataWords (nHeight : Int) (tx : CTransaction) : Nat → Nat → List (List UInt8) → List Event
  | _, _, [] => []
  | i, check, s :: words =>
    let nodeAddress := if i = 0 then E.keyIO.decodeDestination (stdString s) else .noDestination
    let check := if i = 0 ∧ isValidDestination nodeAddress then check + 1 else check
    let found := if i = 1 then E.lookup (cStr s) else none
    let check := if found.isSome then check + 1 else check
    let update :=
      if check = 2 then
        match funding E C tx with
        | none => [.abort]
        | some (_, addressBurnFund) =>
          [.metadata (E.keyIO.encodeDestination addressBurnFund) (E.keyIO.encodeDestination nodeAddress)
            (found.getD {}) nHeight]
      else []
    update ++ metadataWords nHeight tx (i + 1) check words

/-- The metadata in a burn, if it has any. -/
def metadataEvents (tx : CTransaction) (out : CTxOut) (data : List (List UInt8)) : List Event :=
  match data with
  | [metadata] =>
    if isBurnOf E.params.nMasternodeBurnQSTEESNODE_1 out.nValue then
      metadataWords E C nHeight tx 0 0 (getlines 0x20 metadata)
    else []
  | _ => []

def outputEvents (tx : CTransaction) (i : Nat) (out : CTxOut) : List Event :=
  match solver out.scriptPubKey with
  | .error _ => [.abort]
  | .ok ⟨_, .burnData, id :: data⟩ =>
    let address := E.keyIO.encodeDestination (.keyID id)
    (if E.params.cBurnAddress = address then
      (if isNodeBurn E out.nValue then [registerEvent E C nHeight tx i out data] else []) ++
        voteEvents E C .burnVote nHeight tx out data
    else []) ++
    (if E.params.cGovernanceAddress = address then voteEvents E C .governanceVote nHeight tx out data else []) ++
    (if E.params.cMetadataAddress = address then metadataEvents E C nHeight tx out data else [])
  | .ok _ => []

/-- The rewards that a coinbase pays. -/
def paidEvents (vout : List CTxOut) : List Event :=
  (vout.filter (fun txout => txout.nValue == getMasternodePayment E.params nHeight 1 ||
    txout.nValue == getMasternodePayment E.params nHeight 5 ||
    txout.nValue == getMasternodePayment E.params nHeight 10)).map (fun txout => .paid txout.scriptPubKey nHeight)

def txEvents (block : CBlock) (tx : CTransaction) : List Event :=
  if tx.isCoinBase then paidEvents E nHeight ((block.vtx.head?.map CTransaction.vout).getD [])
  else tx.vout.zipIdx.flatMap (fun (out, i) => outputEvents E C nHeight tx i out)

/-- What a scan reads from one block. -/
def blockEvents : List Event :=
  match C.readBlock nHeight with
  | none => [.abort]
  | some block => block.vtx.flatMap (txEvents E C nHeight block)

/-- The events of a scan from a block down to a lower height. A scan that does not stop above the
first block runs off the chain. -/
def scanEvents (nBlockHeight nLowHeight : Int) : List Event :=
  (List.range (nBlockHeight - max nLowHeight 0 + 1).toNat).flatMap
    (fun (k : Nat) => blockEvents E C (nBlockHeight - k)) ++
  if nLowHeight ≤ 0 then [.abort] else []

end Events

end Qstees
