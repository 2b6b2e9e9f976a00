import Qstees.Library.ParentTree
import Qstees.Model.Primitives

/-!
# The block tree and the active chain

Block indices are named by their hashes. What `ConnectBlock` says about a block depends on votes and
sporks, so an operation is given the verdict of each of its calls. Reading and writing the disk does
not fail and nothing is pruned.
-/

namespace Qstees

def BLOCK_VALID_TREE : Nat := 2
def BLOCK_VALID_TRANSACTIONS : Nat := 3
def BLOCK_VALID_SCRIPTS : Nat := 5

def MIN_BLOCKS_TO_KEEP : Nat := 288

structure BlockStatus where
  validity : Nat := 0
  haveData : Bool := false
  failedValid : Bool := false
  failedChild : Bool := false
deriving DecidableEq, Repr

structure HeaderIndex where
  pprev : Option UInt256 := none
  nHeight : Nat := 0
  nChainWork : Nat := 0
deriving DecidableEq, Repr

structure CBlockIndex extends HeaderIndex where
  nTx : Nat := 0
  nChainTx : Nat := 0
  nStatus : BlockStatus := {}
  nSequenceId : Nat := 0
deriving DecidableEq, Repr

namespace CBlockIndex

variable (pindex : CBlockIndex)

def failed : Bool := pindex.nStatus.failedValid || pindex.nStatus.failedChild

def isValid (nUpTo : Nat) : Bool := !pindex.failed && decide (nUpTo ≤ pindex.nStatus.validity)

def raiseValidity (nUpTo : Nat) : CBlockIndex :=
  if pindex.failed then pindex
  else { pindex with nStatus := { pindex.nStatus with validity := max pindex.nStatus.validity nUpTo } }

def setFailedValid : CBlockIndex :=
  { pindex with nStatus := { pindex.nStatus with failedValid := true } }

def setFailedChild : CBlockIndex :=
  { pindex with nStatus := { pindex.nStatus with failedChild := true } }

def clearFailed : CBlockIndex :=
  { pindex with nStatus := { pindex.nStatus with failedValid := false, failedChild := false } }

end CBlockIndex

/-- What the chain state takes from the parameters and the command line. `address` is where the index
of a block is in memory, the last tie-breaker of the comparator. -/
structure ChainEnv where
  hashGenesisBlock : UInt256
  nGenesisProof : Nat
  nMaxReorgDepth : Int
  nMinReorgPeers : Int
  nMinimumChainWork : Nat
  address : UInt256 → Nat
  address_inj : Function.Injective address

/-- The block index, the active chain and the candidates. -/
structure ChainState where
  mapBlockIndex : List UInt256
  index : UInt256 → CBlockIndex
  chainActive : List UInt256
  setBlockIndexCandidates : List UInt256
  m_failed_blocks : List UInt256
  /-- A block without linked ancestors under its parent. -/
  mapBlocksUnlinked : List (UInt256 × UInt256)
  nBlockSequenceId : Nat

namespace ChainState

variable (s : ChainState)

def tip : UInt256 := s.chainActive.headD 0

def height : Int := s.chainActive.length - 1

variable (x : UInt256)

def setIndex (f : CBlockIndex → CBlockIndex) : ChainState :=
  { s with index := fun y => if y = x then f (s.index y) else s.index y }

def setIndices (xs : List UInt256) (f : CBlockIndex → CBlockIndex) : ChainState :=
  { s with index := fun y => if y ∈ xs then f (s.index y) else s.index y }

def eraseCandidates (xs : List UInt256) : ChainState :=
  { s with setBlockIndexCandidates := s.setBlockIndexCandidates.filter (· ∉ xs) }

def insertCandidates (xs : List UInt256) : ChainState :=
  { s with setBlockIndexCandidates := xs ++ s.setBlockIndexCandidates }

def ancestors : List UInt256 :=
  ParentTree.walk (fun y => (s.index y).pprev) ((s.index x).nHeight + 1) x

def getAncestor (height : Nat) : Option UInt256 :=
  (s.ancestors x).find? (fun y => (s.index y).nHeight == height)

def offChain : List UInt256 := (s.ancestors x).takeWhile (· ∉ s.chainActive)

def findFork : Option UInt256 := (s.ancestors x).find? (· ∈ s.chainActive)

end ChainState

section

variable (E : ChainEnv) (s : ChainState)

/-- `CBlockIndexWorkComparator`: is `pa` the worse tip? -/
def workComparator (pa pb : UInt256) : Bool :=
  if (s.index pa).nChainWork > (s.index pb).nChainWork then false
  else if (s.index pa).nChainWork < (s.index pb).nChainWork then true
  else if (s.index pa).nSequenceId < (s.index pb).nSequenceId then false
  else if (s.index pa).nSequenceId > (s.index pb).nSequenceId then true
  else if E.address pa < E.address pb then false
  else decide (E.address pa > E.address pb)

structure CBlockHeader where
  hash : UInt256
  hashPrevBlock : UInt256
  proof : Nat
deriving DecidableEq, Repr

/-- What the header checks take from elsewhere: the connections, whether the node is in initial block
download, and the rules that have nothing to do with the tree. -/
structure HeaderMoment where
  nodeCount : Int
  initialBlockDownload : Bool
  rules : Bool
deriving DecidableEq, Repr

/-- `CheckProofOfWork` refuses the targets without proof. -/
def checkBlockHeader (block : CBlockHeader) (moment : HeaderMoment) : Bool := moment.rules && decide (0 < block.proof)

def fGreaterThanMaxReorg (pindexPrev : UInt256) : Bool :=
  decide (s.height - (s.index pindexPrev).nHeight ≥ E.nMaxReorgDepth)

def contextualCheckBlockHeader (pindexPrev : UInt256) (moment : HeaderMoment) : Bool :=
  !(fGreaterThanMaxReorg E s pindexPrev && decide (moment.nodeCount > E.nMinReorgPeers) && !moment.initialBlockDownload)

/-- `AddToBlockIndex`. -/
def addToBlockIndex (block : CBlockHeader) : ChainState :=
  if block.hash ∈ s.mapBlockIndex then s
  else
    let pprev := if block.hashPrevBlock ∈ s.mapBlockIndex then some block.hashPrevBlock else none
    let pindexNew : CBlockIndex :=
      { pprev := pprev
        nHeight := pprev.elim 0 (fun p => (s.index p).nHeight + 1)
        nChainWork := pprev.elim 0 (fun p => (s.index p).nChainWork) + block.proof }
    { s with
      mapBlockIndex := block.hash :: s.mapBlockIndex
      index := fun y => if y = block.hash then pindexNew.raiseValidity BLOCK_VALID_TREE else s.index y }

def failedAncestor (x : UInt256) : Option UInt256 :=
  s.m_failed_blocks.find? (fun failedit => s.getAncestor x (s.index failedit).nHeight == some failedit)

/-- `AcceptBlockHeader`: the verdict and the index after it. -/
def acceptBlockHeader (block : CBlockHeader) (moment : HeaderMoment) : Bool × ChainState :=
  if block.hash = E.hashGenesisBlock then (true, addToBlockIndex s block)
  else if block.hash ∈ s.mapBlockIndex then (!(s.index block.hash).failed, s)
  else if !checkBlockHeader block moment then (false, s)
  else if block.hashPrevBlock ∉ s.mapBlockIndex then (false, s)
  else if (s.index block.hashPrevBlock).failed then (false, s)
  else if !contextualCheckBlockHeader E s block.hashPrevBlock moment then (false, s)
  else if !(s.index block.hashPrevBlock).isValid BLOCK_VALID_SCRIPTS then
    match failedAncestor s block.hashPrevBlock with
    | some failedit =>
      (false, s.setIndices ((s.ancestors block.hashPrevBlock).takeWhile (· ≠ failedit)) CBlockIndex.setFailedChild)
    | none => (true, addToBlockIndex s block)
  else (true, addToBlockIndex s block)

inductive BlockCheck where
  | ok | invalid | corruptionPossible
deriving DecidableEq, Repr

structure BlockData extends CBlockHeader where
  nTx : Nat
  check : BlockCheck
deriving DecidableEq, Repr

def blockCheck (block : BlockData) : BlockCheck := if block.nTx = 0 then .invalid else block.check

def unlinkedChildren (pindex : UInt256) : List UInt256 :=
  (s.mapBlocksUnlinked.filter (fun e => e.1 == pindex)).map Prod.snd

/-- A block all of whose ancestors have their transactions. -/
def linkBlock (pindex : UInt256) : ChainState :=
  let nChainTx := (s.index pindex).pprev.elim 0 (fun p => (s.index p).nChainTx) + (s.index pindex).nTx
  let linked := s.setIndex pindex (fun i => { i with nChainTx := nChainTx, nSequenceId := s.nBlockSequenceId })
  { linked with
    setBlockIndexCandidates :=
      if workComparator E linked pindex linked.tip then s.setBlockIndexCandidates
        else pindex :: s.setBlockIndexCandidates
    nBlockSequenceId := s.nBlockSequenceId + 1
    mapBlocksUnlinked := s.mapBlocksUnlinked.filter (fun e => e.1 != pindex) }

/-- The queue of `ReceivedBlockTransactions`. -/
def linkQueue : Nat → List UInt256 → ChainState → ChainState
  | 0, _, s => s
  | _, [], s => s
  | fuel + 1, pindex :: queue, s => linkQueue fuel (queue ++ unlinkedChildren s pindex) (linkBlock E s pindex)

def storeBlock (pindexNew : UInt256) (nTx : Nat) : ChainState :=
  s.setIndex pindexNew (fun i =>
    ({ i with nTx := nTx, nChainTx := 0, nStatus := { i.nStatus with haveData := true } } : CBlockIndex).raiseValidity
      BLOCK_VALID_TRANSACTIONS)

/-- `ReceivedBlockTransactions`. -/
def receivedBlockTransactions (pindexNew : UInt256) (nTx : Nat) : ChainState :=
  let stored := storeBlock s pindexNew nTx
  match (stored.index pindexNew).pprev with
  | none => linkQueue E (s.mapBlocksUnlinked.length + 1) [pindexNew] stored
  | some p =>
    if (stored.index p).nChainTx ≠ 0 then linkQueue E (s.mapBlocksUnlinked.length + 1) [pindexNew] stored
    else if (stored.index p).isValid BLOCK_VALID_TREE then
      { stored with mapBlocksUnlinked := (p, pindexNew) :: s.mapBlocksUnlinked }
    else stored

/-- The early returns of `AcceptBlock` for a block nobody asked for. -/
def skipUnrequested (x : UInt256) : Bool :=
  (s.index x).nTx != 0 || decide ((s.index x).nChainWork < (s.index s.tip).nChainWork) ||
    decide (((s.index x).nHeight : Int) > s.height + MIN_BLOCKS_TO_KEEP) ||
    decide ((s.index x).nChainWork < E.nMinimumChainWork)

/-- `AcceptBlock`. -/
def acceptBlock (block : BlockData) (moment : HeaderMoment) (fRequested : Bool) : ChainState :=
  match acceptBlockHeader E s block.toCBlockHeader moment with
  | (false, s) => s
  | (true, s) =>
    if (s.index block.hash).nStatus.haveData then s
    else if !fRequested && skipUnrequested E s block.hash then s
    else match blockCheck block with
      | .ok => receivedBlockTransactions E s block.hash block.nTx
      | .invalid => s.setIndex block.hash CBlockIndex.setFailedValid
      | .corruptionPossible => s

/-- The last of `setBlockIndexCandidates`. -/
def bestCandidate : Option UInt256 :=
  s.setBlockIndexCandidates.foldl
    (fun best x => match best with
      | none => some x
      | some b => if workComparator E s b x then some x else some b) none

def firstUnusable (x : UInt256) : Option UInt256 :=
  (s.offChain x).find? (fun y => (s.index y).failed || !(s.index y).nStatus.haveData)

/-- Takes a chain with a failed or missing block off the candidates. -/
def dropChain (pindexNew pindexTest : UInt256) : ChainState :=
  let above := (s.offChain pindexNew).takeWhile (· ≠ pindexTest)
  let marked :=
    if (s.index pindexTest).failed then s.setIndices above CBlockIndex.setFailedChild
    else { s with
      mapBlocksUnlinked := above.filterMap (fun y => (s.index y).pprev.map (fun p => (p, y))) ++ s.mapBlocksUnlinked }
  marked.eraseCandidates (pindexTest :: above)

/-- `FindMostWorkChain`. -/
def findMostWorkChainLoop : Nat → ChainState → Option UInt256 × ChainState
  | 0, s => (none, s)
  | fuel + 1, s =>
    match bestCandidate E s with
    | none => (none, s)
    | some pindexNew =>
      match firstUnusable s pindexNew with
      | none => (some pindexNew, s)
      | some pindexTest => findMostWorkChainLoop fuel (dropChain s pindexNew pindexTest)

def findMostWorkChain : Option UInt256 × ChainState :=
  findMostWorkChainLoop E (s.setBlockIndexCandidates.length + 1) s

def pruneBlockIndexCandidates : ChainState :=
  { s with setBlockIndexCandidates := s.setBlockIndexCandidates.filter (fun x => !workComparator E s x s.tip) }

/-- `InvalidBlockFound`. -/
def invalidBlockFound (pindex : UInt256) : ChainState :=
  let marked := s.setIndex pindex CBlockIndex.setFailedValid
  { marked with m_failed_blocks := pindex :: s.m_failed_blocks }.eraseCandidates [pindex]

def connectTip (pindexNew : UInt256) : ChainState :=
  let raised := s.setIndex pindexNew (CBlockIndex.raiseValidity · BLOCK_VALID_SCRIPTS)
  { raised with chainActive := pindexNew :: s.chainActive }

/-- The state after a series of `ConnectTip`, whether it found an invalid block, and the number of
calls of `ConnectBlock` so far. -/
structure StepResult where
  state : ChainState
  fInvalidFound : Bool
  calls : Nat

abbrev Verdict := Nat → UInt256 → Bool

variable (connectBlock : Verdict)

/-- The loop over the blocks to connect, which are cut into pieces of 32 without any effect. It ends
once the tip is better than the old one. -/
def connectBlocks (oldWork : Nat) : List UInt256 → Nat → ChainState → StepResult
  | [], calls, s => ⟨s, false, calls⟩
  | pindexConnect :: rest, calls, s =>
    if connectBlock calls pindexConnect then
      let connected := pruneBlockIndexCandidates E (connectTip s pindexConnect)
      if (connected.index pindexConnect).nChainWork > oldWork then ⟨connected, false, calls + 1⟩
      else connectBlocks oldWork rest (calls + 1) connected
    else ⟨invalidBlockFound s pindexConnect, true, calls + 1⟩

variable (s : ChainState)

def blocksToDisconnect (pindexMostWork : UInt256) : List UInt256 :=
  s.chainActive.takeWhile (fun x => s.findFork pindexMostWork ≠ some x)

def blocksToConnect (pindexMostWork : UInt256) : List UInt256 := (s.offChain pindexMostWork).reverse

def disconnectBlocks (blocks : Nat) : ChainState :=
  { s with chainActive := s.chainActive.drop (min blocks (s.chainActive.length - 1)) }

/-- `ActivateBestChainStep`. -/
def activateBestChainStep (calls : Nat) (s : ChainState) (pindexMostWork : UInt256) : StepResult :=
  connectBlocks E connectBlock (s.index s.tip).nChainWork (blocksToConnect s pindexMostWork) calls
    (disconnectBlocks s (blocksToDisconnect s pindexMostWork).length)

structure Activation where
  state : ChainState
  pindexMostWork : Option UInt256
  calls : Nat
  finished : Bool

def Activation.target (a : Activation) : Option UInt256 × ChainState :=
  match a.pindexMostWork with
  | some m => (some m, a.state)
  | none => findMostWorkChain E a.state

def Activation.round (a : Activation) : Activation :=
  match a.target E with
  | (none, s) => ⟨s, none, a.calls, true⟩
  | (some m, s) =>
    if m = s.tip then ⟨s, none, a.calls, true⟩
    else
      let r := activateBestChainStep E connectBlock a.calls s m
      if r.fInvalidFound then ⟨r.state, none, r.calls, false⟩
      else if r.state.tip = m then ⟨r.state, none, r.calls, true⟩
      else ⟨r.state, some m, r.calls, false⟩

/-- The loop of `ActivateBestChain`; none where it does not end. -/
def activateLoop : Nat → Activation → Option ChainState
  | 0, _ => none
  | fuel + 1, a =>
    let next := a.round E connectBlock
    if next.finished then some next.state else activateLoop fuel next

/-- No more blocks can fail than are known, and no more rounds go to one target than there are
heights. -/
def activationFuel : Nat :=
  (s.mapBlockIndex.length + 1) * ((s.mapBlockIndex.map (fun x => (s.index x).nHeight)).foldr max 0 + 3)

def activateBestChain : Option ChainState :=
  activateLoop E connectBlock (activationFuel s) ⟨s, none, 0, false⟩

def validCandidates : List UInt256 :=
  s.mapBlockIndex.filter (fun x =>
    (s.index x).isValid BLOCK_VALID_TRANSACTIONS && (s.index x).nChainTx != 0 && !workComparator E s x s.tip)

/-- `InvalidateBlock`; it fails at the genesis block once the rest of the chain is disconnected. -/
def invalidateBlock (pindex : UInt256) : ChainState :=
  let walked := if pindex ∈ s.chainActive then s.chainActive.takeWhile (· ≠ pindex) else []
  let blocks := if pindex ∈ s.chainActive then walked.length + 1 else 0
  if pindex ∈ s.chainActive ∧ blocks ≥ s.chainActive.length then disconnectBlocks s blocks
  else
    let marked := (((disconnectBlocks s blocks).setIndices walked CBlockIndex.setFailedChild).setIndex pindex
      CBlockIndex.setFailedValid).eraseCandidates (pindex :: walked)
    let failed := { marked with m_failed_blocks := pindex :: s.m_failed_blocks }
    failed.insertCandidates (validCandidates E failed)

def invalidDescendants (pindex : UInt256) : List UInt256 :=
  s.mapBlockIndex.filter (fun x => !(s.index x).isValid BLOCK_VALID_TRANSACTIONS &&
    s.getAncestor x (s.index pindex).nHeight == some pindex)

def clearIndices (xs : List UInt256) : ChainState :=
  { s.setIndices xs CBlockIndex.clearFailed with m_failed_blocks := s.m_failed_blocks.filter (· ∉ xs) }

/-- `ResetBlockFailureFlags`. -/
def resetBlockFailureFlags (pindex : UInt256) : ChainState :=
  let descendants := invalidDescendants s pindex
  let cleared := clearIndices s descendants
  let offered := cleared.insertCandidates (descendants.filter (fun x =>
    (cleared.index x).isValid BLOCK_VALID_TRANSACTIONS && (cleared.index x).nChainTx != 0 &&
      workComparator E s s.tip x))
  clearIndices offered ((s.ancestors pindex).filter (fun x => (offered.index x).failed))

/-- `ReprocessBlocks` up to its call of `ActivateBestChain`. `rejected` are the blocks that
`mapRejectedBlocks` holds for the last `nBlocks` times five minutes. -/
def reprocessBlocks (rejected : List UInt256) (nBlocks : Nat) : ChainState :=
  disconnectBlocks ((rejected.filter (· ∈ s.mapBlockIndex)).foldl (resetBlockFailureFlags E) s) nBlocks

end

inductive ChainCommand where
  | header (block : CBlockHeader) (moment : HeaderMoment)
  | block (block : BlockData) (moment : HeaderMoment) (fRequested : Bool)
  | invalidateBlock (pindex : UInt256)
  | resetBlockFailureFlags (pindex : UInt256)
  | reprocessBlocks (rejected : List UInt256) (nBlocks : Nat)

def ChainCommand.apply (E : ChainEnv) (s : ChainState) : ChainCommand → ChainState
  | .header data moment => (acceptBlockHeader E s data moment).2
  | .block data moment fRequested => acceptBlock E s data moment fRequested
  | .invalidateBlock pindex => if pindex ∈ s.mapBlockIndex then Qstees.invalidateBlock E s pindex else s
  | .resetBlockFailureFlags pindex => if pindex ∈ s.mapBlockIndex then Qstees.resetBlockFailureFlags E s pindex else s
  | .reprocessBlocks rejected nBlocks => Qstees.reprocessBlocks E s rejected nBlocks

structure ChainOperation where
  command : ChainCommand
  connectBlock : Verdict

def ChainOperation.activate (E : ChainEnv) (s : ChainState) (o : ChainOperation) : Option ChainState :=
  activateBestChain E o.connectBlock (o.command.apply E s)

def ChainState.operate (E : ChainEnv) (s : ChainState) (o : ChainOperation) : ChainState := (o.activate E s).getD s

/-- The chain state and the target that a running `ActivateBestChain` remembers between its steps. -/
structure ChainNode where
  chain : ChainState
  pindexMostWork : Option UInt256

/-- What happens at a node, without commands. `activate` is one round of `ActivateBestChain`. -/
inductive ChainAction where
  | header (block : CBlockHeader) (moment : HeaderMoment)
  | block (block : BlockData) (moment : HeaderMoment) (fRequested : Bool)
  | activate (connectBlock : Verdict)

namespace ChainNode

variable (E : ChainEnv)

def activation (n : ChainNode) : Activation := ⟨n.chain, n.pindexMostWork, 0, false⟩

def step (n : ChainNode) : ChainAction → ChainNode
  | .header block moment => { n with chain := (acceptBlockHeader E n.chain block moment).2 }
  | .block block moment fRequested => { n with chain := acceptBlock E n.chain block moment fRequested }
  | .activate connectBlock =>
    let next := n.activation.round E connectBlock
    ⟨next.state, next.pindexMostWork⟩

/-- The blocks that the next `ActivateBestChainStep` disconnects, and those it is to connect. -/
def nextStep (n : ChainNode) : List UInt256 × List UInt256 :=
  match n.activation.target E with
  | (none, _) => ([], [])
  | (some m, s) => if m = s.tip then ([], []) else (blocksToDisconnect s m, blocksToConnect s m)

end ChainNode

/-- The chain after `LoadGenesisBlock`. -/
def genesisState (E : ChainEnv) : ChainState where
  mapBlockIndex := [E.hashGenesisBlock]
  index := fun x => if x = E.hashGenesisBlock then
      { nChainWork := E.nGenesisProof
        nTx := 1
        nChainTx := 1
        nStatus := { validity := BLOCK_VALID_TRANSACTIONS, haveData := true }
        nSequenceId := 1 }
    else {}
  chainActive := [E.hashGenesisBlock]
  setBlockIndexCandidates := [E.hashGenesisBlock]
  m_failed_blocks := []
  mapBlocksUnlinked := []
  nBlockSequenceId := 2

def genesisNode (E : ChainEnv) : ChainNode := ⟨genesisState E, none⟩

end Qstees
