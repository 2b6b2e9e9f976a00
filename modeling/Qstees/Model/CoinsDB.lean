import Qstees.Model.ChainState
import Qstees.Model.Validation

/-!
# The coins database and its recovery

`CCoinsViewDB` writes a cache in batches. Each batch is atomic, so a crash leaves the database after
some number of them. `ReplayBlocks` brings such a database to the tip that was being written. Coins
and block files read back as they were written, and reading them does not fail.
-/

namespace Qstees

/-- The coins database, with its best block or its two heads. -/
structure CoinsDB where
  coins : StdMap COutPoint Coin := ∅
  bestBlock : Option UInt256 := none
  headBlocks : Option (List UInt256) := none
deriving DecidableEq

inductive DbOp where
  | eraseCoin (outpoint : COutPoint)
  | writeCoin (outpoint : COutPoint) (coin : Coin)
  | eraseBestBlock
  | writeBestBlock (hashBlock : UInt256)
  | eraseHeadBlocks
  | writeHeadBlocks (hashHeads : List UInt256)
deriving DecidableEq, Repr

abbrev CDBBatch := List DbOp

namespace CoinsDB

def apply (db : CoinsDB) : DbOp → CoinsDB
  | .eraseCoin outpoint => { db with coins := db.coins.erase outpoint }
  | .writeCoin outpoint coin => { db with coins := db.coins.insert outpoint coin }
  | .eraseBestBlock => { db with bestBlock := none }
  | .writeBestBlock hashBlock => { db with bestBlock := some hashBlock }
  | .eraseHeadBlocks => { db with headBlocks := none }
  | .writeHeadBlocks hashHeads => { db with headBlocks := some hashHeads }

def writeBatch (db : CoinsDB) (batch : CDBBatch) : CoinsDB := batch.foldl apply db

def writeBatches (db : CoinsDB) (batches : List CDBBatch) : CoinsDB := batches.foldl writeBatch db

def getBestBlock (db : CoinsDB) : UInt256 := db.bestBlock.getD 0

def getHeadBlocks (db : CoinsDB) : List UInt256 := db.headBlocks.getD []

end CoinsDB

def entryOps (outpoint : COutPoint) (entry : CCoinsCacheEntry) : CDBBatch :=
  if entry.dirty then [if entry.coin.isSpent then .eraseCoin outpoint else .writeCoin outpoint entry.coin] else []

/-- How a cache is written: the iteration order of the hash map, and whether
`batch.SizeEstimate() > batch_size`. -/
structure FlushPolicy where
  order : StdMap COutPoint CCoinsCacheEntry → List (COutPoint × CCoinsCacheEntry)
  order_perm : ∀ mapCoins, (order mapCoins).Perm mapCoins.toList
  full : CDBBatch → Bool

/-- The loop of `BatchWrite`, cut where a batch is full. -/
def batchLoop (full : CDBBatch → Bool) : List (COutPoint × CCoinsCacheEntry) → CDBBatch → List CDBBatch × CDBBatch
  | [], batch => ([], batch)
  | (outpoint, entry) :: mapCoins, batch =>
    let batch := batch ++ entryOps outpoint entry
    if full batch then
      let (written, last) := batchLoop full mapCoins []
      (batch :: written, last)
    else batchLoop full mapCoins batch

/-- The tip `BatchWrite` starts from, which is in the head blocks in the middle of a replay. -/
def CoinsDB.oldTip (db : CoinsDB) (hashBlock : UInt256) : Except String UInt256 :=
  if db.getBestBlock = 0 then
    match db.getHeadBlocks with
    | [newHead, oldHead] =>
      if newHead = hashBlock then .ok oldHead else .error "Assertion failed: old_heads[0] == hashBlock"
    | _ => .ok 0
  else .ok db.getBestBlock

/-- `CCoinsViewDB::BatchWrite`: the batches in order. -/
def CoinsDB.batchWrite (db : CoinsDB) (policy : FlushPolicy) (mapCoins : StdMap COutPoint CCoinsCacheEntry)
    (hashBlock : UInt256) : Except String (List CDBBatch) :=
  if hashBlock = 0 then .error "Assertion failed: !hashBlock.IsNull()"
  else do
    let old_tip ← db.oldTip hashBlock
    let (written, last) := batchLoop policy.full (policy.order mapCoins)
      [.eraseBestBlock, .writeHeadBlocks [hashBlock, old_tip]]
    return written ++ [last ++ [.eraseHeadBlocks, .writeBestBlock hashBlock]]

structure StoredBlock extends HeaderIndex where
  block : CBlock
  vtxundo : List (List Coin)

structure BlockStore where
  mapBlockIndex : StdMap UInt256 StoredBlock
  genesis : UInt256
  null_unknown : mapBlockIndex[(0 : UInt256)]? = none
  genesis_known : ∃ pindex, mapBlockIndex[genesis]? = some pindex ∧ pindex.pprev = none
  root : ∀ (h : UInt256) (pindex : StoredBlock), mapBlockIndex[h]? = some pindex → pindex.pprev = none →
    h = genesis ∧ pindex.nHeight = 0
  parent : ∀ (h p : UInt256) (pindex : StoredBlock), mapBlockIndex[h]? = some pindex → pindex.pprev = some p →
    ∃ prev, mapBlockIndex[p]? = some prev ∧ pindex.nHeight = prev.nHeight + 1
  height_lt : ∀ (h : UInt256) (pindex : StoredBlock), mapBlockIndex[h]? = some pindex → pindex.nHeight < 2 ^ 31

namespace BlockStore

variable (store : BlockStore)

def pprev (h : UInt256) : Option UInt256 := (store.mapBlockIndex[h]?).bind (fun pindex => pindex.pprev)

def nHeight (h : UInt256) : Nat := (store.mapBlockIndex[h]?).elim 0 (fun pindex => pindex.nHeight)

def ancestors (h : UInt256) : List UInt256 := ParentTree.walk store.pprev (store.nHeight h + 1) h

def getAncestor (h : UInt256) (height : Nat) : Option UInt256 :=
  (store.ancestors h).find? (fun x => store.nHeight x == height)

def lastCommonLoop : Nat → Option UInt256 → Option UInt256 → Option UInt256 × Option UInt256
  | 0, pa, pb => (pa, pb)
  | fuel + 1, some a, some b =>
    if a = b then (some a, some b) else lastCommonLoop fuel (store.pprev a) (store.pprev b)
  | _ + 1, pa, pb => (pa, pb)

/-- `LastCommonAncestor`. -/
def lastCommonAncestor (pa pb : UInt256) : Except String (Option UInt256) :=
  let a := if store.nHeight pa > store.nHeight pb then store.getAncestor pa (store.nHeight pb) else some pa
  let b := if store.nHeight pb > store.nHeight pa then store.getAncestor pb (store.nHeight pa) else some pb
  let (a, b) := store.lastCommonLoop (min (store.nHeight pa) (store.nHeight pb) + 1) a b
  if a = b then .ok a else .error "Assertion failed: pa == pb"

end BlockStore

def addCoinsCheckedFrom (tx : CTransaction) (nHeight : Int) :
    Nat → List CTxOut → CCoinsViewCache → Except String CCoinsViewCache
  | _, [], cache => .ok cache
  | n, out :: vout, cache => do
    let overwrite := cache.haveCoin ⟨tx.hash, n⟩
    let cache ← (cache.fetchCoin ⟨tx.hash, n⟩).addCoin ⟨tx.hash, n⟩ (.ofOut out nHeight tx.isCoinBase) overwrite
    addCoinsCheckedFrom tx nHeight (n + 1) vout cache

/-- One round of `RollforwardBlock`; spending a coin that is not there is no error. -/
def rollforwardTx (nHeight : Int) (inputs : CCoinsViewCache) (tx : CTransaction) : Except String CCoinsViewCache :=
  let inputs := tx.spentInputs.foldl (fun inputs txin => (inputs.spendCoin txin.prevout).2.2) inputs
  addCoinsCheckedFrom tx nHeight 0 tx.vout inputs

def rollforwardTxs (nHeight : Int) : List CTransaction → CCoinsViewCache → Except String CCoinsViewCache
  | [], inputs => .ok inputs
  | tx :: vtx, inputs => do
    let inputs ← rollforwardTx nHeight inputs tx
    rollforwardTxs nHeight vtx inputs

def rollforwardBlock (pindex : StoredBlock) (inputs : CCoinsViewCache) : Except String CCoinsViewCache :=
  rollforwardTxs pindex.nHeight pindex.block.vtx inputs

/-- One round of the rollback; the genesis block is never disconnected. -/
def rollbackBlock (pindexOld : StoredBlock) (cache : CCoinsViewCache) : Except String CCoinsViewCache :=
  if pindexOld.nHeight > 0 then do
    let (res, cache) ← disconnectBlock pindexOld.block pindexOld.vtxundo pindexOld.nHeight cache
    if res = .failed then .error "RollbackBlock(): DisconnectBlock failed" else .ok cache
  else .ok cache

section

variable (store : BlockStore)

/-- Disconnects the old branch. -/
def rollback (pindexFork : Option UInt256) : Nat → Option UInt256 → CCoinsViewCache → Except String CCoinsViewCache
  | 0, _, _ => .error "the old branch does not end"
  | fuel + 1, pindexOld, cache =>
    if pindexOld = pindexFork then .ok cache
    else
      match pindexOld.bind (fun h => store.mapBlockIndex[h]?) with
      | none => .error "null pindexOld"
      | some pindex => do
        let cache ← rollbackBlock pindex cache
        rollback pindexFork fuel pindex.pprev cache

/-- `RollforwardBlock` over the new branch. -/
def rollforward (pindexNew : UInt256) : List Nat → CCoinsViewCache → Except String CCoinsViewCache
  | [], cache => .ok cache
  | nHeight :: heights, cache =>
    match (store.getAncestor pindexNew nHeight).bind (fun h => store.mapBlockIndex[h]?) with
    | none => .error "null pindex"
    | some pindex => do
      let cache ← rollforwardBlock pindex cache
      rollforward pindexNew heights cache

/-- The last block common to both tips; there is none on the first flush, whose old tip is null. -/
def replayFork (hashNew hashOld : UInt256) : Except String (Option UInt256) :=
  if hashOld = 0 then .ok none
  else if (store.mapBlockIndex[hashOld]?).isNone then
    .error "ReplayBlocks(): reorganization from unknown block requested"
  else do
    let pindexFork ← store.lastCommonAncestor hashOld hashNew
    if pindexFork.isNone then .error "Assertion failed: pindexFork != nullptr" else .ok pindexFork

/-- `ReplayBlocks` up to its flush. -/
def replayCache (coins : StdMap COutPoint Coin) (hashNew hashOld : UInt256) : Except String CCoinsViewCache :=
  if (store.mapBlockIndex[hashNew]?).isNone then .error "ReplayBlocks(): reorganization to unknown block requested"
  else do
    let pindexFork ← replayFork store hashNew hashOld
    let pindexOld := if hashOld = 0 then none else some hashOld
    let cache ← rollback store pindexFork (store.nHeight hashOld + 2) pindexOld ⟨coins, ∅⟩
    let nForkHeight := pindexFork.elim 0 store.nHeight
    rollforward store hashNew (List.range' (nForkHeight + 1) (store.nHeight hashNew - nForkHeight)) cache

/-- `ReplayBlocks`: the batches it writes, none when the database is consistent. -/
def replayBlocks (policy : FlushPolicy) (db : CoinsDB) : Except String (List CDBBatch) :=
  match db.getHeadBlocks with
  | [] => .ok []
  | [hashNew, hashOld] => do
    let cache ← replayCache store db.coins hashNew hashOld
    db.batchWrite policy cache.cacheCoins hashNew
  | _ => .error "ReplayBlocks(): unknown inconsistent state"

structure ReplayAttempt where
  policy : FlushPolicy
  written : Nat

def ReplayAttempt.apply (db : CoinsDB) (attempt : ReplayAttempt) : CoinsDB :=
  match replayBlocks store attempt.policy db with
  | .error _ => db
  | .ok batches => db.writeBatches (batches.take attempt.written)

end

end Qstees
