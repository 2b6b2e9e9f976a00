import Qstees.Model.TxVerify

/-!
# The coins view

`CCoinsViewCache`: a cache of coins with `DIRTY` and `FRESH` flags over a base view. The base
is what its `GetCoin` answers with, a finite map. Reading a coin caches it, so the methods
that are `const` in the source still change the cache: their effect is `fetchCoin`.
-/

namespace Qstees

structure Coin where
  out : CTxOut
  fCoinBase : Bool
  nHeight : Nat
deriving DecidableEq, Repr

def Coin.ofOut (out : CTxOut) (nHeight : Int) (fCoinBase : Bool) : Coin :=
  ⟨out, fCoinBase, (nHeight % 2 ^ 31).toNat⟩

/-- `Coin()`, which is also what `Clear()` leaves. -/
def Coin.empty : Coin := ⟨.null, false, 0⟩

def Coin.isSpent (coin : Coin) : Bool := coin.out.isNull

structure CCoinsCacheEntry where
  coin : Coin
  dirty : Bool := false
  fresh : Bool := false
deriving DecidableEq, Repr

/-- A cache over a finite map of coins. -/
structure CCoinsViewCache where
  base : StdMap COutPoint Coin
  cacheCoins : StdMap COutPoint CCoinsCacheEntry
deriving DecidableEq

namespace CCoinsViewCache

variable (view : CCoinsViewCache) (outpoint : COutPoint)

/-- `FetchCoin`. -/
def fetchCoin : CCoinsViewCache :=
  match view.cacheCoins[outpoint]? with
  | some _ => view
  | none =>
    match view.base[outpoint]? with
    | none => view
    | some tmp => { view with cacheCoins := view.cacheCoins.insert outpoint ⟨tmp, false, tmp.isSpent⟩ }

def accessCoin : Coin :=
  match (view.fetchCoin outpoint).cacheCoins[outpoint]? with
  | none => .empty
  | some entry => entry.coin

def haveCoin : Bool := !(view.accessCoin outpoint).isSpent

/-- `AddCoin`; an error where it throws. -/
def addCoin (coin : Coin) (possible_overwrite : Bool) : Except String CCoinsViewCache :=
  if coin.isSpent then .error "Assertion failed: !coin.IsSpent()"
  else if isUnspendable coin.out.scriptPubKey then .ok view
  else
    let entry := (view.cacheCoins[outpoint]?).getD ⟨.empty, false, false⟩
    if !possible_overwrite && !entry.coin.isSpent then
      .error "Adding new coin that replaces non-pruned entry"
    else
      let fresh := !possible_overwrite && !entry.dirty
      .ok { view with cacheCoins := view.cacheCoins.insert outpoint ⟨coin, true, entry.fresh || fresh⟩ }

/-- `SpendCoin`, with the coin moved out. -/
def spendCoin : Bool × Coin × CCoinsViewCache :=
  let view := view.fetchCoin outpoint
  match view.cacheCoins[outpoint]? with
  | none => (false, .empty, view)
  | some entry =>
    (true, entry.coin,
      { view with
        cacheCoins :=
          if entry.fresh then view.cacheCoins.erase outpoint
          else view.cacheCoins.insert outpoint ⟨.empty, true, entry.fresh⟩ })

def haveInputs (tx : CTransaction) : Bool :=
  tx.isCoinBase || tx.vin.all (fun txin => view.haveCoin txin.prevout)

def fetchInputs (tx : CTransaction) : CCoinsViewCache :=
  tx.vin.foldl (fun view txin => view.fetchCoin txin.prevout) view

end CCoinsViewCache

/-- `AddCoins` without the check, from output `n` on. -/
def addCoinsFrom (tx : CTransaction) (nHeight : Int) :
    Nat → List CTxOut → CCoinsViewCache → Except String CCoinsViewCache
  | _, [], cache => .ok cache
  | n, out :: vout, cache => do
    let cache ← cache.addCoin ⟨tx.hash, n⟩ (.ofOut out nHeight tx.isCoinBase) tx.isCoinBase
    addCoinsFrom tx nHeight (n + 1) vout cache

def addCoins (cache : CCoinsViewCache) (tx : CTransaction) (nHeight : Int) : Except String CCoinsViewCache :=
  addCoinsFrom tx nHeight 0 tx.vout cache

/-- `MAX_BLOCK_WEIGHT / MIN_TRANSACTION_OUTPUT_WEIGHT`; an empty output serializes to nine bytes. -/
def MAX_OUTPUTS_PER_BLOCK : Nat := MAX_BLOCK_WEIGHT / (WITNESS_SCALE_FACTOR * 9)

def accessByTxidFrom (txid : UInt256) : Nat → Nat → CCoinsViewCache → Coin × CCoinsViewCache
  | 0, _, view => (.empty, view)
  | fuel + 1, n, view =>
    let alternate := view.accessCoin ⟨txid, n⟩
    let view := view.fetchCoin ⟨txid, n⟩
    if !alternate.isSpent then (alternate, view) else accessByTxidFrom txid fuel (n + 1) view

def accessByTxid (view : CCoinsViewCache) (txid : UInt256) : Coin × CCoinsViewCache :=
  accessByTxidFrom txid MAX_OUTPUTS_PER_BLOCK 0 view

def spendInputs : List CTxIn → CCoinsViewCache → Except String (List Coin × CCoinsViewCache)
  | [], inputs => .ok ([], inputs)
  | txin :: vin, inputs =>
    match inputs.spendCoin txin.prevout with
    | (false, _, _) => .error "Assertion failed: is_spent"
    | (true, coin, inputs) => do
      let (vprevout, inputs) ← spendInputs vin inputs
      return (coin :: vprevout, inputs)

/-- The inputs of a transaction that spend something; a coinbase has none. -/
def CTransaction.spentInputs (tx : CTransaction) : List CTxIn := if tx.isCoinBase then [] else tx.vin

/-- `UpdateCoins`, with the undo data. -/
def updateCoins (tx : CTransaction) (inputs : CCoinsViewCache) (nHeight : Int) :
    Except String (List Coin × CCoinsViewCache) := do
  let (vprevout, inputs) ← spendInputs tx.spentInputs inputs
  let inputs ← addCoins inputs tx nHeight
  return (vprevout, inputs)

inductive DisconnectResult where
  | ok | unclean | failed
deriving DecidableEq, Repr

/-- The coin to restore: undo data without a height takes it from another output. -/
def recoverMetadata (undo : Coin) (view : CCoinsViewCache) (out : COutPoint) : Option Coin × CCoinsViewCache :=
  if undo.nHeight = 0 then
    let (alternate, view) := accessByTxid view out.hash
    if !alternate.isSpent then
      (some { undo with nHeight := alternate.nHeight, fCoinBase := alternate.fCoinBase }, view)
    else (none, view)
  else (some undo, view)

/-- `ApplyTxInUndo`. -/
def applyTxInUndo (undo : Coin) (view : CCoinsViewCache) (out : COutPoint) :
    Except String (DisconnectResult × CCoinsViewCache) :=
  let fClean := !view.haveCoin out
  match recoverMetadata undo (view.fetchCoin out) out with
  | (none, view) => .ok (.failed, view)
  | (some undo, view) => do
    let view ← view.addCoin out undo (!fClean)
    return (if fClean then .ok else .unclean, view)

/-- Takes the outputs off the view and compares them. -/
def removeOutputs (tx : CTransaction) (nHeight : Int) : Nat → List CTxOut → CCoinsViewCache → Bool × CCoinsViewCache
  | _, [], view => (true, view)
  | o, out :: vout, view =>
    if isUnspendable out.scriptPubKey then removeOutputs tx nHeight (o + 1) vout view
    else
      let (is_spent, coin, view) := view.spendCoin ⟨tx.hash, o⟩
      let matched := is_spent && out == coin.out && decide (nHeight = coin.nHeight) && tx.isCoinBase == coin.fCoinBase
      let (fClean, view) := removeOutputs tx nHeight (o + 1) vout view
      (matched && fClean, view)

/-- A loop of `DisconnectBlock`: a failed round stops it, an unclean one is remembered. -/
def undoLoop {α : Type} (f : α → CCoinsViewCache → Except String (DisconnectResult × CCoinsViewCache)) :
    List α → CCoinsViewCache → Except String (DisconnectResult × CCoinsViewCache)
  | [], view => .ok (.ok, view)
  | a :: as, view => do
    let (res, view) ← f a view
    if res = .failed then return (.failed, view)
    let (res', view) ← undoLoop f as view
    return (if res' = .failed then .failed else if res = .unclean then .unclean else res', view)

/-- The loop over the inputs of a transaction and their undo coins, given in reverse order. -/
def restoreInputs : List (CTxIn × Coin) → CCoinsViewCache → Except String (DisconnectResult × CCoinsViewCache) :=
  undoLoop (fun (txin, undo) view => applyTxInUndo undo view txin.prevout)

def disconnectTx (nHeight : Int) (tx : CTransaction) (txundo : Option (List Coin)) (view : CCoinsViewCache) :
    Except String (DisconnectResult × CCoinsViewCache) :=
  let (matched, view) := removeOutputs tx nHeight 0 tx.vout view
  let clean := if matched then DisconnectResult.ok else .unclean
  match txundo with
  | none => .ok (clean, view)
  | some vprevout =>
    if vprevout.length ≠ tx.vin.length then .ok (.failed, view)
    else do
      let (res, view) ← restoreInputs (tx.vin.zip vprevout).reverse view
      return (if res = .failed then .failed else if clean = .unclean then .unclean else res, view)

/-- The transaction loop of `DisconnectBlock`, over transactions in reverse order. -/
def disconnectTxs (nHeight : Int) :
    List (CTransaction × Option (List Coin)) → CCoinsViewCache → Except String (DisconnectResult × CCoinsViewCache) :=
  undoLoop (fun (tx, txundo) view => disconnectTx nHeight tx txundo view)

/-- `DisconnectBlock`. -/
def disconnectBlock (block : CBlock) (vtxundo : List (List Coin)) (nHeight : Int) (view : CCoinsViewCache) :
    Except String (DisconnectResult × CCoinsViewCache) :=
  if vtxundo.length + 1 ≠ block.vtx.length then .ok (.failed, view)
  else disconnectTxs nHeight (block.vtx.zip (none :: vtxundo.map some)).reverse view

end Qstees
