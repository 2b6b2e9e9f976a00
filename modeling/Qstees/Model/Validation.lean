import Qstees.Model.Coins
import Qstees.Model.Rewards

/-!
# Connecting a block

`CheckTxInputs`, `CheckBlock` and `ConnectBlock`. Checks that do not bear on amounts or on the
set of coins (proof of work, merkle root, sequence locks, signature operations, scripts,
payees) are parameters. The memo `fChecked` of an earlier `CheckBlock` is not modelled.
-/

namespace Qstees

def COINBASE_MATURITY : Int := 20

def MAX_BLOCK_SIGOPS_COST : Nat := 80000

/-- What `ConnectBlock` takes from other parts. -/
structure ConnectEnv where
  params : Params
  /-- `GetDevCoin`, whose `double` arithmetic the accounting does not depend on. -/
  getDevCoin : Int → Int → Int
  devScript : CScript
  serializeSize : CTransaction → Nat
  blockSize : CBlock → Nat
  checkHeader : CBlock → Except Failure Unit
  conflictsWithLock : CTransaction → Bool
  legacySigOps : CTransaction → Nat
  sigOpCost : CTransaction → CCoinsViewCache → Nat
  sequenceLocks : CTransaction → List Nat → Bool
  checkInputs : CTransaction → CCoinsViewCache → Bool
  isBlockPayeeValid : CTransaction → Int → Except String Bool
  /-- Outcomes of the script check queue and of writing the undo file. -/
  controlWait : Bool
  writeUndo : Bool

/-- One input of `CheckTxInputs`, valued with interest. -/
def addInput (inputs : CCoinsViewCache) (nSpendHeight nValueIn : Int) (txin : CTxIn) : Validation Int := do
  let coin := inputs.accessCoin txin.prevout
  Tally.check (!coin.isSpent) (.exception "Assertion failed: !coin.IsSpent()")
  Tally.check (!(coin.fCoinBase && decide (nSpendHeight - coin.nHeight < COINBASE_MATURITY)))
    (.dos 0 "bad-txns-premature-spend-of-coinbase")
  let value ← coin.out.getValueWithInterest coin.nHeight nSpendHeight
  let nValueIn ← sum64 nValueIn value
  Tally.check (moneyRange coin.out.nValue && moneyRange nValueIn) (.dos 100 "bad-txns-inputvalues-outofrange")
  pure nValueIn

/-- `Consensus::CheckTxInputs`: the fee. -/
def checkTxInputs (tx : CTransaction) (inputs : CCoinsViewCache) (nSpendHeight : Int) : Validation Int := do
  Tally.check (inputs.haveInputs tx) (.dos 100 "bad-txns-inputs-missingorspent")
  let nValueIn ← Tally.fold (addInput inputs nSpendHeight) 0 tx.vin
  let value_out ← tx.getValueOut
  Tally.check (decide (value_out ≤ nValueIn)) (.dos 100 "bad-txns-in-belowout")
  let txfee_aux ← sum64 nValueIn (-value_out)
  Tally.check (moneyRange txfee_aux) (.dos 100 "bad-txns-fee-outofrange")
  pure txfee_aux

variable (E : ConnectEnv)

def checkTransactions : List CTransaction → Validation Unit
  | [] => pure ()
  | tx :: vtx => do
    checkTransaction E.serializeSize tx true
    checkTransactions vtx

variable (block : CBlock)

/-- `CheckBlock`. -/
def checkBlock : Validation Unit := do
  Tally.lift (E.checkHeader block)
  Tally.check (!block.vtx.isEmpty && decide (block.vtx.length * WITNESS_SCALE_FACTOR ≤ MAX_BLOCK_WEIGHT) &&
    decide (E.blockSize block * WITNESS_SCALE_FACTOR ≤ MAX_BLOCK_WEIGHT)) (.dos 100 "bad-blk-length")
  Tally.check (block.vtx.head?.any CTransaction.isCoinBase) (.dos 100 "bad-cb-missing")
  Tally.check (block.vtx.tail.all (fun tx => !tx.isCoinBase)) (.dos 100 "bad-cb-multiple")
  Tally.check (block.vtx.all (fun tx => tx.isCoinBase || !E.conflictsWithLock tx)) (.dos 100 "conflict-tx-lock")
  checkTransactions E block.vtx
  Tally.check (decide ((block.vtx.map E.legacySigOps).sum * WITNESS_SCALE_FACTOR ≤ MAX_BLOCK_SIGOPS_COST))
    (.dos 100 "bad-blk-sigops")

def CBlock.outpoints : List COutPoint :=
  block.vtx.flatMap (fun tx => (List.range tx.vout.length).map (fun n => ⟨tx.hash, n⟩))

def checkBIP30 (view : CCoinsViewCache) : Validation CCoinsViewCache := do
  Tally.check (block.outpoints.all (fun o => !view.haveCoin o)) (.dos 100 "bad-txns-BIP30")
  pure (block.outpoints.foldl CCoinsViewCache.fetchCoin view)

/-- The variables of the loop of `ConnectBlock`. -/
structure ConnectState where
  view : CCoinsViewCache
  i : Nat := 0
  vtxundo : List (List Coin) := []
  nFees : Int := 0
  nSigOpsCost : Nat := 0
deriving DecidableEq

/-- The checks on a transaction that is not the coinbase, before its scripts. -/
def checkSpend (nHeight : Int) (st : ConnectState) (tx : CTransaction) : Validation ConnectState :=
  if tx.isCoinBase then pure st
  else do
    let txfee ← checkTxInputs tx st.view nHeight
    let nFees ← sum64 st.nFees txfee
    Tally.check (moneyRange nFees) (.dos 100 "bad-txns-accumulated-fee-outofrange")
    let view := st.view.fetchInputs tx
    Tally.check (E.sequenceLocks tx (tx.vin.map (fun txin => (view.accessCoin txin.prevout).nHeight)))
      (.dos 100 "bad-txns-nonfinal")
    pure { st with view := view, nFees := nFees }

/-- One transaction of `ConnectBlock`. -/
def connectTx (nHeight : Int) (st : ConnectState) (tx : CTransaction) : Validation ConnectState := do
  let st ← checkSpend E nHeight st tx
  let nSigOpsCost := st.nSigOpsCost + E.sigOpCost tx st.view
  Tally.check (decide (nSigOpsCost ≤ MAX_BLOCK_SIGOPS_COST)) (.dos 100 "bad-blk-sigops")
  Tally.check (tx.isCoinBase || E.checkInputs tx st.view) (.dos 100 "mandatory-script-verify-flag-failed")
  let (txundo, view) ← liftException (updateCoins tx st.view nHeight)
  pure { st with
    view := view
    i := st.i + 1
    vtxundo := if st.i > 0 then st.vtxundo ++ [txundo] else st.vtxundo
    nSigOpsCost := nSigOpsCost }

def connectTxs (nHeight : Int) (view : CCoinsViewCache) (vtx : List CTransaction) : Validation ConnectState :=
  Tally.fold (connectTx E nHeight) { view := view } vtx

def forkInfinityNode : Int := 170000

def enforceHeight : Int := 178000

/-- The payees are looked at from the fork on, and a wrong one rejects the block from `enforceHeight` on. -/
def checkPayee (nHeight : Int) (coinbase : CTransaction) : Validation Unit :=
  if nHeight ≤ forkInfinityNode then pure ()
  else do
    let valid ← liftException (E.isBlockPayeeValid coinbase nHeight)
    Tally.check (valid || decide (nHeight < enforceHeight)) (.dos 0 "bad-cb-payee")

/-- The dev fund output, and behind it the payees. -/
def checkDevFee (nHeight blockReward : Int) (coinbase : CTransaction) : Validation Unit :=
  match coinbase.vout[1]? with
  | none => Tally.fail (.exception "read past the end of vout")
  | some dev => do
    Tally.check (dev.scriptPubKey == E.devScript) (.dos 100 "bad-cb-dev-fee")
    Tally.check (decide (E.getDevCoin nHeight blockReward ≤ dev.nValue)) (.dos 100 "bad-cb-dev-fee")
    checkPayee E nHeight coinbase

/-- The amounts of the coinbase, and its payees. -/
def checkCoinbase (nHeight nFees : Int) (coinbase : CTransaction) : Validation Unit := do
  let blockReward ← sum64 nFees (getBlockSubsidy E.params nHeight)
  let valueOut ← coinbase.getValueOut
  let limit ← sum64 blockReward (E.getDevCoin nHeight blockReward)
  Tally.check (decide (valueOut ≤ limit)) (.dos 100 "bad-cb-amount")
  checkDevFee E nHeight blockReward coinbase

def BIP34_IMPLIES_BIP30_LIMIT : Int := 1983702

def applyBIP30 (nHeight : Int) (fEnforceBIP30 : Bool) (view : CCoinsViewCache) :
    Validation CCoinsViewCache :=
  if fEnforceBIP30 || decide (nHeight ≥ BIP34_IMPLIES_BIP30_LIMIT) then checkBIP30 block view else pure view

/-- `ConnectBlock` behind its checks. -/
def connectChecked (nHeight : Int) (fEnforceBIP30 fJustCheck : Bool) (view : CCoinsViewCache) :
    Validation ConnectState := do
  let view ← applyBIP30 block nHeight fEnforceBIP30 view
  let st ← connectTxs E nHeight view block.vtx
  match block.vtx with
  | [] => Tally.fail (.exception "empty block")
  | coinbase :: _ => do
    checkCoinbase E nHeight st.nFees coinbase
    Tally.check E.controlWait (.dos 100 "block-validation-failed")
    Tally.check (fJustCheck || E.writeUndo) (.exception "Failed to write undo data")
    pure st

/-- `ConnectBlock`. `fEnforceBIP30` is the flag as computed from the block index. The result
holds the new view, the undo data and the total fees. -/
def connectBlock (nHeight : Int) (isGenesis fEnforceBIP30 fJustCheck : Bool)
    (view : CCoinsViewCache) : Validation ConnectState := do
  checkBlock E block
  if isGenesis then pure { view := view } else connectChecked E block nHeight fEnforceBIP30 fJustCheck view

end Qstees
