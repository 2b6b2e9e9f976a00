import Qstees.Model.CoinSelection
import Qstees.Model.InstantSend
import Qstees.Model.Interpreter
import Qstees.Model.Validation

/-!
# The wallet

How `CWallet::CreateTransaction` lists, selects and values its coins, and the loop that fits the fee. The key
store, the estimates of sizes and fees, signing and the limits of the memory pool are parameters. Priorities
are computed but never read, and neither `AvailableCoins` nor the solvers receive the coin type, so both are left out
of `CreateTransaction`. A `CMutableTransaction` is a transaction whose `hash` is not yet set.
-/

namespace Qstees

inductive IsMineType where
  | no | watchOnly | spendable
deriving DecidableEq, Repr

def ABANDON_HASH : UInt256 := 2 ^ 248

def OUTPUT_GROUP_MAX_ENTRIES : Nat := 10

def DUMMY_NESTED_P2WPKH_INPUT_SIZE : Nat := 91

def MAX_BIP125_RBF_SEQUENCE : Nat := 0xfffffffd

def MAX_STANDARD_TX_WEIGHT : Nat := 400000

/-- A wallet transaction; of `mapValue` only the two keys of replacements are read. -/
structure CWalletTx where
  tx : CTransaction
  hashBlock : UInt256 := 0
  nIndex : Int := -1
  fInMempool : Bool := false
  replaces_txid : Bool := false
  replaced_by_txid : Bool := false
deriving DecidableEq, Repr

structure WalletContext extends LockRequestContext where
  /-- The height of the block of this hash, if the active chain contains it. -/
  activeHeight : UInt256 → Option Int
  mempoolTx : UInt256 → Option CTransaction
  isLockedInstantSendTransaction : UInt256 → Bool
  nInstantSendDepth : Int := 5
  getTransactionAncestry : UInt256 → Nat × Nat
  checkCollateral : COutPoint → Bool
  /-- Whether `CalculateMemPoolAncestors` stays within its limits. -/
  withinChainLimits : CTransaction → Bool

structure SignatureData where
  solved : Bool
  scriptSig : CScript
  scriptWitness : List (List UInt8)
deriving DecidableEq, Repr

structure WalletEnv where
  hashes : Hashes
  isMine : CScript → IsMineType
  isSolvable : CScript → Bool
  isFromMe : CWalletTx → Bool
  maximumSignedInputSize : CTxOut → Bool → Int
  maximumSignedTxSize : CTransaction → Int
  getTransactionWeight : CTransaction → Nat
  computeHash : CTransaction → UInt256
  /-- `GetDestinationForKey` with the change type of the transaction. -/
  destinationForKey : List UInt8 → CTxDestination
  signStep : CTransaction → Nat → CTxOut → SignatureData
  checkLowS : List UInt8 → Bool
  checkSig : CTransaction → Nat → CTxOut → List UInt8 → List UInt8 → CScript → SigVersion → Bool

structure CWallet where
  mapWallet : StdMap UInt256 CWalletTx
  keyed : ∀ (hash : UInt256) (wtx : CWalletTx), mapWallet[hash]? = some wtx → wtx.tx.hash = hash
  mapTxSpends : List (COutPoint × UInt256) := []
  setLockedCoins : List COutPoint := []
  m_spend_zero_conf_change : Bool := true
  m_signal_rbf : Bool := false
  m_allow_fallback_fee : Bool := true
  fDisablePrivateKeys : Bool := false
  fRejectLongChains : Bool := false
  limitAncestorCount : Int := 25
  limitDescendantCount : Int := 25
  /-- The key of the key pool that `GetReservedKey` reserves. -/
  reservedKey : Option (List UInt8) := none

structure FeeContext where
  nFeeRateNeeded : CFeeRate
  long_term_feerate : CFeeRate
  discard_rate : CFeeRate
  dustRelayFee : CFeeRate
  minRelayTxFee : CFeeRate
  getMinimumFee : Nat → Nat → Int
  /-- Whether an estimate falls back on the fallback fee. -/
  isFallback : Nat → Bool

structure CCoinControl where
  destChange : CTxDestination := .noDestination
  fAllowOtherInputs : Bool := false
  fAllowWatchOnly : Bool := false
  m_signal_bip125_rbf : Option Bool := none
  m_avoid_partial_spends : Bool := false
  setSelected : Std.ExtTreeSet COutPoint := ∅

namespace CCoinControl

variable (coinControl : CCoinControl)

def hasSelected : Bool := !coinControl.setSelected.isEmpty

def isSelected (output : COutPoint) : Bool := coinControl.setSelected.contains output

def listSelected : List COutPoint := coinControl.setSelected.toList

end CCoinControl

structure CRecipient where
  scriptPubKey : CScript
  nAmount : Int
  fSubtractFeeFromAmount : Bool
deriving DecidableEq, Repr

/-- How `CreateTransaction` ends without a transaction; `running` is a loop with passes to go. -/
inductive WalletFailure where
  | refused (strFailReason : String)
  | exception (what : String)
  | running
deriving DecidableEq, Repr

def orException {α : Type} (x : Except String α) : Except WalletFailure α := x.mapError .exception

namespace CWalletTx

variable (ctx : WalletContext) (wtx : CWalletTx)

def hashUnset : Bool := wtx.hashBlock == 0 || wtx.hashBlock == ABANDON_HASH

def isAbandoned : Bool := wtx.hashBlock == ABANDON_HASH

def getDepthInMainChainBTC : Int :=
  if wtx.hashUnset then 0
  else
    match ctx.activeHeight wtx.hashBlock with
    | none => 0
    | some nHeight => (if wtx.nIndex = -1 then -1 else 1) * (ctx.height - nHeight + 1)

/-- `GetDepthInMainChain`: a lock adds depth. -/
def getDepthInMainChain : Int :=
  let nResult := wtx.getDepthInMainChainBTC ctx
  if nResult = 0 ∧ (ctx.mempoolTx wtx.tx.hash).isNone then -1
  else if nResult < 6 ∧ ctx.isLockedInstantSendTransaction wtx.tx.hash then ctx.nInstantSendDepth + nResult
  else nResult

def getBlocksToMaturity : Except String Int :=
  if !wtx.tx.isCoinBase then .ok 0
  else
    let chain_depth := wtx.getDepthInMainChain ctx
    let chain_depth := if chain_depth = -1 then 0 else chain_depth
    if chain_depth < 0 then .error "assertion chain_depth >= 0" else .ok (max 0 (COINBASE_MATURITY + 1 - chain_depth))

end CWalletTx

def isOutputTermDeposit (script : CScript) : Except String Bool := do
  let solved ← solver script
  return solved.typeRet == .checklocktimeverify

/-- `CWalletTx::GetTermDepositReleaseBlock`: the number that `Solver` reads from a deposit script. -/
def outputTermDepositReleaseBlock (script : CScript) : Except String Int := do
  if ← isOutputTermDeposit script then
    match getScriptOp script with
    | some (_, vch1, _) => return getint (← scriptNum vch1 true 5)
    | none => return 0
  else return 0

namespace CWallet

variable (E : WalletEnv) (ctx : WalletContext) (wallet : CWallet)

def isSpent (outpoint : COutPoint) : Bool :=
  wallet.mapTxSpends.any fun (spent, wtxid) =>
    spent == outpoint &&
      match wallet.mapWallet[wtxid]? with
      | none => false
      | some spender =>
        let depth := spender.getDepthInMainChain ctx
        decide (depth > 0) || (depth == 0 && !spender.isAbandoned)

def isOwnInput (txin : CTxIn) : Bool :=
  match wallet.mapWallet[txin.prevout.hash]? with
  | none => false
  | some parent =>
    match parent.tx.vout[txin.prevout.n]? with
    | none => false
    | some parentOut => E.isMine parentOut.scriptPubKey == .spendable

/-- `IsTrusted`. -/
def isTrusted (wtx : CWalletTx) : Bool :=
  if !checkFinalTx ctx.toLockRequestContext wtx.tx then false
  else
    let nDepth := wtx.getDepthInMainChain ctx
    if nDepth ≥ 1 then true
    else if nDepth < 0 then false
    else if !wallet.m_spend_zero_conf_change || !E.isFromMe wtx then false
    else if !wtx.fInMempool then false
    else wtx.tx.vin.all (wallet.isOwnInput E)

/-- The arguments of `AvailableCoins` with their defaults. -/
structure AvailableCoinsArgs where
  fOnlySafe : Bool := true
  nMinimumAmount : Int := 1
  nMaximumAmount : Int := MAX_MONEY
  nMinDepth : Int := 0
  nMaxDepth : Int := 9999999
  onlyMasternodeCollateral : Bool := false
  fUseInstantSend : Bool := false

structure COutput where
  tx : CWalletTx
  i : Nat
  nDepth : Int
  nInputBytes : Int
  fSpendable : Bool
deriving DecidableEq, Repr

def COutput.ofTx (tx : CWalletTx) (i : Nat) (txout : CTxOut) (nDepth : Int) (fSpendable use_max_sig : Bool) : COutput :=
  ⟨tx, i, nDepth, if fSpendable then E.maximumSignedInputSize txout use_max_sig else -1, fSpendable⟩

def COutput.getInputCoin (output : COutput) : Except String CInputCoin :=
  CInputCoin.ofTx output.tx.tx output.i output.nInputBytes

variable (args : AvailableCoinsArgs)

/-- The part of the loop over `mapWallet` before the loop over outputs: the depth, if the outputs are looked at. -/
def availableTx (wtx : CWalletTx) : Except String (Option Int) := do
  if !checkFinalTx ctx.toLockRequestContext wtx.tx then return none
  if wtx.tx.isCoinBase && decide ((← wtx.getBlocksToMaturity ctx) > 0) then return none
  let nDepth := wtx.getDepthInMainChain ctx
  if nDepth < 0 then return none
  if nDepth = 0 ∧ !wtx.fInMempool then return none
  let safeTx := wallet.isTrusted E ctx wtx && !(nDepth == 0 && wtx.replaces_txid)
  if args.fUseInstantSend ∧ nDepth < INSTANTSEND_CONFIRMATIONS_REQUIRED then return none
  let safeTx := safeTx && !(nDepth == 0 && wtx.replaced_by_txid)
  if args.fOnlySafe ∧ !safeTx then return none
  if nDepth < args.nMinDepth ∨ nDepth > args.nMaxDepth then return none
  return some nDepth

def isLockedDeposit (script : CScript) : Except String Bool := do
  if ← isOutputTermDeposit script then return decide ((← outputTermDepositReleaseBlock script) > ctx.height)
  else return false

variable (coinControl : CCoinControl)

/-- One output of `AvailableCoins`. -/
def availableOutput (wtxid : UInt256) (wtx : CWalletTx)
    (nDepth : Int) (txout : CTxOut) (i : Nat) : Except String (Option COutput) := do
  if args.onlyMasternodeCollateral ∧ !ctx.checkCollateral ⟨wtx.tx.hash, i⟩ then return none
  if ← isLockedDeposit ctx txout.scriptPubKey then return none
  if txout.nValue < args.nMinimumAmount ∨ txout.nValue > args.nMaximumAmount then return none
  if coinControl.hasSelected ∧ !coinControl.fAllowOtherInputs ∧ !coinControl.isSelected ⟨wtxid, i⟩ then return none
  if (⟨wtxid, i⟩ : COutPoint) ∈ wallet.setLockedCoins ∧ !args.onlyMasternodeCollateral then return none
  if wallet.isSpent ctx ⟨wtxid, i⟩ then return none
  let mine := E.isMine txout.scriptPubKey
  if mine = .no then return none
  let solvable := E.isSolvable txout.scriptPubKey
  let spendable := mine == .spendable || (mine == .watchOnly && coinControl.fAllowWatchOnly && solvable)
  return some (COutput.ofTx E wtx i txout nDepth spendable coinControl.fAllowWatchOnly)

def availableEntry (entry : UInt256 × CWalletTx) :
    Except String (List COutput) := do
  match ← wallet.availableTx E ctx args entry.2 with
  | none => return []
  | some nDepth =>
    let coins ← entry.2.tx.vout.zipIdx.mapM fun (txout, i) =>
      wallet.availableOutput E ctx args coinControl entry.1 entry.2 nDepth txout i
    return coins.reduceOption

/-- `AvailableCoins`. -/
def availableCoins : Except String (List COutput) := do
  let coins ← wallet.mapWallet.toList.mapM (wallet.availableEntry E ctx args coinControl)
  return coins.flatten

def storeGroup (gmap : List (CTxDestination × OutputGroup)) (dst : CTxDestination) (group : OutputGroup) :
    List (CTxDestination × OutputGroup) :=
  (dst, group) :: gmap.eraseP (fun entry => entry.1 = dst)

/-- A coin starts a group of its own, or joins the group of its destination if that is not full. -/
def placeCoin (insert : OutputGroup → OutputGroup) (s : List OutputGroup × List (CTxDestination × OutputGroup)) :
    Option CTxDestination → List OutputGroup × List (CTxDestination × OutputGroup)
  | none => (s.1 ++ [insert {}], s.2)
  | some dst =>
    let group := (s.2.lookup dst).getD {}
    if group.m_outputs.length ≥ OUTPUT_GROUP_MAX_ENTRIES then (s.1 ++ [group], storeGroup s.2 dst (insert {}))
    else (s.1, storeGroup s.2 dst (insert group))

def groupDestination (single_coin : Bool) (script : CScript) : Except String (Option CTxDestination) :=
  if single_coin then .ok none else extractDestination E.hashes script

def groupOutput (single_coin : Bool) (s : List OutputGroup × List (CTxDestination × OutputGroup)) (output : COutput) :
    Except String (List OutputGroup × List (CTxDestination × OutputGroup)) :=
  if !output.fSpendable then .ok s
  else do
    let input_coin ← output.getInputCoin
    let (ancestors, descendants) := ctx.getTransactionAncestry output.tx.tx.hash
    let dst ← groupDestination E single_coin input_coin.txout.scriptPubKey
    return placeCoin (fun group => group.insert input_coin output.nDepth (E.isFromMe output.tx) ancestors descendants) s
      dst

/-- `GroupOutputs`. -/
def groupOutputs (outputs : List COutput) (single_coin : Bool) : Except String (List OutputGroup) := do
  let (groups, gmap) ← outputs.foldlM (groupOutput E ctx single_coin) ([], [])
  return groups ++ gmap.map Prod.snd

structure CoinSelectionParams where
  use_bnb : Bool
  change_output_size : Nat
  change_spend_size : Nat
  effective_fee : CFeeRate
  tx_noinputs_size : Nat

def inputFee (rate : CFeeRate) (coin : CInputCoin) : Int :=
  if coin.m_input_bytes < 0 then 0 else rate.getFee coin.m_input_bytes.toNat

/-- One coin of a group is counted less its fee, or discarded if it costs more than it holds. -/
def effectiveCoin (effective_fee long_term_feerate : CFeeRate) (group : OutputGroup)
    (coin : CInputCoin) : OutputGroup :=
  let effective_value := coin.txout.nValue - inputFee effective_fee coin
  if effective_value > 0 then
    { group with
      fee := group.fee + inputFee effective_fee coin
      long_term_fee := group.long_term_fee + inputFee long_term_feerate coin
      effective_value := group.effective_value + effective_value }
  else group.discard coin

/-- A group with fees, without coins not worth theirs. -/
def effectiveGroup (effective_fee long_term_feerate : CFeeRate) (group : OutputGroup) : OutputGroup :=
  group.m_outputs.foldl (effectiveCoin effective_fee long_term_feerate)
    { group with fee := 0, long_term_fee := 0, effective_value := 0 }

variable (rand : Randomness) (place : List Nat)

/-- `SelectCoinsMinConf`. -/
def selectCoinsMinConf (fees : FeeContext) (params : CoinSelectionParams)
    (nTargetValue : Int) (eligibility_filter : CoinEligibilityFilter) (groups : List OutputGroup) :
    Except String (Option Solution) :=
  let eligible := groups.filter (·.eligibleForSpending eligibility_filter)
  if params.use_bnb then
    let cost_of_change :=
      fees.discard_rate.getFee params.change_spend_size + params.effective_fee.getFee params.change_output_size
    let utxo_pool := (eligible.map (effectiveGroup params.effective_fee fees.long_term_feerate)).filter
      (fun group => decide (group.effective_value > 0))
    selectCoinsBnB rand place utxo_pool nTargetValue cost_of_change
      (params.effective_fee.getFee params.tx_noinputs_size)
  else .ok (knapsackSolver rand place nTargetValue eligible)

/-- The filters of the attempts that `SelectCoins` makes, in order. -/
def eligibilityFilters : List CoinEligibilityFilter :=
  let max_ancestors := (max 1 wallet.limitAncestorCount).toNat
  let max_descendants := (max 1 wallet.limitDescendantCount).toNat
  [⟨1, 6, 0, 0⟩, ⟨1, 1, 0, 0⟩] ++
    if wallet.m_spend_zero_conf_change then
      [⟨0, 1, 2, 2⟩, ⟨0, 1, min 4 (max_ancestors / 3), min 4 (max_descendants / 3)⟩,
        ⟨0, 1, max_ancestors / 2, max_descendants / 2⟩, ⟨0, 1, max_ancestors - 1, max_descendants - 1⟩] ++
      if wallet.fRejectLongChains then [] else [⟨0, 1, 2 ^ 64 - 1, 2 ^ 64 - 1⟩]
    else []

/-- The first filter that has a solution. -/
def firstSelection (rand : Randomness) (place : List Nat) (fees : FeeContext) (params : CoinSelectionParams)
    (nTargetValue : Int) (groups : List OutputGroup) : List CoinEligibilityFilter → Except String (Option Solution)
  | [] => .ok none
  | eligibility_filter :: filters => do
    match ← selectCoinsMinConf rand (place ++ [filters.length]) fees params nTargetValue eligibility_filter groups with
    | some solution => return some solution
    | none => firstSelection rand place fees params nTargetValue groups filters

/-- What `SelectCoins` returns, and what it leaves in its arguments. `bnb_used` starts uninitialized and is then
not read; it is `false` here. -/
structure SelectResult where
  success : Bool
  setCoinsRet : List CInputCoin
  nValueRet : Int
  bnb_used : Bool
  use_bnb : Bool

/-- The value of an output with the interest that the next block pays on it, as the wallet counts it. -/
def valueInNextBlock (wtx : CWalletTx) (txout : CTxOut) : Except String Int :=
  (txout.getValueWithInterest (ctx.height + 1 - wtx.getDepthInMainChain ctx) (ctx.height + 1)).result.mapError
    fun
      | .exception what => what
      | .dos _ reason => reason

/-- Coin control without other inputs: every coin that is listed and spendable. -/
def selectListed (s : Solution) (out : COutput) : Except String Solution := do
  if !out.fSpendable then return s
  let coin ← out.getInputCoin
  let value ← valueInNextBlock ctx out.tx coin.txout
  return (insertCoin s.1 coin, s.2 + value)

/-- One preset input; `none` where `SelectCoins` returns false. -/
def selectPreset (s : Option Solution) (outpoint : COutPoint) : Except String (Option Solution) :=
  match s with
  | none => .ok none
  | some s =>
    match wallet.mapWallet[outpoint.hash]? with
    | none => .ok none
    | some wtx =>
      if wtx.tx.vout.length ≤ outpoint.n then .ok none
      else do
        let coin ← CInputCoin.ofTx wtx.tx outpoint.n (-1)
        let value ← valueInNextBlock ctx wtx coin.txout
        return some (insertCoin s.1 coin, s.2 + value)

def withoutPreset (setPresetCoins : List CInputCoin) : List COutput → Except String (List COutput)
  | [] => .ok []
  | output :: vCoins => do
    let coin ← output.getInputCoin
    let vCoins ← withoutPreset setPresetCoins vCoins
    return if setPresetCoins.any (fun preset => preset.outpoint = coin.outpoint) then vCoins else output :: vCoins

/-- The loop that removes the preset coins; it is not entered if nothing is selected. -/
def removePreset (coin_control : CCoinControl) (setPresetCoins : List CInputCoin) (vCoins : List COutput) :
    Except String (List COutput) :=
  if coin_control.hasSelected then withoutPreset setPresetCoins vCoins else .ok vCoins

def shuffleOutputs (coin_control : CCoinControl) (vCoins : List COutput) :
    List COutput :=
  if coin_control.m_avoid_partial_spends ∧ vCoins.length > OUTPUT_GROUP_MAX_ENTRIES then rand.shuffle place vCoins
  else vCoins

/-- `SelectCoins` with preset inputs (or none) and the solvers. -/
def selectWithPreset (fees : FeeContext) (params : CoinSelectionParams)
    (vAvailableCoins : List COutput) (nTargetValue : Int) (coin_control : CCoinControl) :
    Except String SelectResult := do
  let use_bnb := params.use_bnb && !coin_control.hasSelected
  match ← coin_control.listSelected.foldlM (wallet.selectPreset ctx) (some ([], 0)) with
  | none => return ⟨false, [], 0, false, use_bnb⟩
  | some (setPresetCoins, nValueFromPresetInputs) =>
    let vCoins ← removePreset coin_control setPresetCoins vAvailableCoins
    let groups ← groupOutputs E ctx (shuffleOutputs rand place coin_control vCoins) !coin_control.m_avoid_partial_spends
    if nTargetValue ≤ nValueFromPresetInputs then
      return ⟨true, setPresetCoins, nValueFromPresetInputs, false, use_bnb⟩
    else
      match ← firstSelection rand place fees { params with use_bnb := use_bnb } (nTargetValue - nValueFromPresetInputs)
          groups wallet.eligibilityFilters with
      | none => return ⟨false, setPresetCoins, nValueFromPresetInputs, use_bnb, use_bnb⟩
      | some (setCoinsRet, nValueRet) =>
        return ⟨true, insertCoins setCoinsRet setPresetCoins, nValueRet + nValueFromPresetInputs, use_bnb, use_bnb⟩

/-- `SelectCoins`. -/
def selectCoins (fees : FeeContext) (params : CoinSelectionParams)
    (vAvailableCoins : List COutput) (nTargetValue : Int) (coin_control : CCoinControl) :
    Except String SelectResult := do
  if coin_control.hasSelected ∧ !coin_control.fAllowOtherInputs then
    let (setCoinsRet, nValueRet) ← vAvailableCoins.foldlM (selectListed ctx) ([], 0)
    return ⟨decide (nValueRet ≥ nTargetValue), setCoinsRet, nValueRet, false, params.use_bnb⟩
  else wallet.selectWithPreset E ctx rand place fees params vAvailableCoins nTargetValue coin_control

end CWallet

def compactSizeLength (n : Nat) : Nat := if n < 253 then 1 else if n ≤ 0xffff then 3 else if n ≤
    0xffffffff then 5 else 9

def CTxOut.serializeSize (txout : CTxOut) : Nat :=
  8 + compactSizeLength txout.scriptPubKey.length + txout.scriptPubKey.length

/-- `GetDustThreshold`. -/
def getDustThreshold (txout : CTxOut) (dustRelayFeeIn : CFeeRate) : Int :=
  if isUnspendable txout.scriptPubKey then 0
  else
    let nSize := txout.serializeSize +
      if (isWitnessProgram txout.scriptPubKey).isSome then 32 + 4 + 1 + 107 / WITNESS_SCALE_FACTOR + 4
      else 32 + 4 + 1 + 107 + 4
    dustRelayFeeIn.getFee nSize

def isDust (txout : CTxOut) (dustRelayFeeIn : CFeeRate) : Bool :=
  decide (txout.nValue < getDustThreshold txout dustRelayFeeIn)

namespace CWallet

/-- The arguments of `CreateTransaction`. -/
structure CreateArgs where
  vecSend : List CRecipient
  nChangePosRequest : Int := -1
  coin_control : CCoinControl := {}
  sign : Bool := true
  fUseInstantSend : Bool := false

variable (E : WalletEnv) (ctx : WalletContext) (fees : FeeContext) (rand : Randomness) (wallet : CWallet)
  (args : CreateArgs)

def recipientsTotal : Int → List CRecipient → Except WalletFailure Int
  | nValue, [] => .ok nValue
  | nValue, recipient :: vecSend =>
    if nValue < 0 ∨ recipient.nAmount < 0 then .error (.refused "Transaction amounts must not be negative")
    else recipientsTotal (nValue + recipient.nAmount) vecSend

def nSubtractFeeFromAmount : Nat := args.vecSend.countP (·.fSubtractFeeFromAmount)

/-- The variables of the fee loop. -/
structure FeeLoop where
  nFeeRet : Int
  pick_new_inputs : Bool := true
  nValueIn : Int := 0
  setCoins : List CInputCoin := []
  use_bnb : Bool

def startLoop : FeeLoop :=
  let nFeePay := if args.fUseInstantSend then CTxLockRequest.getMinFee ⟨⟨[], [], 1, 0, 0⟩⟩ else 0
  { nFeeRet := if nFeePay > 0 then nFeePay else 0, use_bnb := nSubtractFeeFromAmount args == 0 }

def nValueToSelect (nValue nFeeRet : Int) : Int :=
  if nSubtractFeeFromAmount args = 0 then nValue + nFeeRet else nValue

def payee (nFeeRet : Int) (nSubtract : Nat) (fFirst : Bool) (recipient : CRecipient) : CTxOut :=
  let share := nFeeRet.tdiv nSubtract + if fFirst then nFeeRet.tmod nSubtract else 0
  ⟨recipient.nAmount - if recipient.fSubtractFeeFromAmount then share else 0, recipient.scriptPubKey, -10⟩

def dustReason (nFeeRet : Int) (recipient : CRecipient) (txout : CTxOut) : String :=
  if recipient.fSubtractFeeFromAmount ∧ nFeeRet > 0 then
    if txout.nValue < 0 then "The transaction amount is too small to pay the fee"
    else "The transaction amount is too small to send after the fee has been deducted"
  else "Transaction amount too small"

/-- The outputs to the recipients. -/
def payees (nFeeRet : Int) (nSubtract : Nat) : Bool → List CRecipient → Except WalletFailure (List CTxOut)
  | _, [] => .ok []
  | fFirst, recipient :: vecSend => do
    let txout := payee nFeeRet nSubtract fFirst recipient
    if isDust txout fees.dustRelayFee then throw (.refused (dustReason nFeeRet recipient txout))
    let vout ← payees nFeeRet nSubtract (fFirst && !recipient.fSubtractFeeFromAmount) vecSend
    return txout :: vout

def changePrototype : Except WalletFailure CTxOut :=
  if args.coin_control.destChange ≠ .noDestination then
    .ok ⟨0, getScriptForDestination args.coin_control.destChange, -10⟩
  else if wallet.fDisablePrivateKeys then
    .error (.refused "Can't generate a change-address key. Private keys are disabled for this wallet.")
  else
    match wallet.reservedKey with
    | none => .error (.refused "Keypool ran out, please call keypoolrefill first")
    | some vchPubKey => .ok ⟨0, getScriptForDestination (E.destinationForKey vchPubKey), -10⟩

def scriptChange : Except WalletFailure CScript :=
  if args.coin_control.destChange ≠ .noDestination then .ok (getScriptForDestination args.coin_control.destChange)
  else
    match wallet.reservedKey with
    | none => .error (.refused "Keypool ran out, please call keypoolrefill first")
    | some vchPubKey => .ok (getScriptForDestination (.keyID (E.hashes.hash160 vchPubKey)))

def selectionReason (nValueIn nTarget : Int) : String :=
  if nValueIn < nTarget then
    "Insufficient funds" ++
      if args.fUseInstantSend then
        " InstantSend requires inputs with at least 6 confirmations, you might need to wait a few minutes and try again."
      else ""
  else ""

/-- The reason for coins above the limit of InstantSend; `%1 ` formats the limit and drops the blank. -/
def instantSendReason (nValueIn nTarget : Int) : String :=
  " InstantSend doesn't support sending: Selected coins: " ++ toString nValueIn ++ ", Send values: " ++
    toString nTarget ++ ". Transactions are currently limited to " ++ toString ctx.sporkMaxValue ++ "QSTEES."

/-- The loop over the selected coins, of which only its assertion is left. -/
def checkAges : List CInputCoin → Except WalletFailure Unit
  | [] => .ok ()
  | coin :: coins =>
    match wallet.mapWallet[coin.outpoint.hash]? with
    | none => .error (.exception "undefined behaviour: a selected coin is not in mapWallet")
    | some wtx =>
      if wtx.getDepthInMainChain ctx < 0 then .error (.exception "assertion age >= 0") else checkAges coins

/-- The choice of coins in one pass; `none` if the first solver failed and the loop goes on. -/
def pickInputs (vAvailableCoins : List COutput) (prototype : CTxOut) (vout : List CTxOut) (nTarget : Int) (pass : Nat)
    (s : FeeLoop) : Except WalletFailure (Option (FeeLoop × Bool)) :=
  if s.pick_new_inputs then do
    let spendSize := E.maximumSignedInputSize prototype false
    let params : CoinSelectionParams :=
      { use_bnb := s.use_bnb
        change_output_size := prototype.serializeSize
        change_spend_size := if spendSize = -1 then DUMMY_NESTED_P2WPKH_INPUT_SIZE else spendSize.toNat
        effective_fee := fees.nFeeRateNeeded
        tx_noinputs_size := 11 + (vout.map CTxOut.serializeSize).sum }
    let r ← orException (wallet.selectCoins E ctx rand [pass] fees params vAvailableCoins nTarget args.coin_control)
    if !r.success then
      if r.bnb_used then .ok none else .error (.refused (selectionReason args r.nValueRet nTarget))
    else if args.fUseInstantSend ∧ r.nValueRet > ctx.sporkMaxValue * COIN then
      .error (.refused (instantSendReason ctx r.nValueRet nTarget))
    else do
      wallet.checkAges ctx r.setCoinsRet
      return some ({ s with nValueIn := r.nValueRet, setCoins := r.setCoinsRet, use_bnb := r.use_bnb }, r.bnb_used)
  else .ok (some (s, false))

/-- The outputs, the fee and the position of the change (−1 for none). -/
structure Draft where
  vout : List CTxOut
  nFeeRet : Int
  nChangePosInOut : Int
deriving DecidableEq, Repr

/-- The change output, or its value as fee. -/
def addChange (pass : Nat) (bnb_used : Bool) (nChange nFeeRet : Int) (vout : List CTxOut) :
    Except WalletFailure Draft :=
  if nChange > 0 then do
    let newTxOut : CTxOut := ⟨nChange, ← scriptChange E wallet args, -10⟩
    if isDust newTxOut fees.discard_rate || bnb_used then return ⟨vout, nFeeRet + nChange, -1⟩
    else if args.nChangePosRequest = -1 then
      let position := rand.getRandInt [pass] (vout.length + 1)
      return ⟨vout.insertIdx position newTxOut, nFeeRet, position⟩
    else if args.nChangePosRequest < 0 ∨ args.nChangePosRequest > vout.length then
      throw (.refused "Change index out of range")
    else return ⟨vout.insertIdx args.nChangePosRequest.toNat newTxOut, nFeeRet, args.nChangePosRequest⟩
  else .ok ⟨vout, nFeeRet, -1⟩

inductive PassOutcome where
  | again (s : FeeLoop)
  | done (draft : Draft) (setCoins : List CInputCoin)

def modifyValue (vout : List CTxOut) (position : Int) (f : Int → Int) : List CTxOut :=
  vout.modify position.toNat (fun txout => { txout with nValue := f txout.nValue })

/-- A pass whose fee suffices. -/
def enoughFee (prototype : CTxOut) (nBytes : Nat) (nFeeNeeded : Int) (pass : Nat) (s : FeeLoop) (draft : Draft) :
    PassOutcome :=
  let k := nSubtractFeeFromAmount args
  let fee_needed_with_change := fees.getMinimumFee pass (nBytes + prototype.serializeSize + 2)
  let minimum_value_for_change := getDustThreshold prototype fees.discard_rate
  if (draft.nChangePosInOut = -1 ∧ k = 0 ∧ s.pick_new_inputs) ∧
      draft.nFeeRet ≥ fee_needed_with_change + minimum_value_for_change then
    .again { s with pick_new_inputs := false, nFeeRet := fee_needed_with_change }
  else if draft.nFeeRet > nFeeNeeded ∧ draft.nChangePosInOut ≠ -1 ∧ k = 0 then
    let extraFeePaid := draft.nFeeRet - nFeeNeeded
    .done { draft with
      vout := modifyValue draft.vout draft.nChangePosInOut (· + extraFeePaid)
      nFeeRet := draft.nFeeRet - extraFeePaid } s.setCoins
  else .done draft s.setCoins

/-- A pass whose fee falls short: less change, or another pass. -/
def tooLittleFee (nFeeNeeded : Int) (s : FeeLoop) (draft : Draft) : Except WalletFailure PassOutcome :=
  let k := nSubtractFeeFromAmount args
  if !s.pick_new_inputs then .error (.refused "Transaction fee and change calculation failed")
  else
    let additionalFeeNeeded := nFeeNeeded - draft.nFeeRet
    let change := ((draft.vout[draft.nChangePosInOut.toNat]?).map CTxOut.nValue).getD 0
    if (draft.nChangePosInOut ≠ -1 ∧ k = 0) ∧ change ≥ MIN_FINAL_CHANGE + additionalFeeNeeded then
      .ok (.done { draft with
        vout := modifyValue draft.vout draft.nChangePosInOut (· - additionalFeeNeeded)
        nFeeRet := draft.nFeeRet + additionalFeeNeeded } s.setCoins)
    else
      .ok (.again { s with
        pick_new_inputs := s.pick_new_inputs && k == 0
        nFeeRet := nFeeNeeded
        use_bnb := false })

def dummyFill (draft : Draft) (setCoins : List CInputCoin) : CTransaction :=
  ⟨setCoins.map (fun coin => { prevout := coin.outpoint }), draft.vout, 1, ctx.height.toNat, 0⟩

def feeNeeded (nBytes : Nat) (pass : Nat) (txNew : CTransaction) : Int :=
  let nFeeNeeded := fees.getMinimumFee pass nBytes
  if args.fUseInstantSend then max nFeeNeeded (CTxLockRequest.getMinFee ⟨txNew⟩) else nFeeNeeded

/-- One pass of the fee loop. -/
def feePass (vAvailableCoins : List COutput) (prototype : CTxOut) (nValue : Int) (pass : Nat) (s : FeeLoop) :
    Except WalletFailure PassOutcome := do
  let nTarget := nValueToSelect args nValue s.nFeeRet
  let vout ← payees fees s.nFeeRet (nSubtractFeeFromAmount args) true args.vecSend
  match ← wallet.pickInputs E ctx fees rand args vAvailableCoins prototype vout nTarget pass s with
  | none => return .again { s with use_bnb := false }
  | some (s, bnb_used) =>
    let draft ← wallet.addChange E fees rand args pass bnb_used (s.nValueIn - nTarget) s.nFeeRet vout
    let txNew := dummyFill ctx draft s.setCoins
    let nBytes := E.maximumSignedTxSize txNew
    let nFeeNeeded := feeNeeded fees args nBytes.toNat pass txNew
    if nBytes < 0 then .error (.refused "Signing transaction failed")
    else if fees.isFallback pass ∧ !wallet.m_allow_fallback_fee then
      .error (.refused "Fee estimation failed. Fallbackfee is disabled. Wait a few blocks or enable -fallbackfee.")
    else if nFeeNeeded < fees.minRelayTxFee.getFee nBytes.toNat then
      .error (.refused "Transaction too large for fee policy")
    else if draft.nFeeRet ≥ nFeeNeeded then .ok (enoughFee fees args prototype nBytes.toNat nFeeNeeded pass s draft)
    else tooLittleFee args nFeeNeeded s draft

/-- The fee loop of `CreateTransaction`. -/
def feeLoop (vAvailableCoins : List COutput) (prototype : CTxOut) (nValue : Int) :
    Nat → Nat → FeeLoop → Except WalletFailure (Draft × List CInputCoin)
  | 0, _, _ => .error .running
  | passes + 1, pass, s => do
    match ← wallet.feePass E ctx fees rand args vAvailableCoins prototype nValue pass s with
    | .again s => feeLoop vAvailableCoins prototype nValue passes (pass + 1) s
    | .done draft setCoins => return (draft, setCoins)

def standardScriptVerifyFlags : ScriptFlags where
  p2sh := true
  strictEnc := true
  derSig := true
  lowS := true
  nullDummy := true
  minimalData := true
  discourageUpgradableNops := true
  cleanStack := true
  checkLockTimeVerify := true
  checkSequenceVerify := true
  witness := true
  discourageUpgradableWitnessProgram := true
  minimalIf := true
  nullFail := true
  witnessPubkeyType := true
  constScriptCode := true

def signatureContext (txNew : CTransaction) (nIn : Nat) (txin : CTxIn) (txout : CTxOut) : EvalContext where
  hashes := E.hashes
  checkLowS := E.checkLowS
  flags := standardScriptVerifyFlags
  checker := transactionSignatureChecker (E.checkSig txNew nIn txout) txNew txin
  sigversion := .base

def produceSignature (txNew : CTransaction) (nIn : Nat) (txin : CTxIn) (txout : CTxOut) : Option SignatureData :=
  let sigdata := E.signStep txNew nIn txout
  match verifyScript (signatureContext E txNew nIn txin txout) sigdata.scriptSig txout.scriptPubKey
    sigdata.scriptWitness with
  | .ok () => if sigdata.solved then some sigdata else none
  | .error _ => none

/-- Signs the inputs one after another. -/
def signInputs : Nat → List CInputCoin → CTransaction → Except WalletFailure CTransaction
  | _, [], txNew => .ok txNew
  | nIn, coin :: selected_coins, txNew =>
    match txNew.vin[nIn]? with
    | none => .error (.exception "vector::_M_range_check")
    | some txin =>
      match produceSignature E txNew nIn txin coin.txout with
      | none => .error (.refused "Signing transaction failed")
      | some sigdata =>
        let signed := { txin with scriptSig := sigdata.scriptSig, scriptWitness := sigdata.scriptWitness }
        signInputs (nIn + 1) selected_coins { txNew with vin := txNew.vin.set nIn signed }

def signTransaction (selected_coins : List CInputCoin) (txNew : CTransaction) : Except WalletFailure CTransaction :=
  if args.sign then signInputs E 0 selected_coins txNew else .ok txNew

def finalTransaction (draft : Draft) (selected_coins : List CInputCoin) : CTransaction :=
  let nSequence :=
    if args.coin_control.m_signal_bip125_rbf.getD wallet.m_signal_rbf then MAX_BIP125_RBF_SEQUENCE
      else SEQUENCE_FINAL - 1
  ⟨selected_coins.map (fun coin => { prevout := coin.outpoint, nSequence := nSequence }), draft.vout, 1,
    ctx.height.toNat, 0⟩

structure Created where
  tx : CTransaction
  nFeeRet : Int
  nChangePosInOut : Int
deriving DecidableEq, Repr

def finishTransaction (draft : Draft) (tx : CTransaction) : Except WalletFailure Created :=
  if E.getTransactionWeight tx > MAX_STANDARD_TX_WEIGHT then .error (.refused "Transaction too large")
  else if wallet.fRejectLongChains ∧ !ctx.withinChainLimits tx then
    .error (.refused "Transaction has too long of a mempool chain")
  else .ok ⟨tx, draft.nFeeRet, draft.nChangePosInOut⟩

/-- `CreateTransaction`. -/
def createTransaction (passes : Nat) : Except WalletFailure Created := do
  let nValue ← recipientsTotal 0 args.vecSend
  if args.vecSend.isEmpty then .error (.refused "Transaction must have at least one recipient")
  else if ctx.height < 0 ∨ ctx.height ≥ LOCKTIME_THRESHOLD then
    .error (.exception "assertion txNew.nLockTime < LOCKTIME_THRESHOLD")
  else do
    let vAvailableCoins ← orException (wallet.availableCoins E ctx {} args.coin_control)
    let prototype ← wallet.changePrototype E args
    let (draft, setCoins) ←
      wallet.feeLoop E ctx fees rand args vAvailableCoins prototype nValue passes 0 (startLoop args)
    let selected_coins := rand.shuffle [] setCoins
    let txNew ← signTransaction E args selected_coins (wallet.finalTransaction ctx args draft selected_coins)
    wallet.finishTransaction E ctx draft { txNew with hash := E.computeHash txNew }

end CWallet

end Qstees
