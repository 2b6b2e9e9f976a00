import Qstees.Library.Tally
import Qstees.Model.Script

/-!
# Context-free transaction rules and term-deposit interest

Amounts are added in a `Tally`, which keeps the exact value of every 64-bit sum.
-/

namespace Qstees

/-- How a validation function stops: `state.DoS` with its level and reason (`state.Invalid`
is level 0), or an exception or failed assertion with its text. -/
inductive Failure where
  | dos (level : Nat) (reason : String)
  | exception (what : String)
deriving DecidableEq, Repr

abbrev Validation := Tally Failure

def liftException {α : Type} (x : Except String α) : Validation α :=
  Tally.lift (x.mapError Failure.exception)

def sum64 (a b : Int) : Validation Int := Tally.record (a + b)

def BLOCKSPERDAY : Int := 720

def THIRTYDAYS : Int := BLOCKSPERDAY * 30

def THREEMONTHS : Int := THIRTYDAYS * 3

def compound (shift entry : Nat) : Nat := (entry + entry / 2 ^ shift) % 2 ^ 64

def rateTable : Nat → Nat
  | 0 => 2 ^ 62
  | i + 1 => compound 22 (rateTable i)

def bonusTable : Nat → Nat
  | 0 => 2 ^ 58
  | i + 1 => compound 20 (bonusTable i)

/-- The growth of an amount over the periods of a table. -/
def growthForAmount (table : Nat → Nat) (periods : Int) (theAmount : Int) : Validation Int :=
  if periods ≤ 0 ∨ theAmount ≤ 0 then pure 0
  else Tally.record (theAmount * table periods.toNat / table 0 % 2 ^ 64 - theAmount)

def getRateForAmount : Int → Int → Validation Int := growthForAmount rateTable

def getBonusForAmount : Int → Int → Validation Int := growthForAmount bonusTable

/-- The bonus of an output made in the first three months. -/
def bonusInterest (bonusForAmount : Int → Int → Validation Int) (outputBlockHeight blocks nValue : Int) :
    Validation Int :=
  if outputBlockHeight < THREEMONTHS then bonusForAmount blocks nValue else pure 0

/-- `GetInterest`, with the two functions that read the tables as parameters. -/
def getInterestFrom (rateForAmount bonusForAmount : Int → Int → Validation Int)
    (nValue outputBlockHeight valuationHeight maturationBlock : Int) : Validation Int :=
  if maturationBlock ≥ 500000000 ∨ outputBlockHeight < 0 ∨ outputBlockHeight ≥ 170000 ∨ valuationHeight < 0 ∨
      valuationHeight < outputBlockHeight then pure nValue
  else do
    let blocks := if maturationBlock > 0 then min THIRTYDAYS (maturationBlock - outputBlockHeight) else 0
    let standardInterest ← rateForAmount blocks nValue
    let bonusAmount ← bonusInterest bonusForAmount outputBlockHeight blocks nValue
    let interestAmount ← sum64 standardInterest bonusAmount
    let interestAmount :=
      if maturationBlock > 0 ∧ min THIRTYDAYS (maturationBlock - outputBlockHeight) < BLOCKSPERDAY * 1 then 0
      else interestAmount
    let total ← sum64 nValue interestAmount
    sum64 total 0

def getInterest : Int → Int → Int → Int → Validation Int := getInterestFrom getRateForAmount getBonusForAmount

def ONEYEARPLUS1 : Int := BLOCKSPERDAY * 365 + 1

/-- The indexes at which `GetInterest` reads the tables, through `getRateForAmount` and `getBonusForAmount`. -/
def tableReads (nValue outputBlockHeight valuationHeight maturationBlock : Int) : List Int :=
  if maturationBlock ≥ 500000000 ∨ outputBlockHeight < 0 ∨ outputBlockHeight ≥ 170000 ∨ valuationHeight < 0 ∨
      valuationHeight < outputBlockHeight then []
  else
    let blocks := if maturationBlock > 0 then min THIRTYDAYS (maturationBlock - outputBlockHeight) else 0
    if blocks ≤ 0 ∨ nValue ≤ 0 then [] else [blocks, 0]

/-- `GetValueWithInterest`. -/
def CTxOut.getValueWithInterest (out : CTxOut) (outputBlockHeight valuationHeight : Int) : Validation Int := do
  let maturationBlock ← liftException (getTermDepositReleaseBlock out.scriptPubKey)
  getInterest out.nValue outputBlockHeight valuationHeight maturationBlock

def addOutput (nValueOut : Int) (txout : CTxOut) : Validation Int := do
  let nValueOut ← sum64 nValueOut txout.nValue
  Tally.check (moneyRange txout.nValue && moneyRange nValueOut) (.exception "GetValueOut: value out of range")
  pure nValueOut

def CTransaction.getValueOut (tx : CTransaction) : Validation Int := Tally.fold addOutput 0 tx.vout

def checkOutput (nValueOut : Int) (txout : CTxOut) : Validation Int := do
  Tally.check (decide (0 ≤ txout.nValue)) (.dos 100 "bad-txns-vout-negative")
  Tally.check (decide (txout.nValue ≤ MAX_MONEY)) (.dos 100 "bad-txns-vout-toolarge")
  let nValueOut ← sum64 nValueOut txout.nValue
  Tally.check (moneyRange nValueOut) (.dos 100 "bad-txns-txouttotal-toolarge")
  pure nValueOut

def checkOutputs (vout : List CTxOut) : Validation Int := Tally.fold checkOutput 0 vout

def WITNESS_SCALE_FACTOR : Nat := 4

def MAX_BLOCK_WEIGHT : Nat := 64000000

def duplicateInput : List COutPoint → List CTxIn → Bool
  | _, [] => false
  | seen, txin :: vin => txin.prevout ∈ seen || duplicateInput (txin.prevout :: seen) vin

/-- `CheckTransaction`. -/
def checkTransaction (serializeSize : CTransaction → Nat) (tx : CTransaction) (fCheckDuplicateInputs : Bool) :
    Validation Unit := do
  Tally.check (!tx.vin.isEmpty) (.dos 10 "bad-txns-vin-empty")
  Tally.check (!tx.vout.isEmpty) (.dos 10 "bad-txns-vout-empty")
  Tally.check (decide (serializeSize tx * WITNESS_SCALE_FACTOR ≤ MAX_BLOCK_WEIGHT)) (.dos 100 "bad-txns-oversize")
  let _ ← checkOutputs tx.vout
  Tally.check (!(fCheckDuplicateInputs && duplicateInput [] tx.vin)) (.dos 100 "bad-txns-inputs-duplicate")
  if tx.isCoinBase then
    Tally.check (tx.vin.all (fun txin => decide (2 ≤ txin.scriptSig.length ∧ txin.scriptSig.length ≤ 100)))
      (.dos 100 "bad-cb-length")
  else
    Tally.check (tx.vin.all (fun txin => !txin.prevout.isNull)) (.dos 10 "bad-txns-prevout-null")

/-- `IsFinalTx`. -/
def isFinalTx (tx : CTransaction) (nBlockHeight nBlockTime : Int) : Bool :=
  if tx.nLockTime = 0 then true
  else if (tx.nLockTime : Int) < (if (tx.nLockTime : Int) < LOCKTIME_THRESHOLD then nBlockHeight else nBlockTime) then
    true
  else tx.vin.all (fun txin => txin.nSequence == SEQUENCE_FINAL)

end Qstees
