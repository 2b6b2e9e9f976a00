import Qstees.Model.Payments
import Qstees.Model.Validation

/-!
# Block checks that depend on the previous block

`ContextualCheckBlock`, between `CheckBlock` and `ConnectBlock`. A block of the model has no header, so its time and
what the version bits say of the deployments are parameters, like the merkle root of the witnesses and the weight.
-/

namespace Qstees

/-- `CScript << int64_t`. -/
def pushInt (script : CScript) (n : Int) : CScript :=
  if n = -1 ∨ (1 ≤ n ∧ n ≤ 16) then pushOp script (UInt8.ofInt (n + 0x50))
  else if n = 0 then pushOp script 0
  else pushData script (serializeNum n)

def CTransaction.hasWitness (tx : CTransaction) : Bool := tx.vin.any (fun txin => !txin.scriptWitness.isEmpty)

def isWitnessCommitment (script : CScript) : Bool :=
  decide (38 ≤ script.length) && script.take 6 == [OP_RETURN, 0x24, 0xaa, 0x21, 0xa9, 0xed]

/-- `GetWitnessCommitmentIndex`: the last such output of the coinbase, `none` for -1. -/
def getWitnessCommitmentIndex (block : CBlock) : Option Nat :=
  match block.vtx with
  | [] => none
  | coinbase :: _ => (List.range coinbase.vout.length).foldl (fun commitpos o =>
      if coinbase.vout[o]?.any (fun txout => isWitnessCommitment txout.scriptPubKey) then some o else commitpos) none

structure ContextualEnv where
  BIP34Height : Int
  csvActive : Bool
  segwitActive : Bool
  getMedianTimePast : Int
  getBlockTime : Int
  blockWitnessMerkleRoot : CBlock → List UInt8
  hash256 : List UInt8 → List UInt8
  blockWeight : CBlock → Nat

variable (X : ContextualEnv)

/-- The witness part of `ContextualCheckBlock`. -/
def checkWitnessCommitment (block : CBlock) (coinbase : CTransaction) (scriptWitness : List (List UInt8)) :
    Validation Bool :=
  match if X.segwitActive then getWitnessCommitmentIndex block else none with
  | none => pure false
  | some commitpos => do
    Tally.check (decide (scriptWitness.length = 1) && scriptWitness.all (fun reserved => decide (reserved.length = 32)))
      (.dos 100 "bad-witness-nonce-size")
    let hashWitness := X.hash256 (X.blockWitnessMerkleRoot block ++ scriptWitness.flatten)
    Tally.check (coinbase.vout[commitpos]?.any (fun txout => (txout.scriptPubKey.drop 6).take 32 == hashWitness))
      (.dos 100 "bad-witness-merkle-match")
    pure true

/-- `ContextualCheckBlock`. `CheckBlock` has seen that there is a coinbase and that it has an input. -/
def contextualCheckBlock (nHeight : Int) (block : CBlock) : Validation Unit := do
  let nLockTimeCutoff := if X.csvActive then X.getMedianTimePast else X.getBlockTime
  Tally.check (block.vtx.all (fun tx => isFinalTx tx nHeight nLockTimeCutoff)) (.dos 10 "bad-txns-nonfinal")
  match block.vtx with
  | ⟨txin :: vin, vout, nVersion, nLockTime, hash⟩ :: _ => do
    Tally.check (decide (nHeight < X.BIP34Height) || (pushInt [] nHeight).isPrefixOf txin.scriptSig)
      (.dos 100 "bad-cb-height")
    let fHaveWitness ← checkWitnessCommitment X block ⟨txin :: vin, vout, nVersion, nLockTime, hash⟩ txin.scriptWitness
    Tally.check (fHaveWitness || block.vtx.all (fun tx => !tx.hasWitness)) (.dos 100 "unexpected-witness")
    Tally.check (decide (X.blockWeight block ≤ MAX_BLOCK_WEIGHT)) (.dos 100 "bad-blk-weight")
  | _ => Tally.fail (.exception "no coinbase input")

def ConnectEnv.withPayees (E : ConnectEnv) (P : PaymentEnv) (R : PayeeRules) (s : CMasternodePayments) : ConnectEnv :=
  { E with isBlockPayeeValid := fun tx nHeight => s.isBlockPayeeValid P R tx.vout nHeight }

end Qstees
