import Qstees.Model.Compressor

/-!
# The format of transactions

`fAllowWitness` is the flag in the version of the stream. `nRounds` of an output is not sent: the reader makes outputs
with the initial value. -/

namespace Qstees

open Codec

structure CMutableTransaction where
  vin : List CTxIn
  vout : List CTxOut
  nVersion : Int
  nLockTime : Nat
deriving DecidableEq

def CMutableTransaction.hasWitness (tx : CMutableTransaction) : Bool :=
  tx.vin.any (fun txin => !txin.scriptWitness.isEmpty)

section Vectors

variable {α : Type}

def writeVector (write : α → List UInt8) (v : List α) : List UInt8 := writeCompactSize v.length ++ v.flatMap write

def readVector (read : Reader α) : Reader (List α) := do
  let nSize ← readCompactSize
  repeated read nSize

def writeBytes (v : List UInt8) : List UInt8 := writeCompactSize v.length ++ v

def readBytes : Reader (List UInt8) := do
  let nSize ← readCompactSize
  take nSize

end Vectors

def readNat (k : Nat) : Reader Nat := do
  let bytes ← take k
  return readLE bytes

def writeInt (k : Nat) (x : Int) : List UInt8 := writeLE k (x % (256 ^ k : Nat)).toNat

def readInt (k : Nat) : Reader Int := do
  let n ← readNat k
  return Int.bmod n (256 ^ k)

def serializeInput (txin : CTxIn) : List UInt8 :=
  (writeLE 32 txin.prevout.hash).reverse ++ (writeLE 4 txin.prevout.n ++
    (writeBytes txin.scriptSig ++ writeLE 4 txin.nSequence))

def unserializeInput : Reader CTxIn := do
  let bytes ← take 32
  let n ← readNat 4
  let scriptSig ← readBytes
  let nSequence ← readNat 4
  return ⟨⟨readLE bytes.reverse, n⟩, scriptSig, nSequence, []⟩

def serializeOutput (out : CTxOut) : List UInt8 := writeInt 8 out.nValue ++ writeBytes out.scriptPubKey

def unserializeOutput : Reader CTxOut := do
  let nValue ← readInt 8
  let scriptPubKey ← readBytes
  return ⟨nValue, scriptPubKey, -10⟩

def writeWitness (txin : CTxIn) : List UInt8 := writeVector writeBytes txin.scriptWitness

def readWitnesses : List CTxIn → Reader (List CTxIn)
  | [] => pure []
  | txin :: vin => do
    let stack ← readVector readBytes
    let vin ← readWitnesses vin
    return { txin with scriptWitness := stack } :: vin

/-- `SerializeTransaction`. -/
def serializeTransaction (fAllowWitness : Bool) (tx : CMutableTransaction) : List UInt8 :=
  let flags : UInt8 := if fAllowWitness && tx.hasWitness then 1 else 0
  let vinDummy : List CTxIn := []
  writeInt 4 tx.nVersion ++
    ((if flags ≠ 0 then writeVector serializeInput vinDummy ++ [flags] else []) ++
      (writeVector serializeInput tx.vin ++ (writeVector serializeOutput tx.vout ++
        ((if flags &&& 1 ≠ 0 then tx.vin.flatMap writeWitness else []) ++ writeLE 4 tx.nLockTime))))

/-- The flags, the inputs and the outputs; an empty vector of inputs may be the dummy. -/
def readInsOuts (fAllowWitness : Bool) : Reader (UInt8 × List CTxIn × List CTxOut) := do
  let vin ← readVector unserializeInput
  if vin = [] ∧ fAllowWitness then
    let flags ← byte
    if flags ≠ 0 then
      let vin ← readVector unserializeInput
      let vout ← readVector unserializeOutput
      return (flags, vin, vout)
    else return (flags, [], [])
  else
    let vout ← readVector unserializeOutput
    return (0, vin, vout)

def readFlagged (fAllowWitness : Bool) (flags : UInt8) (vin : List CTxIn) : Reader (UInt8 × List CTxIn) :=
  if flags &&& 1 ≠ 0 ∧ fAllowWitness then do
    let vin ← readWitnesses vin
    return (flags ^^^ 1, vin)
  else return (flags, vin)

/-- `UnserializeTransaction`. -/
def unserializeTransaction (fAllowWitness : Bool) : Reader CMutableTransaction := do
  let nVersion ← readInt 4
  let (flags, vin, vout) ← readInsOuts fAllowWitness
  let (flags, vin) ← readFlagged fAllowWitness flags vin
  if flags ≠ 0 then throw "Unknown transaction optional data"
  else
    let nLockTime ← readNat 4
    return ⟨vin, vout, nVersion, nLockTime⟩

end Qstees
