import Qstees.Library.Codec
import Qstees.Model.Coins

/-!
# The formats of coins and undo data

`CTxOutCompressor` stores an amount and a script, `Coin` and the undo records put the height and the coinbase flag
before it. A stream is a list of bytes. `nRounds` of an output is not stored: the reader leaves what was there. -/

namespace Qstees

open Codec

def writeVarIntOf (w n : Nat) : List UInt8 := writeVarInt ((w + 6) / 7) n

def readVarIntOf (w : Nat) : Reader Nat := readVarInt (2 ^ w - 1)

def MAX_SIZE : Nat := 0x02000000

def writeLE : Nat → Nat → List UInt8
  | 0, _ => []
  | k + 1, n => UInt8.ofNat (n % 256) :: writeLE k (n / 256)

/-- `WriteCompactSize`. -/
def writeCompactSize (nSize : Nat) : List UInt8 :=
  if nSize < 253 then [UInt8.ofNat nSize]
  else if nSize ≤ 0xffff then 253 :: writeLE 2 nSize
  else if nSize ≤ 0xffffffff then 254 :: writeLE 4 nSize
  else 255 :: writeLE 8 nSize

def readSize (k min : Nat) : Reader Nat := do
  let nSizeRet := readLE (← take k)
  if nSizeRet < min then throw "non-canonical ReadCompactSize()" else pure nSizeRet

def readSizeAfter (chSize : UInt8) : Reader Nat :=
  if chSize < 253 then pure chSize.toNat
  else if chSize = 253 then readSize 2 253
  else if chSize = 254 then readSize 4 0x10000
  else readSize 8 0x100000000

/-- `ReadCompactSize`. -/
def readCompactSize : Reader Nat := do
  let chSize ← byte
  let nSizeRet ← readSizeAfter chSize
  if nSizeRet > MAX_SIZE then throw "ReadCompactSize(): size too large" else pure nSizeRet

def divideZeros : Nat → Nat → Nat → Nat × Nat
  | 0, n, e => (n, e)
  | fuel + 1, n, e => if n % 10 = 0 then divideZeros fuel (n / 10) (e + 1) else (n, e)

/-- `CompressAmount`. -/
def compressAmount (n : Nat) : Nat :=
  if n = 0 then 0
  else
    let (n, e) := divideZeros 9 n 0
    if e < 9 then
      let d := n % 10
      let n := n / 10
      (1 + (n * 9 + d - 1) * 10 + e) % 2 ^ 64
    else (1 + (n - 1) * 10 + 9) % 2 ^ 64

def multiplyTens : Nat → Nat → Nat
  | 0, n => n
  | e + 1, n => multiplyTens e (n * 10 % 2 ^ 64)

/-- `DecompressAmount`. -/
def decompressAmount (x : Nat) : Nat :=
  if x = 0 then 0
  else
    let x := x - 1
    let e := x % 10
    let x := x / 10
    if e < 9 then
      let d := x % 9 + 1
      multiplyTens e ((x / 9 * 10 + d) % 2 ^ 64)
    else multiplyTens e ((x + 1) % 2 ^ 64)

/-- The curve: `IsFullyValid` and `Decompress` of a public key, inverse to storing the parity of its last byte and the
first coordinate. -/
structure PubKeyOps where
  isFullyValid : List UInt8 → Bool
  decompress : List UInt8 → Option (List UInt8)
  decompress_compress : ∀ (x y : List UInt8) (b : UInt8), x.length = 32 → y.length = 31 →
    isFullyValid (0x04 :: (x ++ (y ++ [b]))) = true →
    decompress ((0x02 ||| (b &&& 0x01)) :: x) = some (0x04 :: (x ++ (y ++ [b])))

section Scripts

variable (P : PubKeyOps)

def isToKeyID (script : CScript) : Option (List UInt8) :=
  if script.length = 25 ∧ script[0]? = some OP_DUP ∧ script[1]? = some OP_HASH160 ∧ script[2]? = some 20 ∧
      script[23]? = some OP_EQUALVERIFY ∧ script[24]? = some OP_CHECKSIG then some ((script.drop 3).take 20)
  else none

def isToScriptID (script : CScript) : Option (List UInt8) :=
  if script.length = 23 ∧ script[0]? = some OP_HASH160 ∧ script[1]? = some 20 ∧ script[22]? = some OP_EQUAL then
    some ((script.drop 2).take 20)
  else none

def isToPubKey (script : CScript) : Option (List UInt8) :=
  if script.length = 35 ∧ script[0]? = some 33 ∧ script[34]? = some OP_CHECKSIG ∧
      (script[1]? = some 0x02 ∨ script[1]? = some 0x03) then some ((script.drop 1).take 33)
  else if script.length = 67 ∧ script[0]? = some 65 ∧ script[66]? = some OP_CHECKSIG ∧ script[1]? = some 0x04 then
    let pubkey := (script.drop 1).take 65
    if P.isFullyValid pubkey then some pubkey else none
  else none

/-- `CScriptCompressor::Compress`. -/
def compressScript (script : CScript) : Option (List UInt8) :=
  match isToKeyID script with
  | some keyID => some (0x00 :: keyID)
  | none =>
    match isToScriptID script with
    | some scriptID => some (0x01 :: scriptID)
    | none =>
      match isToPubKey P script with
      | some (header :: coordinates) =>
        if header = 0x02 ∨ header = 0x03 then some (header :: coordinates.take 32)
        else if header = 0x04 then
          some ((0x04 ||| ((coordinates[63]?).getD 0 &&& 0x01)) :: coordinates.take 32)
        else none
      | _ => none

def getSpecialScriptSize (nSize : Nat) : Nat := if nSize = 0 ∨ nSize = 1 then 20 else if nSize ≤ 5 then 32 else 0

/-- `DecompressScript`; none if it returns false. A decompressed key has 65 bytes. -/
def decompressScript (nSize : Nat) (vch : List UInt8) : Option CScript :=
  match nSize with
  | 0 => some ([OP_DUP, OP_HASH160, 20] ++ vch ++ [OP_EQUALVERIFY, OP_CHECKSIG])
  | 1 => some ([OP_HASH160, 20] ++ vch ++ [OP_EQUAL])
  | 2 | 3 => some ([33, UInt8.ofNat nSize] ++ vch ++ [OP_CHECKSIG])
  | 4 | 5 => (P.decompress (UInt8.ofNat (nSize - 2) :: vch)).map (fun pubkey => [65] ++ pubkey ++ [OP_CHECKSIG])
  | _ => none

def nSpecialScripts : Nat := 6

def serializeScript (script : CScript) : List UInt8 :=
  match compressScript P script with
  | some compr => compr
  | none => writeVarIntOf 32 ((script.length + nSpecialScripts) % 2 ^ 32) ++ script

/-- Reads a script, decompressed where it was compressed. -/
def unserializeScript (script : CScript) : Reader CScript := do
  let nSize ← readVarIntOf 32
  if nSize < nSpecialScripts then
    let vch ← take (getSpecialScriptSize nSize)
    pure ((decompressScript P nSize vch).getD script)
  else if nSize - nSpecialScripts > MAX_SCRIPT_SIZE then
    let _ ← take (nSize - nSpecialScripts)
    pure (script ++ [OP_RETURN])
  else take (nSize - nSpecialScripts)

def serializeTxOut (txout : CTxOut) : List UInt8 :=
  writeVarIntOf 64 (compressAmount (txout.nValue % 2 ^ 64).toNat) ++ serializeScript P txout.scriptPubKey

def unserializeTxOut (txout : CTxOut) : Reader CTxOut := do
  let nVal ← readVarIntOf 64
  let scriptPubKey ← unserializeScript P txout.scriptPubKey
  return { txout with nValue := wrap64 (decompressAmount nVal), scriptPubKey := scriptPubKey }

/-- The height and the flag in one number. A bit field of 31 bits is promoted to `int`, but the product is converted
back. -/
def Coin.code (coin : Coin) : Nat := (coin.nHeight * 2 + coin.fCoinBase.toNat) % 2 ^ 32

def Coin.serialize (coin : Coin) : Except String (List UInt8) :=
  if coin.isSpent then .error "Assertion failed: !IsSpent()"
  else .ok (writeVarIntOf 32 coin.code ++ serializeTxOut P coin.out)

def Coin.unserialize (coin : Coin) : Reader Coin := do
  let code ← readVarIntOf 32
  let out ← unserializeTxOut P coin.out
  return ⟨out, code % 2 == 1, code / 2⟩

def serializeTxInUndo (coin : Coin) : List UInt8 :=
  writeVarIntOf 32 coin.code ++ (if coin.nHeight > 0 then [0] else []) ++ serializeTxOut P coin.out

/-- Reads a spent coin, behind the old version number. -/
def unserializeTxInUndo (coin : Coin) : Reader Coin := do
  let nCode ← readVarIntOf 32
  if nCode / 2 > 0 then
    let _nVersionDummy ← readVarIntOf 32
    let out ← unserializeTxOut P coin.out
    return ⟨out, nCode % 2 == 1, nCode / 2⟩
  else
    let out ← unserializeTxOut P coin.out
    return ⟨out, nCode % 2 == 1, nCode / 2⟩

/-- `MAX_BLOCK_WEIGHT / MIN_TRANSACTION_INPUT_WEIGHT`; an empty input serializes to 41 bytes. -/
def MAX_INPUTS_PER_BLOCK : Nat := MAX_BLOCK_WEIGHT / (WITNESS_SCALE_FACTOR * 41)

def serializeTxUndo (vprevout : List Coin) : List UInt8 :=
  writeCompactSize vprevout.length ++ vprevout.flatMap (serializeTxInUndo P)

def unserializeTxUndo : Reader (List Coin) := do
  let count ← readCompactSize
  if count > MAX_INPUTS_PER_BLOCK then throw "Too many input undo records"
  else repeated (unserializeTxInUndo P .empty) count

def serializeBlockUndo (vtxundo : List (List Coin)) : List UInt8 :=
  writeCompactSize vtxundo.length ++ vtxundo.flatMap (serializeTxUndo P)

def unserializeBlockUndo : Reader (List (List Coin)) := do
  let nSize ← readCompactSize
  repeated (unserializeTxUndo P) nSize

end Scripts

end Qstees
