import Qstees.Model.Script

/-!
# Standard scripts and destinations

`Solver` matches a script against templates; `ExtractDestination` reads the address out of
the match and `GetScriptForDestination` goes the other way.
-/

namespace Qstees

structure Hashes where
  ripemd160 : List UInt8 → List UInt8
  sha1 : List UInt8 → List UInt8
  sha256 : List UInt8 → List UInt8
  hash160 : List UInt8 → List UInt8
  hash256 : List UInt8 → List UInt8

inductive TxnOutType where
  | nonstandard | pubkey | pubkeyhash | scripthash | multisig | checklocktimeverify | nullData
  | witnessV0Scripthash | witnessV0Keyhash | witnessUnknown | burnData
deriving DecidableEq, Repr

inductive CTxDestination where
  | noDestination
  | keyID (id : List UInt8)
  | scriptID (id : List UInt8)
  | witnessV0ScriptHash (id : List UInt8)
  | witnessV0KeyHash (id : List UInt8)
  | witnessUnknown (version : Nat) (program : List UInt8)
deriving DecidableEq, Repr

def hexDigit (c : Char) : Option Nat :=
  let n := c.toNat
  if 48 ≤ n ∧ n ≤ 57 then some (n - 48)
  else if 65 ≤ n ∧ n ≤ 70 then some (n - 55)
  else if 97 ≤ n ∧ n ≤ 102 then some (n - 87)
  else none

def isSpace (c : Char) : Bool := c.toNat == 32 || (9 ≤ c.toNat && c.toNat ≤ 13)

/-- The loop of `ParseHex`: white space is skipped before a byte, not inside one. -/
def parseHexChars : List Char → List UInt8
  | [] => []
  | [c] => if isSpace c then parseHexChars [] else []
  | c :: d :: cs =>
    if isSpace c then parseHexChars (d :: cs)
    else match hexDigit c, hexDigit d with
      | some hi, some lo => UInt8.ofNat (16 * hi + lo) :: parseHexChars cs
      | _, _ => []

def parseHex (psz : String) : List UInt8 := parseHexChars psz.toList

def encodeOP_N (n : Nat) : Opcode := if n = 0 then OP_0 else UInt8.ofNat (0x50 + n)

def keyIDScript (id : List UInt8) : CScript :=
  pushOp (pushOp (pushData (pushOp (pushOp [] OP_DUP) OP_HASH160) id) OP_EQUALVERIFY) OP_CHECKSIG

/-- `GetScriptForDestination`. -/
def getScriptForDestination : CTxDestination → CScript
  | .noDestination => []
  | .keyID id => keyIDScript id
  | .scriptID id => pushOp (pushData (pushOp [] OP_HASH160) id) OP_EQUAL
  | .witnessV0KeyHash id => pushData (pushOp [] OP_0) id
  | .witnessV0ScriptHash id => pushData (pushOp [] OP_0) id
  | .witnessUnknown version program => pushData (pushOp [] (encodeOP_N version)) program

/-- `CScriptVisitor` on a script that is already begun. Only a key keeps what has been written. -/
def scriptVisitor (script : CScript) : CTxDestination → CScript
  | .keyID id => pushOp (pushOp (pushData (pushOp (pushOp script OP_DUP) OP_HASH160) id) OP_EQUALVERIFY) OP_CHECKSIG
  | dest => getScriptForDestination dest

def getTimeLockScriptForDestination (dest : CTxDestination) (smallInt : Int) : CScript :=
  scriptVisitor (pushOp (pushOp (pushData [] (serializeNum smallInt)) OP_CHECKLOCKTIMEVERIFY) OP_DROP) dest

def getScriptForBurn (keyid data : List UInt8) : CScript :=
  if data.isEmpty then pushOp (pushData [] keyid) OP_RETURN
  else pushData (pushOp (pushData [] keyid) OP_RETURN) data

/-- The templates of `Solver`, in the order of its map. -/
def mTemplates : List (TxnOutType × List Opcode) :=
  [(.pubkey, [OP_PUBKEY, OP_CHECKSIG]),
   (.pubkeyhash, [OP_DUP, OP_HASH160, OP_PUBKEYHASH, OP_EQUALVERIFY, OP_CHECKSIG]),
   (.multisig, [OP_SMALLINTEGER, OP_PUBKEYS, OP_SMALLINTEGER, OP_CHECKMULTISIG]),
   (.checklocktimeverify, [OP_LOCKTIMEINTEGER, OP_CHECKLOCKTIMEVERIFY, OP_DROP, OP_DUP, OP_HASH160,
     OP_PUBKEYHASH, OP_EQUALVERIFY, OP_CHECKSIG]),
   (.nullData, [OP_RETURN, OP_SMALLDATA]),
   (.nullData, [OP_RETURN]),
   (.burnData, [OP_PUBKEYHASH, OP_RETURN, OP_SMALLDATA]),
   (.burnData, [OP_PUBKEYHASH, OP_RETURN])]

def nMaxDatacarrierBytes : Nat := 103

/-- One opcode of a script against one of a template. -/
def matchOpcode (opcode1 : Opcode) (vch1 : List UInt8) (opcode2 : Opcode) :
    Except String (Option (List (List UInt8))) :=
  if opcode2 = OP_PUBKEY then
    .ok (if vch1.length < 33 ∨ vch1.length > 65 then none else some [vch1])
  else if opcode2 = OP_PUBKEYHASH then
    .ok (if vch1.length ≠ 20 then none else some [vch1])
  else if opcode2 = OP_SMALLINTEGER then
    .ok (if opcode1 = OP_0 ∨ (OP_1 ≤ opcode1 ∧ opcode1 ≤ OP_16) then
      some [[UInt8.ofNat (decodeOP_N opcode1).toNat]] else none)
  else if opcode2 = OP_LOCKTIMEINTEGER then
    if 0 < opcode1 ∧ opcode1 < 6 then (fun _ => some []) <$> scriptNum vch1 true 5 else .ok none
  else if opcode2 = OP_SMALLDATA then
    .ok (if vch1.length > nMaxDatacarrierBytes then none else some [vch1])
  else .ok (if opcode1 ≠ opcode2 ∨ vch1 ≠ [] then none else some [])

/-- The loop under `OP_PUBKEYS`. After a failed `GetOp` the opcode is invalid, which no
template continues with, so the position it leaves is never read. -/
def takePubkeys : Nat → Opcode → List UInt8 → CScript → List (List UInt8) →
    Opcode × List UInt8 × CScript × List (List UInt8)
  | 0, opcode1, vch1, pc1, sol => (opcode1, vch1, pc1, sol)
  | fuel + 1, opcode1, vch1, pc1, sol =>
    if 33 ≤ vch1.length ∧ vch1.length ≤ 65 then
      match getScriptOp pc1 with
      | none => (OP_INVALIDOPCODE, [], pc1, sol ++ [vch1])
      | some (opcode1, vch1', pc1) => takePubkeys fuel opcode1 vch1' pc1 (sol ++ [vch1])
    else (opcode1, vch1, pc1, sol)

/-- A script against a template. -/
def matchTemplate : List Opcode → CScript → List (List UInt8) → Except String (Option (List (List UInt8)))
  | [], pc1, sol => .ok (if pc1.isEmpty then some sol else none)
  | opcode2 :: pc2, pc1, sol =>
    match getScriptOp pc1 with
    | none => .ok none
    | some (opcode1, vch1, pc1) =>
      if opcode2 = OP_PUBKEYS then
        let (opcode1, vch1, pc1, sol) := takePubkeys (pc1.length + 1) opcode1 vch1 pc1 sol
        match pc2 with
        | [] => .ok none
        | opcode2 :: pc2 => do
          match ← matchOpcode opcode1 vch1 opcode2 with
          | none => return none
          | some new => matchTemplate pc2 pc1 (sol ++ new)
      else do
        match ← matchOpcode opcode1 vch1 opcode2 with
        | none => return none
        | some new => matchTemplate pc2 pc1 (sol ++ new)

structure Solved where
  ret : Bool
  typeRet : TxnOutType
  vSolutionsRet : List (List UInt8)
deriving DecidableEq, Repr

def multisigOk (sol : List (List UInt8)) : Bool :=
  let m := ((sol.head?.bind List.head?).getD 0).toNat
  let n := ((sol.getLast?.bind List.head?).getD 0).toNat
  !(decide (m < 1) || decide (n < 1) || decide (m > n) || sol.length - 2 != n)

def scanTemplates (script1 : CScript) : List (TxnOutType × List Opcode) → Except String Solved
  | [] => .ok ⟨false, .nonstandard, []⟩
  | (type, script2) :: rest => do
    match ← matchTemplate script2 script1 [] with
    | some sol =>
      if type = .multisig then return ⟨multisigOk sol, type, sol⟩ else return ⟨true, type, sol⟩
    | none => scanTemplates script1 rest

/-- `Solver`. -/
def solver (scriptPubKey : CScript) : Except String Solved :=
  if isPayToScriptHash scriptPubKey then
    .ok ⟨true, .scripthash, [(scriptPubKey.drop 2).take 20]⟩
  else scanTemplates scriptPubKey mTemplates

def pubKeyLen (chHeader : UInt8) : Nat :=
  if chHeader = 2 ∨ chHeader = 3 then 33
  else if chHeader = 4 ∨ chHeader = 6 ∨ chHeader = 7 then 65
  else 0

def pubKeyIsValid : List UInt8 → Bool
  | [] => false
  | b :: bs => pubKeyLen b == bs.length + 1

/-- `ExtractDestination`. -/
def extractDestination (H : Hashes) (scriptPubKey : CScript) : Except String (Option CTxDestination) := do
  let s ← solver scriptPubKey
  if !s.ret then return none
  match s.typeRet, s.vSolutionsRet with
  | .pubkey, v :: _ => return if pubKeyIsValid v then some (.keyID (H.hash160 v)) else none
  | .pubkeyhash, v :: _ => return some (.keyID v)
  | .burnData, v :: _ => return some (.keyID v)
  | .checklocktimeverify, v :: _ => return some (.keyID v)
  | .scripthash, v :: _ => return some (.scriptID v)
  | .witnessV0Keyhash, v :: _ => return some (.witnessV0KeyHash v)
  | .witnessV0Scripthash, v :: _ => return some (.witnessV0ScriptHash v)
  | .witnessUnknown, (version :: _) :: program :: _ => return some (.witnessUnknown version.toNat program)
  | _, _ => return none

/-- `ExtractDestination` throws: it lets the exception of `Solver` out and has none of its own. -/
def extractionThrows (scriptPubKey : CScript) : Bool := !(solver scriptPubKey).isOk

/-- What `ExtractDestinations` returns and leaves in its output arguments; `nRequiredRet` is
not always written. -/
structure Destinations where
  ret : Bool
  typeRet : TxnOutType
  addressRet : List CTxDestination
  nRequiredRet : Option Nat
deriving DecidableEq, Repr

/-- `vSolutions.front()[0]`; on an empty vector the C++ read is undefined. -/
def frontByte : List (List UInt8) → Except String UInt8
  | (b :: _) :: _ => .ok b
  | _ => .error "read past the end of the solutions"

/-- `ExtractDestinations`. -/
def extractDestinations (H : Hashes) (scriptPubKey : CScript) : Except String Destinations := do
  let s ← solver scriptPubKey
  if !s.ret then return ⟨false, s.typeRet, [], none⟩
  if s.typeRet = .nullData then return ⟨false, s.typeRet, [], none⟩
  if s.typeRet = .multisig then
    let m ← frontByte s.vSolutionsRet
    let pubKeys := (s.vSolutionsRet.drop 1).dropLast.filter pubKeyIsValid
    return ⟨!pubKeys.isEmpty, s.typeRet, pubKeys.map (fun v => .keyID (H.hash160 v)), some m.toNat⟩
  match ← extractDestination H scriptPubKey with
  | none => return ⟨false, s.typeRet, [], some 1⟩
  | some address => return ⟨true, s.typeRet, [address], some 1⟩

end Qstees
