import Qstees.Model.Primitives

/-!
# Scripts

Opcodes, script numbers, the instruction decoder, and the recognisers built on them:
`CScript::GetTermDepositReleaseBlock`, `Solver` and `ExtractDestination`. A C++ exception is
an `Except` error carrying its text; so is a read past the end of a script.
-/

namespace Qstees

abbrev Opcode := UInt8

abbrev OP_0 : Opcode := 0x00
abbrev OP_PUSHDATA1 : Opcode := 0x4c
abbrev OP_PUSHDATA2 : Opcode := 0x4d
abbrev OP_PUSHDATA4 : Opcode := 0x4e
abbrev OP_1NEGATE : Opcode := 0x4f
abbrev OP_1 : Opcode := 0x51
abbrev OP_16 : Opcode := 0x60
abbrev OP_NOP : Opcode := 0x61
abbrev OP_IF : Opcode := 0x63
abbrev OP_NOTIF : Opcode := 0x64
abbrev OP_ELSE : Opcode := 0x67
abbrev OP_ENDIF : Opcode := 0x68
abbrev OP_VERIFY : Opcode := 0x69
abbrev OP_RETURN : Opcode := 0x6a
abbrev OP_TOALTSTACK : Opcode := 0x6b
abbrev OP_FROMALTSTACK : Opcode := 0x6c
abbrev OP_2DROP : Opcode := 0x6d
abbrev OP_2DUP : Opcode := 0x6e
abbrev OP_3DUP : Opcode := 0x6f
abbrev OP_2OVER : Opcode := 0x70
abbrev OP_2ROT : Opcode := 0x71
abbrev OP_2SWAP : Opcode := 0x72
abbrev OP_IFDUP : Opcode := 0x73
abbrev OP_DEPTH : Opcode := 0x74
abbrev OP_DROP : Opcode := 0x75
abbrev OP_DUP : Opcode := 0x76
abbrev OP_NIP : Opcode := 0x77
abbrev OP_OVER : Opcode := 0x78
abbrev OP_PICK : Opcode := 0x79
abbrev OP_ROLL : Opcode := 0x7a
abbrev OP_ROT : Opcode := 0x7b
abbrev OP_SWAP : Opcode := 0x7c
abbrev OP_TUCK : Opcode := 0x7d
abbrev OP_CAT : Opcode := 0x7e
abbrev OP_SUBSTR : Opcode := 0x7f
abbrev OP_LEFT : Opcode := 0x80
abbrev OP_RIGHT : Opcode := 0x81
abbrev OP_SIZE : Opcode := 0x82
abbrev OP_INVERT : Opcode := 0x83
abbrev OP_AND : Opcode := 0x84
abbrev OP_OR : Opcode := 0x85
abbrev OP_XOR : Opcode := 0x86
abbrev OP_EQUAL : Opcode := 0x87
abbrev OP_EQUALVERIFY : Opcode := 0x88
abbrev OP_1ADD : Opcode := 0x8b
abbrev OP_1SUB : Opcode := 0x8c
abbrev OP_2MUL : Opcode := 0x8d
abbrev OP_2DIV : Opcode := 0x8e
abbrev OP_NEGATE : Opcode := 0x8f
abbrev OP_ABS : Opcode := 0x90
abbrev OP_NOT : Opcode := 0x91
abbrev OP_0NOTEQUAL : Opcode := 0x92
abbrev OP_ADD : Opcode := 0x93
abbrev OP_SUB : Opcode := 0x94
abbrev OP_MUL : Opcode := 0x95
abbrev OP_DIV : Opcode := 0x96
abbrev OP_MOD : Opcode := 0x97
abbrev OP_LSHIFT : Opcode := 0x98
abbrev OP_RSHIFT : Opcode := 0x99
abbrev OP_BOOLAND : Opcode := 0x9a
abbrev OP_BOOLOR : Opcode := 0x9b
abbrev OP_NUMEQUAL : Opcode := 0x9c
abbrev OP_NUMEQUALVERIFY : Opcode := 0x9d
abbrev OP_NUMNOTEQUAL : Opcode := 0x9e
abbrev OP_LESSTHAN : Opcode := 0x9f
abbrev OP_GREATERTHAN : Opcode := 0xa0
abbrev OP_LESSTHANOREQUAL : Opcode := 0xa1
abbrev OP_GREATERTHANOREQUAL : Opcode := 0xa2
abbrev OP_MIN : Opcode := 0xa3
abbrev OP_MAX : Opcode := 0xa4
abbrev OP_WITHIN : Opcode := 0xa5
abbrev OP_RIPEMD160 : Opcode := 0xa6
abbrev OP_SHA1 : Opcode := 0xa7
abbrev OP_SHA256 : Opcode := 0xa8
abbrev OP_HASH160 : Opcode := 0xa9
abbrev OP_HASH256 : Opcode := 0xaa
abbrev OP_CODESEPARATOR : Opcode := 0xab
abbrev OP_CHECKSIG : Opcode := 0xac
abbrev OP_CHECKSIGVERIFY : Opcode := 0xad
abbrev OP_CHECKMULTISIG : Opcode := 0xae
abbrev OP_CHECKMULTISIGVERIFY : Opcode := 0xaf
abbrev OP_NOP1 : Opcode := 0xb0
abbrev OP_CHECKLOCKTIMEVERIFY : Opcode := 0xb1
abbrev OP_CHECKSEQUENCEVERIFY : Opcode := 0xb2
abbrev OP_NOP4 : Opcode := 0xb3
abbrev OP_NOP10 : Opcode := 0xb9
abbrev OP_SMALLDATA : Opcode := 0xf9
abbrev OP_SMALLINTEGER : Opcode := 0xfa
abbrev OP_PUBKEYS : Opcode := 0xfb
abbrev OP_LOCKTIMEINTEGER : Opcode := 0xfc
abbrev OP_PUBKEYHASH : Opcode := 0xfd
abbrev OP_PUBKEY : Opcode := 0xfe
abbrev OP_INVALIDOPCODE : Opcode := 0xff
def MAX_SCRIPT_ELEMENT_SIZE : Nat := 520

def MAX_OPS_PER_SCRIPT : Nat := 201

def MAX_PUBKEYS_PER_MULTISIG : Int := 20

def MAX_SCRIPT_SIZE : Nat := 10000

def MAX_STACK_SIZE : Nat := 1000

def LOCKTIME_THRESHOLD : Int := 500000000

def readLE : List UInt8 → Nat
  | [] => 0
  | b :: bs => b.toNat + 256 * readLE bs

/-- `set_vch`: little-endian with a sign bit. -/
def setVch (vch : List UInt8) : Int :=
  match vch.getLast? with
  | none => 0
  | some back =>
    if back &&& 0x80 ≠ 0 then -((readLE vch - 0x80 * 256 ^ (vch.length - 1) : Nat) : Int)
    else readLE vch

def isMinimalNum (vch : List UInt8) : Bool :=
  match vch.reverse with
  | [] => true
  | [back] => back &&& 0x7f ≠ 0
  | back :: next :: _ => back &&& 0x7f ≠ 0 || next &&& 0x80 ≠ 0

/-- The constructor of `CScriptNum`; an error where it throws. -/
def scriptNum (vch : List UInt8) (fRequireMinimal : Bool) (nMaxNumSize : Nat) : Except String Int :=
  if vch.length > nMaxNumSize then .error "script number overflow"
  else if fRequireMinimal && !isMinimalNum vch then .error "non-minimally encoded script number"
  else .ok (setVch vch)

def getint (n : Int) : Int :=
  if n > 2147483647 then 2147483647 else if n < -2147483648 then -2147483648 else n

def serializeAbs : Nat → Nat → List UInt8
  | 0, _ => []
  | fuel + 1, absvalue =>
    if absvalue = 0 then [] else UInt8.ofNat (absvalue % 256) :: serializeAbs fuel (absvalue / 256)

/-- `CScriptNum::serialize`. -/
def serializeNum (value : Int) : List UInt8 :=
  let result := serializeAbs 8 value.natAbs
  match result.getLast? with
  | none => []
  | some back =>
    if back &&& 0x80 ≠ 0 then result ++ [if value < 0 then 0x80 else 0]
    else if value < 0 then result.dropLast ++ [back ||| 0x80]
    else result

def pushOp (script : CScript) (opcode : Opcode) : CScript := script ++ [opcode]

def pushData (script : CScript) (b : List UInt8) : CScript :=
  let n := b.length
  let size :=
    if n < 0x4c then [UInt8.ofNat n]
    else if n ≤ 0xff then [OP_PUSHDATA1, UInt8.ofNat n]
    else if n ≤ 0xffff then [OP_PUSHDATA2, UInt8.ofNat (n % 256), UInt8.ofNat (n / 256)]
    else [OP_PUSHDATA4, UInt8.ofNat (n % 256), UInt8.ofNat (n / 256 % 256),
      UInt8.ofNat (n / 65536 % 256), UInt8.ofNat (n / 16777216)]
  script ++ size ++ b

def takeOperand (opcode : Opcode) (nSize : Nat) (pc : CScript) : Option (Opcode × List UInt8 × CScript) :=
  if pc.length < nSize then none else some (opcode, pc.take nSize, pc.drop nSize)

/-- `GetScriptOp`: the next opcode and its data. -/
def getScriptOp : CScript → Option (Opcode × List UInt8 × CScript)
  | [] => none
  | opcode :: pc =>
    if opcode < OP_PUSHDATA1 then takeOperand opcode opcode.toNat pc
    else if opcode = OP_PUSHDATA1 then
      if pc.length < 1 then none else takeOperand opcode (readLE (pc.take 1)) (pc.drop 1)
    else if opcode = OP_PUSHDATA2 then
      if pc.length < 2 then none else takeOperand opcode (readLE (pc.take 2)) (pc.drop 2)
    else if opcode = OP_PUSHDATA4 then
      if pc.length < 4 then none else takeOperand opcode (readLE (pc.take 4)) (pc.drop 4)
    else some (opcode, [], pc)

def decodeOP_N (opcode : Opcode) : Int :=
  if opcode = OP_0 then 0 else (opcode.toNat : Int) - 0x50

def isPayToScriptHash (script : CScript) : Bool :=
  script.length == 23 && script[0]? == some OP_HASH160 && script[1]? == some 0x14 &&
    script[22]? == some OP_EQUAL

def isUnspendable (script : CScript) : Bool :=
  script.head? == some OP_RETURN || decide (script.length > MAX_SCRIPT_SIZE)

/-- `(*this)[i]`; past the end the C++ read is undefined. -/
def byteAt (script : CScript) (i : Nat) : Except String UInt8 :=
  match script[i]? with
  | some b => .ok b
  | none => .error "read past the end of the script"

/-- The chain of `||` comparisons: true at the first position that does not hold its byte. -/
def anyMismatch (script : CScript) : List (Nat × UInt8) → Except String Bool
  | [] => .ok false
  | (i, b) :: rest => do
    if (← byteAt script i) ≠ b then return true
    anyMismatch script rest

/-- `GetTermDepositReleaseBlock`; -1 for no deposit. -/
def getTermDepositReleaseBlock (script : CScript) : Except String Int :=
  match script with
  | [] => .ok (-1)
  | first :: _ =>
    if script.length < 29 ∨ script.length > 32 ∨ first > 4 ∨ first = 0 then .ok (-1)
    else do
      let skipsize := first.toNat
      if ← anyMismatch script [(skipsize + 1, OP_CHECKLOCKTIMEVERIFY), (skipsize + 2, OP_DROP),
          (skipsize + 3, OP_DUP), (skipsize + 4, OP_HASH160), (skipsize + 26, OP_EQUALVERIFY),
          (skipsize + 27, OP_CHECKSIG)] then return -1
      match getScriptOp script with
      | some (_, vch1, _) => return getint (← scriptNum vch1 true 5)
      | none => return getint (← scriptNum [] true 5)

end Qstees
