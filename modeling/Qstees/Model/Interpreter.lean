import Qstees.Model.Standard

/-!
# The script interpreter

`EvalScript` as a machine with one step per instruction, and `VerifyScript` over it. Stacks
are lists with the top first. Hash functions and signature checks are parameters; lock-time
checks are those of `GenericTransactionSignatureChecker`. An exception inside the `try` block
is `unknownError`, as its handler makes it.
-/

namespace Qstees

inductive ScriptError where
  | unknownError | evalFalse | opReturn | scriptSize | pushSize | opCount | stackSize | sigCount | pubkeyCount
  | verify | equalVerify | checkMultisigVerify | checkSigVerify | numEqualVerify | badOpcode | disabledOpcode
  | invalidStackOperation | invalidAltstackOperation | unbalancedConditional | negativeLocktime
  | unsatisfiedLocktime | sigHashtype | sigDer | minimalData | sigPushOnly | sigHighS | sigNullDummy | pubkeyType
  | cleanStack | minimalIf | sigNullFail | discourageUpgradableNops | discourageUpgradableWitnessProgram
  | witnessProgramWrongLength | witnessProgramWitnessEmpty | witnessProgramMismatch | witnessMalleated
  | witnessMalleatedP2SH | witnessUnexpected | witnessPubkeyType | opCodeSeparator | sigFindAndDelete
  | assertionFailed
deriving DecidableEq, Repr

structure ScriptFlags where
  p2sh : Bool := false
  strictEnc : Bool := false
  derSig : Bool := false
  lowS : Bool := false
  nullDummy : Bool := false
  sigPushOnly : Bool := false
  minimalData : Bool := false
  discourageUpgradableNops : Bool := false
  cleanStack : Bool := false
  checkLockTimeVerify : Bool := false
  checkSequenceVerify : Bool := false
  witness : Bool := false
  discourageUpgradableWitnessProgram : Bool := false
  minimalIf : Bool := false
  nullFail : Bool := false
  witnessPubkeyType : Bool := false
  constScriptCode : Bool := false

inductive SigVersion where
  | base | witnessV0
deriving DecidableEq, Repr

structure SignatureChecker where
  checkSig : List UInt8 → List UInt8 → CScript → SigVersion → Bool
  checkLockTime : Int → Bool
  checkSequence : Int → Bool

structure EvalContext where
  hashes : Hashes
  checkLowS : List UInt8 → Bool
  flags : ScriptFlags
  checker : SignatureChecker
  sigversion : SigVersion

/-- The local variables of `EvalScript`; `pc` and `pbegincodehash` are the script from there on. -/
structure EvalState where
  pc : CScript
  pbegincodehash : CScript
  stack : List (List UInt8)
  altstack : List (List UInt8) := []
  vfExec : List Bool := []
  nOpCount : Nat := 0
deriving DecidableEq, Repr

abbrev Eval := Except ScriptError

def castToBool : List UInt8 → Bool
  | [] => false
  | [b] => b != 0 && b != 0x80
  | b :: bs => b != 0 || castToBool bs

def boolVch (b : Bool) : List UInt8 := if b then [1] else []

def evalNum (vch : List UInt8) (fRequireMinimal : Bool) (nMaxNumSize : Nat) : Eval Int :=
  (scriptNum vch fRequireMinimal nMaxNumSize).mapError (fun _ => .unknownError)

def require (c : Bool) (e : ScriptError) : Eval Unit := if c then .ok () else .error e

def isCompressedOrUncompressedPubKey (v : List UInt8) : Bool :=
  decide (33 ≤ v.length) &&
    match v.head? with
    | some b => if b = 4 then v.length == 65 else if b = 2 ∨ b = 3 then v.length == 33 else false
    | none => false

def isCompressedPubKey (v : List UInt8) : Bool :=
  v.length == 33 && (v.head? == some 2 || v.head? == some 3)

def isValidSignatureEncoding (sig : List UInt8) : Bool :=
  let at' (i : Nat) : Nat := ((sig[i]?).getD 0).toNat
  let lenR := at' 3
  let lenS := at' (5 + lenR)
  decide (9 ≤ sig.length ∧ sig.length ≤ 73) && at' 0 == 0x30 && at' 1 == sig.length - 3 &&
    decide (5 + lenR < sig.length) && lenR + lenS + 7 == sig.length && at' 2 == 0x02 && lenR != 0 &&
    decide (at' 4 < 0x80) && !(decide (lenR > 1) && at' 4 == 0 && decide (at' 5 < 0x80)) &&
    at' (lenR + 4) == 0x02 && lenS != 0 && decide (at' (lenR + 6) < 0x80) &&
    !(decide (lenS > 1) && at' (lenR + 6) == 0 && decide (at' (lenR + 7) < 0x80))

def isDefinedHashtypeSignature (vchSig : List UInt8) : Bool :=
  match vchSig.getLast? with
  | none => false
  | some b => decide (1 ≤ b &&& 0x7f ∧ b &&& 0x7f ≤ 3)

variable (C : EvalContext)

def checkSignatureEncoding (vchSig : List UInt8) : Eval Unit := do
  if vchSig.isEmpty then return
  require (!((C.flags.derSig || C.flags.lowS || C.flags.strictEnc) && !isValidSignatureEncoding vchSig)) .sigDer
  require (!(C.flags.lowS && !C.checkLowS vchSig.dropLast)) .sigHighS
  require (!(C.flags.strictEnc && !isDefinedHashtypeSignature vchSig)) .sigHashtype

def checkPubKeyEncoding (vchPubKey : List UInt8) : Eval Unit := do
  require (!(C.flags.strictEnc && !isCompressedOrUncompressedPubKey vchPubKey)) .pubkeyType
  require (!(C.flags.witnessPubkeyType && C.sigversion == .witnessV0 && !isCompressedPubKey vchPubKey))
    .witnessPubkeyType

def checkMinimalPush (data : List UInt8) (opcode : Opcode) : Bool :=
  match data with
  | [] => opcode == OP_0
  | [b] => if (1 ≤ b ∧ b ≤ 16) ∨ b = 0x81 then false else opcode == 1
  | _ =>
    if data.length ≤ 75 then opcode.toNat == data.length
    else if data.length ≤ 255 then opcode == OP_PUSHDATA1
    else if data.length ≤ 65535 then opcode == OP_PUSHDATA2
    else true

def stripCopies (b : CScript) : Nat → CScript → Nat × CScript
  | 0, pc => (0, pc)
  | fuel + 1, pc =>
    if b.isPrefixOf pc then
      let (n, rest) := stripCopies b fuel (pc.drop b.length)
      (n + 1, rest)
    else (0, pc)

/-- `FindAndDelete`. -/
def findAndDeleteFrom (b : CScript) : Nat → CScript → Nat × CScript
  | 0, pc => (0, pc)
  | fuel + 1, pc =>
    let (n, pc) := stripCopies b pc.length pc
    match getScriptOp pc with
    | none => (n, pc)
    | some (_, _, rest) =>
      let (m, result) := findAndDeleteFrom b fuel rest
      (n + m, pc.take (pc.length - rest.length) ++ result)

def findAndDelete (script b : CScript) : Nat × CScript :=
  if b.isEmpty then (0, script) else findAndDeleteFrom b (script.length + 1) script

def execCheckLockTimeVerify (st : EvalState) : Eval EvalState :=
  if !C.flags.checkLockTimeVerify then .ok st
  else
    match st.stack with
    | [] => .error .invalidStackOperation
    | top :: _ => do
      let nLockTime ← evalNum top C.flags.minimalData 5
      require (decide (0 ≤ nLockTime)) .negativeLocktime
      require (C.checker.checkLockTime nLockTime) .unsatisfiedLocktime
      return st

def execCheckSequenceVerify (st : EvalState) : Eval EvalState :=
  if !C.flags.checkSequenceVerify then .ok st
  else
    match st.stack with
    | [] => .error .invalidStackOperation
    | top :: _ => do
      let nSequence ← evalNum top C.flags.minimalData 5
      require (decide (0 ≤ nSequence)) .negativeLocktime
      if nSequence.toNat.testBit 31 then return st
      require (C.checker.checkSequence nSequence) .unsatisfiedLocktime
      return st

def execConditional (opcode : Opcode) (fExec : Bool) (st : EvalState) : Eval EvalState :=
  if opcode = OP_IF ∨ opcode = OP_NOTIF then
    if !fExec then .ok { st with vfExec := false :: st.vfExec }
    else
      match st.stack with
      | [] => .error .unbalancedConditional
      | vch :: stack => do
        require (!(C.sigversion == .witnessV0 && C.flags.minimalIf &&
          (decide (vch.length > 1) || (vch.length == 1 && vch != [1])))) .minimalIf
        let fValue := if opcode = OP_NOTIF then !castToBool vch else castToBool vch
        return { st with stack := stack, vfExec := fValue :: st.vfExec }
  else
    match st.vfExec with
    | [] => .error .unbalancedConditional
    | b :: vfExec => .ok { st with vfExec := if opcode = OP_ELSE then (!b) :: vfExec else vfExec }

variable (opcode : Opcode)

/-- The stack opcodes that only rearrange what is there; `none` when too little is. -/
def rearrange : List (List UInt8) → Option (List (List UInt8))
  | stack =>
    if opcode = OP_2DROP then match stack with | _ :: _ :: s => some s | _ => none
    else if opcode = OP_2DUP then match stack with | b :: a :: s => some (b :: a :: b :: a :: s) | _ => none
    else if opcode = OP_3DUP then
      match stack with | c :: b :: a :: s => some (c :: b :: a :: c :: b :: a :: s) | _ => none
    else if opcode = OP_2OVER then
      match stack with | d :: c :: b :: a :: s => some (b :: a :: d :: c :: b :: a :: s) | _ => none
    else if opcode = OP_2ROT then
      match stack with | f :: e :: d :: c :: b :: a :: s => some (b :: a :: f :: e :: d :: c :: s) | _ => none
    else if opcode = OP_2SWAP then
      match stack with | d :: c :: b :: a :: s => some (b :: a :: d :: c :: s) | _ => none
    else if opcode = OP_IFDUP then
      match stack with | a :: s => some (if castToBool a then a :: a :: s else a :: s) | _ => none
    else if opcode = OP_DEPTH then some (serializeNum stack.length :: stack)
    else if opcode = OP_DROP then match stack with | _ :: s => some s | _ => none
    else if opcode = OP_DUP then match stack with | a :: s => some (a :: a :: s) | _ => none
    else if opcode = OP_NIP then match stack with | b :: _ :: s => some (b :: s) | _ => none
    else if opcode = OP_OVER then match stack with | b :: a :: s => some (a :: b :: a :: s) | _ => none
    else if opcode = OP_ROT then match stack with | c :: b :: a :: s => some (a :: c :: b :: s) | _ => none
    else if opcode = OP_SWAP then match stack with | b :: a :: s => some (a :: b :: s) | _ => none
    else if opcode = OP_TUCK then match stack with | b :: a :: s => some (b :: a :: b :: s) | _ => none
    else match stack with | a :: s => some (serializeNum a.length :: a :: s) | _ => none

def execPickRoll (opcode : Opcode) (st : EvalState) : Eval EvalState :=
  match st.stack with
  | top :: stack => do
    require (!stack.isEmpty) .invalidStackOperation
    let n := getint (← evalNum top C.flags.minimalData 4)
    require (decide (0 ≤ n)) .invalidStackOperation
    match stack[n.toNat]? with
    | none => .error .invalidStackOperation
    | some vch => return { st with stack := vch :: (if opcode = OP_ROLL then stack.eraseIdx n.toNat else stack) }
  | [] => .error .invalidStackOperation

def intOfBool (b : Bool) : Int := if b then 1 else 0

def unaryNum (bn : Int) : Int :=
  if opcode = OP_1ADD then bn + 1
  else if opcode = OP_1SUB then bn - 1
  else if opcode = OP_NEGATE then -bn
  else if opcode = OP_ABS then (if bn < 0 then -bn else bn)
  else if opcode = OP_NOT then intOfBool (bn == 0)
  else intOfBool (bn != 0)

def binaryNum (bn1 bn2 : Int) : Int :=
  if opcode = OP_ADD then bn1 + bn2
  else if opcode = OP_SUB then bn1 - bn2
  else if opcode = OP_BOOLAND then intOfBool (bn1 != 0 && bn2 != 0)
  else if opcode = OP_BOOLOR then intOfBool (bn1 != 0 || bn2 != 0)
  else if opcode = OP_NUMEQUAL ∨ opcode = OP_NUMEQUALVERIFY then intOfBool (bn1 == bn2)
  else if opcode = OP_NUMNOTEQUAL then intOfBool (bn1 != bn2)
  else if opcode = OP_LESSTHAN then intOfBool (decide (bn1 < bn2))
  else if opcode = OP_GREATERTHAN then intOfBool (decide (bn1 > bn2))
  else if opcode = OP_LESSTHANOREQUAL then intOfBool (decide (bn1 ≤ bn2))
  else if opcode = OP_GREATERTHANOREQUAL then intOfBool (decide (bn1 ≥ bn2))
  else if opcode = OP_MIN then (if bn1 < bn2 then bn1 else bn2)
  else (if bn1 > bn2 then bn1 else bn2)

def execNumeric (opcode : Opcode) (st : EvalState) : Eval EvalState :=
  let num (vch : List UInt8) := evalNum vch C.flags.minimalData 4
  if opcode ≤ OP_0NOTEQUAL then
    match st.stack with
    | a :: stack => do return { st with stack := serializeNum (unaryNum opcode (← num a)) :: stack }
    | _ => .error .invalidStackOperation
  else if opcode = OP_WITHIN then
    match st.stack with
    | c :: b :: a :: stack => do
      let bn1 ← num a
      let bn2 ← num b
      let bn3 ← num c
      return { st with stack := boolVch (decide (bn2 ≤ bn1 ∧ bn1 < bn3)) :: stack }
    | _ => .error .invalidStackOperation
  else
    match st.stack with
    | b :: a :: stack => do
      let bn1 ← num a
      let bn2 ← num b
      let vch := serializeNum (binaryNum opcode bn1 bn2)
      if opcode = OP_NUMEQUALVERIFY then
        require (castToBool vch) .numEqualVerify
        return { st with stack := stack }
      return { st with stack := vch :: stack }
    | _ => .error .invalidStackOperation

def execHash (opcode : Opcode) (st : EvalState) : Eval EvalState :=
  match st.stack with
  | [] => .error .invalidStackOperation
  | vch :: stack =>
    let vchHash :=
      if opcode = OP_RIPEMD160 then C.hashes.ripemd160 vch
      else if opcode = OP_SHA1 then C.hashes.sha1 vch
      else if opcode = OP_SHA256 then C.hashes.sha256 vch
      else if opcode = OP_HASH160 then C.hashes.hash160 vch
      else C.hashes.hash256 vch
    .ok { st with stack := vchHash :: stack }

def dropSignature (scriptCode : CScript) (vchSig : List UInt8) : Eval CScript := do
  if C.sigversion ≠ .base then return scriptCode
  let (found, scriptCode) := findAndDelete scriptCode (pushData [] vchSig)
  require (!(decide (found > 0) && C.flags.constScriptCode)) .sigFindAndDelete
  return scriptCode

def execCheckSig (opcode : Opcode) (st : EvalState) : Eval EvalState :=
  match st.stack with
  | vchPubKey :: vchSig :: stack => do
    let scriptCode ← dropSignature C st.pbegincodehash vchSig
    checkSignatureEncoding C vchSig
    checkPubKeyEncoding C vchPubKey
    let fSuccess := C.checker.checkSig vchSig vchPubKey scriptCode C.sigversion
    require (!(!fSuccess && C.flags.nullFail && !vchSig.isEmpty)) .sigNullFail
    if opcode = OP_CHECKSIGVERIFY then
      require fSuccess .checkSigVerify
      return { st with stack := stack }
    return { st with stack := boolVch fSuccess :: stack }
  | _ => .error .invalidStackOperation

def matchSignatures (C : EvalContext) (scriptCode : CScript) :
    List (List UInt8) → List (List UInt8) → Eval Bool
  | _, [] => .ok true
  | [], _ :: _ => .ok false
  | vchPubKey :: keys, vchSig :: sigs => do
    checkSignatureEncoding C vchSig
    checkPubKeyEncoding C vchPubKey
    let sigs := if C.checker.checkSig vchSig vchPubKey scriptCode C.sigversion then sigs else vchSig :: sigs
    if sigs.length > keys.length then return false
    matchSignatures C scriptCode keys sigs

/-- `OP_CHECKMULTISIG`, with its key and signature loop. -/
def execCheckMultisig (opcode : Opcode) (st : EvalState) : Eval EvalState :=
  match st.stack with
  | [] => .error .invalidStackOperation
  | top :: rest => do
    let nKeysCount := getint (← evalNum top C.flags.minimalData 4)
    require (decide (0 ≤ nKeysCount ∧ nKeysCount ≤ MAX_PUBKEYS_PER_MULTISIG)) .pubkeyCount
    let nKeys := nKeysCount.toNat
    let st := { st with nOpCount := st.nOpCount + nKeys }
    require (decide (st.nOpCount ≤ MAX_OPS_PER_SCRIPT)) .opCount
    match rest.drop nKeys with
    | [] => .error .invalidStackOperation
    | count :: rest' =>
      let nSigsCount := getint (← evalNum count C.flags.minimalData 4)
      require (decide (0 ≤ nSigsCount ∧ nSigsCount ≤ nKeysCount)) .sigCount
      let nSigs := nSigsCount.toNat
      -- one more element than the signatures: the dummy the operation also consumes
      require (decide (nSigs + 1 ≤ rest'.length)) .invalidStackOperation
      let keys := rest.take nKeys
      let sigs := rest'.take nSigs
      let scriptCode ← sigs.foldlM (dropSignature C) st.pbegincodehash
      let fSuccess ← matchSignatures C scriptCode keys sigs
      require (!(!fSuccess && C.flags.nullFail && sigs.any (fun sig => !sig.isEmpty))) .sigNullFail
      match rest'.drop nSigs with
      | [] => .error .invalidStackOperation
      | dummy :: stack =>
        require (!(C.flags.nullDummy && !dummy.isEmpty)) .sigNullDummy
        if opcode = OP_CHECKMULTISIGVERIFY then
          require fSuccess .checkMultisigVerify
          return { st with stack := stack }
        return { st with stack := boolVch fSuccess :: stack }

def isDisabled : Bool :=
  [OP_CAT, OP_SUBSTR, OP_LEFT, OP_RIGHT, OP_INVERT, OP_AND, OP_OR, OP_XOR, OP_2MUL, OP_2DIV, OP_MUL, OP_DIV,
    OP_MOD, OP_LSHIFT, OP_RSHIFT].contains opcode

/-- The `switch` of `EvalScript`. -/
def execOpcode (opcode : Opcode) (fExec : Bool) (st : EvalState) : Eval EvalState :=
  if opcode = OP_1NEGATE ∨ (OP_1 ≤ opcode ∧ opcode ≤ OP_16) then
    .ok { st with stack := serializeNum ((opcode.toNat : Int) - 0x50) :: st.stack }
  else if opcode = OP_NOP then .ok st
  else if opcode = OP_CHECKLOCKTIMEVERIFY then execCheckLockTimeVerify C st
  else if opcode = OP_CHECKSEQUENCEVERIFY then execCheckSequenceVerify C st
  else if opcode = OP_NOP1 ∨ (OP_NOP4 ≤ opcode ∧ opcode ≤ OP_NOP10) then
    if C.flags.discourageUpgradableNops then .error .discourageUpgradableNops else .ok st
  else if opcode = OP_IF ∨ opcode = OP_NOTIF ∨ opcode = OP_ELSE ∨ opcode = OP_ENDIF then
    execConditional C opcode fExec st
  else if opcode = OP_VERIFY then
    match st.stack with
    | [] => .error .invalidStackOperation
    | vch :: stack => if castToBool vch then .ok { st with stack := stack } else .error .verify
  else if opcode = OP_RETURN then .error .opReturn
  else if opcode = OP_TOALTSTACK then
    match st.stack with
    | [] => .error .invalidStackOperation
    | vch :: stack => .ok { st with stack := stack, altstack := vch :: st.altstack }
  else if opcode = OP_FROMALTSTACK then
    match st.altstack with
    | [] => .error .invalidAltstackOperation
    | vch :: altstack => .ok { st with stack := vch :: st.stack, altstack := altstack }
  else if opcode = OP_PICK ∨ opcode = OP_ROLL then execPickRoll C opcode st
  else if (OP_2DROP ≤ opcode ∧ opcode ≤ OP_TUCK) ∨ opcode = OP_SIZE then
    match rearrange opcode st.stack with
    | none => .error .invalidStackOperation
    | some stack => .ok { st with stack := stack }
  else if opcode = OP_EQUAL ∨ opcode = OP_EQUALVERIFY then
    match st.stack with
    | vch2 :: vch1 :: stack =>
      if opcode = OP_EQUAL then .ok { st with stack := boolVch (vch1 == vch2) :: stack }
      else if vch1 = vch2 then .ok { st with stack := stack }
      else .error .equalVerify
    | _ => .error .invalidStackOperation
  else if OP_1ADD ≤ opcode ∧ opcode ≤ OP_WITHIN then execNumeric C opcode st
  else if OP_RIPEMD160 ≤ opcode ∧ opcode ≤ OP_HASH256 then execHash C opcode st
  else if opcode = OP_CODESEPARATOR then .ok { st with pbegincodehash := st.pc }
  else if opcode = OP_CHECKSIG ∨ opcode = OP_CHECKSIGVERIFY then execCheckSig C opcode st
  else if opcode = OP_CHECKMULTISIG ∨ opcode = OP_CHECKMULTISIGVERIFY then execCheckMultisig C opcode st
  else .error .badOpcode

/-- Execute a decoded instruction: a push, an opcode, or nothing in a branch not taken. -/
def execInstruction (opcode : Opcode) (vchPushValue : List UInt8) (st : EvalState) :
    Eval EvalState :=
  let fExec := st.vfExec.all id
  if fExec && decide (opcode ≤ OP_PUSHDATA4) then
    if C.flags.minimalData && !checkMinimalPush vchPushValue opcode then .error .minimalData
    else .ok { st with stack := vchPushValue :: st.stack }
  else if fExec || decide (OP_IF ≤ opcode ∧ opcode ≤ OP_ENDIF) then execOpcode C opcode fExec st
  else .ok st

/-- One opcode, with the limits of the loop. -/
def evalStep (st : EvalState) : Eval EvalState :=
  match getScriptOp st.pc with
  | none => .error .badOpcode
  | some (opcode, vchPushValue, pc) => do
    require (decide (vchPushValue.length ≤ MAX_SCRIPT_ELEMENT_SIZE)) .pushSize
    let st := { st with pc := pc, nOpCount := if opcode > OP_16 then st.nOpCount + 1 else st.nOpCount }
    require (decide (opcode ≤ OP_16 ∨ st.nOpCount ≤ MAX_OPS_PER_SCRIPT)) .opCount
    require (!isDisabled opcode) .disabledOpcode
    require (!(opcode == OP_CODESEPARATOR && C.sigversion == .base && C.flags.constScriptCode)) .opCodeSeparator
    let st ← execInstruction C opcode vchPushValue st
    require (decide (st.stack.length + st.altstack.length ≤ MAX_STACK_SIZE)) .stackSize
    return st

/-- The loop of `EvalScript`. An instruction takes at least one byte, so the length of the
script bounds the number of rounds. -/
def evalLoop (C : EvalContext) : Nat → EvalState → Eval EvalState
  | 0, st => .ok st
  | fuel + 1, st =>
    if st.pc.isEmpty then .ok st
    else do
      let st ← evalStep C st
      evalLoop C fuel st

/-- `EvalScript`. -/
def evalScript (stack : List (List UInt8)) (script : CScript) : Eval (List (List UInt8)) := do
  require (decide (script.length ≤ MAX_SCRIPT_SIZE)) .scriptSize
  let st ← evalLoop C script.length ⟨script, script, stack, [], [], 0⟩
  require st.vfExec.isEmpty .unbalancedConditional
  return st.stack

def checkLockTime (txTo : CTransaction) (txin : CTxIn) (nLockTime : Int) : Bool :=
  let txLockTime : Int := txTo.nLockTime
  if ¬((txLockTime < LOCKTIME_THRESHOLD ∧ nLockTime < LOCKTIME_THRESHOLD) ∨
      (txLockTime ≥ LOCKTIME_THRESHOLD ∧ nLockTime ≥ LOCKTIME_THRESHOLD)) then false
  else if nLockTime > txLockTime then false
  else if SEQUENCE_FINAL = txin.nSequence then false
  else true

def SEQUENCE_LOCKTIME_TYPE_FLAG : Nat := 2 ^ 22

def SEQUENCE_LOCKTIME_MASK : Nat := 0xffff

def checkSequence (txTo : CTransaction) (txin : CTxIn) (nSequence : Int) : Bool :=
  let mask := SEQUENCE_LOCKTIME_TYPE_FLAG ||| SEQUENCE_LOCKTIME_MASK
  let txToSequenceMasked := txin.nSequence &&& mask
  let nSequenceMasked := nSequence.toNat &&& mask
  if txTo.nVersion % 2 ^ 32 < 2 then false
  else if txin.nSequence.testBit 31 then false
  else if ¬((txToSequenceMasked < SEQUENCE_LOCKTIME_TYPE_FLAG ∧ nSequenceMasked < SEQUENCE_LOCKTIME_TYPE_FLAG) ∨
      (txToSequenceMasked ≥ SEQUENCE_LOCKTIME_TYPE_FLAG ∧ nSequenceMasked ≥ SEQUENCE_LOCKTIME_TYPE_FLAG)) then false
  else if nSequenceMasked > txToSequenceMasked then false
  else true

def transactionSignatureChecker (checkSig : List UInt8 → List UInt8 → CScript → SigVersion → Bool)
    (txTo : CTransaction) (txin : CTxIn) : SignatureChecker where
  checkSig := checkSig
  checkLockTime := checkLockTime txTo txin
  checkSequence := checkSequence txTo txin

def isPushOnlyFrom : Nat → CScript → Bool
  | 0, pc => pc.isEmpty
  | fuel + 1, pc =>
    if pc.isEmpty then true
    else
      match getScriptOp pc with
      | none => false
      | some (opcode, _, rest) => decide (opcode ≤ OP_16) && isPushOnlyFrom fuel rest

def isPushOnly (script : CScript) : Bool := isPushOnlyFrom script.length script

def isWitnessProgram (script : CScript) : Option (Nat × List UInt8) :=
  match script with
  | b0 :: b1 :: program =>
    if script.length < 4 ∨ script.length > 42 then none
    else if b0 ≠ OP_0 ∧ (b0 < OP_1 ∨ b0 > OP_16) then none
    else if b1.toNat + 2 = script.length then some ((decodeOP_N b0).toNat, program)
    else none
  | _ => none

/-- `stack.empty() || !CastToBool(stack.back())` is a failure. -/
def requireTrue (stack : List (List UInt8)) : Eval Unit :=
  match stack with
  | [] => .error .evalFalse
  | top :: _ => require (castToBool top) .evalFalse

/-- `VerifyWitnessProgram`. -/
def verifyWitnessProgram (witness : List (List UInt8)) (witversion : Nat)
    (program : List UInt8) : Eval Unit :=
  let run (stack : List (List UInt8)) (scriptPubKey : CScript) : Eval Unit := do
    require (stack.all (fun item => decide (item.length ≤ MAX_SCRIPT_ELEMENT_SIZE))) .pushSize
    let stack ← evalScript { C with sigversion := .witnessV0 } stack scriptPubKey
    require (stack.length == 1) .cleanStack
    requireTrue stack
  if witversion = 0 then
    if program.length = 32 then
      match witness.getLast? with
      | none => .error .witnessProgramWitnessEmpty
      | some scriptPubKey => do
        require (C.hashes.sha256 scriptPubKey == program) .witnessProgramMismatch
        run witness.dropLast.reverse scriptPubKey
    else if program.length = 20 then do
      require (witness.length == 2) .witnessProgramMismatch
      run witness.reverse (keyIDScript program)
    else .error .witnessProgramWrongLength
  else if C.flags.discourageUpgradableWitnessProgram then .error .discourageUpgradableWitnessProgram
  else .ok ()

/-- The witness part shared by bare and nested programs: whether there was one, and the stack. -/
def verifyWitness (witness : List (List UInt8)) (script : CScript) (malleated : Bool)
    (e : ScriptError) (stack : List (List UInt8)) : Eval (Bool × List (List UInt8)) := do
  if !C.flags.witness then return (false, stack)
  match isWitnessProgram script with
  | none => return (false, stack)
  | some (witversion, program) =>
    require (!malleated) e
    verifyWitnessProgram C witness witversion program
    -- resize(1) keeps the bottom element
    return (true, stack.getLast?.toList)

/-- `VerifyScript`. -/
def verifyScript (scriptSig scriptPubKey : CScript) (witness : List (List UInt8)) : Eval Unit := do
  let C := { C with sigversion := .base }
  require (!(C.flags.sigPushOnly && !isPushOnly scriptSig)) .sigPushOnly
  let stackCopy ← evalScript C [] scriptSig
  let stack ← evalScript C stackCopy scriptPubKey
  requireTrue stack
  let (hadWitness, stack) ← verifyWitness C witness scriptPubKey (!scriptSig.isEmpty) .witnessMalleated stack
  let (hadWitness, stack) ←
    if C.flags.p2sh && isPayToScriptHash scriptPubKey then do
      require (isPushOnly scriptSig) .sigPushOnly
      match stackCopy with
      | [] => .error .assertionFailed
      | pubKey2 :: rest =>
        let stack ← evalScript C rest pubKey2
        requireTrue stack
        let (had, stack) ← verifyWitness C witness pubKey2 (scriptSig != pushData [] pubKey2)
          .witnessMalleatedP2SH stack
        pure (hadWitness || had, stack)
    else pure (hadWitness, stack)
  if C.flags.cleanStack then
    require (C.flags.p2sh && C.flags.witness) .assertionFailed
    require (stack.length == 1) .cleanStack
  if C.flags.witness then
    require C.flags.p2sh .assertionFailed
    require (hadWitness || witness.isEmpty) .witnessUnexpected

end Qstees
