import Qstees.Model.PaymentVotes

/-!
# The text of a script

`ScriptToAsmStr` without the decoding of signature hash types, which is off for payee scripts.
-/

namespace Qstees

/-- `GetOpName`. -/
def opNames : List (Opcode × String) :=
  [(0x00, "0"), (0x4c, "OP_PUSHDATA1"), (0x4d, "OP_PUSHDATA2"), (0x4e, "OP_PUSHDATA4"), (0x4f, "-1"),
   (0x50, "OP_RESERVED"), (0x51, "1"), (0x52, "2"), (0x53, "3"), (0x54, "4"), (0x55, "5"), (0x56, "6"), (0x57, "7"),
   (0x58, "8"), (0x59, "9"), (0x5a, "10"), (0x5b, "11"), (0x5c, "12"), (0x5d, "13"), (0x5e, "14"), (0x5f, "15"),
   (0x60, "16"), (0x61, "OP_NOP"), (0x62, "OP_VER"), (0x63, "OP_IF"), (0x64, "OP_NOTIF"), (0x65, "OP_VERIF"),
   (0x66, "OP_VERNOTIF"), (0x67, "OP_ELSE"), (0x68, "OP_ENDIF"), (0x69, "OP_VERIFY"), (0x6a, "OP_RETURN"),
   (0x6b, "OP_TOALTSTACK"), (0x6c, "OP_FROMALTSTACK"), (0x6d, "OP_2DROP"), (0x6e, "OP_2DUP"), (0x6f, "OP_3DUP"),
   (0x70, "OP_2OVER"), (0x71, "OP_2ROT"), (0x72, "OP_2SWAP"), (0x73, "OP_IFDUP"), (0x74, "OP_DEPTH"),
   (0x75, "OP_DROP"), (0x76, "OP_DUP"), (0x77, "OP_NIP"), (0x78, "OP_OVER"), (0x79, "OP_PICK"), (0x7a, "OP_ROLL"),
   (0x7b, "OP_ROT"), (0x7c, "OP_SWAP"), (0x7d, "OP_TUCK"), (0x7e, "OP_CAT"), (0x7f, "OP_SUBSTR"), (0x80, "OP_LEFT"),
   (0x81, "OP_RIGHT"), (0x82, "OP_SIZE"), (0x83, "OP_INVERT"), (0x84, "OP_AND"), (0x85, "OP_OR"), (0x86, "OP_XOR"),
   (0x87, "OP_EQUAL"), (0x88, "OP_EQUALVERIFY"), (0x89, "OP_RESERVED1"), (0x8a, "OP_RESERVED2"), (0x8b, "OP_1ADD"),
   (0x8c, "OP_1SUB"), (0x8d, "OP_2MUL"), (0x8e, "OP_2DIV"), (0x8f, "OP_NEGATE"), (0x90, "OP_ABS"), (0x91, "OP_NOT"),
   (0x92, "OP_0NOTEQUAL"), (0x93, "OP_ADD"), (0x94, "OP_SUB"), (0x95, "OP_MUL"), (0x96, "OP_DIV"), (0x97, "OP_MOD"),
   (0x98, "OP_LSHIFT"), (0x99, "OP_RSHIFT"), (0x9a, "OP_BOOLAND"), (0x9b, "OP_BOOLOR"), (0x9c, "OP_NUMEQUAL"),
   (0x9d, "OP_NUMEQUALVERIFY"), (0x9e, "OP_NUMNOTEQUAL"), (0x9f, "OP_LESSTHAN"), (0xa0, "OP_GREATERTHAN"),
   (0xa1, "OP_LESSTHANOREQUAL"), (0xa2, "OP_GREATERTHANOREQUAL"), (0xa3, "OP_MIN"), (0xa4, "OP_MAX"),
   (0xa5, "OP_WITHIN"), (0xa6, "OP_RIPEMD160"), (0xa7, "OP_SHA1"), (0xa8, "OP_SHA256"), (0xa9, "OP_HASH160"),
   (0xaa, "OP_HASH256"), (0xab, "OP_CODESEPARATOR"), (0xac, "OP_CHECKSIG"), (0xad, "OP_CHECKSIGVERIFY"),
   (0xae, "OP_CHECKMULTISIG"), (0xaf, "OP_CHECKMULTISIGVERIFY"), (0xb0, "OP_NOP1"), (0xb1, "OP_CHECKLOCKTIMEVERIFY"),
   (0xb2, "OP_NOP3"), (0xb3, "OP_NOP4"), (0xb4, "OP_NOP5"), (0xb5, "OP_NOP6"), (0xb6, "OP_NOP7"), (0xb7, "OP_NOP8"),
   (0xb8, "OP_NOP9"), (0xb9, "OP_NOP10"), (0xff, "OP_INVALIDOPCODE")]

def getOpName (opcode : Opcode) : String := (opNames.lookup opcode).getD "OP_UNKNOWN"

def asmWord (opcode : Opcode) (vch : List UInt8) : String :=
  if opcode ≤ OP_PUSHDATA4 then
    if vch.length ≤ 4 then toString (getint (setVch vch)) else hexStr vch
  else getOpName opcode

/-- The loop of `ScriptToAsmStr`. Every round takes at least one byte, so that the length of the script bounds the
rounds. -/
def asmLoop : Nat → String → CScript → String
  | 0, str, _ => str
  | fuel + 1, str, pc =>
    if pc.isEmpty then str
    else
      let str := if str.isEmpty then str else str ++ " "
      match getScriptOp pc with
      | none => str ++ "[error]"
      | some (opcode, vch, pc) => asmLoop fuel (str ++ asmWord opcode vch) pc

def scriptToAsmStr (script : CScript) : String := asmLoop script.length "" script

end Qstees
