import Qstees.Proofs.DepositRecognisers
import Qstees.Proofs.ScriptNumbers

/-!
# Scripts for destinations

What `Solver` and `ExtractDestination` make of the scripts that are built for destinations, burns and term deposits.
-/

namespace Qstees.Proofs

open List

/-- Programs and hashes of the lengths that the types have. -/
def ValidDestination : CTxDestination → Prop
  | .noDestination => False
  | .keyID id | .scriptID id | .witnessV0KeyHash id => id.length = 20
  | .witnessV0ScriptHash id => id.length = 32
  | .witnessUnknown version program => (1 ≤ version ∧ version ≤ 16) ∧ 2 ≤ program.length ∧ program.length ≤ 40

variable {script hash : List UInt8} {d : CTxDestination} {H : Hashes}

lemma templates_type : ∀ template ∈ mTemplates, template.1 ≠ .witnessV0Keyhash ∧ template.1 ≠ .witnessV0Scripthash ∧
    template.1 ≠ .witnessUnknown := by
  decide

lemma solver_type {solved : Solved} (h : solver script = .ok solved) :
    solved.typeRet ≠ .witnessV0Keyhash ∧ solved.typeRet ≠ .witnessV0Scripthash ∧ solved.typeRet ≠ .witnessUnknown := by
  unfold solver at h
  split_ifs at h
  · cases h
    simp
  · by_cases htype : solved.typeRet = .nonstandard
    · simp [htype]
    · obtain ⟨template, hmem, heq, -⟩ := scanTemplates_matches h htype
      rw [← heq]
      exact templates_type template hmem

lemma extractDestination_kinds (h : extractDestination H script = .ok (some d)) :
    (∃ id, d = .keyID id) ∨ ∃ id, d = .scriptID id := by
  unfold extractDestination at h
  obtain ⟨solved, hsolved, h⟩ := ok_of_bind h
  obtain ⟨hkey, hscript, hunknown⟩ := solver_type hsolved
  by_cases hret : solved.ret = true
  · simp only [hret, Bool.not_true, Bool.false_eq_true, if_false] at h
    split at h
    case h_1 =>
      split_ifs at h
      · cases h
        exact .inl ⟨_, rfl⟩
      · cases h
    case h_5 =>
      cases h
      exact .inr ⟨_, rfl⟩
    case h_6 htype _ => exact absurd htype hkey
    case h_7 htype _ => exact absurd htype hscript
    case h_8 htype _ => exact absurd htype hunknown
    case h_9 => cases h
    all_goals
      cases h
      exact .inl ⟨_, rfl⟩
  · simp only [Bool.not_eq_true _ ▸ hret, Bool.not_false, if_true] at h
    cases h

lemma extractDestination_of_solver {type : TxnOutType} {sol : List (List UInt8)}
    (h : solver script = .ok ⟨true, type, hash :: sol⟩)
    (htype : type = .pubkeyhash ∨ type = .burnData ∨ type = .checklocktimeverify) :
    extractDestination H script = .ok (some (.keyID hash)) := by
  unfold extractDestination
  rw [h]
  rcases htype with rfl | rfl | rfl <;> rfl

lemma pushData_hash (hhash : hash.length = 20) (script : CScript) : pushData script hash = script ++ 0x14 :: hash := by
  rw [pushData, hhash]
  simp

lemma pushData_append (script bytes : List UInt8) : pushData script bytes = script ++ pushData [] bytes := by
  rw [pushData, pushData, append_assoc, nil_append]

lemma solver_keyIDScript (hhash : hash.length = 20) : solver (keyIDScript hash) = .ok ⟨true, .pubkeyhash, [hash]⟩ := by
  have hscript : keyIDScript hash = OP_DUP :: OP_HASH160 :: 0x14 :: (hash ++ [OP_EQUALVERIFY, OP_CHECKSIG]) := by
    simp [keyIDScript, pushOp, pushData_hash hhash]
  have hget : getScriptOp (0x14 :: (hash ++ [OP_EQUALVERIFY, OP_CHECKSIG])) =
    some (0x14, hash, [OP_EQUALVERIFY, OP_CHECKSIG]) :=
    getScriptOp_push (by decide) hhash
  have hmatch : matchTemplate [OP_DUP, OP_HASH160, OP_PUBKEYHASH, OP_EQUALVERIFY, OP_CHECKSIG] (keyIDScript hash) [] =
      .ok (some [hash]) := by
    rw [hscript]
    simp (disch := decide) only [matchTemplate_fixed, matchTemplate_pubKeyHash, matchTemplate_nil]
    exact ⟨_, rfl, _, rfl, _, _, _, hget, hhash, _, rfl, _, rfl, rfl, rfl⟩
  have hnone : matchTemplate [OP_PUBKEY, OP_CHECKSIG] (keyIDScript hash) [] = .ok none := by
    rw [hscript]
    exact matchTemplate_none (by decide) ((getScriptOp_plain (by decide)).mpr ⟨rfl, rfl⟩) rfl
  have hhead : isPayToScriptHash (keyIDScript hash) = false := by simp [isPayToScriptHash, hscript, hhash]
  unfold solver mTemplates
  rw [hhead, if_neg (by decide), scanTemplates_skip hnone, scanTemplates, hmatch]
  rfl

lemma solver_scriptID (hhash : hash.length = 20) :
    solver (getScriptForDestination (.scriptID hash)) = .ok ⟨true, .scripthash, [hash]⟩ := by
  have hscript : getScriptForDestination (.scriptID hash) = OP_HASH160 :: 0x14 :: (hash ++ [OP_EQUAL]) := by
    simp [getScriptForDestination, pushOp, pushData_hash hhash]
  have hpay : isPayToScriptHash (OP_HASH160 :: 0x14 :: (hash ++ [OP_EQUAL])) = true := by
    simp [isPayToScriptHash, hhash]
  rw [hscript, solver, hpay, if_pos rfl, drop_succ_cons, drop_succ_cons, drop_zero,
    take_left' hhash]

/-- `ExtractDestination` undoes `GetScriptForDestination` on keys and script hashes, and on no witness program. -/
theorem destination_roundTrip_iff (H : Hashes) (hd : ValidDestination d) :
    extractDestination H (getScriptForDestination d) = .ok (some d) ↔ (∃ id, d = .keyID id) ∨ ∃ id,
      d = .scriptID id := by
  constructor
  · exact extractDestination_kinds
  · rintro (⟨id, rfl⟩ | ⟨id, rfl⟩)
    · exact extractDestination_of_solver (solver_keyIDScript hd) (.inl rfl)
    · unfold extractDestination
      rw [solver_scriptID hd]
      rfl

theorem destination_roundTrip_key : ValidDestination (.keyID (List.replicate 20 1)) ∧
    (extractDestination ⟨id, id, id, id, id⟩ (getScriptForDestination (.keyID (List.replicate 20 1))) =
        .ok (some (.keyID (List.replicate 20 1))) ↔
      (∃ id, CTxDestination.keyID (List.replicate 20 1) = .keyID id) ∨
        ∃ id, CTxDestination.keyID (List.replicate 20 1) = .scriptID id) :=
  ⟨rfl, destination_roundTrip_iff _ rfl⟩

/-- The script of a witness key hash has no type. -/
theorem witnessKeyHash_notExtracted : ValidDestination (.witnessV0KeyHash (List.replicate 20 1)) ∧
    extractDestination ⟨id, id, id, id, id⟩ (getScriptForDestination (.witnessV0KeyHash (List.replicate 20 1))) =
      .ok none :=
  ⟨rfl, by decide +kernel⟩

lemma solver_hashFirst (hhash : hash.length = 20) (rest : List UInt8) :
    solver (0x14 :: (hash ++ rest)) = scanTemplates (0x14 :: (hash ++ rest)) (mTemplates.drop 6) := by
  have hget : getScriptOp (0x14 :: (hash ++ rest)) = some (0x14, hash, rest) := getScriptOp_push (by decide) hhash
  have hhead : isPayToScriptHash (0x14 :: (hash ++ rest)) = false := by
    simp [isPayToScriptHash, show (0x14 : UInt8) ≠ OP_HASH160 by decide]
  have hpubkey : matchOpcode 0x14 hash OP_PUBKEY = .ok none := by rw [matchOpcode_pubKey, if_pos (by omega)]
  have hskip : ∀ opcode2 pc2, opcode2 ≠ OP_PUBKEYS → matchOpcode 0x14 hash opcode2 = .ok none →
      matchTemplate (opcode2 :: pc2) (0x14 :: (hash ++ rest)) [] = .ok none :=
    fun opcode2 pc2 hplain hnone => matchTemplate_none hplain hget hnone
  unfold solver mTemplates
  rw [hhead, if_neg (by decide), scanTemplates_skip (hskip _ _ (by decide) hpubkey),
    scanTemplates_skip (hskip _ _ (by decide) rfl), scanTemplates_skip (hskip _ _ (by decide) rfl),
    scanTemplates_skip (hskip _ _ (by decide) rfl), scanTemplates_skip (hskip _ _ (by decide) rfl),
    scanTemplates_skip (hskip _ _ (by decide) rfl)]
  rfl

lemma getScriptOp_pushData {data : List UInt8} (hdata : data.length ≤ 0xff) :
    ∃ opcode, getScriptOp (pushData [] data) = some (opcode, data, []) := by
  have hbyte : (UInt8.ofNat data.length).toNat = data.length := by rw [UInt8.toNat_ofNat', Nat.mod_eq_of_lt (by omega)]
  rw [pushData]
  by_cases hshort : data.length < 0x4c
  · have hget : getScriptOp (UInt8.ofNat data.length :: (data ++ [])) = some (UInt8.ofNat data.length, data, []) :=
      getScriptOp_push (UInt8.lt_iff_toNat_lt.mpr (by rw [hbyte]; exact hshort)) hbyte.symm
    rw [append_nil] at hget
    rw [if_pos hshort]
    exact ⟨_, hget⟩
  · refine ⟨OP_PUSHDATA1, ?_⟩
    rw [if_neg hshort, if_pos hdata]
    change takeOperand OP_PUSHDATA1 (readLE [UInt8.ofNat data.length]) data = _
    rw [readLE, readLE, hbyte, takeOperand_eq_some]
    exact ⟨rfl, rfl, (append_nil data).symm⟩

lemma solver_getScriptForBurn {data : List UInt8} (hhash : hash.length = 20)
    (hdata : data.length ≤ nMaxDatacarrierBytes) :
    solver (getScriptForBurn hash data) = .ok ⟨true, .burnData, if data = [] then [hash] else [hash, data]⟩ := by
  have hget : ∀ rest, getScriptOp (0x14 :: (hash ++ rest)) = some (0x14, hash, rest) :=
    fun rest => getScriptOp_push (by decide) hhash
  have hkey : matchOpcode 0x14 hash OP_PUBKEYHASH = .ok (some [hash]) := matchOpcode_pubKeyHash.mpr ⟨hhash, rfl⟩
  have hplain : matchOpcode OP_RETURN [] OP_RETURN = .ok (some []) := rfl
  have hreturn : ∀ rest, getScriptOp (OP_RETURN :: rest) = some (OP_RETURN, [], rest) :=
    fun rest => (getScriptOp_plain (by decide)).mpr ⟨rfl, rfl⟩
  have hmatch : ∀ pc2 rest, matchTemplate (OP_PUBKEYHASH :: OP_RETURN :: pc2) (0x14 :: (hash ++ OP_RETURN :: rest)) [] =
      matchTemplate pc2 rest [hash] := fun pc2 rest => by
    rw [matchTemplate_of_cons (by decide) (hget _) hkey,
      matchTemplate_of_cons (by decide) (hreturn rest) hplain]
    rfl
  cases data with
  | nil =>
    have hscript : getScriptForBurn hash [] = 0x14 :: (hash ++ OP_RETURN :: []) := by
      simp [getScriptForBurn, pushOp, pushData_hash hhash]
    rw [hscript, solver_hashFirst hhash]
    unfold mTemplates
    simp only [drop_succ_cons, drop_zero, scanTemplates, hmatch]
    rfl
  | cons b data =>
    obtain ⟨opcode, hpush⟩ := getScriptOp_pushData (hdata.trans (by decide))
    have hscript : getScriptForBurn hash (b :: data) = 0x14 :: (hash ++ OP_RETURN :: pushData [] (b :: data)) := by
      rw [getScriptForBurn, if_neg (by simp), pushData_append, pushData_hash hhash, pushOp]
      simp
    have hsmall : matchOpcode opcode (b :: data) OP_SMALLDATA = .ok (some [b :: data]) := by
      rw [show matchOpcode opcode (b :: data) OP_SMALLDATA =
        .ok (if (b :: data).length > nMaxDatacarrierBytes then none else some [b :: data]) from rfl,
        if_neg (not_lt.mpr hdata)]
    rw [hscript, solver_hashFirst hhash]
    unfold mTemplates
    simp only [drop_succ_cons, drop_zero, scanTemplates, hmatch,
      matchTemplate_of_cons (show OP_SMALLDATA ≠ OP_PUBKEYS by decide) hpush hsmall]
    rfl

lemma timeLockScript_prefix {n : Int} (hpos : 1 ≤ n) (hle : n < 2 ^ 31) (hhash : hash.length = 20) :
    DepositPrefix (getTimeLockScriptForDestination (.keyID hash) n) (serializeNum n)
      ([0x14] ++ (hash ++ [OP_EQUALVERIFY, OP_CHECKSIG])) := by
  obtain ⟨hfive, hminimal, hread⟩ := serializeNum_spec (show n.natAbs < 2 ^ 39 by omega)
  have hne : serializeNum n ≠ [] := by
    intro hempty
    rw [hempty] at hread
    exact absurd hread (show (0 : Int) ≠ n by omega)
  refine ⟨?_, length_pos_iff.mpr hne, hfive, hminimal⟩
  rw [getTimeLockScriptForDestination, scriptVisitor, pushData_hash hhash, pushData, if_pos (by omega)]
  simp [pushOp]

/-- Burn scripts decode to the key and the data they were built from, and deposit scripts to their height and
destination, if and only if the destination is a key. -/
theorem scripts_decode_iff (H : Hashes) {keyid data : List UInt8} (hkeyid : keyid.length = 20)
    (hdata : data.length ≤ nMaxDatacarrierBytes) (hd : ValidDestination d) {n : Int} (hpos : 1 ≤ n) (hle : n < 2 ^ 31) :
    (solver (getScriptForBurn keyid data) = .ok ⟨true, .burnData, if data = [] then [keyid] else [keyid, data]⟩ ∧
        IsDeposit (getTimeLockScriptForDestination d n) n ∧
        extractDestination H (getTimeLockScriptForDestination d n) = .ok (some d)) ↔
      ∃ id, d = .keyID id := by
  constructor
  · rintro ⟨-, ⟨hdeposit, -⟩, hextract⟩
    obtain hkey | ⟨id, rfl⟩ := extractDestination_kinds hextract
    · exact hkey
    · -- The visitor has cleared the lock: what is left is a payment to a script hash.
      change isOutputTermDeposit (getScriptForDestination (.scriptID id)) = .ok true at hdeposit
      rw [isOutputTermDeposit, solver_scriptID hd] at hdeposit
      cases hdeposit
  · rintro ⟨id, rfl⟩
    have hbegin := timeLockScript_prefix hpos hle hd
    have hpush : ∃ push ∈ hashPushes, [0x14] ++ (id ++ [OP_EQUALVERIFY, OP_CHECKSIG]) =
        push ++ (id ++ [OP_EQUALVERIFY, OP_CHECKSIG]) := ⟨[0x14], by simp [hashPushes], rfl⟩
    have hrelease : n = getint (setVch (serializeNum n)) := by
      rw [(serializeNum_spec (show n.natAbs < 2 ^ 39 by omega)).2.2, getint]
      split_ifs <;> omega
    obtain ⟨push, hmem, hrest⟩ := hpush
    refine ⟨solver_getScriptForBurn hkeyid hdata, ?_, ?_⟩
    · exact isDeposit_iff.mpr ⟨_, _, hbegin, ⟨push, hmem, id, hd, hrest⟩, hrelease⟩
    · exact extractDestination_of_solver (hbegin.solver hd ⟨push, hmem, hrest⟩) (.inr (.inr rfl))

theorem scripts_decode_key :
    (solver (getScriptForBurn (List.replicate 20 1) [0x61]) =
        .ok ⟨true, .burnData, if [(0x61 : UInt8)] = [] then [List.replicate 20 1] else [List.replicate 20 1, [0x61]]⟩ ∧
        IsDeposit (getTimeLockScriptForDestination (.keyID (List.replicate 20 2)) 200000) 200000 ∧
        extractDestination ⟨id, id, id, id, id⟩
          (getTimeLockScriptForDestination (.keyID (List.replicate 20 2)) 200000) =
          .ok (some (.keyID (List.replicate 20 2)))) ↔
      ∃ id, CTxDestination.keyID (List.replicate 20 2) = .keyID id :=
  scripts_decode_iff _ rfl (by decide) (show ValidDestination (.keyID (List.replicate 20 2)) from rfl) (by decide)
    (by decide)

/-- A deposit to a script hash is paid without the lock. -/
theorem timeLock_dropped : ValidDestination (.scriptID (List.replicate 20 1)) ∧
    getTimeLockScriptForDestination (.scriptID (List.replicate 20 1)) 200000 =
      getScriptForDestination (.scriptID (List.replicate 20 1)) ∧
    isOutputTermDeposit (getTimeLockScriptForDestination (.scriptID (List.replicate 20 1)) 200000) = .ok false :=
  ⟨rfl, rfl, by decide +kernel⟩

end Qstees.Proofs
