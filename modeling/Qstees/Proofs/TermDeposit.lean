import Qstees.Model.Interpreter
import Qstees.Proofs.Amounts

/-!
# Term deposits and their lock

The recogniser of term deposits reads a byte pattern; the interpreter executes the script.
-/

namespace Qstees.Proofs

open List

lemma require_eq_ok {c : Bool} {e : ScriptError} {u : Unit} : require c e = .ok u ↔ c = true := by
  cases c with
  | true => simp [require]
  | false => simp [require]

variable {script : CScript} {b : UInt8} {vch rest : List UInt8} {r n s nBlockTime : Int}
  {C : EvalContext} {st st' : EvalState} {stack stack' : List (List UInt8)} {tx : CTransaction}
  {txin : CTxIn}

lemma byteAt_eq_ok {i : Nat} : byteAt script i = .ok b ↔ script[i]? = some b := by
  unfold byteAt
  cases script[i]? with
  | none => simp
  | some c => simp

lemma anyMismatch_false_iff {pattern : List (Nat × UInt8)} :
    anyMismatch script pattern = .ok false ↔ ∀ p ∈ pattern, script[p.1]? = some p.2 := by
  induction pattern with
  | nil => simp [anyMismatch]
  | cons p pattern ih =>
    obtain ⟨i, b⟩ := p
    rw [anyMismatch, except_bind_eq_ok, forall_mem_cons]
    constructor
    · rintro ⟨c, hc, hrest⟩
      by_cases hcb : c = b
      · subst hcb
        simp only [ne_eq, not_true_eq_false, if_false] at hrest
        exact ⟨byteAt_eq_ok.mp hc, ih.mp hrest⟩
      · simp [hcb, pure, Except.pure] at hrest
    · rintro ⟨hi, hrest⟩
      exact ⟨b, byteAt_eq_ok.mpr hi, by simpa using ih.mpr hrest⟩

lemma getScriptOp_push (hb : b < OP_PUSHDATA1) (hlen : vch.length = b.toNat) :
    getScriptOp (b :: (vch ++ rest)) = some (b, vch, rest) := by
  simp only [getScriptOp, takeOperand, if_pos hb]
  rw [if_neg (by simp [hlen]), ← hlen, take_left, drop_left]

lemma drop_eq_cons {bytes : List UInt8} {i : Nat} (h : bytes[i]? = some b) :
    bytes.drop i = b :: bytes.drop (i + 1) := by
  obtain ⟨hlt, heq⟩ := List.getElem?_eq_some_iff.mp h
  rw [drop_eq_getElem_cons hlt, heq]

lemma exists_ok_iff {ε α : Type} {x : Except ε α} : (∃ a, x = .ok a) ↔ ¬∃ e, x = .error e := by
  cases x with
  | error e => simp
  | ok a => simp

lemma scriptNum_throws_iff {vch : List UInt8} (hlen : vch.length ≤ 5) :
    (∃ e, scriptNum vch true 5 = .error e) ↔ isMinimalNum vch = false := by
  unfold scriptNum
  rw [if_neg (by omega)]
  cases isMinimalNum vch with
  | false => simp
  | true => simp

/-- The script pushes the minimally encoded number `vch` and goes on to check the lock time and to hash a key; `rest` is
what it compares the hash with. -/
structure DepositPrefix (script : CScript) (vch rest : List UInt8) : Prop where
  script_eq : script = UInt8.ofNat vch.length ::
    (vch ++ OP_CHECKLOCKTIMEVERIFY :: OP_DROP :: OP_DUP :: OP_HASH160 :: rest)
  pos : 1 ≤ vch.length
  le : vch.length ≤ 5
  minimal : isMinimalNum vch = true

/-- The bytes that `GetTermDepositReleaseBlock` compares behind the prefix, and its bounds. -/
structure ChecksOffsets (vch rest : List UInt8) : Prop where
  four : vch.length ≤ 4
  min : 24 ≤ vch.length + rest.length
  max : vch.length + rest.length ≤ 27
  verify : rest[21]? = some OP_EQUALVERIFY
  check : rest[22]? = some OP_CHECKSIG

lemma DepositPrefix.first (h : DepositPrefix script vch rest) :
    (UInt8.ofNat vch.length).toNat = vch.length := by
  have := h.le
  rw [UInt8.toNat_ofNat', Nat.mod_eq_of_lt (by omega)]

lemma DepositPrefix.range (h : DepositPrefix script vch rest) :
    0 < UInt8.ofNat vch.length ∧ UInt8.ofNat vch.length < 6 := by
  have hpos := h.pos
  have hle := h.le
  rw [UInt8.lt_iff_toNat_lt, UInt8.lt_iff_toNat_lt, h.first]
  exact ⟨hpos, show vch.length < 6 by omega⟩

lemma scriptNum_of_minimal (hlen : vch.length ≤ 5) (hminimal : isMinimalNum vch = true) :
    scriptNum vch true 5 = .ok (setVch vch) := by
  rw [scriptNum, if_neg (by omega), hminimal]
  rfl

lemma isMinimalNum_of_scriptNum (hlen : vch.length ≤ 5) (h : ∃ n, scriptNum vch true 5 = .ok n) :
    isMinimalNum vch = true := by
  by_contra hnot
  exact exists_ok_iff.mp h ((scriptNum_throws_iff hlen).mpr (Bool.eq_false_iff.mpr hnot))

def depositOffsets (skipsize : Nat) : List (Nat × UInt8) :=
  [(skipsize + 1, OP_CHECKLOCKTIMEVERIFY), (skipsize + 2, OP_DROP), (skipsize + 3, OP_DUP), (skipsize + 4, OP_HASH160),
    (skipsize + 26, OP_EQUALVERIFY), (skipsize + 27, OP_CHECKSIG)]

/-- The length and first byte at which `GetTermDepositReleaseBlock` compares anything. -/
def InDepositWindow (b : UInt8) (tail : List UInt8) : Prop :=
  28 ≤ tail.length ∧ tail.length ≤ 31 ∧ 1 ≤ b.toNat ∧ b.toNat ≤ 4

lemma getTermDepositReleaseBlock_outside {tail : List UInt8} (h : ¬InDepositWindow b tail) :
    getTermDepositReleaseBlock (b :: tail) = .ok (-1) := by
  have hzero : b = 0 ↔ b.toNat = 0 := by rw [← UInt8.toNat_inj]; rfl
  have hfour : b > 4 ↔ 4 < b.toNat := UInt8.lt_iff_toNat_lt
  unfold InDepositWindow at h
  rw [getTermDepositReleaseBlock, if_pos (by rw [hzero, hfour, length_cons]; omega)]

lemma getTermDepositReleaseBlock_inside {tail : List UInt8} (h : InDepositWindow b tail) :
    getTermDepositReleaseBlock (b :: tail) = (do
      if ← anyMismatch (b :: tail) (depositOffsets b.toNat) then return -1
      return getint (← scriptNum (tail.take b.toNat) true 5)) := by
  obtain ⟨hmin, hmax, hpos, hfour⟩ := h
  have hzero : b = 0 ↔ b.toNat = 0 := by rw [← UInt8.toNat_inj]; rfl
  have hgt : b > 4 ↔ 4 < b.toNat := UInt8.lt_iff_toNat_lt
  have hop : b < OP_PUSHDATA1 := UInt8.lt_iff_toNat_lt.mpr (show b.toNat < 0x4c by omega)
  have hget : getScriptOp (b :: tail) = some (b, tail.take b.toNat, tail.drop b.toNat) := by
    have hlen : (tail.take b.toNat).length = b.toNat := by rw [length_take]; omega
    rw [← getScriptOp_push hop hlen, take_append_drop]
  rw [getTermDepositReleaseBlock, if_neg (by rw [hzero, hgt, length_cons]; omega), hget]
  rfl

lemma releaseBlock_iff {r : Int} (hr : 0 ≤ r) :
    getTermDepositReleaseBlock script = .ok r ↔ ∃ vch rest, DepositPrefix script vch rest ∧ ChecksOffsets vch rest ∧
      r = getint (setVch vch) := by
  constructor
  · intro h
    cases script with
    | nil => cases h; omega
    | cons b tail =>
      by_cases hwindow : InDepositWindow b tail
      · rw [getTermDepositReleaseBlock_inside hwindow] at h
        obtain ⟨hmin, hmax, hpos, hfour⟩ := hwindow
        obtain ⟨mismatch, hmismatch, h⟩ := ok_of_bind h
        cases mismatch with
        | true => cases h; omega
        | false =>
          obtain ⟨n, hn, h⟩ := ok_of_bind h
          cases h
          have hbytes := anyMismatch_false_iff.mp hmismatch
          simp only [depositOffsets, forall_mem_cons, not_mem_nil, false_imp_iff, implies_true, and_true,
            getElem?_cons_succ] at hbytes
          obtain ⟨hcltv, hdrop, hdup, hhash, hverify, hcheck⟩ := hbytes
          have hlen : (tail.take b.toNat).length = b.toNat := by rw [length_take]; omega
          have htail : tail = tail.take b.toNat ++ OP_CHECKLOCKTIMEVERIFY :: OP_DROP :: OP_DUP :: OP_HASH160 ::
              tail.drop (b.toNat + 4) := by
            rw [← drop_eq_cons hhash, ← drop_eq_cons hdup, ← drop_eq_cons hdrop, ← drop_eq_cons hcltv,
              take_append_drop]
          have hminimal := isMinimalNum_of_scriptNum (by omega) ⟨n, hn⟩
          rw [scriptNum_of_minimal (by omega) hminimal] at hn
          cases hn
          refine ⟨tail.take b.toNat, tail.drop (b.toNat + 4), ⟨?_, by omega, by omega, hminimal⟩, ?_, rfl⟩
          · rw [hlen, UInt8.ofNat_toNat, ← htail]
          · constructor
            · omega
            · rw [hlen, length_drop]; omega
            · rw [hlen, length_drop]; omega
            · rw [getElem?_drop, ← hverify]
            · rw [getElem?_drop, ← hcheck]
      · rw [getTermDepositReleaseBlock_outside hwindow] at h
        cases h
        omega
  · rintro ⟨vch, rest, h, hoffsets, rfl⟩
    have hpos := h.pos
    have hfour := hoffsets.four
    have hmin := hoffsets.min
    have hmax := hoffsets.max
    have hnum := scriptNum_of_minimal h.le h.minimal
    have hfirst := h.first
    rw [h.script_eq, getTermDepositReleaseBlock_inside, hfirst]
    · have hmatch : anyMismatch (UInt8.ofNat vch.length ::
          (vch ++ OP_CHECKLOCKTIMEVERIFY :: OP_DROP :: OP_DUP :: OP_HASH160 :: rest)) (depositOffsets vch.length) =
            .ok false := by
        rw [anyMismatch_false_iff]
        simp only [depositOffsets, forall_mem_cons, not_mem_nil, false_imp_iff, implies_true, and_true,
          getElem?_cons_succ]
        have hbehind : ∀ (bytes : List UInt8) (i : Nat), (vch ++ bytes)[vch.length + i]? = bytes[i]? :=
          fun bytes i => by
          rw [getElem?_append_right (by omega), Nat.add_sub_cancel_left]
        exact ⟨hbehind _ 0, hbehind _ 1, hbehind _ 2, hbehind _ 3, (hbehind _ 25).trans hoffsets.verify,
          (hbehind _ 26).trans hoffsets.check⟩
      rw [hmatch, take_left, hnum]
      rfl
    · refine ⟨?_, ?_, by rw [hfirst]; exact hpos, by rw [hfirst]; exact hfour⟩
      · simp only [length_append, length_cons]
        omega
      · simp only [length_append, length_cons]
        omega

lemma evalLoop_succ {fuel : Nat} (hpc : st.pc ≠ []) (h : evalLoop C (fuel + 1) st = .ok st') :
    ∃ st₁, evalStep C st = .ok st₁ ∧ evalLoop C fuel st₁ = .ok st' := by
  unfold evalLoop at h
  rw [if_neg (by simpa using hpc)] at h
  exact ok_of_bind h

lemma evalStep_exec {opcode : Opcode} {pc : List UInt8}
    (hget : getScriptOp st.pc = some (opcode, vch, pc)) (h : evalStep C st = .ok st') :
    ∃ nOpCount, execInstruction C opcode vch { st with pc := pc, nOpCount := nOpCount } = .ok st' := by
  unfold evalStep at h
  simp only [hget, except_bind_eq_ok] at h
  obtain ⟨-, -, -, -, -, -, -, -, st₁, hrun, -, -, hst'⟩ := h
  cases hst'
  exact ⟨_, hrun⟩

lemma evalStep_push (hpc : st.pc = b :: (vch ++ rest)) (hlen : vch.length = b.toNat)
    (hb : b < OP_PUSHDATA1) (hexec : st.vfExec = []) (h : evalStep C st = .ok st') :
    st'.pc = rest ∧ st'.stack = vch :: st.stack ∧ st'.vfExec = [] := by
  have hget : getScriptOp st.pc = some (b, vch, rest) := by
    rw [hpc, getScriptOp_push hb hlen]
  have hle : b ≤ OP_PUSHDATA4 := by
    have hb' : b.toNat < 0x4c := UInt8.lt_iff_toNat_lt.mp hb
    exact UInt8.le_iff_toNat_le.mpr (show b.toNat ≤ 0x4e by omega)
  obtain ⟨nOpCount, hrun⟩ := evalStep_exec hget h
  simp only [execInstruction, hexec, all_nil, hle, decide_true, Bool.and_true, if_true] at hrun
  split_ifs at hrun
  cases hrun
  exact ⟨rfl, rfl, rfl⟩

lemma evalStep_checkLockTimeVerify (hflag : C.flags.checkLockTimeVerify = true)
    (hpc : st.pc = OP_CHECKLOCKTIMEVERIFY :: rest) (hstack : st.stack = vch :: stack)
    (hexec : st.vfExec = []) (h : evalStep C st = .ok st') :
    0 ≤ setVch vch ∧ C.checker.checkLockTime (setVch vch) = true := by
  have hget : getScriptOp st.pc = some (OP_CHECKLOCKTIMEVERIFY, [], rest) := by
    rw [hpc]
    rfl
  obtain ⟨nOpCount, hrun⟩ := evalStep_exec hget h
  simp only [execInstruction, hexec] at hrun
  change execCheckLockTimeVerify C _ = .ok st' at hrun
  unfold execCheckLockTimeVerify at hrun
  simp only [hflag, hstack, Bool.not_true, Bool.false_eq_true, if_false, except_bind_eq_ok, require_eq_ok,
    evalNum, mapError_eq_ok] at hrun
  obtain ⟨n, hn, -, hneg, -, hcheck, -⟩ := hrun
  unfold scriptNum at hn
  split_ifs at hn
  cases hn
  exact ⟨of_decide_eq_true hneg, hcheck⟩

lemma DepositPrefix.checks (hshape : DepositPrefix script vch rest) (hflag : C.flags.checkLockTimeVerify = true)
    (h : evalScript C stack script = .ok stack') : 0 ≤ setVch vch ∧ C.checker.checkLockTime (setVch vch) = true := by
  rw [hshape.script_eq] at h
  unfold evalScript at h
  simp only [except_bind_eq_ok, length_cons, length_append] at h
  obtain ⟨-, -, st', hloop, -⟩ := h
  obtain ⟨st₁, hstep₁, hloop₁⟩ := evalLoop_succ (by simp) hloop
  have hpush : UInt8.ofNat vch.length < OP_PUSHDATA1 := UInt8.lt_trans hshape.range.2 (by decide)
  obtain ⟨hpc₁, hstack₁, hexec₁⟩ := evalStep_push rfl hshape.first.symm hpush rfl hstep₁
  rw [← Nat.add_assoc] at hloop₁
  obtain ⟨st₂, hstep₂, -⟩ := evalLoop_succ (by simp [hpc₁]) hloop₁
  exact evalStep_checkLockTimeVerify hflag hpc₁ hstack₁ hexec₁ hstep₂

lemma getint_eq_self (h : getint n < 500000000) (hpos : 0 < getint n) : getint n = n := by
  unfold getint at h hpos ⊢
  split_ifs at h hpos ⊢ <;> omega

lemma checkLockTime_lt_height (hin : txin ∈ tx.vin) (hpos : 0 < n) (hlt : n < LOCKTIME_THRESHOLD)
    (hcheck : checkLockTime tx txin n = true) (hfinal : isFinalTx tx s nBlockTime = true) :
    n < s := by
  unfold checkLockTime at hcheck
  dsimp only at hcheck
  split_ifs at hcheck with htype hle hseq
  have htx : (tx.nLockTime : Int) < LOCKTIME_THRESHOLD := by
    rcases htype with ⟨h, -⟩ | ⟨-, h⟩
    · exact h
    · omega
  unfold isFinalTx at hfinal
  rw [if_neg (by omega), if_pos htx] at hfinal
  split_ifs at hfinal with hbelow
  · omega
  · have hall := all_eq_true.mp hfinal txin hin
    exact absurd (eq_of_beq hall).symm hseq

lemma LOCKTIME_THRESHOLD_eq : LOCKTIME_THRESHOLD = 500000000 := rfl

lemma evalScript_released (hflag : C.flags.checkLockTimeVerify = true)
    {checkSig : List UInt8 → List UInt8 → CScript → SigVersion → Bool} (hin : txin ∈ tx.vin)
    (hchecker : C.checker = transactionSignatureChecker checkSig tx txin)
    (hfinal : isFinalTx tx s nBlockTime = true) (heval : evalScript C stack script = .ok stack')
    (hr : getTermDepositReleaseBlock script = .ok r) (hpos : 0 < r) (hlt : r < 500000000) :
    r < s := by
  obtain ⟨vch, rest, hshape, -, rfl⟩ := (releaseBlock_iff hpos.le).mp hr
  have hcheck := (hshape.checks hflag heval).2
  have hn := getint_eq_self hlt hpos
  simp only [hchecker, transactionSignatureChecker] at hcheck
  have hthreshold : setVch vch < LOCKTIME_THRESHOLD := by
    rw [LOCKTIME_THRESHOLD_eq]
    omega
  have := checkLockTime_lt_height hin (by omega) hthreshold hcheck hfinal
  omega

lemma growthForAmount_nonpos {table : Nat → Nat} {periods amount : Int} {ss : List Int}
    (hp : periods ≤ 0) (h : growthForAmount table periods amount = ⟨.ok n, ss⟩) : n = 0 := by
  unfold growthForAmount at h
  rw [if_pos (.inl hp)] at h
  exact (Tally.pure_eq_ok.mp h).1.symm

lemma getInterest_gt {nValue o v m : Int} {ss : List Int} (hrange : InRange64 nValue)
    (h : getInterest nValue o v m = ⟨.ok n, ss⟩) (hgt : nValue < n) : 0 < m ∧ m < 500000000 := by
  unfold getInterest getInterestFrom at h
  by_cases hcond : m ≥ 500000000 ∨ o < 0 ∨ o ≥ 170000 ∨ v < 0 ∨ v < o
  · rw [if_pos hcond] at h
    have := (Tally.pure_eq_ok.mp h).1
    omega
  refine ⟨?_, by omega⟩
  by_contra hm
  rw [if_neg hcond] at h
  simp only [if_neg hm, Tally.bind_eq_ok, sum64_eq_ok] at h
  obtain ⟨i, _, _, hi, ⟨b, _, _, hb, ⟨t, _, _, ⟨rfl, -⟩, ⟨u, _, _, ⟨hu, -⟩, ⟨rfl, -⟩, -⟩, -⟩, -⟩, -⟩ := h
  have hi0 := growthForAmount_nonpos le_rfl hi
  have hb0 : b = 0 := by
    unfold bonusInterest at hb
    split_ifs at hb
    · exact growthForAmount_nonpos le_rfl hb
    · exact (Tally.pure_eq_ok.mp hb).1.symm
  subst hi0 hb0 hu
  simp only [hm, false_and, if_false, add_zero] at hgt
  rw [show wrap64 0 = 0 from rfl, add_zero, wrap64_eq_self hrange, wrap64_eq_self hrange] at hgt
  omega

/-- Interest is only paid after the lock. -/
theorem termDeposit_released {C : EvalContext} (hflag : C.flags.checkLockTimeVerify = true)
    {checkSig : List UInt8 → List UInt8 → CScript → SigVersion → Bool} {tx : CTransaction} {txin : CTxIn}
    (hin : txin ∈ tx.vin) (hchecker : C.checker = transactionSignatureChecker checkSig tx txin)
    {s nBlockTime : Int} (hfinal : isFinalTx tx s nBlockTime = true) {out : CTxOut} (hvalue : InRange64 out.nValue)
    {r : Int} (hr : getTermDepositReleaseBlock out.scriptPubKey = .ok r) {stack stack' : List (List UInt8)}
    (heval : evalScript C stack out.scriptPubKey = .ok stack') :
    (0 < r → r < 500000000 → r < s) ∧
      ∀ nHeight credit ss, out.getValueWithInterest nHeight s = ⟨.ok credit, ss⟩ → out.nValue < credit →
        0 < r ∧ r < 500000000 ∧ r < s := by
  have hlocked : 0 < r → r < 500000000 → r < s := evalScript_released hflag hin hchecker hfinal heval hr
  refine ⟨hlocked, fun nHeight credit ss hcredit hgt => ?_⟩
  unfold CTxOut.getValueWithInterest at hcredit
  obtain ⟨m, s₁, s₂, hm, hinterest, -⟩ := Tally.bind_eq_ok.mp hcredit
  obtain rfl : m = r := Except.ok.inj ((liftException_eq_ok.mp hm).1.symm.trans hr)
  obtain ⟨hpos, hlt⟩ := getInterest_gt hvalue hinterest hgt
  exact ⟨hpos, hlt, hlocked hpos hlt⟩

/-- A deposit of 100 coins released at block 1000, and the hash it is locked to. -/
def exampleDeposit : CTxOut :=
  ⟨100 * COIN, [2, 0xe8, 0x03, OP_CHECKLOCKTIMEVERIFY, OP_DROP] ++ keyIDScript (List.replicate 20 0), -10⟩

def exampleSpend : CTransaction := ⟨[⟨⟨1, 0⟩, [], 0, []⟩], [], 1, 1000, 2⟩

def exampleContext : EvalContext where
  hashes := ⟨id, id, id, fun _ => List.replicate 20 0, id⟩
  checkLowS := fun _ => true
  flags := { checkLockTimeVerify := true }
  checker := transactionSignatureChecker (fun _ _ _ _ => true) exampleSpend ⟨⟨1, 0⟩, [], 0, []⟩
  sigversion := .base

theorem termDeposit_released_example :
    (∃ credit ss, exampleDeposit.getValueWithInterest 1 1001 = ⟨.ok credit, ss⟩ ∧ exampleDeposit.nValue < credit) ∧
      (1000 : Int) < 1001 := by
  have hfinal : isFinalTx exampleSpend 1001 0 = true := by decide
  have hrelease : getTermDepositReleaseBlock exampleDeposit.scriptPubKey = .ok 1000 := by decide +kernel
  have heval : evalScript exampleContext [[2], [1]] exampleDeposit.scriptPubKey = .ok [[1]] := by decide +kernel
  have hlocked := termDeposit_released (C := exampleContext) rfl mem_cons_self rfl hfinal ⟨by decide,
    by decide⟩ hrelease heval
  refine ⟨⟨10011913825, [2382084, 9531741, 11913825, 10011913825, 10011913825], ?_, by decide⟩, ?_⟩
  · decide +kernel
  · exact hlocked.1 (by decide) (by decide)

end Qstees.Proofs
