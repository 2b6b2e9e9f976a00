import Qstees.Proofs.ScriptTotality
import Qstees.Proofs.WalletCoins

/-!
# The two recognisers of term deposits

The wallet asks `Solver`, which reads instructions; the valuation of a coin asks `GetTermDepositReleaseBlock`, which
reads bytes at fixed offsets.
-/

namespace Qstees.Proofs

open List

def hashPushes : List (List UInt8) :=
  [[0x14], [OP_PUSHDATA1, 0x14], [OP_PUSHDATA2, 0x14, 0], [OP_PUSHDATA4, 0x14, 0, 0, 0]]

def ChecksHash (push rest : List UInt8) : Prop :=
  ∃ id : List UInt8, id.length = 20 ∧ rest = push ++ (id ++ [OP_EQUALVERIFY, OP_CHECKSIG])

variable {pc vch rest push : List UInt8} {script : CScript}

lemma takeOperand_eq_some {opcode opcode' : Opcode} {n : Nat} {pc' : List UInt8} :
    takeOperand opcode n pc = some (opcode', vch, pc') ↔ opcode = opcode' ∧ vch.length = n ∧ pc = vch ++ pc' := by
  unfold takeOperand
  constructor
  · intro h
    split_ifs at h with hlen
    cases h
    rw [take_append_drop, length_take]
    exact ⟨rfl, by omega, rfl⟩
  · rintro ⟨rfl, rfl, rfl⟩
    simp

lemma readLE_eq_zero {bytes : List UInt8} (h : readLE bytes = 0) : bytes = List.replicate bytes.length 0 := by
  induction bytes with
  | nil => rfl
  | cons b bytes ih =>
    unfold readLE at h
    obtain rfl : b = 0 := UInt8.toNat_inj.mp (show b.toNat = 0 by omega)
    rw [length_cons, replicate_succ, ← ih (by omega)]

lemma readLE_eq_twenty {bytes : List UInt8} (h : readLE bytes = 20) :
    bytes = 0x14 :: List.replicate (bytes.length - 1) 0 := by
  cases bytes with
  | nil => cases h
  | cons b bytes =>
    unfold readLE at h
    have hb : b.toNat < 256 := UInt8.toNat_lt b
    obtain rfl : b = 0x14 := UInt8.toNat_inj.mp (show b.toNat = 20 by omega)
    rw [length_cons, Nat.add_sub_cancel, ← readLE_eq_zero (by omega)]

lemma takeOperand_hash {opcode opcode' : Opcode} {k : Nat} {tail id : List UInt8}
    (hid : id.length = 20) (hk : k ≤ tail.length)
    (h : takeOperand opcode (readLE (tail.take k)) (tail.drop k) = some (opcode', id, pc)) :
    tail = 0x14 :: List.replicate (k - 1) 0 ++ (id ++ pc) := by
  obtain ⟨-, hsize, hdrop⟩ := takeOperand_eq_some.mp h
  have htake := readLE_eq_twenty (hsize.symm.trans hid)
  rw [length_take, min_eq_left hk] at htake
  rw [← htake, ← hdrop, take_append_drop]

lemma getScriptOp_hash {script id : List UInt8} (hid : id.length = 20) :
    (∃ opcode, getScriptOp script = some (opcode, id, pc)) ↔ ∃ push ∈ hashPushes, script = push ++ (id ++ pc) := by
  constructor
  · rintro ⟨opcode, h⟩
    cases script with
    | nil => cases h
    | cons first tail =>
      unfold getScriptOp at h
      dsimp only at h
      split_ifs at h with hdirect h1 hlen1 h2 hlen2 h4 hlen4
      · obtain ⟨-, hn, rfl⟩ := takeOperand_eq_some.mp h
        obtain rfl : first = 0x14 := UInt8.toNat_inj.mp (hn.symm.trans hid)
        exact ⟨[0x14], by simp [hashPushes], rfl⟩
      · subst h1
        rw [takeOperand_hash hid (by omega) h]
        exact ⟨[OP_PUSHDATA1, 0x14], by simp [hashPushes], rfl⟩
      · subst h2
        rw [takeOperand_hash hid (by omega) h]
        exact ⟨[OP_PUSHDATA2, 0x14, 0], by simp [hashPushes], rfl⟩
      · subst h4
        rw [takeOperand_hash hid (by omega) h]
        exact ⟨[OP_PUSHDATA4, 0x14, 0, 0, 0], by simp [hashPushes], rfl⟩
      · cases h
        cases hid
  · rintro ⟨push, hpush, rfl⟩
    simp only [hashPushes, mem_cons, not_mem_nil, or_false] at hpush
    have htake : ∀ opcode, takeOperand opcode 20 (id ++ pc) = some (opcode, id, pc) :=
      fun opcode => takeOperand_eq_some.mpr ⟨rfl, hid, rfl⟩
    rcases hpush with rfl | rfl | rfl | rfl
    · exact ⟨_, htake 0x14⟩
    · exact ⟨_, htake OP_PUSHDATA1⟩
    · exact ⟨_, htake OP_PUSHDATA2⟩
    · exact ⟨_, htake OP_PUSHDATA4⟩

lemma DepositPrefix.unique {script vch' rest' : List UInt8} (h : DepositPrefix script vch rest)
    (h' : DepositPrefix script vch' rest') : vch = vch' ∧ rest = rest' := by
  have heq := h.script_eq.symm.trans h'.script_eq
  obtain ⟨hfirst, htail⟩ := List.cons.inj heq
  have hlen : vch.length = vch'.length := by
    have htoNat := congrArg UInt8.toNat hfirst
    rw [UInt8.toNat_ofNat', UInt8.toNat_ofNat'] at htoNat
    have := h.le
    have := h'.le
    omega
  obtain ⟨hvch, hrest⟩ := append_inj htail hlen
  exact ⟨hvch, by simpa using hrest⟩

lemma matchTemplate_deposit {sol : List (List UInt8)} :
    matchTemplate [OP_CHECKLOCKTIMEVERIFY, OP_DROP, OP_DUP, OP_HASH160, OP_PUBKEYHASH, OP_EQUALVERIFY, OP_CHECKSIG]
        script [] = .ok (some sol) ↔
      ∃ rest id, script = OP_CHECKLOCKTIMEVERIFY :: OP_DROP :: OP_DUP :: OP_HASH160 :: rest ∧ id.length = 20 ∧
        (∃ push ∈ hashPushes, rest = push ++ (id ++ [OP_EQUALVERIFY, OP_CHECKSIG])) ∧ sol = [id] := by
  simp (disch := decide) only [matchTemplate_fixed, matchTemplate_pubKeyHash, matchTemplate_nil]
  constructor
  · rintro ⟨_, rfl, _, rfl, _, rfl, rest, rfl, opcode, id, _, hget, hid, _, rfl, _, rfl, rfl, rfl⟩
    exact ⟨rest, id, rfl, hid, (getScriptOp_hash hid).mp ⟨opcode, hget⟩, rfl⟩
  · rintro ⟨rest, id, rfl, hid, hpush, rfl⟩
    obtain ⟨opcode, hget⟩ := (getScriptOp_hash hid).mpr hpush
    exact ⟨_, rfl, _, rfl, _, rfl, rest, rfl, opcode, id, _, hget, hid, _, rfl, _, rfl, rfl, rfl⟩

lemma DepositPrefix.getScriptOp {script : List UInt8} (h : DepositPrefix script vch rest) :
    getScriptOp script = some (UInt8.ofNat vch.length, vch,
      OP_CHECKLOCKTIMEVERIFY :: OP_DROP :: OP_DUP :: OP_HASH160 :: rest) := by
  rw [h.script_eq]
  exact getScriptOp_push (UInt8.lt_trans h.range.2 (by decide)) h.first.symm

lemma DepositPrefix.solver {id : List UInt8} (h : DepositPrefix script vch rest) (hid : id.length = 20)
    (hpush : ∃ push ∈ hashPushes, rest = push ++ (id ++ [OP_EQUALVERIFY, OP_CHECKSIG])) :
    solver script = .ok ⟨true, .checklocktimeverify, [id]⟩ := by
  have hnumber : matchOpcode (UInt8.ofNat vch.length) vch OP_LOCKTIMEINTEGER = .ok (some []) :=
    matchOpcode_lockTimeInteger.mpr ⟨h.range, ⟨_, scriptNum_of_minimal h.le h.minimal⟩, rfl⟩
  have hmatch : matchTemplate [OP_LOCKTIMEINTEGER, OP_CHECKLOCKTIMEVERIFY, OP_DROP, OP_DUP, OP_HASH160, OP_PUBKEYHASH,
      OP_EQUALVERIFY, OP_CHECKSIG] script [] = .ok (some [id]) := by
    rw [matchTemplate_of_cons (by decide) h.getScriptOp hnumber]
    exact matchTemplate_deposit.mpr ⟨rest, id, rfl, hid, hpush, rfl⟩
  have hsolver : Qstees.solver script = scanTemplates script (mTemplates.drop 3) := by
    rw [h.script_eq]
    exact solver_numberPush h.first.symm (by rw [h.first]; exact h.pos) (by rw [h.first]; exact h.le)
  rw [hsolver]
  unfold mTemplates
  rw [drop_succ_cons, drop_succ_cons, drop_succ_cons, drop_zero, scanTemplates, hmatch]
  rfl

lemma solver_deposit :
    isOutputTermDeposit script = .ok true ↔
      ∃ vch rest, DepositPrefix script vch rest ∧ ∃ push ∈ hashPushes, ChecksHash push rest := by
  constructor
  · intro h
    obtain ⟨solved, hsolved, htype⟩ := ok_of_bind h
    have htype' : solved.typeRet = .checklocktimeverify := by simpa [pure, Except.pure] using htype
    obtain ⟨template, hmem, hmatch⟩ := solver_template hsolved htype' (by decide)
    obtain rfl : template = [OP_LOCKTIMEINTEGER, OP_CHECKLOCKTIMEVERIFY, OP_DROP, OP_DUP, OP_HASH160, OP_PUBKEYHASH,
        OP_EQUALVERIFY, OP_CHECKSIG] := by
      simpa [mTemplates] using hmem
    obtain ⟨b, vch, pc, new, hpush, hnumber, hbehind⟩ := (matchTemplate_cons (by decide)).mp hmatch
    obtain ⟨⟨hpos, hlt⟩, hnum, rfl⟩ := matchOpcode_lockTimeInteger.mp hnumber
    obtain ⟨rfl, hlen⟩ := getScriptOp_direct (UInt8.lt_trans hlt (by decide)) hpush
    obtain ⟨rest, id, rfl, hid, ⟨push, hmem, rfl⟩, -⟩ := matchTemplate_deposit.mp hbehind
    have h0 : 0 < b.toNat := UInt8.lt_iff_toNat_lt.mp hpos
    have h6 : b.toNat < 6 := UInt8.lt_iff_toNat_lt.mp hlt
    refine ⟨vch, _, ⟨?_, by omega, by omega, isMinimalNum_of_scriptNum (by omega) hnum⟩, push, hmem, id, hid, rfl⟩
    rw [hlen, UInt8.ofNat_toNat]
  · rintro ⟨vch, rest, h, push, hmem, id, hid, hrest⟩
    unfold isOutputTermDeposit
    rw [h.solver hid ⟨push, hmem, hrest⟩]
    rfl

lemma isDeposit_iff {r : Int} :
    IsDeposit script r ↔ ∃ vch rest, DepositPrefix script vch rest ∧ (∃ push ∈ hashPushes, ChecksHash push rest) ∧
      r = getint (setVch vch) := by
  have hrelease : ∀ {vch rest}, DepositPrefix script vch rest → isOutputTermDeposit script = .ok true →
      outputTermDepositReleaseBlock script = .ok (getint (setVch vch)) := fun h hdeposit => by
    unfold outputTermDepositReleaseBlock
    rw [hdeposit, h.getScriptOp]
    simp only [scriptNum_of_minimal h.le h.minimal, bind, Except.bind]
    rfl
  constructor
  · rintro ⟨hdeposit, hr⟩
    obtain ⟨vch, rest, h, hpush⟩ := solver_deposit.mp hdeposit
    exact ⟨vch, rest, h, hpush, Except.ok.inj (hr.symm.trans (hrelease h hdeposit))⟩
  · rintro ⟨vch, rest, h, hpush, rfl⟩
    have hdeposit := solver_deposit.mpr ⟨vch, rest, h, hpush⟩
    exact ⟨hdeposit, hrelease h hdeposit⟩

/-- What one recogniser accepts behind a deposit's prefix and the other does not. -/
inductive LookAlike (vch rest : List UInt8) : Prop
  /-- a number of five bytes is too long for the offsets -/
  | longNumber (hfive : vch.length = 5) (hhash : ChecksHash [0x14] rest)
  | pushData1 (hhash : ChecksHash [OP_PUSHDATA1, 0x14] rest)
  /-- the offsets fall on the last two bytes of the hash -/
  | pushData2 (hhash : ChecksHash [OP_PUSHDATA2, 0x14, 0] rest)
      (hbytes : ¬(vch.length ≤ 2 ∧ rest[21]? = some OP_EQUALVERIFY ∧ rest[22]? = some OP_CHECKSIG))
  | pushData4 (hhash : ChecksHash [OP_PUSHDATA4, 0x14, 0, 0, 0] rest)
  /-- the byte in front of the hash is not looked at -/
  | otherPush (hoffsets : ChecksOffsets vch rest) (hpush : rest[0]? ≠ some 0x14)
      (hdata : ¬ChecksHash [OP_PUSHDATA2, 0x14, 0] rest)
  /-- nor is the end of the script -/
  | trailing (hoffsets : ChecksOffsets vch rest) (hpush : rest[0]? = some 0x14) (hlength : rest.length ≠ 23)

lemma ChecksHash.length (h : ChecksHash push rest) : rest.length = push.length + 22 := by
  obtain ⟨id, hid, rfl⟩ := h
  rw [length_append, length_append, hid]
  rfl

lemma ChecksHash.verify (h : ChecksHash push rest) :
    rest[push.length + 20]? = some OP_EQUALVERIFY ∧ rest[push.length + 21]? = some OP_CHECKSIG := by
  obtain ⟨id, hid, rfl⟩ := h
  rw [getElem?_append_right (by omega), getElem?_append_right (by omega), getElem?_append_right (by omega),
    getElem?_append_right (by omega), Nat.add_sub_cancel_left, Nat.add_sub_cancel_left, hid]
  exact ⟨rfl, rfl⟩

lemma ChecksHash.head {b : UInt8} (h : ChecksHash (b :: push) rest) : rest[0]? = some b := by
  obtain ⟨id, -, rfl⟩ := h
  rfl

lemma ChecksOffsets.not_pushData1 (h : ChecksOffsets vch rest) :
    ¬ChecksHash [OP_PUSHDATA1, 0x14] rest := fun hhash =>
  absurd (hhash.verify.1.symm.trans h.check) (by decide)

lemma ChecksOffsets.not_pushData4 (h : ChecksOffsets vch rest) (hpos : 1 ≤ vch.length) :
    ¬ChecksHash [OP_PUSHDATA4, 0x14, 0, 0, 0] rest := fun hhash => by
  have hlength := hhash.length
  have hmax := h.max
  simp only [length_cons, length_nil] at hlength
  omega

lemma checksHash_direct :
    ChecksHash [0x14] rest ↔ rest[0]? = some 0x14 ∧ rest.length = 23 ∧ rest[21]? = some OP_EQUALVERIFY ∧
      rest[22]? = some OP_CHECKSIG := by
  constructor
  · intro h
    refine ⟨?_, h.length, h.verify⟩
    obtain ⟨id, -, rfl⟩ := h
    rfl
  · rintro ⟨hpush, hlength, hverify, hcheck⟩
    refine ⟨(rest.drop 1).take 20, by simp [hlength], ?_⟩
    have htail : rest.drop 21 = [OP_EQUALVERIFY, OP_CHECKSIG] := by
      rw [drop_eq_cons hverify, drop_eq_cons hcheck, drop_eq_nil_iff.mpr (by omega)]
    calc rest = rest.drop 0 := rfl
      _ = 0x14 :: rest.drop 1 := drop_eq_cons hpush
      _ = 0x14 :: ((rest.drop 1).take 20 ++ (rest.drop 1).drop 20) := by rw [take_append_drop]
      _ = [0x14] ++ ((rest.drop 1).take 20 ++ [OP_EQUALVERIFY, OP_CHECKSIG]) := by
        rw [drop_drop, htail]
        rfl

lemma tails_agree_iff (hfive : vch.length ≤ 5) (hpos : 1 ≤ vch.length) :
    ((∃ push ∈ hashPushes, ChecksHash push rest) ↔ ChecksOffsets vch rest) ↔ ¬LookAlike vch rest := by
  have hpushes : (∃ push ∈ hashPushes, ChecksHash push rest) ↔ ChecksHash [0x14] rest ∨
      ChecksHash [OP_PUSHDATA1, 0x14] rest ∨ ChecksHash [OP_PUSHDATA2, 0x14, 0] rest ∨
      ChecksHash [OP_PUSHDATA4, 0x14, 0, 0, 0] rest := by
    simp [hashPushes]
  rw [hpushes]
  constructor
  · intro hagree hlook
    cases hlook with
    | longNumber hfive hhash =>
      have := (hagree.mp (.inl hhash)).four
      omega
    | pushData1 hhash => exact (hagree.mp (.inr (.inl hhash))).not_pushData1 hhash
    | pushData2 hhash hbytes =>
      have hoffsets := hagree.mp (.inr (.inr (.inl hhash)))
      have hlength : rest.length = 25 := hhash.length
      have hmax := hoffsets.max
      exact hbytes ⟨by omega, hoffsets.verify, hoffsets.check⟩
    | pushData4 hhash => exact (hagree.mp (.inr (.inr (.inr hhash)))).not_pushData4 hpos hhash
    | otherPush hoffsets hpush hdata =>
      rcases hagree.mpr hoffsets with hhash | hhash | hhash | hhash
      · exact hpush hhash.head
      · exact hoffsets.not_pushData1 hhash
      · exact hdata hhash
      · exact hoffsets.not_pushData4 hpos hhash
    | trailing hoffsets hpush hlength =>
      rcases hagree.mpr hoffsets with hhash | hhash | hhash | hhash
      · exact hlength hhash.length
      · exact absurd (hhash.head.symm.trans hpush) (by decide)
      · exact absurd (hhash.head.symm.trans hpush) (by decide)
      · exact absurd (hhash.head.symm.trans hpush) (by decide)
  · intro hlook
    constructor
    · rintro (hhash | hhash | hhash | hhash)
      · have hlength : rest.length = 23 := hhash.length
        have hne : vch.length ≠ 5 := fun h => hlook (.longNumber h hhash)
        obtain ⟨hverify, hcheck⟩ := hhash.verify
        exact ⟨by omega, by omega, by omega, hverify, hcheck⟩
      · exact absurd (.pushData1 hhash) hlook
      · have hlength : rest.length = 25 := hhash.length
        obtain ⟨htwo, hverify, hcheck⟩ := not_not.mp fun hbytes => hlook (.pushData2 hhash hbytes)
        exact ⟨by omega, by omega, by omega, hverify, hcheck⟩
      · exact absurd (.pushData4 hhash) hlook
    · intro hoffsets
      by_cases hpush : rest[0]? = some 0x14
      · have hlength : rest.length = 23 := not_not.mp fun hlength => hlook (.trailing hoffsets hpush hlength)
        exact .inl (checksHash_direct.mpr ⟨hpush, hlength, hoffsets.verify, hoffsets.check⟩)
      · exact .inr (.inr (.inl (not_not.mp fun hdata => hlook (.otherPush hoffsets hpush hdata))))

lemma getint_nonneg_iff {n : Int} : 0 ≤ getint n ↔ 0 ≤ n := by
  unfold getint
  split_ifs <;> omega

/-- The recognisers agree on every script that is not a look-alike with a release block. -/
theorem recognisers_agree_iff (script : CScript) :
    (∀ r, 0 ≤ r → (IsDeposit script r ↔ getTermDepositReleaseBlock script = .ok r)) ↔
      ∀ vch rest, DepositPrefix script vch rest → 0 ≤ setVch vch → ¬LookAlike vch rest := by
  constructor
  · intro hagree vch rest h hnonneg
    have hr := getint_nonneg_iff.mpr hnonneg
    have hsame := hagree _ hr
    rw [isDeposit_iff, releaseBlock_iff hr] at hsame
    rw [← tails_agree_iff h.le h.pos]
    constructor
    · intro hpush
      obtain ⟨vch', rest', h', hoffsets, -⟩ := hsame.mp ⟨vch, rest, h, hpush, rfl⟩
      obtain ⟨rfl, rfl⟩ := h.unique h'
      exact hoffsets
    · intro hoffsets
      obtain ⟨vch', rest', h', hpush, -⟩ := hsame.mpr ⟨vch, rest, h, hoffsets, rfl⟩
      obtain ⟨rfl, rfl⟩ := h.unique h'
      exact hpush
  · intro hlook r hr
    rw [isDeposit_iff, releaseBlock_iff hr]
    have htails : ∀ {vch rest}, DepositPrefix script vch rest → r = getint (setVch vch) →
        ((∃ push ∈ hashPushes, ChecksHash push rest) ↔ ChecksOffsets vch rest) := fun h heq =>
      (tails_agree_iff h.le h.pos).mpr (hlook _ _ h (getint_nonneg_iff.mp (heq ▸ hr)))
    constructor
    · rintro ⟨vch, rest, h, hpush, heq⟩
      exact ⟨vch, rest, h, (htails h heq).mp hpush, heq⟩
    · rintro ⟨vch, rest, h, hoffsets, heq⟩
      exact ⟨vch, rest, h, (htails h heq).mpr hoffsets, heq⟩

def pushData1Deposit : CScript :=
  [2, 0xe8, 0x03, OP_CHECKLOCKTIMEVERIFY, OP_DROP, OP_DUP, OP_HASH160, OP_PUSHDATA1, 0x14] ++ List.replicate 20 0 ++
    [OP_EQUALVERIFY, OP_CHECKSIG]

def hashlessDeposit : CScript :=
  [2, 0xe8, 0x03, OP_CHECKLOCKTIMEVERIFY, OP_DROP, OP_DUP, OP_HASH160, OP_NOP] ++ List.replicate 20 OP_NOP ++
    [OP_EQUALVERIFY, OP_CHECKSIG]

/-- Each recogniser takes a script that the other refuses. -/
theorem recognisers_differ :
    (IsDeposit pushData1Deposit 1000 ∧ getTermDepositReleaseBlock pushData1Deposit = .ok (-1)) ∧
      isOutputTermDeposit hashlessDeposit = .ok false ∧ getTermDepositReleaseBlock hashlessDeposit = .ok 1000 := by
  unfold IsDeposit
  decide +kernel

end Qstees.Proofs
