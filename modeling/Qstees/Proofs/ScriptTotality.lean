import Qstees.Proofs.ScriptTemplates

/-!
# Scripts that the recognisers return on

`Solver` decodes a number in the first instruction of every script that is not matched before it reaches the template of
term deposits; the constructor of script numbers throws.
-/

namespace Qstees.Proofs

open List

lemma except_bind_eq_error {ε α β : Type} {x : Except ε α} {f : α → Except ε β} {e : ε} :
    (x >>= f) = .error e ↔ x = .error e ∨ ∃ a, x = .ok a ∧ f a = .error e := by
  cases x with
  | error e' => simp [bind, Except.bind]
  | ok a => simp [bind, Except.bind]

/-- The script begins with a push of one to five bytes that are not the minimal encoding of a number. -/
def NonMinimalPush (script : CScript) : Prop :=
  ∃ (b : UInt8) (vch rest : List UInt8), script = b :: (vch ++ rest) ∧ vch.length = b.toNat ∧
    1 ≤ b.toNat ∧ b.toNat ≤ 5 ∧ isMinimalNum vch = false

variable {e : String} {template : List Opcode} {script : CScript} {sol : List (List UInt8)}
  {b : UInt8} {solved : Solved}

lemma matchOpcode_throws {opcode1 opcode2 : Opcode} {vch1 : List UInt8}
    (h : matchOpcode opcode1 vch1 opcode2 = .error e) :
    opcode2 = OP_LOCKTIMEINTEGER ∧ 0 < opcode1 ∧ opcode1 < 6 ∧ scriptNum vch1 true 5 = .error e := by
  unfold matchOpcode at h
  split_ifs at h with _ _ _ hinteger hrange
  refine ⟨hinteger, hrange.1, hrange.2, ?_⟩
  cases hnum : scriptNum vch1 true 5 with
  | ok n =>
    rw [hnum] at h
    cases h
  | error e' =>
    rw [hnum] at h
    cases h
    rfl

lemma matchStep_throws {x : Except String (Option (List (List UInt8)))}
    {next : List (List UInt8) → Except String (Option (List (List UInt8)))}
    (h : (do match ← x with
      | none => return none
      | some new => next new) = Except.error e) : x = .error e ∨ ∃ new, x = .ok (some new) ∧ next new = .error e := by
  obtain hx | ⟨result, hx, h⟩ := except_bind_eq_error.mp h
  · exact .inl hx
  · cases result with
    | none => cases h
    | some new => exact .inr ⟨new, hx, h⟩

lemma matchTemplate_throws (h : matchTemplate template script sol = .error e) :
    OP_LOCKTIMEINTEGER ∈ template := by
  fun_induction matchTemplate template script sol with
  | case1 => cases h
  | case2 => cases h
  | case3 => cases h
  | case4 _ _ _ _ _ _ _ _ _ _ _ opcode2 pc2 ih =>
    obtain hop | ⟨new, -, h⟩ := matchStep_throws h
    · simp [(matchOpcode_throws hop).1]
    · simp [ih new h]
  | case5 opcode2 pc2 _ _ _ _ _ _ _ ih =>
    obtain hop | ⟨new, -, h⟩ := matchStep_throws h
    · simp [(matchOpcode_throws hop).1]
    · simp [ih new h]

lemma matchTemplate_none {opcode2 opcode1 : Opcode} {pc2 : List Opcode} {vch1 pc1 : CScript}
    (hplain : opcode2 ≠ OP_PUBKEYS) (hget : getScriptOp script = some (opcode1, vch1, pc1))
    (h : matchOpcode opcode1 vch1 opcode2 = .ok none) :
    matchTemplate (opcode2 :: pc2) script sol = .ok none := by
  rw [matchTemplate_eq hplain hget, h]
  rfl

lemma scanTemplates_throws {templates : List (TxnOutType × List Opcode)}
    (h : scanTemplates script templates = .error e) :
    ∃ template ∈ templates, matchTemplate template.2 script [] = .error e := by
  induction templates with
  | nil => cases h
  | cons template templates ih =>
    obtain ⟨type, script2⟩ := template
    unfold scanTemplates at h
    obtain hmatch | ⟨result, -, h⟩ := except_bind_eq_error.mp h
    · exact ⟨_, mem_cons_self, hmatch⟩
    cases result with
    | none =>
      obtain ⟨template, hmem, hmatch⟩ := ih h
      exact ⟨template, mem_cons_of_mem _ hmem, hmatch⟩
    | some sol =>
      dsimp only at h
      split_ifs at h
      all_goals cases h

lemma scanTemplates_skip {type : TxnOutType} {script2 : List Opcode}
    {templates : List (TxnOutType × List Opcode)} (h : matchTemplate script2 script [] = .ok none) :
    scanTemplates script ((type, script2) :: templates) = scanTemplates script templates := by
  rw [scanTemplates, h]
  rfl

lemma solver_throws (h : solver script = .error e) : NonMinimalPush script := by
  unfold solver at h
  split_ifs at h
  obtain ⟨⟨type, template⟩, hmem, hmatch⟩ := scanTemplates_throws h
  have hinteger : OP_LOCKTIMEINTEGER ∈ template := matchTemplate_throws hmatch
  obtain ⟨pc2, rfl, hpc2⟩ : ∃ pc2, template = OP_LOCKTIMEINTEGER :: pc2 ∧ OP_LOCKTIMEINTEGER ∉ pc2 := by
    simp only [mTemplates, mem_cons, Prod.mk.injEq, not_mem_nil, or_false] at hmem
    rcases hmem with ⟨-, rfl⟩ | ⟨-, rfl⟩ | ⟨-, rfl⟩ | ⟨-, rfl⟩ | ⟨-, rfl⟩ | ⟨-, rfl⟩ | ⟨-, rfl⟩ | ⟨-, rfl⟩
    case inr.inr.inr.inl => exact ⟨_, rfl, by decide⟩
    all_goals exact absurd hinteger (by decide)
  dsimp only at hmatch
  cases hget : getScriptOp script with
  | none => simp [matchTemplate, hget] at hmatch
  | some instruction =>
    obtain ⟨opcode1, vch1, pc1⟩ := instruction
    rw [matchTemplate_eq (by decide) hget] at hmatch
    obtain hop | ⟨new, -, hrest⟩ := matchStep_throws hmatch
    · obtain ⟨-, hpos, hlt, hnum⟩ := matchOpcode_throws hop
      obtain ⟨hscript, hlen⟩ := getScriptOp_direct (UInt8.lt_trans hlt (by decide)) hget
      have h0 : 0 < opcode1.toNat := UInt8.lt_iff_toNat_lt.mp hpos
      have h5 : opcode1.toNat < 6 := UInt8.lt_iff_toNat_lt.mp hlt
      exact ⟨opcode1, vch1, pc1, hscript, hlen, h0, by omega, (scriptNum_throws_iff (by omega)).mp ⟨e, hnum⟩⟩
    · exact absurd (matchTemplate_throws hrest) hpc2

lemma numberPush_opcode : ∀ b : UInt8, 1 ≤ b.toNat → b.toNat ≤ 5 →
    b < OP_PUSHDATA1 ∧ b ≠ OP_HASH160 ∧ b ≠ OP_DUP ∧ ¬(b = OP_0 ∨ (OP_1 ≤ b ∧ b ≤ OP_16)) := by
  decide +kernel

lemma solver_numberPush {vch rest : List UInt8} (hlen : vch.length = b.toNat) (hpos : 1 ≤ b.toNat)
    (hle : b.toNat ≤ 5) :
    solver (b :: (vch ++ rest)) = scanTemplates (b :: (vch ++ rest)) (mTemplates.drop 3) := by
  obtain ⟨hdirect, hhash, hdup, hsmall⟩ := numberPush_opcode b hpos hle
  have hget : getScriptOp (b :: (vch ++ rest)) = some (b, vch, rest) := getScriptOp_push hdirect hlen
  have hhash : isPayToScriptHash (b :: (vch ++ rest)) = false := by simp [isPayToScriptHash, hhash]
  have hpubkey : matchOpcode b vch OP_PUBKEY = .ok none := by rw [matchOpcode_pubKey, if_pos (by omega)]
  have hdup : matchOpcode b vch OP_DUP = .ok none := congrArg Except.ok (if_pos (.inl hdup))
  have hsmall : matchOpcode b vch OP_SMALLINTEGER = .ok none := congrArg Except.ok (if_neg hsmall)
  unfold solver mTemplates
  rw [hhash, if_neg (by decide), scanTemplates_skip (matchTemplate_none (by decide) hget hpubkey),
    scanTemplates_skip (matchTemplate_none (by decide) hget hdup),
    scanTemplates_skip (matchTemplate_none (by decide) hget hsmall)]
  rfl

lemma NonMinimalPush.solver_throws (h : NonMinimalPush script) : ∃ e, solver script = .error e := by
  obtain ⟨b, vch, rest, rfl, hlen, hpos, hle, hnum⟩ := h
  obtain ⟨e, he⟩ := (scriptNum_throws_iff (by omega)).mpr hnum
  have hop : 0 < b ∧ b < 6 :=
    ⟨UInt8.lt_iff_toNat_lt.mpr hpos, UInt8.lt_iff_toNat_lt.mpr (show b.toNat < 6 by omega)⟩
  have hget : getScriptOp (b :: (vch ++ rest)) = some (b, vch, rest) :=
    getScriptOp_push (UInt8.lt_trans hop.2 (by decide)) hlen
  have hlock : matchOpcode b vch OP_LOCKTIMEINTEGER = .error e := by
    change (if 0 < b ∧ b < 6 then (fun _ => some []) <$> scriptNum vch true 5 else .ok none) = _
    rw [if_pos hop, he]
    rfl
  refine ⟨e, ?_⟩
  rw [solver_numberPush hlen hpos hle]
  unfold mTemplates
  rw [drop_succ_cons, drop_succ_cons, drop_succ_cons, drop_zero, scanTemplates,
    matchTemplate_eq (by decide) hget, hlock]
  rfl

/-- The solutions hold what `Solver`, `ExtractDestination` and `ExtractDestinations` read of them: the first for a key,
the twenty bytes of a hash, the two small integers around the keys of a multisig. -/
def SolutionsRead (solved : Solved) : Prop :=
  match solved.typeRet with
  | .pubkey => ∃ key rest, solved.vSolutionsRet = key :: rest
  | .pubkeyhash | .checklocktimeverify | .burnData | .scripthash =>
    ∃ id rest, solved.vSolutionsRet = id :: rest ∧ id.length = 20
  | .multisig => ∃ m n keys, solved.vSolutionsRet = [m] :: keys ++ [[n]]
  | _ => True

lemma takePubkeys_solutions (fuel : Nat) (opcode1 : Opcode) (vch1 pc1 : List UInt8) (sol : List (List UInt8)) :
    sol <+: (takePubkeys fuel opcode1 vch1 pc1 sol).2.2.2 := by
  fun_induction takePubkeys fuel opcode1 vch1 pc1 sol with
  | case1 => exact prefix_rfl
  | case2 => exact prefix_append _ _
  | case3 _ _ _ _ _ _ _ _ _ _ ih => exact (prefix_append _ _).trans ih
  | case4 => exact prefix_rfl

lemma matchTemplate_prefix {sol' : List (List UInt8)}
    (h : matchTemplate template script sol = .ok (some sol')) : sol <+: sol' := by
  fun_induction matchTemplate template script sol with
  | case1 pc1 sol =>
    split_ifs at h
    · cases h
      exact prefix_rfl
    · cases h
  | case2 => cases h
  | case3 => cases h
  | case4 pc1 sol opcode1 vch1 pc1' _ opcode1' vch1' pc1'' sol'' htake _ _ ih =>
    obtain ⟨new, -, h⟩ := matchStep_some h
    have hkeys := takePubkeys_solutions (pc1'.length + 1) opcode1 vch1 pc1' sol
    rw [htake] at hkeys
    exact hkeys.trans ((prefix_append _ _).trans (ih new h))
  | case5 _ _ _ _ _ _ _ _ _ ih =>
    obtain ⟨new, -, h⟩ := matchStep_some h
    exact (prefix_append _ _).trans (ih new h)

lemma matchTemplate_head {v : List UInt8} (h : matchTemplate template script [v] = .ok (some sol)) :
    ∃ rest, sol = v :: rest := by
  obtain ⟨rest, hrest⟩ := matchTemplate_prefix h
  exact ⟨rest, hrest.symm⟩

lemma matchTemplate_pubKeyHash_head
    (h : matchTemplate (OP_PUBKEYHASH :: template) script [] = .ok (some sol)) :
    ∃ id rest, sol = id :: rest ∧ id.length = 20 := by
  obtain ⟨_, id, _, -, hlen, h⟩ := matchTemplate_pubKeyHash.mp h
  obtain ⟨rest, hsol⟩ := matchTemplate_head h
  exact ⟨id, rest, hsol, hlen⟩

lemma matchTemplate_multisig
    (h : matchTemplate [OP_SMALLINTEGER, OP_PUBKEYS, OP_SMALLINTEGER, OP_CHECKMULTISIG] script [] = .ok (some sol)) :
    ∃ m n keys, sol = [m] :: keys ++ [[n]] := by
  obtain ⟨opcode, vch, pc, new, -, hm, h⟩ := (matchTemplate_cons (by decide)).mp h
  obtain ⟨m, rfl⟩ := matchOpcode_smallInteger hm
  unfold matchTemplate at h
  cases hget : getScriptOp pc with
  | none => simp [hget] at h
  | some instruction =>
    obtain ⟨opcode1, vch1, pc1⟩ := instruction
    simp only [hget, if_true] at h
    obtain ⟨new, hn, h⟩ := matchStep_some h
    obtain ⟨n, rfl⟩ := matchOpcode_smallInteger hn
    obtain ⟨_, -, h⟩ := (matchTemplate_fixed (by decide)).mp h
    obtain ⟨keys, hkeys⟩ := takePubkeys_solutions (pc1.length + 1) opcode1 vch1 pc1 [[m]]
    obtain ⟨-, rfl⟩ := matchTemplate_nil.mp h
    exact ⟨m, n, keys, congrArg (· ++ [[n]]) hkeys.symm⟩

lemma solver_solutions (h : solver script = .ok solved) : SolutionsRead solved := by
  unfold solver at h
  split_ifs at h with hhash
  · cases h
    refine ⟨_, [], rfl, ?_⟩
    have hlen : script.length = 23 := by
      simp only [isPayToScriptHash, Bool.and_eq_true, beq_iff_eq] at hhash
      exact hhash.1.1.1
    simp [hlen]
  by_cases htype : solved.typeRet = .nonstandard
  · simp [SolutionsRead, htype]
  obtain ⟨⟨type, template⟩, hmem, heq, hmatch⟩ := scanTemplates_matches h htype
  dsimp only at heq hmatch
  simp only [mTemplates, mem_cons, Prod.mk.injEq, not_mem_nil, or_false] at hmem
  unfold SolutionsRead
  rw [← heq]
  rcases hmem with ⟨rfl, rfl⟩ | ⟨rfl, rfl⟩ | ⟨rfl, rfl⟩ | ⟨rfl, rfl⟩ | ⟨rfl, rfl⟩ | ⟨rfl, rfl⟩
    | ⟨rfl, rfl⟩ | ⟨rfl, rfl⟩
  · obtain ⟨_, key, _, new, -, hkey, hmatch⟩ := (matchTemplate_cons (by decide)).mp hmatch
    rw [matchOpcode_pubKey] at hkey
    split_ifs at hkey
    · cases hkey
    · cases hkey
      exact ⟨key, matchTemplate_head hmatch⟩
  · obtain ⟨_, -, hmatch⟩ := (matchTemplate_fixed (by decide)).mp hmatch
    obtain ⟨_, -, hmatch⟩ := (matchTemplate_fixed (by decide)).mp hmatch
    exact matchTemplate_pubKeyHash_head hmatch
  · exact matchTemplate_multisig hmatch
  · obtain ⟨_, _, _, new, -, hnumber, hmatch⟩ := (matchTemplate_cons (by decide)).mp hmatch
    obtain rfl := (matchOpcode_lockTimeInteger.mp hnumber).2.2
    obtain ⟨_, -, hmatch⟩ := (matchTemplate_fixed (by decide)).mp hmatch
    obtain ⟨_, -, hmatch⟩ := (matchTemplate_fixed (by decide)).mp hmatch
    obtain ⟨_, -, hmatch⟩ := (matchTemplate_fixed (by decide)).mp hmatch
    obtain ⟨_, -, hmatch⟩ := (matchTemplate_fixed (by decide)).mp hmatch
    exact matchTemplate_pubKeyHash_head hmatch
  · trivial
  · trivial
  · exact matchTemplate_pubKeyHash_head hmatch
  · exact matchTemplate_pubKeyHash_head hmatch

lemma extractDestination_returns (H : Hashes) (h : solver script = .ok solved) :
    ∃ d, extractDestination H script = .ok d := by
  unfold extractDestination
  rw [h]
  simp only [bind, Except.bind]
  split
  · exact ⟨_, rfl⟩
  · split
    all_goals exact ⟨_, rfl⟩

lemma extractDestinations_returns (H : Hashes) (h : solver script = .ok solved) :
    ∃ d, extractDestinations H script = .ok d := by
  have hread := solver_solutions h
  obtain ⟨address, haddress⟩ := extractDestination_returns H h
  unfold extractDestinations
  rw [h, haddress]
  simp only [bind, Except.bind]
  split_ifs with _ _ hmultisig
  · exact ⟨_, rfl⟩
  · exact ⟨_, rfl⟩
  · simp only [SolutionsRead, hmultisig] at hread
    obtain ⟨m, n, keys, hsol⟩ := hread
    rw [hsol]
    exact ⟨_, rfl⟩
  · cases address with
    | none => exact ⟨_, rfl⟩
    | some address => exact ⟨_, rfl⟩

lemma anyMismatch_nil_throws : ¬∃ e, anyMismatch script [] = .error e := by
  simp [anyMismatch]

lemma anyMismatch_cons_throws {i : Nat} {pattern : List (Nat × UInt8)} :
    (∃ e, anyMismatch script ((i, b) :: pattern) = .error e) ↔
      script.length ≤ i ∨ script[i]? = some b ∧ ∃ e, anyMismatch script pattern = .error e := by
  rw [anyMismatch, byteAt]
  cases hi : script[i]? with
  | none => exact iff_of_true ⟨_, rfl⟩ (.inl (getElem?_eq_none_iff.mp hi))
  | some c =>
    have hlt : i < script.length := (List.getElem?_eq_some_iff.mp hi).1
    by_cases hcb : c = b
    · subst hcb
      simp [bind, Except.bind, hlt]
    · simp [bind, Except.bind, hlt, hcb, pure, Except.pure]

/-- The script begins like a deposit, but ends before the offset of its `OP_CHECKSIG`. -/
def ReadsPastEnd (script : CScript) : Prop :=
  ∃ b : UInt8, script[0]? = some b ∧ 1 ≤ b.toNat ∧ b.toNat ≤ 4 ∧ 29 ≤ script.length ∧ script.length ≤ b.toNat + 27 ∧
    script[b.toNat + 1]? = some OP_CHECKLOCKTIMEVERIFY ∧ script[b.toNat + 2]? = some OP_DROP ∧
    script[b.toNat + 3]? = some OP_DUP ∧ script[b.toNat + 4]? = some OP_HASH160 ∧
    (script.length = b.toNat + 27 → script[b.toNat + 26]? = some OP_EQUALVERIFY)

lemma releaseBlock_throws (h : getTermDepositReleaseBlock script = .error e) :
    ReadsPastEnd script ∨ NonMinimalPush script := by
  cases script with
  | nil => cases h
  | cons b tail =>
    by_cases hwindow : InDepositWindow b tail
    · rw [getTermDepositReleaseBlock_inside hwindow] at h
      obtain ⟨hmin, hmax, hpos, hfour⟩ := hwindow
      obtain hmismatch | ⟨mismatch, -, h⟩ := except_bind_eq_error.mp h
      · left
        have hread : ∃ e, anyMismatch (b :: tail) (depositOffsets b.toNat) = .error e := ⟨e, hmismatch⟩
        simp only [depositOffsets, anyMismatch_cons_throws, anyMismatch_nil_throws, and_false, or_false,
          length_cons] at hread
        refine ⟨b, rfl, hpos, hfour, ?_⟩
        rw [length_cons]
        rcases hread with hlen | ⟨hcltv, hlen | ⟨hdrop, hlen | ⟨hdup, hlen | ⟨hhash, hlen⟩⟩⟩⟩
        · omega
        · omega
        · omega
        · omega
        · refine ⟨by omega, by omega, hcltv, hdrop, hdup, hhash, fun heq => ?_⟩
          rcases hlen with hlen | ⟨hverify, -⟩
          · omega
          · exact hverify
      · right
        have hnum : ∃ e, scriptNum (tail.take b.toNat) true 5 = .error e := by
          cases mismatch with
          | true => cases h
          | false =>
            obtain hnum | ⟨n, -, h⟩ := except_bind_eq_error.mp h
            · exact ⟨e, hnum⟩
            · cases h
        have hlen : (tail.take b.toNat).length = b.toNat := by rw [length_take]; omega
        refine ⟨b, tail.take b.toNat, tail.drop b.toNat, ?_, hlen, hpos, by omega, ?_⟩
        · rw [take_append_drop]
        · exact (scriptNum_throws_iff (by omega)).mp hnum
    · rw [getTermDepositReleaseBlock_outside hwindow] at h
      cases h

lemma ReadsPastEnd.throws (h : ReadsPastEnd script) :
    ∃ e, getTermDepositReleaseBlock script = .error e := by
  obtain ⟨b, hb, hpos, hfour, hmin, hmax, hcltv, hdrop, hdup, hhash, hverify⟩ := h
  cases script with
  | nil => cases hb
  | cons first tail =>
    obtain rfl : first = b := Option.some.inj hb
    rw [length_cons] at hmin hmax hverify
    obtain ⟨e, he⟩ : ∃ e, anyMismatch (first :: tail) (depositOffsets first.toNat) = .error e := by
      simp only [depositOffsets, anyMismatch_cons_throws, anyMismatch_nil_throws, and_false, or_false,
        hcltv, hdrop, hdup, hhash, length_cons, true_and]
      by_cases hlen : tail.length + 1 = first.toNat + 27
      · rw [hverify hlen]
        right; right; right; right; right
        exact ⟨rfl, by omega⟩
      · right; right; right; right; left
        omega
    rw [getTermDepositReleaseBlock_inside ⟨by omega, by omega, hpos, hfour⟩, he]
    exact ⟨e, rfl⟩

/-- The classification of a script is total but for numbers that are not minimally encoded and scripts that end before
the bytes compared. -/
theorem classification_total_iff (H : Hashes) (script : CScript) :
    ((∃ solved, solver script = .ok solved ∧ SolutionsRead solved) ∧
      (∃ d, extractDestination H script = .ok d) ∧ (∃ d, extractDestinations H script = .ok d) ∧
      ∃ r, getTermDepositReleaseBlock script = .ok r) ↔ ¬NonMinimalPush script ∧ ¬ReadsPastEnd script := by
  constructor
  · rintro ⟨⟨solved, hsolved, -⟩, -, -, hrelease⟩
    refine ⟨fun hpush => ?_, fun hread => exists_ok_iff.mp hrelease hread.throws⟩
    exact exists_ok_iff.mp ⟨solved, hsolved⟩ hpush.solver_throws
  · rintro ⟨hpush, hread⟩
    obtain ⟨solved, hsolved⟩ : ∃ solved, solver script = .ok solved :=
      exists_ok_iff.mpr fun ⟨e, he⟩ => hpush (solver_throws he)
    have hrelease : ∃ r, getTermDepositReleaseBlock script = .ok r :=
      exists_ok_iff.mpr fun ⟨e, he⟩ => (releaseBlock_throws he).elim hread hpush
    exact ⟨⟨solved, hsolved, solver_solutions hsolved⟩, extractDestination_returns H hsolved,
      extractDestinations_returns H hsolved, hrelease⟩

/-- Scripts on which the classifiers throw. -/
theorem classification_throws :
    solver [1, 0] = .error "non-minimally encoded script number" ∧
      getTermDepositReleaseBlock ([4, 1, 2, 3, 4, OP_CHECKLOCKTIMEVERIFY, OP_DROP, OP_DUP, OP_HASH160] ++
        List.replicate 20 0) = .error "read past the end of the script" := by
  decide +kernel

end Qstees.Proofs
