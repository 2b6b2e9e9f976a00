import Qstees.Proofs.TermDeposit

/-!
# Scripts that match a template

What `Solver` has read when it gives a script a type: the instructions of one of the templates of that type.
-/

namespace Qstees.Proofs

open List

lemma getScriptOp_head {first opcode : Opcode} {tail vch pc : List UInt8}
    (h : getScriptOp (first :: tail) = some (opcode, vch, pc)) : first = opcode := by
  unfold getScriptOp takeOperand at h
  dsimp only at h
  split_ifs at h
  all_goals
    cases h
    rfl

variable {script : CScript}

lemma getScriptOp_direct {opcode : Opcode} {vch pc : List UInt8} (hop : opcode < OP_PUSHDATA1)
    (h : getScriptOp script = some (opcode, vch, pc)) : script = opcode :: (vch ++ pc) ∧ vch.length = opcode.toNat := by
  cases script with
  | nil => cases h
  | cons first tail =>
    obtain rfl := getScriptOp_head h
    simp only [getScriptOp, takeOperand, if_pos hop] at h
    split_ifs at h with hlength
    cases h
    rw [take_append_drop, length_take]
    exact ⟨rfl, by omega⟩

lemma scanTemplates_matches {templates : List (TxnOutType × List Opcode)} {solved : Solved}
    (h : scanTemplates script templates = .ok solved) (htype : solved.typeRet ≠ .nonstandard) :
    ∃ template ∈ templates, template.1 = solved.typeRet ∧
      matchTemplate template.2 script [] = .ok (some solved.vSolutionsRet) := by
  induction templates with
  | nil =>
    cases h
    exact absurd rfl htype
  | cons template templates ih =>
    obtain ⟨type, script2⟩ := template
    unfold scanTemplates at h
    obtain ⟨result, hresult, h⟩ := ok_of_bind h
    cases result with
    | none =>
      obtain ⟨template, hmem, hmatch⟩ := ih h
      exact ⟨template, mem_cons_of_mem _ hmem, hmatch⟩
    | some sol =>
      dsimp only at h
      split_ifs at h
      all_goals
        cases h
        exact ⟨_, mem_cons_self, rfl, hresult⟩

lemma solver_template {solved : Solved} {type : TxnOutType} (h : solver script = .ok solved)
    (htype : solved.typeRet = type) (hne : type ≠ .nonstandard ∧ type ≠ .scripthash) :
    ∃ template, (type, template) ∈ mTemplates ∧ matchTemplate template script [] = .ok (some solved.vSolutionsRet) := by
  subst htype
  unfold solver at h
  split_ifs at h
  · cases h
    exact absurd rfl hne.2
  · obtain ⟨⟨type, template⟩, hmem, rfl, hmatch⟩ := scanTemplates_matches h hne.1
    exact ⟨template, hmem, hmatch⟩

lemma matchTemplate_nil {sol sol' : List (List UInt8)} :
    matchTemplate [] script sol = .ok (some sol') ↔ script = [] ∧ sol = sol' := by
  rw [matchTemplate]
  cases script with
  | nil => simp
  | cons b script => simp

lemma matchStep_some {x : Except String (Option (List (List UInt8)))}
    {next : List (List UInt8) → Except String (Option (List (List UInt8)))} {sol : List (List UInt8)}
    (h : (do match ← x with
      | none => return none
      | some new => next new) = Except.ok (some sol)) : ∃ new, x = .ok (some new) ∧ next new = .ok (some sol) := by
  obtain ⟨result, hx, h⟩ := ok_of_bind h
  cases result with
  | none => cases h
  | some new => exact ⟨new, hx, h⟩

section Opcodes

variable {opcode1 opcode2 : Opcode} {pc2 : List Opcode} {script vch1 pc1 : CScript} {sol sol' new : List (List UInt8)}

lemma matchTemplate_eq (hplain : opcode2 ≠ OP_PUBKEYS) (hget : getScriptOp script = some (opcode1, vch1, pc1)) :
    matchTemplate (opcode2 :: pc2) script sol = (do
      match ← matchOpcode opcode1 vch1 opcode2 with
      | none => return none
      | some new => matchTemplate pc2 pc1 (sol ++ new)) := by
  rw [matchTemplate, hget]
  exact if_neg hplain

lemma matchTemplate_of_cons (hplain : opcode2 ≠ OP_PUBKEYS) (hget : getScriptOp script = some (opcode1, vch1, pc1))
    (hnew : matchOpcode opcode1 vch1 opcode2 = .ok (some new)) :
    matchTemplate (opcode2 :: pc2) script sol = matchTemplate pc2 pc1 (sol ++ new) := by
  rw [matchTemplate_eq hplain hget, hnew]
  rfl

lemma matchTemplate_cons (hplain : opcode2 ≠ OP_PUBKEYS) :
    matchTemplate (opcode2 :: pc2) script sol = .ok (some sol') ↔ ∃ opcode1 vch1 pc1 new,
      getScriptOp script = some (opcode1, vch1, pc1) ∧ matchOpcode opcode1 vch1 opcode2 = .ok (some new) ∧
        matchTemplate pc2 pc1 (sol ++ new) = .ok (some sol') := by
  constructor
  · intro h
    cases hget : getScriptOp script with
    | none => simp [matchTemplate, hget] at h
    | some instruction =>
      rw [matchTemplate_eq hplain hget] at h
      obtain ⟨new, hnew, h⟩ := matchStep_some h
      exact ⟨_, _, _, new, rfl, hnew, h⟩
  · rintro ⟨opcode1, vch1, pc1, new, hget, hnew, h⟩
    rw [matchTemplate_of_cons hplain hget hnew, h]

lemma getScriptOp_plain {opcode : Opcode} {vch pc : List UInt8} (hop : OP_PUSHDATA4 < opcode) :
    getScriptOp script = some (opcode, vch, pc) ↔ script = opcode :: pc ∧ vch = [] := by
  have hlt : ¬opcode < OP_PUSHDATA1 := fun h => absurd (UInt8.lt_trans hop h) (by decide)
  have h1 : opcode ≠ OP_PUSHDATA1 := fun h => absurd (h ▸ hop) (by decide)
  have h2 : opcode ≠ OP_PUSHDATA2 := fun h => absurd (h ▸ hop) (by decide)
  have h4 : opcode ≠ OP_PUSHDATA4 := fun h => absurd (h ▸ hop) (by decide)
  have hget : ∀ tail, getScriptOp (opcode :: tail) = some (opcode, [], tail) := fun tail => by
    rw [getScriptOp, if_neg hlt, if_neg h1, if_neg h2, if_neg h4]
  constructor
  · intro h
    cases script with
    | nil => cases h
    | cons first tail =>
      obtain rfl := getScriptOp_head h
      rw [hget] at h
      cases h
      exact ⟨rfl, rfl⟩
  · rintro ⟨rfl, rfl⟩
    exact hget pc

lemma matchOpcode_pubKey : matchOpcode opcode1 vch1 OP_PUBKEY =
    .ok (if vch1.length < 33 ∨ vch1.length > 65 then none else some [vch1]) := rfl

lemma matchOpcode_pubKeyHash : matchOpcode opcode1 vch1 OP_PUBKEYHASH = .ok (some new) ↔ vch1.length = 20 ∧
    new = [vch1] := by
  rw [show matchOpcode opcode1 vch1 OP_PUBKEYHASH = .ok (if vch1.length ≠ 20 then none else some [vch1]) from rfl]
  split_ifs with hlen <;> simp_all [eq_comm]

lemma matchOpcode_fixed (hop : opcode2 < OP_SMALLDATA) :
    matchOpcode opcode1 vch1 opcode2 = .ok (some new) ↔ opcode1 = opcode2 ∧ vch1 = [] ∧ new = [] := by
  have hne : ∀ opcode : Opcode, ¬opcode < OP_SMALLDATA → opcode2 ≠ opcode := fun opcode h heq => h (heq ▸ hop)
  unfold matchOpcode
  rw [if_neg (hne _ (by decide)), if_neg (hne _ (by decide)), if_neg (hne _ (by decide)), if_neg (hne _ (by decide)),
    if_neg (hne _ (by decide))]
  split_ifs with hother
  · simp only [Except.ok.injEq, reduceCtorEq, false_iff]
    tauto
  · simp_all [eq_comm]

lemma matchTemplate_fixed (hop : OP_PUSHDATA4 < opcode2 ∧ opcode2 < OP_SMALLDATA) :
    matchTemplate (opcode2 :: pc2) script sol = .ok (some sol') ↔
      ∃ pc1, script = opcode2 :: pc1 ∧ matchTemplate pc2 pc1 sol = .ok (some sol') := by
  rw [matchTemplate_cons fun h => absurd (h ▸ hop.2) (by decide)]
  simp only [matchOpcode_fixed hop.2]
  constructor
  · rintro ⟨_, _, pc1, _, hget, ⟨rfl, rfl, rfl⟩, h⟩
    exact ⟨pc1, ((getScriptOp_plain hop.1).mp hget).1, by rwa [append_nil] at h⟩
  · rintro ⟨pc1, hscript, h⟩
    exact ⟨_, _, pc1, _, (getScriptOp_plain hop.1).mpr ⟨hscript, rfl⟩, ⟨rfl, rfl, rfl⟩, by rwa [append_nil]⟩

lemma matchTemplate_pubKeyHash :
    matchTemplate (OP_PUBKEYHASH :: pc2) script sol = .ok (some sol') ↔
      ∃ opcode1 id pc1, getScriptOp script = some (opcode1, id, pc1) ∧ id.length = 20 ∧
        matchTemplate pc2 pc1 (sol ++ [id]) = .ok (some sol') := by
  rw [matchTemplate_cons (by decide)]
  simp only [matchOpcode_pubKeyHash]
  constructor
  · rintro ⟨opcode1, id, pc1, _, hget, ⟨hlen, rfl⟩, h⟩
    exact ⟨opcode1, id, pc1, hget, hlen, h⟩
  · rintro ⟨opcode1, id, pc1, hget, hlen, h⟩
    exact ⟨opcode1, id, pc1, _, hget, ⟨hlen, rfl⟩, h⟩

lemma matchOpcode_smallInteger (h : matchOpcode opcode1 vch1 OP_SMALLINTEGER = .ok (some new)) : ∃ n, new = [[n]] := by
  rw [show matchOpcode opcode1 vch1 OP_SMALLINTEGER = .ok (if opcode1 = OP_0 ∨ (OP_1 ≤ opcode1 ∧ opcode1 ≤ OP_16) then
      some [[UInt8.ofNat (decodeOP_N opcode1).toNat]] else none) from rfl] at h
  split_ifs at h
  · cases h
    exact ⟨_, rfl⟩
  · cases h

lemma matchOpcode_lockTimeInteger :
    matchOpcode opcode1 vch1 OP_LOCKTIMEINTEGER = .ok (some new) ↔
      (0 < opcode1 ∧ opcode1 < 6) ∧ (∃ n, scriptNum vch1 true 5 = .ok n) ∧ new = [] := by
  rw [show matchOpcode opcode1 vch1 OP_LOCKTIMEINTEGER =
    if 0 < opcode1 ∧ opcode1 < 6 then (fun _ => some []) <$> scriptNum vch1 true 5 else .ok none from rfl]
  split_ifs with hrange
  · cases scriptNum vch1 true 5 with
    | error e => simp
    | ok n => simp [hrange, eq_comm]
  · simp [hrange]

end Opcodes

end Qstees.Proofs
