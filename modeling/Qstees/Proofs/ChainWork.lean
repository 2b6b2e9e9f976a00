import Qstees.Proofs.CompactForm
import Qstees.Proofs.DarkGravity

/-!
# Chain work

`2 ^ 256` does not fit, so `GetBlockProof` computes `~t / (t + 1) + 1`; with `~t = 2 ^ 256 - (t + 1)` this is the exact
quotient, and the sums along a chain are exact as long as they fit.
-/

namespace Qstees.Proofs

open BaseUint ArithUint256

/-- The bits decode to a target that is not zero. -/
structure ValidTarget (nBits : BitVec 32) : Prop where
  fNegative : (setCompact nBits).fNegative = false
  fOverflow : (setCompact nBits).fOverflow = false
  pos : 0 < (setCompact nBits).value.toNat

def exactProof (nBits : BitVec 32) : Nat := 2 ^ 256 / ((setCompact nBits).value.toNat + 1)

lemma target_lt (nBits : BitVec 32) : (setCompact nBits).value.toNat + 1 < 2 ^ 256 := by
  have hword := wordOf_lt nBits
  rw [toNat_value_setCompact]
  cases hk : sizeByte nBits - 3 with
  | zero => omega
  | succ k =>
    have hdvd : 2 ∣ wordOf nBits * 256 ^ (k + 1) := ⟨wordOf nBits * 256 ^ k * 128, by ring⟩
    omega

lemma getBlockProof_spec {nBits : BitVec 32} (h : ValidTarget nBits) :
    ∃ work, getBlockProof nBits = some work ∧ work.toNat = exactProof nBits ∧ 1 ≤ work.toNat := by
  have hlt := target_lt nBits
  have hpos := h.pos
  rw [getBlockProof, exactProof]
  simp only [h.fNegative, h.fOverflow]
  generalize (setCompact nBits).value = t at hlt hpos
  have hnot : t.not.toNat + (t.toNat + 1) = 2 ^ 256 := by
    have := Words.value_map_not t.pn
    rw [t.length_pn] at this
    exact this
  have hone : (ofUint64 1 : ArithUint256).toNat = 1 := toNat_ofUint64 1
  have hnext : (t.add (ofUint64 1)).toNat = t.toNat + 1 := by
    rw [toNat_add, hone, Nat.mod_eq_of_lt hlt]
  obtain ⟨q, hq, hquotient⟩ := div_spec t.not (b := t.add (ofUint64 1)) (by omega)
  have hwork : 2 ^ 256 / (t.toNat + 1) = q.toNat + 1 := by
    rw [hquotient, hnext, ← hnot, Nat.add_div_right _ (Nat.succ_pos _)]
  have hsmall : 2 ^ 256 / (t.toNat + 1) < 2 ^ 256 := Nat.div_lt_self (by decide) (by omega)
  have hsum : (q.add (ofUint64 1)).toNat = 2 ^ 256 / (t.toNat + 1) := by
    rw [toNat_add, hone, ← hwork, Nat.mod_eq_of_lt hsmall]
  refine ⟨q.add (ofUint64 1), ?_, hsum, by omega⟩
  rw [hq, if_neg ?_, Option.map_some]
  rintro (hfalse | hfalse | rfl)
  · cases hfalse
  · cases hfalse
  · exact absurd hpos (by simp)

lemma validTarget_of_checkProofOfWork {header : WorkHeader} {params : PowParams}
    (h : checkProofOfWork header.powHash header.nBits params = true) : ValidTarget header.nBits := by
  rw [checkProofOfWork] at h
  split_ifs at h with hrange
  simp only [not_or, Bool.not_eq_true] at hrange
  refine ⟨hrange.1, hrange.2.2.1, Nat.pos_of_ne_zero (fun hzero => hrange.2.1 (eq_of_toNat_eq ?_))⟩
  rw [hzero, toNat_zero]

/-- The work of the chain, as a number. -/
def exactWork (genesis : BitVec 32) (headers : List WorkHeader) : Nat :=
  (headers.map (fun header => exactProof header.nBits)).sum + exactProof genesis

variable {genesis : BitVec 32} {headers : List WorkHeader}

lemma exactWork_cons (header : WorkHeader) (headers : List WorkHeader) :
    exactWork genesis (header :: headers) = exactWork genesis headers + exactProof header.nBits := by
  rw [exactWork, List.map_cons, List.sum_cons, Nat.add_assoc, Nat.add_comm, exactWork]

lemma nChainWork_spec (hgenesis : ValidTarget genesis) (h : ∀ header ∈ headers, ValidTarget header.nBits)
    (hfit : exactWork genesis headers < 2 ^ 256) :
    ∃ work, nChainWork genesis headers = some work ∧ work.toNat = exactWork genesis headers := by
  induction headers with
  | nil =>
    obtain ⟨work, hwork, hexact, -⟩ := getBlockProof_spec hgenesis
    refine ⟨zero.add work, by rw [nChainWork, hwork]; rfl, ?_⟩
    rw [toNat_add, toNat_zero, Nat.zero_add, Nat.mod_eq_of_lt work.toNat_lt, hexact, exactWork,
      List.map_nil, List.sum_nil, Nat.zero_add]
  | cons header headers ih =>
    rw [List.forall_mem_cons] at h
    rw [exactWork_cons] at hfit ⊢
    obtain ⟨prev, hprev, hexact⟩ := ih h.2 (by omega)
    obtain ⟨work, hwork, hproof, -⟩ := getBlockProof_spec h.1
    refine ⟨prev.add work, by rw [nChainWork, hprev, hwork]; rfl, ?_⟩
    rw [toNat_add, hexact, hproof, Nat.mod_eq_of_lt hfit]

lemma validTarget_genesisBits (regtest : Bool) : ValidTarget (genesisBits regtest) := by
  cases regtest <;> exact ⟨by decide +kernel, by decide +kernel, by decide +kernel⟩

/-- The proof of a block and the work of a chain of checked headers are exact, and grow with every block. -/
theorem chainWork_exact (regtest : Bool) (params : PowParams) :
    (∀ nBits, ValidTarget nBits → ∃ work, getBlockProof nBits = some work ∧
      work.toNat = exactProof nBits ∧ 1 ≤ work.toNat) ∧
      ∀ headers, (∀ header ∈ headers, checkProofOfWork header.powHash header.nBits params = true) →
        exactWork (genesisBits regtest) headers < 2 ^ 256 →
        ∃ work, nChainWork (genesisBits regtest) headers = some work ∧
          work.toNat = exactWork (genesisBits regtest) headers ∧
          ∀ header pprev, headers = header :: pprev →
            ∃ prev, nChainWork (genesisBits regtest) pprev = some prev ∧ prev.toNat < work.toNat := by
  refine ⟨fun nBits => getBlockProof_spec, ?_⟩
  intro headers hchecked hfit
  have hvalid := fun header hmem => validTarget_of_checkProofOfWork (hchecked header hmem)
  obtain ⟨work, hwork, hexact⟩ := nChainWork_spec (validTarget_genesisBits regtest) hvalid hfit
  refine ⟨work, hwork, hexact, ?_⟩
  rintro header pprev rfl
  obtain ⟨proof, -, hproof, hone⟩ := getBlockProof_spec (hvalid header List.mem_cons_self)
  rw [exactWork_cons] at hfit hexact
  obtain ⟨prev, hprev, hsum⟩ := nChainWork_spec (validTarget_genesisBits regtest)
    (fun h hmem => hvalid h (List.mem_cons_of_mem _ hmem))
    (show exactWork (genesisBits regtest) pprev < 2 ^ 256 by omega)
  exact ⟨prev, hprev, by omega⟩

/-- Two headers over the genesis block of the main network, the second with the bits of `powLimit`. -/
def twoHeaders : List WorkHeader := [⟨.zero, 0x200fffff⟩, ⟨.zero, 0x1f00ffff⟩]

theorem chainWork_exact_two :
    ∃ work, nChainWork (genesisBits false) twoHeaders = some work ∧
      work.toNat = exactWork (genesisBits false) twoHeaders ∧ ∀ header pprev, twoHeaders = header :: pprev →
        ∃ prev, nChainWork (genesisBits false) pprev = some prev ∧ prev.toNat < work.toNat :=
  (chainWork_exact false mainPowParams).2 twoHeaders (by decide +kernel) (by decide +kernel)

section Required

variable {path : List PowIndex} {params : PowParams} {nBits : BitVec 32}

/-- The bits are those of a number up to the limit. -/
def Capped (params : PowParams) (nBits : BitVec 32) : Prop := ∃ n ≤ params.powLimit.toNat, nBits = compactForm n

lemma capped_of_getCompact {a : ArithUint256} (ha : a.toNat ≤ params.powLimit.toNat)
    (h : (Pow.getCompact a).result = .ok nBits) : Capped params nBits := by
  rw [Pow.getCompact_eq] at h
  exact ⟨a.toNat, ha, (Except.ok.inj h).symm⟩

lemma capTarget_le (a : ArithUint256) : (capTarget params.powLimit a).toNat ≤ params.powLimit.toNat := by
  rw [toNat_capTarget]
  exact min_le_left _ _

lemma darkGravityWave_capped (h : (darkGravityWave path params).result = .ok nBits) : Capped params nBits := by
  rw [darkGravityWave] at h
  split_ifs at h
  · exact capped_of_getCompact le_rfl h
  · obtain ⟨s, -, h⟩ := Traced.ok_of_bind h
    obtain ⟨_, -, h⟩ := Traced.ok_of_bind h
    obtain ⟨_, -, h⟩ := Traced.ok_of_bind h
    obtain ⟨_, -, h⟩ := Traced.ok_of_bind h
    obtain ⟨_, -, h⟩ := Traced.ok_of_bind h
    exact capped_of_getCompact (capTarget_le _) h

lemma lwma3_capped (h : (lwma3CalculateNextWorkRequired path params).result = .ok nBits) : Capped params nBits := by
  obtain ⟨k, -, h⟩ := Traced.ok_of_bind h
  split_ifs at h
  · cases h
  · exact capped_of_getCompact le_rfl h
  · obtain ⟨_, -, h⟩ := Traced.ok_of_bind h
    exact capped_of_getCompact (capTarget_le _) h

lemma required_capped (h : (getNextWorkRequired path params).result = .ok nBits) : Capped params nBits := by
  rw [getNextWorkRequired] at h
  split_ifs at h
  · cases h
  · exact darkGravityWave_capped h
  · exact lwma3_capped h

/-- The range check turns down no block with the bits that its predecessors require, unless they are those of zero. -/
theorem checkProofOfWork_required (h : (getNextWorkRequired path params).result = .ok nBits) (hash : ArithUint256) :
    checkProofOfWork hash nBits params = true ↔
      0 < (setCompact nBits).value.toNat ∧ hash.toNat ≤ (setCompact nBits).value.toNat := by
  obtain ⟨n, hn, rfl⟩ := required_capped h
  have hlt := hn.trans_lt params.powLimit.toNat_lt
  have hle : (setCompact (compactForm n)).value.toNat ≤ params.powLimit.toNat := by
    rw [value_compactForm hlt]
    exact (rounded_le n).trans hn
  have hzero : (setCompact (compactForm n)).value = .zero ↔ (setCompact (compactForm n)).value.toNat = 0 :=
    ⟨fun heq => by rw [heq, toNat_zero], fun heq => eq_of_toNat_eq (heq.trans toNat_zero.symm)⟩
  simp only [checkProofOfWork, flags_compactForm hlt, compareTo_eq, Nat.compare_eq_gt, hzero,
    Bool.false_eq_true, false_or]
  split_ifs <;> simp <;> omega

/-- Twenty-five blocks that took half of the time planned for them. -/
def fastBlocks : List PowIndex := (List.range 25).map fun i => ⟨1579181820 - 60 * i, 0x1f00ffff⟩

/-- The bits required after them are new, and a block that meets them passes. -/
theorem checkProofOfWork_required_fast :
    (getNextWorkRequired fastBlocks mainPowParams).result = .ok 0x1e7aaa30 ∧
      checkProofOfWork (setCompact 0x1e7aaa30).value 0x1e7aaa30 mainPowParams = true := by
  have hnext : (getNextWorkRequired fastBlocks mainPowParams).result = .ok 0x1e7aaa30 := by
    have htimespan : max 960 (min (timespan (fastBlocks.take 24)) 8640) = (1380 : Nat) := by decide +kernel
    rw [getNextWorkRequired, if_neg (by decide), if_pos (by decide)]
    exact (darkGravityWave_spec (by decide) htimespan rfl).1.trans (by decide +kernel)
  exact ⟨hnext, (checkProofOfWork_required hnext _).mpr (by decide +kernel)⟩

end Required

end Qstees.Proofs
