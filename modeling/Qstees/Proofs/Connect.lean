import Qstees.Model.Validation
import Qstees.Proofs.Amounts
import Qstees.Proofs.CoinsView

/-!
# What a connected block went through

Inversions of `CheckBlock` and of the transaction loop of `ConnectBlock`: the facts about each
transaction that the later results use.
-/

namespace Qstees.Proofs

open List

variable {E : ConnectEnv}

lemma nodup_of_duplicateInput {seen : List COutPoint} {vin : List CTxIn} (h : duplicateInput seen vin = false) :
    (vin.map CTxIn.prevout).Nodup ∧ ∀ txin ∈ vin, txin.prevout ∉ seen := by
  induction vin generalizing seen with
  | nil => exact ⟨nodup_nil, by simp⟩
  | cons txin vin ih =>
    simp only [duplicateInput, Bool.or_eq_false_iff, decide_eq_false_iff_not] at h
    obtain ⟨hnodup, hseen⟩ := ih h.2
    refine ⟨?_, ?_⟩
    · rw [map_cons, nodup_cons]
      refine ⟨?_, hnodup⟩
      intro hmem
      obtain ⟨t, ht, heq⟩ := mem_map.mp hmem
      exact hseen t ht (heq ▸ mem_cons_self)
    · intro t ht
      rcases mem_cons.mp ht with rfl | ht
      · exact h.1
      · exact fun hmem => hseen t ht (mem_cons_of_mem _ hmem)

structure TxOk (tx : CTransaction) : Prop where
  inputs_nodup : (tx.vin.map CTxIn.prevout).Nodup
  outputs_nonneg : ∀ out ∈ tx.vout, 0 ≤ out.nValue
  outputs_le : outputSum tx.vout ≤ MAX_MONEY

variable {tx : CTransaction} {u : Unit} {ss : List Int} {nHeight : Int} {st : ConnectState}

lemma checkTransaction_ok {size : CTransaction → Nat}
    (h : checkTransaction size tx true = ⟨.ok u, ss⟩) : TxOk tx ∧ ∀ x ∈ ss, InRange64 x := by
  unfold checkTransaction at h
  simp only [Tally.bind_eq_ok, Tally.check_eq_ok] at h
  obtain ⟨_, _, _, ⟨-, rfl⟩, ⟨_, _, _, ⟨-, rfl⟩, ⟨_, _, _, ⟨-, rfl⟩, ⟨n, s₁, s₂, hout,
    ⟨_, _, _, ⟨hdup, rfl⟩, hlast, rfl⟩, rfl⟩, rfl⟩, rfl⟩, rfl⟩ := h
  obtain rfl : s₂ = [] := by
    split_ifs at hlast
    · exact (Tally.check_eq_ok.mp hlast).2
    · exact (Tally.check_eq_ok.mp hlast).2
  obtain ⟨hnonneg, hle, -⟩ := (checkOutputs_iff tx.vout n).mp ⟨s₁, hout⟩
  have hnodup := (nodup_of_duplicateInput (by simpa using hdup)).1
  refine ⟨⟨hnodup, hnonneg, hle⟩, ?_⟩
  intro x hx
  simp only [nil_append, append_nil] at hx
  exact fold_addsOutput_sums checkOutput_addsOutput le_rfl MAX_MONEY_nonneg hout x hx

lemma checkTransactions_ok {vtx : List CTransaction} (h : checkTransactions E vtx = ⟨.ok u, ss⟩) :
    (∀ tx ∈ vtx, TxOk tx) ∧ ∀ x ∈ ss, InRange64 x := by
  induction vtx generalizing ss with
  | nil =>
    obtain ⟨-, rfl⟩ := Tally.pure_eq_ok.mp h
    exact ⟨by simp, by simp⟩
  | cons tx vtx ih =>
    obtain ⟨_, s₁, s₂, htx, hrest, rfl⟩ := Tally.bind_eq_ok.mp h
    obtain ⟨hok, hs₁⟩ := checkTransaction_ok htx
    obtain ⟨hall, hs₂⟩ := ih hrest
    exact ⟨forall_mem_cons.mpr ⟨hok, hall⟩, forall_mem_append.mpr ⟨hs₁, hs₂⟩⟩

/-- What `CheckBlock` establishes: a coinbase followed by other transactions, each well formed. -/
structure BlockOk (block : CBlock) : Prop where
  coinbase_first : ∃ coinbase vtx, block.vtx = coinbase :: vtx ∧ coinbase.isCoinBase = true ∧
    ∀ tx ∈ vtx, tx.isCoinBase = false
  txs_ok : ∀ tx ∈ block.vtx, TxOk tx

lemma checkBlock_ok {block : CBlock} (h : checkBlock E block = ⟨.ok u, ss⟩) :
    BlockOk block ∧ ∀ x ∈ ss, InRange64 x := by
  unfold checkBlock at h
  simp only [Tally.bind_eq_ok, Tally.check_eq_ok, Tally.lift_eq_ok] at h
  obtain ⟨_, _, _, ⟨-, rfl⟩, ⟨_, _, _, ⟨-, rfl⟩, ⟨_, _, _, ⟨hfirst, rfl⟩, ⟨_, _, _, ⟨hmultiple, rfl⟩,
    ⟨_, _, _, ⟨-, rfl⟩, ⟨_, s, _, htxs, ⟨-, rfl⟩, rfl⟩, rfl⟩, rfl⟩, rfl⟩, rfl⟩, rfl⟩ := h
  obtain ⟨hall, hs⟩ := checkTransactions_ok htxs
  refine ⟨⟨?_, hall⟩, by simpa using hs⟩
  cases hvtx : block.vtx with
  | nil =>
    rw [hvtx] at hfirst
    cases hfirst
  | cons coinbase vtx =>
    rw [hvtx] at hfirst hmultiple
    refine ⟨coinbase, vtx, rfl, hfirst, ?_⟩
    intro tx htx
    simpa using all_eq_true.mp hmultiple tx htx

lemma checkSpend_ok {st' : ConnectState} (hcb : tx.isCoinBase = false)
    (h : checkSpend E nHeight st tx = ⟨.ok st', ss⟩) :
    ∃ txfee s, checkTxInputs tx st.view nHeight = ⟨.ok txfee, s⟩ ∧ ss = s ++ [st.nFees + txfee] ∧
      moneyRange (wrap64 (st.nFees + txfee)) = true ∧
      st' = { st with view := st.view.fetchInputs tx, nFees := wrap64 (st.nFees + txfee) } := by
  unfold checkSpend at h
  simp only [hcb, Bool.false_eq_true, if_false, Tally.bind_eq_ok, Tally.check_eq_ok, Tally.pure_eq_ok, sum64_eq_ok] at h
  obtain ⟨txfee, s, _, hinputs, ⟨_, _, _, ⟨rfl, rfl⟩, ⟨_, _, _, ⟨hrange, rfl⟩, ⟨_, _, _, ⟨-, rfl⟩, ⟨rfl, rfl⟩,
    rfl⟩, rfl⟩, rfl⟩, rfl⟩ := h
  exact ⟨txfee, s, hinputs, by simp, hrange, rfl⟩

lemma checkSpend_coinbase (hcb : tx.isCoinBase = true) : checkSpend E nHeight st tx = pure st := by
  unfold checkSpend
  rw [if_pos hcb]

lemma connectTx_ok {st' : ConnectState} (h : connectTx E nHeight st tx = ⟨.ok st', ss⟩) :
    ∃ st₁ vprevout, checkSpend E nHeight st tx = ⟨.ok st₁, ss⟩ ∧
      updateCoins tx st₁.view nHeight = .ok (vprevout, st'.view) ∧ st'.i = st₁.i + 1 ∧ st'.nFees = st₁.nFees ∧
      st'.vtxundo = if st₁.i > 0 then st₁.vtxundo ++ [vprevout] else st₁.vtxundo := by
  unfold connectTx at h
  simp only [Tally.bind_eq_ok, Tally.check_eq_ok, liftException_eq_ok] at h
  obtain ⟨st₁, s, _, hspend, ⟨_, _, _, ⟨-, rfl⟩, ⟨_, _, _, ⟨-, rfl⟩, ⟨⟨vprevout, view⟩, _, _, ⟨hupdate, rfl⟩, hst,
    rfl⟩, rfl⟩, rfl⟩, rfl⟩ := h
  obtain ⟨rfl, rfl⟩ := Tally.pure_eq_ok.mp hst
  exact ⟨st₁, vprevout, by simpa using hspend, hupdate, rfl, rfl, rfl⟩

lemma checkTxInputs_haveInputs {inputs : CCoinsViewCache} {txfee : Int}
    (h : checkTxInputs tx inputs nHeight = ⟨.ok txfee, ss⟩) : inputs.haveInputs tx = true := by
  obtain ⟨_, _, _, hcheck, -⟩ := Tally.bind_eq_ok.mp h
  exact (Tally.check_eq_ok.mp hcheck).1

def lenientEnv : ConnectEnv where
  params := mainParams
  getDevCoin := fun _ _ => 0
  devScript := []
  serializeSize := fun _ => 100
  blockSize := fun _ => 300
  checkHeader := fun _ => .ok ()
  conflictsWithLock := fun _ => false
  legacySigOps := fun _ => 1
  sigOpCost := fun _ _ => 1
  sequenceLocks := fun _ _ => true
  checkInputs := fun _ _ => true
  isBlockPayeeValid := fun _ _ => .ok true
  controlWait := true
  writeUndo := true

def exampleCoinbase : CTransaction :=
  ⟨[⟨⟨0, 0xffffffff⟩, [1, 2], SEQUENCE_FINAL, []⟩], [⟨50, [OP_1], -10⟩, ⟨0, [], -10⟩], 1, 0, 10⟩

def exampleParent : CTransaction :=
  ⟨[⟨⟨5, 0⟩, [], SEQUENCE_FINAL, []⟩], [⟨10, [OP_1], -10⟩, ⟨0, [OP_RETURN], -10⟩], 1, 0, 11⟩

def exampleChild : CTransaction := ⟨[⟨⟨11, 0⟩, [], SEQUENCE_FINAL, []⟩], [⟨9, [OP_1], -10⟩], 1, 0, 12⟩

def exampleView (nHeight : Nat) : CCoinsViewCache :=
  ⟨(∅ : StdMap COutPoint Coin).insert ⟨5, 0⟩ ⟨⟨12, [OP_1], -10⟩, false, nHeight⟩, ∅⟩

lemma exampleView_base {nHeight : Nat} {o : COutPoint} {coin : Coin} (h : (exampleView nHeight).base[o]? = some coin) :
    coin = ⟨⟨12, [OP_1], -10⟩, false, nHeight⟩ := by
  by_cases ho : (⟨5, 0⟩ : COutPoint) = o
  · subst ho
    exact (Option.some.inj ((getElem?_insert_self _ _ _).symm.trans h)).symm
  · have h' := (getElem?_insert_ne (∅ : StdMap COutPoint Coin) _ ho).symm.trans h
    simp at h'

lemma exampleView_ok (nHeight : Nat) : CacheOk (exampleView nHeight) := by
  refine ⟨?_, ?_, ?_⟩
  · intro o coin h
    rw [exampleView_base h]
    rfl
  · intro o e h
    simp [exampleView] at h
  · intro o e h
    simp [exampleView] at h

end Qstees.Proofs
