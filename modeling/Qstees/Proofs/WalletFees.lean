import Qstees.Proofs.WalletCoins
import Qstees.Proofs.Amounts

/-!
# The fee loop

Whatever passes the loop makes, the transaction it ends with spends what was selected: its outputs and `nFeeRet` add
up to `nValueIn`.
-/

namespace Qstees.Proofs

open CWallet List

lemma getDustThreshold_nonneg (txout : CTxOut) (rate : CFeeRate) : 0 ≤ getDustThreshold txout rate := by
  unfold getDustThreshold
  dsimp only
  split_ifs
  · exact le_rfl
  · exact getFee_nonneg rate _
  · exact getFee_nonneg rate _

lemma nonneg_of_not_dust {txout : CTxOut} {rate : CFeeRate} (h : ¬isDust txout rate = true) : 0 ≤ txout.nValue := by
  have hthreshold := getDustThreshold_nonneg txout rate
  simp only [isDust, decide_eq_true_eq, not_lt] at h
  omega

variable {vecSend : List CRecipient}

lemma recipientsTotal_eq {start nValue : Int}
    (h : recipientsTotal start vecSend = .ok nValue) : nValue = start + (vecSend.map CRecipient.nAmount).sum := by
  induction vecSend generalizing start with
  | nil =>
    cases h
    simp
  | cons recipient vecSend ih =>
    unfold recipientsTotal at h
    split_ifs at h
    rw [ih h]
    simp [add_assoc]

variable {nFeeRet : Int} {vout : List CTxOut}

lemma payees_spec {fees : FeeContext} {k : Nat} {fFirst : Bool}
    (h : payees fees nFeeRet k fFirst vecSend = .ok vout) :
    vout.length = vecSend.length ∧ (∀ txout ∈ vout, 0 ≤ txout.nValue) ∧
      outputSum vout = (vecSend.map CRecipient.nAmount).sum -
        (vecSend.countP (·.fSubtractFeeFromAmount) * nFeeRet.tdiv k +
          if fFirst = true ∧ 0 < vecSend.countP (·.fSubtractFeeFromAmount) then nFeeRet.tmod k else 0) := by
  induction vecSend generalizing fFirst vout with
  | nil =>
    cases h
    simp [outputSum]
  | cons recipient vecSend ih =>
    unfold payees at h
    dsimp only at h
    split_ifs at h with hdust
    · cases h
    obtain ⟨rest, hrest, h⟩ := ok_of_bind h
    cases h
    obtain ⟨hlength, hnonneg, htotal⟩ := ih hrest
    refine ⟨by simp [hlength], forall_mem_cons.mpr ⟨nonneg_of_not_dust hdust, hnonneg⟩, ?_⟩
    · simp only [outputSum, map_cons, sum_cons] at htotal ⊢
      rw [htotal]
      cases hsubtract : recipient.fSubtractFeeFromAmount with
      | false => simp [payee, hsubtract]; ring
      | true =>
        cases fFirst with
        | false => simp [payee, hsubtract]; ring
        | true => simp [payee, hsubtract]; ring

section Loop

variable {E : WalletEnv} {ctx : WalletContext} {fees : FeeContext} {rand : Randomness} {wallet : CWallet}
    {args : CreateArgs}
  {nValue : Int}

lemma payees_total (hvalue : nValue = (args.vecSend.map CRecipient.nAmount).sum)
    (h : payees fees nFeeRet (nSubtractFeeFromAmount args) true args.vecSend = .ok vout) :
    outputSum vout + nFeeRet = nValueToSelect args nValue nFeeRet := by
  obtain ⟨-, -, htotal⟩ := payees_spec h
  have hcount : args.vecSend.countP (·.fSubtractFeeFromAmount) = nSubtractFeeFromAmount args := rfl
  rw [htotal, hcount, nValueToSelect, ← hvalue]
  split_ifs with hpays hnone hnone
  · omega
  · rw [Int.mul_tdiv_add_tmod]
    ring
  · simp [hnone]
  · simp only [true_and, not_lt, Nat.le_zero] at hpays
    exact absurd hpays hnone

def ChangeInside (draft : Draft) : Prop := 0 ≤ draft.nChangePosInOut ∧ draft.nChangePosInOut < draft.vout.length

/-- The change is one of the outputs or goes to the fee. -/
structure ChangePlaced (vout : List CTxOut) (nFeeRet nChange : Int) (draft : Draft) : Prop where
  total : outputSum draft.vout + draft.nFeeRet = outputSum vout + nFeeRet + nChange
  nonneg : ∀ txout ∈ draft.vout, 0 ≤ txout.nValue
  length : vout.length ≤ draft.vout.length
  fee : nFeeRet ≤ draft.nFeeRet
  position : (draft.nChangePosInOut = -1 ∧ draft.vout = vout) ∨ ChangeInside draft

lemma changePlaced_insertIdx {nChange nFeeRet position : Int} {i : Nat} (hchange : 0 ≤ nChange)
    (hvout : ∀ txout ∈ vout, 0 ≤ txout.nValue) (hi : i ≤ vout.length) (hposition : position = i) (script : CScript) :
    ChangePlaced vout nFeeRet nChange ⟨vout.insertIdx i ⟨nChange, script, -10⟩, nFeeRet, position⟩ := by
  have hperm := perm_insertIdx ⟨nChange, script, -10⟩ vout hi
  have hlength := length_insertIdx_of_le_length hi (⟨nChange, script, -10⟩ : CTxOut)
  refine ⟨?_, fun txout htxout => ?_,
    by simp [hlength], le_rfl, .inr ⟨by simp [hposition], by simp [hposition, hlength]; omega⟩⟩
  · have hsum := (hperm.map CTxOut.nValue).sum_eq
    simp only [map_cons, sum_cons] at hsum
    dsimp only
    rw [outputSum, hsum, outputSum]
    ring
  · rcases mem_cons.mp (hperm.mem_iff.mp htxout) with rfl | htxout
    · exact hchange
    · exact hvout txout htxout

variable {draft : Draft}

lemma addChange_spec {pass : Nat} {bnb_used : Bool} {nChange nFeeRet : Int}
    (hchange : 0 ≤ nChange) (hvout : ∀ txout ∈ vout, 0 ≤ txout.nValue)
    (h : wallet.addChange E fees rand args pass bnb_used nChange nFeeRet vout = .ok draft) :
    ChangePlaced vout nFeeRet nChange draft := by
  unfold addChange at h
  by_cases hpositive : nChange > 0
  · rw [if_pos hpositive] at h
    obtain ⟨script, -, h⟩ := ok_of_bind h
    dsimp only at h
    split_ifs at h with hdust hrandom hrange
    · cases h
      exact ⟨by dsimp only; ring, hvout, le_rfl, by dsimp only; omega, .inl ⟨rfl, rfl⟩⟩
    · cases h
      have hlt := rand.getRandInt_lt [pass] (vout.length + 1) (by omega)
      exact changePlaced_insertIdx hchange hvout (Nat.lt_succ_iff.mp hlt) rfl script
    · cases h
      exact changePlaced_insertIdx hchange hvout (by omega) (by omega) script
  · rw [if_neg hpositive] at h
    cases h
    have hzero : nChange = 0 := by omega
    exact ⟨by dsimp only; rw [hzero]; ring, hvout, le_rfl, le_rfl, .inl ⟨rfl, rfl⟩⟩

lemma exists_modifyValue {position : Int} {txout : CTxOut} (f : Int → Int)
    (h : vout[position.toNat]? = some txout) :
    ∃ before after, vout = before ++ txout :: after ∧
      modifyValue vout position f = before ++ { txout with nValue := f txout.nValue } :: after := by
  obtain ⟨hlt, rfl⟩ := List.getElem?_eq_some_iff.mp h
  exact ⟨_, _, by simp, modify_eq_take_cons_drop hlt⟩

/-- What is known of the outputs and the fee when a pass has placed the change. -/
structure Balances (nValueIn : Int) (draft : Draft) : Prop where
  total : outputSum draft.vout + draft.nFeeRet = nValueIn
  nonneg : ∀ txout ∈ draft.vout, 0 ≤ txout.nValue
  vout_ne_nil : draft.vout ≠ []

lemma MIN_FINAL_CHANGE_pos : 0 < MIN_FINAL_CHANGE := by decide

lemma exists_change (hpos : draft.nChangePosInOut = -1 ∨ ChangeInside draft) (hne : draft.nChangePosInOut ≠ -1) :
    ∃ txout ∈ draft.vout, draft.vout[draft.nChangePosInOut.toNat]? = some txout := by
  rcases hpos with h | ⟨hlo, hhi⟩
  · exact absurd h hne
  · have hlt : draft.nChangePosInOut.toNat < draft.vout.length := by omega
    exact ⟨_, getElem_mem hlt, getElem?_eq_getElem hlt⟩

lemma Balances.shift {nValueIn nFeeRet : Int} {change : CTxOut} {f : Int → Int}
    (hdraft : Balances nValueIn draft) (hchange : draft.vout[draft.nChangePosInOut.toNat]? = some change)
    (hf : f change.nValue = change.nValue + (draft.nFeeRet - nFeeRet)) (hnonneg : 0 ≤ f change.nValue) :
    Balances nValueIn { draft with vout := modifyValue draft.vout draft.nChangePosInOut f, nFeeRet := nFeeRet } := by
  obtain ⟨htotal, hvout, -⟩ := hdraft
  obtain ⟨before, after, hsplit, hmodify⟩ := exists_modifyValue f hchange
  rw [hsplit] at htotal hvout
  rw [hmodify]
  refine ⟨?_, ?_, by simp⟩
  · simp only [outputSum, map_append, map_cons, sum_append, sum_cons] at htotal ⊢
    omega
  · simp only [forall_mem_append, forall_mem_cons] at hvout ⊢
    exact ⟨hvout.1, hnonneg, hvout.2.2⟩

variable {prototype : CTxOut} {nBytes pass : Nat} {nFeeNeeded nValueIn : Int} {s s' : FeeLoop} {draft draft' : Draft}
  {coins : List CInputCoin}

lemma enoughFee_done (hdraft : Balances nValueIn draft)
    (hpos : draft.nChangePosInOut = -1 ∨ ChangeInside draft)
    (hfee : nFeeNeeded ≤ draft.nFeeRet)
    (h : enoughFee fees args prototype nBytes nFeeNeeded pass s draft = .done draft' coins) :
    coins = s.setCoins ∧ Balances nValueIn draft' ∧ nFeeNeeded ≤ draft'.nFeeRet := by
  unfold enoughFee at h
  dsimp only at h
  split_ifs at h with hagain hextra
  · simp only [PassOutcome.done.injEq] at h
    obtain ⟨rfl, rfl⟩ := h
    obtain ⟨change, hmem, hchange⟩ := exists_change hpos hextra.2.1
    have hnonneg := hdraft.nonneg change hmem
    refine ⟨rfl, hdraft.shift hchange ?_ ?_, ?_⟩
    · ring
    · omega
    · dsimp only
      omega
  · simp only [PassOutcome.done.injEq] at h
    obtain ⟨rfl, rfl⟩ := h
    exact ⟨rfl, hdraft, hfee⟩

lemma enoughFee_again (h : enoughFee fees args prototype nBytes nFeeNeeded pass s draft = .again s') :
    nSubtractFeeFromAmount args = 0 ∧ draft.nChangePosInOut = -1 ∧
      (s.pick_new_inputs = true ∧ s'.pick_new_inputs = false) ∧ s'.nFeeRet ≤ draft.nFeeRet ∧ s'.setCoins = s.setCoins ∧
      s'.nValueIn = s.nValueIn := by
  unfold enoughFee at h
  dsimp only at h
  split_ifs at h with hagain hextra
  · simp only [PassOutcome.again.injEq] at h
    subst h
    have hthreshold := getDustThreshold_nonneg prototype fees.discard_rate
    refine ⟨hagain.1.2.1, hagain.1.1, ⟨hagain.1.2.2, rfl⟩, ?_, rfl, rfl⟩
    dsimp only
    omega

lemma tooLittleFee_done (hdraft : Balances nValueIn draft)
    (hpos : draft.nChangePosInOut = -1 ∨ ChangeInside draft)
    (h : tooLittleFee args nFeeNeeded s draft = .ok (.done draft' coins)) :
    coins = s.setCoins ∧ Balances nValueIn draft' ∧ nFeeNeeded ≤ draft'.nFeeRet := by
  unfold tooLittleFee at h
  dsimp only at h
  split_ifs at h with hpick hreduce
  · simp only [Except.ok.injEq, PassOutcome.done.injEq] at h
    obtain ⟨rfl, rfl⟩ := h
    obtain ⟨change, hmem, hchange⟩ := exists_change hpos hreduce.1.1
    have hlarge := hreduce.2
    rw [hchange, Option.map_some, Option.getD_some] at hlarge
    have hmin := MIN_FINAL_CHANGE_pos
    refine ⟨rfl, hdraft.shift hchange ?_ ?_, ?_⟩
    · ring
    · omega
    · dsimp only
      omega
  · simp at h

lemma tooLittleFee_again (h : tooLittleFee args nFeeNeeded s draft = .ok (.again s')) :
    s.pick_new_inputs = true ∧ (s'.nFeeRet = nFeeNeeded ∧ s'.use_bnb = false) ∧
      (s'.pick_new_inputs = false → nSubtractFeeFromAmount args ≠ 0) ∧ s'.setCoins = s.setCoins ∧
      s'.nValueIn = s.nValueIn := by
  unfold tooLittleFee at h
  dsimp only at h
  split_ifs at h with hpick hreduce
  · simp at h
  · simp only [Except.ok.injEq, PassOutcome.again.injEq] at h
    subst h
    have htrue : s.pick_new_inputs = true := by simpa using hpick
    refine ⟨htrue, ⟨rfl, rfl⟩, fun hfalse => ?_, rfl, rfl⟩
    simpa [htrue] using hfalse

/-- The coins of a pass: selected, in the chain or the pool, and within the limit of InstantSend. -/
structure Picked (ctx : WalletContext) (wallet : CWallet) (args : CreateArgs) (coins : List CInputCoin)
    (nValueIn : Int) : Prop where
  selected : Selected ctx wallet args.coin_control coins nValueIn
  age : ∀ coin ∈ coins, ∀ wtx, wallet.mapWallet[coin.outpoint.hash]? = some wtx → 0 ≤ wtx.getDepthInMainChain ctx
  limit : args.fUseInstantSend = true → nValueIn ≤ ctx.sporkMaxValue * COIN

lemma checkAges_ok {coins : List CInputCoin} (h : wallet.checkAges ctx coins = .ok ()) :
    ∀ coin ∈ coins, ∀ wtx, wallet.mapWallet[coin.outpoint.hash]? = some wtx → 0 ≤ wtx.getDepthInMainChain ctx := by
  induction coins with
  | nil => simp
  | cons first coins ih =>
    unfold checkAges at h
    cases hwtx : wallet.mapWallet[first.outpoint.hash]? with
    | none => simp [hwtx] at h
    | some wtx =>
      simp only [hwtx] at h
      split_ifs at h with hage
      intro coin hcoin w hw
      rcases mem_cons.mp hcoin with rfl | hcoin
      · obtain rfl : w = wtx := Option.some.inj (hw.symm.trans hwtx)
        omega
      · exact ih h coin hcoin w hw

/-- What the loop keeps: once the coins are fixed, they cover what is still to be selected. -/
def Covers (ctx : WalletContext) (wallet : CWallet) (args : CreateArgs) (nValue : Int) (s : FeeLoop) : Prop :=
  s.pick_new_inputs = false →
    Picked ctx wallet args s.setCoins s.nValueIn ∧ nValueToSelect args nValue s.nFeeRet ≤ s.nValueIn

variable {outs : List COutput} {vout : List CTxOut} {target : Int} {bnb_used : Bool}

lemma pickInputs_spec (houts : wallet.availableCoins E ctx {} args.coin_control = .ok outs)
    (hs : Covers ctx wallet args nValue s) (htarget : target = nValueToSelect args nValue s.nFeeRet)
    (h : wallet.pickInputs E ctx fees rand args outs prototype vout target pass s = .ok (some (s', bnb_used))) :
    Picked ctx wallet args s'.setCoins s'.nValueIn ∧ target ≤ s'.nValueIn ∧ s'.nFeeRet = s.nFeeRet ∧
      s'.pick_new_inputs = s.pick_new_inputs := by
  obtain ⟨hnodup, hlisted⟩ := availableCoins_spec houts
  unfold pickInputs at h
  by_cases hpick : s.pick_new_inputs = true
  · rw [if_pos hpick] at h
    dsimp only at h
    obtain ⟨r, hr, h⟩ := ok_of_bind h
    have hselect := mapError_eq_ok.mp hr
    cases hsuccess : r.success with
    | false =>
      simp only [hsuccess, Bool.not_false, if_true] at h
      split_ifs at h
      cases h
    | true =>
      simp only [hsuccess, Bool.not_true, Bool.false_eq_true, if_false] at h
      split_ifs at h with hlimit
      obtain ⟨⟨⟩, hages, h⟩ := ok_of_bind h
      cases h
      obtain ⟨hselected, hreached⟩ := selectCoins_spec hnodup hlisted hselect hsuccess
      refine ⟨⟨hselected, checkAges_ok hages, fun his => ?_⟩, hreached, rfl, rfl⟩
      by_contra hover
      exact hlimit ⟨his, by dsimp only at hover; omega⟩
  · rw [if_neg hpick] at h
    cases h
    obtain ⟨hpicked, hcovers⟩ := hs (by simpa using hpick)
    exact ⟨hpicked, by omega, rfl, rfl⟩

def minFeeOf (coins : List CInputCoin) : Int := max CTxLockRequest.MIN_FEE (coins.length * CTxLockRequest.MIN_FEE)

lemma getMinFee_dummyFill : CTxLockRequest.getMinFee ⟨dummyFill ctx draft coins⟩ = minFeeOf coins := by
  simp [minFeeOf, CTxLockRequest.getMinFee, dummyFill]

lemma minFeeOf_le_feeNeeded (his : args.fUseInstantSend = true) :
    minFeeOf coins ≤ feeNeeded fees args nBytes pass (dummyFill ctx draft coins) := by
  unfold feeNeeded
  dsimp only
  rw [if_pos his, getMinFee_dummyFill]
  exact le_max_right _ _

structure Drafted (ctx : WalletContext) (wallet : CWallet) (args : CreateArgs) (draft : Draft) (coins : List CInputCoin)
    (nValueIn : Int) : Prop where
  picked : Picked ctx wallet args coins nValueIn
  balances : Balances nValueIn draft
  minFee : args.fUseInstantSend = true → minFeeOf coins ≤ draft.nFeeRet

/-- How a pass may end: with a transaction that balances, or with the invariant for the next pass. -/
def Continues (ctx : WalletContext) (wallet : CWallet) (args : CreateArgs) (nValue : Int) : PassOutcome → Prop
  | .again s => Covers ctx wallet args nValue s
  | .done draft coins => ∃ nValueIn, Drafted ctx wallet args draft coins nValueIn

lemma feePass_eq_ok {outcome : PassOutcome}
    (h : wallet.feePass E ctx fees rand args outs prototype nValue pass s = .ok outcome) :
    ∃ vout, payees fees s.nFeeRet (nSubtractFeeFromAmount args) true args.vecSend = .ok vout ∧
      ((wallet.pickInputs E ctx fees rand args outs prototype vout (nValueToSelect args nValue s.nFeeRet) pass s =
        .ok none ∧ outcome = .again { s with use_bnb := false }) ∨
        ∃ s₁ bnb_used draft nBytes nFeeNeeded,
          wallet.pickInputs E ctx fees rand args outs prototype vout (nValueToSelect args nValue s.nFeeRet) pass s =
            .ok (some (s₁, bnb_used)) ∧
          wallet.addChange E fees rand args pass bnb_used (s₁.nValueIn -
            nValueToSelect args nValue s.nFeeRet) s₁.nFeeRet vout = .ok draft ∧
          nFeeNeeded = feeNeeded fees args nBytes pass (dummyFill ctx draft s₁.setCoins) ∧
          (nFeeNeeded ≤ draft.nFeeRet ∧ enoughFee fees args prototype nBytes nFeeNeeded pass s₁ draft = outcome ∨
            draft.nFeeRet < nFeeNeeded ∧ tooLittleFee args nFeeNeeded s₁ draft = .ok outcome)) := by
  unfold feePass at h
  dsimp only at h
  obtain ⟨vout, hvout, h⟩ := ok_of_bind h
  refine ⟨vout, hvout, ?_⟩
  obtain ⟨picked?, hpick, h⟩ := ok_of_bind h
  cases picked? with
  | none =>
    cases h
    exact .inl ⟨hpick, rfl⟩
  | some p =>
    obtain ⟨s₁, bnb_used⟩ := p
    obtain ⟨draft, hdraft, h⟩ := ok_of_bind h
    split_ifs at h with hbytes hfallback hrelay henough
    · exact .inr ⟨s₁, bnb_used, draft, _, _, hpick, hdraft, rfl, .inl ⟨henough, Except.ok.inj h⟩⟩
    · exact .inr ⟨s₁, bnb_used, draft, _, _, hpick, hdraft, rfl, .inr ⟨not_le.mp henough, h⟩⟩

section

variable (houts : wallet.availableCoins E ctx {} args.coin_control = .ok outs)
  (hvalue : nValue = (args.vecSend.map CRecipient.nAmount).sum) (hsend : args.vecSend ≠ [])
    (hs : Covers ctx wallet args nValue s)
include houts hvalue hsend hs

lemma feePass_spec {outcome : PassOutcome}
    (h : wallet.feePass E ctx fees rand args outs prototype nValue pass s = .ok outcome) :
    Continues ctx wallet args nValue outcome := by
  obtain ⟨vout, hvout, ⟨hpick, rfl⟩ | ⟨s₁, bnb, draft, nBytes, _, hpick, hdraft, rfl, h⟩⟩ := feePass_eq_ok h
  · exact hs
  obtain ⟨hlength, hnonneg, -⟩ := payees_spec hvout
  have htotal := payees_total hvalue hvout
  obtain ⟨hpicked, hreached, hfeeRet, -⟩ := pickInputs_spec houts hs rfl hpick
  rw [hfeeRet] at hdraft
  obtain ⟨hbalance, hnonneg', hlength', -, hposition⟩ := addChange_spec (by omega) hnonneg hdraft
  have hne : draft.vout ≠ [] := by
    rintro hnil
    rw [hnil] at hlength'
    have hpos := length_pos_of_ne_nil hsend
    simp only [length_nil] at hlength'
    omega
  have hbalances : Balances s₁.nValueIn draft := ⟨by omega, hnonneg', hne⟩
  have hposition' : draft.nChangePosInOut = -1 ∨ ChangeInside draft := hposition.imp_left And.left
  obtain ⟨henough, hout⟩ | ⟨-, hout⟩ := h
  · cases outcome with
    | again s' =>
      obtain ⟨hk, hnone, -, hsmaller, hcoins, hvalueIn⟩ := enoughFee_again hout
      intro _
      rw [hcoins, hvalueIn]
      refine ⟨hpicked, ?_⟩
      -- no change: the outputs are the payees, and the old fee is all that is left
      have hsame : draft.vout = vout := by
        rcases hposition with ⟨-, hsame⟩ | ⟨hlo, -⟩
        · exact hsame
        · omega
      have hbalance' := hbalances.total
      simp only [nValueToSelect, if_pos hk] at htotal ⊢
      rw [hsame] at hbalance'
      omega
    | done draft' coins =>
      obtain ⟨rfl, hbalances', hfee⟩ := enoughFee_done hbalances hposition' henough hout
      exact ⟨s₁.nValueIn, hpicked, hbalances', fun his => (minFeeOf_le_feeNeeded his).trans hfee⟩
  · cases outcome with
    | again s' =>
      obtain ⟨-, -, hk, hcoins, hvalueIn⟩ := tooLittleFee_again hout
      intro hfixed
      rw [hcoins, hvalueIn]
      refine ⟨hpicked, ?_⟩
      simp only [nValueToSelect, if_neg (hk hfixed)] at hreached ⊢
      exact hreached
    | done draft' coins =>
      obtain ⟨rfl, hbalances', hfee⟩ := tooLittleFee_done hbalances hposition' hout
      exact ⟨s₁.nValueIn, hpicked, hbalances', fun his => (minFeeOf_le_feeNeeded his).trans hfee⟩

lemma feeLoop_spec {passes : Nat}
    (h : wallet.feeLoop E ctx fees rand args outs prototype nValue passes pass s = .ok (draft, coins)) :
    ∃ nValueIn, Drafted ctx wallet args draft coins nValueIn := by
  induction passes generalizing pass s with
  | zero => cases h
  | succ passes ih =>
    unfold feeLoop at h
    obtain ⟨outcome, hpass, h⟩ := ok_of_bind h
    have hspec := feePass_spec houts hvalue hsend hs hpass
    cases outcome with
    | again s' => exact ih hspec h
    | done draft' coins' =>
      cases h
      exact hspec

end

lemma ne_running_bind {α β : Type} {x : Except WalletFailure α} {f : α → Except WalletFailure β}
    (hx : x ≠ .error .running) (hf : ∀ a, x = .ok a → f a ≠ .error .running) : x >>= f ≠ .error .running := by
  cases x with
  | error e => exact fun h => hx (congrArg Except.error (Except.error.inj h))
  | ok a => exact hf a rfl

lemma payees_ne_running {k : Nat} {fFirst : Bool} :
    payees fees nFeeRet k fFirst vecSend ≠ .error .running := by
  induction vecSend generalizing fFirst with
  | nil => nofun
  | cons recipient vecSend ih =>
    unfold payees
    dsimp only
    split_ifs
    · nofun
    · exact ne_running_bind ih (fun _ _ => nofun)

lemma checkAges_ne_running : wallet.checkAges ctx coins ≠ .error .running := by
  induction coins with
  | nil => nofun
  | cons coin coins ih =>
    unfold checkAges
    split
    · nofun
    · split_ifs
      · nofun
      · exact ih

lemma pickInputs_ne_running :
    wallet.pickInputs E ctx fees rand args outs prototype vout target pass s ≠ .error .running := by
  unfold pickInputs
  split_ifs
  · refine ne_running_bind ?_ (fun r _ => ?_)
    · unfold orException Except.mapError
      split <;> nofun
    · split_ifs
      · nofun
      · nofun
      · nofun
      · exact ne_running_bind checkAges_ne_running (fun _ _ => nofun)
  · nofun

lemma addChange_ne_running {nChange nFeeRet : Int} :
    wallet.addChange E fees rand args pass bnb_used nChange nFeeRet vout ≠ .error .running := by
  unfold addChange
  by_cases hpositive : nChange > 0
  · rw [if_pos hpositive]
    refine ne_running_bind ?_ (fun script _ => ?_)
    · unfold scriptChange
      split_ifs
      · nofun
      · split <;> nofun
    · dsimp only
      split_ifs <;> nofun
  · rw [if_neg hpositive]
    nofun

lemma feePass_ne_running : wallet.feePass E ctx fees rand args outs prototype nValue pass s ≠ .error .running := by
  unfold feePass
  refine ne_running_bind payees_ne_running (fun vout _ => ne_running_bind pickInputs_ne_running (fun picked _ => ?_))
  cases picked with
  | none => nofun
  | some p =>
    refine ne_running_bind addChange_ne_running (fun draft _ => ?_)
    dsimp only
    split_ifs
    · nofun
    · nofun
    · nofun
    · nofun
    · unfold tooLittleFee
      dsimp only
      split_ifs <;> nofun

/-- No fee of the loop is above this. -/
def feeBound (wallet : CWallet) : Int :=
  max MAX_MONEY (max CTxLockRequest.MIN_FEE
    ((wallet.mapWallet.toList.flatMap outputKeys).length * CTxLockRequest.MIN_FEE))

lemma feeNeeded_le (hfees : ∀ pass nBytes, fees.getMinimumFee pass nBytes ≤ MAX_MONEY)
    (hselected : Selected ctx wallet args.coin_control coins nValueIn) :
    feeNeeded fees args nBytes pass (dummyFill ctx draft coins) ≤ feeBound wallet := by
  have hrate := hfees pass nBytes
  have hcoins : (coins.length : Int) * CTxLockRequest.MIN_FEE ≤
      (wallet.mapWallet.toList.flatMap outputKeys).length * CTxLockRequest.MIN_FEE :=
    mul_le_mul_of_nonneg_right (Nat.cast_le.mpr hselected.length_le) (by decide)
  unfold feeNeeded feeBound
  dsimp only
  split_ifs
  · rw [getMinFee_dummyFill, minFeeOf]
    exact max_le_max hrate (max_le_max le_rfl hcoins)
  · exact hrate.trans (le_max_left _ _)

/-- How often the loop can still go on: the fee rises up to its bound, the first solver fails once, and the coins
are fixed once. -/
def passesLeft (maxFee : Int) (s : FeeLoop) : Nat :=
  if s.pick_new_inputs then (maxFee - s.nFeeRet).toNat + s.use_bnb.toNat + 1 else 0

lemma selectCoins_bnb_used {place : List Nat} {params : CoinSelectionParams} {r : SelectResult}
    (h : wallet.selectCoins E ctx rand place fees params outs target args.coin_control = .ok r)
    (hr : r.bnb_used = true) : params.use_bnb = true := by
  unfold selectCoins at h
  split_ifs at h
  · obtain ⟨solution, -, h⟩ := ok_of_bind h
    cases h
    cases hr
  unfold selectWithPreset at h
  obtain ⟨preset, -, h⟩ := ok_of_bind h
  cases preset with
  | none =>
    cases h
    cases hr
  | some preset =>
    obtain ⟨left, -, h⟩ := ok_of_bind h
    obtain ⟨groups, -, h⟩ := ok_of_bind h
    split_ifs at h
    · cases h
      cases hr
    obtain ⟨solution, -, h⟩ := ok_of_bind h
    cases solution with
    | none =>
      cases h
      exact (Bool.and_eq_true_iff.mp hr).1
    | some solution =>
      cases h
      exact (Bool.and_eq_true_iff.mp hr).1

lemma pickInputs_eq_none
    (h : wallet.pickInputs E ctx fees rand args outs prototype vout target pass s = .ok none) :
    s.pick_new_inputs = true ∧ s.use_bnb = true := by
  unfold pickInputs at h
  split_ifs at h with hpick
  · obtain ⟨r, hr, h⟩ := ok_of_bind h
    split_ifs at h with hfailed hbnb
    · exact ⟨hpick, selectCoins_bnb_used (mapError_eq_ok.mp hr) hbnb⟩
    · obtain ⟨⟨⟩, -, h⟩ := ok_of_bind h
      cases h
  · cases h

section

variable (houts : wallet.availableCoins E ctx {} args.coin_control = .ok outs)
  (hfees : ∀ pass nBytes, fees.getMinimumFee pass nBytes ≤ MAX_MONEY)
include houts hfees

lemma feePass_again
    (h : wallet.feePass E ctx fees rand args outs prototype nValue pass s = .ok (.again s')) :
    passesLeft (feeBound wallet) s' < passesLeft (feeBound wallet) s := by
  obtain ⟨vout, hvout, ⟨hpick, hs'⟩ | ⟨s₁, bnb, draft, nBytes, _, hpick, hdraft, rfl, hends⟩⟩ := feePass_eq_ok h
  · obtain ⟨hnew, hbnb⟩ := pickInputs_eq_none hpick
    cases hs'
    simp [passesLeft, hnew, hbnb]
  by_cases hnew : s.pick_new_inputs = true
  · obtain ⟨hpicked, hreached, hfeeRet, hkept⟩ :=
      pickInputs_spec houts (fun hfixed => by simp [hnew] at hfixed) rfl hpick
    obtain ⟨-, -, -, hfee, -⟩ := addChange_spec (by omega) (payees_spec hvout).2.1 hdraft
    obtain ⟨-, hagain⟩ | ⟨hless, hagain⟩ := hends
    · obtain ⟨-, -, ⟨-, hfixed⟩, -⟩ := enoughFee_again hagain
      simp [passesLeft, hnew, hfixed]
    · obtain ⟨-, ⟨hneeded, hbnb⟩, -⟩ := tooLittleFee_again hagain
      have hbound : feeNeeded fees args nBytes pass (dummyFill ctx draft s₁.setCoins) ≤ feeBound wallet :=
        feeNeeded_le hfees hpicked.selected
      simp only [passesLeft, hnew, hbnb, if_true, Bool.toNat_false]
      split_ifs
      · omega
      · omega
  · -- with fixed coins a pass never goes on
    have hsame : s₁ = s := by
      unfold pickInputs at hpick
      rw [if_neg hnew] at hpick
      exact (congrArg Prod.fst (Option.some.inj (Except.ok.inj hpick))).symm
    subst hsame
    obtain ⟨-, hagain⟩ | ⟨-, hagain⟩ := hends
    · exact absurd (enoughFee_again hagain).2.2.1.1 hnew
    · exact absurd (tooLittleFee_again hagain).1 hnew

lemma feeLoop_ne_running {passes : Nat}
    (hpasses : passesLeft (feeBound wallet) s < passes) :
    wallet.feeLoop E ctx fees rand args outs prototype nValue passes pass s ≠ .error .running := by
  induction passes generalizing pass s with
  | zero => omega
  | succ passes ih =>
    unfold feeLoop
    refine ne_running_bind feePass_ne_running (fun outcome hpass => ?_)
    cases outcome with
    | again s' =>
      have hleft := feePass_again houts hfees hpass
      exact ih (by omega)
    | done draft coins => nofun

end

end Loop

/-- A signature and a key of the right sizes. -/
def exampleScriptSig : CScript := 9 :: [0x30, 6, 2, 1, 1, 2, 1, 1, 1] ++ 33 :: 2 :: List.replicate 32 0

/-- A key store that owns and signs everything, with fixed sizes. -/
def exampleWalletEnv : WalletEnv where
  hashes := ⟨id, id, id, fun _ => List.replicate 20 0, id⟩
  isMine := fun _ => .spendable
  isSolvable := fun _ => true
  isFromMe := fun _ => true
  maximumSignedInputSize := fun _ _ => 148
  maximumSignedTxSize := fun _ => 200
  getTransactionWeight := fun _ => 800
  computeHash := fun _ => 9
  destinationForKey := .keyID
  signStep := fun _ _ _ => ⟨true, exampleScriptSig, []⟩
  checkLowS := fun _ => true
  checkSig := fun _ _ _ _ _ _ _ => true

/-- A transaction that pays the wallet. -/
def exampleWalletTx (vout : List CTxOut) : CWalletTx where
  tx := ⟨[], vout, 1, 0, 1⟩
  hashBlock := 5
  nIndex := 0

/-- A wallet with one transaction. -/
def exampleWallet (vout : List CTxOut) : CWallet where
  mapWallet := (∅ : StdMap UInt256 CWalletTx).insert 1 (exampleWalletTx vout)
  keyed := by
    intro hash wtx h
    rw [Std.ExtTreeMap.getElem?_insert] at h
    split_ifs at h with heq
    · cases h
      exact Std.LawfulEqCmp.eq_of_compare heq
    · simp at h

/-- The chain at a height, with the wallet's transaction confirmed at `nHeight`. -/
def exampleWalletContext (vout : List CTxOut) (nHeight : Nat) (height : Int) : WalletContext where
  height := height
  getAdjustedTime := 0
  getUTXOCoin := fun o => if o.hash = 1 then (vout[o.n]?).map fun out => ⟨out, false, nHeight⟩ else none
  sporkMaxValue := 1000
  activeHeight := fun hash => if hash = 5 then some nHeight else none
  mempoolTx := fun _ => none
  isLockedInstantSendTransaction := fun _ => false
  getTransactionAncestry := fun _ => (0, 0)
  checkCollateral := fun _ => false
  withinChainLimits := fun _ => true

/-- A payment of 50 coins, less the fee. -/
def examplePayment (coin_control : CCoinControl) : CreateArgs where
  vecSend := [⟨keyIDScript (List.replicate 20 1), 50 * COIN, true⟩]
  coin_control := { coin_control with destChange := .keyID (List.replicate 20 2) }

/-- However the fee is estimated and whatever is drawn, the loop of `CreateTransaction` ends. -/
theorem feeLoop_terminates {E : WalletEnv} {ctx : WalletContext} {fees : FeeContext} {rand : Randomness}
    {wallet : CWallet} {args : CreateArgs} {outs : List COutput} {nValue : Int} {prototype : CTxOut}
    (houts : wallet.availableCoins E ctx {} args.coin_control = .ok outs)
    (hfees : ∀ pass nBytes, fees.getMinimumFee pass nBytes ≤ MAX_MONEY) :
    ∃ n, ∀ passes ≥ n,
      wallet.feeLoop E ctx fees rand args outs prototype nValue passes 0 (startLoop args) ≠ .error .running :=
  ⟨_, fun _ hpasses => feeLoop_ne_running houts hfees hpasses⟩

/-- Coins of 30, 40 and 90, in one transaction. -/
def exampleCoins : List CTxOut :=
  [30, 40, 90].map fun n => ⟨n * COIN, keyIDScript (List.replicate 20 0), -10⟩

/-- What `AvailableCoins` lists of them. -/
def exampleOuts : List COutput :=
  ((exampleWallet exampleCoins).availableCoins exampleWalletEnv (exampleWalletContext exampleCoins 1 1500) {}
    (examplePayment {}).coin_control).toOption.getD []

/-- The loop of the example payment from these coins. -/
def exampleLoop (passes : Nat) : Except WalletFailure (Draft × List CInputCoin) :=
  (exampleWallet exampleCoins).feeLoop exampleWalletEnv (exampleWalletContext exampleCoins 1 1500) exampleFees
    exampleRandomness (examplePayment {}) exampleOuts ⟨0, keyIDScript (List.replicate 20 2), -10⟩ (50 * COIN) passes 0
    (startLoop (examplePayment {}))

/-- The first pass finds two coins and too little fee, the second takes the same coins and pays fee and change. -/
theorem feeLoop_terminates_payment :
    exampleLoop 1 = .error .running ∧
      (exampleLoop 2).map (fun r => (r.1.vout.map CTxOut.nValue, r.1.nFeeRet, r.2.map CInputCoin.outpoint)) =
        .ok ([20 * COIN, 50 * COIN - 1000], 1000, [⟨1, 1⟩, ⟨1, 0⟩]) ∧
      ∃ n, ∀ passes ≥ n, exampleLoop passes ≠ .error .running := by
  refine ⟨by decide +kernel, by decide +kernel, ?_⟩
  have houts : (exampleWallet exampleCoins).availableCoins exampleWalletEnv (exampleWalletContext exampleCoins 1 1500)
    {} (examplePayment {}).coin_control = .ok exampleOuts := by
    decide +kernel
  exact feeLoop_terminates houts (fun _ _ => show (1000 : Int) ≤ MAX_MONEY by decide)

end Qstees.Proofs
