import Qstees.Proofs.Connect
import Qstees.Proofs.Interest
import Qstees.Proofs.Subsidy
import Qstees.Proofs.Supply

/-!
# No unauthorised money

Each transaction of a block moves money from its inputs, with interest, to its outputs and the fees; only the coinbase
creates any, and it is limited by the fees, the subsidy and the dev fee.
-/

namespace Qstees.Proofs

open List

variable {E : ConnectEnv}

/-- The value that a block credits for a coin. -/
def creditedValue (nHeight : Int) (coin : Coin) : Int :=
  match (coin.out.getValueWithInterest coin.nHeight nHeight).result with
  | .ok value => value
  | .error _ => 0

def coinInterest (nHeight : Int) (coin : Coin) : Int := creditedValue nHeight coin - coin.out.nValue

def coinValues (coins : List Coin) : Int := (coins.map (fun coin => coin.out.nValue)).sum

def creditedValues (nHeight : Int) (coins : List Coin) : Int := (coins.map (creditedValue nHeight)).sum

def inputCoins (view : CCoinsViewCache) (vin : List CTxIn) : List Coin :=
  vin.map (fun txin => view.accessCoin txin.prevout)

variable {inputs view view' : CCoinsViewCache} {nHeight : Int} {ss : List Int} {vin : List CTxIn}
  {tx coinbase : CTransaction} {st : ConnectState} {block : CBlock}

lemma addInput_ok {acc n : Int} {txin : CTxIn} (hacc : 0 ≤ acc ∧ acc ≤ MAX_MONEY)
    (h : addInput inputs nHeight acc txin = ⟨.ok n, ss⟩) :
    n = acc + creditedValue nHeight (inputs.accessCoin txin.prevout) ∧ (0 ≤ n ∧ n ≤ MAX_MONEY) ∧
      ∀ x ∈ ss, InRange64 x := by
  unfold addInput at h
  simp only [Tally.bind_eq_ok, Tally.check_eq_ok, Tally.pure_eq_ok, sum64_eq_ok, Bool.and_eq_true, moneyRange_iff] at h
  obtain ⟨_, _, _, ⟨-, rfl⟩, ⟨_, _, _, ⟨-, rfl⟩, ⟨value, s, _, hvalue, ⟨_, _, _, ⟨rfl, rfl⟩, ⟨_, _, _, ⟨⟨hcoin, hsum⟩,
    rfl⟩, ⟨rfl, rfl⟩, rfl⟩, rfl⟩, rfl⟩, rfl⟩, rfl⟩ := h
  obtain ⟨hbounds, hs⟩ := getValueWithInterest_le hcoin hvalue
  have hrange : InRange64 (acc + value) := inRange64_of_abs_le (by omega) (by omega)
  have hcredited : creditedValue nHeight (inputs.accessCoin txin.prevout) = value := by
    unfold creditedValue
    rw [hvalue]
  rw [wrap64_eq_self hrange] at hsum ⊢
  refine ⟨by rw [hcredited], hsum, ?_⟩
  simp only [nil_append, append_nil]
  exact forall_mem_append.mpr ⟨hs, forall_mem_singleton.mpr hrange⟩

lemma fold_addInput {acc n : Int} (hacc : 0 ≤ acc ∧ acc ≤ MAX_MONEY)
    (h : Tally.fold (addInput inputs nHeight) acc vin = ⟨.ok n, ss⟩) :
    n = acc + creditedValues nHeight (inputCoins inputs vin) ∧ (0 ≤ n ∧ n ≤ MAX_MONEY) ∧ ∀ x ∈ ss, InRange64 x := by
  obtain ⟨⟨hsum, hrange⟩, hs⟩ := Tally.fold_invariant
    (I := fun rest m => m + creditedValues nHeight (inputCoins inputs rest) =
      acc + creditedValues nHeight (inputCoins inputs vin) ∧ 0 ≤ m ∧ m ≤ MAX_MONEY)
    (by
      rintro txin rest a b s ⟨hsum, ha⟩ hround
      obtain ⟨hb, hbrange, hs⟩ := addInput_ok ha hround
      simp only [creditedValues, inputCoins, map_cons, sum_cons] at hsum ⊢
      exact ⟨⟨by omega, hbrange⟩, hs⟩)
    ⟨rfl, hacc⟩ h
  exact ⟨by simpa [creditedValues, inputCoins] using hsum, hrange, hs⟩

lemma checkTxInputs_ok {txfee : Int} (h : checkTxInputs tx inputs nHeight = ⟨.ok txfee, ss⟩) :
    txfee = creditedValues nHeight (inputCoins inputs tx.vin) - outputSum tx.vout ∧
      (0 ≤ txfee ∧ txfee ≤ MAX_MONEY) ∧ ∀ x ∈ ss, InRange64 x := by
  unfold checkTxInputs at h
  simp only [Tally.bind_eq_ok, Tally.check_eq_ok, Tally.pure_eq_ok, sum64_eq_ok, moneyRange_iff] at h
  obtain ⟨_, _, _, ⟨-, rfl⟩, ⟨nValueIn, s₁, _, hin, ⟨valueOut, s₂, _, hout, ⟨_, _, _, ⟨-, rfl⟩, ⟨_, _, _, ⟨rfl, rfl⟩,
    ⟨_, _, _, ⟨hfee, rfl⟩, ⟨rfl, rfl⟩, rfl⟩, rfl⟩, rfl⟩, rfl⟩, rfl⟩, rfl⟩ := h
  obtain ⟨hval, hinrange, hs₁⟩ := fold_addInput ⟨le_rfl, MAX_MONEY_nonneg⟩ hin
  obtain ⟨hnonneg, hle, hvalout⟩ := (getValueOut_iff tx valueOut).mp ⟨s₂, hout⟩
  have hs₂ := fold_addsOutput_sums addOutput_addsOutput le_rfl MAX_MONEY_nonneg hout
  have houtnonneg := outputSum_nonneg hnonneg
  have hrange : InRange64 (nValueIn + -valueOut) := inRange64_of_abs_le (by omega) (by omega)
  rw [wrap64_eq_self hrange] at hfee ⊢
  refine ⟨by omega, hfee, ?_⟩
  simp only [nil_append, append_nil, forall_mem_append, forall_mem_singleton]
  exact ⟨hs₁, hs₂, hrange⟩

lemma addCoinsFrom_money {vout : List CTxOut} {n : Nat} (hv : MoneyView view)
    (hvout : ∀ out ∈ vout, 0 ≤ out.nValue) (h : addCoinsFrom tx nHeight n vout view = .ok view') :
    MoneyView view' ∧ potential view' ≤ potential view + outputSum vout := by
  induction vout generalizing n view with
  | nil =>
    cases h
    exact ⟨hv, by simp⟩
  | cons out vout ih =>
    obtain ⟨view₁, hadd, hrest⟩ := ok_of_bind h
    obtain ⟨hv₁, hle₁⟩ := addCoin_money hv (hvout out mem_cons_self) hadd
    obtain ⟨hv', hle⟩ := ih hv₁ (fun o ho => hvout o (mem_cons_of_mem _ ho)) hrest
    refine ⟨hv', ?_⟩
    rw [outputSum_cons]
    simp only [Coin.ofOut] at hle₁
    omega

lemma inputCoins_congr (hhave : ∀ txin ∈ vin, view.haveCoin txin.prevout = true)
    (hsame : ∀ txin ∈ vin, coinAt view' txin.prevout = coinAt view txin.prevout) :
    inputCoins view' vin = inputCoins view vin := by
  apply map_congr_left
  intro txin htxin
  have hsome := hhave txin htxin
  rw [haveCoin_eq] at hsome
  obtain ⟨coin, hcoin⟩ := Option.isSome_iff_exists.mp hsome
  have hcoin' := (hsame txin htxin).trans hcoin
  rw [(coinAt_unspent hcoin).2, (coinAt_unspent hcoin').2]

lemma spendInputs_money {vprevout : List Coin} (hv : MoneyView view)
    (hnodup : (vin.map CTxIn.prevout).Nodup)
    (hhave : ∀ txin ∈ vin, view.haveCoin txin.prevout = true)
    (h : spendInputs vin view = .ok (vprevout, view')) :
    MoneyView view' ∧ vprevout = inputCoins view vin ∧ potential view' = potential view - coinValues vprevout := by
  induction vin generalizing view vprevout with
  | nil =>
    cases h
    exact ⟨hv, rfl, by simp [coinValues]⟩
  | cons txin vin ih =>
    have hsome := hhave txin mem_cons_self
    rw [haveCoin_eq] at hsome
    obtain ⟨coin, hcoin⟩ := Option.isSome_iff_exists.mp hsome
    obtain ⟨view₁, hspend, hv₁, hpot₁, hother⟩ := spendCoin_money hv hcoin
    unfold spendInputs at h
    rw [hspend] at h
    obtain ⟨⟨vprevout', view₂⟩, hrest, h⟩ := ok_of_bind h
    cases h
    rw [map_cons, nodup_cons] at hnodup
    have hne : ∀ t ∈ vin, txin.prevout ≠ t.prevout := fun t ht heq => hnodup.1 (heq ▸ mem_map_of_mem ht)
    have hhave₁ : ∀ t ∈ vin, view₁.haveCoin t.prevout = true := by
      intro t ht
      rw [haveCoin_eq, hother _ (hne t ht), ← haveCoin_eq]
      exact hhave t (mem_cons_of_mem _ ht)
    obtain ⟨hv', hundo, hpot⟩ := ih hv₁ hnodup.2 hhave₁ hrest
    have hsame : inputCoins view₁ vin = inputCoins view vin :=
      inputCoins_congr (fun t ht => hhave t (mem_cons_of_mem _ ht)) (fun t ht => hother _ (hne t ht))
    refine ⟨hv', ?_, ?_⟩
    · rw [hundo, hsame]
      simp only [inputCoins, map_cons, (coinAt_unspent hcoin).2]
    · simp only [coinValues, map_cons, sum_cons] at hpot ⊢
      omega

lemma foldl_fetchCoin_money (hv : MoneyView view) (os : List COutPoint) :
    MoneyView (os.foldl CCoinsViewCache.fetchCoin view) ∧
      potential (os.foldl CCoinsViewCache.fetchCoin view) = potential view ∧
      coinAt (os.foldl CCoinsViewCache.fetchCoin view) = coinAt view := by
  have hfold := List.foldlRecOn (motive := fun v => MoneyView v ∧ potential v = potential view) os
    CCoinsViewCache.fetchCoin ⟨hv, rfl⟩ fun v hv o _ => by
      obtain ⟨hv', hpot⟩ := fetchCoin_money hv.1 o
      exact ⟨hv', hpot.trans hv.2⟩
  exact ⟨hfold.1, hfold.2, coinAt_foldl_fetchCoin view os⟩

lemma updateCoins_money {vprevout : List Coin} (hv : MoneyView view) (htx : TxOk tx)
    (hhave : ∀ txin ∈ tx.spentInputs, view.haveCoin txin.prevout = true)
    (h : updateCoins tx view nHeight = .ok (vprevout, view')) :
    MoneyView view' ∧ vprevout = inputCoins view tx.spentInputs ∧
      potential view' ≤ potential view - coinValues vprevout + outputSum tx.vout := by
  obtain ⟨⟨vprevout', view₁⟩, hspend, h⟩ := ok_of_bind h
  obtain ⟨view₂, hadd, h⟩ := ok_of_bind h
  cases h
  have hnodup : (tx.spentInputs.map CTxIn.prevout).Nodup := by
    unfold CTransaction.spentInputs
    split_ifs
    · exact nodup_nil
    · exact htx.inputs_nodup
  obtain ⟨hv₁, hundo, hpot₁⟩ := spendInputs_money hv hnodup hhave hspend
  obtain ⟨hv₂, hle⟩ := addCoinsFrom_money hv₁ htx.outputs_nonneg hadd
  exact ⟨hv₂, hundo, by omega⟩

/-- The interest on the coins that a block spends. -/
def interestPaid (nHeight : Int) (vtxundo : List (List Coin)) : Int :=
  (vtxundo.flatten.map (coinInterest nHeight)).sum

lemma interestPaid_append (nHeight : Int) (vtxundo : List (List Coin)) (vprevout : List Coin) :
    interestPaid nHeight (vtxundo ++ [vprevout]) =
      interestPaid nHeight vtxundo + (creditedValues nHeight vprevout - coinValues vprevout) := by
  have hsplit : (vprevout.map (coinInterest nHeight)).sum = creditedValues nHeight vprevout - coinValues vprevout := by
    unfold creditedValues coinValues
    induction vprevout with
    | nil => rfl
    | cons coin vprevout ih =>
      simp only [map_cons, sum_cons, coinInterest] at ih ⊢
      omega
  simp [interestPaid, hsplit]

noncomputable def balance (nHeight : Int) (st : ConnectState) : Int :=
  potential st.view + st.nFees - interestPaid nHeight st.vtxundo

structure LoopOk (st : ConnectState) : Prop where
  money : MoneyView st.view
  started : 0 < st.i
  fees : 0 ≤ st.nFees ∧ st.nFees ≤ MAX_MONEY

lemma connectTx_balance {st' : ConnectState} (hst : LoopOk st) (htx : TxOk tx)
    (hcb : tx.isCoinBase = false) (h : connectTx E nHeight st tx = ⟨.ok st', ss⟩) :
    LoopOk st' ∧ balance nHeight st' ≤ balance nHeight st ∧ ∀ x ∈ ss, InRange64 x := by
  obtain ⟨st₁, vprevout, hspend, hupdate, hi, hfees, hundo⟩ := connectTx_ok h
  obtain ⟨txfee, s, hinputs, rfl, hrange, rfl⟩ := checkSpend_ok hcb hspend
  have hhave := checkTxInputs_haveInputs hinputs
  obtain ⟨hfee, hfeerange, hs⟩ := checkTxInputs_ok hinputs
  obtain ⟨hv₁, hpot₁, hcoins₁⟩ := foldl_fetchCoin_money hst.money (tx.vin.map CTxIn.prevout)
  rw [← fetchInputs_eq] at hv₁ hpot₁ hcoins₁
  have hspent : tx.spentInputs = tx.vin := by rw [CTransaction.spentInputs, hcb]; rfl
  have hhave₀ : ∀ txin ∈ tx.vin, st.view.haveCoin txin.prevout = true := by
    simpa [CCoinsViewCache.haveInputs, hcb] using hhave
  have hhave₁ : ∀ txin ∈ tx.spentInputs, (st.view.fetchInputs tx).haveCoin txin.prevout = true := by
    intro txin htxin
    rw [haveCoin_eq, hcoins₁, ← haveCoin_eq]
    exact hhave₀ txin (hspent ▸ htxin)
  obtain ⟨hv', hvprevout, hpot'⟩ := updateCoins_money hv₁ htx hhave₁ hupdate
  rw [hspent, inputCoins_congr hhave₀ (fun txin _ => congrFun hcoins₁ txin.prevout)] at hvprevout
  obtain ⟨hsum, hsumeq⟩ := wrap64_add_of_range hst.fees hfeerange
  rw [hsumeq] at hrange
  have hfees' : st'.nFees = st.nFees + txfee := hfees.trans hsumeq
  have hundo' : st'.vtxundo = st.vtxundo ++ [vprevout] := hundo.trans (if_pos hst.started)
  have hi' : st'.i = st.i + 1 := hi
  refine ⟨⟨hv', by omega, by rw [hfees']; exact (moneyRange_iff _).mp hrange⟩, ?_,
    forall_mem_append.mpr ⟨hs, forall_mem_singleton.mpr hsum⟩⟩
  · have hpaid := interestPaid_append nHeight st.vtxundo vprevout
    unfold balance
    rw [hundo', hfees', hpaid, hvprevout]
    rw [hvprevout] at hpot'
    change potential st'.view ≤ potential (st.view.fetchInputs tx) - _ + _ at hpot'
    omega

lemma connectTx_coinbase {st' : ConnectState} (hv : MoneyView st.view) (hi : st.i = 0)
    (htx : TxOk tx) (hcb : tx.isCoinBase = true) (h : connectTx E nHeight st tx = ⟨.ok st', ss⟩) :
    MoneyView st'.view ∧ potential st'.view ≤ potential st.view + outputSum tx.vout ∧ st'.i = 1 ∧
      st'.nFees = st.nFees ∧ st'.vtxundo = st.vtxundo ∧ ss = [] := by
  obtain ⟨st₁, vprevout, hspend, hupdate, hi', hfees, hundo⟩ := connectTx_ok h
  rw [checkSpend_coinbase hcb] at hspend
  obtain ⟨rfl, rfl⟩ := Tally.pure_eq_ok.mp hspend
  have hspent : tx.spentInputs = [] := by rw [CTransaction.spentInputs, if_pos hcb]
  obtain ⟨hv', hvprevout, hpot⟩ := updateCoins_money hv htx (by simp [hspent]) hupdate
  rw [hspent] at hvprevout
  rw [hvprevout] at hpot
  rw [hi] at hi' hundo
  refine ⟨hv', ?_, hi', hfees, by simpa using hundo, rfl⟩
  simpa [coinValues, inputCoins] using hpot

lemma connectTxs_balance (hv : MoneyView view) (hok : BlockOk block) {vtx : List CTransaction}
    (hvtx : block.vtx = coinbase :: vtx) (hcb : coinbase.isCoinBase = true)
    (hrest : ∀ tx ∈ vtx, tx.isCoinBase = false)
    (h : connectTxs E nHeight view block.vtx = ⟨.ok st, ss⟩) :
    LoopOk st ∧ balance nHeight st ≤ potential view + outputSum coinbase.vout ∧ ∀ x ∈ ss, InRange64 x := by
  unfold connectTxs at h
  rw [hvtx] at h
  obtain ⟨st₁, s₁, s₂, hfirst, hloop, rfl⟩ := Tally.bind_eq_ok.mp h
  have hcbok : TxOk coinbase := hok.txs_ok coinbase (hvtx ▸ mem_cons_self)
  obtain ⟨hv₁, hpot₁, hi₁, hfees₁, hundo₁, rfl⟩ := connectTx_coinbase hv rfl hcbok hcb hfirst
  have hbalance₁ : balance nHeight st₁ ≤ potential view + outputSum coinbase.vout := by
    unfold balance
    rw [hfees₁, hundo₁]
    simpa [interestPaid] using hpot₁
  have hloop₁ : LoopOk st₁ := ⟨hv₁, by omega, by rw [hfees₁]; exact ⟨le_rfl, MAX_MONEY_nonneg⟩⟩
  obtain ⟨⟨hst, hbalance, -⟩, hs⟩ := Tally.fold_invariant
    (I := fun txs st => LoopOk st ∧ balance nHeight st ≤ potential view + outputSum coinbase.vout ∧
      ∀ tx ∈ txs, tx ∈ vtx)
    (by
      rintro tx txs a b s ⟨ha, hba, hmem⟩ hstep
      have htx : tx ∈ vtx := hmem tx mem_cons_self
      have htxok : TxOk tx := hok.txs_ok tx (hvtx ▸ mem_cons_of_mem _ htx)
      obtain ⟨hb, hle, hs⟩ := connectTx_balance ha htxok (hrest tx htx) hstep
      exact ⟨⟨hb, hle.trans hba, fun t ht => hmem t (mem_cons_of_mem _ ht)⟩, hs⟩)
    ⟨hloop₁, hbalance₁, fun _ h => h⟩ hloop
  exact ⟨hst, hbalance, by simpa using hs⟩

lemma checkPayee_sums {u : Unit} (h : checkPayee E nHeight coinbase = ⟨.ok u, ss⟩) : ss = [] := by
  unfold checkPayee at h
  split_ifs at h
  · cases h
    rfl
  · simp only [Tally.bind_eq_ok, liftException_eq_ok, Tally.check_eq_ok] at h
    obtain ⟨_, _, _, ⟨-, rfl⟩, ⟨-, rfl⟩, rfl⟩ := h
    rfl

lemma checkDevFee_sums {blockReward : Int} {u : Unit}
    (h : checkDevFee E nHeight blockReward coinbase = ⟨.ok u, ss⟩) : ss = [] := by
  unfold checkDevFee at h
  cases hdev : coinbase.vout[1]? with
  | none =>
    rw [hdev] at h
    exact absurd h Tally.fail_ne_ok
  | some dev =>
    rw [hdev] at h
    simp only [Tally.bind_eq_ok, Tally.check_eq_ok] at h
    obtain ⟨_, _, _, ⟨-, rfl⟩, ⟨_, _, _, ⟨-, rfl⟩, hpayee, rfl⟩, rfl⟩ := h
    exact checkPayee_sums hpayee

lemma checkCoinbase_ok {nFees : Int} {u : Unit}
    (hdev : ∀ h r, 0 ≤ E.getDevCoin h r ∧ E.getDevCoin h r < 2 ^ 63)
    (hfees : 0 ≤ nFees ∧ nFees ≤ MAX_MONEY)
    (h : checkCoinbase E nHeight nFees coinbase = ⟨.ok u, ss⟩) :
    outputSum coinbase.vout ≤ nFees + getBlockSubsidy E.params nHeight +
        E.getDevCoin nHeight (nFees + getBlockSubsidy E.params nHeight) ∧ ∀ x ∈ ss, InRange64 x := by
  have hmax := MAX_MONEY_eq
  have hsubsidy : 0 ≤ getBlockSubsidy E.params nHeight ∧ getBlockSubsidy E.params nHeight ≤ MAX_MONEY := by
    have hrange := getBlockSubsidy_range E.params nHeight
    rw [COIN] at hrange
    omega
  obtain ⟨hreward, hrewardeq⟩ := wrap64_add_of_range hfees hsubsidy
  unfold checkCoinbase at h
  simp only [Tally.bind_eq_ok, sum64_eq_ok, Tally.check_eq_ok, decide_eq_true_eq] at h
  obtain ⟨_, _, _, ⟨rfl, rfl⟩, ⟨valueOut, s, _, hout, ⟨_, _, _, ⟨rfl, rfl⟩, ⟨_, _, _, ⟨hlimit, rfl⟩, hrest, rfl⟩, rfl⟩,
    rfl⟩, rfl⟩ := h
  obtain rfl := checkDevFee_sums hrest
  rw [hrewardeq] at hlimit ⊢
  obtain ⟨hnonneg, hle, rfl⟩ := (getValueOut_iff coinbase valueOut).mp ⟨s, hout⟩
  have hs := fold_addsOutput_sums addOutput_addsOutput le_rfl MAX_MONEY_nonneg hout
  have houtnonneg := outputSum_nonneg hnonneg
  have hdev' := hdev nHeight (nFees + getBlockSubsidy E.params nHeight)
  generalize E.getDevCoin nHeight (nFees + getBlockSubsidy E.params nHeight) = dev at hlimit hdev' ⊢
  have hlimitrange : InRange64 (nFees + getBlockSubsidy E.params nHeight + dev) := by
    refine ⟨by omega, ?_⟩
    by_contra hbig
    have hwrap := wrap64_of_overflow (by omega) (show nFees + getBlockSubsidy E.params nHeight + dev < 2 ^ 64 by omega)
    omega
  rw [wrap64_eq_self hlimitrange] at hlimit
  refine ⟨hlimit, ?_⟩
  simp only [append_nil, forall_mem_append, forall_mem_singleton]
  exact ⟨hreward, hs, hlimitrange⟩

/-- A coins view as the node keeps it: meaningful flags and no negative amounts. -/
structure CoinsViewOk (view : CCoinsViewCache) : Prop extends CacheOk view where
  coin_nonneg : ∀ o coin, coinAt view o = some coin → 0 ≤ coin.out.nValue
  base_nonneg : ∀ (o : COutPoint) (coin : Coin), view.base[o]? = some coin → 0 ≤ coin.out.nValue

lemma amount_nonneg {x : Option Coin} (h : ∀ coin, x = some coin → 0 ≤ coin.out.nValue) : 0 ≤ amount x := by
  cases x with
  | none => exact le_rfl
  | some coin => exact h coin rfl

lemma moneyView_of_ok (hv : CoinsViewOk view) : MoneyView view :=
  ⟨hv.base_unspent, hv.clean_base, fun o => amount_nonneg (hv.base_nonneg o), fun o => amount_nonneg (hv.coin_nonneg o)⟩

lemma applyBIP30_money {enforce : Bool} (hv : MoneyView view)
    (h : applyBIP30 block nHeight enforce view = ⟨.ok view', ss⟩) :
    MoneyView view' ∧ potential view' = potential view ∧ ss = [] := by
  unfold applyBIP30 at h
  split_ifs at h
  · obtain ⟨_, _, _, hcheck, hview', rfl⟩ := Tally.bind_eq_ok.mp h
    obtain ⟨-, rfl⟩ := Tally.check_eq_ok.mp hcheck
    obtain ⟨rfl, rfl⟩ := Tally.pure_eq_ok.mp hview'
    obtain ⟨hv', hpot, -⟩ := foldl_fetchCoin_money hv block.outpoints
    exact ⟨hv', hpot, rfl⟩
  · obtain ⟨rfl, rfl⟩ := Tally.pure_eq_ok.mp h
    exact ⟨hv, rfl, rfl⟩

lemma connectChecked_ok (hdev : ∀ h r, 0 ≤ E.getDevCoin h r ∧ E.getDevCoin h r < 2 ^ 63)
    {fEnforceBIP30 fJustCheck : Bool} (hv : MoneyView view) (hok : BlockOk block)
    (h : connectChecked E block nHeight fEnforceBIP30 fJustCheck view = ⟨.ok st, ss⟩) :
    MoneyView st.view ∧
      potential st.view ≤ potential view + getBlockSubsidy E.params nHeight +
        E.getDevCoin nHeight (st.nFees + getBlockSubsidy E.params nHeight) + interestPaid nHeight st.vtxundo ∧
      ∀ x ∈ ss, InRange64 x := by
  obtain ⟨coinbase, vtx, hvtx, hcb, hrest⟩ := hok.coinbase_first
  obtain ⟨view₁, _, _, hbip30, hbody, rfl⟩ := Tally.bind_eq_ok.mp h
  obtain ⟨hv₁, hpot₁, rfl⟩ := applyBIP30_money hv hbip30
  obtain ⟨st', s₁, _, hloop, hend, rfl⟩ := Tally.bind_eq_ok.mp hbody
  obtain ⟨hst, hbalance, hs₁⟩ := connectTxs_balance hv₁ hok hvtx hcb hrest hloop
  simp only [hvtx, Tally.bind_eq_ok, Tally.check_eq_ok, Tally.pure_eq_ok] at hend
  obtain ⟨_, s₂, _, hcoinbase, ⟨_, _, _, ⟨-, rfl⟩, ⟨_, _, _, ⟨-, rfl⟩, ⟨rfl, rfl⟩, rfl⟩, rfl⟩, rfl⟩ := hend
  obtain ⟨hlimit, hs₂⟩ := checkCoinbase_ok hdev hst.fees hcoinbase
  refine ⟨hst.money, ?_, ?_⟩
  · unfold balance at hbalance
    omega
  · simp only [nil_append, append_nil]
    exact forall_mem_append.mpr ⟨hs₁, hs₂⟩

/-- A connected block adds at most the subsidy, the dev fee and the interest of the coins it
spent, and none of its 64-bit sums overflows. -/
theorem connectBlock_totalValue (hdev : ∀ h r, 0 ≤ E.getDevCoin h r ∧ E.getDevCoin h r < 2 ^ 63) {block : CBlock}
    {nHeight : Int} {isGenesis fEnforceBIP30 fJustCheck : Bool} {view : CCoinsViewCache} (hv : CoinsViewOk view)
    {st : ConnectState} {ss : List Int}
    (h : connectBlock E block nHeight isGenesis fEnforceBIP30 fJustCheck view = ⟨.ok st, ss⟩) :
    totalValue st.view ≤ totalValue view + getBlockSubsidy E.params nHeight +
        E.getDevCoin nHeight (st.nFees + getBlockSubsidy E.params nHeight) + interestPaid nHeight st.vtxundo ∧
      ∀ x ∈ ss ++ subsidySums E.params nHeight, InRange64 x := by
  obtain ⟨_, s₁, s₂, hcheck, hbody, rfl⟩ := Tally.bind_eq_ok.mp h
  obtain ⟨hok, hs₁⟩ := checkBlock_ok hcheck
  have hsubsidy : ∀ x ∈ subsidySums E.params nHeight, InRange64 x := by
    intro x hx
    have hrange := subsidySums_range E.params nHeight x hx
    have hcoin : 40000 * COIN ≤ 4 * MAX_MONEY := by decide
    exact inRange64_of_abs_le (by omega) (by omega)
  have hrun : totalValue st.view ≤ totalValue view + getBlockSubsidy E.params nHeight +
      E.getDevCoin nHeight (st.nFees + getBlockSubsidy E.params nHeight) + interestPaid nHeight st.vtxundo ∧
      ∀ x ∈ s₂, InRange64 x := by
    split_ifs at hbody with hgenesis
    · obtain ⟨rfl, rfl⟩ := Tally.pure_eq_ok.mp hbody
      have hsub := (getBlockSubsidy_range E.params nHeight).1
      have hdev' := (hdev nHeight (0 + getBlockSubsidy E.params nHeight)).1
      refine ⟨?_, by simp⟩
      simp only [interestPaid, flatten_nil, map_nil, sum_nil]
      omega
    · obtain ⟨hmoney, hpot, hs₂⟩ := connectChecked_ok hdev (moneyView_of_ok hv) hok hbody
      have htotal := totalValue_le_potential hmoney
      rw [potential_eq_totalValue hv.toCacheOk] at hpot
      exact ⟨by omega, hs₂⟩
  refine ⟨hrun.1, ?_⟩
  simp only [forall_mem_append]
  exact ⟨⟨hs₁, hrun.2⟩, hsubsidy⟩

theorem connectBlock_totalValue_example :
    ∃ st ss, connectBlock lenientEnv ⟨[exampleCoinbase, exampleParent, exampleChild]⟩ 2 false true
      false (exampleView 1) = ⟨.ok st, ss⟩ ∧
      totalValue st.view ≤ totalValue (exampleView 1) + getBlockSubsidy mainParams 2 + 0 +
        interestPaid 2 st.vtxundo := by
  have hrun : (connectBlock lenientEnv ⟨[exampleCoinbase, exampleParent, exampleChild]⟩ 2 false true false
      (exampleView 1)).result.isOk = true := by
    decide +kernel
  have hv : CoinsViewOk (exampleView 1) := by
    refine ⟨exampleView_ok 1, ?_, ?_⟩
    · intro o coin hcoin
      rw [coinAt_of_uncached (by simp [exampleView])] at hcoin
      obtain ⟨c, hc, hcoin⟩ := Option.bind_eq_some_iff.mp hcoin
      rw [exampleView_base hc] at hcoin
      cases hcoin
      decide
    · intro o coin hcoin
      rw [exampleView_base hcoin]
      decide
  obtain ⟨st, ss, hst⟩ := Tally.exists_eq_ok hrun
  have hdev : ∀ h r, 0 ≤ lenientEnv.getDevCoin h r ∧ lenientEnv.getDevCoin h r < 2 ^ 63 :=
    fun _ _ => ⟨le_rfl, show (0 : Int) < 2 ^ 63 by decide⟩
  exact ⟨st, ss, hst, (connectBlock_totalValue hdev hv hst).1⟩

end Qstees.Proofs
