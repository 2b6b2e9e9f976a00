import Qstees.Proofs.CreateTransaction
import Qstees.Proofs.TermDeposit

/-!
# The fee that consensus computes

In the next block an input is worth its output with interest from the height of its coin.
-/

namespace Qstees.Proofs

open CWallet

variable (ctx : WalletContext)

/-- The coin that the next block spends, and its height: an unconfirmed one is created in that block. -/
def nextBlockCoin (o : COutPoint) : Option (CTxOut × Int) :=
  match ctx.getUTXOCoin o with
  | some coin => some (coin.out, coin.nHeight)
  | none => (ctx.mempoolTx o.hash).bind fun tx => (tx.vout[o.n]?).map fun out => (out, ctx.height + 1)

def nextBlockCredit (o : COutPoint) : Option Int :=
  (nextBlockCoin ctx o).bind fun coin => (coin.1.getValueWithInterest coin.2 (ctx.height + 1)).result.toOption

/-- The fee that the next block takes from a transaction. -/
def nextBlockFee (tx : CTransaction) : Option Int :=
  (tx.vin.mapM fun txin => nextBlockCredit ctx txin.prevout).map fun credits => credits.sum - outputSum tx.vout

def lockedEarly (wallet : CWallet) (o : COutPoint) : Bool :=
  match wallet.mapWallet[o.hash]? with
  | none => false
  | some wtx => ctx.isLockedInstantSendTransaction wtx.tx.hash && decide (wtx.getDepthInMainChainBTC ctx < 6)

/-- The interest of an input that the wallet does not count. -/
def missedInterest (coin_control : CCoinControl) (o : COutPoint) : Int :=
  if coin_control.isSelected o then 0
  else (nextBlockCredit ctx o).getD 0 - ((nextBlockCoin ctx o).map fun coin => coin.1.nValue).getD 0

/-- The interest that the wallet counts too much on a selected input, from the height that an early lock moves. -/
def excessInterest (wallet : CWallet) (coin_control : CCoinControl) (o : COutPoint) : Int :=
  if coin_control.isSelected o && lockedEarly ctx wallet o then
    countedValue ctx wallet coin_control o - (nextBlockCredit ctx o).getD 0
  else 0

section Fee

variable {E : WalletEnv} {ctx : WalletContext} {fees : FeeContext} {rand : Randomness} {wallet : CWallet}
    {args : CreateArgs}

lemma nextBlockCoin_eq (hsync : InSync ctx wallet) {o : COutPoint} {wtx : CWalletTx} {txout : CTxOut}
    {coin : CTxOut × Int} (hheld : walletOutput wallet o = some (wtx, txout)) (hage : 0 ≤ wtx.getDepthInMainChain ctx)
    (hcoin : nextBlockCoin ctx o = some coin) :
    coin = (txout, ctx.height + 1 - wtx.getDepthInMainChainBTC ctx) := by
  obtain ⟨hwtx, hout⟩ := walletOutput_eq_some.mp hheld
  unfold nextBlockCoin at hcoin
  cases hutxo : ctx.getUTXOCoin o with
  | some c =>
    simp only [hutxo, Option.some.injEq] at hcoin
    obtain ⟨hc, hdepth⟩ := hsync.utxo o c wtx hutxo hwtx hage
    have hsame : c.out = txout := Option.some.inj (hc.symm.trans hout)
    rw [← hcoin, hsame, hdepth]
    simp
  | none =>
    simp only [hutxo] at hcoin
    obtain ⟨tx, htx, hcoin⟩ := Option.bind_eq_some_iff.mp hcoin
    obtain ⟨out, hout', rfl⟩ := Option.map_eq_some_iff.mp hcoin
    obtain ⟨rfl, hdepth⟩ := hsync.mempool o.hash tx wtx htx hwtx
    have hsame : out = txout := Option.some.inj (hout'.symm.trans hout)
    rw [hsame, hdepth]
    simp

lemma getDepth_eq_of_not_locked {wtx : CWalletTx} (hage : 0 ≤ wtx.getDepthInMainChain ctx)
    (hlock : ¬(ctx.isLockedInstantSendTransaction wtx.tx.hash = true ∧ wtx.getDepthInMainChainBTC ctx < 6)) :
    wtx.getDepthInMainChain ctx = wtx.getDepthInMainChainBTC ctx := by
  unfold CWalletTx.getDepthInMainChain at hage ⊢
  dsimp only at hage ⊢
  split_ifs at hage ⊢ with hmissing hlocked
  · omega
  · exact absurd ⟨hlocked.2, hlocked.1⟩ hlock
  · rfl

lemma credit_add_excess (hsync : InSync ctx wallet) {coin_control : CCoinControl} {o : COutPoint} {wtx : CWalletTx}
    {txout : CTxOut} {credit : Int} (hheld : walletOutput wallet o = some (wtx, txout))
    (hage : 0 ≤ wtx.getDepthInMainChain ctx) (hcredit : nextBlockCredit ctx o = some credit) :
    credit + excessInterest ctx wallet coin_control o =
      countedValue ctx wallet coin_control o + missedInterest ctx coin_control o := by
  obtain ⟨hwtx, -⟩ := walletOutput_eq_some.mp hheld
  obtain ⟨coin, hcoin, hvalue⟩ := Option.bind_eq_some_iff.mp hcredit
  obtain rfl := nextBlockCoin_eq hsync hheld hage hcoin
  unfold missedInterest excessInterest
  cases hselected : coin_control.isSelected o with
  | false =>
    rw [countedValue_unselected hheld hselected, hcredit, hcoin]
    simp
  | true =>
    cases hearly : lockedEarly ctx wallet o with
    | true => simp [hcredit]
    | false =>
      have hlock : ¬(ctx.isLockedInstantSendTransaction wtx.tx.hash = true ∧ wtx.getDepthInMainChainBTC ctx < 6) := by
        simpa [lockedEarly, hwtx] using hearly
      have hsame : valueInNextBlock ctx wtx txout = .ok credit := by
        unfold valueInNextBlock
        rw [getDepth_eq_of_not_locked hage hlock, mapError_eq_ok]
        dsimp only at hvalue
        cases hresult :
          (txout.getValueWithInterest (ctx.height + 1 - wtx.getDepthInMainChainBTC ctx) (ctx.height + 1)).result with
        | error e => simp [hresult, Except.toOption] at hvalue
        | ok v =>
          simp only [hresult, Except.toOption, Option.some.injEq] at hvalue
          rw [hvalue]
      simp [countedValue_selected hheld hselected hsame]

lemma nextBlockFee_eq_some {tx : CTransaction} {fee : Int} :
    nextBlockFee ctx tx = some fee ↔
      (∀ txin ∈ tx.vin, (nextBlockCredit ctx txin.prevout).isSome = true) ∧
        (tx.vin.map fun txin => (nextBlockCredit ctx txin.prevout).getD 0).sum - outputSum tx.vout = fee := by
  unfold nextBlockFee
  constructor
  · intro h
    obtain ⟨credits, hcredits, rfl⟩ := Option.map_eq_some_iff.mp h
    obtain ⟨hsome, rfl⟩ := (Traversal.mapM_eq_some_iff 0).mp hcredits
    exact ⟨hsome, rfl⟩
  · rintro ⟨hsome, rfl⟩
    rw [(Traversal.mapM_eq_some_iff 0).mpr ⟨hsome, rfl⟩]
    rfl

/-- The fee that `CreateTransaction` reports is the one of the next block exactly if that block can spend all inputs,
and the interest which the wallet left out is the interest which it counted too much. -/
theorem nFeeRet_eq_nextBlockFee_iff (hsync : InSync ctx wallet) {passes : Nat} {r : Created}
    (h : wallet.createTransaction E ctx fees rand args passes = .ok r) :
    nextBlockFee ctx r.tx = some r.nFeeRet ↔
      (∀ txin ∈ r.tx.vin, (nextBlockCredit ctx txin.prevout).isSome = true) ∧
        (r.tx.vin.map fun txin => missedInterest ctx args.coin_control txin.prevout).sum =
          (r.tx.vin.map fun txin => excessInterest ctx wallet args.coin_control txin.prevout).sum := by
  obtain ⟨coins, nValueIn, hspends⟩ := createTransaction_spends h
  have hcounted := hspends.counted
  have htotal : outputSum r.tx.vout + r.nFeeRet = nValueIn := hspends.balances.total
  rw [nextBlockFee_eq_some, and_congr_right_iff]
  intro hsome
  have hbalance : (r.tx.vin.map fun txin => (nextBlockCredit ctx txin.prevout).getD 0).sum +
        (r.tx.vin.map fun txin => excessInterest ctx wallet args.coin_control txin.prevout).sum =
      (r.tx.vin.map fun txin => countedValue ctx wallet args.coin_control txin.prevout).sum +
        (r.tx.vin.map fun txin => missedInterest ctx args.coin_control txin.prevout).sum := by
    rw [← List.sum_map_add, ← List.sum_map_add]
    congr 1
    apply List.map_congr_left
    intro txin htxin
    obtain ⟨coin, -, -, wtx, hheld, hage, -⟩ := hspends.held htxin
    obtain ⟨credit, hcredit⟩ := Option.isSome_iff_exists.mp (hsome txin htxin)
    rw [hcredit, Option.getD_some]
    exact credit_add_excess hsync hheld hage hcredit
  omega

end Fee

lemma exampleDeposit_spent : (exampleWallet [exampleDeposit]).createTransaction exampleWalletEnv
    (exampleWalletContext [exampleDeposit] 1 1500) exampleFees exampleRandomness
      (examplePayment { setSelected := {⟨1, 0⟩} }) 5 = .ok (exampleCreated (50 * COIN + 11913825) 1000) := by
  decide +kernel

theorem nFeeRet_eq_nextBlockFee_selected :
    nextBlockFee (exampleWalletContext [exampleDeposit] 1 1500) (exampleCreated (50 * COIN + 11913825) 1000).tx =
      some (exampleCreated (50 * COIN + 11913825) 1000).nFeeRet := by
  refine (nFeeRet_eq_nextBlockFee_iff (exampleWallet_inSync _ _ _) exampleDeposit_spent).mpr ⟨?_, ?_⟩
  · decide +kernel
  · decide +kernel

/-- A deposit that coin selection takes pays its interest as fee. -/
theorem nextBlockFee_automatic :
    InSync (exampleWalletContext [exampleDeposit] 1 1500) (exampleWallet [exampleDeposit]) ∧
      (exampleWallet [exampleDeposit]).createTransaction exampleWalletEnv (exampleWalletContext [exampleDeposit] 1 1500)
        exampleFees exampleRandomness (examplePayment {}) 5 = .ok (exampleCreated (50 * COIN) 1000) ∧
      (exampleCreated (50 * COIN) 1000).nFeeRet = 1000 ∧
      nextBlockFee (exampleWalletContext [exampleDeposit] 1 1500)
        (exampleCreated (50 * COIN) 1000).tx = some 11914825 := by
  refine ⟨exampleWallet_inSync _ _ _, ?_, rfl, ?_⟩
  · decide +kernel
  · decide +kernel

end Qstees.Proofs
