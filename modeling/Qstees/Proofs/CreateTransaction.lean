import Qstees.Proofs.WalletFees

/-!
# What `CreateTransaction` returns

A successful call spends the selected coins in some order, and its outputs and fee are what the wallet counted.
-/

namespace Qstees.Proofs

open CWallet List

section Creating

variable {E : WalletEnv} {ctx : WalletContext} {fees : FeeContext} {rand : Randomness} {wallet : CWallet}
    {args : CreateArgs}

variable {coins : List CInputCoin} {tx : CTransaction} {nIn : Nat} {txin : CTxIn} {r : Created}
  {nValueIn : Int}

lemma Selected.perm {coin_control : CCoinControl} {coins' : List CInputCoin} {nValue : Int}
    (h : Selected ctx wallet coin_control coins nValue) (hperm : coins'.Perm coins) :
    Selected ctx wallet coin_control coins' nValue where
  distinct := h.distinct.subperm hperm.subperm
  held coin hcoin := h.held coin (hperm.mem_iff.mp hcoin)
  listed coin hcoin := h.listed coin (hperm.mem_iff.mp hcoin)
  preset hother o ho := (hperm.map _).mem_iff.mpr (h.preset hother o ho)
  value := h.value.trans (hperm.map _).sum_eq.symm

/-- `scriptPubKey` has passed `VerifyScript` in an input of a transaction with lock time `nLockTime`. -/
def Verified (E : WalletEnv) (nLockTime : Nat) (txout : CTxOut) : Prop :=
  ∃ txNew nIn txin scriptSig scriptWitness, txNew.nLockTime = nLockTime ∧
    verifyScript (signatureContext E txNew nIn txin txout) scriptSig txout.scriptPubKey scriptWitness = .ok ()

/-- Signing changes the scripts of the inputs only. -/
structure SameSpend (tx tx' : CTransaction) : Prop where
  prevouts : tx'.vin.map CTxIn.prevout = tx.vin.map CTxIn.prevout
  sequences : tx'.vin.map CTxIn.nSequence = tx.vin.map CTxIn.nSequence
  vout : tx'.vout = tx.vout
  nLockTime : tx'.nLockTime = tx.nLockTime

lemma SameSpend.refl (tx : CTransaction) : SameSpend tx tx := ⟨rfl, rfl, rfl, rfl⟩

lemma SameSpend.trans {tx' tx'' : CTransaction} (h : SameSpend tx tx') (h' : SameSpend tx' tx'') :
    SameSpend tx tx'' :=
  ⟨h'.prevouts.trans h.prevouts, h'.sequences.trans h.sequences, h'.vout.trans h.vout, h'.nLockTime.trans h.nLockTime⟩

lemma map_set_of_eq {α β : Type} {f : α → β} {xs : List α} {i : Nat} {x y : α} (hx : xs[i]? = some x) (hf : f y = f x) :
    (xs.set i y).map f = xs.map f := by
  obtain ⟨hlt, rfl⟩ := List.getElem?_eq_some_iff.mp hx
  rw [map_set, hf]
  have hlt' : i < (xs.map f).length := by simpa using hlt
  have hget : f xs[i] = (xs.map f)[i] := by simp
  rw [hget, set_getElem_self]

lemma SameSpend.set {txin' : CTxIn} (htxin : tx.vin[nIn]? = some txin)
    (hprevout : txin'.prevout = txin.prevout) (hsequence : txin'.nSequence = txin.nSequence) :
    SameSpend tx { tx with vin := tx.vin.set nIn txin' } :=
  ⟨map_set_of_eq htxin hprevout, map_set_of_eq htxin hsequence, rfl, rfl⟩

lemma produceSignature_some {txNew : CTransaction} {txout : CTxOut} {sigdata : SignatureData}
    (h : produceSignature E txNew nIn txin txout = some sigdata) :
    Verified E txNew.nLockTime txout := by
  unfold produceSignature at h
  dsimp only at h
  cases hverify : verifyScript (signatureContext E txNew nIn txin txout) (E.signStep txNew nIn txout).scriptSig
      txout.scriptPubKey (E.signStep txNew nIn txout).scriptWitness with
  | error e => simp [hverify] at h
  | ok u => exact ⟨txNew, nIn, txin, _, _, rfl, hverify⟩

lemma signInputs_spec {tx' : CTransaction} (h : signInputs E nIn coins tx = .ok tx') :
    SameSpend tx tx' ∧ ∀ coin ∈ coins, Verified E tx.nLockTime coin.txout := by
  induction coins generalizing nIn tx with
  | nil =>
    cases h
    exact ⟨SameSpend.refl _, by simp⟩
  | cons first coins ih =>
    unfold signInputs at h
    cases htxin : tx.vin[nIn]? with
    | none => simp [htxin] at h
    | some txin =>
      simp only [htxin] at h
      cases hsig : produceSignature E tx nIn txin first.txout with
      | none => simp [hsig] at h
      | some sigdata =>
        simp only [hsig] at h
        obtain ⟨hsame, hverified⟩ := ih h
        exact ⟨SameSpend.trans (SameSpend.set htxin (by rfl) (by rfl)) hsame,
          forall_mem_cons.mpr ⟨produceSignature_some hsig, hverified⟩⟩

/-- A transaction of the wallet, with the coins it spends in order and the value at which they were counted. -/
structure Spends (E : WalletEnv) (ctx : WalletContext) (wallet : CWallet) (args : CreateArgs) (r : Created)
    (coins : List CInputCoin) (nValueIn : Int) : Prop where
  picked : Picked ctx wallet args coins nValueIn
  prevouts : r.tx.vin.map CTxIn.prevout = coins.map CInputCoin.outpoint
  sequences : ∀ txin ∈ r.tx.vin, txin.nSequence ≠ SEQUENCE_FINAL
  balances : Balances nValueIn ⟨r.tx.vout, r.nFeeRet, r.nChangePosInOut⟩
  minFee : args.fUseInstantSend = true → minFeeOf coins ≤ r.nFeeRet
  height : 0 ≤ ctx.height ∧ ctx.height < LOCKTIME_THRESHOLD
  lockTime : (r.tx.nLockTime : Int) = ctx.height
  verified : args.sign = true → ∀ coin ∈ coins, Verified E r.tx.nLockTime coin.txout

lemma finalTransaction_sequences {draft : Draft} {n : Nat}
    (h : n ∈ (wallet.finalTransaction ctx args draft coins).vin.map CTxIn.nSequence) :
    n ≠ SEQUENCE_FINAL := by
  simp only [finalTransaction, map_map, mem_map, Function.comp_apply] at h
  obtain ⟨-, -, rfl⟩ := h
  split_ifs
  · decide
  · decide

lemma createTransaction_spends {passes : Nat}
    (h : wallet.createTransaction E ctx fees rand args passes = .ok r) :
    ∃ coins nValueIn, Spends E ctx wallet args r coins nValueIn := by
  unfold createTransaction at h
  obtain ⟨nValue, hvalue, h⟩ := ok_of_bind h
  split_ifs at h with hsend hheight
  obtain ⟨outs, houts, h⟩ := ok_of_bind h
  obtain ⟨prototype, -, h⟩ := ok_of_bind h
  obtain ⟨⟨draft, setCoins⟩, hloop, h⟩ := ok_of_bind h
  dsimp only at h
  obtain ⟨txNew, hsign, h⟩ := ok_of_bind h
  have hstart : nValue = (args.vecSend.map CRecipient.nAmount).sum := by simpa using recipientsTotal_eq hvalue
  obtain ⟨nValueIn, hdrafted⟩ := feeLoop_spec (mapError_eq_ok.mp houts) hstart (by simpa using hsend)
    (fun hfalse => by cases hfalse) hloop
  have hperm := rand.shuffle_perm [] setCoins
  have hsigned : SameSpend (wallet.finalTransaction ctx args draft (rand.shuffle [] setCoins)) txNew ∧
      (args.sign = true → ∀ coin ∈ rand.shuffle [] setCoins, Verified E ctx.height.toNat coin.txout) := by
    unfold signTransaction at hsign
    split_ifs at hsign with hs
    · obtain ⟨hsame, hverified⟩ := signInputs_spec hsign
      exact ⟨hsame, fun _ => hverified⟩
    · cases hsign
      exact ⟨SameSpend.refl _, fun hs' => absurd hs' hs⟩
  unfold finishTransaction at h
  split_ifs at h with hweight hchain
  cases h
  obtain ⟨hsame, hverified⟩ := hsigned
  refine ⟨rand.shuffle [] setCoins, nValueIn, ⟨hdrafted.picked.selected.perm hperm, ?_, hdrafted.picked.limit⟩, ?_, ?_,
    ?_, ?_, by omega, ?_, ?_⟩
  · intro coin hcoin
    exact hdrafted.picked.age coin (hperm.mem_iff.mp hcoin)
  · dsimp only
    rw [hsame.prevouts]
    simp [finalTransaction]
  · intro txin htxin
    have hmem : txin.nSequence ∈ txNew.vin.map CTxIn.nSequence := mem_map_of_mem htxin
    rw [hsame.sequences] at hmem
    exact finalTransaction_sequences hmem
  · dsimp only
    rw [hsame.vout]
    exact hdrafted.balances
  · intro his
    have hlength : minFeeOf (rand.shuffle [] setCoins) = minFeeOf setCoins := by
      rw [minFeeOf, hperm.length_eq, minFeeOf]
    rw [hlength]
    exact hdrafted.minFee his
  · dsimp only
    rw [hsame.nLockTime]
    simp only [finalTransaction]
    omega
  · intro hs
    dsimp only
    rw [hsame.nLockTime]
    exact hverified hs

lemma Spends.counted (h : Spends E ctx wallet args r coins nValueIn) :
    nValueIn = (r.tx.vin.map fun txin => countedValue ctx wallet args.coin_control txin.prevout).sum := by
  have hmaps := congrArg (List.map (countedValue ctx wallet args.coin_control)) h.prevouts
  rw [h.picked.selected.value]
  simpa only [map_map, Function.comp_def] using (congrArg List.sum hmaps).symm

lemma Spends.held (h : Spends E ctx wallet args r coins nValueIn) (htxin : txin ∈ r.tx.vin) :
    ∃ coin ∈ coins, coin.outpoint = txin.prevout ∧ ∃ wtx, walletOutput wallet txin.prevout = some (wtx, coin.txout) ∧
      0 ≤ wtx.getDepthInMainChain ctx ∧
      (args.coin_control.isSelected txin.prevout = true → ∃ v, valueInNextBlock ctx wtx coin.txout = .ok v) := by
  have hmem : txin.prevout ∈ coins.map CInputCoin.outpoint := h.prevouts ▸ mem_map_of_mem htxin
  obtain ⟨coin, hcoin, heq⟩ := mem_map.mp hmem
  obtain ⟨wtx, hheld, hvalued⟩ := h.picked.selected.held coin hcoin
  have hage := h.picked.age coin hcoin wtx (walletOutput_eq_some.mp hheld).1
  rw [heq] at hheld hvalued
  exact ⟨coin, hcoin, heq, wtx, hheld, hage, hvalued⟩

lemma Spends.final (h : Spends E ctx wallet args r coins nValueIn) (nBlockTime : Int) :
    isFinalTx r.tx (ctx.height + 1) nBlockTime = true := by
  have hbelow : (r.tx.nLockTime : Int) < LOCKTIME_THRESHOLD := h.lockTime ▸ h.height.2
  have hpast : (r.tx.nLockTime : Int) < ctx.height + 1 := h.lockTime ▸ Int.lt_succ _
  simp only [isFinalTx, if_pos hbelow, if_pos hpast, ite_self]

end Creating

/-- The wallet knows the blocks of the active chain: its transactions in a block have their coins at the height of the
block, and those in the pool have none. -/
structure InSync (ctx : WalletContext) (wallet : CWallet) : Prop where
  utxo : ∀ (o : COutPoint) (coin : Coin) (wtx : CWalletTx), ctx.getUTXOCoin o = some coin →
    wallet.mapWallet[o.hash]? = some wtx → 0 ≤ wtx.getDepthInMainChain ctx →
    wtx.tx.vout[o.n]? = some coin.out ∧ wtx.getDepthInMainChainBTC ctx = ctx.height + 1 - coin.nHeight
  mempool : ∀ (hash : UInt256) (tx : CTransaction) (wtx : CWalletTx), ctx.mempoolTx hash = some tx →
    wallet.mapWallet[hash]? = some wtx → tx = wtx.tx ∧ wtx.getDepthInMainChainBTC ctx = 0

/-- The transaction of this payment at height 1500, with its change and its fee. -/
def exampleCreated (change fee : Int) : Created where
  tx := ⟨[⟨⟨1, 0⟩, exampleScriptSig, SEQUENCE_FINAL - 1, []⟩],
    [⟨change, keyIDScript (List.replicate 20 2), -10⟩, ⟨50 * COIN - fee, keyIDScript (List.replicate 20 1), -10⟩], 1,
      1500, 9⟩
  nFeeRet := fee
  nChangePosInOut := 0

lemma exampleWallet_getElem {vout : List CTxOut} {hash : UInt256} {wtx : CWalletTx}
    (h : (exampleWallet vout).mapWallet[hash]? = some wtx) :
    hash = 1 ∧ wtx = exampleWalletTx vout := by
  unfold exampleWallet at h
  dsimp only at h
  rw [Std.ExtTreeMap.getElem?_insert] at h
  split_ifs at h with heq
  · exact ⟨(Std.LawfulEqCmp.eq_of_compare heq).symm, (Option.some.inj h).symm⟩
  · simp at h

lemma exampleWallet_inSync (vout : List CTxOut) (nHeight : Nat) (height : Int) :
    InSync (exampleWalletContext vout nHeight height) (exampleWallet vout) where
  utxo := by
    intro o coin wtx hcoin hwtx _
    obtain ⟨hhash, rfl⟩ := exampleWallet_getElem hwtx
    simp only [exampleWalletContext, hhash, if_true] at hcoin
    obtain ⟨out, hout, rfl⟩ := Option.map_eq_some_iff.mp hcoin
    refine ⟨hout, ?_⟩
    simp [CWalletTx.getDepthInMainChainBTC, CWalletTx.hashUnset, exampleWalletContext, exampleWalletTx, ABANDON_HASH]
    ring
  mempool := by
    intro hash tx wtx htx
    cases htx

end Qstees.Proofs
