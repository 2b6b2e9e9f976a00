import Qstees.Proofs.BlockJournal

/-!
# Disconnecting a block takes back connecting it

Connecting a block runs its journal, and `DisconnectBlock` undoes the journal.
-/

namespace Qstees.Proofs

variable {E : ConnectEnv} {nHeight : Int} {tx : CTransaction} {view view' : CCoinsViewCache}

/-- `CheckBlock`, BIP30 and the transaction loop, then `DisconnectBlock` with the undo data
of the loop: the coins are back as they were. -/
theorem disconnectBlock_connectTxs {block : CBlock} {nHeight : Int} (hh : 1 ≤ nHeight ∧ nHeight < 2 ^ 31)
    {view view₁ : CCoinsViewCache} (hv : CacheOk view)
    (hrestorable : ∀ o ∈ spentOutpoints block, ∀ coin, coinAt view o = some coin → Restorable coin)
    {s₀ s₁ s₂ : List Int} (hblock : checkBlock E block = ⟨.ok (), s₀⟩)
    (hbip30 : checkBIP30 block view = ⟨.ok view₁, s₁⟩) {st : ConnectState}
    (htxs : connectTxs E nHeight view₁ block.vtx = ⟨.ok st, s₂⟩) :
    ∃ view', disconnectBlock block st.vtxundo nHeight st.view = .ok (.ok, view') ∧ coinAt view' = coinAt view := by
  obtain ⟨hok, -⟩ := checkBlock_ok hblock
  obtain ⟨hview, hlen, hplays⟩ := connectBlockTxs_log hh hv hrestorable hok hbip30 htxs
  obtain ⟨res, view', hdisconnect, -, hshows, hclean⟩ :=
    disconnectBlock_undoes ⟨by omega, hh.2⟩ hlen hplays.recorded st.view.base _ st.view ⟨hview, rfl, hplays.coins⟩
  rw [hclean _ hplays.legal rfl] at hdisconnect
  refine ⟨view', hdisconnect, ?_⟩
  rw [hshows.coins, Journal.undo_redo hplays.legal]

theorem disconnectBlock_connectTxs_example :
    ∃ st ss view', connectTxs lenientEnv 2 (exampleView 1) [exampleCoinbase, exampleParent, exampleChild] =
        ⟨.ok st, ss⟩ ∧
      disconnectBlock ⟨[exampleCoinbase, exampleParent, exampleChild]⟩ st.vtxundo 2 st.view = .ok (.ok, view') ∧
      coinAt view' = coinAt (exampleView 1) := by
  have hblock : checkBlock lenientEnv ⟨[exampleCoinbase, exampleParent, exampleChild]⟩ =
    ⟨.ok (), [50, 50, 10, 10, 9]⟩ := by
    decide +kernel
  have hbip30 : checkBIP30 ⟨[exampleCoinbase, exampleParent, exampleChild]⟩ (exampleView 1) =
      ⟨.ok (exampleView 1), []⟩ := by
    decide +kernel
  have hrestorable : ∀ o ∈ spentOutpoints ⟨[exampleCoinbase, exampleParent, exampleChild]⟩, ∀ coin,
      coinAt (exampleView 1) o = some coin → Restorable coin := by
    intro o ho coin hcoin
    rw [coinAt_of_uncached (by simp [exampleView])] at hcoin
    obtain ⟨c, hc, hcoin⟩ := Option.bind_eq_some_iff.mp hcoin
    rw [exampleView_base hc] at hcoin
    cases hcoin
    exact ⟨by decide, by decide⟩
  have hrun : (connectTxs lenientEnv 2 (exampleView 1) [exampleCoinbase, exampleParent, exampleChild]).result.isOk =
      true := by
    decide +kernel
  obtain ⟨st, ss, hst⟩ := Tally.exists_eq_ok hrun
  obtain ⟨view', hview'⟩ :=
    disconnectBlock_connectTxs ⟨by decide, by decide⟩ (exampleView_ok 1) hrestorable hblock hbip30 hst
  exact ⟨st, ss, view', hst, hview'⟩

lemma accessByTxidFrom_none {txid : UInt256} (fuel n : Nat) (h : ∀ k, coinAt view ⟨txid, k⟩ = none) :
    (accessByTxidFrom txid fuel n view).1 = .empty := by
  induction fuel generalizing n view with
  | zero => rfl
  | succ fuel ih =>
    have hspent : (view.accessCoin ⟨txid, n⟩).isSpent = true := by
      have hn := h n
      unfold coinAt visible at hn
      split_ifs at hn with hs
      exact hs
    unfold accessByTxidFrom
    simp only [hspent, Bool.not_true, Bool.false_eq_true, if_false]
    apply ih
    intro k
    rw [coinAt_fetchCoin]
    exact h k

lemma applyTxInUndo_failed {o : COutPoint} {undo : Coin} (hheight : undo.nHeight = 0)
    (h : ∀ k, coinAt view ⟨o.hash, k⟩ = none) :
    ∃ view', applyTxInUndo undo view o = .ok (.failed, view') := by
  have hempty : (accessByTxid (view.fetchCoin o) o.hash).1 = .empty := by
    apply accessByTxidFrom_none
    intro k
    rw [coinAt_fetchCoin]
    exact h k
  refine ⟨(accessByTxid (view.fetchCoin o) o.hash).2, ?_⟩
  unfold applyTxInUndo recoverMetadata
  simp only [hheight, if_true]
  rw [hempty]
  rfl

lemma undoLoop_failed {α : Type}
    {f : α → CCoinsViewCache → Except String (DisconnectResult × CCoinsViewCache)} {a : α}
    {as : List α} (h : f a view = .ok (.failed, view')) :
    undoLoop f (a :: as) view = .ok (.failed, view') := by
  simp [undoLoop, h, bind, Except.bind, pure, Except.pure]

lemma disconnectTx_failed {vprevout : List Coin} {matched : Bool} {view₁ : CCoinsViewCache}
    (hremove : removeOutputs tx nHeight 0 tx.vout view = (matched, view₁))
    (hlen : vprevout.length = tx.vin.length)
    (hrestore : restoreInputs (tx.vin.zip vprevout).reverse view₁ = .ok (.failed, view')) :
    disconnectTx nHeight tx (some vprevout) view = .ok (.failed, view') := by
  simp [disconnectTx, hremove, hlen, hrestore, bind, Except.bind, pure, Except.pure]

/-- A block that spends the only coin of a view, when that coin has height 0. -/
def heightlessBlock : CBlock := ⟨[exampleCoinbase, exampleParent]⟩

def heightlessView : CCoinsViewCache :=
  ⟨(exampleView 0).base, (((∅ : StdMap COutPoint CCoinsCacheEntry).insert ⟨5, 0⟩ ⟨.empty, true, false⟩).insert ⟨10, 0⟩
    ⟨.ofOut ⟨50, [OP_1], -10⟩ 2 true, true, false⟩).insert ⟨10, 1⟩ ⟨.ofOut ⟨0, [], -10⟩ 2 true, true, false⟩⟩

def heightlessState : ConnectState where
  view := setEntry heightlessView ⟨11, 0⟩ ⟨.ofOut ⟨10, [OP_1], -10⟩ 2 false, true, true⟩
  i := 2
  vtxundo := [[⟨⟨12, [OP_1], -10⟩, false, 0⟩]]
  nFees := 2
  nSigOpsCost := 2

lemma heightlessView_none (k : Nat) : coinAt heightlessView ⟨5, k⟩ = none := by
  by_cases hk : k = 0
  · subst hk
    exact coinAt_of_cached (e := ⟨.empty, true, false⟩) (by decide +kernel)
  have hcache : heightlessView.cacheCoins[(⟨5, k⟩ : COutPoint)]? = none := by
    unfold heightlessView
    rw [getElem?_insert_ne _ _ (by simp), getElem?_insert_ne _ _ (by simp),
      getElem?_insert_ne _ _ (by simpa using Ne.symm hk)]
    simp
  have hbase : heightlessView.base[(⟨5, k⟩ : COutPoint)]? = none := by
    unfold heightlessView exampleView
    rw [getElem?_insert_ne _ _ (by simpa using Ne.symm hk)]
    simp
  rw [coinAt_of_uncached hcache, hbase, Option.bind_none]

/-- A spent coin of height 0 cannot be restored. -/
theorem disconnectBlock_heightless :
    CacheOk (exampleView 0) ∧ checkBlock lenientEnv heightlessBlock = ⟨.ok (), [50, 50, 10, 10]⟩ ∧
      checkBIP30 heightlessBlock (exampleView 0) = ⟨.ok (exampleView 0), []⟩ ∧
      connectTxs lenientEnv 2 (exampleView 0) heightlessBlock.vtx =
        ⟨.ok heightlessState, [0, 12, 12, 12, 10, 10, 2, 2]⟩ ∧
      ∃ view', disconnectBlock heightlessBlock heightlessState.vtxundo 2 heightlessState.view =
        .ok (.failed, view') := by
  refine ⟨exampleView_ok 0, by decide +kernel, by decide +kernel, by decide +kernel, ?_⟩
  have hremove : removeOutputs exampleParent 2 0 exampleParent.vout heightlessState.view = (true, heightlessView) := by
    decide +kernel
  have hheight : (⟨⟨12, [OP_1], -10⟩, false, 0⟩ : Coin).nHeight = 0 := rfl
  obtain ⟨view', happly⟩ := applyTxInUndo_failed (o := ⟨5, 0⟩) hheight heightlessView_none
  have hlen : [(⟨⟨12, [OP_1], -10⟩, false, 0⟩ : Coin)].length = exampleParent.vin.length := rfl
  have hround := disconnectTx_failed hremove hlen (undoLoop_failed happly)
  refine ⟨view', ?_⟩
  rw [disconnectBlock, if_neg (by decide)]
  exact undoLoop_failed hround

end Qstees.Proofs
