import Qstees.Model.CoinsDB
import Qstees.Proofs.BlockView
import Qstees.Proofs.Connect

/-!
# A block as a journal

The coins a block spends and creates, in order, with its undo data, are a journal over the set of coins. Connecting the
block is a legal run of the journal.
-/

namespace Qstees.Proofs

open List

open Journal (redo undo Legal)

def inputEntry (p : CTxIn × Coin) : CoinEntry := ⟨p.1.prevout, some p.2, none⟩

def txLog (nHeight : Int) (p : CTransaction × Option (List Coin)) : List CoinEntry :=
  (p.1.spentInputs.zip (p.2.getD [])).map inputEntry ++ outputLog p.1 nHeight 0 p.1.vout

def undoPairs (block : CBlock) (vtxundo : List (List Coin)) : List (CTransaction × Option (List Coin)) :=
  block.vtx.zip (none :: vtxundo.map some)

def blockLog (pindex : StoredBlock) : List CoinEntry :=
  (undoPairs pindex.block pindex.vtxundo).flatMap (txLog pindex.nHeight)

def Kept (coin : Coin) : Prop := coin.isSpent = false ∧ Restorable coin

structure UndoRecorded (p : CTransaction × Option (List Coin)) : Prop where
  coinbase : p.2 = none → p.1.spentInputs = []
  spend : ∀ vprevout, p.2 = some vprevout → p.1.spentInputs = p.1.vin ∧ vprevout.length = p.1.vin.length ∧
    ∀ coin ∈ vprevout, Kept coin
  outputs_nonneg : ∀ out ∈ p.1.vout, 0 ≤ out.nValue

structure Shows (base : StdMap COutPoint Coin) (m : COutPoint → Option Coin) (view : CCoinsViewCache) : Prop
    extends CacheOk view where
  base_eq : view.base = base
  coins : coinAt view = m

section Shows

variable {base : StdMap COutPoint Coin} {m : COutPoint → Option Coin} {view : CCoinsViewCache}

lemma Shows.fetchCoin (h : Shows base m view) (o : COutPoint) : Shows base m (view.fetchCoin o) := by
  refine ⟨fetchCoin_ok h.toCacheOk o, (fetchCoin_base view o).trans h.base_eq, ?_⟩
  rw [← h.coins]
  exact funext (coinAt_fetchCoin view o)

lemma Shows.spendCoin (h : Shows base m view) (o : COutPoint) :
    Shows base (Function.update m o none) (view.spendCoin o).2.2 := by
  obtain ⟨hok, hcoins⟩ := spendCoin_ok h.toCacheOk o
  exact ⟨hok, (spendCoin_base view o).trans h.base_eq, hcoins.trans (by rw [h.coins])⟩

lemma Shows.addCoin (h : Shows base m view) {o : COutPoint} {coin : Coin} (hc : coin.isSpent = false)
    (hs : isUnspendable coin.out.scriptPubKey = false) :
    ∃ view', view.addCoin o coin (m o).isSome = .ok view' ∧ Shows base (Function.update m o (some coin)) view' := by
  rw [← h.coins]
  cases hcoin : coinAt view o with
  | none =>
    obtain ⟨view', hadd⟩ := addCoin_of_none false hcoin hc
    obtain ⟨hok, hcoins⟩ := addCoin_spec h.toCacheOk hs hcoin hadd
    obtain ⟨-, -, rfl⟩ := addCoin_eq_ok hs hadd
    exact ⟨_, hadd, hok, h.base_eq, hcoins⟩
  | some c =>
    refine ⟨setEntry view o ⟨coin, true, (entryAt view o).fresh⟩, ?_, ?_, h.base_eq, ?_⟩
    · simp [CCoinsViewCache.addCoin, hc, hs, setEntry, entryAt]
    · exact insert_ok h.toCacheOk h.entry_fresh
    · rw [coinAt_insert, visible_of_unspent hc]

end Shows

/-- The coins are those before the journal; the result is `DISCONNECT_OK` if they were those after it. -/
def Undoes (f : CCoinsViewCache → Except String (DisconnectResult × CCoinsViewCache)) (log : List CoinEntry) : Prop :=
  ∀ base m u, Shows base m u → ∃ res u', f u = .ok (res, u') ∧ res ≠ .failed ∧ Shows base (undo log m) u' ∧
    ∀ m₀, Legal m₀ log → m = redo log m₀ → res = .ok

lemma applyTxInUndo_undoes {coin : Coin} (hc : Kept coin) (txin : CTxIn) :
    Undoes (fun view => applyTxInUndo coin view txin.prevout) [inputEntry (txin, coin)] := by
  intro base m u hu
  obtain ⟨u', hadd, hu'⟩ := (hu.fetchCoin txin.prevout).addCoin (o := txin.prevout) hc.1 hc.2.2
  have hover : (!!u.haveCoin txin.prevout) = (m txin.prevout).isSome := by rw [Bool.not_not, haveCoin_eq, hu.coins]
  refine ⟨if !u.haveCoin txin.prevout then .ok else .unclean, u', ?_, ?_, hu', ?_⟩
  · unfold applyTxInUndo recoverMetadata
    simp only [hc.2.1, if_false]
    rw [hover, hadd]
    rfl
  · split_ifs
    · exact DisconnectResult.noConfusion
    · exact DisconnectResult.noConfusion
  · intro m₀ _ hm
    have hclean : u.haveCoin txin.prevout = false := by
      rw [haveCoin_eq, hu.coins, hm]
      simp [inputEntry]
    rw [hclean]
    rfl

lemma undoLoop_undoes {α : Type} {f : α → CCoinsViewCache → Except String (DisconnectResult × CCoinsViewCache)}
    {log : α → List CoinEntry} {as : List α} (h : ∀ a ∈ as, Undoes (f a) (log a)) :
    Undoes (undoLoop f as.reverse) (as.flatMap log) := by
  suffices hforward : ∀ as : List α, (∀ a ∈ as, Undoes (f a) (log a)) →
      Undoes (undoLoop f as) (as.reverse.flatMap log) by
    have hreverse := hforward as.reverse (fun a ha => h a (mem_reverse.mp ha))
    rwa [reverse_reverse] at hreverse
  intro as has
  induction as with
  | nil =>
    intro base m u hu
    exact ⟨.ok, u, rfl, DisconnectResult.noConfusion, hu, fun _ _ _ => rfl⟩
  | cons a as ih =>
    intro base m u hu
    obtain ⟨res, u₁, hround, hres, hu₁, hclean⟩ := has a mem_cons_self base m u hu
    obtain ⟨res', u₂, hrest, hres', hu₂, hclean'⟩ := ih (fun b hb => has b (mem_cons_of_mem _ hb)) base _ u₁ hu₁
    rw [reverse_cons, flatMap_append, flatMap_singleton]
    refine ⟨if res = .unclean then .unclean else res', u₂, ?_, ?_, ?_, ?_⟩
    · simp [undoLoop, hround, hrest, hres, hres', bind, Except.bind, pure, Except.pure]
    · split_ifs
      · exact DisconnectResult.noConfusion
      · exact hres'
    · rw [Journal.undo_append]
      exact hu₂
    · intro m₀ hlegal hm
      rw [Journal.legal_append] at hlegal
      rw [Journal.redo_append] at hm
      rw [hclean _ hlegal.2 hm, hclean' m₀ hlegal.1 (by rw [hm, Journal.undo_redo hlegal.2])]
      rfl

lemma redo_outputLog_key {tx : CTransaction} {nHeight : Int} {vout : List CTxOut} {n : Nat}
    (m : COutPoint → Option Coin) :
    ∀ e ∈ outputLog tx nHeight n vout, redo (outputLog tx nHeight n vout) m e.key = e.after := by
  induction vout generalizing n m with
  | nil => simp [outputLog]
  | cons out vout ih =>
    unfold outputLog
    split_ifs
    · exact ih m
    · intro e he
      rw [Journal.redo_cons]
      rcases mem_cons.mp he with rfl | he
      · rw [Journal.redo_of_notMem (notMem_keys_outputLog (Nat.lt_succ_self n)), Function.update_self]
      · exact ih _ e he

section Disconnecting

variable {base : StdMap COutPoint Coin} {m : COutPoint → Option Coin} {nHeight : Int} {u : CCoinsViewCache}

lemma removeOutputs_undo (tx : CTransaction) (hh : 0 ≤ nHeight ∧ nHeight < 2 ^ 31) (n : Nat) (vout : List CTxOut)
    (hu : Shows base m u) :
    Shows base (undo (outputLog tx nHeight n vout) m) (removeOutputs tx nHeight n vout u).2 ∧
      ((∀ e ∈ outputLog tx nHeight n vout, m e.key = e.after) → (removeOutputs tx nHeight n vout u).1 = true) := by
  induction vout generalizing n u m with
  | nil => exact ⟨hu, fun _ => rfl⟩
  | cons out vout ih =>
    unfold removeOutputs outputLog
    split_ifs
    · exact ih (n + 1) hu
    have hkey : (⟨tx.hash, n⟩ : COutPoint) ∉ Journal.keys (outputLog tx nHeight (n + 1) vout) :=
      notMem_keys_outputLog (Nat.lt_succ_self n)
    obtain ⟨hrest, hmatched⟩ := ih (n + 1) (hu.spendCoin ⟨tx.hash, n⟩)
    constructor
    · -- The outputs are removed first to last, which is the other way round.
      rw [Journal.undo_cons, ← Journal.undo_update hkey]
      exact hrest
    intro hafter
    have hcoin : coinAt u ⟨tx.hash, n⟩ = some (.ofOut out nHeight tx.isCoinBase) := by
      rw [hu.coins]
      exact hafter _ mem_cons_self
    obtain ⟨u₁, hspend, -⟩ := spendCoin_spec hu.toCacheOk hcoin
    have htail : (removeOutputs tx nHeight (n + 1) vout u₁).1 = true := by
      rw [hspend] at hmatched
      apply hmatched
      intro e he
      rw [Function.update_of_ne (ne_of_mem_of_not_mem (mem_map_of_mem he) hkey)]
      exact hafter e (mem_cons_of_mem _ he)
    have hheight : nHeight = (Coin.ofOut out nHeight tx.isCoinBase).nHeight := by
      simp only [Coin.ofOut]
      omega
    simp only [hspend, htail, ← hheight]
    simp [Coin.ofOut]

lemma disconnectTx_undoes (hh : 0 ≤ nHeight ∧ nHeight < 2 ^ 31) {p : CTransaction × Option (List Coin)}
    (hp : UndoRecorded p) : Undoes (fun view => disconnectTx nHeight p.1 p.2 view) (txLog nHeight p) := by
  intro base m u hu
  obtain ⟨tx, txundo⟩ := p
  obtain ⟨hu₁, hmatched⟩ := removeOutputs_undo tx hh 0 tx.vout hu
  rcases hremove : removeOutputs tx nHeight 0 tx.vout u with ⟨matched, u₁⟩
  rw [hremove] at hu₁ hmatched
  cases txundo with
  | none =>
    have hlog : txLog nHeight (tx, none) = outputLog tx nHeight 0 tx.vout := by rw [txLog, hp.coinbase rfl]; rfl
    rw [hlog]
    refine ⟨if matched then .ok else .unclean, u₁, ?_, ?_, hu₁, ?_⟩
    · simp [disconnectTx, hremove]
    · cases matched <;> exact DisconnectResult.noConfusion
    · intro m₀ _ hm
      exact if_pos (hmatched (hm ▸ redo_outputLog_key m₀))
  | some vprevout =>
    obtain ⟨hvin, hlen, hkept⟩ := hp.spend vprevout rfl
    have hinputs : Undoes (restoreInputs (tx.vin.zip vprevout).reverse)
      ((tx.vin.zip vprevout).flatMap (fun p => [inputEntry p])) := by
      apply undoLoop_undoes
      rintro ⟨txin, coin⟩ hmem
      exact applyTxInUndo_undoes (hkept coin (of_mem_zip hmem).2) txin
    obtain ⟨res, u₂, hrestore, hres, hu₂, hclean⟩ := hinputs base _ u₁ hu₁
    rw [← map_eq_flatMap] at hu₂ hclean
    rw [txLog, hvin]
    refine ⟨if matched then res else .unclean, u₂, ?_, ?_, ?_, ?_⟩
    · cases matched <;> simp [disconnectTx, hremove, hlen, hrestore, hres, bind, Except.bind, pure, Except.pure]
    · cases matched
      · exact DisconnectResult.noConfusion
      · exact hres
    · rw [Journal.undo_append]
      exact hu₂
    · intro m₀ hlegal hm
      rw [Journal.legal_append] at hlegal
      rw [Journal.redo_append] at hm
      rw [if_pos (hmatched (hm ▸ redo_outputLog_key _))]
      exact hclean m₀ hlegal.1 (by rw [hm]; exact Journal.undo_redo hlegal.2)

lemma disconnectBlock_undoes (hh : 0 ≤ nHeight ∧ nHeight < 2 ^ 31) {block : CBlock} {vtxundo : List (List Coin)}
    (hlen : vtxundo.length + 1 = block.vtx.length) (hrec : ∀ p ∈ undoPairs block vtxundo, UndoRecorded p) :
    Undoes (disconnectBlock block vtxundo nHeight) ((undoPairs block vtxundo).flatMap (txLog nHeight)) := by
  intro base m u hu
  unfold disconnectBlock
  rw [if_neg (not_not.mpr hlen)]
  exact undoLoop_undoes (fun p hp => disconnectTx_undoes hh (hrec p hp)) base m u hu

end Disconnecting

def Redoes (f : CCoinsViewCache → Except String CCoinsViewCache) (log : List CoinEntry) : Prop :=
  ∀ base m u, Shows base m u → ∃ u', f u = .ok u' ∧ Shows base (redo log m) u'

lemma spendAll_redo {base : StdMap COutPoint Coin} {m : COutPoint → Option Coin} {vin : List CTxIn}
    {vprevout : List Coin} (hlen : vprevout.length = vin.length) {u : CCoinsViewCache} (hu : Shows base m u) :
    Shows base (redo ((vin.zip vprevout).map inputEntry) m)
      (vin.foldl (fun u txin => (u.spendCoin txin.prevout).2.2) u) := by
  induction vin generalizing vprevout u m with
  | nil => exact hu
  | cons txin vin ih =>
    cases vprevout with
    | nil => cases hlen
    | cons coin vprevout => exact ih (Nat.succ.inj hlen) (hu.spendCoin txin.prevout)

lemma ofOut_unspent {out : CTxOut} (h : 0 ≤ out.nValue) (nHeight : Int) (fCoinBase : Bool) :
    (Coin.ofOut out nHeight fCoinBase).isSpent = false := by
  simp only [Coin.ofOut, Coin.isSpent, CTxOut.isNull, beq_eq_false_iff_ne]
  omega

lemma addCoinsChecked_redoes {tx : CTransaction} (nHeight : Int) {vout : List CTxOut} (n : Nat)
    (hout : ∀ out ∈ vout, 0 ≤ out.nValue) :
    Redoes (addCoinsCheckedFrom tx nHeight n vout) (outputLog tx nHeight n vout) := by
  induction vout generalizing n with
  | nil =>
    intro base m u hu
    exact ⟨u, rfl, hu⟩
  | cons out vout ih =>
    intro base m u hu
    have hrest := ih (n + 1) (fun o ho => hout o (mem_cons_of_mem _ ho))
    have hfetch := hu.fetchCoin ⟨tx.hash, n⟩
    have hcoin := ofOut_unspent (hout out mem_cons_self) nHeight tx.isCoinBase
    unfold addCoinsCheckedFrom outputLog
    cases hs : isUnspendable out.scriptPubKey with
    | true =>
      obtain ⟨u', hadd, hu'⟩ := hrest base m _ hfetch
      refine ⟨u', ?_, hu'⟩
      simp only [CCoinsViewCache.addCoin, hcoin, Bool.false_eq_true, if_false]
      rw [Coin.ofOut, hs]
      exact hadd
    | false =>
      have hspendable : isUnspendable (Coin.ofOut out nHeight tx.isCoinBase).out.scriptPubKey = false := hs
      obtain ⟨u₁, hadd, hu₁⟩ := hfetch.addCoin (o := ⟨tx.hash, n⟩) hcoin hspendable
      obtain ⟨u', hrest', hu'⟩ := hrest base _ u₁ hu₁
      refine ⟨u', ?_, hu'⟩
      dsimp only
      rw [haveCoin_eq, hu.coins, hadd]
      exact hrest'

lemma rollforwardTx_redoes (nHeight : Int) {p : CTransaction × Option (List Coin)} (hp : UndoRecorded p) :
    Redoes (fun u => rollforwardTx nHeight u p.1) (txLog nHeight p) := by
  intro base m u hu
  obtain ⟨tx, txundo⟩ := p
  have hlen : (txundo.getD []).length = tx.spentInputs.length := by
    cases txundo with
    | none =>
      rw [hp.coinbase rfl]
      rfl
    | some vprevout =>
      obtain ⟨hvin, hlen, -⟩ := hp.spend vprevout rfl
      rw [hvin]
      exact hlen
  obtain ⟨u', hadd, hu'⟩ := addCoinsChecked_redoes nHeight 0 hp.outputs_nonneg base _ _ (spendAll_redo hlen hu)
  refine ⟨u', hadd, ?_⟩
  rw [txLog, Journal.redo_append]
  exact hu'

lemma rollforwardTxs_redoes (nHeight : Int) {pairs : List (CTransaction × Option (List Coin))}
    (h : ∀ p ∈ pairs, UndoRecorded p) : Redoes (rollforwardTxs nHeight (pairs.map Prod.fst))
    (pairs.flatMap (txLog nHeight)) := by
  induction pairs with
  | nil =>
    intro base m u hu
    exact ⟨u, rfl, hu⟩
  | cons p pairs ih =>
    intro base m u hu
    obtain ⟨u₁, hfirst, hu₁⟩ := rollforwardTx_redoes nHeight (h p mem_cons_self) base m u hu
    obtain ⟨u₂, hrest, hu₂⟩ := ih (fun q hq => h q (mem_cons_of_mem _ hq)) base _ u₁ hu₁
    dsimp only at hfirst
    refine ⟨u₂, ?_, ?_⟩
    · rw [map_cons, rollforwardTxs, hfirst]
      exact hrest
    · rw [flatMap_cons, Journal.redo_append]
      exact hu₂

lemma map_fst_undoPairs {block : CBlock} {vtxundo : List (List Coin)} (hlen : vtxundo.length + 1 = block.vtx.length) :
    (undoPairs block vtxundo).map Prod.fst = block.vtx := by
  apply map_fst_zip
  simp only [length_cons, length_map]
  omega

lemma rollforwardBlock_redoes {pindex : StoredBlock} (hlen : pindex.vtxundo.length + 1 = pindex.block.vtx.length)
    (hrec : ∀ p ∈ undoPairs pindex.block pindex.vtxundo, UndoRecorded p) :
    Redoes (rollforwardBlock pindex) (blockLog pindex) := by
  have h := rollforwardTxs_redoes pindex.nHeight hrec
  rw [map_fst_undoPairs hlen] at h
  exact h

section Connecting

variable {E : ConnectEnv} {outs ins : List COutPoint} {nHeight : Int} {st st' : ConnectState} {tx : CTransaction}
  {ss : List Int} {block : CBlock} {view view' : CCoinsViewCache}

structure Undoable (outs ins : List COutPoint) (tx : CTransaction) : Prop where
  outputs : ∀ k < tx.vout.length, ⟨tx.hash, k⟩ ∈ outs
  inputs : ∀ txin ∈ tx.spentInputs, txin.prevout ∈ ins
  nodup : (tx.spentInputs.map CTxIn.prevout).Nodup

lemma checkSpend_blockView (hv : BlockView outs ins st.view)
    (h : checkSpend E nHeight st tx = ⟨.ok st', ss⟩) :
    BlockView outs ins st'.view ∧ coinAt st'.view = coinAt st.view ∧
      (∀ txin ∈ tx.spentInputs, coinAt st.view txin.prevout ≠ none) ∧ st'.i = st.i ∧ st'.vtxundo = st.vtxundo := by
  cases hcb : tx.isCoinBase with
  | true =>
    rw [checkSpend_coinbase hcb] at h
    obtain ⟨rfl, -⟩ := Tally.pure_eq_ok.mp h
    refine ⟨hv, rfl, ?_, rfl, rfl⟩
    simp [CTransaction.spentInputs, hcb]
  | false =>
    obtain ⟨txfee, s, hinputs, -, -, rfl⟩ := checkSpend_ok hcb h
    have hhave := checkTxInputs_haveInputs hinputs
    obtain ⟨hok, hcoins⟩ := foldl_fetchCoin hv (tx.vin.map CTxIn.prevout)
    rw [← fetchInputs_eq] at hok hcoins
    refine ⟨hok, hcoins, ?_, rfl, rfl⟩
    intro txin htxin
    simp only [CTransaction.spentInputs, hcb, Bool.false_eq_true, if_false] at htxin
    simp only [CCoinsViewCache.haveInputs, hcb, Bool.false_or] at hhave
    have hsome := all_eq_true.mp hhave txin htxin
    rw [haveCoin_eq] at hsome
    exact Option.isSome_iff_ne_none.mp hsome

def spentOutpoints (block : CBlock) : List COutPoint :=
  block.vtx.flatMap (fun tx => tx.spentInputs.map CTxIn.prevout)

lemma mem_outpoints (htx : tx ∈ block.vtx) {k : Nat} (hk : k < tx.vout.length) :
    ⟨tx.hash, k⟩ ∈ block.outpoints := by
  refine mem_flatMap.mpr ⟨tx, htx, ?_⟩
  exact mem_map.mpr ⟨k, mem_range.mpr hk, rfl⟩

lemma undoable_of_blockOk (hok : BlockOk block) (htx : tx ∈ block.vtx) :
    Undoable block.outpoints (spentOutpoints block) tx := by
  refine ⟨fun k hk => mem_outpoints htx hk, ?_, ?_⟩
  · intro txin htxin
    exact mem_flatMap.mpr ⟨tx, htx, mem_map_of_mem htxin⟩
  · unfold CTransaction.spentInputs
    split_ifs
    · exact nodup_nil
    · exact (hok.txs_ok tx htx).inputs_nodup

lemma checkBIP30_ok (hv : CacheOk view)
    (hrestorable : ∀ o ∈ ins, ∀ coin, coinAt view o = some coin → Restorable coin)
    (h : checkBIP30 block view = ⟨.ok view', ss⟩) :
    (∀ o ∈ block.outpoints, coinAt view' o = none) ∧ BlockView block.outpoints ins view' ∧
      coinAt view' = coinAt view := by
  obtain ⟨_, _, _, hcheck, hview', -⟩ := Tally.bind_eq_ok.mp h
  obtain ⟨rfl, -⟩ := Tally.pure_eq_ok.mp hview'
  have hnone : ∀ o ∈ block.outpoints, coinAt view o = none := by
    intro o ho
    have hhave := all_eq_true.mp (Tally.check_eq_ok.mp hcheck).1 o ho
    simpa [haveCoin_eq] using hhave
  have hbv : BlockView block.outpoints ins view := ⟨hv, fun o ho hne => absurd (hnone o ho) hne, hrestorable⟩
  obtain ⟨hbv', hcoins⟩ := foldl_fetchCoin hbv block.outpoints
  exact ⟨by rw [hcoins]; exact hnone, hbv', hcoins⟩

lemma spendInputs_log {vin : List CTxIn} {vprevout : List Coin}
    (hv : BlockView outs ins view) (hins : ∀ txin ∈ vin, txin.prevout ∈ ins) (hnodup : (vin.map CTxIn.prevout).Nodup)
    (hhave : ∀ txin ∈ vin, coinAt view txin.prevout ≠ none) (h : spendInputs vin view = .ok (vprevout, view')) :
    BlockView outs ins view' ∧ vprevout.length = vin.length ∧ (∀ coin ∈ vprevout, Kept coin) ∧
      Legal (coinAt view) ((vin.zip vprevout).map inputEntry) ∧
      coinAt view' = redo ((vin.zip vprevout).map inputEntry) (coinAt view) := by
  induction vin generalizing view vprevout with
  | nil =>
    obtain ⟨rfl, rfl⟩ := Prod.mk.inj (Except.ok.inj h)
    exact ⟨hv, rfl, fun coin hcoin => absurd hcoin not_mem_nil, trivial, rfl⟩
  | cons txin vin ih =>
    obtain ⟨coin, hcoin⟩ := Option.ne_none_iff_exists'.mp (hhave txin mem_cons_self)
    obtain ⟨view₁, hspend, hv₁, hcoins₁⟩ := spendCoin_blockView hv hcoin
    unfold spendInputs at h
    rw [hspend] at h
    obtain ⟨⟨vprevout', view₂⟩, hrest, h⟩ := ok_of_bind h
    obtain ⟨rfl, rfl⟩ := Prod.mk.inj (Except.ok.inj h)
    rw [map_cons, nodup_cons] at hnodup
    have hhave₁ : ∀ t ∈ vin, coinAt view₁ t.prevout ≠ none := by
      intro t ht
      have hne : t.prevout ≠ txin.prevout := fun heq => hnodup.1 (heq ▸ mem_map_of_mem ht)
      rw [hcoins₁, Function.update_of_ne hne]
      exact hhave t (mem_cons_of_mem _ ht)
    obtain ⟨hv', hlen, hkept, hlegal, hcoins⟩ :=
      ih hv₁ (fun t ht => hins t (mem_cons_of_mem _ ht)) hnodup.2 hhave₁ hrest
    rw [hcoins₁] at hlegal hcoins
    have hfirst : Kept coin := ⟨(coinAt_unspent hcoin).1, hv.restorable _ (hins txin mem_cons_self) coin hcoin⟩
    exact ⟨hv', by simp [hlen], forall_mem_cons.mpr ⟨hfirst, hkept⟩, ⟨hcoin, hlegal⟩, hcoins⟩

/-- The transactions of a block and their undo data take one set of coins to another. -/
structure Plays (nHeight : Int) (pairs : List (CTransaction × Option (List Coin))) (m m' : COutPoint → Option Coin) :
    Prop where
  recorded : ∀ p ∈ pairs, UndoRecorded p
  legal : Legal m (pairs.flatMap (txLog nHeight))
  coins : m' = redo (pairs.flatMap (txLog nHeight)) m

lemma Plays.append {a b : List (CTransaction × Option (List Coin))} {m₀ m₁ m₂ : COutPoint → Option Coin}
    (ha : Plays nHeight a m₀ m₁) (hb : Plays nHeight b m₁ m₂) : Plays nHeight (a ++ b) m₀ m₂ := by
  refine ⟨forall_mem_append.mpr ⟨ha.recorded, hb.recorded⟩, ?_, ?_⟩
  · rw [flatMap_append, Journal.legal_append, ← ha.coins]
    exact ⟨ha.legal, hb.legal⟩
  · rw [flatMap_append, Journal.redo_append, ← ha.coins]
    exact hb.coins

/-- The undo data of a round, as `DisconnectBlock` pairs it with the transaction. -/
def roundUndo (tx : CTransaction) (vprevout : List Coin) : Option (List Coin) :=
  if tx.isCoinBase then none else some vprevout

lemma connectTx_log (hh : 1 ≤ nHeight ∧ nHeight < 2 ^ 31) (h : connectTx E nHeight st tx = ⟨.ok st', ss⟩)
    (hv : BlockView outs ins st.view) (htx : Undoable outs ins tx) (hok : TxOk tx)
    (hcb : tx.isCoinBase = true → ∀ k < tx.vout.length, coinAt st.view ⟨tx.hash, k⟩ = none) :
    BlockView outs ins st'.view ∧ st'.i = st.i + 1 ∧
      ∃ vprevout, (st'.vtxundo = if st.i > 0 then st.vtxundo ++ [vprevout] else st.vtxundo) ∧
        Plays nHeight [(tx, roundUndo tx vprevout)] (coinAt st.view) (coinAt st'.view) := by
  obtain ⟨st₁, vprevout, hspend, hupdate, hi, -, hundo⟩ := connectTx_ok h
  obtain ⟨hv₁, hcoins₁, hhave, hi₁, hundo₁⟩ := checkSpend_blockView hv hspend
  rw [hi₁] at hi hundo
  rw [hundo₁] at hundo
  rw [← hcoins₁] at hcb hhave ⊢
  unfold updateCoins at hupdate
  obtain ⟨⟨vprevout', view₁⟩, hinputs, hupdate⟩ := ok_of_bind hupdate
  obtain ⟨view₂, hadd, hupdate⟩ := ok_of_bind hupdate
  obtain ⟨rfl, rfl⟩ := Prod.mk.inj (Except.ok.inj hupdate)
  obtain ⟨hv₂, hlen, hkept, hlegal, hcoins₂⟩ := spendInputs_log hv₁ htx.inputs htx.nodup hhave hinputs
  have hcb₂ : tx.isCoinBase = true → ∀ k, 0 ≤ k → k < 0 + tx.vout.length → coinAt view₁ ⟨tx.hash, k⟩ = none := by
    intro hc k _ hk
    rw [CTransaction.spentInputs, if_pos hc] at hinputs
    obtain ⟨-, rfl⟩ := Prod.mk.inj (Except.ok.inj hinputs)
    exact hcb hc k (by omega)
  obtain ⟨hv₃, hcreated, hcoins₃⟩ := addCoinsFrom_spec hh hv₂ (fun k _ hk => htx.outputs k (by omega)) hcb₂ hadd
  -- The coinbase spends nothing, so that its missing undo data stands for no coins.
  have hlog : txLog nHeight (tx, roundUndo tx vprevout') =
      (tx.spentInputs.zip vprevout').map inputEntry ++ outputLog tx nHeight 0 tx.vout := by
    unfold txLog roundUndo
    cases hc : tx.isCoinBase with
    | true =>
      have hnil : tx.spentInputs = [] := by rw [CTransaction.spentInputs, if_pos hc]
      rw [hnil]
      rfl
    | false => rfl
  refine ⟨hv₃, hi, vprevout', hundo, forall_mem_singleton.mpr ⟨?_, ?_, hok.outputs_nonneg⟩, ?_, ?_⟩
  · intro hnone
    have hc : tx.isCoinBase = true := by
      by_contra hc
      simp [roundUndo, hc] at hnone
    exact if_pos hc
  · intro v hsome
    have hc : ¬ tx.isCoinBase = true := by
      intro hc
      simp [roundUndo, hc] at hsome
    have hspent : tx.spentInputs = tx.vin := if_neg hc
    rw [roundUndo, if_neg hc] at hsome
    obtain rfl := Option.some.inj hsome
    exact ⟨hspent, by rw [hlen, hspent], hkept⟩
  · rw [flatMap_singleton, hlog, Journal.legal_append, ← hcoins₂]
    exact ⟨hlegal, hcreated⟩
  · rw [flatMap_singleton, hlog, Journal.redo_append, ← hcoins₂]
    exact hcoins₃

lemma connectTxs_log (hh : 1 ≤ nHeight ∧ nHeight < 2 ^ 31) {vtx : List CTransaction}
    (hv : BlockView outs ins st.view) (hi : 0 < st.i)
    (htxs : ∀ tx ∈ vtx, Undoable outs ins tx ∧ TxOk tx ∧ tx.isCoinBase = false)
    (h : Tally.fold (connectTx E nHeight) st vtx = ⟨.ok st', ss⟩) :
    CacheOk st'.view ∧ ∃ vtxundo, st'.vtxundo = st.vtxundo ++ vtxundo ∧ vtxundo.length = vtx.length ∧
      Plays nHeight (vtx.zip (vtxundo.map some)) (coinAt st.view) (coinAt st'.view) := by
  induction vtx generalizing st ss with
  | nil =>
    obtain ⟨rfl, -⟩ := Tally.pure_eq_ok.mp h
    exact ⟨hv.toCacheOk, [], by simp, rfl, fun p hp => absurd hp not_mem_nil, trivial, rfl⟩
  | cons tx vtx ih =>
    obtain ⟨st₁, s₁, s₂, hstep, hrest, -⟩ := Tally.bind_eq_ok.mp h
    obtain ⟨hundoable, hok, hcb⟩ := htxs tx mem_cons_self
    obtain ⟨hv₁, hi₁, vprevout, hundo₁, hplays₁⟩ :=
      connectTx_log hh hstep hv hundoable hok (fun hc => absurd (hcb.symm.trans hc) Bool.false_ne_true)
    rw [if_pos hi] at hundo₁
    rw [roundUndo, hcb, if_neg Bool.false_ne_true] at hplays₁
    obtain ⟨hview, vtxundo, hundo, hlen, hplays⟩ :=
      ih hv₁ (by omega) (fun t ht => htxs t (mem_cons_of_mem _ ht)) hrest
    exact ⟨hview, vprevout :: vtxundo, by rw [hundo, hundo₁, append_assoc]; rfl, by simp [hlen], hplays₁.append hplays⟩

lemma connectBlockTxs_log (hh : 1 ≤ nHeight ∧ nHeight < 2 ^ 31) (hv : CacheOk view)
    (hrestorable : ∀ o ∈ spentOutpoints block, ∀ coin, coinAt view o = some coin → Restorable coin)
    (hok : BlockOk block) (hbip30 : checkBIP30 block view = ⟨.ok view', ss⟩) {ss' : List Int}
    (htxs : connectTxs E nHeight view' block.vtx = ⟨.ok st, ss'⟩) :
    CacheOk st.view ∧ st.vtxundo.length + 1 = block.vtx.length ∧
      Plays nHeight (undoPairs block st.vtxundo) (coinAt view) (coinAt st.view) := by
  obtain ⟨coinbase, vtx, hvtx, hcb, hrestcb⟩ := hok.coinbase_first
  obtain ⟨hnone, hbv₁, hcoins₁⟩ := checkBIP30_ok hv hrestorable hbip30
  have hgood : ∀ tx ∈ block.vtx, Undoable block.outpoints (spentOutpoints block) tx ∧ TxOk tx :=
    fun tx htx => ⟨undoable_of_blockOk hok htx, hok.txs_ok tx htx⟩
  have hcbmem : coinbase ∈ block.vtx := hvtx ▸ mem_cons_self
  unfold connectTxs at htxs
  rw [hvtx] at htxs
  obtain ⟨st₁, _, _, hfirst, hrest, -⟩ := Tally.bind_eq_ok.mp htxs
  obtain ⟨hbv₂, hi, vprevout, hundo₁, hplays₁⟩ := connectTx_log hh hfirst hbv₁ (hgood coinbase hcbmem).1
    (hgood coinbase hcbmem).2 (fun _ k hk => hnone _ (mem_outpoints hcbmem hk))
  have hpos : 0 < st₁.i := by
    rw [hi]
    exact Nat.succ_pos _
  obtain ⟨hview, vtxundo, hundo₂, hlen, hplays⟩ := connectTxs_log hh hbv₂ hpos
    (fun tx htx => ⟨(hgood tx (hvtx ▸ mem_cons_of_mem _ htx)).1, (hgood tx (hvtx ▸ mem_cons_of_mem _ htx)).2,
      hrestcb tx htx⟩) hrest
  rw [roundUndo, if_pos hcb] at hplays₁
  -- The coinbase round leaves no undo data, so the undo data is that of the other rounds.
  have hundo : st.vtxundo = vtxundo := by
    rw [hundo₂, hundo₁, if_neg (lt_irrefl 0), nil_append]
  have hpairs : undoPairs block st.vtxundo = (coinbase, none) :: vtx.zip (vtxundo.map some) := by
    rw [undoPairs, hvtx, hundo, zip_cons_cons]
  rw [hpairs, ← hcoins₁]
  exact ⟨hview, by rw [hundo, hlen, hvtx, length_cons], hplays₁.append hplays⟩

lemma connectBlock_log {pindex : StoredBlock} (hh : 1 ≤ pindex.nHeight ∧ pindex.nHeight < 2 ^ 31) (hv : CacheOk view)
    (hrestorable : ∀ o coin, coinAt view o = some coin → Restorable coin)
    (h : connectBlock E pindex.block pindex.nHeight false true false view = ⟨.ok st, ss⟩)
    (hundo : pindex.vtxundo = st.vtxundo) :
    pindex.vtxundo.length + 1 = pindex.block.vtx.length ∧
      Plays pindex.nHeight (undoPairs pindex.block pindex.vtxundo) (coinAt view) (coinAt st.view) := by
  obtain ⟨_, s₀, s₁, hblock, hchecked, -⟩ := Tally.bind_eq_ok.mp h
  rw [if_neg Bool.false_ne_true] at hchecked
  obtain ⟨view₁, _, _, hbip30, hchecked, -⟩ := Tally.bind_eq_ok.mp hchecked
  rw [applyBIP30, Bool.true_or, if_pos rfl] at hbip30
  obtain ⟨st', _, _, htxs, hchecked, -⟩ := Tally.bind_eq_ok.mp hchecked
  obtain ⟨hok, -⟩ := checkBlock_ok hblock
  obtain ⟨coinbase, vtx, hvtx, -, -⟩ := hok.coinbase_first
  obtain rfl : st' = st := by
    rw [hvtx] at hchecked
    simp only [Tally.bind_eq_ok, Tally.check_eq_ok, Tally.pure_eq_ok] at hchecked
    obtain ⟨_, _, _, -, ⟨_, _, _, -, ⟨_, _, _, -, ⟨hst, -⟩, -⟩, -⟩, -⟩ := hchecked
    exact hst
  rw [hundo]
  exact (connectBlockTxs_log (by omega) hv (fun o _ => hrestorable o) hok hbip30 htxs).2

end Connecting

end Qstees.Proofs
