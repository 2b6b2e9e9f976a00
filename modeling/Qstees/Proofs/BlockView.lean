import Qstees.Library.Journal
import Qstees.Proofs.CoinsView

/-!
# A view while a block is connected

The coins that a transaction creates are a journal over the set of coins that the view stands for.
-/

namespace Qstees.Proofs

open List

open Journal (redo Legal)

abbrev CoinEntry := Journal.Entry COutPoint (Option Coin)

def outputLog (tx : CTransaction) (nHeight : Int) : Nat → List CTxOut → List CoinEntry
  | _, [] => []
  | n, out :: vout =>
    if isUnspendable out.scriptPubKey then outputLog tx nHeight (n + 1) vout
    else ⟨⟨tx.hash, n⟩, none, some (.ofOut out nHeight tx.isCoinBase)⟩ :: outputLog tx nHeight (n + 1) vout

lemma outpoint_ne {h k n : Nat} (hk : k < n) : (⟨h, n⟩ : COutPoint) ≠ ⟨h, k⟩ := by
  intro heq
  injection heq with _ hn
  omega

lemma notMem_keys_outputLog {tx : CTransaction} {nHeight : Int} {vout : List CTxOut} {n k : Nat} (hk : k < n) :
    (⟨tx.hash, k⟩ : COutPoint) ∉ Journal.keys (outputLog tx nHeight n vout) := by
  induction vout generalizing n with
  | nil => exact not_mem_nil
  | cons out vout ih =>
    unfold outputLog
    split_ifs
    · exact ih (by omega)
    · rw [Journal.keys, map_cons, mem_cons, not_or]
      exact ⟨(outpoint_ne hk).symm, ih (by omega)⟩

/-- What a spent coin needs to be restored as it was: the height 0 means that the undo data
lacks one, and unspendable coins are not added. -/
def Restorable (coin : Coin) : Prop := coin.nHeight ≠ 0 ∧ isUnspendable coin.out.scriptPubKey = false

/-- A view while a block is connected. `outs` are the outpoints the block creates and `ins` those
it spends: a coin shown at one of `outs` is cached, so that `AddCoin` notices it, and a coin
shown at one of `ins` can be restored. -/
structure BlockView (outs ins : List COutPoint) (view : CCoinsViewCache) : Prop extends CacheOk view where
  cached : ∀ o ∈ outs, coinAt view o ≠ none → view.cacheCoins[o]? ≠ none
  restorable : ∀ o ∈ ins, ∀ coin, coinAt view o = some coin → Restorable coin

section BlockView

variable {outs ins : List COutPoint}

variable {view view' : CCoinsViewCache} {o : COutPoint} {coin : Coin}

lemma fetchCoin_cached {o' : COutPoint} (h : view.cacheCoins[o']? ≠ none) :
    (view.fetchCoin o).cacheCoins[o']? ≠ none := by
  by_cases ho : o = o'
  · subst ho
    obtain ⟨e, he⟩ := Option.ne_none_iff_exists'.mp h
    rwa [fetchCoin_of_cached he]
  · rwa [fetchCoin_ne view ho]

section

variable (hv : BlockView outs ins view)
include hv

lemma fetchCoin_blockView (o : COutPoint) :
    BlockView outs ins (view.fetchCoin o) := by
  refine ⟨fetchCoin_ok hv.toCacheOk o, ?_, ?_⟩
  · intro o' ho' hne
    rw [coinAt_fetchCoin] at hne
    exact fetchCoin_cached (hv.cached o' ho' hne)
  · intro o' ho' coin hcoin
    rw [coinAt_fetchCoin] at hcoin
    exact hv.restorable o' ho' coin hcoin

lemma foldl_fetchCoin (os : List COutPoint) :
    BlockView outs ins (os.foldl CCoinsViewCache.fetchCoin view) ∧
      coinAt (os.foldl CCoinsViewCache.fetchCoin view) = coinAt view := by
  exact ⟨List.foldlRecOn os _ hv fun _ hv o _ => fetchCoin_blockView hv o, coinAt_foldl_fetchCoin view os⟩

lemma spendCoin_blockView (h : coinAt view o = some coin) :
    ∃ view', view.spendCoin o = (true, coin, view') ∧ BlockView outs ins view' ∧
      coinAt view' = Function.update (coinAt view) o none := by
  obtain ⟨view', hspend, hok, hcoins⟩ := spendCoin_spec hv.toCacheOk h
  have hother : ∀ o', coinAt view' o' ≠ none → o ≠ o' ∧ coinAt view' o' = coinAt view o' := by
    intro o' hne
    have ho : o ≠ o' := by
      rintro rfl
      exact hne (by rw [hcoins, Function.update_self])
    exact ⟨ho, by rw [hcoins, Function.update_of_ne ho.symm]⟩
  refine ⟨view', hspend, ⟨hok, ?_, ?_⟩, hcoins⟩
  · intro o' ho' hne
    obtain ⟨ho, heq⟩ := hother o' hne
    have hcache := spendCoin_ne view ho
    rw [hspend] at hcache
    rw [hcache]
    exact hv.cached o' ho' (heq ▸ hne)
  · intro o' ho' c hc
    obtain ⟨-, heq⟩ := hother o' (by rw [hc]; exact Option.some_ne_none c)
    exact hv.restorable o' ho' c (heq ▸ hc)

lemma coinAt_none_of_addCoin (ho : o ∈ outs)
    (hs : isUnspendable coin.out.scriptPubKey = false) (h : view.addCoin o coin false = .ok view') :
    coinAt view o = none := by
  by_contra hne
  obtain ⟨e, he⟩ := Option.ne_none_iff_exists'.mp (hv.cached o ho hne)
  have hspent := (addCoin_eq_ok hs h).2.1 rfl
  unfold entryAt at hspent
  rw [he] at hspent
  apply hne
  rw [coinAt_of_cached he]
  exact if_pos hspent

lemma addCoin_blockView {overwrite : Bool} (hr : Restorable coin)
    (hnone : coinAt view o = none) (h : view.addCoin o coin overwrite = .ok view') :
    BlockView outs ins view' ∧ coinAt view' = Function.update (coinAt view) o (some coin) := by
  obtain ⟨hok, hcoins⟩ := addCoin_spec hv.toCacheOk hr.2 hnone h
  obtain ⟨-, -, rfl⟩ := addCoin_eq_ok hr.2 h
  refine ⟨⟨hok, ?_, ?_⟩, hcoins⟩
  · intro o' ho' hne
    by_cases heq : o = o'
    · subst heq
      simp [setEntry]
    · rw [hcoins, Function.update_of_ne (Ne.symm heq)] at hne
      have hcache := getElem?_insert_ne view.cacheCoins ⟨coin, true, (entryAt view o).fresh ||
        (!overwrite && !(entryAt view o).dirty)⟩ heq
      exact hcache ▸ hv.cached o' ho' hne
  · intro o' ho' c hc
    rw [hcoins] at hc
    by_cases heq : o' = o
    · subst heq
      rw [Function.update_self] at hc
      cases hc
      exact hr
    · rw [Function.update_of_ne heq] at hc
      exact hv.restorable o' ho' c hc

end

lemma addCoinsFrom_spec {tx : CTransaction} {nHeight : Int} (hh : 1 ≤ nHeight ∧ nHeight < 2 ^ 31)
    {vout : List CTxOut} {n : Nat} (hv : BlockView outs ins view)
    (houts : ∀ k, n ≤ k → k < n + vout.length → ⟨tx.hash, k⟩ ∈ outs)
    (hcb : tx.isCoinBase = true → ∀ k, n ≤ k → k < n + vout.length → coinAt view ⟨tx.hash, k⟩ = none)
    (h : addCoinsFrom tx nHeight n vout view = .ok view') :
    BlockView outs ins view' ∧ Legal (coinAt view) (outputLog tx nHeight n vout) ∧
      coinAt view' = redo (outputLog tx nHeight n vout) (coinAt view) := by
  induction vout generalizing n view with
  | nil =>
    cases h
    exact ⟨hv, trivial, rfl⟩
  | cons out vout ih =>
    unfold addCoinsFrom at h
    obtain ⟨view₁, hadd, hrest⟩ := ok_of_bind h
    rw [length_cons] at houts hcb
    have houts' : ∀ k, n + 1 ≤ k → k < n + 1 + vout.length → ⟨tx.hash, k⟩ ∈ outs :=
      fun k hlo hhi => houts k (by omega) (by omega)
    unfold outputLog
    cases hs : isUnspendable out.scriptPubKey with
    | true =>
      obtain rfl := addCoin_unspendable hs hadd
      exact ih hv houts' (fun hc k hlo hhi => hcb hc k (by omega) (by omega)) hrest
    | false =>
      have hnone : coinAt view ⟨tx.hash, n⟩ = none := by
        cases hc : tx.isCoinBase with
        | true => exact hcb hc n le_rfl (by omega)
        | false =>
          rw [hc] at hadd
          exact coinAt_none_of_addCoin hv (houts n le_rfl (by omega)) hs hadd
      have hr : Restorable (.ofOut out nHeight tx.isCoinBase) := by
        refine ⟨?_, hs⟩
        simp only [Coin.ofOut]
        omega
      obtain ⟨hv₁, hcoins₁⟩ := addCoin_blockView hv hr hnone hadd
      have hcb₁ : tx.isCoinBase = true → ∀ k, n + 1 ≤ k → k < n + 1 + vout.length →
        coinAt view₁ ⟨tx.hash, k⟩ = none := by
        intro hc k hlo hhi
        rw [hcoins₁, Function.update_of_ne (outpoint_ne (by omega))]
        exact hcb hc k (by omega) (by omega)
      obtain ⟨hv', hlegal, hcoins⟩ := ih hv₁ houts' hcb₁ hrest
      rw [hcoins₁] at hlegal hcoins
      exact ⟨hv', ⟨hnone, hlegal⟩, hcoins⟩

end BlockView

end Qstees.Proofs
