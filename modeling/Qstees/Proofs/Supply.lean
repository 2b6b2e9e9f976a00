import Qstees.Library.PointSum
import Qstees.Proofs.CoinsView

/-!
# The money in a coins view

When BIP30 is not enforced, a coinbase may overwrite a coin and `AddCoin` may mark an entry fresh over a base coin, so
that spending it uncovers the base coin again.
-/

namespace Qstees.Proofs

def amount : Option Coin → Int
  | none => 0
  | some coin => coin.out.nValue

variable (view : CCoinsViewCache)

noncomputable def totalValue : Int := ∑ᶠ o, amount (coinAt view o)

def hidden (o : COutPoint) : Int :=
  match view.cacheCoins[o]? with
  | none => 0
  | some e => if e.fresh then amount view.base[o]? else 0

def potentialAt (o : COutPoint) : Int := amount (coinAt view o) + hidden view o

noncomputable def potential : Int := ∑ᶠ o, potentialAt view o

/-- What connecting a block keeps of the meaning of the flags, whether BIP30 is enforced or not,
together with the signs of the amounts. -/
structure MoneyView (view : CCoinsViewCache) : Prop where
  base_unspent : ∀ (o : COutPoint) (c : Coin), view.base[o]? = some c → c.isSpent = false
  clean_base : ∀ (o : COutPoint) (e : CCoinsCacheEntry), view.cacheCoins[o]? = some e → e.dirty = false →
    visible e.coin = view.base[o]?
  base_nonneg : ∀ (o : COutPoint), 0 ≤ amount view.base[o]?
  coin_nonneg : ∀ (o : COutPoint), 0 ≤ amount (coinAt view o)

variable {view view' : CCoinsViewCache} {o : COutPoint} {coin : Coin}

lemma hidden_nonneg (hv : MoneyView view) (o : COutPoint) : 0 ≤ hidden view o := by
  unfold hidden
  cases view.cacheCoins[o]? with
  | none => exact le_rfl
  | some e =>
    dsimp only
    split_ifs
    · exact hv.base_nonneg o
    · exact le_rfl

lemma finite_keys {V : Type} (m : StdMap COutPoint V) : {o : COutPoint | m[o]? ≠ none}.Finite := by
  refine (m.keys.finite_toSet).subset ?_
  intro o ho
  have hmem : o ∈ m := Std.ExtTreeMap.mem_iff_isSome_getElem?.mpr (Option.isSome_iff_ne_none.mpr ho)
  exact Std.ExtTreeMap.mem_keys.mpr hmem

lemma coinAt_none_of_absent (hc : view.cacheCoins[o]? = none) (hb : view.base[o]? = none) :
    coinAt view o = none := by
  rw [coinAt_of_uncached hc, hb, Option.bind_none]

lemma finite_shown (view : CCoinsViewCache) : (Function.support fun o => amount (coinAt view o)).Finite := by
  refine ((finite_keys view.cacheCoins).union (finite_keys view.base)).subset ?_
  intro o ho
  by_contra hout
  simp only [Set.mem_union, Set.mem_ofPred_eq, not_or, not_not] at hout
  apply ho
  simp only [coinAt_none_of_absent hout.1 hout.2, amount]

lemma finite_potentialAt (view : CCoinsViewCache) : (Function.support (potentialAt view)).Finite := by
  refine ((finite_shown view).union (finite_keys view.cacheCoins)).subset ?_
  intro o ho
  by_contra hout
  simp only [Set.mem_union, Function.mem_support, Set.mem_ofPred_eq, not_or, not_not] at hout
  apply ho
  unfold potentialAt hidden
  rw [hout.1, hout.2]
  rfl

lemma totalValue_le_potential (hv : MoneyView view) : totalValue view ≤ potential view := by
  apply finsum_le_finsum' (finite_shown view) (finite_potentialAt view)
  intro o
  have := hidden_nonneg hv o
  change amount (coinAt view o) ≤ amount (coinAt view o) + hidden view o
  omega

lemma potential_eq_totalValue (hv : CacheOk view) : potential view = totalValue view := by
  unfold potential totalValue
  congr 1
  funext o
  have hnone : hidden view o = 0 := by
    unfold hidden
    cases he : view.cacheCoins[o]? with
    | none => rfl
    | some e =>
      dsimp only
      split_ifs with hf
      · rw [hv.fresh_base o e he hf]
        rfl
      · rfl
  rw [potentialAt, hnone, add_zero]

lemma potentialAt_congr (hbase : view'.base = view.base)
    (hcache : view'.cacheCoins[o]? = view.cacheCoins[o]?) :
    potentialAt view' o = potentialAt view o := by
  unfold potentialAt hidden
  rw [coinAt_congr hbase hcache, hcache, hbase]

lemma potential_change (hbase : view'.base = view.base)
    (hcache : ∀ o', o ≠ o' → view'.cacheCoins[o']? = view.cacheCoins[o']?) :
    potential view' = potential view + (potentialAt view' o - potentialAt view o) := by
  have hupdate : potentialAt view' = Function.update (potentialAt view) o (potentialAt view' o) := by
    funext o'
    by_cases h : o = o'
    · subst h
      rw [Function.update_self]
    · rw [Function.update_of_ne (Ne.symm h)]
      exact potentialAt_congr hbase (hcache o' h)
  unfold potential
  rw [hupdate, PointSum.finsum_update (finite_potentialAt view), Function.update_self]

lemma moneyView_change (hv : MoneyView view) (hbase : view'.base = view.base)
    (hcache : ∀ o', o ≠ o' → view'.cacheCoins[o']? = view.cacheCoins[o']?)
    (hclean : ∀ e : CCoinsCacheEntry, view'.cacheCoins[o]? = some e → e.dirty = false → visible e.coin = view.base[o]?)
    (hcoin : 0 ≤ amount (coinAt view' o)) : MoneyView view' := by
  refine ⟨by rw [hbase]; exact hv.base_unspent, ?_, by rw [hbase]; exact hv.base_nonneg, ?_⟩
  · intro o' e he hdirty
    rw [hbase]
    by_cases h : o = o'
    · subst h
      exact hclean e he hdirty
    · exact hv.clean_base o' e ((hcache o' h).symm.trans he) hdirty
  · intro o'
    by_cases h : o = o'
    · subst h
      exact hcoin
    · rw [coinAt_congr hbase (hcache o' h)]
      exact hv.coin_nonneg o'

lemma potentialAt_cached {e : CCoinsCacheEntry} (he : view.cacheCoins[o]? = some e) :
    potentialAt view o = amount (visible e.coin) + if e.fresh then amount view.base[o]? else 0 := by
  unfold potentialAt hidden
  rw [coinAt_of_cached he, he]

lemma potentialAt_uncached (hv : MoneyView view) (he : view.cacheCoins[o]? = none) :
    potentialAt view o = amount view.base[o]? := by
  unfold potentialAt hidden
  rw [coinAt_of_uncached he, he, add_zero, bind_visible (hv.base_unspent o)]

lemma fetchCoin_money (hv : MoneyView view) (o : COutPoint) :
    MoneyView (view.fetchCoin o) ∧ potential (view.fetchCoin o) = potential view := by
  have hbase := fetchCoin_base view o
  have hcache : ∀ o', o ≠ o' → (view.fetchCoin o).cacheCoins[o']? = view.cacheCoins[o']? :=
    fun o' h => fetchCoin_ne view h
  have hself := fetchCoin_self view o
  cases he : view.cacheCoins[o]? with
  | some e =>
    rw [fetchCoin_of_cached he]
    exact ⟨hv, rfl⟩
  | none =>
    rw [he] at hself
    cases hb : view.base[o]? with
    | none =>
      rw [hb] at hself
      have hview : view.fetchCoin o = view := by simp [CCoinsViewCache.fetchCoin, he, hb]
      rw [hview]
      exact ⟨hv, rfl⟩
    | some c =>
      rw [hb] at hself
      have hunspent := hv.base_unspent o c hb
      constructor
      · apply moneyView_change hv hbase hcache
        · intro e he' _
          cases hself.symm.trans he'
          rw [hb, visible_of_unspent hunspent]
        · rw [coinAt_fetchCoin]
          exact hv.coin_nonneg o
      · rw [potential_change hbase hcache, potentialAt_cached hself, potentialAt_uncached hv he, hb]
        simp [visible_of_unspent hunspent, hunspent]

lemma setEntry_money (hv : MoneyView view) (o : COutPoint) (coin : Coin) (fresh : Bool)
    (hcoin : 0 ≤ amount (visible coin)) :
    MoneyView (setEntry view o ⟨coin, true, fresh⟩) ∧
      potential (setEntry view o ⟨coin, true, fresh⟩) =
        potential view + (amount (visible coin) + (if fresh then amount view.base[o]? else 0) -
          potentialAt view o) := by
  have hcache : ∀ o', o ≠ o' → (setEntry view o ⟨coin, true, fresh⟩).cacheCoins[o']? = view.cacheCoins[o']? :=
    fun o' h => getElem?_insert_ne _ _ h
  have hself : (setEntry view o ⟨coin, true, fresh⟩).cacheCoins[o]? = some ⟨coin, true, fresh⟩ :=
    getElem?_insert_self _ _ _
  have hbase : (setEntry view o ⟨coin, true, fresh⟩).base = view.base := rfl
  constructor
  · apply moneyView_change hv hbase hcache
    · intro e he hdirty
      cases hself.symm.trans he
      cases hdirty
    · rw [coinAt_of_cached hself]
      exact hcoin
  · rw [potential_change hbase hcache, potentialAt_cached hself, hbase]

lemma dropEntry_money (hv : MoneyView view) :
    MoneyView (dropEntry view o) ∧
      potential (dropEntry view o) = potential view + (amount view.base[o]? - potentialAt view o) := by
  have hcache : ∀ o', o ≠ o' → (dropEntry view o).cacheCoins[o']? = view.cacheCoins[o']? :=
    fun o' h => getElem?_erase_ne _ h
  have hself : (dropEntry view o).cacheCoins[o]? = none := getElem?_erase_self _ _
  have hbase : (dropEntry view o).base = view.base := rfl
  have hcoin : amount (coinAt (dropEntry view o) o) = amount view.base[o]? := by
    rw [coinAt_of_uncached hself, hbase, bind_visible (hv.base_unspent o)]
  have hmoney : MoneyView (dropEntry view o) := by
    apply moneyView_change hv hbase hcache
    · intro e he
      rw [hself] at he
      cases he
    · rw [hcoin]
      exact hv.base_nonneg o
  refine ⟨hmoney, ?_⟩
  rw [potential_change hbase hcache, potentialAt_uncached hmoney hself, hbase]

lemma amount_visible (h : coin.isSpent = false) : amount (visible coin) = coin.out.nValue := by
  rw [visible_of_unspent h]
  rfl

lemma fresh_le_potentialAt (hv : MoneyView view) (o : COutPoint) (overwrite : Bool) :
    (if (entryAt view o).fresh || (!overwrite && !(entryAt view o).dirty) then amount view.base[o]? else 0) ≤
      potentialAt view o := by
  have hbase := hv.base_nonneg o
  have hcoin := hv.coin_nonneg o
  unfold entryAt
  cases he : view.cacheCoins[o]? with
  | none =>
    rw [potentialAt_uncached hv he]
    split_ifs <;> omega
  | some e =>
    rw [coinAt_of_cached he] at hcoin
    rw [potentialAt_cached he]
    simp only [Option.getD_some]
    by_cases hf : e.fresh = true
    · simp only [hf, Bool.true_or, if_true]
      omega
    · by_cases hd : e.dirty = true
      · simp only [hf, hd, Bool.not_true, Bool.and_false, Bool.or_false]
        omega
      · -- A clean entry agrees with the base, so the base coin is the one shown.
        rw [hv.clean_base o e he (by simpa using hd)] at hcoin ⊢
        split_ifs <;> omega

lemma addCoin_money (hv : MoneyView view) {overwrite : Bool} (hvalue : 0 ≤ coin.out.nValue)
    (h : view.addCoin o coin overwrite = .ok view') :
    MoneyView view' ∧ potential view' ≤ potential view + coin.out.nValue := by
  cases hs : isUnspendable coin.out.scriptPubKey with
  | true =>
    rw [addCoin_unspendable hs h]
    exact ⟨hv, by omega⟩
  | false =>
    obtain ⟨hunspent, -, rfl⟩ := addCoin_eq_ok hs h
    obtain ⟨hmoney, hpotential⟩ := setEntry_money hv o coin ((entryAt view o).fresh ||
      (!overwrite && !(entryAt view o).dirty)) (by rw [amount_visible hunspent]; exact hvalue)
    have hle := fresh_le_potentialAt hv o overwrite
    refine ⟨hmoney, ?_⟩
    rw [hpotential, amount_visible hunspent]
    omega

lemma spendCoin_money (hv : MoneyView view) (h : coinAt view o = some coin) :
    ∃ view', view.spendCoin o = (true, coin, view') ∧ MoneyView view' ∧
      potential view' = potential view - coin.out.nValue ∧ ∀ o', o ≠ o' → coinAt view' o' = coinAt view o' := by
  obtain ⟨e, he, rfl⟩ := cached_of_coinAt h
  have hvalue : amount (visible e.coin) = e.coin.out.nValue := amount_visible (coinAt_unspent h).1
  obtain ⟨hmoney, hpotential⟩ := fetchCoin_money hv o
  have hat := potentialAt_cached he
  rw [hvalue] at hat
  have hother : ∀ o', o ≠ o' → coinAt (view.spendCoin o).2.2 o' = coinAt view o' :=
    fun o' ho => coinAt_congr (spendCoin_base view o) (spendCoin_ne view ho)
  unfold CCoinsViewCache.spendCoin at hother ⊢
  simp only [he] at hother ⊢
  refine ⟨_, rfl, ?_⟩
  cases hf : e.fresh with
  | true =>
    rw [hf] at hother
    obtain ⟨hdrop, hdroppot⟩ := dropEntry_money hmoney
    refine ⟨hdrop, ?_, hother⟩
    rw [hf, if_pos rfl] at hat
    change potential (dropEntry (view.fetchCoin o) o) = _
    omega
  | false =>
    rw [hf] at hother
    obtain ⟨hset, hsetpot⟩ := setEntry_money hmoney o .empty false le_rfl
    refine ⟨hset, ?_, hother⟩
    rw [hf, if_neg Bool.false_ne_true] at hat
    rw [visible_empty, if_neg Bool.false_ne_true] at hsetpot
    change potential (setEntry (view.fetchCoin o) o _) = _
    rw [hsetpot]
    simp only [amount]
    omega

end Qstees.Proofs
