import Qstees.Model.Coins

/-!
# What a coins view shows

`coinAt` is the set of unspent coins a view stands for.
-/

namespace Qstees.Proofs

open CCoinsViewCache

def visible (coin : Coin) : Option Coin := if coin.isSpent then none else some coin

variable {coin c : Coin} {o : COutPoint} {view view' : CCoinsViewCache} {overwrite : Bool}

lemma visible_of_unspent (h : coin.isSpent = false) : visible coin = some coin := by
  simp [visible, h]

lemma visible_empty : visible Coin.empty = none := rfl

lemma bind_visible {shown : Option Coin} (h : ∀ c, shown = some c → c.isSpent = false) :
    shown.bind visible = shown := by
  cases shown with
  | none => rfl
  | some c => exact visible_of_unspent (h c rfl)

def coinAt (view : CCoinsViewCache) (o : COutPoint) : Option Coin := visible (view.accessCoin o)

/-- The meaning of the flags: a fresh entry hides nothing below it, and an entry that is not
dirty agrees with the base. The base holds unspent coins only. -/
structure CacheOk (view : CCoinsViewCache) : Prop where
  base_unspent : ∀ (o : COutPoint) (c : Coin), view.base[o]? = some c → c.isSpent = false
  fresh_base : ∀ (o : COutPoint) (e : CCoinsCacheEntry), view.cacheCoins[o]? = some e → e.fresh = true →
    view.base[o]? = none
  clean_base : ∀ (o : COutPoint) (e : CCoinsCacheEntry), view.cacheCoins[o]? = some e → e.dirty = false →
    visible e.coin = view.base[o]?

section Insert

variable {V : Type} (m : StdMap COutPoint V)

lemma getElem?_insert_self (o : COutPoint) (v : V) : (m.insert o v)[o]? = some v := by
  simp

lemma getElem?_insert_ne {o o' : COutPoint} (v : V) (h : o ≠ o') :
    (m.insert o v)[o']? = m[o']? := by
  rw [Std.ExtTreeMap.getElem?_insert, if_neg]
  simpa using h

lemma getElem?_erase_self (o : COutPoint) : (m.erase o)[o]? = none := by
  simp

lemma getElem?_erase_ne {o o' : COutPoint} (h : o ≠ o') : (m.erase o)[o']? = m[o']? := by
  rw [Std.ExtTreeMap.getElem?_erase, if_neg]
  simpa using h

end Insert

lemma fetchCoin_base (view : CCoinsViewCache) (o : COutPoint) : (view.fetchCoin o).base = view.base := by
  unfold fetchCoin
  cases view.cacheCoins[o]? with
  | some e => rfl
  | none =>
    cases view.base[o]? with
    | none => rfl
    | some c => rfl

lemma fetchCoin_ne (view : CCoinsViewCache) {o' : COutPoint} (h : o ≠ o') :
    (view.fetchCoin o).cacheCoins[o']? = view.cacheCoins[o']? := by
  unfold fetchCoin
  cases view.cacheCoins[o]? with
  | some e => rfl
  | none =>
    cases view.base[o]? with
    | none => rfl
    | some c => exact getElem?_insert_ne _ _ h

lemma fetchCoin_self (view : CCoinsViewCache) (o : COutPoint) :
    (view.fetchCoin o).cacheCoins[o]? = match view.cacheCoins[o]? with
      | some e => some e
      | none => (view.base[o]?).map (fun c => ⟨c, false, c.isSpent⟩) := by
  unfold fetchCoin
  cases he : view.cacheCoins[o]? with
  | some e => exact he
  | none =>
    cases view.base[o]? with
    | none => exact he
    | some c => exact getElem?_insert_self _ _ _

lemma fetchCoin_of_cached {e : CCoinsCacheEntry} (he : view.cacheCoins[o]? = some e) :
    view.fetchCoin o = view := by
  simp [fetchCoin, he]

lemma coinAt_of_cached {e : CCoinsCacheEntry} (he : view.cacheCoins[o]? = some e) :
    coinAt view o = visible e.coin := by
  simp [coinAt, accessCoin, fetchCoin_of_cached he, he]

lemma coinAt_of_uncached (he : view.cacheCoins[o]? = none) :
    coinAt view o = (view.base[o]?).bind visible := by
  unfold coinAt accessCoin
  rw [fetchCoin_self, he]
  cases view.base[o]? with
  | none => rfl
  | some c => rfl

lemma haveCoin_eq (view : CCoinsViewCache) (o : COutPoint) : view.haveCoin o = (coinAt view o).isSome := by
  unfold haveCoin coinAt visible
  cases (view.accessCoin o).isSpent with
  | true => rfl
  | false => rfl

lemma coinAt_unspent (h : coinAt view o = some c) : c.isSpent = false ∧ view.accessCoin o = c := by
  unfold coinAt visible at h
  split_ifs at h with hs
  cases h
  exact ⟨by simpa using hs, rfl⟩

lemma coinAt_congr (hbase : view'.base = view.base)
    (hcache : view'.cacheCoins[o]? = view.cacheCoins[o]?) : coinAt view' o = coinAt view o := by
  cases he : view.cacheCoins[o]? with
  | some e => rw [coinAt_of_cached he, coinAt_of_cached (hcache.trans he)]
  | none => rw [coinAt_of_uncached he, coinAt_of_uncached (hcache.trans he), hbase]

lemma coinAt_fetchCoin (view : CCoinsViewCache) (o o' : COutPoint) :
    coinAt (view.fetchCoin o) o' = coinAt view o' := by
  by_cases h : o = o'
  · subst h
    cases he : view.cacheCoins[o]? with
    | some e => rw [fetchCoin_of_cached he]
    | none =>
      have hself := fetchCoin_self view o
      rw [he] at hself
      rw [coinAt_of_uncached he]
      cases hb : view.base[o]? with
      | none =>
        rw [hb] at hself
        rw [coinAt_of_uncached hself, fetchCoin_base, hb]
      | some c =>
        rw [hb] at hself
        rw [coinAt_of_cached hself]
        rfl
  · exact coinAt_congr (fetchCoin_base view o) (fetchCoin_ne view h)

lemma CacheOk.entries (hv : CacheOk view) (hbase : view'.base = view.base)
    (hentry : ∀ (o : COutPoint) (e : CCoinsCacheEntry), view'.cacheCoins[o]? = some e → view.cacheCoins[o]? = some e ∨
      (e.fresh = true → view.base[o]? = none) ∧ (e.dirty = false → visible e.coin = view.base[o]?)) :
        CacheOk view' := by
  refine ⟨by rw [hbase]; exact hv.base_unspent, fun o e he hfresh => ?_, fun o e he hclean => ?_⟩
  · rw [hbase]
    rcases hentry o e he with hold | hnew
    · exact hv.fresh_base o e hold hfresh
    · exact hnew.1 hfresh
  · rw [hbase]
    rcases hentry o e he with hold | hnew
    · exact hv.clean_base o e hold hclean
    · exact hnew.2 hclean

lemma fetchCoin_ok (hv : CacheOk view) (o : COutPoint) : CacheOk (view.fetchCoin o) := by
  refine hv.entries (fetchCoin_base view o) fun o' e he => ?_
  by_cases h : o = o'
  · subst h
    rw [fetchCoin_self] at he
    cases hc : view.cacheCoins[o]? with
    | some e' => exact .inl (by rw [hc] at he; exact he)
    | none =>
      rw [hc] at he
      obtain ⟨c, hb, rfl⟩ := Option.map_eq_some_iff.mp he
      have hunspent := hv.base_unspent o c hb
      exact .inr ⟨fun hfresh => absurd (hunspent.symm.trans hfresh) Bool.false_ne_true,
        fun _ => (visible_of_unspent hunspent).trans hb.symm⟩
  · rw [fetchCoin_ne view h] at he
    exact .inl he

lemma coinAt_foldl_fetchCoin (view : CCoinsViewCache) (os : List COutPoint) :
    coinAt (os.foldl fetchCoin view) = coinAt view := by
  refine List.foldlRecOn (motive := fun v => coinAt v = coinAt view) os _ rfl fun v hv o _ => ?_
  exact (funext (coinAt_fetchCoin v o)).trans hv

lemma fetchInputs_eq (view : CCoinsViewCache) (tx : CTransaction) :
    view.fetchInputs tx = (tx.vin.map CTxIn.prevout).foldl fetchCoin view := by
  rw [fetchInputs, List.foldl_map]

def entryAt (view : CCoinsViewCache) (o : COutPoint) : CCoinsCacheEntry :=
  (view.cacheCoins[o]?).getD ⟨.empty, false, false⟩

def setEntry (view : CCoinsViewCache) (o : COutPoint) (e : CCoinsCacheEntry) : CCoinsViewCache :=
  { view with cacheCoins := view.cacheCoins.insert o e }

def dropEntry (view : CCoinsViewCache) (o : COutPoint) : CCoinsViewCache :=
  { view with cacheCoins := view.cacheCoins.erase o }

lemma addCoin_eq_ok (hs : isUnspendable coin.out.scriptPubKey = false)
    (h : view.addCoin o coin overwrite = .ok view') :
    coin.isSpent = false ∧ (overwrite = false → (entryAt view o).coin.isSpent = true) ∧
      view' = setEntry view o ⟨coin, true, (entryAt view o).fresh || (!overwrite && !(entryAt view o).dirty)⟩ := by
  unfold addCoin at h
  simp only [hs, Bool.false_eq_true, if_false] at h
  split_ifs at h with hspent hover
  refine ⟨by simpa using hspent, ?_, (Except.ok.inj h).symm⟩
  intro ho
  subst ho
  simpa [entryAt] using hover

lemma addCoin_unspendable (hs : isUnspendable coin.out.scriptPubKey = true)
    (h : view.addCoin o coin overwrite = .ok view') : view' = view := by
  unfold addCoin at h
  rw [hs] at h
  simp only [if_true] at h
  split_ifs at h
  exact (Except.ok.inj h).symm

lemma addCoin_of_none (overwrite : Bool) (hv : coinAt view o = none) (hc : coin.isSpent = false) :
    ∃ view', view.addCoin o coin overwrite = .ok view' := by
  have hentry : (entryAt view o).coin.isSpent = true := by
    unfold entryAt
    cases he : view.cacheCoins[o]? with
    | none => rfl
    | some e =>
      rw [coinAt_of_cached he] at hv
      by_contra hne
      rw [visible_of_unspent (by simpa using hne)] at hv
      cases hv
  unfold entryAt at hentry
  unfold addCoin
  simp [hc, hentry]
  split_ifs with hu
  · exact ⟨_, rfl⟩
  · exact ⟨_, rfl⟩

lemma coinAt_insert (view : CCoinsViewCache) (o : COutPoint) (e : CCoinsCacheEntry) :
    coinAt (setEntry view o e) = Function.update (coinAt view) o (visible e.coin) := by
  funext o'
  by_cases h : o = o'
  · subst h
    rw [Function.update_self]
    exact coinAt_of_cached (getElem?_insert_self _ _ _)
  · rw [Function.update_of_ne (Ne.symm h)]
    exact coinAt_congr rfl (getElem?_insert_ne _ _ h)

lemma insert_ok (hv : CacheOk view) {fresh : Bool} (hf : fresh = true → view.base[o]? = none) :
    CacheOk (setEntry view o ⟨coin, true, fresh⟩) := by
  refine hv.entries rfl fun o' e he => ?_
  by_cases h : o = o'
  · subst h
    obtain rfl := Option.some.inj ((getElem?_insert_self _ _ _).symm.trans he)
    exact .inr ⟨hf, fun hclean => by cases hclean⟩
  · exact .inl ((getElem?_insert_ne _ _ h).symm.trans he)

lemma CacheOk.entry_fresh (hv : CacheOk view) (hf : (entryAt view o).fresh = true) : view.base[o]? = none := by
  unfold entryAt at hf
  cases he : view.cacheCoins[o]? with
  | none =>
    rw [he] at hf
    cases hf
  | some e =>
    rw [he] at hf
    exact hv.fresh_base o e he hf

lemma base_none_of_clean (hv : CacheOk view) (hnone : coinAt view o = none)
    (hclean : (entryAt view o).dirty = false) : view.base[o]? = none := by
  unfold entryAt at hclean
  cases he : view.cacheCoins[o]? with
  | some e =>
    rw [he] at hclean
    rw [← hv.clean_base o e he hclean, ← coinAt_of_cached he, hnone]
  | none =>
    rwa [coinAt_of_uncached he, bind_visible (hv.base_unspent o)] at hnone

lemma addCoin_spec (hv : CacheOk view) (hs : isUnspendable coin.out.scriptPubKey = false)
    (hnone : coinAt view o = none) (h : view.addCoin o coin overwrite = .ok view') :
    CacheOk view' ∧ coinAt view' = Function.update (coinAt view) o (some coin) := by
  obtain ⟨hc, -, rfl⟩ := addCoin_eq_ok hs h
  constructor
  · apply insert_ok hv
    intro hfresh
    rcases Bool.or_eq_true_iff.mp hfresh with hf | hf
    · exact hv.entry_fresh hf
    · simp only [Bool.and_eq_true, Bool.not_eq_true'] at hf
      exact base_none_of_clean hv hnone hf.2
  · rw [coinAt_insert, visible_of_unspent hc]

lemma coinAt_erase_fresh (hb : view.base[o]? = none) :
    coinAt (dropEntry view o) = Function.update (coinAt view) o none := by
  funext o'
  by_cases h : o = o'
  · subst h
    rw [Function.update_self, coinAt_of_uncached (getElem?_erase_self _ _)]
    simp only [dropEntry, hb, Option.bind_none]
  · rw [Function.update_of_ne (Ne.symm h)]
    exact coinAt_congr rfl (getElem?_erase_ne _ h)

lemma erase_ok (hv : CacheOk view) (o : COutPoint) : CacheOk (dropEntry view o) := by
  refine hv.entries rfl fun o' e he => .inl ?_
  change (view.cacheCoins.erase o)[o']? = some e at he
  by_cases h : o = o'
  · subst h
    rw [getElem?_erase_self] at he
    cases he
  · rwa [getElem?_erase_ne _ h] at he

lemma cached_of_coinAt (h : coinAt view o = some c) :
    ∃ e, (view.fetchCoin o).cacheCoins[o]? = some e ∧ e.coin = c := by
  have hacc := (coinAt_unspent h).2
  have hunspent := (coinAt_unspent h).1
  unfold accessCoin at hacc
  cases he : (view.fetchCoin o).cacheCoins[o]? with
  | some e => exact ⟨e, rfl, by rw [he] at hacc; exact hacc⟩
  | none =>
    rw [he] at hacc
    subst hacc
    cases hunspent

lemma spendCoin_base (view : CCoinsViewCache) (o : COutPoint) : (view.spendCoin o).2.2.base = view.base := by
  rw [← fetchCoin_base view o]
  unfold spendCoin
  dsimp only
  cases (view.fetchCoin o).cacheCoins[o]? with
  | none => rfl
  | some e => rfl

lemma spendCoin_ne (view : CCoinsViewCache) {o' : COutPoint} (h : o ≠ o') :
    (view.spendCoin o).2.2.cacheCoins[o']? = view.cacheCoins[o']? := by
  rw [← fetchCoin_ne view h]
  unfold spendCoin
  dsimp only
  cases (view.fetchCoin o).cacheCoins[o]? with
  | none => rfl
  | some e =>
    dsimp only
    split_ifs
    · exact getElem?_erase_ne _ h
    · exact getElem?_insert_ne _ _ h

lemma spendCoin_ok (hv : CacheOk view) (o : COutPoint) :
    CacheOk (view.spendCoin o).2.2 ∧ coinAt (view.spendCoin o).2.2 = Function.update (coinAt view) o none := by
  have hok := fetchCoin_ok hv o
  have hsame : coinAt (view.fetchCoin o) = coinAt view := funext (coinAt_fetchCoin view o)
  unfold spendCoin
  cases he : (view.fetchCoin o).cacheCoins[o]? with
  | none =>
    have hnone : coinAt view o = none := by
      cases hcoin : coinAt view o with
      | none => rfl
      | some c =>
        obtain ⟨e, hcached, -⟩ := cached_of_coinAt hcoin
        cases he.symm.trans hcached
    simp only [he]
    rw [← hnone, Function.update_eq_self]
    exact ⟨hok, hsame⟩
  | some e =>
    simp only [he]
    rw [← hsame]
    cases hf : e.fresh with
    | true => exact ⟨erase_ok hok o, coinAt_erase_fresh (hok.fresh_base o e he hf)⟩
    | false => exact ⟨insert_ok hok (fun hfresh => by cases hfresh), coinAt_insert _ o _⟩

lemma spendCoin_spec (hv : CacheOk view) (h : coinAt view o = some c) :
    ∃ view', view.spendCoin o = (true, c, view') ∧ CacheOk view' ∧
      coinAt view' = Function.update (coinAt view) o none := by
  obtain ⟨e, he, rfl⟩ := cached_of_coinAt h
  refine ⟨(view.spendCoin o).2.2, ?_, spendCoin_ok hv o⟩
  unfold spendCoin
  simp only [he]

end Qstees.Proofs
