import Qstees.Library.WriteBack
import Qstees.Model.CoinsStack
import Qstees.Proofs.DbFlush

/-!
# A stack of caches is a stack of maps

Each cache is a level of write-back lines over what the caches below it show.
-/

namespace Qstees.Proofs

open WriteBack List

def lineOf (entry : CCoinsCacheEntry) : Line Coin := ⟨visible entry.coin, entry.dirty, entry.fresh⟩

def linesOf (cache : CCoinsMap) (o : COutPoint) : Option (Line Coin) := (cache[o]?).map lineOf

variable {cache : CCoinsMap}

lemma linesOf_of_some {o : COutPoint} {entry : CCoinsCacheEntry} (h : cache[o]? = some entry) :
    linesOf cache o = some (lineOf entry) := by
  rw [linesOf, h, Option.map_some]

lemma linesOf_eq_none {o : COutPoint} : linesOf cache o = none ↔ cache[o]? = none := Option.map_eq_none_iff

lemma linesOf_empty : linesOf ∅ = fun _ => none := by
  funext o
  simp [linesOf]

lemma linesOf_insert (o : COutPoint) (entry : CCoinsCacheEntry) :
    linesOf (cache.insert o entry) = Function.update (linesOf cache) o (some (lineOf entry)) := by
  funext o'
  by_cases ho : o' = o
  · subst ho
    rw [Function.update_self, linesOf, getElem?_insert_self, Option.map_some]
  · rw [Function.update_of_ne ho, linesOf, getElem?_insert_ne _ _ (Ne.symm ho), linesOf]

lemma linesOf_erase (o : COutPoint) :
    linesOf (cache.erase o) = Function.update (linesOf cache) o none := by
  funext o'
  by_cases ho : o' = o
  · subst ho
    rw [Function.update_self, linesOf, getElem?_erase_self, Option.map_none]
  · rw [Function.update_of_ne ho, linesOf, getElem?_erase_ne _ (Ne.symm ho), linesOf]

lemma visible_isNone (coin : Coin) : (visible coin).isNone = coin.isSpent := by
  unfold visible
  cases coin.isSpent with
  | false => rfl
  | true => rfl

lemma visible_isSome (coin : Coin) : (visible coin).isSome = !coin.isSpent := by
  rw [← visible_isNone, Option.not_isNone]

lemma visible_bind (coin : Coin) : (visible coin).bind visible = visible coin := by
  unfold visible
  split_ifs with h
  · rfl
  · simp [h]

abbrev CoinMap := COutPoint → Option Coin

/-- The maps that a stack of caches stands for, the topmost first, and the one below them. -/
structure CoinMaps where
  views : List CoinMap
  base : CoinMap

namespace CoinMaps

variable (maps : CoinMaps)

def top : CoinMap := maps.views.headD maps.base

def setTop (f : CoinMap → CoinMap) : CoinMaps :=
  match maps.views with
  | [] => maps
  | view :: views => ⟨f view :: views, maps.base⟩

def copyDown : List CoinMap → CoinMap → CoinMaps
  | [], base => ⟨[], base⟩
  | [view], _ => ⟨[view], view⟩
  | view :: _ :: views, base => ⟨view :: view :: views, base⟩

def step : CoinsCall → CoinMaps
  | .addCoin outpoint coin _ =>
    if isUnspendable coin.out.scriptPubKey then maps
      else maps.setTop (fun view => Function.update view outpoint (some coin))
  | .spendCoin outpoint => maps.setTop (fun view => Function.update view outpoint none)
  | .read _ _ => maps
  | .uncache _ _ => maps
  | .newCache => ⟨maps.top :: maps.views, maps.base⟩
  | .flush level =>
    let lower := copyDown (maps.views.drop level) maps.base
    ⟨maps.views.take level ++ lower.views, lower.base⟩
  | .deleteCache => ⟨maps.views.tail, maps.base⟩

def run (calls : List CoinsCall) : CoinMaps := calls.foldl step maps

/-- No coin is added over another without the flag. -/
def Allows : CoinsCall → Prop
  | .addCoin outpoint _ possible_overwrite => possible_overwrite = false → maps.top outpoint = none
  | _ => True

def AllowsAll (maps : CoinMaps) : List CoinsCall → Prop
  | [] => True
  | call :: calls => maps.Allows call ∧ (maps.step call).AllowsAll calls

end CoinMaps

/-- A bottom view that keeps a set of coins: lookups show them, and a batch writes its dirty entries. -/
structure BottomView {σ : Type} (E : CoinsEnv σ) where
  content : σ → CoinMap
  get_shown : ∀ s o, (E.getCoin s o).1.bind visible = content s o
  get_content : ∀ s o, content (E.getCoin s o).2 = content s
  write_content : ∀ s mapCoins, content (E.batchWrite s mapCoins) = flushed mapCoins (content s)

inductive LevelsShow (base : CoinMap) : List CCoinsMap → List CoinMap → Prop
  | nil : LevelsShow base [] []
  | cons {cache : CCoinsMap} {caches : List CCoinsMap} {views : List CoinMap} (lower : LevelsShow base caches views)
      (sound : WriteBack.Sound (views.headD base) (linesOf cache)) :
      LevelsShow base (cache :: caches) (view (views.headD base) (linesOf cache) :: views)

section Levels

variable {base : CoinMap} {cache : CCoinsMap} {caches : List CCoinsMap} {views : List CoinMap} {o : COutPoint}

lemma LevelsShow.insert (lower : LevelsShow base caches views)
    (sound : WriteBack.Sound (views.headD base) (linesOf cache))
    {entry : CCoinsCacheEntry} (hline : (lineOf entry).Sound (views.headD base o)) :
    LevelsShow base (cache.insert o entry :: caches)
      (Function.update (view (views.headD base) (linesOf cache)) o (visible entry.coin) :: views) := by
  have hsound := sound.put hline
  rw [← linesOf_insert] at hsound
  have hlevels := LevelsShow.cons lower hsound
  rw [linesOf_insert, view_put] at hlevels
  exact hlevels

lemma LevelsShow.erase (lower : LevelsShow base caches views)
    (sound : WriteBack.Sound (views.headD base) (linesOf cache)) (o : COutPoint) :
    LevelsShow base (cache.erase o :: caches)
      (Function.update (view (views.headD base) (linesOf cache)) o (views.headD base o) :: views) := by
  have hsound := sound.drop (k := o)
  rw [← linesOf_erase] at hsound
  have hlevels := LevelsShow.cons lower hsound
  rw [linesOf_erase, view_drop] at hlevels
  exact hlevels

lemma LevelsShow.push (lower : LevelsShow base caches views) :
    LevelsShow base (∅ :: caches) (views.headD base :: views) := by
  have hsound : WriteBack.Sound (views.headD base) (linesOf ∅) := by
    rw [linesOf_empty]
    exact sound_empty
  have hlevels := LevelsShow.cons lower hsound
  rw [linesOf_empty, view_empty] at hlevels
  exact hlevels

end Levels

section Refinement

variable {σ : Type} {E : CoinsEnv σ} (B : BottomView E)

/-- The stack shows these maps, level by level. -/
structure StackShows (stack : CoinsStack σ) (maps : CoinMaps) : Prop where
  base : B.content stack.base = maps.base
  levels : LevelsShow maps.base stack.caches maps.views

variable {B}

/-- A lookup finds what the maps show and leaves the views as they are; below a cache it leaves an entry, unless there
is no coin. -/
structure LookedUp (B : BottomView E) (maps : CoinMaps) (o : COutPoint) (result : Option Coin × CoinsStack σ) :
    Prop where
  answer : result.1.bind visible = maps.top o
  shows : StackShows B result.2 maps
  answer_eq : maps.views ≠ [] → result.1 = maps.top o
  entry : maps.views ≠ [] →
    (result.2.caches.head?.bind (fun cache => cache[o]?)).bind (fun entry => visible entry.coin) = maps.top o

variable {base : CoinMap} {caches : List CCoinsMap} {views : List CoinMap}

lemma getCoinFrom_spec {s : σ} (hbase : B.content s = base)
    (h : LevelsShow base caches views) (o : COutPoint) : LookedUp B ⟨views, base⟩ o (getCoinFrom E caches s o) := by
  induction h with
  | nil =>
    refine ⟨?_, ⟨?_, .nil⟩, fun hne => absurd rfl hne, fun hne => absurd rfl hne⟩
    · rw [← hbase]
      exact B.get_shown s o
    · exact (B.get_content s o).trans hbase
  | @cons cache caches views lower sound ih =>
    unfold getCoinFrom
    cases hentry : cache[o]? with
    | some entry =>
      have hview : visible entry.coin = view (views.headD base) (linesOf cache) o :=
        (view_of_some (linesOf_of_some hentry)).symm
      refine ⟨(visible_bind entry.coin).trans hview, ⟨hbase, .cons lower sound⟩, fun _ => hview, fun _ => ?_⟩
      simp only [head?_cons, Option.bind_some, hentry]
      exact hview
    | none =>
      have hnone : linesOf cache o = none := linesOf_eq_none.mpr hentry
      have hbelow : view (views.headD base) (linesOf cache) o = views.headD base o := view_of_none hnone
      generalize getCoinFrom E caches s o = result at ih
      obtain ⟨answer, caches', s'⟩ := result
      cases answer with
      | none =>
        have hview : none = view (views.headD base) (linesOf cache) o := ih.answer.trans hbelow.symm
        refine ⟨hview, ⟨ih.shows.base, .cons ih.shows.levels sound⟩, fun _ => hview, fun _ => ?_⟩
        simp only [head?_cons, Option.bind_some, hentry]
        exact hview
      | some tmp =>
        have htmp : visible tmp = views.headD base o := ih.answer
        have hview : visible tmp = view (views.headD base) (linesOf cache) o := htmp.trans hbelow.symm
        have hline : (lineOf ⟨tmp, false, tmp.isSpent⟩).Sound (views.headD base o) := by
          refine ⟨fun hspent => ?_, fun _ => htmp⟩
          rw [← htmp]
          exact if_pos hspent
        have hlevels := ih.shows.levels.insert sound hline
        rw [show visible tmp = _ from hview, Function.update_eq_self] at hlevels
        refine ⟨(visible_bind tmp).trans hview, ⟨ih.shows.base, hlevels⟩, fun _ => hview, fun _ => ?_⟩
        simp only [head?_cons, Option.bind_some, getElem?_insert_self]
        exact hview

section Calls

variable {stack : CoinsStack σ} {maps : CoinMaps} {o : COutPoint}

section

variable (h : StackShows B stack maps)
include h

lemma StackShows.lookedUp (o : COutPoint) :
    LookedUp B maps o (getCoinFrom E stack.caches stack.base o) :=
  getCoinFrom_spec h.base h.levels o

lemma StackShows.getCoin (hcache : maps.views ≠ []) : stack.getCoin E o = maps.top o :=
  (h.lookedUp o).answer_eq hcache

lemma StackShows.accessCoin (hcache : maps.views ≠ []) :
    visible (stack.accessCoin E o) = maps.top o := by
  have hentry := (h.lookedUp o).entry hcache
  change (stack.fetchedEntry E o).bind _ = _ at hentry
  rw [← hentry, CoinsStack.accessCoin]
  cases stack.fetchedEntry E o with
  | none => rfl
  | some entry => rfl

lemma StackShows.haveCoin (hcache : maps.views ≠ []) :
    stack.haveCoin E o = (maps.top o).isSome := by
  have hentry := (h.lookedUp o).entry hcache
  change (stack.fetchedEntry E o).bind _ = _ at hentry
  rw [← hentry, CoinsStack.haveCoin]
  cases stack.fetchedEntry E o with
  | none => rfl
  | some entry => exact (visible_isSome entry.coin).symm

lemma StackShows.fetchCoin (o : COutPoint) : StackShows B (stack.fetchCoin E o) maps :=
  (h.lookedUp o).shows

end

variable {below : CoinMap}

lemma top_eq_none_of_coinAt (h : view below (linesOf cache) o = none) :
    coinAt ⟨∅, cache⟩ o = none := by
  cases hentry : cache[o]? with
  | some entry =>
    rw [view_of_some (linesOf_of_some hentry)] at h
    rw [coinAt_of_cached hentry]
    exact h
  | none =>
    rw [coinAt_of_uncached hentry]
    simp

lemma addCoin_of_overwrite (view : CCoinsViewCache) {coin : Coin} (hcoin : coin.isSpent = false) :
    ∃ view', view.addCoin o coin true = .ok view' := by
  unfold CCoinsViewCache.addCoin
  simp only [hcoin, Bool.not_true, Bool.false_and, Bool.false_eq_true, if_false]
  split_ifs
  · exact ⟨_, rfl⟩
  · exact ⟨_, rfl⟩

lemma addCoin_fresh (sound : WriteBack.Sound below (linesOf cache)) {possible_overwrite : Bool}
    (hallowed : possible_overwrite = false → view below (linesOf cache) o = none)
    (hfresh : ((entryAt ⟨∅, cache⟩ o).fresh || (!possible_overwrite && !(entryAt ⟨∅, cache⟩ o).dirty)) = true) :
    below o = none := by
  unfold entryAt at hfresh
  dsimp only at hfresh
  cases hentry : cache[o]? with
  | none =>
    rw [hentry] at hfresh
    have hover : possible_overwrite = false := by simpa using hfresh
    rw [← hallowed hover, view_of_none (linesOf_eq_none.mpr hentry)]
  | some entry =>
    rw [hentry, Option.getD_some] at hfresh
    rcases Bool.or_eq_true_iff.mp hfresh with hfresh | hnew
    · exact (sound o _ (linesOf_of_some hentry)).fresh hfresh
    · simp only [Bool.and_eq_true, Bool.not_eq_true'] at hnew
      refine sound.below_eq_none (hallowed hnew.1) fun line hline => ?_
      rw [linesOf_of_some hentry] at hline
      cases hline
      exact hnew.2

lemma setEntry_cacheCoins (view : CCoinsViewCache) (entry : CCoinsCacheEntry) :
    (setEntry view o entry).cacheCoins = view.cacheCoins.insert o entry := rfl

lemma StackShows.addCoin (h : StackShows B stack maps) {coin : Coin} {possible_overwrite : Bool}
    (hallowed : possible_overwrite = false → maps.top o = none) :
    (∃ stack', stack.addCoin o coin possible_overwrite = .ok stack' ∧
        StackShows B stack' (maps.step (.addCoin o coin possible_overwrite))) ∨
      coin.isSpent = true ∧ stack.addCoin o coin possible_overwrite = .error "Assertion failed: !coin.IsSpent()" := by
  obtain ⟨caches, s⟩ := stack
  obtain ⟨views, base⟩ := maps
  obtain ⟨hbase, hlevels⟩ := h
  dsimp only at hbase hlevels
  cases hlevels with
  | nil =>
    refine .inl ⟨⟨[], s⟩, rfl, ?_⟩
    have hsame : CoinMaps.step ⟨[], base⟩ (.addCoin o coin possible_overwrite) = ⟨[], base⟩ := ite_self _
    rw [hsame]
    exact ⟨hbase, .nil⟩
  | @cons cache caches views lower sound =>
    cases hcoin : coin.isSpent with
    | true =>
      refine .inr ⟨rfl, ?_⟩
      simp only [CoinsStack.addCoin, CCoinsViewCache.addCoin, hcoin, if_true]
      rfl
    | false =>
      left
      obtain ⟨view', hadd⟩ : ∃ view', (CCoinsViewCache.mk ∅ cache).addCoin o coin possible_overwrite = .ok view' := by
        cases possible_overwrite with
        | true => exact addCoin_of_overwrite _ hcoin
        | false => exact addCoin_of_none false (top_eq_none_of_coinAt (hallowed rfl)) hcoin
      refine ⟨⟨view'.cacheCoins :: caches, s⟩, by simp only [CoinsStack.addCoin, hadd]; rfl, ?_⟩
      cases hscript : isUnspendable coin.out.scriptPubKey with
      | true =>
        rw [addCoin_unspendable hscript hadd, CoinMaps.step, hscript, if_pos rfl]
        exact ⟨hbase, .cons lower sound⟩
      | false =>
        obtain ⟨-, -, rfl⟩ := addCoin_eq_ok hscript hadd
        rw [setEntry_cacheCoins, CoinMaps.step, hscript, if_neg (by decide)]
        have hline : (lineOf ⟨coin, true, (entryAt ⟨∅, cache⟩ o).fresh ||
            (!possible_overwrite && !(entryAt ⟨∅, cache⟩ o).dirty)⟩).Sound (views.headD base o) :=
          ⟨addCoin_fresh sound hallowed, (fun hclean => by cases hclean)⟩
        have hlevels := lower.insert sound hline
        rw [visible_of_unspent hcoin] at hlevels
        exact ⟨hbase, hlevels⟩

lemma StackShows.spendCoin (h : StackShows B stack maps) (o : COutPoint) :
    StackShows B (stack.spendCoin E o) (maps.step (.spendCoin o)) := by
  obtain ⟨-, hshows, -, hentry⟩ := h.lookedUp o
  unfold CoinsStack.spendCoin CoinsStack.fetchCoin
  generalize (getCoinFrom E stack.caches stack.base o).2 = fetched at hshows hentry
  obtain ⟨caches, s⟩ := fetched
  obtain ⟨views, base⟩ := maps
  obtain ⟨hbase, hlevels⟩ := hshows
  dsimp only at hbase hlevels hentry
  cases hlevels with
  | nil => exact ⟨hbase, .nil⟩
  | @cons cache caches views lower sound =>
    refine ⟨hbase, ?_⟩
    have hentry := hentry (cons_ne_nil _ _)
    rw [head?_cons, Option.bind_some] at hentry
    simp only [CoinMaps.step, CoinMaps.setTop]
    cases hcached : cache[o]? with
    | none =>
      -- Nothing was found, so there is nothing to remove.
      rw [hcached, Option.bind_none] at hentry
      have hsame : Function.update (view (views.headD base) (linesOf cache)) o none =
        view (views.headD base) (linesOf cache) := by
        rw [hentry]
        exact Function.update_eq_self ..
      have hview : ((CCoinsViewCache.mk ∅ cache).spendCoin o).2.2.cacheCoins = cache := by
        simp [CCoinsViewCache.spendCoin, CCoinsViewCache.fetchCoin, hcached]
      rw [hsame, hview]
      exact .cons lower sound
    | some entry =>
      have hview : ((CCoinsViewCache.mk ∅ cache).spendCoin o).2.2.cacheCoins =
          if entry.fresh then cache.erase o else cache.insert o ⟨.empty, true, entry.fresh⟩ := by
        have hfetch : (CCoinsViewCache.mk ∅ cache).fetchCoin o = ⟨∅, cache⟩ := fetchCoin_of_cached hcached
        simp only [CCoinsViewCache.spendCoin, hfetch, hcached]
      rw [hview]
      cases hfresh : entry.fresh with
      | true =>
        have hlevels := lower.erase sound o
        rw [(sound o _ (linesOf_of_some hcached)).fresh hfresh] at hlevels
        exact hlevels
      | false =>
        have hline : (lineOf ⟨.empty, true, false⟩).Sound (views.headD base o) :=
          ⟨(fun h => by cases h), (fun h => by cases h)⟩
        exact lower.insert sound hline

lemma StackShows.uncache (h : StackShows B stack maps) (o : COutPoint) : StackShows B (stack.uncache o) maps := by
  obtain ⟨caches, s⟩ := stack
  obtain ⟨views, base⟩ := maps
  obtain ⟨hbase, hlevels⟩ := h
  dsimp only at hbase hlevels
  unfold CoinsStack.uncache
  cases hlevels with
  | nil => exact ⟨hbase, .nil⟩
  | @cons cache caches views lower sound =>
    dsimp only
    cases hcached : cache[o]? with
    | none => exact ⟨hbase, .cons lower sound⟩
    | some entry =>
      dsimp only
      split_ifs with hflags
      · exact ⟨hbase, .cons lower sound⟩
      · have hclean : entry.dirty = false := by
          cases hdirty : entry.dirty with
          | false => rfl
          | true => exact absurd (by rw [hdirty]; rfl) hflags
        have hlevels := lower.erase sound o
        rw [← view_drop, sound.view_drop_clean (linesOf_of_some hcached) hclean] at hlevels
        exact ⟨hbase, hlevels⟩

lemma batchWriteEntry_line (cache : CCoinsMap) (entry : CCoinsCacheEntry) :
    writeLine (linesOf cache) o (lineOf entry) = (batchWriteEntry cache o entry).toOption.map linesOf := by
  unfold writeLine batchWriteEntry
  cases hdirty : entry.dirty with
  | false => simp [lineOf, hdirty, Except.toOption]
  | true =>
    cases hcached : cache[o]? with
    | none =>
      simp only [lineOf, hdirty, linesOf_eq_none.mpr hcached, visible_isNone, Bool.not_true,
        Bool.false_eq_true, if_true, if_false]
      split_ifs
      · rfl
      · simp only [Except.toOption, Option.map_some, linesOf_insert]
        rfl
    | some itUs =>
      simp only [lineOf, hdirty, linesOf_of_some hcached, visible_isNone, visible_isSome, Bool.not_true,
        Bool.false_eq_true, if_true, if_false]
      split_ifs
      · rfl
      · simp only [Except.toOption, Option.map_some, linesOf_erase]
      · simp only [Except.toOption, Option.map_some, linesOf_insert]
        rfl

lemma batchWriteEntries_lines {entries : List (COutPoint × CCoinsCacheEntry)}
    {level' : COutPoint → Option (Line Coin)}
    (h : writeLines (linesOf cache) (entries.map fun p => (p.1, lineOf p.2)) = some level') :
    ∃ cache', batchWriteEntries cache entries = .ok cache' ∧ linesOf cache' = level' := by
  induction entries generalizing cache with
  | nil => exact ⟨cache, rfl, Option.some.inj h⟩
  | cons p entries ih =>
    rw [map_cons, writeLines, foldlM_cons, batchWriteEntry_line] at h
    cases hwrite : batchWriteEntry cache p.1 p.2 with
    | error e =>
      rw [hwrite] at h
      cases h
    | ok cache₁ =>
      rw [hwrite] at h
      obtain ⟨cache', hrest, hlevel⟩ := ih h
      refine ⟨cache', ?_, hlevel⟩
      rw [batchWriteEntries, foldlM_cons, hwrite]
      exact hrest

lemma order_keys (mapCoins : CCoinsMap) :
    (((E.order mapCoins).map fun p => (p.1, lineOf p.2)).map Prod.fst).Nodup := by
  have hkeys : ((E.order mapCoins).map fun p => (p.1, lineOf p.2)).map Prod.fst = (E.order mapCoins).map Prod.fst := by
    rw [map_map]
    rfl
  rw [hkeys, ((E.order_perm mapCoins).map Prod.fst).nodup_iff, Std.ExtTreeMap.map_fst_toList_eq_keys]
  exact Std.ExtTreeMap.nodup_keys

lemma batchWriteEntries_spec {cache parent : CCoinsMap} (hparent : WriteBack.Sound below (linesOf parent))
    (hcache : WriteBack.Sound (view below (linesOf parent)) (linesOf cache)) :
    ∃ parent', batchWriteEntries parent (E.order cache) = .ok parent' ∧ WriteBack.Sound below (linesOf parent') ∧
      view below (linesOf parent') = view (view below (linesOf parent)) (linesOf cache) := by
  have hmem : ∀ o line, (o, line) ∈ (E.order cache).map (fun p => (p.1, lineOf p.2)) ↔ linesOf cache o = some line := by
    intro o line
    simp only [mem_map, Prod.mk.injEq, Prod.exists, (E.order_perm cache).mem_iff,
      Std.ExtTreeMap.mem_toList_iff_getElem?_eq_some]
    constructor
    · rintro ⟨o', entry, hentry, rfl, rfl⟩
      exact linesOf_of_some hentry
    · intro hline
      obtain ⟨entry, hentry, rfl⟩ := Option.map_eq_some_iff.mp hline
      exact ⟨o, entry, hentry, rfl, rfl⟩
  obtain ⟨level', hwrite, hsound, hview⟩ := writeBack (order_keys cache) hmem hparent hcache
  obtain ⟨parent', hbatch, rfl⟩ := batchWriteEntries_lines hwrite
  exact ⟨parent', hbatch, hsound, hview⟩

lemma flushed_eq_view (sound : WriteBack.Sound below (linesOf cache)) :
    flushed cache below = view below (linesOf cache) := by
  funext o
  unfold flushed
  cases hentry : cache[o]? with
  | none => exact (view_of_none (linesOf_eq_none.mpr hentry)).symm
  | some entry =>
    rw [view_of_some (linesOf_of_some hentry)]
    dsimp only
    split_ifs with hdirty
    · rfl
    · exact ((sound o _ (linesOf_of_some hentry)).clean (Bool.eq_false_iff.mpr hdirty)).symm

lemma StackShows.flush (h : StackShows B stack maps) :
    ∃ stack', stack.flush E = .ok stack' ∧ StackShows B stack' (CoinMaps.copyDown maps.views maps.base) := by
  obtain ⟨caches, s⟩ := stack
  obtain ⟨views, base⟩ := maps
  obtain ⟨hbase, hlevels⟩ := h
  dsimp only at hbase hlevels
  cases hlevels with
  | nil => exact ⟨⟨[], s⟩, rfl, hbase, .nil⟩
  | @cons cache caches views lower sound =>
    cases lower with
    | nil =>
      refine ⟨⟨[∅], E.batchWrite s cache⟩, rfl, ?_, LevelsShow.nil.push⟩
      rw [B.write_content, hbase]
      exact flushed_eq_view sound
    | @cons parent caches views lower' sound' =>
      obtain ⟨parent', hbatch, hsound, hview⟩ := batchWriteEntries_spec (E := E) sound' sound
      refine ⟨⟨∅ :: parent' :: caches, s⟩, by simp only [CoinsStack.flush, hbatch]; rfl, hbase, ?_⟩
      have hlevels := (LevelsShow.cons lower' hsound).push
      rw [hview] at hlevels
      exact hlevels

variable {n : Nat}

lemma headD_take_append {views views' : List CoinMap} {base base' : CoinMap}
    (h : views'.headD base' = (views.drop n).headD base) : (views.take n ++ views').headD base' = views.headD base := by
  cases n with
  | zero => exact h
  | succ n =>
    cases views with
    | nil => exact h
    | cons view views => rfl

lemma LevelsShow.replace {base base' : CoinMap} {caches lower : List CCoinsMap} {views views' : List CoinMap}
    (h : LevelsShow base caches views) (hlower : LevelsShow base' lower views')
    (hsame : views'.headD base' = (views.drop n).headD base) :
    LevelsShow base' (caches.take n ++ lower) (views.take n ++ views') := by
  induction n generalizing caches views with
  | zero => exact hlower
  | succ n ih =>
    cases h with
    | nil => exact hlower
    | @cons cache caches views rest sound =>
      have hsame' : views'.headD base' = (views.drop n).headD base := hsame
      have hrest := ih rest hsame'
      have hhead := headD_take_append hsame'
      have hsound : WriteBack.Sound ((views.take n ++ views').headD base') (linesOf cache) := hhead.symm ▸ sound
      have hlevels := LevelsShow.cons hrest hsound
      rw [hhead] at hlevels
      exact hlevels

lemma LevelsShow.drop (h : LevelsShow base caches views)
    (n : Nat) : LevelsShow base (caches.drop n) (views.drop n) := by
  induction n generalizing caches views with
  | zero => exact h
  | succ n ih =>
    cases h with
    | nil => exact .nil
    | cons rest sound => exact ih rest

lemma LevelsShow.length_eq
    (h : LevelsShow base caches views) : caches.length = views.length := by
  induction h with
  | nil => rfl
  | cons rest sound ih => rw [length_cons, length_cons, ih]

lemma StackShows.onLevel (h : StackShows B stack maps) {f : CoinsStack σ → Except String (CoinsStack σ)} {level : Nat}
    {lower : CoinMaps} (hf : ∀ below, StackShows B below ⟨maps.views.drop level, maps.base⟩ →
      ∃ below', f below = .ok below' ∧ StackShows B below' lower)
    (hsame : lower.top = (maps.views.drop level).headD maps.base) :
    ∃ stack', stack.onLevel level f = .ok stack' ∧
      StackShows B stack' ⟨maps.views.take level ++ lower.views, lower.base⟩ := by
  obtain ⟨below', hrun, hshows⟩ := hf ⟨stack.caches.drop level, stack.base⟩ ⟨h.base, h.levels.drop level⟩
  refine ⟨⟨stack.caches.take level ++ below'.caches, below'.base⟩, ?_, hshows.base,
    h.levels.replace hshows.levels hsame⟩
  rw [CoinsStack.onLevel, hrun]
  rfl

lemma copyDown_top : (CoinMaps.copyDown views base).top = views.headD base := by
  match views with
  | [] => rfl
  | [view] => rfl
  | view :: _ :: views => rfl

def AddsSpent : CoinsCall → Prop
  | .addCoin _ coin _ => coin.isSpent = true
  | _ => False

lemma StackShows.step (h : StackShows B stack maps) {call : CoinsCall} (hallowed : maps.Allows call) :
    (∃ stack', stack.step E call = .ok stack' ∧ StackShows B stack' (maps.step call)) ∨
      AddsSpent call ∧ stack.step E call = .error "Assertion failed: !coin.IsSpent()" := by
  cases call with
  | addCoin outpoint coin possible_overwrite => exact h.addCoin hallowed
  | spendCoin outpoint => exact .inl ⟨_, rfl, h.spendCoin outpoint⟩
  | read level outpoint =>
    left
    obtain ⟨stack', hrun, hshows⟩ := h.onLevel (fun _ hbelow => ⟨_, rfl, hbelow.fetchCoin outpoint⟩) rfl
    rw [take_append_drop] at hshows
    exact ⟨stack', hrun, hshows⟩
  | uncache level outpoint =>
    left
    obtain ⟨stack', hrun, hshows⟩ := h.onLevel (fun _ hbelow => ⟨_, rfl, hbelow.uncache outpoint⟩) rfl
    rw [take_append_drop] at hshows
    exact ⟨stack', hrun, hshows⟩
  | newCache => exact .inl ⟨_, rfl, h.base, h.levels.push⟩
  | flush level => exact .inl (h.onLevel (fun _ hbelow => hbelow.flush) (copyDown_top))
  | deleteCache =>
    refine .inl ⟨_, rfl, h.base, ?_⟩
    have hdrop := h.levels.drop 1
    rw [drop_one, drop_one] at hdrop
    exact hdrop

lemma StackShows.run (h : StackShows B stack maps) {calls : List CoinsCall} (hallowed : maps.AllowsAll calls) :
    (∃ stack', stack.run E calls = .ok stack' ∧ StackShows B stack' (maps.run calls)) ∨
      (∃ call ∈ calls, AddsSpent call) ∧ stack.run E calls = .error "Assertion failed: !coin.IsSpent()" := by
  induction calls generalizing stack maps with
  | nil => exact .inl ⟨stack, rfl, h⟩
  | cons call calls ih =>
    rcases h.step hallowed.1 with ⟨stack₁, hstep, hshows⟩ | ⟨hspent, hstep⟩
    · have hrun : stack.run E (call :: calls) = stack₁.run E calls := by
        rw [CoinsStack.run, foldlM_cons, hstep]
        rfl
      rw [hrun]
      rcases ih hshows hallowed.2 with hok | ⟨⟨call', hmem, hspent⟩, herror⟩
      · exact .inl hok
      · exact .inr ⟨⟨call', mem_cons_of_mem _ hmem, hspent⟩, herror⟩
    · refine .inr ⟨⟨call, mem_cons_self, hspent⟩, ?_⟩
      rw [CoinsStack.run, foldlM_cons, hstep]
      rfl

end Calls

/-- Flushes and drops the caches from the top. -/
def unwind : Nat → List CoinsCall
  | 0 => []
  | n + 1 => .flush 0 :: .deleteCache :: unwind n

lemma allowsAll_unwind (n : Nat) (maps : CoinMaps) : maps.AllowsAll (unwind n) := by
  induction n generalizing maps with
  | zero => exact trivial
  | succ n ih => exact ⟨trivial, trivial, ih _⟩

lemma unwind_addsNone : ¬∃ call ∈ unwind n, AddsSpent call := by
  induction n with
  | zero => simp [unwind]
  | succ n ih =>
    rintro ⟨call, hmem, hspent⟩
    rcases mem_cons.mp hmem with rfl | hmem
    · exact hspent
    rcases mem_cons.mp hmem with rfl | hmem
    · exact hspent
    exact ih ⟨call, hmem, hspent⟩

lemma run_unwind {maps : CoinMaps} (hn : maps.views.length = n) : (maps.run (unwind n)).base = maps.top := by
  induction n generalizing maps with
  | zero =>
    obtain ⟨views, base⟩ := maps
    obtain rfl : views = [] := length_eq_zero_iff.mp hn
    rfl
  | succ n ih =>
    obtain ⟨views, base⟩ := maps
    match views, hn with
    | [view], hn =>
      obtain rfl : n = 0 := (Nat.succ.inj hn).symm
      rfl
    | view :: _ :: views, hn => exact @ih ⟨view :: views, base⟩ (Nat.succ.inj hn)

/-- Each lookup at a level answers with the map of that level. -/
structure Answers (E : CoinsEnv σ) (stack : CoinsStack σ) (maps : CoinMaps) (level : Nat) (o : COutPoint) : Prop where
  getCoin : (CoinsStack.mk (stack.caches.drop level) stack.base).getCoin E o = (maps.views.drop level).headD maps.base o
  haveCoin : (CoinsStack.mk (stack.caches.drop level) stack.base).haveCoin E o =
    ((maps.views.drop level).headD maps.base o).isSome
  accessCoin : visible ((CoinsStack.mk (stack.caches.drop level) stack.base).accessCoin E o) =
    (maps.views.drop level).headD maps.base o

lemma StackShows.answers {stack : CoinsStack σ} {maps : CoinMaps} (h : StackShows B stack maps) {level : Nat}
    (hlevel : level < stack.caches.length) (o : COutPoint) : Answers E stack maps level o := by
  have hlower : StackShows B ⟨stack.caches.drop level, stack.base⟩ ⟨maps.views.drop level, maps.base⟩ :=
    ⟨h.base, h.levels.drop level⟩
  have hcache : maps.views.drop level ≠ [] := by
    rw [ne_eq, drop_eq_nil_iff, not_le, ← h.levels.length_eq]
    exact hlevel
  exact ⟨hlower.getCoin hcache, hlower.haveCoin hcache, hlower.accessCoin hcache⟩

/-- Over any view that keeps a set of coins, a stack of caches is a stack of maps. It stops at no exception, only at the
assertion that a coin to be added is not spent; and flushing it carries the topmost map to the bottom. -/
theorem coinsStack_refines (B : BottomView E) (s : σ) {calls : List CoinsCall}
    (hallowed : (CoinMaps.mk [] (B.content s)).AllowsAll calls) :
    (∃ stack, (CoinsStack.mk [] s).run E calls = .ok stack ∧
        (∀ level < stack.caches.length, ∀ o, Answers E stack ((CoinMaps.mk [] (B.content s)).run calls) level o) ∧
        ∃ stack', stack.run E (unwind stack.caches.length) = .ok stack' ∧
          B.content stack'.base = ((CoinMaps.mk [] (B.content s)).run calls).top) ∨
      (∃ call ∈ calls, AddsSpent call) ∧
        (CoinsStack.mk [] s).run E calls = .error "Assertion failed: !coin.IsSpent()" := by
  have hstart : StackShows B ⟨[], s⟩ ⟨[], B.content s⟩ := ⟨rfl, .nil⟩
  rcases hstart.run hallowed with ⟨stack, hrun, hshows⟩ | hspent
  · left
    refine ⟨stack, hrun, fun level hlevel o => hshows.answers hlevel o, ?_⟩
    rcases hshows.run (allowsAll_unwind stack.caches.length _) with ⟨stack', hunwind, hbottom⟩ | ⟨hspent, -⟩
    · refine ⟨stack', hunwind, ?_⟩
      rw [hbottom.base, run_unwind hshows.levels.length_eq.symm]
    · exact absurd hspent unwind_addsNone
  · exact .inr hspent

end Refinement

/-- The coins database outside a transition. -/
abbrev TipDB := { db : CoinsDB // db.getBestBlock ≠ 0 }

variable (policy : FlushPolicy)

def flushInto (hashBlock : UInt256) (db : CoinsDB) (mapCoins : CCoinsMap) : CoinsDB :=
  match db.batchWrite policy mapCoins hashBlock with
  | .ok batches => db.writeBatches batches
  | .error _ => db

lemma flushInto_holds {hashBlock : UInt256} (hhash : hashBlock ≠ 0) (db : TipDB) (mapCoins : CCoinsMap) :
    HoldsTip hashBlock (flushed mapCoins (fun o => db.1.coins[o]?)) (flushInto policy hashBlock db.1 mapCoins) := by
  have htip : db.1.oldTip hashBlock = .ok db.1.getBestBlock := by
    rw [CoinsDB.oldTip, if_neg db.2]
  obtain ⟨batches, hok, hholds, -⟩ := batchWrite_spec hhash htip policy mapCoins
  rw [flushInto, hok]
  exact hholds

def dbEnv (hashBlock : UInt256) (hhash : hashBlock ≠ 0) : CoinsEnv TipDB where
  getCoin db outpoint := (db.1.coins[outpoint]?, db)
  batchWrite db mapCoins :=
    ⟨flushInto policy hashBlock db.1 mapCoins, by rw [(flushInto_holds policy hhash db mapCoins).best]; exact hhash⟩
  order := policy.order
  order_perm := policy.order_perm

def dbView (hashBlock : UInt256) (hhash : hashBlock ≠ 0) : BottomView (dbEnv policy hashBlock hhash) where
  content db o := (db.1.coins[o]?).bind visible
  get_shown _ _ := rfl
  get_content _ _ := rfl
  write_content db mapCoins := by
    funext o
    have hcoins := (flushInto_holds policy hhash db mapCoins).coins o
    change ((flushInto policy hashBlock db.1 mapCoins).coins[o]?).bind visible = _
    rw [hcoins]
    unfold flushed
    cases mapCoins[o]? with
    | none => rfl
    | some entry =>
      dsimp only
      split_ifs
      · exact visible_bind entry.coin
      · rfl

def examplePolicy : FlushPolicy := inOrder (fun _ => false)

def exampleCoin : Coin := ⟨⟨5, [OP_DUP], -10⟩, false, 1⟩

/-- A coin goes through two caches and is spent in the upper one, which adds another. -/
def exampleCalls : List CoinsCall :=
  [.newCache, .addCoin ⟨1, 0⟩ exampleCoin false, .newCache, .read 1 ⟨1, 0⟩, .spendCoin ⟨1, 0⟩, .flush 1,
    .addCoin ⟨2, 0⟩ exampleCoin false, .uncache 1 ⟨1, 0⟩]

theorem coinsStack_refines_database :
    ∃ stack stack', (CoinsStack.mk [] (⟨{ bestBlock := some 7 }, by decide⟩ : TipDB)).run
      (dbEnv examplePolicy 8 (by decide)) exampleCalls = .ok stack ∧
      stack.run (dbEnv examplePolicy 8 (by decide)) (unwind stack.caches.length) = .ok stack' ∧
      (stack'.base.1.coins[(⟨1, 0⟩ : COutPoint)]?).bind visible = none ∧
      (stack'.base.1.coins[(⟨2, 0⟩ : COutPoint)]?).bind visible = some exampleCoin := by
  have hallowed :
    (CoinMaps.mk [] ((dbView examplePolicy 8 (by decide)).content ⟨{ bestBlock := some 7 }, by decide⟩)).AllowsAll
      exampleCalls := by
    refine ⟨trivial, fun _ => ?_, trivial, trivial, trivial, trivial, fun _ => ?_, trivial, trivial⟩
    · decide +kernel
    · decide +kernel
  rcases coinsStack_refines (dbView examplePolicy 8 (by decide)) ⟨{ bestBlock := some 7 }, by decide⟩ hallowed with
    ⟨stack, hrun, -, stack', hunwind, hcontent⟩ | ⟨⟨call, hmem, hspent⟩, -⟩
  · refine ⟨stack, stack', hrun, hunwind, ?_, ?_⟩
    · exact (congrFun hcontent ⟨1, 0⟩).trans (by decide +kernel)
    · exact (congrFun hcontent ⟨2, 0⟩).trans (by decide +kernel)
  · simp only [exampleCalls, mem_cons, not_mem_nil, or_false] at hmem
    rcases hmem with rfl | rfl | rfl | rfl | rfl | rfl | rfl | rfl
    all_goals cases hspent

end Qstees.Proofs
