import Qstees.Library.Runs
import Qstees.Proofs.BlockJournal
import Qstees.Proofs.DbFlush

/-!
# Recovery from a crash while the coins are flushed

A database in the middle of a transition holds, coin by coin, what the old tip or what the new tip has.
-/

namespace Qstees.Proofs

open List ReplayAttempt

open Journal (redo undo Legal)
open ParentTree (Descends Ranked)

/-- The coins of a block of the tree: what `ConnectBlock` leaves, block after block from the genesis
block, with the undo data that is on disk. BIP30 applies to every block: the exempt ones are of
another chain, and no block has the null hash that stands for the one at the BIP34 height. -/
inductive UtxoOf (store : BlockStore) : UInt256 → (COutPoint → Option Coin) → Prop
  | genesis : UtxoOf store store.genesis (fun _ => none)
  | connect {h p : UInt256} {pindex : StoredBlock} {E : ConnectEnv} {view : CCoinsViewCache} {st : ConnectState}
      {ss : List Int} (hprev : UtxoOf store p (coinAt view)) (hindex : store.mapBlockIndex[h]? = some pindex)
      (hp : pindex.pprev = some p) (hview : CacheOk view)
      (hconnect : connectBlock E pindex.block pindex.nHeight false true false view = ⟨.ok st, ss⟩)
      (hundo : pindex.vtxundo = st.vtxundo) : UtxoOf store h (coinAt st.view)

variable {store : BlockStore}

variable {h fork : UInt256} {pindex : StoredBlock} {m : COutPoint → Option Coin}
  {log : List CoinEntry}

lemma pprev_eq (hindex : store.mapBlockIndex[h]? = some pindex) : store.pprev h = pindex.pprev := by
  rw [BlockStore.pprev, hindex, Option.bind_some]

lemma nHeight_eq (hindex : store.mapBlockIndex[h]? = some pindex) :
    store.nHeight h = pindex.nHeight := by
  rw [BlockStore.nHeight, hindex, Option.elim_some]

lemma mem_known :
    h ∈ store.mapBlockIndex.keys ↔ ∃ pindex, store.mapBlockIndex[h]? = some pindex := by
  rw [Std.ExtTreeMap.mem_keys, Std.ExtTreeMap.mem_iff_isSome_getElem?, Option.isSome_iff_exists]

lemma ranked (store : BlockStore) : Ranked store.pprev store.nHeight store.mapBlockIndex.keys := by
  refine ⟨?_, ?_⟩
  · intro h p hh hp
    obtain ⟨pindex, hindex⟩ := mem_known.mp hh
    rw [pprev_eq hindex] at hp
    obtain ⟨prev, hprev, -⟩ := store.parent h p pindex hindex hp
    exact mem_known.mpr ⟨prev, hprev⟩
  · intro h p hh hp
    obtain ⟨pindex, hindex⟩ := mem_known.mp hh
    rw [pprev_eq hindex] at hp
    obtain ⟨prev, hprev, hheight⟩ := store.parent h p pindex hindex hp
    rw [nHeight_eq hindex, nHeight_eq hprev, hheight]

lemma height_step {p : UInt256} (hindex : store.mapBlockIndex[h]? = some pindex) (hp : pindex.pprev = some p) :
    store.nHeight h = store.nHeight p + 1 :=
  (ranked store).rank_parent (mem_known.mpr ⟨_, hindex⟩) ((pprev_eq hindex).trans hp)

lemma root_known (hh : h ∈ store.mapBlockIndex.keys) (hp : store.pprev h = none) :
    h = store.genesis ∧ store.nHeight h = 0 := by
  obtain ⟨pindex, hindex⟩ := mem_known.mp hh
  rw [pprev_eq hindex] at hp
  rw [nHeight_eq hindex]
  exact store.root h pindex hindex hp

lemma getAncestor_of_descends {x : UInt256} (hh : h ∈ store.mapBlockIndex.keys)
    (hx : Descends store.pprev h x) :
    store.getAncestor h (store.nHeight x) = some x := (ranked store).find?_walk hh hx

lemma getAncestor_spec (hh : h ∈ store.mapBlockIndex.keys) {n : Nat} (hn : n ≤ store.nHeight h) :
    ∃ x, store.getAncestor h n = some x ∧ Descends store.pprev h x ∧ store.nHeight x = n := by
  obtain ⟨x, hx, hrank⟩ := (ranked store).exists_rank (fun x hx hp => (root_known hx hp).2) hh hn
  rw [← hrank]
  exact ⟨x, getAncestor_of_descends hh hx, hx, rfl⟩

lemma lastCommonLoop_spec {a b : UInt256} (ha : a ∈ store.mapBlockIndex.keys) (hb : b ∈ store.mapBlockIndex.keys)
    (hheight : store.nHeight a = store.nHeight b) (fuel : Nat) (hfuel : store.nHeight a < fuel) :
    ∃ fork, store.lastCommonLoop fuel (some a) (some b) = (some fork, some fork) ∧ Descends store.pprev a fork ∧
      Descends store.pprev b fork := by
  induction fuel generalizing a b with
  | zero => omega
  | succ fuel ih =>
    unfold BlockStore.lastCommonLoop
    by_cases hab : a = b
    · rw [if_pos hab, hab]
      exact ⟨b, rfl, Relation.ReflTransGen.refl, Relation.ReflTransGen.refl⟩
    rw [if_neg hab]
    cases hpa : store.pprev a with
    | none =>
      cases hpb : store.pprev b with
      | none => exact absurd ((root_known ha hpa).1.trans (root_known hb hpb).1.symm) hab
      | some pb =>
        have hzero := (root_known ha hpa).2
        have hrank := (ranked store).rank_parent hb hpb
        omega
    | some pa =>
      have hranka := (ranked store).rank_parent ha hpa
      cases hpb : store.pprev b with
      | none =>
        have hzero := (root_known hb hpb).2
        omega
      | some pb =>
        have hrankb := (ranked store).rank_parent hb hpb
        obtain ⟨fork, hloop, hda, hdb⟩ := ih ((ranked store).parent_mem ha hpa) ((ranked store).parent_mem hb hpb)
          (by omega) (by omega)
        exact ⟨fork, hloop, Relation.ReflTransGen.head hpa hda, Relation.ReflTransGen.head hpb hdb⟩

lemma lastCommonAncestor_spec {a b : UInt256} (ha : a ∈ store.mapBlockIndex.keys) (hb : b ∈ store.mapBlockIndex.keys) :
    ∃ fork, store.lastCommonAncestor a b = .ok (some fork) ∧ Descends store.pprev a fork ∧
      Descends store.pprev b fork := by
  have hlevel : ∀ {x y : UInt256}, x ∈ store.mapBlockIndex.keys →
      ∃ z, (if store.nHeight x > store.nHeight y then store.getAncestor x (store.nHeight y) else some x) = some z ∧
        Descends store.pprev x z ∧ z ∈ store.mapBlockIndex.keys ∧
          store.nHeight z = min (store.nHeight x) (store.nHeight y) := by
    intro x y hx
    split_ifs with hgt
    · obtain ⟨z, hz, hdz, hheight⟩ := getAncestor_spec hx hgt.le
      exact ⟨z, hz, hdz, (ranked store).mem_of_descends hx hdz, by omega⟩
    · exact ⟨x, rfl, Relation.ReflTransGen.refl, hx, by omega⟩
  obtain ⟨a', ha', hda, hknowna, hheighta⟩ := @hlevel a b ha
  obtain ⟨b', hb', hdb, hknownb, hheightb⟩ := @hlevel b a hb
  obtain ⟨fork, hloop, hforka, hforkb⟩ := lastCommonLoop_spec hknowna hknownb (by omega)
    (min (store.nHeight a) (store.nHeight b) + 1) (by omega)
  refine ⟨fork, ?_, hda.trans hforka, hdb.trans hforkb⟩
  unfold BlockStore.lastCommonAncestor
  rw [ha', hb']
  simp only [hloop, if_true]

inductive BranchLog (store : BlockStore) (fork : UInt256) : UInt256 → List CoinEntry → Prop
  | refl : BranchLog store fork fork []
  | step {h p : UInt256} {pindex : StoredBlock} {log : List CoinEntry} (hlog : BranchLog store fork p log)
      (hindex : store.mapBlockIndex[h]? = some pindex) (hp : pindex.pprev = some p)
      (hlen : pindex.vtxundo.length + 1 = pindex.block.vtx.length)
      (hrec : ∀ p ∈ undoPairs pindex.block pindex.vtxundo, UndoRecorded p) :
      BranchLog store fork h (log ++ blockLog pindex)

lemma outputLog_kept {tx : CTransaction} {nHeight : Int} (hh : 1 ≤ nHeight ∧ nHeight < 2 ^ 31)
    {vout : List CTxOut} {n : Nat} (hout : ∀ out ∈ vout, 0 ≤ out.nValue) :
    ∀ e ∈ outputLog tx nHeight n vout, ∀ coin, e.after = some coin → Kept coin := by
  induction vout generalizing n with
  | nil =>
    intro e he
    exact absurd he not_mem_nil
  | cons out vout ih =>
    have hrest := @ih (n + 1) (fun o ho => hout o (mem_cons_of_mem _ ho))
    unfold outputLog
    split_ifs with hs
    · exact hrest
    · intro e he coin hcoin
      rcases mem_cons.mp he with rfl | he
      · cases hcoin
        refine ⟨ofOut_unspent (hout out mem_cons_self) _ _, ?_, by simpa [Coin.ofOut] using hs⟩
        simp only [Coin.ofOut]
        omega
      · exact hrest e he coin hcoin

lemma blockLog_kept (hh : 1 ≤ pindex.nHeight ∧ pindex.nHeight < 2 ^ 31)
    (hrec : ∀ p ∈ undoPairs pindex.block pindex.vtxundo, UndoRecorded p) :
    ∀ e ∈ blockLog pindex, ∀ coin, e.after = some coin → Kept coin := by
  intro e he coin hcoin
  obtain ⟨p, hp, he⟩ := mem_flatMap.mp he
  rcases mem_append.mp he with he | he
  · obtain ⟨q, -, rfl⟩ := mem_map.mp he
    cases hcoin
  · exact outputLog_kept (by omega) (hrec p hp).outputs_nonneg e he coin hcoin

lemma height_pos {p : UInt256} (hindex : store.mapBlockIndex[h]? = some pindex)
    (hp : pindex.pprev = some p) : 1 ≤ pindex.nHeight ∧ pindex.nHeight < 2 ^ 31 := by
  obtain ⟨prev, -, hheight⟩ := store.parent h p pindex hindex hp
  exact ⟨by omega, store.height_lt h pindex hindex⟩

section

variable (hutxo : UtxoOf store h m)
include hutxo

lemma UtxoOf.kept : ∀ o coin, m o = some coin → Kept coin := by
  induction hutxo with
  | genesis =>
    intro o coin hcoin
    cases hcoin
  | connect hprev hindex hp hview hconnect hundo ih =>
    have hheight := height_pos hindex hp
    obtain ⟨-, hplays⟩ := connectBlock_log hheight hview (fun o coin hcoin => (ih o coin hcoin).2) hconnect hundo
    rw [hplays.coins]
    exact fun o => Journal.redo_induct (P := fun v => ∀ coin, v = some coin → Kept coin) ih
      (blockLog_kept hheight hplays.recorded) o

lemma UtxoOf.cases :
    (h = store.genesis ∧ m = fun _ => none) ∨
      ∃ p pindex mp, store.mapBlockIndex[h]? = some pindex ∧ pindex.pprev = some p ∧ UtxoOf store p mp ∧
        pindex.vtxundo.length + 1 = pindex.block.vtx.length ∧
        Plays pindex.nHeight (undoPairs pindex.block pindex.vtxundo) mp m := by
  cases hutxo with
  | genesis => exact .inl ⟨rfl, rfl⟩
  | connect hprev hindex hp hview hconnect hundo =>
    have hlog :=
      connectBlock_log (height_pos hindex hp) hview (fun o coin hcoin => (hprev.kept o coin hcoin).2) hconnect hundo
    exact .inr ⟨_, _, _, hindex, hp, hprev, hlog⟩

lemma UtxoOf.known : ∃ pindex, store.mapBlockIndex[h]? = some pindex := by
  rcases hutxo.cases with ⟨rfl, -⟩ | ⟨p, pindex, mp, hindex, -⟩
  · obtain ⟨pindex, hindex, -⟩ := store.genesis_known
    exact ⟨pindex, hindex⟩
  · exact ⟨pindex, hindex⟩

lemma UtxoOf.at_zero (hzero : store.nHeight h = 0) : m = fun _ => none := by
  rcases hutxo.cases with ⟨-, hm⟩ | ⟨p, pindex, mp, hindex, hp, -⟩
  · exact hm
  · have hpos := (height_pos hindex hp).1
    rw [← nHeight_eq hindex] at hpos
    omega

lemma UtxoOf.unique {m' : COutPoint → Option Coin}
    (hutxo' : UtxoOf store h m') : m = m' := by
  obtain ⟨pgen, hgen, hroot⟩ := store.genesis_known
  have hzero := (nHeight_eq hgen).trans (store.root _ _ hgen hroot).2
  induction hn : store.nHeight h generalizing h m m' with
  | zero => rw [hutxo.at_zero hn, hutxo'.at_zero hn]
  | succ n ih =>
    rcases hutxo.cases with ⟨rfl, -⟩ | ⟨p, pindex, mp, hindex, hp, hprev, -, hplays⟩
    · omega
    · rcases hutxo'.cases with ⟨rfl, -⟩ | ⟨p', pindex', mp', hindex', hp', hprev', -, hplays'⟩
      · omega
      · cases hindex.symm.trans hindex'
        cases hp.symm.trans hp'
        have hrank := height_step hindex hp
        rw [hplays.coins, hplays'.coins, ih hprev hprev' (by omega)]

lemma UtxoOf.branch (hfork : Descends store.pprev h fork) :
    ∃ mf log, UtxoOf store fork mf ∧ BranchLog store fork h log ∧ Legal mf log ∧ m = redo log mf := by
  induction hfork using Relation.ReflTransGen.head_induction_on generalizing m with
  | refl => exact ⟨m, [], hutxo, .refl, trivial, rfl⟩
  | @head h p hp _ ih =>
    rcases hutxo.cases with ⟨rfl, -⟩ | ⟨p', pindex, mp, hindex, hp', hprev, hlen, hplays⟩
    · obtain ⟨pgen, hgen, hroot⟩ := store.genesis_known
      rw [pprev_eq hgen, hroot] at hp
      cases hp
    · rw [pprev_eq hindex, hp'] at hp
      cases hp
      obtain ⟨mf, log, hmf, hbranch, hlegal', rfl⟩ := ih hprev
      refine ⟨mf, log ++ blockLog pindex, hmf, hbranch.step hindex hp' hlen hplays.recorded, ?_, ?_⟩
      · exact (Journal.legal_append mf log _).mpr ⟨hlegal', hplays.legal⟩
      · exact hplays.coins.trans (Journal.redo_append mf log _).symm

end

lemma BranchLog.height_le (hbranch : BranchLog store fork h log) :
    store.nHeight fork ≤ store.nHeight h := by
  induction hbranch with
  | refl => exact le_rfl
  | step _ hindex hp _ _ ih =>
    have hrank := height_step hindex hp
    omega

lemma rollback_branch (hbranch : BranchLog store fork h log) {base : StdMap COutPoint Coin}
    {u : CCoinsViewCache} (hu : Shows base m u) (fuel : Nat)
    (hfuel : store.nHeight h < store.nHeight fork + fuel) :
    ∃ u', rollback store (some fork) fuel (some h) u = .ok u' ∧ Shows base (undo log m) u' := by
  induction hbranch generalizing m u fuel with
  | refl =>
    obtain ⟨fuel, rfl⟩ := Nat.exists_eq_succ_of_ne_zero (show fuel ≠ 0 by omega)
    exact ⟨u, by rw [rollback, if_pos rfl], hu⟩
  | @step h p pindex log hlog hindex hp hlen hrec ih =>
    have hrank := height_step hindex hp
    have hle := hlog.height_le
    obtain ⟨fuel, rfl⟩ := Nat.exists_eq_succ_of_ne_zero (show fuel ≠ 0 by omega)
    have hne : ¬ some h = some fork := by
      intro heq
      cases heq
      omega
    obtain ⟨hpos, hlt⟩ := height_pos hindex hp
    have hh : 0 ≤ (pindex.nHeight : Int) ∧ (pindex.nHeight : Int) < 2 ^ 31 := by omega
    obtain ⟨res, u₁, hdisconnect, hres, hu₁, -⟩ := disconnectBlock_undoes hh hlen hrec base m u hu
    obtain ⟨u₂, hrest, hu₂⟩ := ih hu₁ fuel (by omega)
    refine ⟨u₂, ?_, ?_⟩
    · have hround : rollbackBlock pindex u = .ok u₁ := by
        rw [rollbackBlock, if_pos (show pindex.nHeight > 0 from hpos), hdisconnect]
        exact if_neg hres
      rw [rollback, if_neg hne, Option.bind_some, hindex]
      dsimp only
      rw [hround, hp]
      exact hrest
    · rw [Journal.undo_append]
      exact hu₂

lemma rollforward_append (tip : UInt256) (xs ys : List Nat) (u : CCoinsViewCache) :
    rollforward store tip (xs ++ ys) u = rollforward store tip xs u >>= rollforward store tip ys := by
  induction xs generalizing u with
  | nil => rfl
  | cons n xs ih =>
    rw [cons_append, rollforward, rollforward]
    cases (store.getAncestor tip n).bind (fun h => store.mapBlockIndex[h]?) with
    | none => rfl
    | some pindex =>
      dsimp only
      rw [bind_assoc]
      congr 1
      funext u'
      exact ih u'

lemma rollforward_branch {tip : UInt256} (htip : tip ∈ store.mapBlockIndex.keys)
    (hbranch : BranchLog store fork h log) (hdescends : Descends store.pprev tip h) :
    Redoes (rollforward store tip (List.range' (store.nHeight fork + 1) (store.nHeight h - store.nHeight fork)))
      log := by
  induction hbranch with
  | refl =>
    rw [Nat.sub_self]
    intro base m u hu
    exact ⟨u, rfl, hu⟩
  | @step h p pindex log hlog hindex hp hlen hrec ih =>
    have hprev : store.pprev h = some p := (pprev_eq hindex).trans hp
    have hrank := height_step hindex hp
    have hle := hlog.height_le
    have hcount : store.nHeight h - store.nHeight fork = (store.nHeight p - store.nHeight fork) + 1 := by omega
    have hlast : store.nHeight fork + 1 + 1 * (store.nHeight p - store.nHeight fork) = store.nHeight h := by omega
    intro base m u hu
    obtain ⟨u₁, hfirst, hu₁⟩ := ih (hdescends.tail hprev) base m u hu
    obtain ⟨u₂, hround, hu₂⟩ := rollforwardBlock_redoes hlen hrec base _ u₁ hu₁
    refine ⟨u₂, ?_, ?_⟩
    · rw [hcount, range'_concat, hlast, rollforward_append, hfirst]
      simp only [bind, Except.bind, rollforward]
      rw [getAncestor_of_descends htip hdescends, Option.bind_some, hindex]
      dsimp only
      rw [hround]
    · rw [Journal.redo_append]
      exact hu₂

section Replay

variable {old new : UInt256} {mOld mNew : COutPoint → Option Coin} {db : CoinsDB}

def OldUtxo (store : BlockStore) (old : UInt256) (mOld : COutPoint → Option Coin) : Prop :=
  UtxoOf store old mOld ∨ (old = 0 ∧ mOld = fun _ => none)

variable {m : COutPoint → Option Coin}

lemma UtxoOf.ne_null {h : UInt256} (hutxo : UtxoOf store h m) : h ≠ 0 := by
  rintro rfl
  obtain ⟨pindex, hindex⟩ := hutxo.known
  rw [store.null_unknown] at hindex
  cases hindex

lemma OldUtxo.kept (hold : OldUtxo store old mOld) : ∀ o coin, mOld o = some coin → Kept coin := by
  rcases hold with hutxo | ⟨-, rfl⟩
  · exact hutxo.kept
  · intro o coin hcoin
    cases hcoin

section

variable (hold : OldUtxo store old mOld) (hnew : UtxoOf store new mNew) (hdb : Mixed new old mNew mOld db)
include hold hnew hdb

lemma Mixed.shows :
    Shows db.coins (fun o => db.coins[o]?) ⟨db.coins, ∅⟩ := by
  have hunspent : ∀ (o : COutPoint) (coin : Coin), db.coins[o]? = some coin → coin.isSpent = false := by
    intro o coin hcoin
    rcases hdb.coins o with h | h
    · exact (hold.kept o coin (h.symm.trans hcoin)).1
    · exact (hnew.kept o coin (h.symm.trans hcoin)).1
  refine ⟨⟨hunspent, ?_, ?_⟩, rfl, ?_⟩
  · intro o e he
    simp at he
  · intro o e he
    simp at he
  · funext o
    rw [coinAt_of_uncached (by simp), bind_visible (hunspent o)]

lemma replayCache_spec :
    ∃ cache, replayCache store db.coins new old = .ok cache ∧ Shows db.coins mNew cache := by
  have hshows := hdb.shows hold hnew
  have hknown : ∀ {h m}, UtxoOf store h m → ¬ (store.mapBlockIndex[h]?).isNone = true := fun hutxo => by
    obtain ⟨pindex, hindex⟩ := hutxo.known
    rw [hindex]
    exact Bool.false_ne_true
  have hmem := mem_known.mpr hnew.known
  rcases hold with hutxo | ⟨rfl, rfl⟩
  · obtain ⟨fork, hlca, hforkOld, hforkNew⟩ := lastCommonAncestor_spec (mem_known.mpr hutxo.known) hmem
    obtain ⟨mf, logOld, hmf, hbranchOld, hlegal, rfl⟩ := hutxo.branch hforkOld
    obtain ⟨mf', logNew, hmf', hbranchNew, -, rfl⟩ := hnew.branch hforkNew
    obtain rfl := hmf.unique hmf'
    obtain ⟨u₁, hback, hu₁⟩ := rollback_branch hbranchOld hshows (store.nHeight old + 2) (by omega)
    obtain ⟨u₂, hforward, hu₂⟩ :=
      rollforward_branch hmem hbranchNew Relation.ReflTransGen.refl db.coins _ u₁ hu₁
    rw [Journal.redo_undo_of_mixed hlegal hdb.coins] at hu₂
    refine ⟨u₂, ?_, hu₂⟩
    have hfork : replayFork store new old = .ok (some fork) := by
      rw [replayFork, if_neg hutxo.ne_null, if_neg (hknown hutxo), hlca]
      rfl
    rw [replayCache, if_neg (hknown hnew), hfork, if_neg hutxo.ne_null]
    simp only [bind, Except.bind]
    rw [hback]
    exact hforward
  · -- The first flush: nothing to undo, and every block after the genesis block to redo.
    obtain ⟨root, -, hroot, hheight⟩ := getAncestor_spec hmem (Nat.zero_le _)
    obtain ⟨mf, log, hmf, hbranch, -, rfl⟩ := hnew.branch hroot
    obtain rfl := hmf.at_zero hheight
    obtain ⟨u, hforward, hu⟩ :=
      rollforward_branch hmem hbranch Relation.ReflTransGen.refl db.coins _ _ hshows
    have hmixed : redo log (undo [] fun o => db.coins[o]?) = redo log (fun _ => none) :=
      Journal.redo_undo_of_mixed (Journal.legal_nil _) hdb.coins
    rw [Journal.undo_nil] at hmixed
    rw [hmixed] at hu
    rw [hheight] at hforward
    refine ⟨u, ?_, hu⟩
    rw [replayCache, if_neg (hknown hnew), replayFork, if_pos rfl, if_pos rfl]
    simp only [bind, Except.bind]
    rw [rollback, if_pos rfl]
    exact hforward

end

lemma flushed_of_shows {base : StdMap COutPoint Coin} {cache : CCoinsViewCache}
    (h : Shows base m cache) : flushed cache.cacheCoins (fun o => base[o]?) = m := by
  rw [← h.coins, ← h.base_eq]
  funext o
  cases he : cache.cacheCoins[o]? with
  | none =>
    rw [coinAt_of_uncached he, bind_visible (h.base_unspent o)]
    simp only [flushed, he]
  | some e =>
    rw [coinAt_of_cached he]
    simp only [flushed, he]
    cases hd : e.dirty with
    | true => rfl
    | false => exact (h.clean_base o e he hd).symm

lemma replayBlocks_mixed (hold : OldUtxo store old mOld) (hnew : UtxoOf store new mNew)
    (hdb : Mixed new old mNew mOld db) (policy : FlushPolicy) :
    ∃ batches, replayBlocks store policy db = .ok batches ∧ HoldsTip new mNew (db.writeBatches batches) ∧
      ∀ k < batches.length, Mixed new old mNew mOld (db.writeBatches (batches.take k)) := by
  obtain ⟨cache, hcache, hshows⟩ := replayCache_spec hold hnew hdb
  have hold' : db.oldTip new = .ok old := by
    rw [CoinsDB.oldTip, if_pos hdb.best, hdb.heads]
    exact if_pos rfl
  obtain ⟨batches, hwrite, hdone, hpart⟩ := batchWrite_spec hnew.ne_null hold' policy cache.cacheCoins
  rw [flushed_of_shows hshows] at hdone hpart
  refine ⟨batches, ?_, hdone, ?_⟩
  · rw [replayBlocks, hdb.heads]
    dsimp only
    rw [hcache]
    exact hwrite
  · intro k hk
    cases k with
    | zero => exact hdb
    | succ k =>
      have hmix := hpart (k + 1) (by omega) hk
      refine ⟨hmix.best, hmix.heads, fun o => ?_⟩
      rcases hmix.coins o with h | h
      · rw [h]
        exact hdb.coins o
      · exact .inr h

lemma replayBlocks_holdsTip {tip : UInt256} (hdb : HoldsTip tip m db) (policy : FlushPolicy) :
    replayBlocks store policy db = .ok [] := by
  rw [replayBlocks, hdb.heads]

lemma attempt_holdsTip {tip : UInt256} (hdb : HoldsTip tip m db) (attempt : ReplayAttempt) :
    HoldsTip tip m (attempt.apply store db) := by
  rw [apply, replayBlocks_holdsTip hdb]
  dsimp only
  rw [take_nil]
  exact hdb

/-- In the middle of the transition, or at its end. -/
def Settling (new old : UInt256) (mNew mOld : COutPoint → Option Coin) (db : CoinsDB) : Prop :=
  Mixed new old mNew mOld db ∨ HoldsTip new mNew db

lemma settling_take {batches : List CDBBatch} (hdone : HoldsTip new mNew (db.writeBatches batches)) {k : Nat}
    (hpart : k < batches.length → Mixed new old mNew mOld (db.writeBatches (batches.take k))) :
    Settling new old mNew mOld (db.writeBatches (batches.take k)) := by
  by_cases hk : k < batches.length
  · exact .inl (hpart hk)
  · rw [take_of_length_le (not_lt.mp hk)]
    exact .inr hdone

lemma attempt_keeps (hold : OldUtxo store old mOld) (hnew : UtxoOf store new mNew)
    (hdb : Settling new old mNew mOld db) (attempt : ReplayAttempt) :
    Settling new old mNew mOld (attempt.apply store db) := by
  rcases hdb with hmix | hdone
  · obtain ⟨batches, hreplay, hall, hpart⟩ := replayBlocks_mixed hold hnew hmix attempt.policy
    rw [apply, hreplay]
    exact settling_take hall (hpart _)
  · exact .inr (attempt_holdsTip hdone attempt)

end Replay

def rivalCoinbase : CTransaction := { exampleCoinbase with hash := 20 }

def genesisIndex : StoredBlock := { block := ⟨[]⟩, vtxundo := [] }

def coinbaseIndex (coinbase : CTransaction) : StoredBlock :=
  { pprev := some 1, nHeight := 1, block := ⟨[coinbase]⟩, vtxundo := [] }

def rivalIndex : StdMap UInt256 StoredBlock :=
  (((∅ : StdMap UInt256 StoredBlock).insert 1 genesisIndex).insert 2 (coinbaseIndex exampleCoinbase)).insert 3
    (coinbaseIndex rivalCoinbase)

lemma rivalIndex_cases (hindex : rivalIndex[h]? = some pindex) :
    (h = 3 ∧ pindex = coinbaseIndex rivalCoinbase) ∨ (h = 2 ∧ pindex = coinbaseIndex exampleCoinbase) ∨
      (h = 1 ∧ pindex = genesisIndex) := by
  unfold rivalIndex at hindex
  simp only [Std.ExtTreeMap.getElem?_insert, Std.LawfulEqCmp.compare_eq_iff_eq] at hindex
  split_ifs at hindex <;> simp_all

lemma rivalIndex_one : rivalIndex[(1 : UInt256)]? = some genesisIndex := by
  simp only [rivalIndex, Std.ExtTreeMap.getElem?_insert]
  rfl

lemma rivalIndex_two : rivalIndex[(2 : UInt256)]? = some (coinbaseIndex exampleCoinbase) := by
  simp only [rivalIndex, Std.ExtTreeMap.getElem?_insert]
  rfl

lemma rivalIndex_three : rivalIndex[(3 : UInt256)]? = some (coinbaseIndex rivalCoinbase) := by
  rw [rivalIndex, Std.ExtTreeMap.getElem?_insert_self]

def rivalStore : BlockStore where
  mapBlockIndex := rivalIndex
  genesis := 1
  null_unknown := by simp [rivalIndex]
  genesis_known := ⟨genesisIndex, rivalIndex_one, rfl⟩
  root := by
    intro h pindex hindex hp
    rcases rivalIndex_cases hindex with ⟨-, rfl⟩ | ⟨-, rfl⟩ | ⟨rfl, rfl⟩
    · cases hp
    · cases hp
    · exact ⟨rfl, rfl⟩
  parent := by
    intro h p pindex hindex hp
    rcases rivalIndex_cases hindex with ⟨-, rfl⟩ | ⟨-, rfl⟩ | ⟨-, rfl⟩
    · cases hp
      exact ⟨genesisIndex, rivalIndex_one, rfl⟩
    · cases hp
      exact ⟨genesisIndex, rivalIndex_one, rfl⟩
    · cases hp
  height_lt := by
    intro h pindex hindex
    rcases rivalIndex_cases hindex with ⟨-, rfl⟩ | ⟨-, rfl⟩ | ⟨-, rfl⟩
    · decide
    · decide
    · decide

def coinbaseCoins (coinbase : CTransaction) : COutPoint → Option Coin :=
  redo (outputLog coinbase 1 0 coinbase.vout) (fun _ => none)

lemma coinAt_nothing : coinAt ⟨∅, ∅⟩ = fun _ => none := by
  funext o
  rw [coinAt_of_uncached (by simp)]
  simp

lemma cacheOk_nothing : CacheOk ⟨∅, ∅⟩ := ⟨by simp, by simp, by simp⟩

lemma utxoOf_coinbase {coinbase : CTransaction}
    (hindex : rivalIndex[h]? = some (coinbaseIndex coinbase))
    (hconnect : (connectBlock lenientEnv ⟨[coinbase]⟩ 1 false true false ⟨∅, ∅⟩).result.map ConnectState.vtxundo =
      .ok []) :
    UtxoOf rivalStore h (coinbaseCoins coinbase) := by
  cases hrun : connectBlock lenientEnv ⟨[coinbase]⟩ 1 false true false ⟨∅, ∅⟩ with
  | mk result ss =>
    rw [hrun] at hconnect
    cases result with
    | error e => cases hconnect
    | ok st =>
      have hundo : st.vtxundo = [] := Except.ok.inj hconnect
      have hgenesis : UtxoOf rivalStore 1 (coinAt ⟨∅, ∅⟩) := by
        rw [coinAt_nothing]
        exact .genesis
      have hnone : ∀ o coin, coinAt ⟨∅, ∅⟩ o = some coin → Restorable coin := by
        rw [coinAt_nothing]
        intro o coin hcoin
        cases hcoin
      have hheight : 1 ≤ (coinbaseIndex coinbase).nHeight ∧ (coinbaseIndex coinbase).nHeight < 2 ^ 31 :=
        ⟨le_rfl, by simp [coinbaseIndex]⟩
      have hutxo : UtxoOf rivalStore h (coinAt st.view) :=
        .connect hgenesis hindex rfl cacheOk_nothing hrun hundo.symm
      obtain ⟨-, hplays⟩ := connectBlock_log hheight cacheOk_nothing hnone hrun hundo.symm
      have hlog : coinAt st.view = coinbaseCoins coinbase := by
        rw [hplays.coins, coinAt_nothing]
        simp [undoPairs, coinbaseIndex, txLog, coinbaseCoins]
      rw [← hlog]
      exact hutxo

def rivalDB : CoinsDB where
  coins := ((∅ : StdMap COutPoint Coin).insert ⟨10, 0⟩ (.ofOut ⟨50, [OP_1], -10⟩ 1 true)).insert ⟨10, 1⟩
    (.ofOut ⟨0, [], -10⟩ 1 true)
  bestBlock := some 2

def rivalCache : StdMap COutPoint CCoinsCacheEntry :=
  ((((∅ : StdMap COutPoint CCoinsCacheEntry).insert ⟨10, 0⟩ ⟨.empty, true, false⟩).insert ⟨10, 1⟩
    ⟨.empty, true, false⟩).insert ⟨20, 0⟩ ⟨.ofOut ⟨50, [OP_1], -10⟩ 1 true, true, true⟩).insert ⟨20, 1⟩
    ⟨.ofOut ⟨0, [], -10⟩ 1 true, true, true⟩

lemma coinbaseCoins_eq (h : UInt256) : coinbaseCoins { exampleCoinbase with hash := h } =
    Function.update (Function.update (fun _ => none) ⟨h, 0⟩ (some (.ofOut ⟨50, [OP_1], -10⟩ 1 true))) ⟨h, 1⟩
      (some (.ofOut ⟨0, [], -10⟩ 1 true)) := by
  have h₀ : isUnspendable [OP_1] = false := by decide
  have h₁ : isUnspendable [] = false := by decide
  simp only [coinbaseCoins, exampleCoinbase, outputLog, h₀, h₁, Bool.false_eq_true, if_false]
  rfl

lemma flushed_insert (mapCoins : StdMap COutPoint CCoinsCacheEntry) (m : COutPoint → Option Coin) (o : COutPoint)
    (coin : Coin) (fresh : Bool) :
    flushed (mapCoins.insert o ⟨coin, true, fresh⟩) m = Function.update (flushed mapCoins m) o (visible coin) := by
  funext o'
  by_cases h : o = o'
  · subst h
    rw [Function.update_self, flushed, getElem?_insert_self]
    rfl
  · rw [Function.update_of_ne (Ne.symm h), flushed, flushed, getElem?_insert_ne _ _ h]

lemma rivalDB_holdsTip : HoldsTip 2 (coinbaseCoins exampleCoinbase) rivalDB := by
  refine ⟨rfl, rfl, fun o => ?_⟩
  have hcoins : coinbaseCoins exampleCoinbase = _ := coinbaseCoins_eq 10
  simp [hcoins, rivalDB, Std.ExtTreeMap.getElem?_insert, Function.update_apply, @eq_comm _ o]

lemma flushed_rivalCache : flushed rivalCache (coinbaseCoins exampleCoinbase) = coinbaseCoins rivalCoinbase := by
  have hempty : flushed ∅ (coinbaseCoins exampleCoinbase) = coinbaseCoins exampleCoinbase := by
    funext o
    simp [flushed]
  have hold : coinbaseCoins exampleCoinbase = _ := coinbaseCoins_eq 10
  have hnew : coinbaseCoins rivalCoinbase = _ := coinbaseCoins_eq 20
  rw [rivalCache, flushed_insert, flushed_insert, flushed_insert, flushed_insert, hempty, hold, hnew]
  funext o
  simp only [Function.update_apply, visible_empty]
  split_ifs <;> rfl

def eagerPolicy : FlushPolicy := inOrder (fun _ => true)

lemma utxoOf_two : UtxoOf rivalStore 2 (coinbaseCoins exampleCoinbase) :=
  utxoOf_coinbase rivalIndex_two (by decide +kernel)

lemma utxoOf_three : UtxoOf rivalStore 3 (coinbaseCoins rivalCoinbase) :=
  utxoOf_coinbase rivalIndex_three (by decide +kernel)

/-- A crash after some batches of a flush, then any number of interrupted replays, then a replay: the
coins are those of the new tip, or those of the old one where no batch was written. -/
theorem replayBlocks_recovers {old new : UInt256} {mOld mNew : COutPoint → Option Coin} {db : CoinsDB}
    (hold : OldUtxo store old mOld) (hnew : UtxoOf store new mNew) (hdb : HoldsTip old mOld db)
    {mapCoins : StdMap COutPoint CCoinsCacheEntry} (hflush : flushed mapCoins mOld = mNew) (policy : FlushPolicy) :
    ∃ batches, db.batchWrite policy mapCoins new = .ok batches ∧
      ∀ (k : Nat) (attempts : List ReplayAttempt) (last : FlushPolicy),
        ∃ replayed, replayBlocks store last
            (Runs.run (apply store) (db.writeBatches (batches.take k)) attempts) = .ok replayed ∧
          HoldsTip (if k = 0 then old else new) (if k = 0 then mOld else mNew)
            ((Runs.run (apply store) (db.writeBatches (batches.take k)) attempts).writeBatches replayed) := by
  have hcoins : (fun o => db.coins[o]?) = mOld := funext hdb.coins
  have hold' : db.oldTip new = .ok old := by
    rw [CoinsDB.oldTip, hdb.best, hdb.heads]
    split_ifs with h
    · rw [h]
    · rfl
  obtain ⟨batches, hwrite, hdone, hpart⟩ := batchWrite_spec hnew.ne_null hold' policy mapCoins
  rw [hcoins, hflush] at hdone hpart
  refine ⟨batches, hwrite, fun k attempts last => ?_⟩
  by_cases hk : k = 0
  · rw [if_pos hk, if_pos hk]
    have hrun : HoldsTip old mOld (Runs.run (apply store) (db.writeBatches (batches.take k)) attempts) := by
      subst hk
      exact List.foldlRecOn (motive := HoldsTip old mOld) attempts _ hdb (fun _ h attempt _ =>
        attempt_holdsTip h attempt)
    exact ⟨[], replayBlocks_holdsTip hrun last, hrun⟩
  · rw [if_neg hk, if_neg hk]
    have hrun := List.foldlRecOn (motive := Settling new old mNew mOld) attempts (apply store)
      (settling_take hdone (hpart k (Nat.one_le_iff_ne_zero.mpr hk)))
        (fun _ h attempt _ => attempt_keeps hold hnew h attempt)
    rcases hrun with hmix | hend
    · obtain ⟨replayed, hreplay, hall, -⟩ := replayBlocks_mixed hold hnew hmix last
      exact ⟨replayed, hreplay, hall⟩
    · exact ⟨[], replayBlocks_holdsTip hend last, hend⟩

/-- A crash between batches, and one more during the replay. -/
theorem replayBlocks_recovers_rival :
    ∃ batches replayed, rivalDB.batchWrite eagerPolicy rivalCache 3 = .ok batches ∧
      replayBlocks rivalStore eagerPolicy
        (apply rivalStore (rivalDB.writeBatches (batches.take 2)) ⟨eagerPolicy, 1⟩) = .ok replayed ∧
      HoldsTip 3 (coinbaseCoins rivalCoinbase)
        ((apply rivalStore (rivalDB.writeBatches (batches.take 2)) ⟨eagerPolicy, 1⟩).writeBatches replayed) := by
  obtain ⟨batches, hwrite, hall⟩ :=
    replayBlocks_recovers (.inl utxoOf_two) utxoOf_three rivalDB_holdsTip flushed_rivalCache eagerPolicy
  obtain ⟨replayed, hreplay, hdone⟩ := hall 2 [⟨eagerPolicy, 1⟩] eagerPolicy
  exact ⟨batches, replayed, hwrite, hreplay, hdone⟩

/-- A crash before the first batch leaves the old tip. -/
theorem replayBlocks_beforeFirstBatch :
    UtxoOf rivalStore 2 (coinbaseCoins exampleCoinbase) ∧ UtxoOf rivalStore 3 (coinbaseCoins rivalCoinbase) ∧
      HoldsTip 2 (coinbaseCoins exampleCoinbase) rivalDB ∧
      flushed rivalCache (coinbaseCoins exampleCoinbase) = coinbaseCoins rivalCoinbase ∧
      ∃ batches, rivalDB.batchWrite eagerPolicy rivalCache 3 = .ok batches ∧
        replayBlocks rivalStore eagerPolicy (rivalDB.writeBatches (batches.take 0)) = .ok [] ∧
        ¬ ∀ o, (rivalDB.writeBatches (batches.take 0)).coins[o]? = coinbaseCoins rivalCoinbase o := by
  have hnew : (3 : UInt256) ≠ 0 := by decide
  have hold : rivalDB.oldTip 3 = .ok 2 := rfl
  obtain ⟨batches, hwrite, -⟩ := batchWrite_spec hnew hold eagerPolicy rivalCache
  refine ⟨utxoOf_two, utxoOf_three, rivalDB_holdsTip, flushed_rivalCache, batches, hwrite,
    replayBlocks_holdsTip rivalDB_holdsTip eagerPolicy, ?_⟩
  intro hcoins
  -- the coinbase of the old block is still there
  have hrival : coinbaseCoins rivalCoinbase = _ := coinbaseCoins_eq 20
  have hcoin : rivalDB.coins[(⟨10, 0⟩ : COutPoint)]? = _ := hcoins ⟨10, 0⟩
  rw [hrival, Function.update_of_ne (by decide), Function.update_of_ne (by decide)] at hcoin
  exact absurd hcoin (by decide +kernel)

end Qstees.Proofs
