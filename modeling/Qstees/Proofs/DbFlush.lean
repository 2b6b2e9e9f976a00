import Qstees.Model.CoinsDB
import Qstees.Proofs.CoinsView

/-!
# Writing a cache to the database

The batches of `BatchWrite`, concatenated, are the markers of the transition, the dirty coins in the order of the
iteration, and the markers of the new tip.
-/

namespace Qstees.Proofs

open List

/-- The coins once a cache is written. -/
def flushed (mapCoins : StdMap COutPoint CCoinsCacheEntry) (m : COutPoint → Option Coin)
    (o : COutPoint) : Option Coin :=
  match mapCoins[o]? with
  | some entry => if entry.dirty then visible entry.coin else m o
  | none => m o

/-- The database holds exactly the coins `m` of a tip. -/
structure HoldsTip (tip : UInt256) (m : COutPoint → Option Coin) (db : CoinsDB) : Prop where
  best : db.getBestBlock = tip
  heads : db.getHeadBlocks = []
  coins : ∀ o, db.coins[o]? = m o

/-- Between two tips: each coin is the old or the new one. -/
structure Mixed (new old : UInt256) (mNew mOld : COutPoint → Option Coin) (db : CoinsDB) : Prop where
  best : db.getBestBlock = 0
  heads : db.getHeadBlocks = [new, old]
  coins : ∀ o, db.coins[o]? = mOld o ∨ db.coins[o]? = mNew o

lemma writeBatches_eq (db : CoinsDB) (batches : List CDBBatch) :
    db.writeBatches batches = db.writeBatch batches.flatten := by
  unfold CoinsDB.writeBatches CoinsDB.writeBatch
  rw [foldl_flatten]

lemma writeBatch_append (db : CoinsDB) (batch batch' : CDBBatch) :
    db.writeBatch (batch ++ batch') = (db.writeBatch batch).writeBatch batch' := foldl_append

def inOrder (full : CDBBatch → Bool) : FlushPolicy := ⟨fun mapCoins => mapCoins.toList, fun _ => .rfl, full⟩

def coinOps (entries : List (COutPoint × CCoinsCacheEntry)) : CDBBatch := entries.flatMap (fun p => entryOps p.1 p.2)

lemma batchLoop_flatten (full : CDBBatch → Bool) (entries : List (COutPoint × CCoinsCacheEntry)) (batch : CDBBatch) :
    (batchLoop full entries batch).1.flatten ++ (batchLoop full entries batch).2 = batch ++ coinOps entries := by
  induction entries generalizing batch with
  | nil => simp [batchLoop, coinOps]
  | cons p entries ih =>
    obtain ⟨outpoint, entry⟩ := p
    have hops : coinOps ((outpoint, entry) :: entries) = entryOps outpoint entry ++ coinOps entries := flatMap_cons
    unfold batchLoop
    dsimp only
    rw [hops]
    split_ifs
    · have hrest := ih []
      rw [flatten_cons, append_assoc, hrest]
      simp
    · rw [ih, append_assoc]

lemma batchLoop_take {full : CDBBatch → Bool} {entries : List (COutPoint × CCoinsCacheEntry)}
    {batch : CDBBatch} {k : Nat} (hpos : 1 ≤ k) (hk : k ≤ (batchLoop full entries batch).1.length) :
    ∃ done rest, entries = done ++ rest ∧ ((batchLoop full entries batch).1.take k).flatten =
      batch ++ coinOps done := by
  induction entries generalizing batch k with
  | nil =>
    simp only [batchLoop, length_nil] at hk
    omega
  | cons p entries ih =>
    obtain ⟨outpoint, entry⟩ := p
    have hops : ∀ done, coinOps ((outpoint, entry) :: done) = entryOps outpoint entry ++ coinOps done :=
      fun _ => flatMap_cons
    unfold batchLoop at hk ⊢
    dsimp only at hk ⊢
    split_ifs at hk ⊢ with hfull
    · obtain ⟨k, rfl⟩ := Nat.exists_eq_add_of_le' hpos
      rw [length_cons] at hk
      rw [take_succ_cons, flatten_cons]
      cases k with
      | zero => exact ⟨[(outpoint, entry)], entries, rfl, by rw [hops]; simp [coinOps]⟩
      | succ k =>
        obtain ⟨done, rest, hsplit, htake⟩ := @ih [] (k + 1) (by omega) (by omega)
        refine ⟨(outpoint, entry) :: done, rest, by rw [hsplit]; rfl, ?_⟩
        rw [htake, hops]
        simp
    · obtain ⟨done, rest, hsplit, htake⟩ := ih hpos hk
      refine ⟨(outpoint, entry) :: done, rest, by rw [hsplit]; rfl, ?_⟩
      rw [htake, hops, append_assoc]

lemma writeBatch_entryOps (db : CoinsDB) (outpoint : COutPoint) (entry : CCoinsCacheEntry) :
    (db.writeBatch (entryOps outpoint entry)).bestBlock = db.bestBlock ∧
      (db.writeBatch (entryOps outpoint entry)).headBlocks = db.headBlocks ∧
      ∀ o, (db.writeBatch (entryOps outpoint entry)).coins[o]? =
        if entry.dirty = true ∧ outpoint = o then visible entry.coin else db.coins[o]? := by
  unfold entryOps
  cases entry.dirty with
  | false => exact ⟨rfl, rfl, fun o => by simp [CoinsDB.writeBatch]⟩
  | true =>
    cases hs : entry.coin.isSpent with
    | true =>
      refine ⟨rfl, rfl, fun o => ?_⟩
      simp only [if_true, true_and, visible, hs]
      by_cases ho : outpoint = o
      · rw [if_pos ho, ← ho]
        exact getElem?_erase_self db.coins outpoint
      · rw [if_neg ho]
        exact getElem?_erase_ne db.coins ho
    | false =>
      refine ⟨rfl, rfl, fun o => ?_⟩
      simp only [if_true, true_and, visible, hs, Bool.false_eq_true, if_false]
      by_cases ho : outpoint = o
      · rw [if_pos ho, ← ho]
        exact getElem?_insert_self db.coins outpoint entry.coin
      · rw [if_neg ho]
        exact getElem?_insert_ne db.coins entry.coin ho

lemma writeBatch_coinOps {target : COutPoint → Option Coin} {entries : List (COutPoint × CCoinsCacheEntry)}
    (hright : ∀ p ∈ entries, p.2.dirty = true → visible p.2.coin = target p.1) (db : CoinsDB) :
    (db.writeBatch (coinOps entries)).bestBlock = db.bestBlock ∧
      (db.writeBatch (coinOps entries)).headBlocks = db.headBlocks ∧
      ∀ o, ((db.writeBatch (coinOps entries)).coins[o]? = target o ∨
          (db.writeBatch (coinOps entries)).coins[o]? = db.coins[o]?) ∧
        ((∃ e, (o, e) ∈ entries ∧ e.dirty = true) → (db.writeBatch (coinOps entries)).coins[o]? = target o) := by
  induction entries generalizing db with
  | nil => exact ⟨rfl, rfl, fun o => ⟨.inr rfl, fun ⟨e, he, _⟩ => absurd he not_mem_nil⟩⟩
  | cons p entries ih =>
    obtain ⟨outpoint, entry⟩ := p
    obtain ⟨hbest₁, hheads₁, hcoins₁⟩ := writeBatch_entryOps db outpoint entry
    obtain ⟨hbest, hheads, hcoins⟩ := ih (fun q hq => hright q (mem_cons_of_mem _ hq))
      (db.writeBatch (entryOps outpoint entry))
    have hops : coinOps ((outpoint, entry) :: entries) = entryOps outpoint entry ++ coinOps entries := flatMap_cons
    rw [hops, writeBatch_append]
    have hfirst : entry.dirty = true → (db.writeBatch (entryOps outpoint entry)).coins[outpoint]? =
      target outpoint := by
      intro hdirty
      rw [hcoins₁, if_pos ⟨hdirty, rfl⟩]
      exact hright (outpoint, entry) mem_cons_self hdirty
    refine ⟨hbest.trans hbest₁, hheads.trans hheads₁, fun o => ?_⟩
    obtain ⟨hsome, hall⟩ := hcoins o
    by_cases ho : entry.dirty = true ∧ outpoint = o
    · -- From the first entry on the coin is that of the target.
      obtain ⟨hdirty, rfl⟩ := ho
      rw [hfirst hdirty, or_self_iff] at hsome
      exact ⟨.inl hsome, fun _ => hsome⟩
    · rw [hcoins₁, if_neg ho] at hsome
      refine ⟨hsome, ?_⟩
      rintro ⟨e, he, hdirty⟩
      rcases mem_cons.mp he with heq | he
      · obtain ⟨rfl, rfl⟩ := Prod.mk.inj heq
        exact absurd ⟨hdirty, rfl⟩ ho
      · exact hall ⟨e, he, hdirty⟩

lemma mem_order {policy : FlushPolicy} {mapCoins : StdMap COutPoint CCoinsCacheEntry} {o : COutPoint}
    {e : CCoinsCacheEntry} :
    (o, e) ∈ policy.order mapCoins ↔ mapCoins[o]? = some e := by
  rw [(policy.order_perm mapCoins).mem_iff, Std.ExtTreeMap.mem_toList_iff_getElem?_eq_some]

lemma right_of_flushed {policy : FlushPolicy} {mapCoins : StdMap COutPoint CCoinsCacheEntry}
    {m : COutPoint → Option Coin} :
    ∀ p ∈ policy.order mapCoins, p.2.dirty = true → visible p.2.coin = flushed mapCoins m p.1 := by
  rintro ⟨o, e⟩ hp hdirty
  rw [flushed, mem_order.mp hp]
  exact (if_pos hdirty).symm

lemma writeBatch_order (policy : FlushPolicy) (mapCoins : StdMap COutPoint CCoinsCacheEntry)
    (db : CoinsDB) (o : COutPoint) :
    (db.writeBatch (coinOps (policy.order mapCoins))).coins[o]? = flushed mapCoins (fun o => db.coins[o]?) o := by
  obtain ⟨-, -, hcoins⟩ := writeBatch_coinOps (right_of_flushed (m := fun o => db.coins[o]?)) db
  obtain ⟨hsome, hall⟩ := hcoins o
  rcases hsome with htarget | hsame
  · exact htarget
  by_cases hdirty : ∃ e, (o, e) ∈ policy.order mapCoins ∧ e.dirty = true
  · exact hall hdirty
  · -- A coin without a dirty entry stays.
    rw [hsame, flushed]
    cases he : mapCoins[o]? with
    | none => rfl
    | some e =>
      have hclean : ¬ e.dirty = true := fun hd => hdirty ⟨e, mem_order.mpr he, hd⟩
      exact (if_neg hclean).symm

lemma batchWrite_spec {db : CoinsDB} {new old : UInt256} (hnew : new ≠ 0) (hold : db.oldTip new = .ok old)
    (policy : FlushPolicy) (mapCoins : StdMap COutPoint CCoinsCacheEntry) :
    ∃ batches, db.batchWrite policy mapCoins new = .ok batches ∧
      HoldsTip new (flushed mapCoins (fun o => db.coins[o]?)) (db.writeBatches batches) ∧
      ∀ k, 1 ≤ k → k < batches.length →
        Mixed new old (flushed mapCoins (fun o => db.coins[o]?)) (fun o => db.coins[o]?)
          (db.writeBatches (batches.take k)) := by
  have hrun : db.batchWrite policy mapCoins new = .ok
      ((batchLoop policy.full (policy.order mapCoins) [.eraseBestBlock, .writeHeadBlocks [new, old]]).1 ++
        [(batchLoop policy.full (policy.order mapCoins) [.eraseBestBlock, .writeHeadBlocks [new, old]]).2 ++
          [.eraseHeadBlocks, .writeBestBlock new]]) := by
    rw [CoinsDB.batchWrite, if_neg hnew, hold]
    rfl
  have hflat := batchLoop_flatten policy.full (policy.order mapCoins) [.eraseBestBlock, .writeHeadBlocks [new, old]]
  have htake := @batchLoop_take policy.full (policy.order mapCoins) [.eraseBestBlock, .writeHeadBlocks [new, old]]
  generalize batchLoop policy.full (policy.order mapCoins) [.eraseBestBlock, .writeHeadBlocks [new, old]] = loop at *
  refine ⟨_, hrun, ?_, ?_⟩
  · rw [writeBatches_eq, flatten_append, flatten_singleton, ← append_assoc, hflat, writeBatch_append,
      writeBatch_append]
    refine ⟨rfl, rfl, fun o => ?_⟩
    exact writeBatch_order policy mapCoins (db.writeBatch [.eraseBestBlock, .writeHeadBlocks [new, old]]) o
  · intro k hpos hk
    rw [length_append, length_singleton] at hk
    obtain ⟨done, rest, hsplit, hdone⟩ := htake hpos (by omega)
    rw [writeBatches_eq, take_append_of_le_length (by omega), hdone, writeBatch_append]
    have hright : ∀ p ∈ done, p.2.dirty = true → visible p.2.coin = flushed mapCoins (fun o => db.coins[o]?) p.1 :=
      fun p hp => right_of_flushed p (hsplit ▸ mem_append_left _ hp)
    obtain ⟨hbest, hheads, hcoins⟩ :=
      writeBatch_coinOps hright (db.writeBatch [.eraseBestBlock, .writeHeadBlocks [new, old]])
    refine ⟨by rw [CoinsDB.getBestBlock, hbest]; rfl, by rw [CoinsDB.getHeadBlocks, hheads]; rfl, fun o => ?_⟩
    exact (hcoins o).1.symm

end Qstees.Proofs
