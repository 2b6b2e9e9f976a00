import Qstees.Model.Coins

/-!
# Caches over caches

A `CCoinsViewCache` is itself a `CCoinsView`, so caches stand on each other: a lookup goes down and leaves an entry in
every cache it passes, and `Flush` hands the entries of a cache to the `BatchWrite` of the next. The best block, which
both carry along, is left out. -/

namespace Qstees

abbrev CCoinsMap := StdMap COutPoint CCoinsCacheEntry

/-- The view at the bottom, with a state of its own, and the order in which a hash map is iterated. -/
structure CoinsEnv (σ : Type) where
  getCoin : σ → COutPoint → Option Coin × σ
  batchWrite : σ → CCoinsMap → σ
  order : CCoinsMap → List (COutPoint × CCoinsCacheEntry)
  order_perm : ∀ mapCoins, (order mapCoins).Perm mapCoins.toList

/-- Caches over a base view, the top one first. -/
structure CoinsStack (σ : Type) where
  caches : List CCoinsMap
  base : σ
deriving DecidableEq

section Lookups

variable {σ : Type} (E : CoinsEnv σ)

/-- A lookup, which fills the caches it passes. -/
def getCoinFrom : List CCoinsMap → σ → COutPoint → Option Coin × CoinsStack σ
  | [], base, outpoint =>
    let (coin, base) := E.getCoin base outpoint
    (coin, ⟨[], base⟩)
  | cache :: caches, base, outpoint =>
    match cache[outpoint]? with
    | some entry => (if entry.coin.isSpent then none else some entry.coin, ⟨cache :: caches, base⟩)
    | none =>
      match getCoinFrom caches base outpoint with
      | (none, ⟨caches, base⟩) => (none, ⟨cache :: caches, base⟩)
      | (some tmp, ⟨caches, base⟩) =>
        (if tmp.isSpent then none else some tmp, ⟨cache.insert outpoint ⟨tmp, false, tmp.isSpent⟩ :: caches, base⟩)

namespace CoinsStack

variable (stack : CoinsStack σ) (outpoint : COutPoint)

def getCoin : Option Coin := (getCoinFrom E stack.caches stack.base outpoint).1

def fetchCoin : CoinsStack σ := (getCoinFrom E stack.caches stack.base outpoint).2

def fetchedEntry : Option CCoinsCacheEntry :=
  (stack.fetchCoin E outpoint).caches.head?.bind (fun cache => cache[outpoint]?)

def accessCoin : Coin :=
  match stack.fetchedEntry E outpoint with
  | none => .empty
  | some entry => entry.coin

def haveCoin : Bool :=
  match stack.fetchedEntry E outpoint with
  | none => false
  | some entry => !entry.coin.isSpent

def addCoin (coin : Coin) (possible_overwrite : Bool) : Except String (CoinsStack σ) :=
  match stack.caches with
  | [] => .ok stack
  | cache :: caches => do
    let view ← (CCoinsViewCache.mk ∅ cache).addCoin outpoint coin possible_overwrite
    return ⟨view.cacheCoins :: caches, stack.base⟩

/-- `SpendCoin` of the topmost cache; once the coin is fetched, it is in the cache or nowhere. -/
def spendCoin : CoinsStack σ :=
  let stack := stack.fetchCoin E outpoint
  match stack.caches with
  | [] => stack
  | cache :: caches => ⟨((CCoinsViewCache.mk ∅ cache).spendCoin outpoint).2.2.cacheCoins :: caches, stack.base⟩

/-- `Uncache`. -/
def uncache : CoinsStack σ :=
  match stack.caches with
  | [] => stack
  | cache :: caches =>
    match cache[outpoint]? with
    | none => stack
    | some entry => if entry.dirty || entry.fresh then stack else ⟨cache.erase outpoint :: caches, stack.base⟩

end CoinsStack

end Lookups

/-- One entry of `BatchWrite`. -/
def batchWriteEntry (cacheCoins : CCoinsMap) (outpoint : COutPoint) (entry : CCoinsCacheEntry) :
    Except String CCoinsMap :=
  if !entry.dirty then .ok cacheCoins
  else
    match cacheCoins[outpoint]? with
    | none =>
      if entry.fresh && entry.coin.isSpent then .ok cacheCoins
      else .ok (cacheCoins.insert outpoint ⟨entry.coin, true, entry.fresh⟩)
    | some itUs =>
      if entry.fresh && !itUs.coin.isSpent then
        .error "FRESH flag misapplied to cache entry for base transaction with spendable outputs"
      else if itUs.fresh && entry.coin.isSpent then .ok (cacheCoins.erase outpoint)
      else .ok (cacheCoins.insert outpoint ⟨entry.coin, true, itUs.fresh⟩)

def batchWriteEntries (cacheCoins : CCoinsMap) (entries : List (COutPoint × CCoinsCacheEntry)) :
    Except String CCoinsMap :=
  entries.foldlM (fun cacheCoins p => batchWriteEntry cacheCoins p.1 p.2) cacheCoins

section Runs

variable {σ : Type} (E : CoinsEnv σ)

/-- `Flush` of the top cache. -/
def CoinsStack.flush (stack : CoinsStack σ) : Except String (CoinsStack σ) :=
  match stack.caches with
  | [] => .ok stack
  | [cache] => .ok ⟨[∅], E.batchWrite stack.base cache⟩
  | cache :: parent :: caches => do
    let parent ← batchWriteEntries parent (E.order cache)
    return ⟨∅ :: parent :: caches, stack.base⟩

def CoinsStack.onLevel (stack : CoinsStack σ) (level : Nat) (f : CoinsStack σ → Except String (CoinsStack σ)) :
    Except String (CoinsStack σ) := do
  let lower ← f ⟨stack.caches.drop level, stack.base⟩
  return ⟨stack.caches.take level ++ lower.caches, lower.base⟩

/-- The calls on a stack of caches. Coins are added and spent at the top; `GetCoin`, `HaveCoin` and `AccessCoin` have
the same effect, that of `FetchCoin`. -/
inductive CoinsCall where
  | addCoin (outpoint : COutPoint) (coin : Coin) (possible_overwrite : Bool)
  | spendCoin (outpoint : COutPoint)
  | read (level : Nat) (outpoint : COutPoint)
  | uncache (level : Nat) (outpoint : COutPoint)
  | newCache
  | flush (level : Nat)
  | deleteCache
deriving DecidableEq, Repr

def CoinsStack.step (stack : CoinsStack σ) : CoinsCall → Except String (CoinsStack σ)
  | .addCoin outpoint coin possible_overwrite => stack.addCoin outpoint coin possible_overwrite
  | .spendCoin outpoint => .ok (stack.spendCoin E outpoint)
  | .read level outpoint => stack.onLevel level (fun lower => .ok (lower.fetchCoin E outpoint))
  | .uncache level outpoint => stack.onLevel level (fun lower => .ok (lower.uncache outpoint))
  | .newCache => .ok ⟨∅ :: stack.caches, stack.base⟩
  | .flush level => stack.onLevel level (CoinsStack.flush E)
  | .deleteCache => .ok ⟨stack.caches.tail, stack.base⟩

def CoinsStack.run (stack : CoinsStack σ) (calls : List CoinsCall) : Except String (CoinsStack σ) :=
  calls.foldlM (CoinsStack.step E) stack

end Runs

end Qstees
