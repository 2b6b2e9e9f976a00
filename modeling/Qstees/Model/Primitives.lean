import Mathlib

/-!
# Primitive data of the node

Amounts (`CAmount`), outpoints, transactions and blocks. Fixed-width fields are `Nat` or `Int`;
a width is written out where the source depends on it. A `uint256` is the number read
from its bytes in memory order, so that `uint256::Compare` is the order on numbers.
-/

namespace Qstees

/-- `std::map`: iteration is in key order and equality is extensional. -/
abbrev StdMap (K V : Type) [Ord K] [Std.TransOrd K] := Std.ExtTreeMap K V

def stdString (v : List UInt8) : String :=
  String.ofList (v.map (fun b => Char.ofNat b.toNat))

abbrev UInt256 := Nat

def COIN : Int := 100000000

def MAX_MONEY : Int := 600000000 * COIN

def moneyRange (nValue : Int) : Bool := decide (0 ≤ nValue ∧ nValue ≤ MAX_MONEY)

lemma moneyRange_iff (x : Int) : moneyRange x = true ↔ 0 ≤ x ∧ x ≤ MAX_MONEY := by
  simp only [moneyRange, decide_eq_true_eq]

lemma MAX_MONEY_eq : MAX_MONEY = 60000000000000000 := rfl

structure COutPoint where
  hash : UInt256
  n : Nat
deriving DecidableEq, Repr

def COutPoint.cmp : COutPoint → COutPoint → Ordering :=
  compareLex (compareOn COutPoint.hash) (compareOn COutPoint.n)

instance : Ord COutPoint := ⟨COutPoint.cmp⟩

instance : Std.TransOrd COutPoint :=
  inferInstanceAs (Std.TransCmp (compareLex (compareOn COutPoint.hash) (compareOn COutPoint.n)))

instance : Std.LawfulEqOrd COutPoint where
  eq_of_compare {a b} h := by
    have h' : compare a.hash b.hash = .eq ∧ compare a.n b.n = .eq :=
      Ordering.then_eq_eq.mp h
    rw [Nat.compare_eq_eq, Nat.compare_eq_eq] at h'
    cases a
    cases b
    simp_all

def COutPoint.isNull (o : COutPoint) : Bool := o.hash == 0 && o.n == 0xffffffff

abbrev CScript := List UInt8

def SEQUENCE_FINAL : Nat := 0xffffffff

structure CTxIn where
  prevout : COutPoint
  scriptSig : CScript := []
  nSequence : Nat := SEQUENCE_FINAL
  scriptWitness : List (List UInt8) := []
deriving DecidableEq, Repr

structure CTxOut where
  nValue : Int
  scriptPubKey : CScript
  nRounds : Int := -10
deriving DecidableEq, Repr

def CTxOut.null : CTxOut := ⟨-1, [], -10⟩

def CTxOut.isNull (out : CTxOut) : Bool := out.nValue == -1

/-- `hash` is the cached `ComputeHash()`; nothing is assumed of the hash function. -/
structure CTransaction where
  vin : List CTxIn
  vout : List CTxOut
  nVersion : Int := 1
  nLockTime : Nat := 0
  hash : UInt256
deriving DecidableEq, Repr

def CTransaction.isCoinBase (tx : CTransaction) : Bool :=
  match tx.vin with
  | [txin] => txin.prevout.isNull
  | _ => false

structure CBlock where
  vtx : List CTransaction
deriving DecidableEq, Repr

end Qstees
