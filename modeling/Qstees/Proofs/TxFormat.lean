import Qstees.Model.TxFormat
import Qstees.Proofs.CoinFormats

/-!
# Transactions read back

A transaction with an input is recovered from its bytes, with its witnesses where they are sent; an empty vector of
inputs can only be the mark of the extended format. -/

namespace Qstees.Proofs

open Codec

/-- The fields have the widths of the source, and no vector is longer than its reader allows. -/
structure InputFits (txin : CTxIn) : Prop where
  hash : txin.prevout.hash < 256 ^ 32
  index : txin.prevout.n < 256 ^ 4
  script : txin.scriptSig.length ≤ MAX_SIZE
  nSequence : txin.nSequence < 256 ^ 4
  stack : txin.scriptWitness.length ≤ MAX_SIZE
  items : ∀ item ∈ txin.scriptWitness, item.length ≤ MAX_SIZE

structure OutputFits (out : CTxOut) : Prop where
  value : -2 ^ 63 ≤ out.nValue ∧ out.nValue < 2 ^ 63
  script : out.scriptPubKey.length ≤ MAX_SIZE

/-- The fields fit the widths in which they are sent. -/
structure TransactionFits (tx : CMutableTransaction) : Prop where
  inputs : ∀ txin ∈ tx.vin, InputFits txin
  outputs : ∀ out ∈ tx.vout, OutputFits out
  counts : tx.vin.length ≤ MAX_SIZE ∧ tx.vout.length ≤ MAX_SIZE
  version : -2 ^ 31 ≤ tx.nVersion ∧ tx.nVersion < 2 ^ 31
  lockTime : tx.nLockTime < 256 ^ 4

def withoutWitness (txin : CTxIn) : CTxIn := { txin with scriptWitness := [] }

/-- The transaction as it is read, with witnesses or without. -/
def received (fAllowWitness : Bool) (tx : CMutableTransaction) : CMutableTransaction :=
  { tx with
    vin := if fAllowWitness then tx.vin else tx.vin.map withoutWitness
    vout := tx.vout.map (fun out => { out with nRounds := -10 }) }

variable {α β : Type} {k n : Nat} {x : Int} {bytes : List UInt8} {tx : CMutableTransaction} {txin : CTxIn}
    {vin : List CTxIn}

lemma recovers_readNat (hn : n < 256 ^ k) : Recovers (readNat k) (writeLE k n) n := by
  refine (recovers_take (length_writeLE k n)).bind_nil ?_
  rw [readLE_writeLE hn]
  exact Recovers.pure n

lemma recovers_readInt (hlow : -(256 ^ k : Nat) ≤ x * 2) (hhigh : x * 2 < (256 ^ k : Nat)) :
    Recovers (readInt k) (writeInt k x) x := by
  have hmod : 0 ≤ x % (256 ^ k : Nat) ∧ x % (256 ^ k : Nat) < (256 ^ k : Nat) :=
    ⟨Int.emod_nonneg _ (by positivity), Int.emod_lt_of_pos _ (by positivity)⟩
  refine (recovers_readNat (by omega)).bind_nil ?_
  rw [Int.toNat_of_nonneg hmod.1, Int.emod_bmod, Int.bmod_eq_of_le_mul_two hlow hhigh]
  exact Recovers.pure x

lemma recovers_readVector {read : Reader β} {write : α → List UInt8} {value : α → β} {v : List α}
    (hsize : v.length ≤ MAX_SIZE)
    (h : ∀ a ∈ v, Recovers read (write a) (value a)) : Recovers (readVector read) (writeVector write v) (v.map value) :=
  (recovers_compactSize hsize).bind (Recovers.repeated h)

lemma recovers_readBytes (hsize : bytes.length ≤ MAX_SIZE) : Recovers readBytes (writeBytes bytes) bytes :=
  (recovers_compactSize hsize).bind (recovers_take rfl)

lemma InputFits.recovers (h : InputFits txin) :
    Recovers unserializeInput (serializeInput txin) (withoutWitness txin) := by
  refine (recovers_take (by rw [List.length_reverse, length_writeLE])).bind ?_
  rw [List.reverse_reverse, readLE_writeLE h.hash]
  refine (recovers_readNat h.index).bind ((recovers_readBytes h.script).bind ?_)
  exact (recovers_readNat h.nSequence).bind_nil (Recovers.pure _)

lemma OutputFits.recovers {out : CTxOut} (h : OutputFits out) :
    Recovers unserializeOutput (serializeOutput out) { out with nRounds := -10 } := by
  have hvalue := h.value
  refine (recovers_readInt (by omega) (by omega)).bind ?_
  exact (recovers_readBytes h.script).bind_nil (Recovers.pure _)

lemma recovers_readWitnesses (h : ∀ txin ∈ vin, InputFits txin) :
    Recovers (readWitnesses (vin.map withoutWitness)) (vin.flatMap writeWitness) vin := by
  induction vin with
  | nil => exact Recovers.pure []
  | cons txin vin ih =>
    obtain ⟨hfirst, hrest⟩ := List.forall_mem_cons.mp h
    have hstack : Recovers (readVector readBytes) (writeWitness txin) (txin.scriptWitness.map id) :=
      recovers_readVector hfirst.stack fun item hitem => recovers_readBytes (hfirst.items item hitem)
    rw [List.map_id] at hstack
    exact hstack.bind ((ih hrest).bind_nil (Recovers.pure _))

section Formats

variable (h : TransactionFits tx) (hvin : tx.vin ≠ [])
include h

lemma TransactionFits.ins : Recovers (readVector unserializeInput) (writeVector serializeInput tx.vin)
    (tx.vin.map withoutWitness) :=
  recovers_readVector h.counts.1 fun txin htxin => (h.inputs txin htxin).recovers

lemma TransactionFits.outs : Recovers (readVector unserializeOutput) (writeVector serializeOutput tx.vout)
    (received true tx).vout :=
  recovers_readVector h.counts.2 fun out hout => (h.outputs out hout).recovers

lemma TransactionFits.extended : Recovers (readInsOuts true)
    (writeVector serializeInput [] ++ [1] ++ (writeVector serializeInput tx.vin ++ writeVector serializeOutput tx.vout))
      (1, tx.vin.map withoutWitness, (received true tx).vout) := by
  have hdummy : Recovers (readVector unserializeInput) (writeVector serializeInput [])
      (([] : List CTxIn).map withoutWitness) := recovers_readVector (by decide) (by simp)
  rw [List.append_assoc]
  refine hdummy.bind ?_
  rw [if_pos (by simp)]
  refine (recovers_byte 1).bind ?_
  rw [if_pos (by decide)]
  exact h.ins.bind (h.outs.bind_nil (Recovers.pure _))

lemma TransactionFits.parts {fAllowWitness : Bool} {flags : UInt8} {front back : List UInt8} {vin vin' : List CTxIn}
    {vout : List CTxOut} (hfront : Recovers (readInsOuts fAllowWitness) front (flags, vin, vout))
    (hback : Recovers (readFlagged fAllowWitness flags vin) back (0, vin')) :
    Recovers (unserializeTransaction fAllowWitness)
      (writeInt 4 tx.nVersion ++ (front ++ (back ++ writeLE 4 tx.nLockTime)))
      ⟨vin', vout, tx.nVersion, tx.nLockTime⟩ := by
  have hversion := h.version
  refine (recovers_readInt (by omega) (by omega)).bind (hfront.bind (hback.bind ?_))
  exact recovers_ite_throw (by simp) ((recovers_readNat h.lockTime).bind_nil (Recovers.pure _))

include hvin

lemma TransactionFits.basic (fAllowWitness : Bool) :
    Recovers (readInsOuts fAllowWitness) (writeVector serializeInput tx.vin ++ writeVector serializeOutput tx.vout)
      (0, tx.vin.map withoutWitness, (received true tx).vout) := by
  refine h.ins.bind ?_
  rw [if_neg (by simp [hvin])]
  exact h.outs.bind_nil (Recovers.pure _)

lemma TransactionFits.recovers {fSend fAllowWitness : Bool} (hsend : fSend = true → fAllowWitness = true) :
    Recovers (unserializeTransaction fAllowWitness) (serializeTransaction fSend tx) (received fSend tx) := by
  unfold serializeTransaction
  cases hflag : fSend && tx.hasWitness with
  | false =>
    have hplain : (received fSend tx).vin = tx.vin.map withoutWitness := by
      cases fSend with
      | false => rfl
      | true =>
        have hnone : ∀ txin ∈ tx.vin, txin = withoutWitness txin := by
          rintro ⟨prevout, scriptSig, nSequence, stack⟩ htxin
          obtain rfl : stack = [] := by simpa using List.any_eq_false.mp hflag _ htxin
          rfl
        exact (List.map_id _).symm.trans (List.map_congr_left hnone)
    have hback : Recovers (readFlagged fAllowWitness 0 (tx.vin.map withoutWitness)) []
      (0, (received fSend tx).vin) := by
      rw [hplain]
      exact Recovers.pure _
    have hparts := h.parts (h.basic hvin fAllowWitness) hback
    rw [List.append_assoc] at hparts
    exact hparts
  | true =>
    obtain ⟨rfl, -⟩ := Bool.and_eq_true_iff.mp hflag
    obtain rfl := hsend rfl
    have hback : Recovers (readFlagged true 1 (tx.vin.map withoutWitness)) (tx.vin.flatMap writeWitness) (0, tx.vin) :=
      (recovers_readWitnesses h.inputs).bind_nil (Recovers.pure _)
    have hparts := h.parts h.extended hback
    rw [List.append_assoc (writeVector serializeInput [] ++ [1]), List.append_assoc (writeVector serializeInput tx.vin)]
      at hparts
    exact hparts

end Formats

lemma readLE_lt (bytes : List UInt8) : readLE bytes < 256 ^ bytes.length := by
  induction bytes with
  | nil => decide
  | cons b bytes ih =>
    have hb := b.toNat_lt
    rw [readLE, List.length_cons, pow_succ]
    omega

lemma writeLE_readLE (bytes : List UInt8) : writeLE bytes.length (readLE bytes) = bytes := by
  induction bytes with
  | nil => rfl
  | cons b bytes ih =>
    have hb := b.toNat_lt
    have hlow : (b.toNat + 256 * readLE bytes) % 256 = b.toNat := by omega
    have hhigh : (b.toNat + 256 * readLE bytes) / 256 = readLE bytes := by omega
    rw [readLE, List.length_cons, writeLE, hlow, hhigh, ih, UInt8.ofNat_toNat]

variable {stream rest : List UInt8}

lemma readSize_canonical {min : Nat} (h : readSize k min stream = .ok (n, rest)) :
    min ≤ n ∧ n < 256 ^ k ∧ stream = writeLE k n ++ rest := by
  obtain ⟨bytes, mid, htake, h⟩ := bind_eq_ok.mp h
  unfold take at htake
  split_ifs at h htake with hmin hlong
  · cases h
  cases htake
  cases h
  have hlength : (stream.take k).length = k := by rw [List.length_take]; omega
  have hlt := readLE_lt (stream.take k)
  have hwrite := writeLE_readLE (stream.take k)
  rw [hlength] at hlt hwrite
  exact ⟨not_lt.mp hmin, hlt, by rw [hwrite, List.take_append_drop]⟩

lemma readCompactSize_canonical (h : readCompactSize stream = .ok (n, rest)) : stream = writeCompactSize n ++ rest := by
  obtain ⟨b, mid, hbyte, hbody⟩ := bind_eq_ok.mp h
  obtain ⟨m, mid', hsize, hcheck⟩ := bind_eq_ok.mp hbody
  cases stream with
  | nil => cases hbyte
  | cons b' stream =>
    cases hbyte
    split_ifs at hcheck with hmax
    · cases hcheck
    cases hcheck
    have hle : n ≤ 0x02000000 := not_lt.mp hmax
    unfold readSizeAfter at hsize
    unfold writeCompactSize
    split_ifs at hsize with hsmall htwo hfour
    · cases hsize
      have hlt : b.toNat < 253 := UInt8.lt_iff_toNat_lt.mp hsmall
      rw [if_pos hlt, UInt8.ofNat_toNat]
      rfl
    · obtain ⟨hlow, hhigh, rfl⟩ := readSize_canonical hsize
      rw [if_neg (by omega), if_pos (by omega), htwo]
      rfl
    · obtain ⟨hlow, hhigh, rfl⟩ := readSize_canonical hsize
      rw [if_neg (by omega), if_neg (by omega), if_pos (by omega), hfour]
      rfl
    · have hlow := (readSize_canonical hsize).1
      omega

/-- Transactions with an input read back up to the last byte, with their witnesses or without them, and what is read as
a size is the one encoding of it. -/
theorem transactionFormat_readBack :
    (∀ tx, TransactionFits tx → tx.vin ≠ [] →
      Recovers (unserializeTransaction true) (serializeTransaction true tx) (received true tx) ∧
        ∀ fAllowWitness, Recovers (unserializeTransaction fAllowWitness) (serializeTransaction false tx)
          (received false tx)) ∧
      ∀ stream n rest, readCompactSize stream = .ok (n, rest) → stream = writeCompactSize n ++ rest :=
  ⟨fun _ h hvin => ⟨h.recovers hvin id, fun _ => h.recovers hvin nofun⟩, fun _ _ _ => readCompactSize_canonical⟩

def witnessSpend : CMutableTransaction :=
  ⟨[⟨⟨1, 2⟩, [0x51], 3, [[4, 5], []]⟩], [⟨-1, [0x52], -10⟩], -2, 6⟩

theorem transactionFormat_readBack_spend :
    unserializeTransaction true (serializeTransaction true witnessSpend) = .ok (witnessSpend, []) ∧
      [0x05] = writeCompactSize 5 := by
  have hfits : TransactionFits witnessSpend :=
    ⟨List.forall_mem_singleton.mpr ⟨by decide, by decide, by decide, by decide, by decide, by decide⟩,
      List.forall_mem_singleton.mpr ⟨by decide, by decide⟩, by decide, by decide, by decide⟩
  have hread := (transactionFormat_readBack.1 witnessSpend hfits (by decide)).1 []
  rw [List.append_nil] at hread
  exact ⟨hread, transactionFormat_readBack.2 _ 5 [] rfl⟩

end Qstees.Proofs
