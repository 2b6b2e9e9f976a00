import Mathlib

/-!
# Byte formats that read back

A reader takes a value from the front of a byte stream. It recovers a value from some bytes when it returns the value
and stops behind them, whatever follows; formats built in sequence read back in sequence. The variable-length integers
are the big-endian base-128 digits in which every digit but the last is one less. -/

namespace Codec

open List

abbrev Reader (α : Type) := StateT (List UInt8) (Except String) α

/-- The reader returns the value and leaves what follows the bytes. -/
def Recovers {α : Type} (read : Reader α) (bytes : List UInt8) (a : α) : Prop :=
  ∀ rest, read (bytes ++ rest) = .ok (a, rest)

variable {α β : Type}

lemma Recovers.pure (a : α) : Recovers (Pure.pure a) [] a := fun _ => rfl

lemma Recovers.bind {read : Reader α} {next : α → Reader β} {bytes bytes' : List UInt8} {a : α} {b : β}
    (h : Recovers read bytes a) (h' : Recovers (next a) bytes' b) : Recovers (read >>= next) (bytes ++ bytes') b := by
  intro rest
  change (do let (a, rest) ← read (bytes ++ bytes' ++ rest); next a rest) = _
  rw [append_assoc, h (bytes' ++ rest)]
  exact h' rest

lemma Recovers.bind_nil {read : Reader α} {next : α → Reader β} {bytes : List UInt8} {a : α} {b : β}
    (h : Recovers read bytes a) (h' : Recovers (next a) [] b) : Recovers (read >>= next) bytes b := by
  have hbind := h.bind h'
  rw [append_nil] at hbind
  exact hbind

lemma bind_eq_ok {read : Reader α} {next : α → Reader β} {stream rest : List UInt8} {b : β} :
    (read >>= next) stream = .ok (b, rest) ↔ ∃ a mid, read stream = .ok (a, mid) ∧ next a mid = .ok (b, rest) := by
  change (do let (a, mid) ← read stream; next a mid) = _ ↔ _
  cases read stream with
  | error e => simp [bind, Except.bind]
  | ok p => simp [bind, Except.bind, Prod.ext_iff]

def byte : Reader UInt8 := fun stream =>
  match stream with
  | [] => .error "end of data"
  | b :: stream => .ok (b, stream)

lemma recovers_byte (b : UInt8) : Recovers byte [b] b := fun _ => rfl

def take (n : Nat) : Reader (List UInt8) := fun stream =>
  if stream.length < n then .error "end of data" else .ok (stream.take n, stream.drop n)

lemma recovers_take {bytes : List UInt8} {n : Nat} (h : bytes.length = n) : Recovers (take n) bytes bytes := by
  intro rest
  subst h
  rw [take, if_neg (by simp), take_left, drop_left]

def repeated (read : Reader α) : Nat → Reader (List α)
  | 0 => Pure.pure []
  | n + 1 => do
    let a ← read
    let rest ← repeated read n
    Pure.pure (a :: rest)

lemma Recovers.repeated {read : Reader β} {write : α → List UInt8} {value : α → β} {values : List α}
    (h : ∀ a ∈ values, Recovers read (write a) (value a)) :
    Recovers (repeated read values.length) (values.flatMap write) (values.map value) := by
  induction values with
  | nil => exact Recovers.pure []
  | cons a values ih =>
    obtain ⟨hhead, htail⟩ := forall_mem_cons.mp h
    exact hhead.bind ((ih htail).bind_nil (Recovers.pure _))

/-- The digits, the last one first; at most `fuel` of them. -/
def varIntDigits : Nat → Nat → Bool → List UInt8
  | 0, _, _ => []
  | fuel + 1, n, more =>
    UInt8.ofNat (n % 128 + if more then 128 else 0) :: if n ≤ 127 then [] else varIntDigits fuel (n / 128 - 1) true

def writeVarInt (fuel n : Nat) : List UInt8 := (varIntDigits fuel n false).reverse

/-- The digits read so far are `n`; the result must not exceed `max`. -/
def readVarIntFrom (max : Nat) : Nat → Reader Nat
  | _, [] => .error "end of data"
  | n, b :: stream =>
    if n > max / 128 then .error "ReadVarInt(): size too large"
    else
      let n := n * 128 + b.toNat % 128
      if 128 ≤ b.toNat then
        if n = max then .error "ReadVarInt(): size too large" else readVarIntFrom max (n + 1) stream
      else .ok (n, stream)

def readVarInt (max : Nat) : Reader Nat := readVarIntFrom max 0

lemma readVarIntFrom_digit {max n : Nat} {more : Bool} (hn : n ≤ max) (hmore : more = true → n < max)
    (rest : List UInt8) :
    readVarIntFrom max (n / 128) (UInt8.ofNat (n % 128 + if more then 128 else 0) :: rest) =
      if more then readVarIntFrom max (n + 1) rest else .ok (n, rest) := by
  have hhigh : ¬n / 128 > max / 128 := Nat.not_lt.mpr (Nat.div_le_div_right hn)
  have hvalue : n / 128 * 128 + n % 128 = n := by omega
  rw [readVarIntFrom, if_neg hhigh]
  cases more with
  | false =>
    have hbyte : (UInt8.ofNat (n % 128 + 0)).toNat = n % 128 := by
      rw [UInt8.toNat_ofNat', Nat.add_zero]
      omega
    simp only [Bool.false_eq_true, if_false, hbyte, Nat.mod_mod, hvalue]
    rw [if_neg (by omega)]
  | true =>
    have hbyte : (UInt8.ofNat (n % 128 + 128)).toNat = n % 128 + 128 := by
      rw [UInt8.toNat_ofNat']
      omega
    have hdigit : (n % 128 + 128) % 128 = n % 128 := by omega
    simp only [if_true, hbyte, hdigit, hvalue]
    rw [if_pos (by omega), if_neg (by have := hmore rfl; omega)]

lemma readVarIntFrom_digits {max fuel n : Nat} {more : Bool} (hfuel : n < 128 ^ (fuel + 1)) (hn : n ≤ max)
    (hmore : more = true → n < max) (rest : List UInt8) :
    readVarIntFrom max 0 ((varIntDigits (fuel + 1) n more).reverse ++ rest) =
      if more then readVarIntFrom max (n + 1) rest else .ok (n, rest) := by
  induction fuel generalizing n more rest with
  | zero =>
    have hzero : n / 128 = 0 := by omega
    rw [varIntDigits, if_pos (show n ≤ 127 by omega), ← readVarIntFrom_digit hn hmore rest, hzero]
    rfl
  | succ fuel ih =>
    rw [varIntDigits, reverse_cons, append_assoc, singleton_append]
    by_cases hlast : n ≤ 127
    · have hzero : n / 128 = 0 := by omega
      rw [if_pos hlast, reverse_nil, nil_append, ← readVarIntFrom_digit hn hmore rest, hzero]
    · have hlower : n / 128 - 1 < 128 ^ (fuel + 1) := by
        rw [pow_succ, Nat.mul_comm] at hfuel
        have := Nat.div_lt_of_lt_mul hfuel
        omega
      have hnext : n / 128 - 1 + 1 = n / 128 := by omega
      rw [if_neg hlast, ih hlower (by omega) (by omega), if_pos rfl, hnext, readVarIntFrom_digit hn hmore rest]

lemma recovers_varInt {max fuel n : Nat} (hfuel : n < 128 ^ (fuel + 1)) (hn : n ≤ max) :
    Recovers (readVarInt max) (writeVarInt (fuel + 1) n) n := fun rest =>
  readVarIntFrom_digits hfuel hn (by simp) rest

end Codec
