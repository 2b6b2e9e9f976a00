import Qstees.Library.Words

/-!
# `base_uint` and the compact form

The operations of `arith_uint256` as their loops work on the words `pn`, the least significant one first.
`WIDTH` is the number of words; `arith_uint256` has eight.
-/

namespace Qstees

/-- `base_uint`: its words, the lowest first. -/
structure BaseUint (WIDTH : Nat) where
  pn : List (BitVec 32)
  length_pn : pn.length = WIDTH
deriving DecidableEq

abbrev ArithUint256 := BaseUint 8

namespace BaseUint

variable {WIDTH : Nat}

def toNat (a : BaseUint WIDTH) : Nat := Words.value a.pn

def zero : BaseUint WIDTH := ⟨List.replicate WIDTH 0, List.length_replicate⟩

def ofUint64 (b : BitVec 64) : BaseUint (WIDTH + 2) :=
  ⟨b.setWidth 32 :: (b >>> 32).setWidth 32 :: List.replicate WIDTH 0, by simp⟩

def word (a : BaseUint WIDTH) (i : Nat) : BitVec 32 := a.pn.getD i 0

/-- One word of `+=`. -/
def addStep (carry : BitVec 64) (p : BitVec 32 × BitVec 32) : BitVec 32 × BitVec 64 :=
  let n := carry + p.1.setWidth 64 + p.2.setWidth 64
  (n.setWidth 32, n >>> 32)

def add (a b : BaseUint WIDTH) : BaseUint WIDTH :=
  ⟨Words.ripple addStep 0 (a.pn.zip b.pn), by simp [a.length_pn, b.length_pn]⟩

/-- `operator++`: the next word is reached only when this one became zero. -/
def incStep (carry : Bool) (x : BitVec 32) : BitVec 32 × Bool :=
  if carry then (x + 1, x + 1 == 0) else (x, false)

def inc (a : BaseUint WIDTH) : BaseUint WIDTH :=
  ⟨Words.ripple incStep true a.pn, by simp [a.length_pn]⟩

def neg (a : BaseUint WIDTH) : BaseUint WIDTH :=
  inc ⟨a.pn.map (~~~ ·), by simp [a.length_pn]⟩

protected def not (a : BaseUint WIDTH) : BaseUint WIDTH := ⟨a.pn.map (~~~ ·), by simp [a.length_pn]⟩

def sub (a b : BaseUint WIDTH) : BaseUint WIDTH := a.add b.neg

/-- One word of `*= uint32_t`. -/
def mulStep (b32 : BitVec 32) (carry : BitVec 64) (x : BitVec 32) : BitVec 32 × BitVec 64 :=
  let n := carry + b32.setWidth 64 * x.setWidth 64
  (n.setWidth 32, n >>> 32)

def mul (a : BaseUint WIDTH) (b32 : BitVec 32) : BaseUint WIDTH :=
  ⟨Words.ripple (mulStep b32) 0 a.pn, by simp [a.length_pn]⟩

/-- One word of a row of `*=`. -/
def mulAddStep (x : BitVec 32) (carry : BitVec 64) (p : BitVec 32 × BitVec 32) : BitVec 32 × BitVec 64 :=
  let n := carry + p.1.setWidth 64 + x.setWidth 64 * p.2.setWidth 64
  (n.setWidth 32, n >>> 32)

/-- The rows of `operator*=`. Row `j` works on the words from `j` on, and word `j` is then final. -/
def mulRows (b : List (BitVec 32)) : List (BitVec 32) → List (BitVec 32) → List (BitVec 32)
  | [], a => a
  | x :: pn, a =>
    let a := Words.ripple (mulAddStep x) 0 (a.zip b)
    a.take 1 ++ mulRows b pn (a.drop 1)

lemma length_mulRows (b : List (BitVec 32)) (pn a : List (BitVec 32)) (h : a.length ≤ b.length) :
    (mulRows b pn a).length = a.length := by
  induction pn generalizing a with
  | nil => rfl
  | cons x pn ih =>
    rw [mulRows, List.length_append, ih _ (by simp)]
    simp
    omega

def mulUint (a b : BaseUint WIDTH) : BaseUint WIDTH :=
  ⟨mulRows b.pn a.pn (List.replicate WIDTH 0), by rw [length_mulRows] <;> simp [b.length_pn]⟩

/-- `operator<<=`. The loop writes word `j` twice: with the word `k` below it and with what the word below that
one loses at its top. -/
def shiftLeft (a : BaseUint WIDTH) (shift : Nat) : BaseUint WIDTH :=
  let k := shift / 32
  let shift := shift % 32
  ⟨List.ofFn (fun j : Fin WIDTH =>
    (if k + 1 ≤ j ∧ shift ≠ 0 then a.word (j - k - 1) >>> (32 - shift) else 0) |||
      (if k ≤ j then a.word (j - k) <<< shift else 0)), List.length_ofFn⟩

def shiftRight (a : BaseUint WIDTH) (shift : Nat) : BaseUint WIDTH :=
  let k := shift / 32
  let shift := shift % 32
  ⟨List.ofFn (fun j : Fin WIDTH =>
    (if j + k + 1 < WIDTH ∧ shift ≠ 0 then a.word (j + k + 1) <<< (32 - shift) else 0) |||
      (if j + k < WIDTH then a.word (j + k) >>> shift else 0)), List.length_ofFn⟩

def compareTo (a b : BaseUint WIDTH) : Ordering := Words.compareWords a.pn b.pn

/-- The inner loop of `bits`, from bit `nbits` of a word that is not zero down. -/
def topBit (x : BitVec 32) : Nat → Nat
  | 0 => 1
  | nbits + 1 => if x.getLsbD (nbits + 1) then nbits + 2 else topBit x nbits

def wordBits (x : BitVec 32) : Nat := if x = 0 then 0 else topBit x 31

/-- `bits`: the highest word that is not zero decides. -/
def bitsOf : List (BitVec 32) → Nat
  | [] => 0
  | x :: xs => if bitsOf xs = 0 then wordBits x else bitsOf xs + 32

def bits (a : BaseUint WIDTH) : Nat := bitsOf a.pn

def setBit (a : BaseUint WIDTH) (shift : Nat) : BaseUint WIDTH :=
  ⟨a.pn.modify (shift / 32) (· ||| 1#32 <<< (shift % 32)), by simp [a.length_pn]⟩

def divStep (shift : Nat) (num div quotient : BaseUint WIDTH) : BaseUint WIDTH × BaseUint WIDTH :=
  if num.compareTo div ≠ .lt then (num.sub div, quotient.setBit shift) else (num, quotient)

/-- The long division of `/=`, from the highest shift down. -/
def divLoop : Nat → BaseUint WIDTH → BaseUint WIDTH → BaseUint WIDTH → BaseUint WIDTH
  | 0, num, div, quotient => (divStep 0 num div quotient).2
  | shift + 1, num, div, quotient =>
    divLoop shift (divStep (shift + 1) num div quotient).1 (div.shiftRight 1) (divStep (shift + 1) num div quotient).2

/-- `operator/=`; `none` is the exception for a division by zero. -/
def div (a b : BaseUint WIDTH) : Option (BaseUint WIDTH) :=
  let num_bits := a.bits
  let div_bits := b.bits
  if div_bits = 0 then none
  else if div_bits > num_bits then some zero
  else
    let shift := num_bits - div_bits
    some (divLoop shift a (b.shiftLeft shift) zero)

def getLow64 (a : BaseUint WIDTH) : BitVec 64 := (a.word 0).setWidth 64 ||| (a.word 1).setWidth 64 <<< 32

end BaseUint

namespace ArithUint256

structure Compact where
  value : ArithUint256
  fNegative : Bool
  fOverflow : Bool
deriving DecidableEq

/-- `SetCompact`, with its two out-parameters. -/
def setCompact (nCompact : BitVec 32) : Compact :=
  let nSize := (nCompact >>> 24).toNat
  let nWord := nCompact &&& 0x007fffff
  let nWord := if nSize ≤ 3 then nWord >>> (8 * (3 - nSize)) else nWord
  let number : ArithUint256 := BaseUint.ofUint64 (nWord.setWidth 64)
  { value := if nSize ≤ 3 then number else number.shiftLeft (8 * (nSize - 3))
    fNegative := nWord ≠ 0 ∧ nCompact &&& 0x00800000 ≠ 0
    fOverflow := nWord ≠ 0 ∧ (nSize > 34 ∨ (nWord.toNat > 0xff ∧ nSize > 33) ∨ (nWord.toNat > 0xffff ∧ nSize > 32)) }

/-- `GetCompact`; none where it asserts. -/
def getCompact (a : ArithUint256) (fNegative : Bool := false) : Option (BitVec 32) :=
  let nSize := (a.bits + 7) / 8
  let nCompact : BitVec 32 :=
    if nSize ≤ 3 then (a.getLow64 <<< (8 * (3 - nSize))).setWidth 32
    else (a.shiftRight (8 * (nSize - 3))).getLow64.setWidth 32
  -- The bit 0x00800000 is the sign: a mantissa that has it set gives up its lowest byte.
  let (nCompact, nSize) := if nCompact &&& 0x00800000 ≠ 0 then (nCompact >>> 8, nSize + 1) else (nCompact, nSize)
  if nCompact &&& ~~~0x007fffff = 0 ∧ nSize < 256 then
    let nCompact := nCompact ||| (BitVec.ofNat 32 nSize <<< 24)
    some (nCompact ||| (if fNegative ∧ nCompact &&& 0x007fffff ≠ 0 then 0x00800000 else 0))
  else none

end ArithUint256

end Qstees
