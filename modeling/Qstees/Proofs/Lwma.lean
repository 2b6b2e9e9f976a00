import Qstees.Proofs.DarkGravity

/-!
# The arithmetic of `Lwma3CalculateNextWorkRequired`

Each turn of the loop divides a target before it is added, which loses less than one unit, and weighs a solvetime
between one second and six target spacings.
-/

namespace Qstees.Proofs

open List PowIndex

open Traced (Clean)

def solvetimesOf {α : Type} (x : Pow α) : List Int :=
  x.log.filterMap (fun op => match op with
    | .solvetime v => some v
    | _ => none)

/-- The computation returns `a` after the solvetimes `vs`, and every result on the way is one of its type. -/
structure Yields {α : Type} (x : Pow α) (a : α) (vs : List Int) : Prop where
  result : x.result = .ok a
  fits : Clean ArithOp.Fits x
  solvetimes : solvetimesOf x = vs

namespace Yields

variable {α β : Type}

lemma pure (a : α) : Yields (Pure.pure a) a [] := ⟨rfl, Traced.clean_pure a, rfl⟩

lemma bind {x : Pow α} {f : α → Pow β} {a : α} {b : β} {vs ws : List Int} (hx : Yields x a vs)
    (hf : Yields (f a) b ws) :
    Yields (x >>= f) b (vs ++ ws) where
  result := by rw [Traced.result_bind hx.result, hf.result]
  fits := (Traced.clean_bind hx.result f).mpr ⟨hx.fits, hf.fits⟩
  solvetimes := by
    rw [solvetimesOf, Traced.log_bind hx.result, filterMap_append, ← solvetimesOf, ← solvetimesOf, hx.solvetimes,
      hf.solvetimes]

lemma int64 {n : Int} (hlow : -2 ^ 63 ≤ n) (hhigh : n < 2 ^ 63) : Yields (Pow.int64 n) n [] :=
  ⟨rfl, Traced.clean_record.mpr ⟨hlow, hhigh⟩, rfl⟩

variable {n : Nat}

lemma div (a : ArithUint256) {b : Int} (hb : b = n) (hpos : 0 < n) (hn : n < 2 ^ 63) :
    ∃ q : ArithUint256, Yields (Pow.div a b) q [] ∧ q.toNat = a.toNat / n := by
  obtain ⟨q, hdiv, hvalue⟩ := Pow.div_eq a hb hpos (by omega)
  have hfits : (ArithOp.uint64 b).Fits := by
    rw [ArithOp.Fits, hb]
    omega
  refine ⟨q, ?_, hvalue⟩
  rw [hdiv]
  exact ⟨rfl, fun r hr => mem_singleton.mp hr ▸ hfits, rfl⟩

lemma add {a b : ArithUint256} (h : a.toNat + b.toNat < 2 ^ 256) :
    Yields (Pow.add a b) (a.add b) [] ∧ (a.add b).toNat = a.toNat + b.toNat :=
  ⟨⟨rfl, Traced.clean_record.mpr h, rfl⟩, Pow.toNat_add h⟩

lemma mul {a : ArithUint256} {b : Int} (hb : b = n) (hn : n < 2 ^ 32) (h : a.toNat * n < 2 ^ 256) :
    ∃ c : ArithUint256, Yields (Pow.mul a b) c [] ∧ c.toNat = a.toNat * n := by
  refine ⟨_, ⟨Pow.result_mul a b, ?_, rfl⟩, Pow.toNat_mul hb hn h⟩
  rw [Clean, Pow.log_mul, Pow.toNat_ofInt hb hn]
  simp only [mem_cons, not_mem_nil, or_false, forall_eq_or_imp, forall_eq, ArithOp.Fits]
  omega

end Yields

/-- The time of a block, or one second after the last. -/
def repairedTime (previous : Int) (b : PowIndex) : Int :=
  if b.getBlockTime > previous then b.getBlockTime else previous + 1

/-- The solvetimes of the blocks after one that counts with the time `previous`. -/
def solvetimes : Int → List PowIndex → List Int
  | _, [] => []
  | previous, b :: bs => min 720 (repairedTime previous b - previous) :: solvetimes (repairedTime previous b) bs

def mainWeight : Nat := 558720

def share (b : PowIndex) : Nat := b.target.toNat / 96 / mainWeight

variable {path : List PowIndex}

end Qstees.Proofs
