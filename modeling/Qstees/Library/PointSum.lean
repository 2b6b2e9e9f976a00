import Mathlib

/-!
# Totals of finitely supported functions

How the total of a function changes when it is changed at one point.
-/

namespace PointSum

variable {ι : Type} [DecidableEq ι]

lemma finsum_update {f : ι → ℤ} (hf : f.support.Finite) (a : ι) (x : ℤ) :
    ∑ᶠ i, Function.update f a x i = ∑ᶠ i, f i + (x - f a) := by
  have hsplit : Function.update f a x = fun i => f i + (Pi.single a (x - f a) : ι → ℤ) i := by
    funext i
    by_cases h : i = a
    · subst h
      simp
    · simp [h]
  have hsingle : (Pi.single a (x - f a) : ι → ℤ).support.Finite :=
    (Set.finite_singleton a).subset Pi.support_single_subset
  have htotal : ∑ᶠ i, (Pi.single a (x - f a) : ι → ℤ) i = x - f a := by
    rw [finsum_eq_single _ a (fun i hi => Pi.single_eq_of_ne hi _), Pi.single_eq_same]
  rw [hsplit, finsum_add_distrib hf hsingle, htotal]

end PointSum
