import Qstees.Proofs.Scan
import Qstees.Proofs.Statements

/-!
# The valid nodes by their registrations

Counts and ranks at a height depend on the registrations in the list only.
-/

namespace Qstees.Proofs

open List CInfinitynodeMan

variable {man man' : CInfinitynodeMan} {t : SinType} {x : Int}

def validRegs (man : CInfinitynodeMan) (t : SinType) (x : Int) : List CInfinitynode :=
  (man.validNodes t x).map registered

lemma mem_validRegs {inf : CInfinitynode} :
    inf ∈ validRegs man t x ↔ regs man inf.vinBurnFund = some inf ∧
      inf.nQSTEESType = t.toInt ∧ inf.nHeight < x ∧ x ≤ inf.nExpireHeight := by
  unfold validRegs regs
  rw [mem_map, Option.map_eq_some_iff]
  constructor
  · rintro ⟨inf', hmem, rfl⟩
    obtain ⟨hinf', hvalid⟩ := mem_validNodes.mp hmem
    exact ⟨⟨inf', hinf', rfl⟩, hvalid⟩
  · rintro ⟨⟨inf', hinf', rfl⟩, hvalid⟩
    exact ⟨inf', mem_validNodes.mpr ⟨hinf', hvalid⟩, rfl⟩

lemma nodup_validRegs : (validRegs man t x).Nodup := by
  apply List.Nodup.of_map CInfinitynode.vinBurnFund
  rw [validRegs, map_map]
  exact nodup_validNodes x

lemma length_validRegs :
    ((validRegs man t x).length : Int) = validCount man t x := by
  rw [validRegs, length_map, validCount]

lemma validCount_mono (hkept : ∀ o inf, regs man o = some inf → regs man' o = some inf) :
    validCount man t x ≤ validCount man' t x := by
  rw [← length_validRegs, ← length_validRegs]
  have hsub : validRegs man t x ⊆ validRegs man' t x := by
    intro inf hinf
    obtain ⟨hreg, hvalid⟩ := mem_validRegs.mp hinf
    exact mem_validRegs.mpr ⟨hkept _ _ hreg, hvalid⟩
  exact_mod_cast ((nodup_validRegs).subperm hsub).length_le

lemma validRegs_perm (hsame : ∀ o inf, inf.nHeight < x → (regs man' o = some inf ↔ regs man o = some inf)) :
    (validRegs man' t x).Perm (validRegs man t x) := by
  apply (perm_ext_iff_of_nodup (nodup_validRegs) (nodup_validRegs)).mpr
  intro inf
  rw [mem_validRegs, mem_validRegs]
  constructor
  · rintro ⟨hreg, htype, hlt, hexpire⟩
    exact ⟨(hsame _ _ hlt).mp hreg, htype, hlt, hexpire⟩
  · rintro ⟨hreg, htype, hlt, hexpire⟩
    exact ⟨(hsame _ _ hlt).mpr hreg, htype, hlt, hexpire⟩

lemma validCount_congr (hsame : ∀ o inf, inf.nHeight < x → (regs man' o = some inf ↔ regs man o = some inf)) :
    validCount man' t x = validCount man t x := by
  rw [← length_validRegs, ← length_validRegs, (validRegs_perm hsame).length_eq]

lemma rankBefore_iff {a b : CInfinitynode} :
    rankBefore a b ↔
      a.nHeight < b.nHeight ∨ (a.nHeight = b.nHeight ∧ (compare a.vinBurnFund b.vinBurnFund).isLE) := by
  unfold rankBefore
  rw [Ordering.isLE_iff_ne_gt]

instance : Std.Total rankBefore where
  total a b := by
    rw [rankBefore_iff, rankBefore_iff]
    rcases lt_trichotomy a.nHeight b.nHeight with hlt | heq | hgt
    · exact .inl (.inl hlt)
    · by_cases hle : (compare a.vinBurnFund b.vinBurnFund).isLE
      · exact .inl (.inr ⟨heq, hle⟩)
      · refine .inr (.inr ⟨heq.symm, ?_⟩)
        have hgt := Std.OrientedCmp.lt_of_not_isLE hle
        rw [hgt]
        rfl
    · exact .inr (.inl hgt)

instance : IsTrans CInfinitynode rankBefore where
  trans a b c hab hbc := by
    rw [rankBefore_iff] at *
    rcases hab with hab | ⟨hab, hle⟩ <;> rcases hbc with hbc | ⟨hbc, hle'⟩
    · exact .inl (hab.trans hbc)
    · exact .inl (hab.trans_eq hbc)
    · exact .inl (hab.trans_lt hbc)
    · exact .inr ⟨hab.trans hbc, Std.TransCmp.isLE_trans hle hle'⟩

lemma vinBurnFund_eq_of_rankBefore {a b : CInfinitynode} (hab : rankBefore a b)
    (hba : rankBefore b a) : a.vinBurnFund = b.vinBurnFund := by
  rw [rankBefore_iff] at hab hba
  obtain ⟨-, hle⟩ := hab.resolve_left (by omega)
  obtain ⟨-, hge⟩ := hba.resolve_left (by omega)
  exact Std.LawfulEqCmp.eq_of_compare (Std.OrientedCmp.isLE_antisymm hle hge)

lemma rankedNodes_congr (hsame : ∀ o inf, inf.nHeight < x → (regs man' o = some inf ↔ regs man o = some inf)) :
    (man'.rankedNodes t x).map registered = (man.rankedNodes t x).map registered := by
  have hsorted : ∀ m : CInfinitynodeMan, ((m.rankedNodes t x).map registered).Pairwise rankBefore := by
    intro m
    exact pairwise_map.mpr (pairwise_insertionSort rankBefore (m.validNodes t x))
  have hperm : ∀ m : CInfinitynodeMan, ((m.rankedNodes t x).map registered).Perm (validRegs m t x) :=
    fun m => (rankedNodes_perm x).map registered
  refine List.Perm.eq_of_pairwise ?_ (hsorted man') (hsorted man)
    ((hperm man').trans ((validRegs_perm hsame).trans (hperm man).symm))
  intro a b ha hb hab hba
  have hreg := (mem_validRegs.mp ((validRegs_perm hsame).mem_iff.mp ((hperm man').mem_iff.mp ha))).1
  have hreg' := (mem_validRegs.mp ((hperm man).mem_iff.mp hb)).1
  rw [vinBurnFund_eq_of_rankBefore hab hba, hreg'] at hreg
  exact (Option.some.inj hreg).symm

end Qstees.Proofs
