import Mathlib

/-!
# Write-back caches

A level holds lines over what is below it. A dirty line may differ from what is below; a fresh one says that nothing is
shown below. While the flags are right, a level can forget clean lines, and writing all its lines into the level below
makes that level show what the upper one showed, without the case that the flags contradict each other. -/

namespace WriteBack

open List

variable {K V : Type}

/-- A line of a cache and the value it shows, if any. -/
structure Line (V : Type) where
  shown : Option V
  dirty : Bool
  fresh : Bool

/-- What a level shows over what is below it. -/
def view (below : K → Option V) (level : K → Option (Line V)) (k : K) : Option V :=
  match level k with
  | some line => line.shown
  | none => below k

/-- The flags of a line are right. -/
structure Line.Sound (line : Line V) (below : Option V) : Prop where
  fresh : line.fresh = true → below = none
  clean : line.dirty = false → line.shown = below

def Sound (below : K → Option V) (level : K → Option (Line V)) : Prop :=
  ∀ k line, level k = some line → line.Sound (below k)

variable {below : K → Option V} {level : K → Option (Line V)} {k : K} {line : Line V}

lemma view_of_some (h : level k = some line) : view below level k = line.shown := by
  rw [view, h]

lemma view_of_none (h : level k = none) : view below level k = below k := by
  rw [view, h]

lemma view_empty : view below (fun _ => none) = below := rfl

lemma sound_empty : Sound below (fun _ => none) := by
  intro k line h
  cases h

lemma Sound.below_eq_none (h : Sound below level) (hview : view below level k = none)
    (hclean : ∀ line, level k = some line → line.dirty = false) : below k = none := by
  cases hk : level k with
  | none => exact (view_of_none hk).symm.trans hview
  | some line => rw [← (h k line hk).clean (hclean line hk), ← view_of_some hk, hview]

variable [DecidableEq K]

lemma view_put : view below (Function.update level k (some line)) =
    Function.update (view below level) k line.shown := by
  funext k'
  by_cases hk : k' = k <;> simp [view, hk]

lemma view_drop : view below (Function.update level k none) = Function.update (view below level) k (below k) := by
  funext k'
  by_cases hk : k' = k <;> simp [view, hk]

lemma Sound.update {new : Option (Line V)} (h : Sound below level)
    (hnew : ∀ line, new = some line → line.Sound (below k)) :
    Sound below (Function.update level k new) := by
  intro k' line hline
  rw [Function.update_apply] at hline
  split_ifs at hline with hk
  · exact hk ▸ hnew line hline
  · exact h k' line hline

lemma Sound.put (h : Sound below level) (hline : line.Sound (below k)) :
    Sound below (Function.update level k (some line)) :=
  h.update (by rintro _ ⟨⟩; exact hline)

lemma Sound.drop (h : Sound below level) : Sound below (Function.update level k none) := h.update (by simp)

lemma Sound.view_drop_clean (h : Sound below level) (hk : level k = some line) (hclean : line.dirty = false) :
    view below (Function.update level k none) = view below level := by
  rw [view_drop, ← (h k line hk).clean hclean, ← view_of_some hk, Function.update_eq_self]

/-- Write one line into a level; none if a fresh line meets a shown value. -/
def writeLine (level : K → Option (Line V)) (k : K) (line : Line V) : Option (K → Option (Line V)) :=
  if line.dirty then
    match level k with
    | none =>
      some (if line.fresh && line.shown.isNone then level
        else Function.update level k (some ⟨line.shown, true, line.fresh⟩))
    | some us =>
      if line.fresh && us.shown.isSome then none
      else some (if us.fresh && line.shown.isNone then Function.update level k none
        else Function.update level k (some ⟨line.shown, true, us.fresh⟩))
  else some level

lemma writeLine_spec (h : Sound below level) (hline : line.Sound (view below level k)) :
    ∃ level', writeLine level k line = some level' ∧ Sound below level' ∧
      view below level' = Function.update (view below level) k line.shown := by
  unfold writeLine
  cases hdirty : line.dirty with
  | false =>
    refine ⟨level, rfl, h, ?_⟩
    rw [hline.clean hdirty, Function.update_eq_self]
  | true =>
    rw [if_pos rfl]
    cases hk : level k with
    | none =>
      have hview : view below level k = below k := view_of_none hk
      refine ⟨_, rfl, ?_⟩
      split_ifs with hignored
      · -- Neither level shows anything.
        obtain ⟨hfresh, hshown⟩ := Bool.and_eq_true_iff.mp hignored
        refine ⟨h, ?_⟩
        rw [Option.isNone_iff_eq_none.mp hshown, ← hline.fresh hfresh, Function.update_eq_self]
      · refine ⟨h.put ⟨fun hfresh => ?_, fun hclean => by cases hclean⟩, view_put⟩
        exact hview ▸ hline.fresh hfresh
    | some us =>
      have hview : view below level k = us.shown := view_of_some hk
      have hmisapplied : (line.fresh && us.shown.isSome) = false := by
        cases hfresh : line.fresh with
        | false => rfl
        | true => rw [← hview, hline.fresh hfresh]; rfl
      dsimp only
      rw [hmisapplied, if_neg (by decide)]
      refine ⟨_, rfl, ?_⟩
      split_ifs with herased
      · obtain ⟨hfresh, hshown⟩ := Bool.and_eq_true_iff.mp herased
        refine ⟨h.drop, ?_⟩
        rw [view_drop, Option.isNone_iff_eq_none.mp hshown, (h k us hk).fresh hfresh]
      · exact ⟨h.put ⟨(h k us hk).fresh, fun hclean => by cases hclean⟩, view_put⟩

def writeLines (level : K → Option (Line V)) (lines : List (K × Line V)) : Option (K → Option (Line V)) :=
  lines.foldlM (fun level p => writeLine level p.1 p.2) level

lemma writeLines_spec {lines : List (K × Line V)} (hkeys : (lines.map Prod.fst).Nodup) (h : Sound below level)
    (hlines : ∀ p ∈ lines, p.2.Sound (view below level p.1)) :
    ∃ level', writeLines level lines = some level' ∧ Sound below level' ∧
      (∀ p ∈ lines, view below level' p.1 = p.2.shown) ∧
      ∀ k ∉ lines.map Prod.fst, view below level' k = view below level k := by
  induction lines generalizing level with
  | nil => exact ⟨level, rfl, h, by simp, fun _ _ => rfl⟩
  | cons p lines ih =>
    obtain ⟨k, line⟩ := p
    rw [map_cons, nodup_cons] at hkeys
    obtain ⟨level₁, hwrite, hsound, hview⟩ := writeLine_spec h (hlines _ mem_cons_self)
    have hother : ∀ k' ≠ k, view below level₁ k' = view below level k' := fun k' hk' => by
      rw [hview, Function.update_of_ne hk']
    have hrest : ∀ p ∈ lines, p.2.Sound (view below level₁ p.1) := fun p hp => by
      have hne : p.1 ≠ k := fun heq => hkeys.1 (mem_map.mpr ⟨p, hp, heq⟩)
      rw [hother p.1 hne]
      exact hlines p (mem_cons_of_mem _ hp)
    obtain ⟨level', hwrites, hsound', hmem, hnot⟩ := ih hkeys.2 hsound hrest
    refine ⟨level', ?_, hsound', ?_, ?_⟩
    · rw [writeLines, foldlM_cons, hwrite]
      exact hwrites
    · intro p hp
      rcases mem_cons.mp hp with rfl | hp
      · rw [hnot k hkeys.1, hview, Function.update_self]
      · exact hmem p hp
    · intro k' hk'
      rw [map_cons, mem_cons, not_or] at hk'
      rw [hnot k' hk'.2, hother k' hk'.1]

lemma writeBack {upper : K → Option (Line V)} {lines : List (K × Line V)} (hkeys : (lines.map Prod.fst).Nodup)
    (hmem : ∀ k line, (k, line) ∈ lines ↔ upper k = some line) (h : Sound below level)
    (hupper : Sound (view below level) upper) :
    ∃ level', writeLines level lines = some level' ∧ Sound below level' ∧
      view below level' = view (view below level) upper := by
  have hlines : ∀ p ∈ lines, p.2.Sound (view below level p.1) := fun p hp => hupper p.1 p.2 ((hmem _ _).mp hp)
  obtain ⟨level', hwrites, hsound, hshown, hnot⟩ := writeLines_spec hkeys h hlines
  refine ⟨level', hwrites, hsound, ?_⟩
  funext k
  cases hk : upper k with
  | some line => rw [view_of_some hk, hshown _ ((hmem k line).mpr hk)]
  | none =>
    rw [view_of_none hk]
    apply hnot
    intro hin
    obtain ⟨⟨k', line⟩, hp, rfl⟩ := mem_map.mp hin
    rw [(hmem k' line).mp hp] at hk
    cases hk

end WriteBack
