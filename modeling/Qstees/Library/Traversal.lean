import Qstees.Library.Tally

/-!
# Traversals that may fail

Inversion of a successful `mapM` over a list, the invariant rule of a successful `foldlM`, and the values of a map in
the order of their keys. -/

namespace Traversal

open List Std.ExtTreeMap

variable {ε α β : Type} {as : List α} {bs : List β}

lemma mapM_eq_ok_iff {f : α → Except ε β} :
    as.mapM f = .ok bs ↔ List.Forall₂ (fun a b => f a = .ok b) as bs := by
  induction as generalizing bs with
  | nil => cases bs <;> simp [pure, Except.pure]
  | cons a as ih =>
    rw [mapM_cons]
    constructor
    · intro h
      obtain ⟨b, hb, h⟩ := ok_of_bind h
      obtain ⟨bs', hbs', h⟩ := ok_of_bind h
      cases h
      exact .cons hb (ih.mp hbs')
    · intro h
      cases h with
      | cons hb hbs =>
        rw [hb, ih.mpr hbs]
        rfl

lemma mapM_eq_some_iff (d : β) {f : α → Option β} :
    as.mapM f = some bs ↔ (∀ a ∈ as, (f a).isSome = true) ∧ (as.map fun a => (f a).getD d) = bs := by
  induction as generalizing bs with
  | nil => cases bs <;> simp
  | cons a as ih =>
    rw [mapM_cons, forall_mem_cons, map_cons]
    cases f a with
    | none => simp
    | some b =>
      change (as.mapM f >>= fun rest => some (b :: rest)) = some bs ↔ _
      constructor
      · intro h
        obtain ⟨bs', hbs', h⟩ := Option.bind_eq_some_iff.mp h
        cases h
        obtain ⟨hsome, rfl⟩ := ih.mp hbs'
        exact ⟨⟨rfl, hsome⟩, rfl⟩
      · rintro ⟨⟨-, hsome⟩, rfl⟩
        exact Option.bind_eq_some_iff.mpr ⟨_, ih.mpr ⟨hsome, rfl⟩, rfl⟩

variable {R : α → β → Prop}

/-- What the parts of a traversal contribute, when each contribution has keys of its own part. -/
theorem flatMap_sublist_of_forall₂ {γ κ : Type} {f : β → List γ} {g : α → List κ} {key : γ → κ} {P : γ → Prop}
    (h : List.Forall₂ R as bs)
    (hR : ∀ a ∈ as, ∀ b, R a b → ((f b).map key).Sublist (g a) ∧ ∀ c ∈ f b, P c) :
    ((bs.flatMap f).map key).Sublist (as.flatMap g) ∧ ∀ c ∈ bs.flatMap f, P c := by
  induction h with
  | nil => simp
  | cons hab _ ih =>
    rw [forall_mem_cons] at hR
    obtain ⟨hkeys, hP⟩ := hR.1 _ hab
    obtain ⟨ihkeys, ihP⟩ := ih hR.2
    rw [flatMap_cons, map_append, flatMap_cons]
    exact ⟨hkeys.append ihkeys, forall_mem_append.mpr ⟨hP, ihP⟩⟩

/-- A loop each step of which clears a view or leaves it as it was. -/
theorem view_foldl {σ γ : Type} (view : σ → γ) (gone : γ) {op : σ → α → σ} {hit : α → Prop} [DecidablePred hit]
    (hstep : ∀ s a, view (op s a) = if hit a then gone else view s) (as : List α) (s : σ) :
    view (as.foldl op s) = if ∃ a ∈ as, hit a then gone else view s := by
  induction as generalizing s with
  | nil => simp
  | cons a as ih =>
    rw [foldl_cons, ih, hstep]
    by_cases hrest : ∃ a ∈ as, hit a
    · simp [hrest]
    · by_cases ha : hit a <;> simp [ha, hrest]

/-- What every successful step adds to the elements seen so far holds of all of them at the end. -/
theorem foldlM_invariant {f : β → α → Except ε β} {I : List α → β → Prop} {b b' : β}
    (hstep : ∀ seen a rest b b', as = seen ++ a :: rest → I seen b → f b a = .ok b' → I (seen ++ [a]) b') (hI : I [] b)
    (h : as.foldlM f b = .ok b') : I as b' := by
  suffices hrun : ∀ rest seen b, as = seen ++ rest → I seen b → rest.foldlM f b = .ok b' → I as b' from
    hrun as [] b rfl hI h
  intro rest
  induction rest with
  | nil =>
    intro seen b has hI h
    cases h
    rw [has, append_nil]
    exact hI
  | cons a rest ih =>
    intro seen b has hI h
    rw [foldlM_cons] at h
    obtain ⟨b₁, hb₁, h⟩ := ok_of_bind h
    exact ih (seen ++ [a]) b₁ (by rw [has, append_cons]) (hstep seen a rest b b₁ has hI hb₁) h

section Keyed

variable {K V : Type} [Ord K] [Std.TransOrd K] [Std.LawfulEqOrd K] {m : Std.ExtTreeMap K V} {key : V → K}

lemma mem_values_iff (hkeyed : ∀ k v, m[k]? = some v → key v = k) {v : V} :
    v ∈ m.toList.map Prod.snd ↔ m[key v]? = some v := by
  rw [mem_map]
  constructor
  · rintro ⟨⟨k, w⟩, hentry, rfl⟩
    have hw := mem_toList_iff_getElem?_eq_some.mp hentry
    rwa [hkeyed k w hw]
  · intro hv
    exact ⟨_, mem_toList_iff_getElem?_eq_some.mpr hv, rfl⟩

lemma values_ordered (hkeyed : ∀ k v, m[k]? = some v → key v = k) :
    (m.toList.map Prod.snd).Pairwise (fun a b => compare (key a) (key b) = .lt) := by
  refine pairwise_map.mpr (ordered_keys_toList.imp_of_mem fun {a b} ha hb hlt => ?_)
  rwa [hkeyed a.1 a.2 (mem_toList_iff_getElem?_eq_some.mp ha),
    hkeyed b.1 b.2 (mem_toList_iff_getElem?_eq_some.mp hb)]

end Keyed

end Traversal
