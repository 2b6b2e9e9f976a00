import Mathlib

/-!
# Elections whose groups are settled by the first ballot

A ballot names a choice and comes from a group. A choice stands in the group of the first ballot that names it, and the
leaders of a group are the choices of greatest rank that stand in it. When that does not depend on the order of the
ballots: a choice named from several groups must be outranked, in each of them, by one that is named from that group
only. -/

namespace FirstCome

open List

variable {β σ τ κ : Type} [DecidableEq σ] [LinearOrder κ] (choice : β → σ) (group : β → τ) (rank : τ → σ → κ)

/-- The group of the first ballot for a choice. -/
def groupOf (order : List β) (s : σ) : Option τ := (order.find? (fun b => choice b = s)).map group

def Leads (order : List β) (t : τ) (s : σ) : Prop :=
  groupOf choice group order s = some t ∧ ∀ s', groupOf choice group order s' = some t → rank t s' ≤ rank t s

/-- The choice is named, and from this group only. -/
def Settled (ballots : List β) (t : τ) (s : σ) : Prop :=
  (∃ b ∈ ballots, choice b = s) ∧ ∀ b ∈ ballots, choice b = s → group b = t

/-- Choices named from several groups are outranked in each of them by a settled one. -/
def Outranked (ballots : List β) : Prop :=
  ∀ b ∈ ballots, ∀ b' ∈ ballots, choice b = choice b' → group b ≠ group b' →
    ∃ s, Settled choice group ballots (group b) s ∧ rank (group b) (choice b) < rank (group b) s

variable {choice group rank}

lemma groupOf_append (order order' : List β) (s : σ) :
    groupOf choice group (order ++ order') s = (groupOf choice group order s).or (groupOf choice group order' s) := by
  unfold groupOf
  rw [find?_append]
  cases order.find? (fun b => choice b = s) <;> rfl

lemma groupOf_singleton (b : β) (s : σ) : groupOf choice group [b] s = if choice b =
    s then some (group b) else none := by
  unfold groupOf
  rw [find?_singleton]
  split_ifs <;> simp_all

variable {s : σ} {t : τ}

lemma exists_of_groupOf {order : List β} (h : groupOf choice group order s = some t) :
    ∃ b ∈ order, choice b = s ∧ group b = t := by
  obtain ⟨b, hb, rfl⟩ := Option.map_eq_some_iff.mp h
  exact ⟨b, mem_of_find?_eq_some hb, by simpa using find?_some hb, rfl⟩

variable (choice group) in
lemma groupOf_isSome {order : List β} {b : β} (hb : b ∈ order) :
    ∃ t, groupOf choice group order (choice b) = some t := by
  have hfound : (order.find? (fun b' => choice b' = choice b)).isSome = true :=
    find?_isSome.mpr ⟨b, hb, by simp⟩
  obtain ⟨first, hfirst⟩ := Option.isSome_iff_exists.mp hfound
  exact ⟨group first, by rw [groupOf, hfirst]; rfl⟩

variable {ballots order : List β}

lemma Settled.groupOf (h : Settled choice group ballots t s)
    (horder : order.Perm ballots) : groupOf choice group order s = some t := by
  obtain ⟨⟨b, hb, rfl⟩, hall⟩ := h
  obtain ⟨t', ht'⟩ := groupOf_isSome choice group (horder.mem_iff.mpr hb)
  obtain ⟨first, hmem, hchoice, rfl⟩ := exists_of_groupOf ht'
  rw [ht', hall first (horder.mem_iff.mp hmem) hchoice]

lemma Outranked.settled_or (h : Outranked choice group rank ballots) (horder : order.Perm ballots)
    (hs : groupOf choice group order s = some t) :
    Settled choice group ballots t s ∨ ∃ s', Settled choice group ballots t s' ∧ rank t s < rank t s' := by
  obtain ⟨b, hb, rfl, rfl⟩ := exists_of_groupOf hs
  have hb' := horder.mem_iff.mp hb
  by_cases hall : ∀ b' ∈ ballots, choice b' = choice b → group b' = group b
  · exact .inl ⟨⟨b, hb', rfl⟩, hall⟩
  · push Not at hall
    obtain ⟨b', hmem, hchoice, hgroup⟩ := hall
    exact .inr (h b hb' b' hmem hchoice.symm (Ne.symm hgroup))

lemma Outranked.leads_iff (h : Outranked choice group rank ballots) (horder : order.Perm ballots)
    (t : τ) (s : σ) :
    Leads choice group rank order t s ↔
      Settled choice group ballots t s ∧ ∀ s', Settled choice group ballots t s' → rank t s' ≤ rank t s := by
  constructor
  · rintro ⟨hs, hmax⟩
    rcases h.settled_or horder hs with hsettled | ⟨s', hs', hlt⟩
    · exact ⟨hsettled, fun s' hs' => hmax s' (hs'.groupOf horder)⟩
    · exact absurd (hmax s' (hs'.groupOf horder)) (not_le.mpr hlt)
  · rintro ⟨hsettled, hmax⟩
    refine ⟨hsettled.groupOf horder, ?_⟩
    intro s' hs'
    rcases h.settled_or horder hs' with hs' | ⟨s'', hs'', hlt⟩
    · exact hmax s' hs'
    · exact hlt.le.trans (hmax s'' hs'')

section Late

variable [DecidableEq τ]

/-- The ballots of a group after all others. -/
def late (group : β → τ) (t : τ) (ballots : List β) : List β :=
  ballots.filter (fun b => ¬group b = t) ++ ballots.filter (fun b => group b = t)

variable (group) in
lemma late_perm (t : τ) (ballots : List β) : (late group t ballots).Perm ballots := by
  have hsplit := filter_append_perm (fun b => decide (group b = t)) ballots
  simp only [late, decide_not]
  exact perm_append_comm.trans hsplit

lemma settled_of_late {ballots : List β} (h : groupOf choice group (late group t ballots) s = some t) :
    Settled choice group ballots t s := by
  obtain ⟨b, hb, hchoice, -⟩ := exists_of_groupOf h
  refine ⟨⟨b, (late_perm group t ballots).mem_iff.mp hb, hchoice⟩, ?_⟩
  intro b' hb' hchoice'
  by_contra hgroup
  have hfirst : b' ∈ ballots.filter (fun b => ¬group b = t) := by simpa using ⟨hb', hgroup⟩
  obtain ⟨t', ht'⟩ := groupOf_isSome choice group hfirst
  rw [late, groupOf_append, ← hchoice', ht', Option.some_or] at h
  obtain ⟨c, hc, -, rfl⟩ := exists_of_groupOf ht'
  have hne : ¬group c = t := by simpa using (mem_filter.mp hc).2
  exact hne (Option.some.inj h)

/-- Which choices lead is the same in all orders if and only if the unsettled ones are outranked. -/
theorem leads_perm_iff [DecidableEq β] (ballots : List β) :
    (∀ order order', order.Perm ballots → order'.Perm ballots → ∀ t s,
        Leads choice group rank order t s ↔ Leads choice group rank order' t s) ↔
          Outranked choice group rank ballots := by
  constructor
  · intro hsame b hb b' hb' hchoice hgroup
    by_contra hnone
    push Not at hnone
    -- with `b` first and the rest of its group last, its choice leads over the settled ones
    have hperm : (b :: late group (group b) (ballots.erase b)).Perm ballots :=
      ((late_perm group _ _).cons b).trans (perm_cons_erase hb).symm
    have hstands : groupOf choice group (b :: late group (group b) (ballots.erase b)) (choice b) = some (group b) := by
      simp [groupOf]
    have hleads : Leads choice group rank (b :: late group (group b) (ballots.erase b)) (group b) (choice b) := by
      refine ⟨hstands, ?_⟩
      intro s hs
      by_cases hsb : choice b = s
      · rw [hsb]
      apply hnone s
      have hrest : groupOf choice group (late group (group b) (ballots.erase b)) s = some (group b) := by
        simpa [groupOf, hsb] using hs
      obtain ⟨⟨c, hc, hcs⟩, hall⟩ := settled_of_late hrest
      refine ⟨⟨c, mem_of_mem_erase hc, hcs⟩, ?_⟩
      intro c' hc' hcs'
      apply hall c' _ hcs'
      apply (mem_erase_of_ne _).mpr hc'
      rintro rfl
      exact hsb hcs'
    -- with its whole group last it does not stand there at all
    have hlast := ((hsame _ _ hperm (late_perm group (group b) ballots) (group b) (choice b)).mp hleads).1
    exact hgroup ((settled_of_late hlast).2 b' hb' hchoice.symm).symm
  · intro h order order' horder horder' t s
    rw [h.leads_iff horder, h.leads_iff horder']

end Late

end FirstCome
