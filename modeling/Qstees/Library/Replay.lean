import Mathlib

/-!
# Replaying a log into a cell

A log is replayed by merging, one entry after the other, what each entry says about a cell into
what the cell holds. The merges considered pick one of their arguments and never lose the last
value: the first value wins, the last one wins, or the newest one does.
-/

namespace Replay

open List

variable {α ε : Type}

/-- A merge that picks one of two values, and a value where there is one. -/
structure Picks (merge : Option α → Option α → Option α) : Prop where
  pick : ∀ a b, merge a b = a ∨ merge a b = b
  kept : ∀ a b, merge a b = none → a = none ∧ b = none

/-- The cell after a log. -/
def replay (merge : Option α → Option α → Option α) (tells : ε → Option α) (cell : Option α)
    (log : List ε) : Option α :=
  log.foldl (fun cell entry => merge cell (tells entry)) cell

variable {merge : Option α → Option α → Option α} {tells : ε → Option α} {cell : Option α} {log : List ε} {v : α}

lemma mem_of_replay (hm : Picks merge)
    (h : replay merge tells cell log = some v) : cell = some v ∨ ∃ entry ∈ log, tells entry = some v := by
  induction log generalizing cell with
  | nil => exact .inl h
  | cons entry log ih =>
    rcases ih h with hcell | ⟨e, he, htells⟩
    · rcases hm.pick cell (tells entry) with hpick | hpick
      · exact .inl (hpick.symm.trans hcell)
      · exact .inr ⟨entry, mem_cons_self, hpick.symm.trans hcell⟩
    · exact .inr ⟨e, mem_cons_of_mem _ he, htells⟩

lemma replay_eq_none (hm : Picks merge) (h : replay merge tells cell log = none) :
    cell = none ∧ ∀ entry ∈ log, tells entry = none := by
  induction log generalizing cell with
  | nil => exact ⟨h, by simp⟩
  | cons entry log ih =>
    obtain ⟨hmerged, hlog⟩ := ih h
    obtain ⟨hcell, hentry⟩ := hm.kept _ _ hmerged
    exact ⟨hcell, forall_mem_cons.mpr ⟨hentry, hlog⟩⟩

lemma exists_replay (hm : Picks merge)
    (h : cell = some v ∨ ∃ entry ∈ log, tells entry = some v) : ∃ w, replay merge tells cell log = some w := by
  cases hreplay : replay merge tells cell log with
  | some w => exact ⟨w, rfl⟩
  | none =>
    obtain ⟨hcell, hlog⟩ := replay_eq_none hm hreplay
    rcases h with h | ⟨entry, hentry, htells⟩
    · cases hcell.symm.trans h
    · cases (hlog entry hentry).symm.trans htells

lemma replay_eq_some_iff (hm : Picks merge) {P : α → Prop}
    (htold : ∀ w, (cell = some w ∨ ∃ entry ∈ log, tells entry = some w) ↔ P w) (hunique : ∀ {w}, P w → P v → w = v) :
    replay merge tells cell log = some v ↔ P v := by
  refine ⟨fun h => (htold v).mp (mem_of_replay hm h), fun h => ?_⟩
  obtain ⟨w, hw⟩ := exists_replay hm ((htold v).mpr h)
  rw [hw, hunique ((htold w).mp (mem_of_replay hm hw)) h]

def firstWins (a b : Option α) : Option α := a <|> b

def lastWins (a b : Option α) : Option α := b <|> a

@[simp] lemma firstWins_none (a : Option α) : firstWins a none = a := by
  cases a <;> rfl

@[simp] lemma lastWins_none (a : Option α) : lastWins a none = a := rfl

lemma picks_firstWins : Picks (@firstWins α) := by
  constructor
  · rintro (_ | x) b
    · exact .inr rfl
    · exact .inl rfl
  · rintro (_ | x) b h
    · exact ⟨rfl, h⟩
    · cases h

lemma picks_lastWins : Picks (@lastWins α) :=
  ⟨fun a b => (picks_firstWins.pick b a).symm, fun a b h => (picks_firstWins.kept b a h).symm⟩

section Newest

variable {stamp : α → Int}

/-- A value replaces an older one; the one that came first wins a tie. -/
def newestWins (stamp : α → Int) : Option α → Option α → Option α
  | none, b => b
  | some x, none => some x
  | some x, some y => if stamp y ≤ stamp x then some x else some y

@[simp] lemma newestWins_none_left (b : Option α) : newestWins stamp none b = b := rfl

@[simp] lemma newestWins_none_right (a : Option α) : newestWins stamp a none = a := by
  cases a <;> rfl

lemma picks_newestWins : Picks (newestWins stamp) := by
  constructor
  · rintro (_ | x) (_ | y)
    · exact .inl rfl
    · exact .inr rfl
    · exact .inl rfl
    · simp only [newestWins]
      split_ifs
      · exact .inl rfl
      · exact .inr rfl
  · rintro (_ | x) (_ | y) h
    · exact ⟨rfl, rfl⟩
    · cases h
    · cases h
    · simp only [newestWins] at h
      split_ifs at h

/-- What comes first among the newest of a sequence of values. -/
def FirstNewest (stamp : α → Int) (values : List α) (v : α) : Prop :=
  ∃ before after, values = before ++ v :: after ∧ (∀ w ∈ before, stamp w < stamp v) ∧ ∀ w ∈ after, stamp w ≤ stamp v

variable {values : List α}

lemma firstNewest_cons {w v : α} :
    FirstNewest stamp (w :: values) v ↔
      (v = w ∧ ∀ x ∈ values, stamp x ≤ stamp v) ∨ (stamp w < stamp v ∧ FirstNewest stamp values v) := by
  constructor
  · rintro ⟨before, after, heq, hbefore, hafter⟩
    cases before with
    | nil =>
      cases heq
      exact .inl ⟨rfl, hafter⟩
    | cons x before =>
      cases heq
      rw [forall_mem_cons] at hbefore
      exact .inr ⟨hbefore.1, before, after, rfl, hbefore.2, hafter⟩
  · rintro (⟨rfl, hafter⟩ | ⟨hlt, before, after, rfl, hbefore, hafter⟩)
    · exact ⟨[], values, rfl, by simp, hafter⟩
    · exact ⟨w :: before, after, rfl, forall_mem_cons.mpr ⟨hlt, hbefore⟩, hafter⟩

@[simp] lemma not_firstNewest_nil (v : α) : ¬FirstNewest stamp [] v := by
  rintro ⟨before, after, heq, -⟩
  simp at heq

lemma firstNewest_newestWins {x y v : α} :
    FirstNewest stamp ((newestWins stamp (some x) (some y)).toList ++ values) v ↔
      FirstNewest stamp (x :: y :: values) v := by
  simp only [newestWins]
  split_ifs with hle
  · simp only [Option.toList_some, singleton_append, firstNewest_cons, forall_mem_cons]
    constructor
    · rintro (⟨rfl, hafter⟩ | ⟨hlt, hrest⟩)
      · exact .inl ⟨rfl, hle, hafter⟩
      · exact .inr ⟨hlt, .inr ⟨by omega, hrest⟩⟩
    · rintro (⟨rfl, -, hafter⟩ | ⟨hlt, ⟨rfl, hafter⟩ | ⟨-, hrest⟩⟩)
      · exact .inl ⟨rfl, hafter⟩
      · omega
      · exact .inr ⟨hlt, hrest⟩
  · simp only [Option.toList_some, singleton_append, firstNewest_cons, forall_mem_cons]
    constructor
    · rintro (⟨rfl, hafter⟩ | ⟨hlt, hrest⟩)
      · exact .inr ⟨by omega, .inl ⟨rfl, hafter⟩⟩
      · exact .inr ⟨by omega, .inr ⟨hlt, hrest⟩⟩
    · rintro (⟨rfl, hle', -⟩ | ⟨-, hrest⟩)
      · exact absurd hle' hle
      · exact hrest

/-- Replaying keeps the first of the newest values, counting what was in the cell as the first value. -/
theorem replay_newestWins_eq_some_iff :
    replay (newestWins stamp) tells cell log = some v ↔ FirstNewest stamp (cell.toList ++ log.filterMap tells) v := by
  induction log generalizing cell with
  | nil => cases cell <;> simp [replay, firstNewest_cons, eq_comm]
  | cons entry log ih =>
    have hstep : replay (newestWins stamp) tells cell (entry :: log) =
        replay (newestWins stamp) tells (newestWins stamp cell (tells entry)) log := rfl
    rw [hstep, ih]
    cases htells : tells entry with
    | none => simp [htells]
    | some y =>
      rw [filterMap_cons_some htells]
      cases cell with
      | none => rfl
      | some x => exact firstNewest_newestWins

lemma FirstNewest.mem (h : FirstNewest stamp values v) : v ∈ values := by
  obtain ⟨before, after, rfl, -, -⟩ := h
  simp

lemma FirstNewest.le (h : FirstNewest stamp values v) : ∀ w ∈ values, stamp w ≤ stamp v := by
  obtain ⟨before, after, rfl, hbefore, hafter⟩ := h
  intro w hw
  rcases mem_append.mp hw with hw | hw
  · exact (hbefore w hw).le
  · rcases mem_cons.mp hw with rfl | hw
    · exact le_rfl
    · exact hafter w hw

/-- No value is newer than the one that is kept. -/
theorem replay_newestWins_ge {u : α}
    (h : cell = some u ∨ ∃ entry ∈ log, tells entry = some u) :
    ∃ w, stamp u ≤ stamp w ∧ replay (newestWins stamp) tells cell log = some w := by
  obtain ⟨w, hw⟩ := exists_replay picks_newestWins h
  refine ⟨w, (replay_newestWins_eq_some_iff.mp hw).le u ?_, hw⟩
  simpa using h

lemma FirstNewest.head?_filter (h : FirstNewest stamp values v) :
    (values.filter (fun w => stamp w = stamp v)).head? = some v := by
  obtain ⟨before, after, rfl, hbefore, -⟩ := h
  have hnone : before.filter (fun w => stamp w = stamp v) = [] := by
    rw [filter_eq_nil_iff]
    intro w hw
    simpa using (hbefore w hw).ne
  simp [filter_append, hnone]

lemma firstNewest_iff_of_agree
    (hagree : ∀ a ∈ values, ∀ b ∈ values, stamp a = stamp b → a = b) :
    FirstNewest stamp values v ↔ v ∈ values ∧ ∀ w ∈ values, stamp w ≤ stamp v := by
  refine ⟨fun h => ⟨h.mem, h.le⟩, ?_⟩
  rintro ⟨hmem, hle⟩
  obtain ⟨before, after, rfl, hfirst⟩ := eq_append_cons_of_mem hmem
  refine ⟨before, after, rfl, fun w hw => ?_, fun w hw => hle w (by simp [hw])⟩
  apply lt_of_le_of_ne (hle w (by simp [hw]))
  intro heq
  exact hfirst (hagree w (by simp [hw]) v hmem heq ▸ hw)

lemma replay_newestWins_iff
    (hagree : ∀ a ∈ log.filterMap tells, ∀ b ∈ log.filterMap tells, stamp a = stamp b → a = b) :
    replay (newestWins stamp) tells cell log = some v ↔ (cell = some v ∨ v ∈ log.filterMap tells) ∧
      (∀ w ∈ log.filterMap tells, stamp w ≤ stamp v) ∧ ∀ u, cell = some u → stamp u < stamp v ∨ v = u := by
  rw [replay_newestWins_eq_some_iff]
  cases cell with
  | none => simp [firstNewest_iff_of_agree hagree]
  | some u =>
    rw [Option.toList_some, singleton_append, firstNewest_cons, firstNewest_iff_of_agree hagree]
    grind

lemma firstNewest_iff_of_pairwise (hstamps : values.Pairwise fun a b => stamp a ≠ stamp b) :
    FirstNewest stamp values v ↔ v ∈ values ∧ ∀ w ∈ values, stamp w ≤ stamp v := by
  apply firstNewest_iff_of_agree
  intro a ha b hb heq
  by_contra hne
  have hsymm : Std.Symm fun a b : α => stamp a ≠ stamp b := ⟨fun _ _ h => h.symm⟩
  exact hstamps.forall ha hb hne heq

end Newest

end Replay
