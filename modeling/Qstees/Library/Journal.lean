import Mathlib

/-!
# Undo and redo journals

A journal lists writes to the cells of a map with the value each cell had before. Where the values
before are right, undoing and redoing a journal do not depend on what the cells it names hold, so
they repair a map in which only some of the writes of two journals have been made.
-/

namespace Journal

open List

variable {K V : Type} [DecidableEq K]

/-- A write to one cell. -/
structure Entry (K V : Type) where
  key : K
  before : V
  after : V

/-- Make the writes. -/
def redo (log : List (Entry K V)) (m : K → V) : K → V :=
  log.foldl (fun m e => Function.update m e.key e.after) m

/-- Take the writes back, last one first. -/
def undo (log : List (Entry K V)) (m : K → V) : K → V :=
  log.foldr (fun e m => Function.update m e.key e.before) m

/-- Every cell holds the value the journal expects when it is written. -/
def Legal (m : K → V) : List (Entry K V) → Prop
  | [] => True
  | e :: log => m e.key = e.before ∧ Legal (Function.update m e.key e.after) log

def keys (log : List (Entry K V)) : List K := log.map Entry.key

section

variable (m : K → V) (e : Entry K V) (log log' : List (Entry K V))

@[simp] lemma redo_nil : redo [] m = m := rfl

@[simp] lemma redo_cons : redo (e :: log) m = redo log (Function.update m e.key e.after) := rfl

@[simp] lemma undo_nil : undo [] m = m := rfl

@[simp] lemma undo_cons : undo (e :: log) m = Function.update (undo log m) e.key e.before := rfl

@[simp] lemma legal_nil : Legal m [] := trivial

@[simp] lemma legal_cons : Legal m (e :: log) ↔ m e.key = e.before ∧ Legal (Function.update m e.key e.after) log :=
  Iff.rfl

lemma redo_append : redo (log ++ log') m = redo log' (redo log m) := foldl_append

lemma undo_append : undo (log ++ log') m = undo log (undo log' m) := foldr_append

lemma legal_append : Legal m (log ++ log') ↔ Legal m log ∧ Legal (redo log m) log' := by
  induction log generalizing m with
  | nil => simp
  | cons e log ih =>
    rw [cons_append, legal_cons, legal_cons, ih, and_assoc]
    rfl

end

variable {m : K → V} {log : List (Entry K V)} {k : K}

lemma redo_of_notMem (h : k ∉ keys log) : redo log m k = m k := by
  induction log generalizing m with
  | nil => rfl
  | cons e log ih =>
    rw [keys, map_cons, mem_cons, not_or] at h
    rw [redo_cons, ih h.2, Function.update_of_ne h.1]

lemma undo_of_notMem (h : k ∉ keys log) : undo log m k = m k := by
  induction log with
  | nil => rfl
  | cons e log ih =>
    rw [keys, map_cons, mem_cons, not_or] at h
    rw [undo_cons, Function.update_of_ne h.1, ih h.2]

lemma undo_update (h : k ∉ keys log) (v : V) :
    undo log (Function.update m k v) = Function.update (undo log m) k v := by
  induction log with
  | nil => rfl
  | cons e log ih =>
    rw [keys, map_cons, mem_cons, not_or] at h
    rw [undo_cons, undo_cons, ih h.2, Function.update_comm h.1]

lemma redo_of_mem (h : k ∈ keys log) (m m' : K → V) : redo log m k = redo log m' k := by
  induction log generalizing m m' with
  | nil => cases h
  | cons e log ih =>
    rw [redo_cons, redo_cons]
    by_cases hrest : k ∈ keys log
    · exact ih hrest _ _
    · have hk : k = e.key := by
        rw [keys, map_cons, mem_cons] at h
        exact h.resolve_right hrest
      rw [redo_of_notMem hrest, redo_of_notMem hrest, hk, Function.update_self, Function.update_self]

lemma undo_of_mem (hlegal : Legal m log) (h : k ∈ keys log) (m' : K → V) : undo log m' k = m k := by
  induction log generalizing m with
  | nil => cases h
  | cons e log ih =>
    rw [undo_cons]
    by_cases hk : k = e.key
    · rw [hk, Function.update_self]
      exact hlegal.1.symm
    · have hrest : k ∈ keys log := by
        rw [keys, map_cons, mem_cons] at h
        exact h.resolve_left hk
      rw [Function.update_of_ne hk, ih hlegal.2 hrest, Function.update_of_ne hk]

lemma undo_redo (h : Legal m log) : undo log (redo log m) = m := by
  induction log generalizing m with
  | nil => rfl
  | cons e log ih =>
    rw [redo_cons, undo_cons, ih h.2, Function.update_idem, ← h.1, Function.update_eq_self]

lemma redo_induct {P : V → Prop} (hm : ∀ k, P (m k)) (hlog : ∀ e ∈ log, P e.after) (k : K) : P (redo log m k) := by
  induction log generalizing m with
  | nil => exact hm k
  | cons e log ih =>
    rw [redo_cons]
    apply ih _ (fun e' he' => hlog e' (mem_cons_of_mem _ he'))
    intro k'
    by_cases hk : k' = e.key
    · rw [hk, Function.update_self]
      exact hlog e mem_cons_self
    · rw [Function.update_of_ne hk]
      exact hm k'

/-- A map that holds in every cell the result of the one journal or of the other is repaired by
undoing the one and redoing the other. -/
theorem redo_undo_of_mixed {old new : List (Entry K V)} (hold : Legal m old) {mixed : K → V}
    (hmixed : ∀ k, mixed k = redo old m k ∨ mixed k = redo new m k) : redo new (undo old mixed) = redo new m := by
  funext k
  by_cases hnew : k ∈ keys new
  · exact redo_of_mem hnew _ _
  · rw [redo_of_notMem hnew, redo_of_notMem hnew]
    by_cases hkey : k ∈ keys old
    · exact undo_of_mem hold hkey mixed
    · have hcell := hmixed k
      rw [redo_of_notMem hkey, redo_of_notMem hnew] at hcell
      rw [undo_of_notMem hkey]
      exact hcell.elim id id

end Journal
