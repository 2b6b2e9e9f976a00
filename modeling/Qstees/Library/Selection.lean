import Mathlib

/-!
# Selections by flags

A list of flags selects the elements it stands over. Totals of a weight over the selected elements, under the
changes a search makes to its flags: setting one, appending one, padding with unset ones.
-/

namespace Selection

open List

variable {α : Type}

/-- The elements of `xs` whose flag is set; elements past the flags are not selected. -/
def pick : List Bool → List α → List α
  | b :: flags, x :: xs => if b then x :: pick flags xs else pick flags xs
  | _, _ => []

def total (w : α → Int) (flags : List Bool) (xs : List α) : Int := ((pick flags xs).map w).sum

@[simp] lemma pick_nil (xs : List α) : pick [] xs = [] := rfl

@[simp] lemma total_nil (w : α → Int) (xs : List α) : total w [] xs = 0 := rfl

lemma total_cons (w : α → Int) (b : Bool) (flags : List Bool) (x : α) (xs : List α) :
    total w (b :: flags) (x :: xs) = (if b then w x else 0) + total w flags xs := by
  cases b <;> simp [total, pick]

lemma pick_sublist (flags : List Bool) (xs : List α) : (pick flags xs).Sublist xs := by
  induction xs generalizing flags with
  | nil => cases flags <;> simp [pick]
  | cons x xs ih =>
    cases flags with
    | nil => simp
    | cons b flags =>
      cases b with
      | true => exact (ih flags).cons_cons x
      | false => exact (ih flags).cons x

lemma pick_replicate_true (xs : List α) : pick (List.replicate xs.length true) xs = xs := by
  induction xs with
  | nil => rfl
  | cons x xs ih => simp [replicate_succ, pick, ih]

lemma pick_replicate_false (n : Nat) (xs : List α) : pick (List.replicate n false) xs = [] := by
  induction xs generalizing n with
  | nil => cases n <;> rfl
  | cons x xs ih =>
    cases n with
    | zero => rfl
    | succ n => simp [replicate_succ, pick, ih]

lemma pick_append_false (flags : List Bool) (n : Nat) (xs : List α) :
    pick (flags ++ List.replicate n false) xs = pick flags xs := by
  induction xs generalizing flags with
  | nil => cases flags <;> cases n <;> rfl
  | cons x xs ih =>
    cases flags with
    | nil => exact pick_replicate_false n (x :: xs)
    | cons b flags => simp [pick, ih]

lemma total_set (w : α → Int) {flags : List Bool} {xs : List α} {i : Nat} {b : Bool} {x : α}
    (hflag : flags[i]? = some b) (hx : xs[i]? = some x) (b' : Bool) :
    total w (flags.set i b') xs = total w flags xs - (if b then w x else 0) + (if b' then w x else 0) := by
  induction i generalizing flags xs with
  | zero =>
    cases flags with
    | nil => simp at hflag
    | cons c flags =>
      cases xs with
      | nil => simp at hx
      | cons y xs =>
        simp only [getElem?_cons_zero, Option.some.injEq] at hflag hx
        subst hflag hx
        simp only [set_cons_zero, total_cons]
        ring
  | succ i ih =>
    cases flags with
    | nil => simp at hflag
    | cons c flags =>
      cases xs with
      | nil => simp at hx
      | cons y xs =>
        simp only [getElem?_cons_succ] at hflag hx
        simp only [set_cons_succ, total_cons, ih hflag hx]
        ring

lemma total_concat (w : α → Int) {flags : List Bool} {xs : List α} {x : α} (hx : xs[flags.length]? = some x)
    (b : Bool) : total w (flags ++ [b]) xs = total w flags xs + (if b then w x else 0) := by
  induction flags generalizing xs with
  | nil =>
    cases xs with
    | nil => simp at hx
    | cons y xs =>
      simp only [length_nil, getElem?_cons_zero, Option.some.injEq] at hx
      subst hx
      simp [total_cons]
  | cons c flags ih =>
    cases xs with
    | nil => simp at hx
    | cons y xs =>
      simp only [length_cons, getElem?_cons_succ] at hx
      simp only [cons_append, total_cons, ih hx]
      ring

lemma total_le_total {v w : α → Int} {xs : List α} (h : ∀ x ∈ xs, v x ≤ w x) (flags : List Bool) :
    total v flags xs ≤ total w flags xs := by
  have hpick : ∀ x ∈ pick flags xs, v x ≤ w x := fun x hx => h x ((pick_sublist flags xs).subset hx)
  exact sum_le_sum hpick

end Selection
