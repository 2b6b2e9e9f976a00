import Mathlib

/-!
# Consecutive windows

A window is a pair of a start and a size and holds the heights after its start, up to start plus size. A
schedule is made of rounds: each opens a window whose size is counted at its start, and the next
one starts where it ends. A count of zero ends the schedule with an empty window at a given end.
-/

namespace Windows

open List

/-- The window holds a height. -/
def Covers (w : Int × Int) (h : Int) : Prop := w.1 < h ∧ h ≤ w.1 + w.2

/-- Non-empty windows, each starting where the one before ends. -/
inductive Consecutive : Int → List (Int × Int) → Prop
  | nil (x : Int) : Consecutive x []
  | cons {x n : Int} {ws : List (Int × Int)} (hn : 0 < n) (hws : Consecutive (x + n) ws) : Consecutive x ((x, n) :: ws)

lemma Consecutive.isChain {x : Int} {ws : List (Int × Int)} (h : Consecutive x ws) :
    ws.IsChain (fun a b => b.1 = a.1 + a.2) := by
  induction h with
  | nil x => exact .nil
  | cons hn hws ih =>
    cases hws with
    | nil x => exact .singleton _
    | cons hn' hws' => exact .cons_cons rfl ih

/-- The windows of a schedule from `x` on. -/
def rounds (count : Int → Int) (last : Int) : Nat → Int → List (Int × Int)
  | 0, _ => []
  | fuel + 1, x =>
    if x < last then
      if count x = 0 then [(last, 0)] else (x, count x) :: rounds count last fuel (x + count x)
    else []

variable {count count' : Int → Int} {last last' : Int}

lemma mem_rounds (hcount : ∀ x, 0 ≤ count x) {fuel : Nat} {x : Int} {w : Int × Int}
    (hw : w ∈ rounds count last fuel x) : x ≤ w.1 ∧ (w.2 ≠ 0 → w.2 = count w.1) := by
  induction fuel generalizing x with
  | zero => cases hw
  | succ fuel ih =>
    rw [rounds] at hw
    split_ifs at hw with hx hzero
    · rw [mem_singleton.mp hw]
      exact ⟨hx.le, fun hne => absurd rfl hne⟩
    · rcases mem_cons.mp hw with rfl | hw
      · exact ⟨le_rfl, fun _ => rfl⟩
      · exact ⟨(le_add_of_nonneg_right (hcount x)).trans (ih hw).1, (ih hw).2⟩
    · cases hw

lemma pairwise_rounds (hcount : ∀ x, 0 ≤ count x) (fuel : Nat) (x : Int) :
    (rounds count last fuel x).Pairwise (fun a b => 0 < a.2 ∧ a.1 + a.2 ≤ b.1) := by
  induction fuel generalizing x with
  | zero => exact .nil
  | succ fuel ih =>
    rw [rounds]
    split_ifs with hx hzero
    · exact pairwise_singleton _ _
    · refine .cons ?_ (ih _)
      intro w hw
      exact ⟨lt_of_le_of_ne (hcount x) (Ne.symm hzero), (mem_rounds hcount hw).1⟩
    · exact .nil

lemma consecutive_rounds (hcount : ∀ x, 0 ≤ count x) (fuel : Nat) (x : Int) :
    Consecutive x ((rounds count last fuel x).filter (fun w => w.2 ≠ 0)) := by
  induction fuel generalizing x with
  | zero => exact .nil x
  | succ fuel ih =>
    rw [rounds]
    split_ifs with hx hzero
    · simpa using Consecutive.nil x
    · rw [filter_cons_of_pos (by simpa using hzero)]
      exact .cons (lt_of_le_of_ne (hcount x) (Ne.symm hzero)) (ih _)
    · exact .nil x

/-- Two schedules whose counts agree up to some height have the same windows up to there. -/
theorem rounds_common {limit : Int} (hcount : ∀ x, 0 ≤ count x) (hsame : ∀ x ≤ limit, count' x = count x)
    (hlast : last ≤ last') {fuel fuel' : Nat} {x : Int} (hfuel : (last' - x).toNat ≤ fuel') {w : Int × Int}
    {pre post : List (Int × Int)} (heq : rounds count last fuel x = pre ++ w :: post) (hne : w.2 ≠ 0)
    (hlimit : w.1 ≤ limit) : ∃ post', rounds count' last' fuel' x = pre ++ w :: post' := by
  induction pre generalizing fuel fuel' x with
  | nil =>
    cases fuel with
    | zero => cases heq
    | succ fuel =>
      rw [rounds] at heq
      split_ifs at heq with hx hzero
      · obtain ⟨rfl, -⟩ := List.cons.inj heq
        exact absurd rfl hne
      · obtain ⟨rfl, -⟩ := List.cons.inj heq
        obtain ⟨fuel', rfl⟩ : ∃ k, fuel' = k + 1 := ⟨fuel' - 1, by omega⟩
        rw [rounds, if_pos (hx.trans_le hlast), hsame x hlimit, if_neg hzero]
        exact ⟨_, rfl⟩
      · cases heq
  | cons v pre ih =>
    have hxw : x ≤ w.1 := (mem_rounds hcount (by rw [heq]; simp)).1
    cases fuel with
    | zero => cases heq
    | succ fuel =>
      rw [rounds] at heq
      split_ifs at heq with hx hzero
      · cases pre <;> simp at heq
      · obtain ⟨rfl, htail⟩ := List.cons.inj heq
        obtain ⟨fuel', rfl⟩ : ∃ k, fuel' = k + 1 := ⟨fuel' - 1, by omega⟩
        have hpos := hcount x
        obtain ⟨post', heq'⟩ := ih (by omega : (last' - (x + count x)).toNat ≤ fuel') htail
        rw [rounds, if_pos (hx.trans_le hlast), hsame x (hxw.trans hlimit), if_neg hzero, heq']
        exact ⟨post', rfl⟩
      · cases heq

end Windows
