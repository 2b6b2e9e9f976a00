import Mathlib

/-!
# Trees given by parent pointers

A walk follows the parents of a node for a number of steps. Where the number of steps is the rank of
the node, it meets exactly the ancestors.
-/

namespace ParentTree

open List

variable {α : Type}

/-- A node and what is reached from it in fewer than the given number of steps. -/
def walk (parent : α → Option α) : Nat → α → List α
  | 0, _ => []
  | n + 1, x => x :: ((parent x).elim [] (walk parent n))

/-- The second node is the first one or an ancestor of it. -/
def Descends (parent : α → Option α) : α → α → Prop := Relation.ReflTransGen (fun x p => parent x = some p)

/-- On a set of nodes closed under parents the rank counts the ancestors. -/
structure Ranked (parent : α → Option α) (rank : α → Nat) (nodes : List α) : Prop where
  parent_mem : ∀ {x p : α}, x ∈ nodes → parent x = some p → p ∈ nodes
  rank_parent : ∀ {x p : α}, x ∈ nodes → parent x = some p → rank x = rank p + 1

variable {parent : α → Option α} {rank : α → Nat} {nodes : List α}

lemma walk_succ (n : Nat) (x : α) : walk parent (n + 1) x = x :: ((parent x).elim [] (walk parent n)) := rfl

lemma isChain_walk (n : Nat) (x : α) : (walk parent n x).IsChain (fun x p => parent x = some p) := by
  induction n generalizing x with
  | zero => exact isChain_nil
  | succ n ih =>
    rw [walk_succ]
    cases hp : parent x with
    | none => exact isChain_singleton x
    | some p =>
      rw [Option.elim_some]
      cases n with
      | zero => exact isChain_singleton x
      | succ n =>
        have hrest := ih p
        rw [walk_succ] at hrest ⊢
        exact isChain_cons_cons.mpr ⟨hp, hrest⟩

variable {n : Nat} {x y : α}

lemma descends_of_mem_walk (h : y ∈ walk parent n x) : Descends parent x y := by
  induction n generalizing x with
  | zero => cases h
  | succ n ih =>
    rw [walk_succ] at h
    rcases mem_cons.mp h with rfl | h
    · exact Relation.ReflTransGen.refl
    · cases hp : parent x with
      | none =>
        rw [hp] at h
        cases h
      | some p =>
        rw [hp] at h
        exact Relation.ReflTransGen.head hp (ih h)

lemma Descends.mem_of_closed {S : α → Prop} (hS : ∀ x p, S x → parent x = some p → S p)
    (h : Descends parent x y) (hx : S x) : S y := by
  induction h with
  | refl => exact hx
  | tail _ hstep ih => exact hS _ _ ih hstep

lemma Ranked.mem_of_descends (hr : Ranked parent rank nodes) (hx : x ∈ nodes)
    (h : Descends parent x y) : y ∈ nodes :=
  h.mem_of_closed (fun _ _ => hr.parent_mem) hx

lemma Ranked.mem_walk_of_descends (hr : Ranked parent rank nodes) (hx : x ∈ nodes)
    (h : Descends parent x y) (hn : rank x < n) : y ∈ walk parent n x := by
  induction h using Relation.ReflTransGen.head_induction_on generalizing n with
  | refl =>
    obtain ⟨m, rfl⟩ := Nat.exists_eq_succ_of_ne_zero (Nat.ne_zero_of_lt hn)
    exact mem_cons_self
  | @head x p hp _ ih =>
    obtain ⟨m, rfl⟩ := Nat.exists_eq_succ_of_ne_zero (Nat.ne_zero_of_lt hn)
    have hrank := hr.rank_parent hx hp
    rw [walk_succ, hp, Option.elim_some]
    exact mem_cons_of_mem _ (ih (hr.parent_mem hx hp) (by omega))

lemma Ranked.mem_walk_iff (hr : Ranked parent rank nodes) (hx : x ∈ nodes) :
    y ∈ walk parent (rank x + 1) x ↔ Descends parent x y :=
  ⟨descends_of_mem_walk, fun h => hr.mem_walk_of_descends hx h (Nat.lt_succ_self _)⟩

lemma Ranked.walk_eq (hr : Ranked parent rank nodes) {x p : α} (hx : x ∈ nodes) (hp : parent x = some p) :
    walk parent (rank x + 1) x = x :: walk parent (rank p + 1) p := by
  rw [walk_succ, hp, Option.elim_some, hr.rank_parent hx hp]

lemma Ranked.rank_le (hr : Ranked parent rank nodes) (hx : x ∈ nodes) (h : Descends parent x y) :
    rank y ≤ rank x := by
  induction h using Relation.ReflTransGen.head_induction_on with
  | refl => exact le_rfl
  | @head x p hp _ ih =>
    have hrank := hr.rank_parent hx hp
    have hrest := ih (hr.parent_mem hx hp)
    omega

lemma Ranked.find?_walk (hr : Ranked parent rank nodes) (hx : x ∈ nodes) (h : Descends parent x y) :
    (walk parent (rank x + 1) x).find? (fun z => rank z == rank y) = some y := by
  induction h using Relation.ReflTransGen.head_induction_on with
  | refl =>
    rw [walk_succ]
    exact find?_cons_of_pos (by simp)
  | @head x p hp hrest ih =>
    have hmem := hr.parent_mem hx hp
    have hlt : rank x ≠ rank y := by
      have hrank := hr.rank_parent hx hp
      have hle := hr.rank_le hmem hrest
      omega
    rw [hr.walk_eq hx hp, find?_cons_of_neg (by simpa using hlt)]
    exact ih hmem

lemma Ranked.exists_rank (hr : Ranked parent rank nodes) (hroot : ∀ x ∈ nodes, parent x = none → rank x = 0) {x : α}
    (hx : x ∈ nodes) (hn : n ≤ rank x) : ∃ y, Descends parent x y ∧ rank y = n := by
  obtain ⟨d, hd⟩ := Nat.exists_eq_add_of_le hn
  induction d generalizing x with
  | zero => exact ⟨x, Relation.ReflTransGen.refl, by omega⟩
  | succ d ih =>
    cases hp : parent x with
    | none =>
      have hzero := hroot x hx hp
      omega
    | some p =>
      have hrank := hr.rank_parent hx hp
      obtain ⟨y, hy, hrank'⟩ := ih (hr.parent_mem hx hp) (by omega) (by omega)
      exact ⟨y, Relation.ReflTransGen.head hp hy, hrank'⟩

variable {l : List α}

lemma exists_split {p : α → Bool} (h : ∃ y ∈ l, p y = true) :
    ∃ fork rest, l = l.takeWhile (fun y => !p y) ++ fork :: rest ∧ p fork = true ∧ l.find? p = some fork := by
  induction l with
  | nil =>
    obtain ⟨y, hy, _⟩ := h
    cases hy
  | cons x l ih =>
    by_cases hx : p x = true
    · exact ⟨x, l, by simp [hx], hx, by simp [hx]⟩
    have hrest : ∃ y ∈ l, p y = true := by
      obtain ⟨y, hy, hpy⟩ := h
      rcases mem_cons.mp hy with rfl | hy
      · exact absurd hpy hx
      · exact ⟨y, hy, hpy⟩
    obtain ⟨fork, rest, heq, hfork, hfind⟩ := ih hrest
    refine ⟨fork, rest, ?_, hfork, ?_⟩
    · simpa [hx] using heq
    · simpa [hx] using hfind

lemma descends_of_isChain [DecidableEq α] {y z : α} (h : l.IsChain (fun x p => parent x = some p)) (hy : y ∈ l)
    (hz : z ∈ l.takeWhile (· ≠ y)) : Descends parent z y := by
  have hpairs : l.Pairwise (Descends parent) := by
    have htrans : IsTrans α (Descends parent) := ⟨fun _ _ _ => Relation.ReflTransGen.trans⟩
    rw [← isChain_iff_pairwise]
    exact h.imp (fun _ _ => Relation.ReflTransGen.single)
  obtain ⟨fork, rest, heq, hfork, _⟩ := exists_split (p := fun x => decide (x = y)) ⟨y, hy, by simp⟩
  have hcut : l = l.takeWhile (· ≠ y) ++ y :: rest := by
    simpa [of_decide_eq_true hfork] using heq
  rw [hcut] at hpairs
  exact (pairwise_append.mp hpairs).2.2 z hz y mem_cons_self

lemma isChain_reverse_path {l rest : List α} {fork : α}
    (h : (l ++ fork :: rest).IsChain (fun x p => parent x = some p)) :
    (fork :: l.reverse).IsChain (fun p x => parent x = some p) := by
  have hpath : (l ++ [fork]).IsChain (fun x p => parent x = some p) := by
    have hsplit : l ++ fork :: rest = (l ++ [fork]) ++ rest := by simp
    rw [hsplit] at h
    exact h.left_of_append
  have hrev : (l ++ [fork]).reverse.IsChain (fun p x => parent x = some p) := isChain_reverse.mpr hpath
  simpa using hrev

lemma parent_mem_of_isChain {root : α} (hl : l.IsChain (fun x p => parent x = some p))
    (hlast : l.getLast? = some root) (hroot : parent root = none) {x p : α} (hx : x ∈ l) (hp : parent x = some p) :
    p ∈ l := by
  induction l with
  | nil => cases hx
  | cons y l ih =>
    cases l with
    | nil =>
      obtain rfl : x = y := by simpa using hx
      obtain rfl : x = root := by simpa using hlast
      rw [hroot] at hp
      cases hp
    | cons z l =>
      obtain ⟨hyz, hrest⟩ := isChain_cons_cons.mp hl
      rcases mem_cons.mp hx with rfl | hx
      · have hpz : z = p := Option.some.inj (hyz.symm.trans hp)
        rw [← hpz]
        exact mem_cons_of_mem _ mem_cons_self
      · exact mem_cons_of_mem _ (ih hrest (by simpa using hlast) hx)

lemma rank_of_isChain (hr : Ranked parent rank nodes) {root : α} (hl : l.IsChain (fun x p => parent x = some p))
    (hlast : l.getLast? = some root) (hroot : rank root = 0) (hnodes : ∀ x ∈ l, x ∈ nodes) {d : Nat} {x : α}
    (hx : l[d]? = some x) : d + rank x + 1 = l.length := by
  induction l generalizing d x with
  | nil => simp at hx
  | cons y l ih =>
    cases l with
    | nil =>
      obtain rfl : y = root := by simpa using hlast
      cases d with
      | zero =>
        obtain rfl : y = x := by simpa using hx
        simp [hroot]
      | succ d => simp at hx
    | cons z l =>
      obtain ⟨hyz, hrest⟩ := isChain_cons_cons.mp hl
      have hcount := @ih hrest (by simpa using hlast) (fun x hx => hnodes x (mem_cons_of_mem _ hx))
      cases d with
      | succ d =>
        have h := hcount (by simpa using hx)
        simp only [length_cons] at h ⊢
        omega
      | zero =>
        obtain rfl : y = x := by simpa using hx
        have hz : 0 + rank z + 1 = (z :: l).length := hcount (by simp)
        have hrank := hr.rank_parent (hnodes y mem_cons_self) hyz
        simp only [length_cons] at hz ⊢
        omega

end ParentTree
