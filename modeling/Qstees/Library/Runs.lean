import Mathlib

/-!
# Runs of a deterministic machine

A run is a list of actions. Its trace pairs each action with the state in which it is taken, so that
a condition on the steps of a run is a condition on the members of its trace.
-/

namespace Runs

open List

variable {σ α : Type} (step : σ → α → σ)

/-- The state after a run. -/
def run (s : σ) (actions : List α) : σ := actions.foldl step s

/-- The steps of a run. -/
def trace (s : σ) : List α → List (σ × α)
  | [] => []
  | a :: actions => (s, a) :: trace (step s a) actions

@[simp] lemma run_nil (s : σ) : run step s [] = s := rfl

@[simp] lemma run_cons (s : σ) (a : α) (actions : List α) :
    run step s (a :: actions) = run step (step s a) actions := rfl

lemma run_append (s : σ) (actions actions' : List α) :
    run step s (actions ++ actions') = run step (run step s actions) actions' := foldl_append

lemma trace_append (s : σ) (actions actions' : List α) :
    trace step s (actions ++ actions') = trace step s actions ++ trace step (run step s actions) actions' := by
  induction actions generalizing s with
  | nil => rfl
  | cons a actions ih => exact congrArg ((s, a) :: ·) (ih (step s a))

variable {step}

lemma mem_of_mem_trace {s : σ} {actions : List α} {p : σ × α} (h : p ∈ trace step s actions) : p.2 ∈ actions := by
  induction actions generalizing s with
  | nil => cases h
  | cons a actions ih =>
    rcases mem_cons.mp h with rfl | h
    · exact mem_cons_self
    · exact mem_cons_of_mem _ (ih h)

lemma invariant_history {P : List (σ × α) → σ → Prop} {good : σ → α → Prop}
    (hstep : ∀ past s a, P past s → good s a → P (past ++ [(s, a)]) (step s a))
    {past : List (σ × α)} {s : σ} (hs : P past s) {actions : List α}
    (hgood : ∀ p ∈ trace step s actions, good p.1 p.2) :
    P (past ++ trace step s actions) (run step s actions) := by
  induction actions generalizing past s with
  | nil => simpa [trace] using hs
  | cons a actions ih =>
    have hfirst : good s a := hgood (s, a) mem_cons_self
    have hrest := ih (hstep past s a hs hfirst) (fun p hp => hgood p (mem_cons_of_mem _ hp))
    rw [append_assoc] at hrest
    exact hrest

lemma invariant {P : σ → Prop} {good : σ → α → Prop} (hstep : ∀ s a, P s → good s a → P (step s a))
    {s : σ} (hs : P s) {actions : List α} (hgood : ∀ p ∈ trace step s actions, good p.1 p.2) :
    P (run step s actions) :=
  @invariant_history _ _ _ (fun _ => P) _ (fun _ => hstep) [] _ hs _ hgood

lemma invariant_trace {P : σ → Prop} {good : σ → α → Prop} (hstep : ∀ s a, P s → good s a → P (step s a))
    {s : σ} (hs : P s) {actions : List α} (hgood : ∀ p ∈ trace step s actions, good p.1 p.2) :
    ∀ p ∈ trace step s actions, P p.1 := by
  have h := invariant_history (P := fun past s => P s ∧ ∀ p ∈ past, P p.1) (fun past s a h ha =>
    ⟨hstep s a h.1 ha, forall_mem_append.mpr ⟨h.2, forall_mem_singleton.mpr h.1⟩⟩) ⟨hs, forall_mem_nil _⟩ hgood
  exact h.2

section Events

variable {κ ν : Type}

/-- Two events of a run with the same key have the same value, if the key is alive at every step from the one to the
other. -/
def Agree (event : σ → α → κ → ν → Prop) (alive : α → κ → Prop) (steps : List (σ × α)) : Prop :=
  ∀ (i j : Nat) (p q : σ × α), i ≤ j → steps[i]? = some p → steps[j]? = some q → ∀ k v w, event p.1 p.2 k v →
    event q.1 q.2 k w → (∀ (n : Nat) (r : σ × α), i ≤ n → n ≤ j → steps[n]? = some r → alive r.2 k) → v = w

variable (step) in
/-- The state remembers the value of an event while its key is alive, and later events have the remembered value. -/
structure Remembered (inv : σ → Prop) (good : σ → α → Prop) (event : σ → α → κ → ν → Prop) (alive : α → κ → Prop)
    (memory : σ → κ → ν → Prop) : Prop where
  invariant : ∀ s a, inv s → good s a → inv (step s a)
  one : ∀ s a k v w, inv s → good s a → event s a k v → event s a k w → v = w
  known : ∀ s a k v w, inv s → good s a → memory s k v → event s a k w → v = w
  stored : ∀ s a k v, inv s → good s a → event s a k v → memory (step s a) k v
  kept : ∀ s a k v, inv s → good s a → memory s k v → alive a k → memory (step s a) k v

variable {inv : σ → Prop} {good : σ → α → Prop} {event : σ → α → κ → ν → Prop} {alive : α → κ → Prop}
    {memory : σ → κ → ν → Prop}

lemma Remembered.recall (h : Remembered step inv good event alive memory) {s : σ} (hs : inv s) {actions : List α}
    (hgood : ∀ p ∈ trace step s actions, good p.1 p.2) {k : κ} {v : ν} (hv : memory s k v) {j : Nat} {q : σ × α}
    (hq : (trace step s actions)[j]? = some q) {w : ν} (hw : event q.1 q.2 k w)
    (halive : ∀ (n : Nat) (r : σ × α), n ≤ j → (trace step s actions)[n]? = some r → alive r.2 k) : v = w := by
  induction actions generalizing s j with
  | nil => simp [trace] at hq
  | cons a actions ih =>
    have hfirst : good s a := hgood (s, a) mem_cons_self
    cases j with
    | zero =>
      obtain rfl : (s, a) = q := by simpa [trace] using hq
      exact h.known s a k v w hs hfirst hv hw
    | succ j =>
      have hnow : alive a k := halive 0 (s, a) (Nat.zero_le _) (by simp [trace])
      apply ih (h.invariant s a hs hfirst) (fun p hp => hgood p (mem_cons_of_mem _ hp))
        (h.kept s a k v hs hfirst hv hnow) (by simpa [trace] using hq)
      intro n r hn hr
      exact halive (n + 1) r (by omega) (by simpa [trace] using hr)

lemma Remembered.agree (h : Remembered step inv good event alive memory) {s : σ} (hs : inv s) {actions : List α}
    (hgood : ∀ p ∈ trace step s actions, good p.1 p.2) : Agree event alive (trace step s actions) := by
  induction actions generalizing s with
  | nil =>
    intro i j p q _ hp
    simp [trace] at hp
  | cons a actions ih =>
    have hfirst : good s a := hgood (s, a) mem_cons_self
    have hnext := h.invariant s a hs hfirst
    have hrest : ∀ p ∈ trace step (step s a) actions, good p.1 p.2 := fun p hp => hgood p (mem_cons_of_mem _ hp)
    intro i j p q hij hp hq k v w hv hw halive
    cases j with
    | zero =>
      obtain rfl : i = 0 := by omega
      obtain rfl : (s, a) = p := by simpa [trace] using hp
      obtain rfl : (s, a) = q := by simpa [trace] using hq
      exact h.one s a k v w hs hfirst hv hw
    | succ j =>
      have hq' : (trace step (step s a) actions)[j]? = some q := by simpa [trace] using hq
      cases i with
      | zero =>
        obtain rfl : (s, a) = p := by simpa [trace] using hp
        apply h.recall hnext hrest (h.stored s a k v hs hfirst hv) hq' hw
        intro n r hn hr
        exact halive (n + 1) r (by omega) (by omega) (by simpa [trace] using hr)
      | succ i =>
        apply ih hnext hrest i j p q (by omega) (by simpa [trace] using hp) hq' k v w hv hw
        intro n r hin hnj hr
        exact halive (n + 1) r (by omega) (by omega) (by simpa [trace] using hr)

end Events

section Answers

variable {σ α β : Type} (step : σ → α → β × σ)

/-- The answers of a run, in order. -/
def answers (s : σ) : List α → List β
  | [] => []
  | a :: actions => (step s a).1 :: answers (step s a).2 actions

/-- The state that a run with answers ends in. -/
def final (s : σ) : List α → σ
  | [] => s
  | a :: actions => final (step s a).2 actions

variable {step}

/-- States that a relation cannot tell apart, answer by answer and step by step, answer alike in all runs. -/
theorem answers_eq_of_bisim {R : σ → σ → Prop}
    (hstep : ∀ s s' a, R s s' → (step s a).1 = (step s' a).1 ∧ R (step s a).2 (step s' a).2)
    {s s' : σ} (h : R s s') (actions : List α) :
    answers step s actions = answers step s' actions ∧ R (final step s actions) (final step s' actions) := by
  induction actions generalizing s s' with
  | nil => exact ⟨rfl, h⟩
  | cons a actions ih =>
    obtain ⟨hanswer, hnext⟩ := hstep s s' a h
    obtain ⟨hanswers, hfinal⟩ := ih hnext
    exact ⟨by rw [answers, answers, hanswer, hanswers], hfinal⟩

end Answers

end Runs
