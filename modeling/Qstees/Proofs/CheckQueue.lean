import Qstees.Model.CheckQueue

/-!
# Waiting for the checks

A check of the session is in the queue or in the batch of a thread, or its result is in `fAllOk`.
-/

namespace Qstees.Proofs

open Runs List

variable {T : Type} {n : Nat} {check : T → Bool} {fMaster : Bool} {q q' q₁ : CCheckQueue T}
    {thread thread' : LoopState T}
  {res : Option Bool} {s : CheckSession T n}

def unreported : LoopState T → Nat
  | .working _ nNow _ => nNow
  | _ => 0

def Passes (check : T → Bool) : LoopState T → Prop
  | .working vChecks _ fOk => fOk = true ∧ ∀ c ∈ vChecks, check c = true
  | _ => True

lemma passes_of_unreported_eq_zero (check : T → Bool) (h : unreported thread = 0) : Passes check thread := by
  cases thread with
  | working vChecks nNow fOk => exact absurd h nNow.ne_zero
  | _ => trivial

/-- What a thread does to the queue and to itself. -/
structure Turn (check : T → Bool) (fMaster : Bool) (q : CCheckQueue T) (thread : LoopState T) (q' : CCheckQueue T)
    (thread' : LoopState T) (res : Option Bool) : Prop where
  todo : q'.nTodo + (q.queue.length + unreported thread) = q.nTodo + (q'.queue.length + unreported thread')
  le : q'.nTodo ≤ q.nTodo
  passes : (res ≠ some false ∧ q'.fAllOk = true ∧ (∀ c ∈ q'.queue, check c = true) ∧ Passes check thread') ↔
    q.fAllOk = true ∧ (∀ c ∈ q.queue, check c = true) ∧ Passes check thread
  returned : res ≠ none → fMaster = true ∧ q'.nTodo = 0 ∧ q'.fAllOk = true

lemma Turn.refl : Turn check fMaster q thread q thread none := ⟨rfl, le_rfl, by simp, by simp⟩

lemma Turn.release (hle : unreported thread ≤ q.nTodo) (h : q.release thread = some q') :
    Turn check fMaster q thread q' .waiting none := by
  rcases thread with _ | _ | ⟨vChecks | ⟨c, vChecks⟩, nNow, fOk⟩
  · cases h
    exact ⟨rfl, le_rfl, by simp [Passes], by simp⟩
  · cases h
    exact ⟨rfl, le_rfl, by simp, by simp⟩
  · cases h
    refine ⟨?_, Nat.sub_le _ _, by simp [Passes]; tauto, by simp⟩
    simp only [unreported] at hle ⊢
    omega
  · cases h

lemma Turn.fetch (nBatchSize : Nat) (h : Turn check fMaster q thread q₁ .waiting none) :
    Turn check fMaster q thread (q₁.fetch nBatchSize fMaster).2.2 (q₁.fetch nBatchSize fMaster).2.1
      (q₁.fetch nBatchSize fMaster).1 := by
  obtain ⟨htodo, hle, hpasses, -⟩ := h
  unfold CCheckQueue.fetch
  split_ifs with hempty hdone
  · simp only [Bool.and_eq_true, beq_iff_eq] at hdone
    rw [List.isEmpty_iff] at hempty
    exact ⟨htodo, hle, by simpa [Passes, hempty] using hpasses, fun _ => ⟨hdone.1, hdone.2, rfl⟩⟩
  · exact ⟨htodo, hle, hpasses, by simp⟩
  have hshare : (q₁.batchSize nBatchSize : Nat) ≤ q₁.queue.length := by
    have hlength : 0 < q₁.queue.length := length_pos_of_ne_nil (by simpa using hempty)
    have hdiv := Nat.div_le_self q₁.queue.length (q₁.nTotal + q₁.nIdle + 1)
    simp only [CCheckQueue.batchSize, PNat.mk_coe]
    omega
  have hsplit : (∀ c ∈ q₁.queue, check c = true) ↔ (∀ c ∈ q₁.queue.take (q₁.batchSize nBatchSize), check c = true) ∧
      ∀ c ∈ q₁.queue.drop (q₁.batchSize nBatchSize), check c = true := by
    rw [← forall_mem_append, take_append_drop]
  refine ⟨?_, hle, ?_, by simp⟩
  · simp only [unreported, length_drop] at htodo ⊢
    omega
  · rw [← hpasses, hsplit]
    simp only [Passes]
    tauto

lemma Turn.enter (check : T → Bool) (nBatchSize : Nat) (fMaster : Bool) (hle : unreported thread ≤ q.nTodo) :
    Turn check fMaster q thread (q.enter nBatchSize fMaster thread).2.2 (q.enter nBatchSize fMaster thread).2.1
      (q.enter nBatchSize fMaster thread).1 := by
  unfold CCheckQueue.enter
  split
  · next hrelease => exact (Turn.release hle hrelease).fetch nBatchSize
  · exact Turn.refl

lemma Turn.execute : Turn check fMaster q thread q (thread.execute check) none := by
  rcases thread with _ | _ | ⟨vChecks | ⟨c, vChecks⟩, nNow, fOk⟩
  · exact Turn.refl
  · exact Turn.refl
  · exact Turn.refl
  · refine ⟨rfl, le_rfl, ?_, by simp⟩
    cases fOk <;> simp [LoopState.execute, Passes]

/-- `nTodo` counts what is queued and what is in batches, and the results known and to come are those of the checks that
were added. -/
structure Accounted (check : T → Bool) (s : CheckSession T n) : Prop where
  todo : s.q.nTodo = s.q.queue.length + ∑ i, unreported (s.threads i)
  passes : (∀ c ∈ s.added, check c = true) ↔
    s.result ≠ some false ∧ s.q.fAllOk = true ∧ (∀ c ∈ s.q.queue, check c = true) ∧ ∀ i, Passes check (s.threads i)
  returned : s.result ≠ none → s.q.nTodo = 0 ∧ s.q.fAllOk = true

lemma Accounted.unreported_le (h : Accounted check s) (i : Option (Fin n)) : unreported (s.threads i) ≤ s.q.nTodo := by
  rw [h.todo, ← Finset.add_sum_erase _ _ (Finset.mem_univ i)]
  omega

lemma Accounted.idle (h : Accounted check s) (hres : s.result ≠ none) :
    s.q.queue = [] ∧ ∀ i, unreported (s.threads i) = 0 := by
  have hzero := (h.returned hres).1
  refine ⟨length_eq_zero_iff.mp ?_, fun i => Nat.le_zero.mp ((h.unreported_le i).trans hzero.le)⟩
  have htodo := h.todo
  omega

lemma Accounted.turn (h : Accounted check s) {i : Option (Fin n)}
    (hturn : Turn check i.isNone s.q (s.threads i) q thread res) (hres : s.result = none ∨ res = none) :
    Accounted check { s with q := q, threads := Function.update s.threads i thread, result := s.result.or res } := by
  have hrest : ∑ j ∈ Finset.univ.erase i, unreported (Function.update s.threads i thread j) =
      ∑ j ∈ Finset.univ.erase i, unreported (s.threads j) := by
    apply Finset.sum_congr rfl
    intro j hj
    rw [Function.update_of_ne (Finset.ne_of_mem_erase hj)]
  refine ⟨?_, ?_, ?_⟩
  · have htodo := h.todo
    have hturn := hturn.todo
    dsimp only
    rw [← Finset.add_sum_erase _ _ (Finset.mem_univ i)] at htodo ⊢
    rw [hrest, Function.update_self]
    omega
  · have hold := Function.forall_update_iff s.threads (a := i) (b := s.threads i) (fun _ => Passes check)
    rw [Function.update_eq_self] at hold
    have hturn := hturn.passes
    dsimp only
    rw [Function.forall_update_iff s.threads (fun _ => Passes check), h.passes, hold]
    rcases hres with hres | hres
    · rw [hres, Option.none_or]
      simp only [ne_eq, reduceCtorEq, not_false_eq_true, true_and]
      tauto
    · rw [hres] at hturn ⊢
      rw [Option.or_none]
      simp only [ne_eq, reduceCtorEq, not_false_eq_true, true_and] at hturn
      tauto
  · intro hsome
    by_cases hnone : s.result = none
    · dsimp only at hsome
      rw [hnone, Option.none_or] at hsome
      exact (hturn.returned hsome).2
    · -- the thread had nothing to do
      obtain ⟨hqueue, hidle⟩ := h.idle hnone
      obtain ⟨hzero, hok⟩ := h.returned hnone
      have hafter := hturn.passes.mpr ⟨hok, by simp [hqueue], passes_of_unreported_eq_zero check (hidle i)⟩
      exact ⟨Nat.le_zero.mp (hturn.le.trans hzero.le), hafter.2.1⟩

lemma Accounted.step (h : Accounted check s) (nBatchSize : Nat) (action : CheckAction T n) :
    Accounted check (s.step check nBatchSize action) := by
  cases action with
  | add vChecks =>
    simp only [CheckSession.step]
    split
    · refine ⟨?_, ?_, ?_⟩
      · have htodo := h.todo
        simp only [CCheckQueue.add, length_append, length_reverse, htodo]
        omega
      · simp only [CCheckQueue.add, forall_mem_append, mem_reverse, h.passes]
        tauto
      · next hnone _ => exact fun hres => absurd hnone hres
    · exact h
  | enter i =>
    have hturn := Turn.enter check nBatchSize i.isNone (h.unreported_le i)
    simp only [CheckSession.step]
    split_ifs with hover
    · exact h
    · refine h.turn hturn ?_
      by_contra hboth
      rw [not_or] at hboth
      exact hover (by simp [(hturn.returned hboth.2).1, Option.isSome_iff_ne_none, hboth.1])
  | execute i =>
    have hexecute := h.turn (i := i) Turn.execute (.inr rfl)
    rw [Option.or_none] at hexecute
    exact hexecute
  | control =>
    simp only [CheckSession.step]
    split_ifs with hres
    · rw [Option.isSome_iff_ne_none] at hres
      obtain ⟨hqueue, hidle⟩ := h.idle hres
      exact ⟨h.todo, by simp [h.returned hres, hqueue, fun i => passes_of_unreported_eq_zero check (hidle i)], by simp⟩
    · exact h

/-- Once `Wait` has returned nothing is queued or running and the result is that of all checks added in the session,
and the next session starts as the first one did. -/
theorem wait_returns_all (check : T → Bool) (nBatchSize : Nat) (actions : List (CheckAction T n)) :
    let s := run (CheckSession.step check nBatchSize) {} actions
    ∀ fRet, s.result = some fRet →
      (s.q.queue = [] ∧ ∀ i vChecks nNow fOk, s.threads i ≠ .working vChecks nNow fOk) ∧ fRet = s.added.all check ∧
      let next := s.step check nBatchSize .control
      next.q.queue = [] ∧ next.q.nTodo = 0 ∧ next.q.fAllOk = true ∧ next.added = [] := by
  intro s fRet hres
  have hinit : Accounted check ({} : CheckSession T n) := ⟨by simp [unreported], by simp [Passes], by simp⟩
  have h : Accounted check s := List.foldlRecOn actions _ hinit (fun _ h action _ => h.step nBatchSize action)
  have hsome : s.result ≠ none := by simp [hres]
  obtain ⟨hqueue, hidle⟩ := h.idle hsome
  obtain ⟨hzero, hok⟩ := h.returned hsome
  refine ⟨⟨hqueue, fun i vChecks nNow fOk hi => ?_⟩, ?_, ?_⟩
  · have hpos := hidle i
    rw [hi] at hpos
    exact nNow.ne_zero hpos
  · have hall := h.passes
    rw [hres] at hall
    rw [Bool.eq_iff_iff, all_eq_true, hall]
    simp [hok, hqueue, fun i => passes_of_unreported_eq_zero check (hidle i)]
  · simp [CheckSession.step, hres, hqueue, hzero, hok]

/-- A worker finds the bad check, the master returns it. -/
theorem wait_returns_false :
    let s := run (CheckSession.step id 128) ({} : CheckSession Bool 1)
      [.add [true, false], .enter (some 0), .enter none, .execute none, .execute (some 0), .enter none,
        .enter (some 0), .enter none]
    s.result = some false ∧ s.q.queue = [] :=
  ⟨by decide, (wait_returns_all id 128 _ false (by decide)).1.1⟩

end Qstees.Proofs
