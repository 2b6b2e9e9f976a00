import Mathlib

/-!
# Computations that record what they do

A computation returns a value or fails, and leaves a log of the operations it made. A property of every operation
(here: that its exact result fits its type) is a property of the log.
-/

/-- A result and the records made on the way to it. -/
structure Traced (ε ρ α : Type) where
  result : Except ε α
  log : List ρ

namespace Traced

variable {ε ρ α β : Type}

instance : Monad (Traced ε ρ) where
  pure a := ⟨.ok a, []⟩
  bind x f :=
    match x.result with
    | .error e => ⟨.error e, x.log⟩
    | .ok a => ⟨(f a).result, x.log ++ (f a).log⟩

/-- A failure that records nothing. -/
def fail (e : ε) : Traced ε ρ α := ⟨.error e, []⟩

/-- Hands a value on and records `r`. -/
def record (r : ρ) (a : α) : Traced ε ρ α := ⟨.ok a, [r]⟩

/-- A value of `Option`, with the failure for `none`. -/
def ofOption (e : ε) : Option α → Traced ε ρ α
  | some a => pure a
  | none => fail e

@[simp] lemma result_pure (a : α) : (pure a : Traced ε ρ α).result = .ok a := rfl

@[simp] lemma log_pure (a : α) : (pure a : Traced ε ρ α).log = [] := rfl

@[simp] lemma result_record (r : ρ) (a : α) : (record r a : Traced ε ρ α).result = .ok a := rfl

@[simp] lemma log_record (r : ρ) (a : α) : (record r a : Traced ε ρ α).log = [r] := rfl

@[simp] lemma ofOption_some (e : ε) (a : α) : (ofOption e (some a) : Traced ε ρ α) = pure a := rfl

lemma result_bind {x : Traced ε ρ α} {a : α} (h : x.result = .ok a) (f : α → Traced ε ρ β) :
    (x >>= f).result = (f a).result := by
  obtain ⟨result, log⟩ := x
  cases h
  rfl

lemma ok_of_bind {x : Traced ε ρ α} {f : α → Traced ε ρ β} {b : β} (h : (x >>= f).result = .ok b) :
    ∃ a, x.result = .ok a ∧ (f a).result = .ok b := by
  obtain ⟨_ | a, log⟩ := x
  · cases h
  · exact ⟨a, rfl, h⟩

lemma log_bind {x : Traced ε ρ α} {a : α} (h : x.result = .ok a) (f : α → Traced ε ρ β) :
    (x >>= f).log = x.log ++ (f a).log := by
  obtain ⟨result, log⟩ := x
  cases h
  rfl

/-- Every record has the property. -/
def Clean (P : ρ → Prop) (x : Traced ε ρ α) : Prop := ∀ r ∈ x.log, P r

variable {P : ρ → Prop}

instance [DecidablePred P] (x : Traced ε ρ α) : Decidable (Clean P x) := inferInstanceAs (Decidable (∀ r ∈ x.log, P r))

@[simp] lemma clean_pure (a : α) : Clean P (pure a : Traced ε ρ α) := fun _ h => absurd h List.not_mem_nil

@[simp] lemma clean_record {r : ρ} {a : α} : Clean P (record r a : Traced ε ρ α) ↔ P r := by
  simp [Clean]

lemma clean_bind {x : Traced ε ρ α} {a : α} (h : x.result = .ok a) (f : α → Traced ε ρ β) :
    Clean P (x >>= f) ↔ Clean P x ∧ Clean P (f a) := by
  simp only [Clean, log_bind h, List.mem_append]
  exact ⟨fun hall => ⟨fun r hr => hall r (.inl hr), fun r hr => hall r (.inr hr)⟩,
    fun hall r hr => hr.elim (hall.1 r) (hall.2 r)⟩

end Traced
