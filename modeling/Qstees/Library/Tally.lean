import Mathlib

/-!
# Fallible computations that record their machine sums

A `Tally` runs to a value or an error and keeps, in order, the exact result of every 64-bit
addition it performed. The value it computes with is the wrapped one, so that "no sum
overflowed" is a statement about the recorded list and not an assumption of the model.
-/

/-- Two's complement truncation to 64 bits. -/
def wrap64 (x : Int) : Int := x.bmod (2 ^ 64)

def InRange64 (x : Int) : Prop := -2 ^ 63 ≤ x ∧ x < 2 ^ 63

lemma wrap64_eq_self {x : Int} (h : InRange64 x) : wrap64 x = x := by
  obtain ⟨hlo, hhi⟩ := h
  exact Int.bmod_eq_of_le (by norm_num; omega) (by norm_num; omega)

lemma wrap64_of_overflow {x : Int} (hlo : 2 ^ 63 ≤ x) (hhi : x < 2 ^ 64) : wrap64 x < 0 := by
  unfold wrap64
  rw [Int.bmod_def]
  have hmod : x % ((2 ^ 64 : Nat) : Int) = x := Int.emod_eq_of_lt (by omega) (by norm_num; omega)
  rw [hmod, if_neg (by norm_num; omega)]
  norm_num
  omega

lemma except_bind_eq_ok {ε α β : Type} {x : Except ε α} {f : α → Except ε β} {b : β} :
    (x >>= f) = .ok b ↔ ∃ a, x = .ok a ∧ f a = .ok b := by
  cases x with
  | error e => simp [bind, Except.bind]
  | ok a => simp [bind, Except.bind]

lemma ok_of_bind {ε α β : Type} {x : Except ε α} {f : α → Except ε β} {b : β} (h : (x >>= f) = .ok b) :
    ∃ a, x = .ok a ∧ f a = .ok b :=
  except_bind_eq_ok.mp h

lemma mapError_eq_ok {ε ε' α : Type} {x : Except ε α} {f : ε → ε'} {a : α} : x.mapError f = .ok a ↔ x = .ok a := by
  cases x with
  | error e => simp [Except.mapError]
  | ok b => simp [Except.mapError]

structure Tally (ε α : Type) where
  result : Except ε α
  sums : List Int
deriving DecidableEq

namespace Tally

variable {ε α β γ : Type}

lemma result_eq_iff {t : Tally ε α} {r : Except ε α} : t.result = r ↔ ∃ ss, t = ⟨r, ss⟩ :=
  ⟨fun h => ⟨t.sums, h ▸ rfl⟩, fun ⟨_, h⟩ => h ▸ rfl⟩

protected def pure (a : α) : Tally ε α := ⟨.ok a, []⟩

protected def bind (x : Tally ε α) (f : α → Tally ε β) : Tally ε β :=
  match x.result with
  | .error e => ⟨.error e, x.sums⟩
  | .ok a => ⟨(f a).result, x.sums ++ (f a).sums⟩

instance : Monad (Tally ε) where
  pure := Tally.pure
  bind := Tally.bind

def fail (e : ε) : Tally ε α := ⟨.error e, []⟩

/-- Fail with `e` unless `c` holds. -/
def check (c : Bool) (e : ε) : Tally ε Unit := if c then ⟨.ok (), []⟩ else fail e

/-- Record the exact value `x` of an operation and go on with its 64-bit representation. -/
def record (x : Int) : Tally ε Int := ⟨.ok (wrap64 x), [x]⟩

def lift (x : Except ε α) : Tally ε α := ⟨x, []⟩

variable {ss : List Int}

lemma pure_eq_ok {a b : α} :
    (pure a : Tally ε α) = ⟨.ok b, ss⟩ ↔ a = b ∧ ss = [] := by
  constructor
  · intro h
    cases h
    exact ⟨rfl, rfl⟩
  · rintro ⟨rfl, rfl⟩
    rfl

variable {x : Tally ε α}

lemma bind_eq_ok {f : α → Tally ε β} {b : β} :
    (x >>= f) = ⟨.ok b, ss⟩ ↔
      ∃ a s₁ s₂, x = ⟨.ok a, s₁⟩ ∧ f a = ⟨.ok b, s₂⟩ ∧ ss = s₁ ++ s₂ := by
  obtain ⟨r, s⟩ := x
  constructor
  · intro h
    cases r with
    | error e => cases h
    | ok a =>
      have h' : (⟨(f a).result, s ++ (f a).sums⟩ : Tally ε β) = ⟨.ok b, ss⟩ := h
      injection h' with hr hs
      exact ⟨a, s, (f a).sums, rfl, by rw [← hr], hs.symm⟩
  · rintro ⟨a, s₁, s₂, hx, hf, rfl⟩
    cases hx
    change (⟨(f a).result, s ++ (f a).sums⟩ : Tally ε β) = _
    rw [hf]

lemma fail_ne_ok {e : ε} {a : α} : (fail e : Tally ε α) ≠ ⟨.ok a, ss⟩ := by
  intro h
  cases h

lemma check_eq_ok {c : Bool} {e : ε} {u : Unit} :
    check c e = ⟨.ok u, ss⟩ ↔ c = true ∧ ss = [] := by
  cases c with
  | true => simp [check, eq_comm]
  | false => simp [check, fail]

lemma record_eq_ok {x y : Int} :
    (record x : Tally ε Int) = ⟨.ok y, ss⟩ ↔ y = wrap64 x ∧ ss = [x] := by
  simp [record, eq_comm]

lemma lift_eq_ok {x : Except ε α} {a : α} :
    lift x = ⟨.ok a, ss⟩ ↔ x = .ok a ∧ ss = [] := by
  simp [lift, eq_comm]

lemma exists_eq_ok (h : x.result.isOk = true) : ∃ a ss, x = ⟨.ok a, ss⟩ := by
  obtain ⟨r, ss⟩ := x
  cases r with
  | error e => cases h
  | ok a => exact ⟨a, ss, rfl⟩

/-- A loop over a list that carries an accumulator. -/
def fold (f : β → α → Tally ε β) : β → List α → Tally ε β
  | b, [] => pure b
  | b, a :: as => f b a >>= fun b' => fold f b' as

lemma fold_append {f : β → α → Tally ε β} {b b' : β} {as as' : List α}
    (h : fold f b (as ++ as') = ⟨.ok b', ss⟩) :
    ∃ b₁ s₁ s₂, fold f b as = ⟨.ok b₁, s₁⟩ ∧ fold f b₁ as' = ⟨.ok b', s₂⟩ := by
  induction as generalizing b ss with
  | nil => exact ⟨b, [], ss, rfl, h⟩
  | cons a as ih =>
    obtain ⟨b₁, s₁, s₂, hfirst, hrest, -⟩ := bind_eq_ok.mp h
    obtain ⟨b₂, t₁, t₂, hmiddle, hlast⟩ := ih hrest
    exact ⟨b₂, s₁ ++ t₁, t₂, bind_eq_ok.mpr ⟨b₁, s₁, t₁, hfirst, hmiddle, rfl⟩, hlast⟩

/-- The invariant rule for `fold`: what one successful round preserves, together with the
ranges of the sums it made, a whole successful loop preserves. -/
theorem fold_invariant {f : β → α → Tally ε β} {I : List α → β → Prop} {b b' : β} {as : List α}
    (hstep : ∀ a as b b' s, I (a :: as) b → f b a = ⟨.ok b', s⟩ →
      I as b' ∧ ∀ x ∈ s, InRange64 x)
    (hI : I as b) (h : fold f b as = ⟨.ok b', ss⟩) : I [] b' ∧ ∀ x ∈ ss, InRange64 x := by
  induction as generalizing b ss with
  | nil =>
    obtain ⟨rfl, rfl⟩ := pure_eq_ok.mp h
    exact ⟨hI, by simp⟩
  | cons a as ih =>
    obtain ⟨b₁, s₁, s₂, h₁, h₂, rfl⟩ := bind_eq_ok.mp h
    obtain ⟨hI₁, hs₁⟩ := hstep a as b b₁ s₁ hI h₁
    obtain ⟨hI₂, hs₂⟩ := ih hI₁ h₂
    exact ⟨hI₂, List.forall_mem_append.mpr ⟨hs₁, hs₂⟩⟩

end Tally
