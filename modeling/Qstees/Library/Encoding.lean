import Mathlib

/-!
# Texts that determine what they encode

Numbers in a base, bytes in hexadecimal and fields between separators: when two texts are equal, what was
written into them is equal.
-/

namespace Encoding

open List

/-- The number with the given digits, the most significant one first. -/
def value (B : Nat) (digits : List Nat) : Nat := Nat.ofDigits B digits.reverse

@[simp] lemma value_nil (B : Nat) : value B [] = 0 := rfl

lemma value_append (B : Nat) (ds es : List Nat) : value B (ds ++ es) = value B ds * B ^ es.length + value B es := by
  rw [value, reverse_append, Nat.ofDigits_append, length_reverse]
  rw [value, value, Nat.add_comm, Nat.mul_comm]

lemma value_cons (B d : Nat) (ds : List Nat) : value B (d :: ds) = d * B ^ ds.length + value B ds := by
  have hsingle : value B [d] = d := by simp [value]
  rw [← singleton_append, value_append, hsingle]

lemma value_inj {B : Nat} (hB : 1 < B) {ds es : List Nat} (hlen : ds.length = es.length) (hds : ∀ d ∈ ds, d < B)
    (hes : ∀ d ∈ es, d < B) (h : value B ds = value B es) : ds = es := by
  apply reverse_injective
  apply Nat.ofDigits_inj_of_len_eq hB
  · rw [length_reverse, length_reverse, hlen]
  · intro d hd
    exact hds d (mem_reverse.mp hd)
  · intro d hd
    exact hes d (mem_reverse.mp hd)
  · exact h

lemma digitChar_inj {a b : Nat} (ha : a < 16) (hb : b < 16) (h : Nat.digitChar a = Nat.digitChar b) : a = b := by
  interval_cases a <;> interval_cases b <;> first | rfl | exact absurd h (by decide)

lemma toDigits_inj {a b : Nat} (h : Nat.toDigits 16 a = Nat.toDigits 16 b) : a = b := by
  have hB : 1 < 16 := by decide
  induction a using Nat.strongRecOn generalizing b with
  | ind a ih =>
    rw [Nat.toDigits_eq_if hB, Nat.toDigits_eq_if (n := b) hB] at h
    have hpos : ∀ n : Nat, 0 < (Nat.toDigits 16 n).length := fun n => Nat.length_toDigits_pos
    split_ifs at h with hsmall hsmall' hsmall'
    · exact digitChar_inj hsmall hsmall' (singleton_inj.mp h)
    · have hlen := congrArg List.length h
      have hb := hpos (b / 16)
      rw [length_append, length_singleton, length_singleton] at hlen
      omega
    · have hlen := congrArg List.length h
      have ha := hpos (a / 16)
      rw [length_append, length_singleton, length_singleton] at hlen
      omega
    · obtain ⟨hinit, hlast⟩ := append_inj' h rfl
      have hdiv : a / 16 = b / 16 := ih (a / 16) (by omega) hinit
      have hmod : a % 16 = b % 16 :=
        digitChar_inj (Nat.mod_lt a (by decide)) (Nat.mod_lt b (by decide)) (singleton_inj.mp hlast)
      omega

lemma notMem_toDigits {c : Char} (hc : ∀ n < 16, Nat.digitChar n ≠ c) (a : Nat) : c ∉ Nat.toDigits 16 a := by
  induction a using Nat.strongRecOn with
  | ind a ih =>
    rw [Nat.toDigits_eq_if (by decide)]
    split_ifs with hsmall
    · simpa using (hc a hsmall).symm
    · have hrest := ih (a / 16) (by omega)
      have hlast := (hc (a % 16) (Nat.mod_lt a (by decide))).symm
      simp [hrest, hlast]

/-- Bytes in hexadecimal. -/
def hexText (bytes : List UInt8) : List Char :=
  bytes.flatMap (fun b => [Nat.digitChar (b.toNat / 16), Nat.digitChar (b.toNat % 16)])

lemma hexText_cons (b : UInt8) (bytes : List UInt8) :
    hexText (b :: bytes) = Nat.digitChar (b.toNat / 16) :: Nat.digitChar (b.toNat % 16) :: hexText bytes := rfl

lemma length_hexText (bytes : List UInt8) : (hexText bytes).length = 2 * bytes.length := by
  induction bytes with
  | nil => rfl
  | cons b bytes ih =>
    rw [hexText_cons, length_cons, length_cons, length_cons, ih]
    omega

lemma hexText_inj {as bs : List UInt8} (h : hexText as = hexText bs) : as = bs := by
  induction as generalizing bs with
  | nil =>
    cases bs with
    | nil => rfl
    | cons b bs => cases h
  | cons a as ih =>
    cases bs with
    | nil => cases h
    | cons b bs =>
      rw [hexText_cons, hexText_cons] at h
      obtain ⟨hhigh, hlow, hrest⟩ : _ ∧ _ ∧ _ := by simpa only [List.cons.injEq] using h
      have ha := a.toNat_lt
      have hb := b.toNat_lt
      have hdiv := digitChar_inj (by omega) (by omega) hhigh
      have hmod := digitChar_inj (by omega) (by omega) hlow
      have hbyte : a = b := UInt8.toNat_inj.mp (by omega)
      rw [hbyte, ih hrest]

variable {α : Type}

lemma split_inj {c : α} {as bs rest rest' : List α} (ha : c ∉ as) (hb : c ∉ bs)
    (h : as ++ c :: rest = bs ++ c :: rest') :
    as = bs ∧ rest = rest' := by
  induction as generalizing bs with
  | nil =>
    cases bs with
    | nil => exact ⟨rfl, (List.cons.inj h).2⟩
    | cons b bs =>
      obtain ⟨rfl, _⟩ := List.cons.inj h
      exact absurd mem_cons_self hb
  | cons a as ih =>
    cases bs with
    | nil =>
      obtain ⟨rfl, _⟩ := List.cons.inj h
      exact absurd mem_cons_self ha
    | cons b bs =>
      obtain ⟨rfl, htail⟩ := List.cons.inj h
      obtain ⟨rfl, hrest⟩ := ih (fun hmem => ha (mem_cons_of_mem _ hmem))
        (fun hmem => hb (mem_cons_of_mem _ hmem)) htail
      exact ⟨rfl, hrest⟩

lemma mem_of_mem_intercalate {c x : α} {fs : List (List α)} (hx : x ∈ [c].intercalate fs) :
    x = c ∨ ∃ f ∈ fs, x ∈ f := by
  induction fs with
  | nil => cases hx
  | cons f fs ih =>
    cases fs with
    | nil => exact .inr ⟨f, mem_cons_self, by simpa using hx⟩
    | cons g gs =>
      rw [intercalate_cons_cons, append_assoc, mem_append, mem_append, mem_singleton] at hx
      rcases hx with hx | hx | hx
      · exact .inr ⟨f, mem_cons_self, hx⟩
      · exact .inl hx
      · rcases ih hx with hc | ⟨f', hf', hx'⟩
        · exact .inl hc
        · exact .inr ⟨f', mem_cons_of_mem _ hf', hx'⟩

lemma intercalate_inj {c : α} {fs gs : List (List α)} (hlen : fs.length = gs.length) (hf : ∀ f ∈ fs, c ∉ f)
    (hg : ∀ g ∈ gs, c ∉ g) (h : [c].intercalate fs = [c].intercalate gs) : fs = gs := by
  induction fs generalizing gs with
  | nil => exact (length_eq_zero_iff.mp hlen.symm).symm
  | cons f fs ih =>
    obtain ⟨g, gs, rfl⟩ := exists_cons_of_length_pos (l := gs) (by rw [← hlen]; exact Nat.succ_pos _)
    have hlen' : fs.length = gs.length := Nat.succ.inj hlen
    cases fs with
    | nil =>
      obtain rfl := length_eq_zero_iff.mp hlen'.symm
      simpa using h
    | cons f' fs =>
      obtain ⟨g', gs, rfl⟩ := exists_cons_of_length_pos (l := gs) (by rw [← hlen']; exact Nat.succ_pos _)
      rw [intercalate_cons_cons, intercalate_cons_cons, append_assoc, append_assoc] at h
      obtain ⟨rfl, hrest⟩ := split_inj (hf f mem_cons_self) (hg g mem_cons_self) h
      rw [ih hlen' (fun x hx => hf x (mem_cons_of_mem _ hx)) (fun x hx => hg x (mem_cons_of_mem _ hx)) hrest]

lemma flatMap_cons_inj {c : α} {fs gs : List (List α)} (hf : ∀ f ∈ fs, c ∉ f) (hg : ∀ g ∈ gs, c ∉ g)
    (h : fs.flatMap (fun f => c :: f) = gs.flatMap (fun g => c :: g)) : fs = gs := by
  induction fs generalizing gs with
  | nil =>
    cases gs with
    | nil => rfl
    | cons g gs => cases h
  | cons f fs ih =>
    cases gs with
    | nil => cases h
    | cons g gs =>
      rw [flatMap_cons, flatMap_cons, cons_append, cons_append] at h
      -- a closing separator lets the last field be cut off like the others
      have hcut : ∀ ks : List (List α), ∃ rest, ks.flatMap (fun k => c :: k) ++ [c] = c :: rest := by
        intro ks
        cases ks with
        | nil => exact ⟨[], rfl⟩
        | cons k ks => exact ⟨_, rfl⟩
      obtain ⟨rest, hrest⟩ := hcut fs
      obtain ⟨rest', hrest'⟩ := hcut gs
      have htext : f ++ c :: rest = g ++ c :: rest' := by
        rw [← hrest, ← hrest', ← append_assoc, ← append_assoc, (List.cons.inj h).2]
      obtain ⟨rfl, -⟩ := split_inj (hf f mem_cons_self) (hg g mem_cons_self) htext
      have htail := append_cancel_left (List.cons.inj h).2
      rw [ih (fun x hx => hf x (mem_cons_of_mem _ hx)) (fun x hx => hg x (mem_cons_of_mem _ hx)) htail]

end Encoding
