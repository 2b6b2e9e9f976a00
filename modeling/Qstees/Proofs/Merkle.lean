import Qstees.Model.Merkle

/-!
# Merkle roots bind the leaves

A level that repeats no pair is determined by the level above it, so the root of an unmutated tree of known height
determines its leaves.
-/

namespace Qstees.Proofs

variable {sha256D64 : UInt256 → UInt256 → UInt256} {xs ys : List UInt256}

def treeHeight (hashes : List UInt256) : Nat := Nat.clog 2 hashes.length

lemma length_nextLevel (hashes : List UInt256) : (nextLevel sha256D64 hashes).length = (hashes.length + 1) / 2 := by
  fun_induction nextLevel with
  | case1 a b hashes ih =>
    simp only [List.length_cons, ih]
    omega
  | case2 a => simp
  | case3 => rfl

lemma treeHeight_nextLevel (sha256D64 : UInt256 → UInt256 → UInt256) (a b : UInt256) (hashes : List UInt256) :
    treeHeight (a :: b :: hashes) = treeHeight (nextLevel sha256D64 (a :: b :: hashes)) + 1 := by
  unfold treeHeight
  rw [Nat.clog_of_two_le (by decide) (by simp), length_nextLevel]
  rfl

/-- No collision of the pair hash. -/
def PairInjective (sha256D64 : UInt256 → UInt256 → UInt256) : Prop :=
  ∀ a b c d, sha256D64 a b = sha256D64 c d → a = c ∧ b = d

lemma nextLevel_inj (hinj : PairInjective sha256D64) (hxs : repeatsPair xs = false) (hys : repeatsPair ys = false)
    (h : nextLevel sha256D64 xs = nextLevel sha256D64 ys) : xs = ys := by
  induction xs using nextLevel.induct generalizing ys with
  | case1 a b xs ih =>
    obtain _ | ⟨c, _ | ⟨d, ys⟩⟩ := ys
    · cases h
    · -- a doubled hash would be a repeated pair on the other side
      obtain ⟨rfl, rfl⟩ := hinj _ _ _ _ (List.cons.inj h).1
      simp [repeatsPair] at hxs
    · obtain ⟨rfl, rfl⟩ := hinj _ _ _ _ (List.cons.inj h).1
      simp only [repeatsPair, Bool.or_eq_false_iff] at hxs hys
      rw [ih hxs.2 hys.2 (List.cons.inj h).2]
  | case2 a =>
    obtain _ | ⟨c, _ | ⟨d, ys⟩⟩ := ys
    · cases h
    · rw [(hinj _ _ _ _ (List.cons.inj h).1).1]
    · obtain ⟨rfl, rfl⟩ := hinj _ _ _ _ (List.cons.inj h).1
      simp [repeatsPair] at hys
  | case3 =>
    obtain _ | ⟨c, _ | ⟨d, ys⟩⟩ := ys
    · rfl
    · cases h
    · cases h

lemma eq_singleton_of_treeHeight (hne : xs ≠ []) (h : treeHeight xs = 0) : ∃ x, xs = [x] := by
  obtain _ | ⟨a, _ | ⟨b, xs⟩⟩ := xs
  · exact absurd rfl hne
  · exact ⟨a, rfl⟩
  · rw [treeHeight_nextLevel (fun a _ => a)] at h
    cases h

lemma exists_pair_of_treeHeight {height : Nat} (h : treeHeight xs = height + 1) : ∃ a b rest, xs = a :: b :: rest := by
  obtain _ | ⟨a, _ | ⟨b, rest⟩⟩ := xs
  · simp [treeHeight] at h
  · simp [treeHeight] at h
  · exact ⟨a, b, rest, rfl⟩

lemma merkleLoop_singleton (fuel : Nat) (x : UInt256) (mutation : Bool) :
    merkleLoop sha256D64 fuel [x] mutation = (x, mutation) := by
  cases fuel <;> rfl

lemma eq_of_merkleLoop (hinj : PairInjective sha256D64) {height fuel fuel' : Nat} {mutation mutation' : Bool}
    (hxs : xs ≠ []) (hys : ys ≠ []) (hheight : treeHeight xs = height) (hheight' : treeHeight ys = height)
    (hfuel : height ≤ fuel) (hfuel' : height ≤ fuel')
    (hroot : (merkleLoop sha256D64 fuel xs mutation).1 = (merkleLoop sha256D64 fuel' ys mutation').1)
    (hclean : (merkleLoop sha256D64 fuel xs mutation).2 = false)
    (hclean' : (merkleLoop sha256D64 fuel' ys mutation').2 = false) :
    xs = ys ∧ mutation = false ∧ mutation' = false := by
  -- level by level from the leaves; the flags of the levels below go along
  induction height generalizing xs ys fuel fuel' mutation mutation' with
  | zero =>
    obtain ⟨x, rfl⟩ := eq_singleton_of_treeHeight hxs hheight
    obtain ⟨y, rfl⟩ := eq_singleton_of_treeHeight hys hheight'
    simp only [merkleLoop_singleton] at hroot hclean hclean'
    exact ⟨congrArg (fun x => [x]) hroot, hclean, hclean'⟩
  | succ height ih =>
    obtain ⟨a, b, xs, rfl⟩ := exists_pair_of_treeHeight hheight
    obtain ⟨c, d, ys, rfl⟩ := exists_pair_of_treeHeight hheight'
    obtain ⟨fuel, rfl⟩ := Nat.exists_eq_add_of_le' (Nat.one_le_of_lt hfuel)
    obtain ⟨fuel', rfl⟩ := Nat.exists_eq_add_of_le' (Nat.one_le_of_lt hfuel')
    rw [treeHeight_nextLevel sha256D64, Nat.add_right_cancel_iff] at hheight hheight'
    obtain ⟨hlevel, hflag, hflag'⟩ := ih (by simp [nextLevel])
      (by simp [nextLevel]) hheight hheight' (by omega) (by omega) hroot hclean hclean'
    rw [Bool.or_eq_false_iff] at hflag hflag'
    exact ⟨nextLevel_inj hinj hflag.2 hflag'.2 hlevel, hflag.1, hflag'.1⟩

lemma treeHeight_le (hashes : List UInt256) : treeHeight hashes ≤ hashes.length :=
  Nat.clog_le_of_le_pow Nat.lt_two_pow_self.le

/-- With no collision of the pair hash, a list with the root and the height of an unmutated one is that list or is
reported as mutated. -/
theorem merkleRoot_binds (hinj : PairInjective sha256D64) (hxs : xs ≠ []) (hys : ys ≠ [])
    (hheight : treeHeight xs = treeHeight ys)
    (hroot : (computeMerkleRoot sha256D64 xs).1 = (computeMerkleRoot sha256D64 ys).1)
    (hclean : (computeMerkleRoot sha256D64 xs).2 = false) :
    ((computeMerkleRoot sha256D64 ys).2 = false → xs = ys) ∧
      (xs ≠ ys → (computeMerkleRoot sha256D64 ys).2 = true ∧ ∀ vtx : List CTransaction, vtx.map CTransaction.hash = ys →
        checkMerkleRoot sha256D64 (computeMerkleRoot sha256D64 xs).1 vtx = .error "bad-txns-duplicate") := by
  have heq : (computeMerkleRoot sha256D64 ys).2 = false → xs = ys := fun hclean' =>
    (eq_of_merkleLoop hinj hxs hys hheight rfl (hheight ▸ treeHeight_le xs) (treeHeight_le ys) hroot hclean hclean').1
  refine ⟨heq, fun hne => ?_⟩
  have hmutated : (computeMerkleRoot sha256D64 ys).2 = true := by
    by_contra hclean'
    exact hne (heq (by simpa using hclean'))
  refine ⟨hmutated, ?_⟩
  rintro vtx rfl
  simp [checkMerkleRoot, hroot, hmutated]

theorem merkleRoot_binds_appended :
    (computeMerkleRoot Nat.pair [1, 2, 3, 4, 5, 6, 5, 6]).2 = true :=
  ((merkleRoot_binds (fun _ _ _ _ h => Nat.pair_eq_pair.mp h) (show [1, 2, 3, 4, 5, 6] ≠ [] by decide) (by decide)
    (by decide +kernel) (by decide +kernel) (by decide +kernel)).2 (by decide)).1

end Qstees.Proofs
