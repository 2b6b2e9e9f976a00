import Qstees.Model.Infinitynode
import Qstees.Library.Replay

/-!
# The store of governance votes

For one proposal and one voter, `CInfinitynodersv::Add` is a cell that keeps the first of the highest votes.
-/

namespace Qstees.Proofs

open Replay List

def proposalVotes (rsv : CInfinitynodersv) (proposal : String) : List CVote := (rsv[proposal]?).getD []

def castAs (proposal : String) (voter : CScript) (vote : CVote) : Option CVote :=
  if vote.proposalId = proposal ∧ vote.voter = voter then some vote else none

variable {voter : CScript} {vote v : CVote} {votes : List CVote} {rsv : CInfinitynodersv}
  {p : String}

lemma castAs_eq_some {proposal : String} :
    castAs proposal voter vote = some v ↔ vote.proposalId = proposal ∧ vote.voter = voter ∧ vote = v := by
  unfold castAs
  split_ifs with h
  · simp [h]
  · refine ⟨(fun hnone => by cases hnone), ?_⟩
    rintro ⟨hp, hv, -⟩
    exact absurd ⟨hp, hv⟩ h

lemma find?_voter_eq_some (hnodup : (votes.map CVote.voter).Nodup) :
    votes.find? (fun v => v.voter == voter) = some v ↔ v ∈ votes ∧ v.voter = voter := by
  induction votes with
  | nil => simp
  | cons first votes ih =>
    rw [map_cons, nodup_cons] at hnodup
    by_cases hfirst : first.voter = voter
    · have hother : ∀ w ∈ votes, w.voter ≠ voter := by
        intro w hw hvoter
        exact hnodup.1 (mem_map.mpr ⟨w, hw, hvoter.trans hfirst.symm⟩)
      rw [find?_cons_of_pos (by simpa using hfirst)]
      constructor
      · rintro ⟨⟩
        exact ⟨mem_cons_self, hfirst⟩
      · rintro ⟨hmem, hvoter⟩
        rcases mem_cons.mp hmem with rfl | hmem
        · rfl
        · exact absurd hvoter (hother v hmem)
    · rw [find?_cons_of_neg (by simpa using hfirst), ih hnodup.2, mem_cons]
      constructor
      · rintro ⟨hmem, hvoter⟩
        exact ⟨.inr hmem, hvoter⟩
      · rintro ⟨rfl | hmem, hvoter⟩
        · exact absurd hvoter hfirst
        · exact ⟨hmem, hvoter⟩

lemma addToProposal_cases (votes : List CVote) (vote : CVote) :
    (∀ v ∈ votes, v.voter ≠ vote.voter) ∧ addToProposal votes vote = votes ++ [vote] ∨
      ∃ before old after, votes = before ++ old :: after ∧ old.voter = vote.voter ∧
        addToProposal votes vote = if vote.nHeight ≤ old.nHeight then votes else before ++ after ++ [vote] := by
  unfold addToProposal
  cases hfind : votes.findIdx? (fun v => v.voter == vote.voter) with
  | none =>
    left
    refine ⟨?_, rfl⟩
    intro v hv
    simpa using findIdx?_eq_none_iff.mp hfind v hv
  | some i =>
    right
    obtain ⟨hlt, hvoter, -⟩ := findIdx?_eq_some_iff_getElem.mp hfind
    refine ⟨votes.take i, votes[i], votes.drop (i + 1), ?_, by simpa using hvoter, ?_⟩
    · rw [getElem_cons_drop, take_append_drop]
    · simp only [getElem?_eq_getElem hlt, Option.any_some, decide_eq_true_eq, eraseIdx_eq_take_drop_succ, ge_iff_le]

lemma nodup_addToProposal (h : (votes.map CVote.voter).Nodup) (vote : CVote) :
    ((addToProposal votes vote).map CVote.voter).Nodup := by
  rcases addToProposal_cases votes vote with ⟨hother, hadd⟩ | ⟨before, old, after, rfl, hold, hadd⟩
  · rw [hadd, map_append, nodup_append]
    refine ⟨h, by simp, ?_⟩
    intro s hs s' hs'
    obtain ⟨v, hv, rfl⟩ := mem_map.mp hs
    obtain rfl : s' = vote.voter := by simpa using hs'
    exact hother v hv
  · rw [hadd]
    split_ifs
    · exact h
    · -- the new vote takes the place of the old one, at the end
      have hperm : ((before ++ after ++ [vote]).map CVote.voter).Perm ((before ++ old :: after).map CVote.voter) := by
        simp only [map_append, map_cons, map_nil, hold, append_assoc]
        exact List.Perm.append_left _ (perm_append_singleton _ _)
      exact hperm.nodup_iff.mpr h

lemma mem_addToProposal (h : v ∈ addToProposal votes vote) : v ∈ votes ∨ v = vote := by
  rcases addToProposal_cases votes vote with ⟨-, hadd⟩ | ⟨before, old, after, rfl, -, hadd⟩
  · rw [hadd] at h
    simpa using h
  · rw [hadd] at h
    split_ifs at h
    · exact .inl h
    · simp only [mem_append, mem_cons] at h ⊢
      tauto

lemma find?_addToProposal_ne (hne : vote.voter ≠ voter) :
    (addToProposal votes vote).find? (fun v => v.voter == voter) = votes.find? (fun v => v.voter == voter) := by
  rcases addToProposal_cases votes vote with ⟨-, hadd⟩ | ⟨before, old, after, rfl, hold, hadd⟩
  · rw [hadd]
    simp [find?_append, hne]
  · rw [hadd]
    split_ifs
    · rfl
    · simp [find?_append, hne, hold]

lemma find?_addToProposal_self (h : (votes.map CVote.voter).Nodup) (vote : CVote) :
    (addToProposal votes vote).find? (fun v => v.voter == vote.voter) =
      newestWins CVote.nHeight (votes.find? (fun v => v.voter == vote.voter)) (some vote) := by
  rcases addToProposal_cases votes vote with ⟨hother, hadd⟩ | ⟨before, old, after, rfl, hold, hadd⟩
  · have hnone : votes.find? (fun v => v.voter == vote.voter) = none := by
      rw [find?_eq_none]
      intro v hv
      simpa using hother v hv
    rw [hadd, find?_append, hnone]
    simp
  · have hfound : (before ++ old :: after).find? (fun v => v.voter == vote.voter) = some old :=
      (find?_voter_eq_some h).mpr ⟨by simp, hold⟩
    rw [hadd, hfound]
    simp only [newestWins]
    split_ifs with hle
    · exact hfound
    · apply (find?_voter_eq_some ?_).mpr ⟨by simp, rfl⟩
      have hnew := nodup_addToProposal h vote
      rwa [hadd, if_neg hle] at hnew

def cellOf (rsv : CInfinitynodersv) (proposal : String) (voter : CScript) : Option CVote :=
  (proposalVotes rsv proposal).find? (fun v => v.voter == voter)

structure VotesOk (rsv : CInfinitynodersv) : Prop where
  nodup : ∀ p, ((proposalVotes rsv p).map CVote.voter).Nodup
  proposal : ∀ p, ∀ v ∈ proposalVotes rsv p, v.proposalId = p

lemma proposalVotes_add :
    proposalVotes (rsv.add vote) p =
      if vote.proposalId = p then addToProposal (proposalVotes rsv p) vote else proposalVotes rsv p := by
  unfold proposalVotes CInfinitynodersv.add
  rw [Std.ExtTreeMap.getElem?_insert]
  by_cases hp : vote.proposalId = p
  · subst hp
    simp
  · have hcompare : compare vote.proposalId p ≠ .eq := fun heq => hp (Std.LawfulEqCmp.eq_of_compare heq)
    rw [if_neg hcompare, if_neg hp]

lemma VotesOk.empty : VotesOk ∅ := by
  constructor <;> simp [proposalVotes]

lemma VotesOk.add (h : VotesOk rsv) (vote : CVote) : VotesOk (rsv.add vote) := by
  constructor
  · intro p
    rw [proposalVotes_add]
    split_ifs
    · exact nodup_addToProposal (h.nodup p) vote
    · exact h.nodup p
  · intro p v hv
    rw [proposalVotes_add] at hv
    split_ifs at hv with hp
    · rcases mem_addToProposal hv with hv | rfl
      · exact h.proposal p v hv
      · exact hp
    · exact h.proposal p v hv

lemma VotesOk.cellOf_eq_some (h : VotesOk rsv) :
    cellOf rsv p voter = some v ↔ v ∈ proposalVotes rsv p ∧ v.voter = voter := find?_voter_eq_some (h.nodup p)

lemma cellOf_add (h : VotesOk rsv) (vote : CVote) (p : String) (voter : CScript) :
    cellOf (rsv.add vote) p voter = newestWins CVote.nHeight (cellOf rsv p voter) (castAs p voter vote) := by
  unfold cellOf castAs
  rw [proposalVotes_add]
  by_cases hp : vote.proposalId = p
  · by_cases hvoter : vote.voter = voter
    · subst hvoter
      rw [if_pos hp, if_pos ⟨hp, rfl⟩]
      exact find?_addToProposal_self (h.nodup p) vote
    · rw [if_pos hp, if_neg (fun hc => hvoter hc.2), newestWins_none_right]
      exact find?_addToProposal_ne hvoter
  · rw [if_neg hp, if_neg (fun hc => hp hc.1), newestWins_none_right]

def addAll (rsv : CInfinitynodersv) (votes : List CVote) : CInfinitynodersv := votes.foldl CInfinitynodersv.add rsv

lemma VotesOk.addAll (h : VotesOk rsv) (votes : List CVote) : VotesOk (addAll rsv votes) := by
  induction votes generalizing rsv with
  | nil => exact h
  | cons vote votes ih => exact ih (h.add vote)

lemma cellOf_addAll (h : VotesOk rsv) (votes : List CVote) (p : String) (voter : CScript) :
    cellOf (addAll rsv votes) p voter = replay (newestWins CVote.nHeight) (castAs p voter)
      (cellOf rsv p voter) votes := by
  induction votes generalizing rsv with
  | nil => rfl
  | cons vote votes ih =>
    have hstep := ih (h.add vote)
    rw [cellOf_add h] at hstep
    exact hstep

def castVotes (votes : List CVote) (p : String) (voter : CScript) : List CVote :=
  votes.filterMap (castAs p voter)

lemma mem_castVotes :
    v ∈ castVotes votes p voter ↔ v ∈ votes ∧ v.proposalId = p ∧ v.voter = voter := by
  simp only [castVotes, mem_filterMap, castAs_eq_some]
  constructor
  · rintro ⟨vote, hmem, hp, hvoter, rfl⟩
    exact ⟨hmem, hp, hvoter⟩
  · rintro ⟨hmem, hp, hvoter⟩
    exact ⟨v, hmem, hp, hvoter, rfl⟩

lemma exists_cell (h : VotesOk rsv) (votes : List CVote)
    (hv : cellOf rsv p voter = some v ∨ v ∈ castVotes votes p voter) :
    ∃ w, cellOf (addAll rsv votes) p voter = some w ∧ v.nHeight ≤ w.nHeight := by
  obtain ⟨w, hle, hw⟩ := replay_newestWins_ge (hv.imp_right mem_filterMap.mp)
  exact ⟨w, (cellOf_addAll h votes p voter).trans hw, hle⟩

lemma mem_proposalVotes_addAll :
    v ∈ proposalVotes (addAll ∅ votes) p ↔ FirstNewest CVote.nHeight (castVotes votes p v.voter) v := by
  have hok := VotesOk.empty.addAll votes
  have hcell : cellOf (addAll ∅ votes) p v.voter = some v ↔ v ∈ proposalVotes (addAll ∅ votes) p := by
    rw [hok.cellOf_eq_some]
    simp
  rw [← hcell, cellOf_addAll VotesOk.empty, replay_newestWins_eq_some_iff]
  simp [cellOf, proposalVotes, castVotes]

/-- No voter votes twice on a proposal in one block. -/
def DistinctHeights (votes : List CVote) : Prop :=
  votes.Pairwise fun a b => a.proposalId = b.proposalId → a.voter = b.voter → a.nHeight ≠ b.nHeight

lemma DistinctHeights.castVotes (h : DistinctHeights votes) (p : String) (voter : CScript) :
    (castVotes votes p voter).Pairwise fun a b => a.nHeight ≠ b.nHeight := by
  refine List.Pairwise.filterMap (castAs p voter) ?_ h
  intro a b hab v hv w hw
  obtain ⟨hp, hvoter, rfl⟩ := castAs_eq_some.mp hv
  obtain ⟨hp', hvoter', rfl⟩ := castAs_eq_some.mp hw
  exact hab (hp.trans hp'.symm) (hvoter.trans hvoter'.symm)

lemma DistinctHeights.perm {votes' : List CVote} (h : DistinctHeights votes)
    (hperm : votes'.Perm votes) : DistinctHeights votes' := by
  refine List.Pairwise.perm h hperm.symm ?_
  intro a b hab hp hvoter
  exact (hab hp.symm hvoter.symm).symm

/-- After any sequence of votes each proposal holds one vote of each voter that voted on it, the highest one; and where
a voter never votes twice at one height, the order of the votes does not matter. -/
theorem voteStore_spec (votes : List CVote) :
    (∀ p, ((proposalVotes (addAll ∅ votes) p).map CVote.voter).Nodup) ∧
      (∀ w ∈ votes, ∃ v ∈ proposalVotes (addAll ∅ votes) w.proposalId, v.voter = w.voter) ∧
      (∀ p, ∀ v ∈ proposalVotes (addAll ∅ votes) p, v ∈ votes ∧ v.proposalId = p ∧
        ∀ w ∈ votes, w.proposalId = p → w.voter = v.voter → w.nHeight ≤ v.nHeight) ∧
      ∀ votes', votes'.Perm votes → DistinctHeights votes →
        ∀ p v, v ∈ proposalVotes (addAll ∅ votes') p ↔ v ∈ proposalVotes (addAll ∅ votes) p := by
  refine ⟨(VotesOk.empty.addAll votes).nodup, ?_, ?_, ?_⟩
  · intro w hw
    obtain ⟨v, hv, -⟩ := exists_cell VotesOk.empty votes (.inr (mem_castVotes.mpr ⟨hw, rfl, rfl⟩))
    exact ⟨v, (VotesOk.empty.addAll votes).cellOf_eq_some.mp hv⟩
  · intro p v hv
    have hnewest := mem_proposalVotes_addAll.mp hv
    obtain ⟨hmem, hp, -⟩ := mem_castVotes.mp hnewest.mem
    refine ⟨hmem, hp, ?_⟩
    intro w hw hpw hvoter
    exact hnewest.le w (mem_castVotes.mpr ⟨hw, hpw, hvoter⟩)
  · intro votes' hperm hdistinct p v
    rw [mem_proposalVotes_addAll, mem_proposalVotes_addAll,
      firstNewest_iff_of_pairwise ((hdistinct.perm hperm).castVotes p v.voter),
      firstNewest_iff_of_pairwise (hdistinct.castVotes p v.voter)]
    simp only [mem_castVotes, hperm.mem_iff]

theorem voteStore_newestFirst :
    ∀ p v, v ∈ proposalVotes (addAll ∅ [⟨"00000001", [1], 20, true⟩, ⟨"00000001", [1], 10, false⟩]) p ↔
      v ∈ proposalVotes (addAll ∅ [⟨"00000001", [1], 10, false⟩, ⟨"00000001", [1], 20, true⟩]) p :=
  (voteStore_spec [⟨"00000001", [1], 10, false⟩, ⟨"00000001", [1], 20, true⟩]).2.2.2 _ (List.Perm.swap _ _ [])
    (pairwise_pair.mpr fun _ _ => by decide)

end Qstees.Proofs
