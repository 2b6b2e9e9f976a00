import Qstees.Model.Infinitynodersv
import Qstees.Proofs.Scan
import Qstees.Proofs.VoteStore

/-!
# The two scanners of governance votes

`rsvScan` starts over, `buildInfinitynodeList` also goes on from where it stopped.
-/

namespace Qstees.Proofs

open Replay List Event

def votesIn (events : List Event) : List CVote :=
  events.filterMap (fun e => match e with
    | .governanceVote v => some v
    | _ => none)

@[simp] lemma votesIn_append (events events' : List Event) :
    votesIn (events ++ events') = votesIn events ++ votesIn events' :=
  filterMap_append

variable {events : List Event} {v : CVote}

lemma mem_votesIn : v ∈ votesIn events ↔ governanceVote v ∈ events := by
  unfold votesIn
  rw [mem_filterMap]
  constructor
  · rintro ⟨e, he, hv⟩
    cases e <;> simp_all
  · intro he
    exact ⟨_, he, rfl⟩

lemma votesIn_flatMap {α : Type} (l : List α) (f : α → List Event) :
    votesIn (l.flatMap f) = l.flatMap (fun x => votesIn (f x)) := by
  induction l with
  | nil => rfl
  | cons x l ih => rw [flatMap_cons, votesIn_append, ih, flatMap_cons]

lemma votesIn_eq_nil (h : ∀ v, governanceVote v ∉ events) : votesIn events = [] := by
  rw [eq_nil_iff_forall_not_mem]
  intro v hv
  exact h v (mem_votesIn.mp hv)

lemma votesIn_ite {p : Prop} [Decidable p] :
    votesIn (if p then events else []) = if p then votesIn events else [] := by
  split_ifs
  · rfl
  · rfl

section Block

variable (E : InfinityEnv) (C : Chain)

def blockVotes (x : Int) : List CVote := votesIn (blockEvents E C x)

variable {E C} {x : Int} (tx : CTransaction)

lemma votesIn_voteEvents_burn (out : CTxOut) (data : List (List UInt8)) :
    votesIn (voteEvents E C .burnVote x tx out data) = [] := by
  refine votesIn_eq_nil ?_
  intro v hv
  rcases mem_voteEvents hv with habort | ⟨vote, hvote⟩
  · cases habort
  · cases hvote

lemma votesIn_registerEvent (i : Nat) (out : CTxOut) (data : List (List UInt8)) :
    votesIn [registerEvent E C x tx i out data] = [] := by
  rcases @registerEvent_cases E C x tx i out data with hreg | ⟨inf, hreg, -⟩
  · rw [hreg]
    rfl
  · rw [hreg]
    rfl

lemma votesIn_metadataEvents (out : CTxOut) (data : List (List UInt8)) :
    votesIn (metadataEvents E C x tx out data) = [] := by
  refine votesIn_eq_nil ?_
  intro v hv
  rcases mem_metadataEvents hv with habort | ⟨owner, service, hmeta⟩
  · cases habort
  · cases hmeta

lemma votesIn_outputEvents (i : Nat) (out : CTxOut) :
    votesIn (outputEvents E C x tx i out) = votesIn (rsvOutputEvents E C x tx out) := by
  unfold outputEvents rsvOutputEvents
  rcases solver out.scriptPubKey with e | ⟨b, type, sol⟩
  · rfl
  cases type with
  | burnData =>
    cases sol with
    | nil => rfl
    | cons id data =>
      simp only [votesIn_append, votesIn_ite, votesIn_voteEvents_burn, votesIn_metadataEvents, votesIn_registerEvent,
        ite_self, append_nil, nil_append]
  | _ => rfl

lemma votesIn_txEvents (block : CBlock) (tx : CTransaction) :
    votesIn (txEvents E C x block tx) =
      votesIn (if tx.isCoinBase then [] else tx.vout.flatMap (rsvOutputEvents E C x tx)) := by
  unfold txEvents
  split_ifs
  · refine votesIn_eq_nil ?_
    intro v hv
    obtain ⟨out, -, hpaid⟩ := mem_map.mp hv
    cases hpaid
  · rw [votesIn_flatMap, votesIn_flatMap]
    simp only [votesIn_outputEvents]
    rw [← flatMap_map Prod.fst (fun out => votesIn (rsvOutputEvents E C x tx out)), zipIdx_map_fst]

lemma votesIn_rsvBlockEvents : votesIn (rsvBlockEvents E C x) = blockVotes E C x := by
  unfold blockVotes rsvBlockEvents blockEvents
  cases C.readBlock x with
  | none => rfl
  | some block =>
    simp only [votesIn_flatMap, votesIn_txEvents]

lemma abort_mem_outputEvents {tx : CTransaction} {i : Nat} {out : CTxOut}
    (h : abort ∈ rsvOutputEvents E C x tx out) : abort ∈ outputEvents E C x tx i out := by
  revert h
  unfold rsvOutputEvents outputEvents
  rcases solver out.scriptPubKey with e | ⟨b, type, sol⟩
  · exact id
  cases type with
  | burnData =>
    cases sol with
    | nil => exact id
    | cons id data =>
      intro h
      exact mem_append_left _ (mem_append_right _ h)
  | _ => exact id

lemma abort_mem_blockEvents (h : abort ∈ rsvBlockEvents E C x) : abort ∈ blockEvents E C x := by
  revert h
  unfold rsvBlockEvents blockEvents
  cases C.readBlock x with
  | none => exact id
  | some block =>
    intro h
    obtain ⟨tx, htx, h⟩ := mem_flatMap.mp h
    split_ifs at h with hcb
    · cases h
    · obtain ⟨out, hout, h⟩ := mem_flatMap.mp h
      obtain ⟨i, hi⟩ := mem_iff_getElem?.mp hout
      refine mem_flatMap.mpr ⟨tx, htx, ?_⟩
      unfold txEvents
      rw [if_neg hcb]
      exact mem_flatMap.mpr ⟨(out, i), mem_zipIdx_iff_getElem?.mpr hi, abort_mem_outputEvents h⟩

lemma nHeight_of_mem_blockVotes (h : v ∈ blockVotes E C x) : v.nHeight = x := by
  rw [← votesIn_rsvBlockEvents, mem_votesIn] at h
  unfold rsvBlockEvents at h
  split at h
  · simp at h
  obtain ⟨tx, -, h⟩ := mem_flatMap.mp h
  split_ifs at h
  · cases h
  obtain ⟨out, -, h⟩ := mem_flatMap.mp h
  unfold rsvOutputEvents at h
  split at h
  · simp at h
  · rw [mem_ite_nil_right] at h
    unfold voteEvents at h
    split at h
    · rw [mem_ite_nil_right] at h
      split at h
      · simp at h
      · have heq := mem_singleton.mp h.2.2
        cases heq
        rfl
    · cases h.2
  · cases h

end Block

section Cells

variable {E : InfinityEnv} {C : Chain} {bound : Int} {rsv : CInfinitynodersv} {votes : List CVote}

/-- Votes below a height, those of each block in their order and from its first one on. -/
structure ReadVotes (E : InfinityEnv) (C : Chain) (bound : Int) (votes : List CVote) : Prop where
  inOrder : ∀ x, votes.filter (fun v => v.nHeight = x) <+: blockVotes E C x
  below : ∀ v ∈ votes, v.nHeight < bound

/-- Every cell holds the first vote that a block below a height casts into it. -/
structure FirstVotes (E : InfinityEnv) (C : Chain) (bound : Int) (rsv : CInfinitynodersv) : Prop where
  ok : VotesOk rsv
  first : ∀ p voter w, cellOf rsv p voter = some w →
    (castVotes (blockVotes E C w.nHeight) p voter).head? = some w ∧ w.nHeight < bound

/-- This vote, or a later one of its voter, is stored. -/
def VoteCounted (rsv : CInfinitynodersv) (v : CVote) : Prop :=
  ∃ w, cellOf rsv v.proposalId v.voter = some w ∧ v.nHeight ≤ w.nHeight

lemma FirstVotes.empty : FirstVotes E C bound ∅ := by
  refine ⟨VotesOk.empty, ?_⟩
  simp [cellOf, proposalVotes]

variable {p : String}

lemma ReadVotes.head?_castVotes (h : ReadVotes E C bound votes) {voter : CScript} {w : CVote}
    (hw : ((castVotes votes p voter).filter (fun v => v.nHeight = w.nHeight)).head? = some w) :
    (castVotes (blockVotes E C w.nHeight) p voter).head? = some w := by
  have hcomm : (castVotes votes p voter).filter (fun v => v.nHeight = w.nHeight) =
      castVotes (votes.filter (fun v => v.nHeight = w.nHeight)) p voter := by
    unfold castVotes
    rw [filter_filterMap, filterMap_filter]
    refine filterMap_congr ?_
    intro v _
    unfold castAs
    by_cases hcast : v.proposalId = p ∧ v.voter = voter <;> by_cases hheight : v.nHeight = w.nHeight <;>
      simp [hcast, hheight, Option.filter]
  rw [hcomm] at hw
  obtain ⟨rest, hrest⟩ := (h.inOrder w.nHeight).filterMap (castAs p voter)
  obtain ⟨tail, htail⟩ := head?_eq_some_iff.mp hw
  unfold castVotes at htail ⊢
  rw [← hrest, htail]
  rfl

lemma FirstVotes.addAll (h : FirstVotes E C bound rsv) (hvotes : ReadVotes E C bound votes) :
    FirstVotes E C bound (addAll rsv votes) := by
  refine ⟨h.ok.addAll votes, fun p voter w hw => ?_⟩
  rw [cellOf_addAll h.ok, replay_newestWins_eq_some_iff] at hw
  have hhead := hw.head?_filter
  rw [filter_append] at hhead
  have hcell : cellOf rsv p voter = some w ∨
      ((castVotes votes p voter).filter (fun v => v.nHeight = w.nHeight)).head? = some w := by
    cases hold : cellOf rsv p voter with
    | none =>
      rw [hold] at hhead
      exact .inr hhead
    | some u =>
      rw [hold, Option.toList_some] at hhead
      by_cases hheight : u.nHeight = w.nHeight
      · left
        simpa [hheight] using hhead
      · right
        rw [filter_cons_of_neg (by simpa using hheight)] at hhead
        exact hhead
  rcases hcell with hold | hnew
  · exact h.first p voter w hold
  · have hmem := mem_of_mem_filter (mem_of_head? hnew)
    exact ⟨hvotes.head?_castVotes hnew, hvotes.below w (mem_castVotes.mp hmem).1⟩

lemma VoteCounted.addAll (hok : VotesOk rsv) (h : VoteCounted rsv v) (votes : List CVote) :
    VoteCounted (addAll rsv votes) v := by
  obtain ⟨w, hw, hle⟩ := h
  obtain ⟨w', hw', hle'⟩ := exists_cell hok votes (.inl hw)
  exact ⟨w', hw', hle.trans hle'⟩

lemma voteCounted_addAll_of_mem (hok : VotesOk rsv) (hv : v ∈ votes) : VoteCounted (addAll rsv votes) v :=
  exists_cell hok votes (.inr (mem_castVotes.mpr ⟨hv, rfl, rfl⟩))

/-- The vote that the chain below a height gives to a proposal and the voter: the first of the highest block that casts
one. -/
structure Elected (E : InfinityEnv) (C : Chain) (bound : Int) (p : String) (v : CVote) : Prop where
  first : (castVotes (blockVotes E C v.nHeight) p v.voter).head? = some v
  below : v.nHeight < bound
  highest : ∀ x < bound, ∀ w ∈ blockVotes E C x, w.proposalId = p → w.voter = v.voter → w.nHeight ≤ v.nHeight

lemma FirstVotes.mem_iff (h : FirstVotes E C bound rsv)
    (hall : ∀ x < bound, ∀ v ∈ blockVotes E C x, VoteCounted rsv v) :
    v ∈ proposalVotes rsv p ↔ Elected E C bound p v := by
  constructor
  · intro hv
    have hcell : cellOf rsv p v.voter = some v := h.ok.cellOf_eq_some.mpr ⟨hv, rfl⟩
    obtain ⟨hfirst, hbelow⟩ := h.first p v.voter v hcell
    refine ⟨hfirst, hbelow, ?_⟩
    rintro x hx w hw rfl hvoter
    obtain ⟨u, hu, hle⟩ := hall x hx w hw
    rw [hvoter, hcell] at hu
    cases hu
    exact hle
  · intro hv
    obtain ⟨hmem, hp, -⟩ := mem_castVotes.mp (mem_of_head? hv.first)
    obtain ⟨w, hw, hle⟩ := hall v.nHeight hv.below v hmem
    rw [hp] at hw
    obtain ⟨hfirst, hbelow⟩ := h.first p v.voter w hw
    obtain ⟨hwmem, hwp, hwvoter⟩ := mem_castVotes.mp (mem_of_head? hfirst)
    have hge := hv.highest w.nHeight hbelow w hwmem hwp hwvoter
    -- both come first in the same block
    rw [le_antisymm hge hle, hv.first] at hfirst
    cases hfirst
    exact (h.ok.cellOf_eq_some.mp hw).1

end Cells

section Scans

variable {E : InfinityEnv} {C : Chain} {h low x : Int}

lemma filter_blockVotes (y : Int) :
    (blockVotes E C y).filter (fun v => v.nHeight = x) = if y = x then blockVotes E C y else [] := by
  split_ifs with hyx
  · refine filter_eq_self.mpr ?_
    intro v hv
    exact decide_eq_true ((nHeight_of_mem_blockVotes hv).trans hyx)
  · refine filter_eq_nil_iff.mpr ?_
    intro v hv
    rw [nHeight_of_mem_blockVotes hv]
    simpa using hyx

lemma filter_heights {heights : List Int} (hnodup : heights.Nodup) :
    (heights.flatMap (blockVotes E C)).filter (fun v => v.nHeight = x) <+: blockVotes E C x := by
  induction heights with
  | nil => exact nil_prefix
  | cons y heights ih =>
    rw [nodup_cons] at hnodup
    rw [flatMap_cons, filter_append, filter_blockVotes]
    split_ifs with hyx
    · subst hyx
      have hnone : (heights.flatMap (blockVotes E C)).filter (fun v => v.nHeight = y) = [] := by
        refine filter_eq_nil_iff.mpr ?_
        intro v hv
        obtain ⟨z, hz, hvz⟩ := mem_flatMap.mp hv
        rw [nHeight_of_mem_blockVotes hvz]
        have hne : z ≠ y := fun heq => hnodup.1 (heq ▸ hz)
        simpa using hne
      rw [hnone, append_nil]
    · exact ih hnodup.2

def heightsFrom (h : Int) (n : Nat) : List Int := (List.range n).map (fun (k : Nat) => h - k)

lemma nodup_heightsFrom (n : Nat) : (heightsFrom h n).Nodup := by
  refine nodup_range.map ?_
  intro a b hab
  simpa using hab

lemma mem_heightsFrom {n : Nat} : x ∈ heightsFrom h n ↔ h - n < x ∧ x ≤ h := by
  unfold heightsFrom
  rw [mem_map]
  constructor
  · rintro ⟨k, hk, rfl⟩
    have hlt := mem_range.mp hk
    omega
  · rintro ⟨hgt, hle⟩
    exact ⟨(h - x).toNat, mem_range.mpr (by omega), by omega⟩

lemma votesIn_scanEvents :
    votesIn (scanEvents E C h low) = (heightsFrom h (h - max low 0 + 1).toNat).flatMap (blockVotes E C) := by
  have hend : votesIn (if low ≤ 0 then [abort] else []) = [] := by
    rw [votesIn_ite]
    exact ite_self _
  unfold scanEvents heightsFrom
  rw [votesIn_append, hend, append_nil, votesIn_flatMap, flatMap_map]
  rfl

lemma votesIn_rsvScanEvents : votesIn (rsvScanEvents E C h) =
    (heightsFrom h (h - INFINITYNODE_RSV_BEGIN + 1).toNat).flatMap (blockVotes E C) := by
  unfold rsvScanEvents heightsFrom
  rw [votesIn_flatMap, flatMap_map]
  simp only [votesIn_rsvBlockEvents]

lemma readVotes_filter {heights : List Int} (hnodup : heights.Nodup) {votes : List CVote}
    (hvotes : votes <+: heights.flatMap (blockVotes E C)) {bound bound' : Int} (hle : bound' ≤ bound) :
    ReadVotes E C bound (votes.filter (fun v => v.nHeight < bound')) := by
  constructor
  · intro x
    rw [filter_filter]
    by_cases hx : x < bound'
    · have hsame : votes.filter (fun v => decide (v.nHeight = x) && decide (v.nHeight < bound')) =
          votes.filter (fun v => v.nHeight = x) := by
        refine filter_congr ?_
        intro v _
        by_cases hv : v.nHeight = x <;> simp [hv, hx]
      rw [hsame]
      exact (hvotes.filter _).trans (filter_heights hnodup)
    · have hnone : votes.filter (fun v => decide (v.nHeight = x) && decide (v.nHeight < bound')) = [] := by
        refine filter_eq_nil_iff.mpr ?_
        intro v _
        by_cases hv : v.nHeight = x <;> simp [hv, hx]
      rw [hnone]
      exact nil_prefix
  · intro v hv
    have hlt : v.nHeight < bound' := by simpa using of_mem_filter hv
    exact hlt.trans_le hle

def deepVotes (h depth : Int) (events : List Event) : List CVote :=
  (votesIn events).filter (fun v => v.nHeight < h - depth)

lemma votesIn_prefix {events events' : List Event} (hpre : events <+: events') : votesIn events <+: votesIn events' :=
  hpre.filterMap _

lemma addVotes_eq (depth : Int) (hclean : abort ∉ events) (rsv : CInfinitynodersv) :
    addVotes depth h events rsv = (true, addAll rsv (deepVotes h depth events)) := by
  induction events generalizing rsv with
  | nil => rfl
  | cons e events ih =>
    rw [mem_cons, not_or] at hclean
    have hrest := ih hclean.2
    cases e with
    | abort => exact absurd rfl hclean.1
    | governanceVote v =>
      rw [addVotes, hrest]
      by_cases hv : v.nHeight < h - depth
      · simp [hv, deepVotes, votesIn, addAll]
      · simp [hv, deepVotes, votesIn, addAll]
    | _ => exact hrest rsv

lemma infnodersv_foldl (now : Int) (hburn : ∀ v, burnVote v ∉ events)
    (s : InfinityState) : (events.foldl (applyEvent E now h) s).infnodersv =
      addAll s.infnodersv (deepVotes h INF_MATURED_LIMIT events) := by
  induction events generalizing s with
  | nil => rfl
  | cons e events ih =>
    have hrest := ih (fun v hv => hburn v (mem_cons_of_mem _ hv)) (applyEvent E now h s e)
    rw [foldl_cons, hrest]
    cases e with
    | burnVote v => exact absurd mem_cons_self (hburn v)
    | governanceVote v =>
      by_cases hv : v.nHeight < h - INF_MATURED_LIMIT
      · simp [hv, deepVotes, votesIn, addAll, applyEvent]
      · simp [hv, deepVotes, votesIn, addAll, applyEvent]
    | register inf =>
      simp only [applyEvent]
      split_ifs <;> rfl
    | paid q x =>
      simp only [applyEvent]
      split_ifs <;> rfl
    | metadata owner address service x => rfl
    | abort => rfl

end Scans

/-- All votes of a chain are governance votes, and none is below the first block that `rsvScan` reads. -/
structure GovernanceOnly (E : InfinityEnv) (C : Chain) (tip : Int) : Prop where
  burn : ∀ x ≤ tip, ∀ v, burnVote v ∉ blockEvents E C x
  begins : ∀ x ≤ tip, ∀ v, governanceVote v ∈ blockEvents E C x → INFINITYNODE_RSV_BEGIN ≤ x

/-- What the votes are while the list is built at heights up to a tip. -/
structure VotesTracked (E : InfinityEnv) (C : Chain) (tip : Int) (s : InfinityState) : Prop where
  first : FirstVotes E C (tip - INF_MATURED_LIMIT) s.infnodersv
  counted : s.infnodeman.nLastScanHeight ≠ 0 → ∀ x < s.infnodeman.nLastScanHeight, ∀ v ∈ blockVotes E C x,
    VoteCounted s.infnodersv v

section Build

variable {E : InfinityEnv} {C C' : Chain} {now h tip low : Int} {s : InfinityState}

lemma nLastScanHeight_foldl :
    (events.foldl (applyEvent E now h) s).infnodeman.nLastScanHeight = s.infnodeman.nLastScanHeight := by
  refine List.foldlRecOn (motive := fun a : InfinityState => a.infnodeman.nLastScanHeight =
    s.infnodeman.nLastScanHeight) _ _ rfl ?_
  intro a ha e _
  obtain ⟨nodes, nonMatured, paid, heq⟩ := applyEvent_eq E now h a e
  rw [heq]
  exact ha

lemma GovernanceOnly.untilAbort_foldl (hvotes : GovernanceOnly E C tip) (hC : ChainExtends C' C)
    (hreach : h ≤ C'.height) (hh : h ≤ tip) (low : Int) (s : InfinityState) :
    ((untilAbort (scanEvents E C' h low)).foldl (applyEvent E now h) s).infnodersv =
      addAll s.infnodersv (deepVotes h INF_MATURED_LIMIT (untilAbort (scanEvents E C' h low))) ∧
    ReadVotes E C (tip - INF_MATURED_LIMIT) (deepVotes h INF_MATURED_LIMIT (untilAbort (scanEvents E C' h low))) := by
  have hpre := (scanEvents_resumes (E := E) hC low hreach).upto
  constructor
  · refine infnodersv_foldl now ?_ s
    intro v hv
    rcases mem_scanEvents.mp (hpre.subset hv) with ⟨x, -, hx, hburn⟩ | ⟨-, habort⟩
    · exact hvotes.burn x (hx.trans hh) v hburn
    · cases habort
  · have hread := votesIn_prefix hpre
    rw [votesIn_scanEvents] at hread
    exact readVotes_filter (nodup_heightsFrom _) hread (by omega)

lemma GovernanceOnly.blockVotes_eq_nil (hvotes : GovernanceOnly E C tip) {x : Int} (hx : x ≤ tip)
    (hlow : x < INFINITYNODE_RSV_BEGIN) : v ∉ blockVotes E C x := by
  intro hv
  exact absurd (hvotes.begins x hx v (mem_votesIn.mp hv)) (not_le.mpr hlow)

lemma VotesTracked.reset (s : InfinityState) : VotesTracked E C tip s.reset :=
  ⟨FirstVotes.empty, fun hne => absurd rfl hne⟩

lemma VotesTracked.prepared (hs : VotesTracked E C tip s) (nLow : Int) :
    VotesTracked E C tip (prepareScan E nLow s).1 ∧
      ((prepareScan E nLow s).2 = fullScanLow E ∨
        (prepareScan E nLow s).2 = (prepareScan E nLow s).1.infnodeman.nLastScanHeight) := by
  unfold prepareScan
  split_ifs
  · exact ⟨.reset _, .inl rfl⟩
  · exact ⟨⟨hs.first, hs.counted⟩, .inr rfl⟩

lemma GovernanceOnly.counted_scan (hvotes : GovernanceOnly E C tip) (hh : h ≤ tip)
    (hs : VotesTracked E C tip s) (hclean : abort ∉ scanEvents E C h low)
    (hlow : low ≤ INFINITYNODE_RSV_BEGIN ∨ low = s.infnodeman.nLastScanHeight) :
    ∀ x < h - INF_MATURED_LIMIT, ∀ v ∈ blockVotes E C x,
      VoteCounted (addAll s.infnodersv (deepVotes h INF_MATURED_LIMIT (scanEvents E C h low))) v := by
  intro x hx v hv
  have hpos := (clean_scanEvents hclean).1
  have hlimit : h - INF_MATURED_LIMIT ≤ h := by unfold INF_MATURED_LIMIT; omega
  by_cases hlx : low ≤ x
  · refine voteCounted_addAll_of_mem hs.first.ok ?_
    refine mem_filter.mpr ⟨?_, ?_⟩
    · rw [votesIn_scanEvents]
      exact mem_flatMap.mpr ⟨x, mem_heightsFrom.mpr (by omega), hv⟩
    · rw [nHeight_of_mem_blockVotes hv]
      exact decide_eq_true hx
  · refine VoteCounted.addAll hs.first.ok ?_ _
    rcases hlow with hbegin | hlast
    · exact absurd hv (hvotes.blockVotes_eq_nil (by omega) (by omega))
    · exact hs.counted (by omega) x (by omega) v hv

lemma VotesTracked.build (hvotes : GovernanceOnly E C tip) (hlow : fullScanLow E ≤ INFINITYNODE_RSV_BEGIN)
    (hC : ChainExtends C' C) (hh : h ≤ tip) (hs : VotesTracked E C tip s) (now nLow : Int) :
    VotesTracked E C tip (buildInfinitynodeList E C' now h nLow s).2 := by
  obtain ⟨hprep, hfrom⟩ := hs.prepared nLow
  by_cases hbegin : h < E.params.nInfinityNodeBeginHeight
  · unfold buildInfinitynodeList
    rw [if_pos hbegin]
    exact .reset s
  by_cases hreach : h > C'.height
  · unfold buildInfinitynodeList
    rw [if_neg hbegin]
    dsimp only
    rw [if_pos hreach]
    exact hprep
  rw [build_eq_foldl (not_lt.mp hbegin) (not_lt.mp hreach)]
  obtain ⟨hadd, hread⟩ :=
    hvotes.untilAbort_foldl hC (not_lt.mp hreach) hh (prepareScan E nLow s).2 (prepareScan E nLow s).1
  have hfirst := hprep.first.addAll hread
  split_ifs with habort
  · -- cut short: the votes found so far are kept, and the scan height of the last build
    refine ⟨?_, ?_⟩
    · rw [hadd]
      exact hfirst
    · rw [hadd, nLastScanHeight_foldl]
      intro hne x hx v hv
      exact (hprep.counted hne x hx v hv).addAll hprep.first.ok _
  · refine ⟨?_, ?_⟩
    · show FirstVotes E C _ ((untilAbort _).foldl (applyEvent E now h) _).infnodersv
      rw [hadd]
      exact hfirst
    · intro _
      show ∀ x < h - INF_MATURED_LIMIT, ∀ v ∈ blockVotes E C x,
        VoteCounted ((untilAbort _).foldl (applyEvent E now h) _).infnodersv v
      have hsame := scanEvents_extends hC (not_lt.mp hreach) habort
      rw [hadd, untilAbort_eq_self habort, ← hsame]
      rw [← hsame] at habort
      exact hvotes.counted_scan hh hprep habort (hfrom.imp (fun hfull => hfull.le.trans hlow) id)

lemma build_reset :
    buildInfinitynodeList E C now h E.params.nInfinityNodeBeginHeight s.reset =
      buildInfinitynodeList E C now h E.params.nInfinityNodeBeginHeight s := by
  unfold buildInfinitynodeList prepareScan
  simp only [if_true]
  rfl

lemma nLastScanHeight_build {nLow : Int} (htrue : (buildInfinitynodeList E C now h nLow s).1 = true) :
    h < E.params.nInfinityNodeBeginHeight ∨
      (h ≤ C.height ∧ abort ∉ scanEvents E C h (prepareScan E nLow s).2 ∧
        (buildInfinitynodeList E C now h nLow s).2.infnodeman.nLastScanHeight = h - INF_MATURED_LIMIT) := by
  by_cases hbegin : h < E.params.nInfinityNodeBeginHeight
  · exact .inl hbegin
  · obtain ⟨hreach, hclean, hs'⟩ := (build_eq_true_iff (not_lt.mp hbegin)).mp (Prod.ext htrue rfl)
    exact .inr ⟨hreach, hclean, (congrArg (fun s => s.infnodeman.nLastScanHeight) hs').symm⟩

lemma VotesTracked.mem_iff (hvotes : GovernanceOnly E C tip) (hs : VotesTracked E C tip s)
    (hlast : tip < INFINITYNODE_RSV_BEGIN ∨ s.infnodeman.nLastScanHeight = tip - INF_MATURED_LIMIT) :
    v ∈ proposalVotes s.infnodersv p ↔ Elected E C (tip - INF_MATURED_LIMIT) p v := by
  refine hs.first.mem_iff ?_
  intro x hx v hv
  have hlimit : tip - INF_MATURED_LIMIT ≤ tip := by unfold INF_MATURED_LIMIT; omega
  have hge := hvotes.begins x (by omega) v (mem_votesIn.mp hv)
  have hpos : 0 < INFINITYNODE_RSV_BEGIN := by decide
  rcases hlast with hbelow | hlast
  · omega
  · exact hs.counted (by omega) x (by omega) v hv

end Build

/-- An incremental build: the chain and the time it was made at and its height. -/
structure ListBuild where
  chain : Chain
  now : Int
  height : Int

def ListBuild.run (E : InfinityEnv) (s : InfinityState) (b : ListBuild) : InfinityState :=
  (updateInfinitynodeList E b.chain b.now b.height s).2

section Agree

variable {E : InfinityEnv} {C : Chain} {tip depth now now' : Int} {s s₀ : InfinityState} {builds : List ListBuild}

lemma fullScanLow_le (hbegin : E.params.nInfinityNodeBeginHeight ≤ INFINITYNODE_RSV_BEGIN) :
    fullScanLow E ≤ INFINITYNODE_RSV_BEGIN := by
  unfold fullScanLow
  split_ifs
  · decide
  · exact hbegin

section

variable (hvotes : GovernanceOnly E C tip) (hlow : fullScanLow E ≤ INFINITYNODE_RSV_BEGIN)
include hvotes hlow

lemma votesTracked_full {C' : Chain} {h : Int}
    (hC : ChainExtends C' C) (hh : h ≤ tip) (now : Int) (s : InfinityState) :
    VotesTracked E C tip (buildInfinitynodeList E C' now h E.params.nInfinityNodeBeginHeight s).2 := by
  rw [← build_reset]
  exact VotesTracked.build hvotes hlow hC hh (.reset s) now _

lemma votesTracked_update {C' : Chain} {h : Int}
    (hC : ChainExtends C' C) (hh : h ≤ tip) (now : Int)
    (hs : s.infnodeman.nLastScanHeight = 0 ∨ VotesTracked E C tip s) :
    VotesTracked E C tip (updateInfinitynodeList E C' now h s).2 := by
  unfold updateInfinitynodeList
  by_cases hzero : s.infnodeman.nLastScanHeight = 0
  · rw [if_pos hzero]
    exact votesTracked_full hvotes hlow hC hh now s
  · have htracked := hs.resolve_left hzero
    rw [if_neg hzero]
    split_ifs
    · exact htracked
    · exact htracked.build hvotes hlow hC hh now _

lemma votesTracked_builds
    (hbuilds : ∀ b ∈ builds, ChainExtends b.chain C ∧ b.height ≤ tip)
    (hs : s.infnodeman.nLastScanHeight = 0 ∨ VotesTracked E C tip s) :
    (builds.foldl (ListBuild.run E) s).infnodeman.nLastScanHeight = 0 ∨
      VotesTracked E C tip (builds.foldl (ListBuild.run E) s) := by
  induction builds generalizing s with
  | nil => exact hs
  | cons b builds ih =>
    rw [forall_mem_cons] at hbuilds
    exact ih hbuilds.2 (.inr (votesTracked_update hvotes hlow hbuilds.1.1 hbuilds.1.2 b.now hs))

end

lemma nLastScanHeight_update (htrue : (updateInfinitynodeList E C now tip s).1 = true) :
    tip < E.params.nInfinityNodeBeginHeight ∨
      (updateInfinitynodeList E C now tip s).2.infnodeman.nLastScanHeight = tip - INF_MATURED_LIMIT := by
  unfold updateInfinitynodeList at htrue ⊢
  split_ifs at htrue ⊢
  · exact (nLastScanHeight_build htrue).imp id (fun hlast => hlast.2.2)
  · exact (nLastScanHeight_build htrue).imp id (fun hlast => hlast.2.2)

lemma mem_rsvScan (hvotes : GovernanceOnly E C tip) (hreach : INFINITYNODE_RSV_BEGIN < tip → tip ≤ C.height)
    (hclean : ∀ x, INFINITYNODE_RSV_BEGIN ≤ x → x ≤ tip → abort ∉ blockEvents E C x) :
    v ∈ proposalVotes (rsvScan E C INF_MATURED_LIMIT tip).2 p ↔ Elected E C (tip - INF_MATURED_LIMIT) p v := by
  have hlimit : tip - INF_MATURED_LIMIT ≤ tip := by unfold INF_MATURED_LIMIT; omega
  unfold rsvScan
  by_cases hlow : tip ≤ INFINITYNODE_RSV_BEGIN
  · rw [if_pos hlow]
    refine FirstVotes.empty.mem_iff ?_
    intro x hx v hv
    have hge := hvotes.begins x (by omega) v (mem_votesIn.mp hv)
    unfold INF_MATURED_LIMIT at hx
    omega
  have hreach := hreach (not_le.mp hlow)
  have hevents : abort ∉ rsvScanEvents E C tip := by
    intro habort
    obtain ⟨k, hk, hblock⟩ := mem_flatMap.mp habort
    have hlt := mem_range.mp hk
    exact hclean _ (by omega) (by omega) (abort_mem_blockEvents hblock)
  rw [if_neg hlow, if_neg (not_lt.mpr hreach), addVotes_eq INF_MATURED_LIMIT hevents]
  have hread : ReadVotes E C (tip - INF_MATURED_LIMIT) (deepVotes tip INF_MATURED_LIMIT (rsvScanEvents E C tip)) := by
    unfold deepVotes
    rw [votesIn_rsvScanEvents]
    exact readVotes_filter (nodup_heightsFrom _) prefix_rfl le_rfl
  refine (FirstVotes.empty.addAll hread).mem_iff ?_
  intro x hx v hv
  have hge := hvotes.begins x (by omega) v (mem_votesIn.mp hv)
  refine voteCounted_addAll_of_mem VotesOk.empty (mem_filter.mpr ⟨?_, ?_⟩)
  · rw [votesIn_rsvScanEvents]
    exact mem_flatMap.mpr ⟨x, mem_heightsFrom.mpr (by omega), hv⟩
  · rw [nHeight_of_mem_blockVotes hv]
    exact decide_eq_true hx

/-- Where the list is not disabled and the scans reach their end, `rsvScan`, a full build and any builds that end at the
tip hold the same votes. -/
theorem voteScanners_agree (tip now now' : Int) (s s₀ : InfinityState) (builds : List ListBuild)
    (hdepth : depth = INF_MATURED_LIMIT) (hvotes : GovernanceOnly E C tip)
    (hbegin : E.params.nInfinityNodeBeginHeight ≤ INFINITYNODE_RSV_BEGIN)
    (hfull : (buildInfinitynodeList E C now tip E.params.nInfinityNodeBeginHeight s).1 = true)
    (hstart : s₀.infnodeman.nLastScanHeight = 0) (hbuilds : ∀ b ∈ builds, ChainExtends b.chain C ∧ b.height ≤ tip)
    (hlast : (updateInfinitynodeList E C now' tip (builds.foldl (ListBuild.run E) s₀)).1 = true) :
    let full := (buildInfinitynodeList E C now tip E.params.nInfinityNodeBeginHeight s).2.infnodersv
    let incremental := (updateInfinitynodeList E C now' tip (builds.foldl (ListBuild.run E) s₀)).2.infnodersv
    ∀ p v, (v ∈ proposalVotes (rsvScan E C depth tip).2 p ↔ v ∈ proposalVotes full p) ∧
      (v ∈ proposalVotes incremental p ↔ v ∈ proposalVotes full p) := by
  intro full incremental p v
  have hlow := fullScanLow_le hbegin
  have hfullVotes : v ∈ proposalVotes full p ↔ Elected E C (tip - INF_MATURED_LIMIT) p v := by
    refine (votesTracked_full hvotes hlow (.refl C) le_rfl now s).mem_iff hvotes ?_
    exact (nLastScanHeight_build hfull).imp (fun hlt => hlt.trans_le hbegin) (fun hend => hend.2.2)
  have hrun := votesTracked_builds hvotes hlow hbuilds (.inl hstart)
  have hincVotes : v ∈ proposalVotes incremental p ↔ Elected E C (tip - INF_MATURED_LIMIT) p v := by
    refine (votesTracked_update hvotes hlow (.refl C) le_rfl now' hrun).mem_iff hvotes ?_
    exact (nLastScanHeight_update hlast).imp (fun hlt => hlt.trans_le hbegin) id
  have hrsv : v ∈ proposalVotes (rsvScan E C depth tip).2 p ↔ Elected E C (tip - INF_MATURED_LIMIT) p v := by
    rw [hdepth]
    refine mem_rsvScan hvotes ?_ ?_
    · intro hgt
      exact ((nLastScanHeight_build hfull).resolve_left (by omega)).1
    · intro x hx hle
      obtain ⟨-, hclean, -⟩ := (nLastScanHeight_build hfull).resolve_left (by omega)
      have hprep : (prepareScan E E.params.nInfinityNodeBeginHeight s).2 = fullScanLow E := by simp [prepareScan]
      rw [hprep] at hclean
      exact (clean_scanEvents hclean).2 x (hlow.trans hx) hle
  exact ⟨hrsv.trans hfullVotes.symm, hincVotes.trans hfullVotes.symm⟩

end Agree

/-- What `EncodeDestination` gives on the main network for the keys of the example. -/
def voteKeyIO : KeyIO where
  encodeDestination := fun
    | .keyID id =>
      if id = List.replicate 20 1 then "QLhHzF8TEajxpchzcwScUdHaVwrzgUGcVB"
      else if id = List.replicate 20 3 then "QLsuk8owLpUFbZww29gsBLHUVKhZNJAK8o"
      else if id = List.replicate 20 7 then "QMF9FvAuZHvq9URopaBNakHGU5NgotERLV"
      else ""
    | _ => ""
  decodeDestination := fun _ => .noDestination
  encode_none := rfl
  decode_empty := rfl
  decode_default := rfl

/-- The main network with addresses of known keys, from a begin height on. -/
def voteEnv (nInfinityNodeBeginHeight : Int) : InfinityEnv where
  params :=
    { mainParams with
      nInfinityNodeBeginHeight
      cBurnAddress := "QLhHzF8TEajxpchzcwScUdHaVwrzgUGcVB"
      cGovernanceAddress := "QLsuk8owLpUFbZww29gsBLHUVKhZNJAK8o" }
  hashes := exampleEnv.hashes
  keyIO := voteKeyIO
  lookup := exampleEnv.lookup

def voteTx : CTransaction :=
  exampleBurn 1000 0 100 (List.replicate 20 3) [0x30, 0x30, 0x30, 0x30, 0x30, 0x30, 0x30, 0x31, 0x31]

/-- One block has a vote; a later one may have a burn that spends an output that does not exist. -/
def voteChain (unfunded : Bool) : Chain where
  height := 300060
  readBlock := fun x =>
    if x = 300001 then some ⟨[voteTx]⟩
    else if x = 300030 ∧ unfunded then some ⟨[exampleBurn 1001 7 1000000 (List.replicate 20 1) []]⟩
    else some ⟨[]⟩
  getTransaction := fun hash => if hash = 1 then some (exampleCoinbaseAt 1) else none

def exampleVote : CVote := ⟨"00000001", keyIDScript (List.replicate 20 7), 300001, true⟩

lemma voteChain_blockEvents (begin : Int) (unfunded : Bool) (x : Int) :
    blockEvents (voteEnv begin) (voteChain unfunded) x =
      if x = 300001 then [.governanceVote exampleVote] else if x = 300030 ∧ unfunded then [.abort] else [] := by
  by_cases hvote : x = 300001
  · subst hvote
    cases unfunded <;> rfl
  · by_cases hburn : x = 300030 ∧ unfunded
    · obtain ⟨rfl, rfl⟩ := hburn
      rfl
    · simp [blockEvents, voteChain, hvote, hburn]

lemma voteChain_governanceOnly (begin : Int) (unfunded : Bool) :
    GovernanceOnly (voteEnv begin) (voteChain unfunded) 300060 := by
  constructor
  · intro x _ v hv
    rw [voteChain_blockEvents] at hv
    split_ifs at hv <;> simp at hv
  · intro x _ v hv
    rw [voteChain_blockEvents] at hv
    split_ifs at hv with hx
    · subst hx
      decide
    · simp at hv
    · simp at hv

theorem voteScanners_agree_example :
    let E := voteEnv 300000
    let C := voteChain false
    let incremental := updateInfinitynodeList E C 0 300060 ([⟨C, 0, 300057⟩].foldl (ListBuild.run E) {})
    exampleVote ∈ proposalVotes (rsvScan E C 55 300060).2 "00000001" ∧
      (exampleVote ∈ proposalVotes incremental.2.infnodersv "00000001" ↔
        exampleVote ∈ proposalVotes (buildInfinitynodeList E C 0 300060 300000 {}).2.infnodersv "00000001") := by
  refine ⟨by decide +kernel, ?_⟩
  have hbuilds : ∀ b ∈ [(⟨voteChain false, 0, 300057⟩ : ListBuild)], ChainExtends b.chain (voteChain false) ∧
    b.height ≤ 300060 := by
    intro b hb
    obtain rfl := mem_singleton.mp hb
    exact ⟨.refl _, by decide⟩
  have hagree := voteScanners_agree (E := voteEnv 300000) (C := voteChain false) 300060 0 0 {} {}
    [⟨voteChain false, 0, 300057⟩]
    rfl (voteChain_governanceOnly 300000 false) (by decide) (by decide +kernel) rfl hbuilds (by decide +kernel)
  exact (hagree "00000001" exampleVote).2

/-- On the main network the list is disabled, so that a build clears the votes that `rsvScan` finds. Where it is
enabled, a burn whose funding is not known ends a build before the vote. -/
theorem voteScanners_differ :
    (GovernanceOnly (voteEnv mainParams.nInfinityNodeBeginHeight) (voteChain false) 300060 ∧
      exampleVote ∈ proposalVotes (rsvScan (voteEnv mainParams.nInfinityNodeBeginHeight)
        (voteChain false) 55 300060).2 "00000001" ∧
      exampleVote ∉ proposalVotes (buildInfinitynodeList (voteEnv mainParams.nInfinityNodeBeginHeight)
        (voteChain false) 0 300060 mainParams.nInfinityNodeBeginHeight {}).2.infnodersv "00000001") ∧
    (GovernanceOnly (voteEnv 300000) (voteChain true) 300060 ∧
      exampleVote ∈ proposalVotes (rsvScan (voteEnv 300000) (voteChain true) 55 300060).2 "00000001" ∧
      exampleVote ∉ proposalVotes (buildInfinitynodeList (voteEnv 300000)
        (voteChain true) 0 300060 300000 {}).2.infnodersv "00000001") := by
  refine ⟨⟨voteChain_governanceOnly _ _, ?_, ?_⟩, voteChain_governanceOnly _ _, ?_, ?_⟩ <;> decide +kernel

end Qstees.Proofs
