import Qstees.Model.CoinSelection

/-!
# What the solvers select

Both solvers return distinct coins of the groups they were given, with the sum of their values, and at least the
target.
-/

namespace Qstees.Proofs

open Selection List OutputGroup

def Distinct (coins : List CInputCoin) : Prop := (coins.map CInputCoin.outpoint).Nodup

def coinsValue (coins : List CInputCoin) : Int := (coins.map (fun coin => coin.txout.nValue)).sum

def groupCoins (groups : List OutputGroup) : List CInputCoin := groups.flatMap m_outputs

def groupsValue (groups : List OutputGroup) : Int := (groups.map m_value).sum

/-- A solution out of some coins: distinct ones, counted at their values, that reach the target. -/
structure Solves (available : List CInputCoin) (target : Int) (s : Solution) : Prop where
  subperm : s.1.Subperm available
  value : s.2 = coinsValue s.1
  reached : target ≤ s.2

def Counted (group : OutputGroup) : Prop := group.m_value = coinsValue group.m_outputs

lemma Distinct.subperm {coins available : List CInputCoin} (h : Distinct available) (hsub : coins.Subperm available) :
    Distinct coins := by
  obtain ⟨l, hperm, hsublist⟩ := hsub
  have hl : (l.map CInputCoin.outpoint).Nodup := (hsublist.map _).nodup h
  exact ((hperm.map CInputCoin.outpoint).nodup_iff).mp hl

variable {groups utxo_pool seen : List OutputGroup} {target cost_of_change : Int} {i : Nat}
  {s : KnapsackScan} {s' : BnBState} {group : OutputGroup}

variable {chosen : List OutputGroup}

lemma groupCoins_subperm (h : chosen.Subperm groups) :
    (groupCoins chosen).Subperm (groupCoins groups) := by
  obtain ⟨l, hperm, hsublist⟩ := h
  exact ⟨groupCoins l, hperm.flatMap_right _, hsublist.flatMap _⟩

lemma groupsValue_eq (h : ∀ group ∈ groups, Counted group) :
    groupsValue groups = coinsValue (groupCoins groups) := by
  induction groups with
  | nil => rfl
  | cons group groups ih =>
    have hgroup : group.m_value = coinsValue group.m_outputs := h group mem_cons_self
    have hrest := ih (fun g hg => h g (mem_cons_of_mem _ hg))
    simp only [groupsValue, coinsValue, groupCoins, map_cons, sum_cons, flatMap_cons, map_append,
      sum_append] at hgroup hrest ⊢
    rw [hgroup, hrest]

lemma insertCoin_of_notMem {setCoins : List CInputCoin} {coin : CInputCoin}
    (h : coin.outpoint ∉ setCoins.map CInputCoin.outpoint) : insertCoin setCoins coin = setCoins ++ [coin] := by
  unfold insertCoin
  rw [if_neg]
  intro hany
  obtain ⟨c, hc, heq⟩ := any_eq_true.mp hany
  exact h (mem_map.mpr ⟨c, hc, of_decide_eq_true heq⟩)

lemma insertCoins_of_distinct {setCoins coins : List CInputCoin} (h : Distinct (setCoins ++ coins)) :
    insertCoins setCoins coins = setCoins ++ coins := by
  induction coins generalizing setCoins with
  | nil => simp [insertCoins]
  | cons coin coins ih =>
    have hnotMem : coin.outpoint ∉ setCoins.map CInputCoin.outpoint := by
      unfold Distinct at h
      rw [map_append, nodup_append] at h
      intro hmem
      exact h.2.2 _ hmem _ (by simp) rfl
    have hstep : insertCoins setCoins (coin :: coins) = insertCoins (setCoins ++ [coin]) coins := by
      simp only [insertCoins, foldl_cons, insertCoin_of_notMem hnotMem]
    rw [hstep, ih (by simpa using h)]
    simp

lemma solutionOf_insertCoins (groups : List OutputGroup) :
    solutionOf groups = (insertCoins [] (groupCoins groups), groupsValue groups) := by
  -- generalised over the groups already united
  suffices hfold : ∀ s :
    Solution, groups.foldl (fun s group => (insertCoins s.1 group.m_outputs, s.2 + group.m_value)) s =
      (insertCoins s.1 (groupCoins groups), s.2 + groupsValue groups) by
    simpa [solutionOf] using hfold ([], 0)
  induction groups with
  | nil => simp [insertCoins, groupCoins, groupsValue]
  | cons group groups ih =>
    intro s
    rw [foldl_cons, ih]
    simp [insertCoins, groupCoins, groupsValue, add_assoc]

lemma solutionOf_eq (h : Distinct (groupCoins groups)) :
    solutionOf groups = (groupCoins groups, groupsValue groups) := by
  rw [solutionOf_insertCoins, insertCoins_of_distinct (by simpa using h), nil_append]

lemma solves_of_subperm (hdistinct : Distinct (groupCoins groups))
    (hcounted : ∀ group ∈ groups, Counted group) (hsub : chosen.Subperm groups)
    (htarget : target ≤ groupsValue chosen) :
    Solves (groupCoins groups) target (solutionOf chosen) := by
  have hcoins := groupCoins_subperm hsub
  rw [solutionOf_eq (hdistinct.subperm hcoins)]
  exact
    { subperm := hcoins
      value := groupsValue_eq (fun group hgroup => hcounted group (hsub.subset hgroup))
      reached := htarget }

lemma poolAt_reverse {selection : List Bool} {utxo : OutputGroup} (h : poolAt utxo_pool selection.length = .ok utxo) :
    utxo_pool[selection.reverse.length]? = some utxo := by
  rw [length_reverse]
  unfold poolAt at h
  cases hutxo : utxo_pool[selection.length]? <;> simp_all

/-- What the search keeps: its value is that of its selection, and the best selection reaches the target. -/
structure Searching (utxo_pool : List OutputGroup) (target : Int) (s : BnBState) : Prop where
  length_le : s.curr_selection.length ≤ utxo_pool.length
  value : s.curr_value = total effective_value s.curr_selection.reverse utxo_pool
  best : s.best_selection.isEmpty = false → target ≤ total effective_value s.best_selection utxo_pool

lemma walkBack_spec {selection selection' : List Bool} {available available' : Int}
    (h : walkBack utxo_pool selection available = .ok (selection', available')) :
    selection'.length ≤ selection.length ∧ (∀ front, selection' ≠ false :: front) ∧
      total effective_value selection'.reverse utxo_pool =
        total effective_value selection.reverse utxo_pool := by
  induction selection generalizing available with
  | nil =>
    cases h
    exact ⟨le_rfl, by simp, rfl⟩
  | cons b selection ih =>
    cases b with
    | true =>
      cases h
      exact ⟨le_rfl, by simp, rfl⟩
    | false =>
      obtain ⟨utxo, hutxo, hrest⟩ := ok_of_bind h
      obtain ⟨hlen, hfront, htotal⟩ := ih hrest
      refine ⟨hlen.trans (by simp), hfront, htotal.trans ?_⟩
      rw [reverse_cons, total_concat _ (poolAt_reverse hutxo)]
      simp

lemma Searching.back {s : BnBState} (hs : Searching utxo_pool target s)
    (h : bnbBack utxo_pool s = .ok (some s')) : Searching utxo_pool target s' := by
  unfold bnbBack at h
  obtain ⟨⟨selection, available⟩, hwalk, h⟩ := ok_of_bind h
  obtain ⟨hlen, hfront, htotal⟩ := walkBack_spec hwalk
  cases selection with
  | nil => cases h
  | cons b front =>
    cases b with
    | false => exact absurd rfl (hfront front)
    | true =>
      obtain ⟨utxo, hutxo, h⟩ := ok_of_bind h
      cases h
      have hat := poolAt_reverse hutxo
      refine ⟨hlen.trans hs.length_le, ?_, hs.best⟩
      have hvalue := hs.value
      rw [← htotal, reverse_cons, total_concat _ hat] at hvalue
      simp only [reverse_cons, total_concat _ hat, hvalue]
      simp

lemma Searching.forward {s : BnBState} (hs : Searching utxo_pool target s)
    (h : bnbForward utxo_pool s = .ok s') : Searching utxo_pool target s' := by
  unfold bnbForward at h
  obtain ⟨utxo, hutxo, h⟩ := ok_of_bind h
  obtain ⟨twin, -, h⟩ := ok_of_bind h
  have hat := poolAt_reverse hutxo
  have hlt : s.curr_selection.length < utxo_pool.length := by
    simpa using (List.getElem?_eq_some_iff.mp hat).1
  cases twin
  all_goals
    cases h
    refine ⟨hlt, ?_, hs.best⟩
    rw [reverse_cons, total_concat _ hat, ← hs.value]
    simp

lemma total_resizeFlags {flags : List Bool} (h : flags.length ≤ utxo_pool.length)
    (w : OutputGroup → Int) :
    total w (resizeFlags utxo_pool.length flags) utxo_pool = total w flags utxo_pool := by
  unfold resizeFlags total
  rw [take_of_length_le h, pick_append_false]

lemma Searching.turn {s : BnBState} {backtrack : Bool} (hs : Searching utxo_pool target s)
    (h : bnbTurn utxo_pool target cost_of_change s = .ok (backtrack, s')) :
    Searching utxo_pool target s' := by
  unfold bnbTurn at h
  obtain ⟨hopeless, -, h⟩ := ok_of_bind h
  dsimp only at h
  split_ifs at h with hout hreached hbest
  · cases h
    exact hs
  · cases h
    refine ⟨hs.length_le, hs.value, fun _ => ?_⟩
    rw [total_resizeFlags (by simpa using hs.length_le), ← hs.value]
    exact hreached
  · cases h
    exact hs
  · cases h
    exact hs

lemma Searching.loop {tries : Nat} {s : BnBState} (hs : Searching utxo_pool target s)
    (h : bnbLoop utxo_pool target cost_of_change tries s = .ok s') :
    Searching utxo_pool target s' := by
  induction tries generalizing s with
  | zero =>
    cases h
    exact hs
  | succ tries ih =>
    unfold bnbLoop at h
    obtain ⟨⟨backtrack, s₁⟩, hturn, h⟩ := ok_of_bind h
    have hs₁ := hs.turn hturn
    cases backtrack with
    | false =>
      obtain ⟨s₂, hforward, h⟩ := ok_of_bind h
      exact ih (hs₁.forward hforward) h
    | true =>
      obtain ⟨next, hback, h⟩ := ok_of_bind h
      cases next with
      | none =>
        cases h
        exact hs₁
      | some s₂ => exact ih (hs₁.back hback) h

variable {rand : Randomness} {place : List Nat}

lemma selectCoinsBnB_solves
    {target_value not_input_fees : Int} {s : Solution}
    (hdistinct : Distinct (groupCoins utxo_pool)) (hcounted : ∀ group ∈ utxo_pool, Counted group)
    (heffective : ∀ group ∈ utxo_pool, group.effective_value ≤ group.m_value)
    (hfees : 0 ≤ not_input_fees)
    (h : selectCoinsBnB rand place utxo_pool target_value cost_of_change not_input_fees = .ok (some s)) :
    Solves (groupCoins utxo_pool) target_value s := by
  unfold selectCoinsBnB at h
  dsimp only at h
  split_ifs at h with hpositive hshort
  · cases h
  obtain ⟨s', hloop, h⟩ := ok_of_bind h
  set pool := sortDescending (rand.shuffle place utxo_pool) with hpool
  have hperm : pool.Perm utxo_pool := (perm_insertionSort _ _).trans (rand.shuffle_perm place utxo_pool)
  have hsearch : Searching pool (not_input_fees + target_value) s' :=
    Searching.loop ⟨by simp, rfl, by simp⟩ hloop
  have hs := Except.ok.inj h
  split_ifs at hs with hempty
  cases hs
  have hsub : (pick s'.best_selection pool).Subperm utxo_pool :=
    (pick_sublist _ _).subperm.trans hperm.subperm
  refine solves_of_subperm hdistinct hcounted hsub ?_
  calc target_value ≤ not_input_fees + target_value := by omega
    _ ≤ total effective_value s'.best_selection pool := hsearch.best (by simpa using hempty)
    _ ≤ total m_value s'.best_selection pool :=
      total_le_total (fun group hgroup => heffective group (hperm.mem_iff.mp hgroup)) _

/-- What the innermost loop keeps: both selections are counted, and the best one reaches the target. -/
structure Approximating (groups : List OutputGroup) (target : Int) (s : SubsetState) : Prop where
  included : s.vfIncluded.length = groups.length
  counted : s.nTotal = total m_value s.vfIncluded groups
  best : s.nBest = total m_value s.vfBest groups
  reached : target ≤ s.nBest

lemma Approximating.include {s : SubsetState} (hs : Approximating groups target s)
    (hgroup : groups[i]? = some group) (hflag : s.vfIncluded[i]? = some false) :
    Approximating groups target (subsetInclude target s group i) := by
  have hset : total m_value (s.vfIncluded.set i true) groups = s.nTotal + group.m_value := by
    rw [total_set _ hflag hgroup, hs.counted]
    simp
  have hback : (s.vfIncluded.set i true).set i false = s.vfIncluded := by
    obtain ⟨hlt, heq⟩ := List.getElem?_eq_some_iff.mp hflag
    rw [set_set, ← heq, set_getElem_self]
  unfold subsetInclude
  dsimp only
  split_ifs with hreached hbetter
  · exact ⟨by simp [hs.included], by simp [hback, hs.counted], hset.symm, hreached⟩
  · exact ⟨by simp [hs.included], by simp [hback, hs.counted], hs.best, hs.reached⟩
  · exact ⟨by simp [hs.included], hset.symm, hs.best, hs.reached⟩

lemma subsetInclude_flag {s : SubsetState} {j : Nat} (hj : j ≠ i) :
    (subsetInclude target s group i).vfIncluded[j]? = s.vfIncluded[j]? := by
  unfold subsetInclude
  dsimp only
  split_ifs <;> simp [getElem?_set_ne (Ne.symm hj)]

section Approximation

variable (rand : Randomness) (place : List Nat)

variable {groups : List OutputGroup} {target : Int}

lemma Approximating.pass (nPass : Nat) {s : SubsetState} (hs : Approximating groups target s)
    (hunset : nPass = 0 → s.vfIncluded = List.replicate groups.length false) :
    Approximating groups target (subsetPass rand place groups target nPass s) := by
  suffices hfold : ∀ (rest : List OutputGroup) (k : Nat) (s : SubsetState), groups.drop k = rest →
      Approximating groups target s → (nPass = 0 → ∀ j, k ≤ j → j < groups.length → s.vfIncluded[j]? = some false) →
      Approximating groups target ((rest.zipIdx k).foldl (subsetStep rand place target nPass) s) by
    refine hfold groups 0 s rfl hs (fun hpass j _ hj => ?_)
    rw [hunset hpass, getElem?_replicate_of_lt hj]
  intro rest
  induction rest with
  | nil =>
    intro k s _ hs _
    exact hs
  | cons group rest ih =>
    intro k s hdrop hs hflags
    have hgroup : groups[k]? = some group := by
      rw [← head?_drop, hdrop, head?_cons]
    have hlt : k < groups.length := (List.getElem?_eq_some_iff.mp hgroup).1
    have hrest : groups.drop (k + 1) = rest := by
      rw [← tail_drop, hdrop, tail_cons]
    rw [zipIdx_cons, foldl_cons]
    by_cases hdraw : subsetDraw rand place nPass s k = true
    · rw [subsetStep, if_pos hdraw]
      have hflag : s.vfIncluded[k]? = some false := by
        by_cases hpass : nPass = 0
        · exact hflags hpass k le_rfl hlt
        · have hk : k < s.vfIncluded.length := hs.included ▸ hlt
          simp only [subsetDraw, if_neg hpass, getD_eq_getElem?_getD, getElem?_eq_getElem hk,
            Option.getD_some, Bool.not_eq_true'] at hdraw
          rw [getElem?_eq_getElem hk, hdraw]
      refine ih (k + 1) _ hrest (hs.include hgroup hflag) (fun hpass j hj hjlt => ?_)
      rw [subsetInclude_flag (by omega)]
      exact hflags hpass j (by omega) hjlt
    · rw [subsetStep, if_neg hdraw]
      exact ih (k + 1) s hrest hs (fun hpass j hj hjlt => hflags hpass j (by omega) hjlt)

lemma subsetLoop_spec (iterations : Nat) {s : SubsetState}
    (hbest : s.nBest = total m_value s.vfBest groups) (hreached : target ≤ s.nBest) :
    let s' := subsetLoop rand place groups target iterations s
    s'.nBest = total m_value s'.vfBest groups ∧ target ≤ s'.nBest := by
  dsimp only
  induction iterations generalizing s with
  | zero => exact ⟨hbest, hreached⟩
  | succ iterations ih =>
    unfold subsetLoop
    split_ifs with hexact
    · exact ⟨hbest, hreached⟩
    have hstart : Approximating groups target
        { s with vfIncluded := List.replicate groups.length false, nTotal := 0, fReachedTarget := false } :=
      ⟨by simp, by simp [total, pick_replicate_false], hbest, hreached⟩
    have hfirst := hstart.pass rand (place ++ [iterations]) 0 (fun _ => rfl)
    have hrepetition : Approximating groups target
        (subsetRepetition rand (place ++ [iterations]) groups target s) := by
      unfold subsetRepetition
      dsimp only
      split_ifs
      · exact hfirst
      · exact hfirst.pass rand _ 1 (fun h => absurd h one_ne_zero)
    exact ih hrepetition.best hrepetition.reached

lemma approximateBestSubset_spec (htarget : target ≤ groupsValue groups) :
    let best := approximateBestSubset rand place groups (groupsValue groups) target
    best.2 = groupsValue (pick best.1 groups) ∧ target ≤ best.2 := by
  have hall : groupsValue groups = total m_value (List.replicate groups.length true) groups := by
    rw [total, pick_replicate_true, groupsValue]
  exact subsetLoop_spec rand place 1000 (s := ⟨[], 0, false, List.replicate groups.length true, groupsValue groups⟩)
    hall htarget

end Approximation

lemma MIN_CHANGE_pos : 0 < MIN_CHANGE := by decide

def smallerGroups (target : Int) (groups : List OutputGroup) : List OutputGroup :=
  groups.filter (fun group => group.m_value < target + MIN_CHANGE)

structure Scanned (seen : List OutputGroup) (target : Int) (s : KnapsackScan) : Prop where
  applicable : s.applicable_groups = smallerGroups target seen
  counted : s.nTotalLower = groupsValue (smallerGroups target seen)
  larger : ∀ group, s.lowest_larger = some group → group ∈ seen ∧ target + MIN_CHANGE ≤ group.m_value
  smaller : s.lowest_larger = none → ∀ group ∈ seen, group.m_value < target + MIN_CHANGE

lemma Scanned.setApplicable (hs : Scanned seen target s) (hsmall : group.m_value < target + MIN_CHANGE) :
    Scanned (seen ++ [group]) target
      { s with applicable_groups := s.applicable_groups ++ [group], nTotalLower := s.nTotalLower + group.m_value } where
  applicable := by simp [smallerGroups, hs.applicable, hsmall]
  counted := by simp [smallerGroups, groupsValue, hs.counted, hsmall]
  larger g hg := ⟨mem_append_left _ (hs.larger g hg).1, (hs.larger g hg).2⟩
  smaller h := forall_mem_append.mpr ⟨hs.smaller h, by simpa using hsmall⟩

lemma Scanned.keepLarger {lowest : OutputGroup} (hs : Scanned seen target s)
    (hlarge : ¬group.m_value < target + MIN_CHANGE) (hmem : lowest ∈ seen ++ [group])
    (hlowest : target + MIN_CHANGE ≤ lowest.m_value) :
    Scanned (seen ++ [group]) target { s with lowest_larger := some lowest } where
  applicable := by simp [smallerGroups, hs.applicable, hlarge]
  counted := by simp [smallerGroups, hs.counted, hlarge]
  larger g hg := by
    cases hg
    exact ⟨hmem, hlowest⟩
  smaller h := nomatch h

/-- What the loop over the groups ends with: the first one of the target's value, or all of them sorted out. -/
lemma Scanned.scan (hs : Scanned seen target s) :
    match knapsackScan target s groups with
    | .inl group => group ∈ groups ∧ group.m_value = target
    | .inr s' => Scanned (seen ++ groups) target s' := by
  induction groups generalizing seen s with
  | nil => simpa [knapsackScan] using hs
  | cons first groups ih =>
    have hnext : ∀ {s' : KnapsackScan}, Scanned (seen ++ [first]) target s' →
        match knapsackScan target s' groups with
        | .inl group => group ∈ first :: groups ∧ group.m_value = target
        | .inr s' => Scanned (seen ++ first :: groups) target s' := by
      intro s' hs'
      have hrest := ih hs'
      split at hrest
      · exact ⟨mem_cons_of_mem _ hrest.1, hrest.2⟩
      · simpa using hrest
    unfold knapsackScan
    split_ifs with hexact hsmall
    · exact ⟨mem_cons_self, hexact⟩
    · exact hnext (hs.setApplicable hsmall)
    have hfirst := hs.keepLarger hsmall (mem_append_right seen mem_cons_self) (not_lt.mp hsmall)
    cases hlowest : s.lowest_larger with
    | none => exact hnext hfirst
    | some lowest =>
      dsimp only
      split_ifs
      · exact hnext hfirst
      · obtain ⟨hmem, hlarge⟩ := hs.larger lowest hlowest
        have hkept := hs.keepLarger hsmall (mem_append_left _ hmem) hlarge
        exact hnext (by rwa [← hlowest] at hkept)

lemma scan_shuffled (rand : Randomness) (place : List Nat) (target : Int) (groups : List OutputGroup) :
    match knapsackScan target {} (rand.shuffle place groups) with
    | .inl group => group ∈ rand.shuffle place groups ∧ group.m_value = target
    | .inr s => Scanned (rand.shuffle place groups) target s := by
  have hstart : Scanned [] target {} := ⟨rfl, rfl, by simp, by simp⟩
  exact hstart.scan

/-- A selection of whole groups that reaches the target, and leaves less than `MIN_CHANGE` over only if no
larger group and not enough smaller ones are there. -/
structure Suits (groups : List OutputGroup) (target : Int) (chosen : List OutputGroup) : Prop where
  subperm : chosen.Subperm groups
  reached : target ≤ groupsValue chosen
  change : target < groupsValue chosen → groupsValue chosen < target + MIN_CHANGE →
    (∀ group ∈ groups, group.m_value < target + MIN_CHANGE) ∧
      groupsValue (smallerGroups target groups) < target + MIN_CHANGE

lemma Suits.single (hmem : group ∈ groups)
    (hvalue : group.m_value = target ∨ target + MIN_CHANGE ≤ group.m_value) : Suits groups target [group] := by
  have hsingle : groupsValue [group] = group.m_value := by simp [groupsValue]
  have := MIN_CHANGE_pos
  exact ⟨singleton_subperm_iff.mpr hmem, by omega, fun _ _ => by omega⟩

lemma Suits.perm {groups' chosen : List OutputGroup} (h : Suits groups target chosen) (hperm : groups.Perm groups') :
    Suits groups' target chosen where
  subperm := h.subperm.trans hperm.subperm
  reached := h.reached
  change hmore hless := by
    obtain ⟨hsmall, htotal⟩ := h.change hmore hless
    refine ⟨fun group hgroup => hsmall group (hperm.mem_iff.mpr hgroup), ?_⟩
    exact lt_of_eq_of_lt ((hperm.filter _).map _).sum_eq.symm htotal

lemma knapsackBest_spec (rand : Randomness) (place : List Nat)
    (htotal : s.nTotalLower = groupsValue (sortDescending s.applicable_groups))
    (htarget : target ≤ s.nTotalLower) :
    let best := knapsackBest rand place target s
    best.2 = groupsValue (pick best.1 (sortDescending s.applicable_groups)) ∧ target ≤ best.2 ∧
      (target < best.2 → best.2 < target + MIN_CHANGE → s.nTotalLower < target + MIN_CHANGE) := by
  have := MIN_CHANGE_pos
  unfold knapsackBest
  dsimp only
  rw [htotal] at htarget ⊢
  split_ifs with hagain
  · obtain ⟨hvalue, hreached⟩ := approximateBestSubset_spec rand (place ++ [1]) hagain.2
    exact ⟨hvalue, by omega, by omega⟩
  · obtain ⟨hvalue, hreached⟩ := approximateBestSubset_spec rand (place ++ [0]) htarget
    exact ⟨hvalue, hreached, by omega⟩

lemma knapsackApproximate_spec (rand : Randomness) (place : List Nat) (hs : Scanned groups target s)
    (htarget : target ≤ s.nTotalLower) :
    ∃ chosen, Suits groups target chosen ∧ knapsackApproximate rand place target s = solutionOf chosen := by
  have hperm : (sortDescending s.applicable_groups).Perm (smallerGroups target groups) :=
    hs.applicable ▸ perm_insertionSort _ _
  have htotal : s.nTotalLower = groupsValue (sortDescending s.applicable_groups) :=
    hs.counted.trans (hperm.map _).sum_eq.symm
  obtain ⟨hvalue, hreached, hchange⟩ := knapsackBest_spec rand place htotal htarget
  have hsub : (pick (knapsackBest rand place target s).1 (sortDescending s.applicable_groups)).Subperm groups :=
    ((pick_sublist _ _).subperm.trans hperm.subperm).trans filter_sublist.subperm
  unfold knapsackApproximate
  dsimp only
  cases hlowest : s.lowest_larger with
  | none =>
    refine ⟨_, ⟨hsub, hvalue ▸ hreached, fun hmore hless => ⟨hs.smaller hlowest, ?_⟩⟩, rfl⟩
    rw [← hvalue] at hmore hless
    exact hs.counted ▸ hchange hmore hless
  | some lowest =>
    dsimp only
    split_ifs with hcloser
    · obtain ⟨hmem, hlarge⟩ := hs.larger lowest hlowest
      exact ⟨[lowest], .single hmem (.inr hlarge), rfl⟩
    · refine ⟨_, ⟨hsub, hvalue ▸ hreached, fun hmore hless => ?_⟩, rfl⟩
      rw [← hvalue] at hmore hless
      exact absurd (.inl ⟨hmore.ne', hless⟩) hcloser

lemma knapsackSolver_eq_some {s : Solution}
    (h : knapsackSolver rand place target groups = some s) :
    ∃ chosen, Suits groups target chosen ∧ s = solutionOf chosen := by
  have hperm := rand.shuffle_perm place groups
  suffices hchosen : ∃ chosen, Suits (rand.shuffle place groups) target chosen ∧ s = solutionOf chosen by
    obtain ⟨chosen, hsuits, heq⟩ := hchosen
    exact ⟨chosen, hsuits.perm hperm, heq⟩
  have hscanned := scan_shuffled rand place target groups
  unfold knapsackSolver at h
  split at h
  · rename_i group hscan
    rw [hscan] at hscanned
    exact ⟨[group], .single hscanned.1 (.inl hscanned.2), (Option.some.inj h).symm⟩
  rename_i scan hscan
  rw [hscan] at hscanned
  dsimp only at hscanned
  have hcounted := hscanned.counted
  split_ifs at h with hexact hshort
  · refine ⟨smallerGroups target (rand.shuffle place groups), ⟨filter_sublist.subperm, by omega, by omega⟩, ?_⟩
    rw [← Option.some.inj h, hscanned.applicable]
  · obtain ⟨lowest, hlowest, rfl⟩ := Option.map_eq_some_iff.mp h
    obtain ⟨hmem, hlarge⟩ := hscanned.larger lowest hlowest
    exact ⟨[lowest], .single hmem (.inr hlarge), rfl⟩
  · obtain ⟨chosen, hsuits, heq⟩ := knapsackApproximate_spec rand place hscanned (by omega)
    exact ⟨chosen, hsuits, (Option.some.inj h).symm.trans heq⟩

lemma knapsackSolver_eq_none
    (h : knapsackSolver rand place target groups = none) : groupsValue groups < target := by
  have hscanned := scan_shuffled rand place target groups
  unfold knapsackSolver at h
  split at h
  · cases h
  rename_i scan hscan
  rw [hscan] at hscanned
  dsimp only at hscanned
  split_ifs at h with hexact hshort
  have hsmall := hscanned.smaller (Option.map_eq_none_iff.mp h)
  have hall : smallerGroups target (rand.shuffle place groups) = rand.shuffle place groups :=
    filter_eq_self.mpr (fun group hgroup => decide_eq_true (hsmall group hgroup))
  have hperm : groupsValue (rand.shuffle place groups) = groupsValue groups :=
    ((rand.shuffle_perm place groups).map _).sum_eq
  rw [hscanned.counted, hall, hperm] at hshort
  exact hshort

lemma knapsackSolver_solves {s : Solution}
    (hdistinct : Distinct (groupCoins groups)) (hcounted : ∀ group ∈ groups, Counted group)
    (h : knapsackSolver rand place target groups = some s) :
    Solves (groupCoins groups) target s := by
  obtain ⟨chosen, hsuits, rfl⟩ := knapsackSolver_eq_some h
  exact solves_of_subperm hdistinct hcounted hsuits.subperm hsuits.reached

lemma groupsValue_le (hpositive : ∀ group ∈ groups, 0 < group.m_value)
    (hsub : chosen.Subperm groups) : groupsValue chosen ≤ groupsValue groups := by
  obtain ⟨l, hperm, hsublist⟩ := hsub
  have heq : groupsValue chosen = groupsValue l := (hperm.map _).sum_eq.symm
  rw [heq]
  refine (hsublist.map m_value).sum_le_sum (fun value hvalue => ?_)
  obtain ⟨group, hgroup, rfl⟩ := mem_map.mp hvalue
  exact (hpositive group hgroup).le

/-- Whatever is drawn, `KnapsackSolver` succeeds exactly when the groups reach the target, and selects whole
groups; change below `MIN_CHANGE` is left only if it cannot be avoided. -/
theorem knapsackSolver_iff (rand : Randomness) (place : List Nat)
    (hpositive : ∀ group ∈ groups, 0 < group.m_value) :
    ((knapsackSolver rand place target groups).isSome ↔ target ≤ groupsValue groups) ∧
      ∀ s, knapsackSolver rand place target groups = some s →
        ∃ chosen, chosen.Subperm groups ∧ s.1 = insertCoins [] (groupCoins chosen) ∧ s.2 = groupsValue chosen ∧
          target ≤ s.2 ∧
          (target < s.2 → s.2 < target + MIN_CHANGE →
            (∀ group ∈ groups, group.m_value < target + MIN_CHANGE) ∧
              groupsValue (groups.filter (fun group => group.m_value < target + MIN_CHANGE)) <
                target + MIN_CHANGE) := by
  refine ⟨⟨fun hsome => ?_, fun htotal => ?_⟩, fun s h => ?_⟩
  · obtain ⟨s, h⟩ := Option.isSome_iff_exists.mp hsome
    obtain ⟨chosen, hsuits, -⟩ := knapsackSolver_eq_some h
    exact hsuits.reached.trans (groupsValue_le hpositive hsuits.subperm)
  · by_contra hnone
    have hshort := knapsackSolver_eq_none (Option.not_isSome_iff_eq_none.mp hnone)
    omega
  · obtain ⟨chosen, hsuits, rfl⟩ := knapsackSolver_eq_some h
    rw [solutionOf_insertCoins]
    exact ⟨chosen, hsuits.subperm, rfl, rfl, hsuits.reached, hsuits.change⟩

def exampleRandomness : Randomness where
  shuffle := fun _ xs => xs
  shuffle_perm := fun _ xs => List.Perm.refl xs
  randbool := fun _ => true
  getRandInt := fun _ _ => 0
  getRandInt_lt := fun _ _ h => h

/-- Groups of two coins each, with these amounts in units of the least change. -/
def coinGroups (amounts : List Nat) : List OutputGroup :=
  amounts.map fun n =>
    { m_outputs := [⟨⟨n, 0⟩, ⟨MIN_CHANGE, [], -10⟩, -1⟩, ⟨⟨n, 1⟩, ⟨(n - 1) * MIN_CHANGE, [], -10⟩, -1⟩]
      m_value := n * MIN_CHANGE
      effective_value := n * MIN_CHANGE }

/-- The random passes find two of four groups. -/
theorem knapsackSolver_iff_subset :
    knapsackSolver exampleRandomness [] (6 * MIN_CHANGE) (coinGroups [2, 3, 4, 9]) =
        some (groupCoins (coinGroups [4, 2]), 6 * MIN_CHANGE) ∧
      6 * MIN_CHANGE ≤ groupsValue (coinGroups [2, 3, 4, 9]) ∧
      ∃ chosen, chosen.Subperm (coinGroups [2, 3, 4, 9]) ∧
        groupCoins (coinGroups [4, 2]) = insertCoins [] (groupCoins chosen) ∧ 6 * MIN_CHANGE = groupsValue chosen := by
  have hpositive : ∀ group ∈ coinGroups [2, 3, 4, 9], 0 < group.m_value := by decide
  have hsolved : knapsackSolver exampleRandomness [] (6 * MIN_CHANGE) (coinGroups [2, 3, 4, 9]) =
      some (groupCoins (coinGroups [4, 2]), 6 * MIN_CHANGE) := by decide +kernel
  have htotal := (knapsackSolver_iff exampleRandomness [] hpositive).1.mp (Option.isSome_of_eq_some hsolved)
  obtain ⟨chosen, hsub, hcoins, hvalue, -⟩ := (knapsackSolver_iff exampleRandomness [] hpositive).2 _ hsolved
  exact ⟨hsolved, htotal, chosen, hsub, hcoins, hvalue⟩

end Qstees.Proofs
