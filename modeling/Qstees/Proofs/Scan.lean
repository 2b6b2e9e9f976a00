import Qstees.Library.Replay
import Qstees.Model.InfinitynodeMan
import Qstees.Proofs.Events

/-!
# What a scan of the chain leaves in the manager

Every event of a scan acts on a cell of the manager by a merge, so a build is a replay of the
events of the blocks it reads.
-/

namespace Qstees.Proofs

open Replay Std.ExtTreeMap CInfinitynodeMan

def unstamped (inf : CInfinitynode) : CInfinitynode := { inf with sigTime := 0 }

variable (man : CInfinitynodeMan)

def regs (o : COutPoint) : Option CInfinitynode :=
  (man.mapInfinitynodes.nodes[o]?).map registered

def pending (o : COutPoint) : Option CInfinitynode :=
  (man.mapInfinitynodesNonMatured.nodes[o]?).map unstamped

lemma map_registered_modify {m m' : NodeMap} {f : CInfinitynode → CInfinitynode}
    (hm : m'.nodes = m.nodes.map (fun _ inf => f inf))
    (hreg : ∀ inf, registered (f inf) = registered inf) (o : COutPoint) :
    (m'.nodes[o]?).map registered = (m.nodes[o]?).map registered := by
  have hcomp : registered ∘ f = registered := funext hreg
  rw [hm, getElem?_map, Option.map_map, hcomp]

lemma registered_setMetadata (owner address : String) (service : CService) (x : Int) (inf : CInfinitynode) :
    registered (setMetadata owner address service x inf) = registered inf := by
  unfold setMetadata
  split_ifs <;> rfl

lemma registered_setLastReward (paid : StdMap CScript Int) (inf : CInfinitynode) :
    registered (setLastReward paid inf) = registered inf := by
  unfold setLastReward
  split <;> rfl

lemma registered_newRank (t : SinType) (ranked : List CInfinitynode) (updateList : Bool) (inf : CInfinitynode) :
    registered (newRank t ranked updateList inf) = registered inf := by
  unfold newRank
  split_ifs <;> (try split) <;> rfl

lemma getElem?_insert_node (m : NodeMap) (inf : CInfinitynode) (o : COutPoint) :
    (m.insert inf).nodes[o]? = if inf.vinBurnFund = o then some inf else m.nodes[o]? := by
  simp [NodeMap.insert, getElem?_insert]

section Event

variable (E : InfinityEnv) (now h : Int)

def maturedTells (o : COutPoint) : Event → Option CInfinitynode
  | .register inf => if inf.vinBurnFund = o ∧ inf.nHeight < h - INF_MATURED_LIMIT then some (registered inf) else none
  | _ => none

def pendingTells (o : COutPoint) : Event → Option CInfinitynode
  | .register inf => if inf.vinBurnFund = o ∧ ¬ inf.nHeight < h - INF_MATURED_LIMIT then some (unstamped inf) else none
  | _ => none

def paidTells (p : CScript) : Event → Option Int
  | .paid q x => if q = p ∧ x ≥ h - lastPaidScanDeepth E h then some x else none
  | _ => none

lemma regs_add (inf : CInfinitynode) (o : COutPoint) :
    regs (man.add inf) o = firstWins (regs man o) (if inf.vinBurnFund = o then some (registered inf) else none) := by
  unfold CInfinitynodeMan.add regs
  split
  · next old hold =>
    by_cases heq : inf.vinBurnFund = o
    · subst heq
      simp [hold, firstWins]
    · simp [heq, firstWins]
  · next hnone =>
    rw [getElem?_insert_node]
    by_cases heq : inf.vinBurnFund = o
    · subst heq
      simp [hnone, firstWins]
    · simp [heq, firstWins]

@[simp] lemma add_nonMatured (inf : CInfinitynode) :
    (man.add inf).mapInfinitynodesNonMatured = man.mapInfinitynodesNonMatured := by
  unfold CInfinitynodeMan.add
  split <;> rfl

@[simp] lemma add_mapLastPaid (inf : CInfinitynode) :
    (man.add inf).mapLastPaid = man.mapLastPaid := by
  unfold CInfinitynodeMan.add
  split <;> rfl

@[simp] lemma addUpdateLastPaid_nodes (q : CScript) (x : Int) :
    (man.addUpdateLastPaid q x).mapInfinitynodes = man.mapInfinitynodes := by
  unfold addUpdateLastPaid
  split
  · split_ifs <;> rfl
  · rfl

@[simp] lemma addUpdateLastPaid_nonMatured (q : CScript) (x : Int) :
    (man.addUpdateLastPaid q x).mapInfinitynodesNonMatured = man.mapInfinitynodesNonMatured := by
  unfold addUpdateLastPaid
  split
  · split_ifs <;> rfl
  · rfl

lemma regs_updateMetadata (owner address : String) (service : CService) (x : Int)
    (o : COutPoint) : regs (man.updateMetadata owner address service x) o = regs man o :=
  map_registered_modify rfl (registered_setMetadata owner address service x) o

lemma regs_applyEvent (s : InfinityState) (e : Event) (o : COutPoint) :
    regs (applyEvent E now h s e).infnodeman o = firstWins (regs s.infnodeman o) (maturedTells h o e) := by
  cases e with
  | register inf =>
    by_cases hm : inf.nHeight < h - INF_MATURED_LIMIT
    · simp only [applyEvent, maturedTells, hm, if_true, and_true, regs_add]
      rfl
    · simp [applyEvent, maturedTells, hm, regs]
  | metadata owner address service x => simp [applyEvent, maturedTells, regs_updateMetadata]
  | paid p x =>
    simp only [applyEvent, maturedTells, firstWins_none, regs]
    split_ifs <;> simp
  | governanceVote vote =>
    simp only [applyEvent, maturedTells, firstWins_none]
    split_ifs <;> rfl
  | burnVote vote => simp [applyEvent, maturedTells]
  | abort => simp [applyEvent, maturedTells]

lemma pending_applyEvent (s : InfinityState) (e : Event) (o : COutPoint) :
    pending (applyEvent E now h s e).infnodeman o = lastWins (pending s.infnodeman o) (pendingTells h o e) := by
  cases e with
  | register inf =>
    by_cases hm : inf.nHeight < h - INF_MATURED_LIMIT
    · simp [applyEvent, pendingTells, pending, hm]
    · simp only [applyEvent, pendingTells, hm, if_false, not_false_eq_true, and_true, pending, getElem?_insert_node]
      split_ifs <;> rfl
  | paid p x =>
    simp only [applyEvent, pendingTells, lastWins_none, pending]
    split_ifs <;> simp
  | governanceVote vote =>
    simp only [applyEvent, pendingTells]
    split_ifs <;> rfl
  | metadata owner address service x => rfl
  | burnVote vote => rfl
  | abort => rfl

lemma addUpdateLastPaid_getElem? (q p : CScript) (x : Int) :
    (man.addUpdateLastPaid q x).mapLastPaid[p]? =
      newestWins id man.mapLastPaid[p]? (if q = p then some x else none) := by
  by_cases heq : q = p
  · subst heq
    rw [if_pos rfl]
    unfold addUpdateLastPaid
    split
    · next paid hpaid =>
      split_ifs with hlt
      · simp [hpaid, newestWins, not_le.mpr hlt]
      · simp [hpaid, newestWins, not_lt.mp hlt]
    · next hnone => simp [hnone]
  · have hother : (man.mapLastPaid.insert q x)[p]? = man.mapLastPaid[p]? := by
      simp [getElem?_insert, heq]
    rw [if_neg heq, newestWins_none_right]
    unfold addUpdateLastPaid
    split
    · split_ifs
      · exact hother
      · rfl
    · exact hother

lemma paid_applyEvent (s : InfinityState) (e : Event) (p : CScript) :
    (applyEvent E now h s e).infnodeman.mapLastPaid[p]? =
      newestWins id s.infnodeman.mapLastPaid[p]? (paidTells E h p e) := by
  cases e with
  | register inf =>
    simp only [applyEvent, paidTells, newestWins_none_right]
    split_ifs <;> simp
  | paid q x =>
    by_cases hx : x ≥ h - lastPaidScanDeepth E h
    · simp only [applyEvent, paidTells, hx, if_true, and_true, addUpdateLastPaid_getElem?]
    · simp [applyEvent, paidTells, hx]
  | governanceVote vote =>
    simp only [applyEvent, paidTells, newestWins_none_right]
    split_ifs <;> rfl
  | metadata owner address service x => simp [applyEvent, paidTells, updateMetadata]
  | burnVote vote => simp [applyEvent, paidTells]
  | abort => simp [applyEvent, paidTells]

end Event

def RewardsOk : Prop :=
  ∀ (o : COutPoint) inf, man.mapInfinitynodes.nodes[o]? = some inf →
    inf.nLastRewardHeight = (man.mapLastPaid[inf.scriptPubKey]?).getD (-1)

def UnpaidOk : Prop :=
  ∀ (o : COutPoint) inf, man.mapInfinitynodes.nodes[o]? = some inf → man.mapLastPaid[inf.scriptPubKey]? = none →
    inf.nLastRewardHeight = -1

variable {man : CInfinitynodeMan}

lemma RewardsOk.unpaid (hok : RewardsOk man) : UnpaidOk man := by
  intro o inf hinf hnone
  rw [hok o inf hinf, hnone]
  rfl

lemma UnpaidOk.updateLastPaid (hok : UnpaidOk man) : RewardsOk man.updateLastPaid := by
  intro o inf hinf
  simp only [CInfinitynodeMan.updateLastPaid, NodeMap.modify, getElem?_map] at hinf ⊢
  obtain ⟨inf₀, hinf₀, rfl⟩ := Option.map_eq_some_iff.mp hinf
  unfold setLastReward
  split
  · next paid hpaid => simp [hpaid]
  · next hnone =>
    rw [hnone]
    exact hok o inf₀ hinf₀ hnone

lemma rewards_modify {m m' : NodeMap} {f : CInfinitynode → CInfinitynode}
    (hm : m'.nodes = m.nodes.map (fun _ inf => f inf))
    (hf : ∀ inf, (f inf).scriptPubKey = inf.scriptPubKey ∧ (f inf).nLastRewardHeight = inf.nLastRewardHeight)
    {o : COutPoint} {inf : CInfinitynode} (hinf : m'.nodes[o]? = some inf) :
    ∃ inf₀, m.nodes[o]? = some inf₀ ∧ inf.scriptPubKey = inf₀.scriptPubKey ∧
      inf.nLastRewardHeight = inf₀.nLastRewardHeight := by
  rw [hm, getElem?_map] at hinf
  obtain ⟨inf₀, hinf₀, rfl⟩ := Option.map_eq_some_iff.mp hinf
  exact ⟨inf₀, hinf₀, hf inf₀⟩

lemma unpaid_add (hok : UnpaidOk man) {inf : CInfinitynode} (hinf : inf.nLastRewardHeight = -1) :
    UnpaidOk (man.add inf) := by
  unfold CInfinitynodeMan.add
  split
  · exact hok
  intro o inf' hinf' hnone
  simp only [getElem?_insert_node] at hinf'
  split_ifs at hinf' with ho
  · rw [← Option.some.inj hinf']
    exact hinf
  · exact hok o inf' hinf' hnone

lemma unpaid_applyEvent (E : InfinityEnv) (now h : Int) {s : InfinityState} (hok : UnpaidOk s.infnodeman) {e : Event}
    (he : ∀ inf, e = .register inf → registered inf = inf) : UnpaidOk (applyEvent E now h s e).infnodeman := by
  cases e with
  | register inf =>
    simp only [applyEvent]
    split_ifs
    · refine unpaid_add hok ?_
      rw [← he inf rfl]
      rfl
    · exact hok
  | metadata owner address service x =>
    intro o inf hinf hnone
    obtain ⟨inf₀, hinf₀, hscript, hreward⟩ := rewards_modify rfl (fun inf => by
      unfold setMetadata
      split_ifs <;> exact ⟨rfl, rfl⟩) hinf
    rw [hreward]
    rw [hscript] at hnone
    exact hok o inf₀ hinf₀ hnone
  | paid q x =>
    simp only [applyEvent]
    split_ifs
    · intro o inf hinf hnone
      rw [addUpdateLastPaid_nodes] at hinf
      rw [addUpdateLastPaid_getElem?] at hnone
      exact hok o inf hinf (picks_newestWins.kept _ _ hnone).1
    · exact hok
  | governanceVote vote =>
    simp only [applyEvent]
    split_ifs <;> exact hok
  | burnVote vote => exact hok
  | abort => exact hok

/-- The cached height and the statements of two managers are the same. -/
structure SameSchedule (man man' : CInfinitynodeMan) : Prop where
  cached : man'.nCachedBlockHeight = man.nCachedBlockHeight
  statements : ∀ t, man'.getStatements t = man.getStatements t

lemma sameSchedule_of_eq {man' : CInfinitynodeMan}
    (hc : man'.nCachedBlockHeight = man.nCachedBlockHeight) (hbig : man'.stmBIG = man.stmBIG)
    (hmid : man'.stmMID = man.stmMID) (hlil : man'.stmLIL = man.stmLIL) :
    SameSchedule man man' := by
  refine ⟨hc, ?_⟩
  intro t
  cases t with
  | QSTEESNODE_1 => exact hlil
  | QSTEESNODE_5 => exact hmid
  | QSTEESNODE_10 => exact hbig

section Scan

variable (E : InfinityEnv) (C : Chain) (now h : Int)

/-- An event changes nothing but the maps of nodes and payments. -/
lemma applyEvent_eq (s : InfinityState) (e : Event) : ∃ nodes nonMatured paid, (applyEvent E now h s e).infnodeman =
    { s.infnodeman with mapInfinitynodes := nodes, mapInfinitynodesNonMatured := nonMatured, mapLastPaid := paid } := by
  cases e with
  | register inf =>
    simp only [applyEvent, CInfinitynodeMan.add]
    split_ifs
    · split <;> exact ⟨_, _, _, rfl⟩
    · exact ⟨_, _, _, rfl⟩
  | paid q x =>
    simp only [applyEvent, addUpdateLastPaid]
    split_ifs
    · split
      · split_ifs <;> exact ⟨_, _, _, rfl⟩
      · exact ⟨_, _, _, rfl⟩
    · exact ⟨_, _, _, rfl⟩
  | governanceVote vote =>
    simp only [applyEvent]
    split_ifs <;> exact ⟨_, _, _, rfl⟩
  | metadata owner address service x => exact ⟨_, _, _, rfl⟩
  | burnVote vote => exact ⟨_, _, _, rfl⟩
  | abort => exact ⟨_, _, _, rfl⟩

lemma runEvents_eq (events : List Event) (s : InfinityState) :
    runEvents E now h events s = (decide (Event.abort ∉ events), (untilAbort events).foldl (applyEvent E now h) s) := by
  induction events generalizing s with
  | nil => rfl
  | cons e events ih =>
    cases e with
    | abort => simp [runEvents, untilAbort]
    | _ => simp [runEvents, untilAbort, ih]

variable {s s' : InfinityState} {nLow : Int}

lemma tells_foldl {β : Type} (view : InfinityState → Option β) {merge : Option β → Option β → Option β}
    {tells : Event → Option β} (hstep : ∀ s e, view (applyEvent E now h s e) = merge (view s) (tells e))
    (events : List Event)
    (s : InfinityState) : view (events.foldl (applyEvent E now h) s) = replay merge tells (view s) events :=
  (List.foldl_hom view (fun s e => (hstep s e).symm)).symm

lemma regs_updateLastPaid (man : CInfinitynodeMan) (o : COutPoint) : regs man.updateLastPaid o = regs man o :=
  map_registered_modify rfl (registered_setLastReward man.mapLastPaid) o

/-- A scan replays the events of its blocks on the list. -/
structure ScannedFrom (low : Int) (s s' : InfinityState) : Prop where
  reach : h ≤ C.height
  clean : Event.abort ∉ scanEvents E C h low
  nodes : ∀ o, regs s'.infnodeman o =
    replay firstWins (maturedTells h o) (regs s.infnodeman o) (scanEvents E C h low)
  nonMatured : ∀ o, pending s'.infnodeman o =
    replay lastWins (pendingTells h o) (pending s.infnodeman o) (scanEvents E C h low)
  paid : ∀ p : CScript, s'.infnodeman.mapLastPaid[p]? =
    replay (newestWins id) (paidTells E h p) s.infnodeman.mapLastPaid[p]? (scanEvents E C h low)
  rewards : UnpaidOk s.infnodeman → RewardsOk s'.infnodeman
  scanned : s'.infnodeman.nLastScanHeight = h - INF_MATURED_LIMIT

variable {E C now h}

lemma registered_of_mem_scanEvents {low : Int} {inf : CInfinitynode} (he : Event.register inf ∈ scanEvents E C h low) :
    registered inf = inf := by
  rcases mem_scanEvents.mp he with ⟨x, -, -, hreg⟩ | ⟨-, habort⟩
  · exact (registered_of_mem hreg).2
  · cases habort

lemma build_eq_foldl (hbegin : E.params.nInfinityNodeBeginHeight ≤ h) (hreach : h ≤ C.height) (now nLow : Int)
    (s : InfinityState) :
    let events := scanEvents E C h (prepareScan E nLow s).2
    let s' := (untilAbort events).foldl (applyEvent E now h) (prepareScan E nLow s).1
    buildInfinitynodeList E C now h nLow s = if Event.abort ∈ events then (false, s') else (true, finishScan h s') := by
  intro events s'
  unfold buildInfinitynodeList
  rw [if_neg (not_lt.mpr hbegin)]
  dsimp only
  rw [if_neg (not_lt.mpr hreach), runEvents_eq]
  by_cases habort : Event.abort ∈ events
  · rw [if_pos habort, decide_eq_false (not_not.mpr habort)]
  · rw [if_neg habort, decide_eq_true habort]

lemma build_eq_true_iff (hbegin : E.params.nInfinityNodeBeginHeight ≤ h) :
    buildInfinitynodeList E C now h nLow s = (true, s') ↔
      h ≤ C.height ∧ Event.abort ∉ scanEvents E C h (prepareScan E nLow s).2 ∧
        finishScan h ((scanEvents E C h (prepareScan E nLow s).2).foldl (applyEvent E now h) (prepareScan E nLow s).1) =
          s' := by
  by_cases hreach : h ≤ C.height
  · rw [build_eq_foldl hbegin hreach]
    split_ifs with habort
    · simp [habort]
    · simp [hreach, habort, untilAbort_eq_self habort]
  · simp [buildInfinitynodeList, not_lt.mpr hbegin, not_le.mp hreach, hreach]

/-- What the start and the end of a build and each of its events keep, a build keeps. -/
theorem build_invariant {P : InfinityState → Prop} (hbegin : ¬h < E.params.nInfinityNodeBeginHeight)
    (hprep : P (prepareScan E nLow s).1)
    (hstep : ∀ e ∈ scanEvents E C h (prepareScan E nLow s).2, ∀ a, P a → P (applyEvent E now h a e))
    (hfinish : ∀ a, P a → P (finishScan h a)) : P (buildInfinitynodeList E C now h nLow s).2 := by
  by_cases hreach : h ≤ C.height
  · have hrun := List.foldlRecOn (untilAbort (scanEvents E C h (prepareScan E nLow s).2)) (applyEvent E now h) hprep
      (fun a ha e he => hstep e (List.takeWhile_subset _ he) a ha)
    rw [build_eq_foldl (not_lt.mp hbegin) hreach]
    split_ifs
    · exact hrun
    · exact hfinish _ hrun
  · simpa [buildInfinitynodeList, hbegin, not_le.mp hreach] using hprep

lemma scannedFrom_of_build (hbegin : E.params.nInfinityNodeBeginHeight ≤ h)
    (hbuild : buildInfinitynodeList E C now h nLow s = (true, s')) :
    ScannedFrom E C h (prepareScan E nLow s).2 (prepareScan E nLow s).1 s' := by
  obtain ⟨hreach, hclean, rfl⟩ := (build_eq_true_iff hbegin).mp hbuild
  refine ⟨hreach, hclean, ?_, ?_, ?_, ?_, rfl⟩
  · intro o
    exact (regs_updateLastPaid _ o).trans
      (tells_foldl E now h (fun s => regs s.infnodeman o) (fun s e => regs_applyEvent E now h s e o) _ _)
  · intro o
    exact tells_foldl E now h (fun s => pending s.infnodeman o) (fun s e => pending_applyEvent E now h s e o) _ _
  · intro p
    exact tells_foldl E now h (fun s : InfinityState => s.infnodeman.mapLastPaid[p]?)
      (fun s e => paid_applyEvent E now h s e p) _ _
  · intro hok
    refine UnpaidOk.updateLastPaid (List.foldlRecOn
      (motive := fun s : InfinityState => UnpaidOk s.infnodeman) _ _ hok ?_)
    rintro s hs e he
    refine unpaid_applyEvent E now h hs ?_
    rintro inf rfl
    exact registered_of_mem_scanEvents he

lemma build_extends {C' : Chain} (hC : ChainExtends C C')
    (hbegin : E.params.nInfinityNodeBeginHeight ≤ h)
    (hbuild : buildInfinitynodeList E C now h nLow s = (true, s')) :
    buildInfinitynodeList E C' now h nLow s = (true, s') := by
  obtain ⟨hreach, hclean, hs'⟩ := (build_eq_true_iff hbegin).mp hbuild
  rw [build_eq_true_iff hbegin, scanEvents_extends hC hreach hclean]
  exact ⟨hreach.trans hC.height_le, hclean, hs'⟩

lemma sameSchedule_build (E : InfinityEnv) (C : Chain) (now h nLow : Int) (s : InfinityState) :
    SameSchedule s.infnodeman (buildInfinitynodeList E C now h nLow s).2.infnodeman := by
  by_cases hbegin : h < E.params.nInfinityNodeBeginHeight
  · rw [buildInfinitynodeList, if_pos hbegin]
    exact sameSchedule_of_eq rfl rfl rfl rfl
  refine build_invariant (P := fun a => SameSchedule s.infnodeman a.infnodeman) hbegin ?_ ?_ ?_
  · unfold prepareScan
    split_ifs <;> exact sameSchedule_of_eq rfl rfl rfl rfl
  · intro e _ a ha
    obtain ⟨nodes, nonMatured, paid, heq⟩ := applyEvent_eq E now h a e
    rw [heq]
    exact ⟨ha.cached, ha.statements⟩
  · exact fun a ha => ⟨ha.cached, ha.statements⟩

end Scan

end Qstees.Proofs
