import Qstees.Proofs.Scan

/-!
# Incremental builds against a full scan

The maps a run of builds leaves are described by the blocks alone: which registrations and which
payments they hold. A full scan of the same chain has the same description.
-/

namespace Qstees.Proofs

open Replay

section Description

variable (E : InfinityEnv) (C : Chain)

def RegisteredIn (a b : Int) (o : COutPoint) (inf : CInfinitynode) : Prop :=
  inf.vinBurnFund = o ∧ a ≤ inf.nHeight ∧ inf.nHeight < b ∧ Event.register inf ∈ blockEvents E C inf.nHeight

/-- The list holds what the blocks up to `h` register. -/
structure ListOk (h : Int) (s : InfinityState) : Prop where
  begin_le : E.params.nInfinityNodeBeginHeight ≤ h
  reach : h ≤ C.height
  low_pos : 0 < fullScanLow E
  low_le : fullScanLow E ≤ h - INF_MATURED_LIMIT
  clean : ∀ x, fullScanLow E ≤ x → x ≤ h → Event.abort ∉ blockEvents E C x
  scanned : s.infnodeman.nLastScanHeight = h - INF_MATURED_LIMIT
  nodes : ∀ o inf, regs s.infnodeman o = some inf ↔ RegisteredIn E C (fullScanLow E) (h - INF_MATURED_LIMIT) o inf
  nonMatured : ∀ o inf, pending s.infnodeman o = some inf ↔ RegisteredIn E C (h - INF_MATURED_LIMIT) (h + 1) o inf
  rewards : RewardsOk s.infnodeman

def paidFrom (h : Int) : Int := h - lastPaidScanDeepth E h

/-- The last payments: each is a payment of the chain, and none from `paidFrom` on is missed. -/
structure PaidOk (h : Int) (s : InfinityState) : Prop where
  sound : ∀ (p : CScript) y, s.infnodeman.mapLastPaid[p]? = some y →
    fullScanLow E ≤ y ∧ y ≤ h ∧ Event.paid p y ∈ blockEvents E C y
  complete : ∀ p y, fullScanLow E ≤ y → paidFrom E h ≤ y → y ≤ h → Event.paid p y ∈ blockEvents E C y →
    ∃ z, y ≤ z ∧ s.infnodeman.mapLastPaid[p]? = some z

end Description

variable {E : InfinityEnv} {C : Chain} {h low : Int} {s s' : InfinityState}

variable {a b : Int × InfinityState} {o : COutPoint} {inf : CInfinitynode} {p : CScript}
  {y h' : Int}

lemma RegisteredIn.unique (hC : UniqueTxids C) {a b a' b' : Int} {inf' : CInfinitynode}
    (h : RegisteredIn E C a b o inf) (h' : RegisteredIn E C a' b' o inf') : inf = inf' :=
  register_unique hC h.2.2.2 h'.2.2.2 (h.1.trans h'.1.symm)

lemma registeredIn_join {a b c : Int} (hab : a ≤ b) (hbc : b ≤ c) :
    (RegisteredIn E C a b o inf ∨ RegisteredIn E C b c o inf) ↔ RegisteredIn E C a c o inf := by
  unfold RegisteredIn
  constructor
  · rintro (⟨ho, ha, hb, hreg⟩ | ⟨ho, hb, hc, hreg⟩)
    · exact ⟨ho, ha, by omega, hreg⟩
    · exact ⟨ho, by omega, hc, hreg⟩
  · rintro ⟨ho, ha, hc, hreg⟩
    by_cases hb : inf.nHeight < b
    · exact .inl ⟨ho, ha, hb, hreg⟩
    · exact .inr ⟨ho, not_lt.mp hb, hc, hreg⟩

lemma register_mem_scanEvents (hpos : 0 < low) :
    Event.register inf ∈ scanEvents E C h low ↔
      low ≤ inf.nHeight ∧ inf.nHeight ≤ h ∧ Event.register inf ∈ blockEvents E C inf.nHeight := by
  rw [mem_scanEvents]
  constructor
  · rintro (⟨x, hlow, hx, hreg⟩ | ⟨-, habort⟩)
    · rw [(registered_of_mem hreg).1]
      exact ⟨by omega, hx, hreg⟩
    · cases habort
  · rintro ⟨hlow, hx, hreg⟩
    exact .inl ⟨inf.nHeight, by omega, hx, hreg⟩

lemma told_matured (hpos : 0 < low) :
    (∃ e ∈ scanEvents E C h low, maturedTells h o e = some inf) ↔
      RegisteredIn E C low (h - INF_MATURED_LIMIT) o inf := by
  constructor
  · rintro ⟨e, he, htells⟩
    cases e with
    | register inf' =>
      obtain ⟨hlow, -, hreg⟩ := (register_mem_scanEvents hpos).mp he
      obtain ⟨⟨ho, hm⟩, hinf⟩ := Option.ite_none_right_eq_some.mp htells
      obtain rfl : inf' = inf := (registered_of_mem hreg).2.symm.trans (Option.some.inj hinf)
      exact ⟨ho, hlow, hm, hreg⟩
    | _ => cases htells
  · rintro ⟨ho, hlow, hm, hreg⟩
    have hle : inf.nHeight ≤ h := by unfold INF_MATURED_LIMIT at hm; omega
    refine ⟨.register inf, (register_mem_scanEvents hpos).mpr ⟨hlow, hle, hreg⟩, ?_⟩
    simp only [maturedTells, ho, hm, true_and, if_true, (registered_of_mem hreg).2]

lemma told_pending (hpos : 0 < low) (hlow : low ≤ h - INF_MATURED_LIMIT) :
    (∃ e ∈ scanEvents E C h low, pendingTells h o e = some inf) ↔
      RegisteredIn E C (h - INF_MATURED_LIMIT) (h + 1) o inf := by
  have hstamp : ∀ {inf' : CInfinitynode} {x : Int}, Event.register inf' ∈ blockEvents E C x →
    unstamped inf' = inf' := by
    intro inf' x hreg
    conv_lhs => rw [← (registered_of_mem hreg).2]
    conv_rhs => rw [← (registered_of_mem hreg).2]
    rfl
  constructor
  · rintro ⟨e, he, htells⟩
    cases e with
    | register inf' =>
      obtain ⟨-, hle, hreg⟩ := (register_mem_scanEvents hpos).mp he
      obtain ⟨⟨ho, hm⟩, hinf⟩ := Option.ite_none_right_eq_some.mp htells
      obtain rfl : inf' = inf := (hstamp hreg).symm.trans (Option.some.inj hinf)
      exact ⟨ho, not_lt.mp hm, by omega, hreg⟩
    | _ => cases htells
  · rintro ⟨ho, hm, hle, hreg⟩
    refine ⟨.register inf, (register_mem_scanEvents hpos).mpr ⟨by omega, by omega, hreg⟩, ?_⟩
    simp only [pendingTells, ho, not_lt.mpr hm, not_false_eq_true, true_and, if_true, hstamp hreg]

lemma told_paid (hpos : 0 < low) :
    (∃ e ∈ scanEvents E C h low, paidTells E h p e = some y) ↔
      low ≤ y ∧ y ≤ h ∧ paidFrom E h ≤ y ∧ Event.paid p y ∈ blockEvents E C y := by
  constructor
  · rintro ⟨e, he, htells⟩
    cases e with
    | paid q z =>
      obtain ⟨⟨rfl, hfrom⟩, hz⟩ := Option.ite_none_right_eq_some.mp htells
      cases hz
      rcases mem_scanEvents.mp he with ⟨x, hlow, hx, hpaid⟩ | ⟨-, habort⟩
      · obtain rfl := paid_mem_blockEvents hpaid
        exact ⟨by omega, hx, hfrom, hpaid⟩
      · cases habort
    | _ => cases htells
  · rintro ⟨hlow, hy, hfrom, hpaid⟩
    refine ⟨.paid p y, mem_scanEvents.mpr (.inl ⟨y, by omega, hy, hpaid⟩), ?_⟩
    exact Option.ite_none_right_eq_some.mpr ⟨⟨rfl, hfrom⟩, rfl⟩

lemma ScannedFrom.low_pos (hs : ScannedFrom E C h low s s') : 0 < low := (clean_scanEvents hs.clean).1

lemma ScannedFrom.nodes_iff (hC : UniqueTxids C) (hs : ScannedFrom E C h low s s') {a : Int} (ha : a ≤ low)
    (hlow : low ≤ h - INF_MATURED_LIMIT)
    (hnodes : ∀ o inf, regs s.infnodeman o = some inf ↔ RegisteredIn E C a low o inf) (o : COutPoint)
    (inf : CInfinitynode) :
    regs s'.infnodeman o = some inf ↔ RegisteredIn E C a (h - INF_MATURED_LIMIT) o inf := by
  rw [hs.nodes]
  refine replay_eq_some_iff picks_firstWins (fun w => ?_) (RegisteredIn.unique hC)
  rw [hnodes, told_matured hs.low_pos, registeredIn_join ha hlow]

lemma ScannedFrom.nonMatured_iff (hC : UniqueTxids C) (hs : ScannedFrom E C h low s s')
    (hlow : low ≤ h - INF_MATURED_LIMIT) (hempty : ∀ o, pending s.infnodeman o = none) (o : COutPoint)
    (inf : CInfinitynode) :
    pending s'.infnodeman o = some inf ↔ RegisteredIn E C (h - INF_MATURED_LIMIT) (h + 1) o inf := by
  rw [hs.nonMatured]
  refine replay_eq_some_iff picks_lastWins (fun w => ?_) (RegisteredIn.unique hC)
  rw [hempty, told_pending hs.low_pos hlow]
  simp

lemma ScannedFrom.paid_cases (hs : ScannedFrom E C h low s s')
    (hy : s'.infnodeman.mapLastPaid[p]? = some y) :
    s.infnodeman.mapLastPaid[p]? = some y ∨
      (low ≤ y ∧ y ≤ h ∧ paidFrom E h ≤ y ∧ Event.paid p y ∈ blockEvents E C y) := by
  rw [hs.paid] at hy
  exact (mem_of_replay picks_newestWins hy).imp_right (told_paid hs.low_pos).mp

lemma ScannedFrom.paid_ge (hs : ScannedFrom E C h low s s') (hlow : low ≤ y) (hy : y ≤ h)
    (hfrom : paidFrom E h ≤ y) (hpaid : Event.paid p y ∈ blockEvents E C y) :
    ∃ z, y ≤ z ∧ s'.infnodeman.mapLastPaid[p]? = some z := by
  obtain ⟨e, he, htells⟩ := (told_paid hs.low_pos).mpr ⟨hlow, hy, hfrom, hpaid⟩
  rw [hs.paid]
  exact replay_newestWins_ge (.inr ⟨e, he, htells⟩)

lemma ScannedFrom.paid_kept (hs : ScannedFrom E C h low s s')
    (hy : ∃ z, y ≤ z ∧ s.infnodeman.mapLastPaid[p]? = some z) :
    ∃ z, y ≤ z ∧ s'.infnodeman.mapLastPaid[p]? = some z := by
  obtain ⟨z, hyz, hz⟩ := hy
  obtain ⟨w, hzw, hw⟩ := replay_newestWins_ge (.inl hz)
  exact ⟨w, hyz.trans hzw, (hs.paid p).trans hw⟩

variable {now nLow : Int}

lemma regs_reset : regs s.reset.infnodeman o = none := rfl

lemma pending_prepareScan (E : InfinityEnv) (nLow : Int) (s : InfinityState) (o : COutPoint) :
    pending (prepareScan E nLow s).1.infnodeman o = none := by
  unfold prepareScan
  split_ifs <;> rfl

lemma listOk_full (hC : UniqueTxids C) (hbegin : E.params.nInfinityNodeBeginHeight ≤ h)
    (hlow : fullScanLow E ≤ h - INF_MATURED_LIMIT) (hfull : nLow = E.params.nInfinityNodeBeginHeight)
    (hbuild : buildInfinitynodeList E C now h nLow s = (true, s')) :
    ListOk E C h s' ∧ PaidOk E C h s' ∧ ∀ (p : CScript) y, s'.infnodeman.mapLastPaid[p]? = some y →
      paidFrom E h ≤ y := by
  have hs := scannedFrom_of_build hbegin hbuild
  have hpending := pending_prepareScan E nLow s
  have hprep : (prepareScan E nLow s).2 = fullScanLow E := by simp [prepareScan, hfull]
  have hregs : ∀ o, regs (prepareScan E nLow s).1.infnodeman o = none := by
    intro o
    simp [prepareScan, hfull, regs_reset]
  have hpaid : ∀ p : CScript, (prepareScan E nLow s).1.infnodeman.mapLastPaid[p]? = none := by
    intro p
    simp [prepareScan, hfull, InfinityState.reset, CInfinitynodeMan.clear]
  have hunpaid : UnpaidOk (prepareScan E nLow s).1.infnodeman := by
    intro o inf hinf
    have hnone := hregs o
    simp [regs, hinf] at hnone
  rw [hprep] at hs
  have hnodes : ∀ o inf, regs (prepareScan E nLow s).1.infnodeman o = some inf ↔
      RegisteredIn E C (fullScanLow E) (fullScanLow E) o inf := by
    intro o inf
    rw [hregs]
    constructor
    · intro h
      cases h
    · rintro ⟨_, hge, hlt, _⟩
      exact absurd hlt (not_lt.mpr hge)
  have hcases := fun (p : CScript) y hy => (hs.paid_cases (p := p) (y := y) hy).resolve_left (by simp [hpaid])
  refine ⟨⟨hbegin, hs.reach, hs.low_pos, hlow, (clean_scanEvents hs.clean).2, hs.scanned,
    hs.nodes_iff hC le_rfl hlow hnodes, hs.nonMatured_iff hC hlow hpending, hs.rewards hunpaid⟩, ⟨?_, ?_⟩, ?_⟩
  · intro p y hy
    obtain ⟨hge, hle, -, hpaid⟩ := hcases p y hy
    exact ⟨hge, hle, hpaid⟩
  · intro p y hge hfrom hle hpaid
    exact hs.paid_ge hge hle hfrom hpaid
  · intro p y hy
    exact (hcases p y hy).2.2.1

lemma prepareScan_incremental (hinc : nLow ≠ E.params.nInfinityNodeBeginHeight) :
    prepareScan E nLow s =
      ({ s with infnodeman := { s.infnodeman with mapInfinitynodesNonMatured := .empty } },
        s.infnodeman.nLastScanHeight) := by
  simp [prepareScan, hinc]

lemma paidFrom_mono (hlow : 0 < low) (hh : h ≤ h') (hside : h' < 350000 ∨ 350000 ≤ h) :
    max low (paidFrom E h) ≤ max low (paidFrom E h') := by
  have hclip : ∀ deepth : Int, max low (h - if deepth > h then h - 1 else deepth) ≤
      max low (h' - if deepth > h' then h' - 1 else deepth) := by
    intro deepth
    split_ifs <;> omega
  unfold paidFrom lastPaidScanDeepth
  rcases hside with hside | hside
  · have hbelow : ¬ h ≥ 350000 := by omega
    simp only [hbelow, not_le.mpr hside, if_false, ge_iff_le]
    exact hclip _
  · simp only [ge_iff_le, hside, hside.trans hh, if_true]
    exact hclip 800

lemma ListOk.build (hC : UniqueTxids C) (hok : ListOk E C h s) (hh : h ≤ h')
    (hbuild : buildInfinitynodeList E C now h' nLow s = (true, s')) :
    ListOk E C h' s' ∧ (h' < 350000 ∨ 350000 ≤ h → PaidOk E C h s → PaidOk E C h' s') := by
  have hbegin := hok.begin_le.trans hh
  have hlow : fullScanLow E ≤ h' - INF_MATURED_LIMIT := hok.low_le.trans (by omega)
  by_cases hfull : nLow = E.params.nInfinityNodeBeginHeight
  · obtain ⟨hlist, hpaid, -⟩ := listOk_full hC hbegin hlow hfull hbuild
    exact ⟨hlist, fun _ _ => hpaid⟩
  have hs := scannedFrom_of_build hbegin hbuild
  have hpending := pending_prepareScan E nLow s
  rw [prepareScan_incremental hfull] at hs hpending
  simp only [hok.scanned] at hs
  have hlast : h - INF_MATURED_LIMIT ≤ h' - INF_MATURED_LIMIT := by omega
  refine ⟨⟨hbegin, hs.reach, hok.low_pos, hlow, ?_, hs.scanned, hs.nodes_iff hC hok.low_le hlast hok.nodes,
    hs.nonMatured_iff hC hlast hpending, hs.rewards hok.rewards.unpaid⟩, fun hside hpaid => ⟨?_, ?_⟩⟩
  · intro x hx hle
    by_cases hlt : x ≤ h
    · exact hok.clean x hx hlt
    · exact (clean_scanEvents hs.clean).2 x (by unfold INF_MATURED_LIMIT; omega) hle
  · intro p y hy
    rcases hs.paid_cases hy with hold | ⟨hge, hle, -, hnew⟩
    · obtain ⟨hge, hle, hold⟩ := hpaid.sound p y hold
      exact ⟨hge, hle.trans hh, hold⟩
    · exact ⟨hok.low_le.trans hge, hle, hnew⟩
  · intro p y hge hfrom hle hy
    by_cases hnew : h - INF_MATURED_LIMIT ≤ y
    · exact hs.paid_ge hnew hle hfrom hy
    · have hmono := paidFrom_mono (E := E) hok.low_pos hh hside
      exact hs.paid_kept (hpaid.complete p y hge (by omega) (by unfold INF_MATURED_LIMIT at hnew; omega) hy)

/-- A step of a node whose last build was at some height. A build may be made on any chain that `C`
extends, tips only move up, and statements and ranks may be computed at any time. -/
inductive ListStep (E : InfinityEnv) (C : Chain) : Int × InfinityState → Int × InfinityState → Prop
  | build {C' : Chain} {now nLow h h' : Int} {s s' : InfinityState} (hext : ChainExtends C' C) (hh : h ≤ h')
      (hbuild : buildInfinitynodeList E C' now h' nLow s = (true, s')) : ListStep E C (h, s) (h', s')
  | tip {h nHeight : Int} {s : InfinityState} (htip : s.infnodeman.nCachedBlockHeight ≤ nHeight) :
      ListStep E C (h, s) (h, { s with infnodeman := s.infnodeman.updatedBlockTip nHeight })
  | statement (t : SinType) {h : Int} {s : InfinityState} :
      ListStep E C (h, s) (h, { s with infnodeman := s.infnodeman.deterministicRewardStatement E.params t })
  | rank (x : Int) (t : SinType) (updateList : Bool) {h : Int} {s : InfinityState} :
      ListStep E C (h, s) (h, { s with infnodeman := (s.infnodeman.calculInfinityNodeRank x t updateList).2 })

/-- A first scan, then scans and checks on growing chains. -/
def ListRun (E : InfinityEnv) (C : Chain) (h₁ : Int) (a : Int × InfinityState) : Prop :=
  ∃ C₁ now s₀ s₁, ChainExtends C₁ C ∧ initialInfinitynodeList E C₁ now h₁ s₀ = (true, s₁) ∧
    Relation.ReflTransGen (ListStep E C) (h₁, s₁) a

lemma ListStep.update {C' : Chain} (hext : ChainExtends C' C) (hh : h ≤ h')
    (hupdate : updateInfinitynodeList E C' now h' s = (true, s')) :
    ListStep E C (h, s) (h', s') := by
  unfold updateInfinitynodeList at hupdate
  split_ifs at hupdate
  · exact .build hext hh hupdate
  · simp at hupdate
  · exact .build hext hh hupdate

lemma renewStatement_steps (t : SinType) :
    Relation.ReflTransGen (ListStep E C) (h, s)
      (h, { s with infnodeman := s.infnodeman.renewStatement E.params t }) := by
  unfold CInfinitynodeMan.renewStatement
  simp only
  split_ifs
  · exact .tail (.single (.statement t)) (.rank _ t true)
  · exact .refl

def checkHeight (h : Int) (man : CInfinitynodeMan) : Int :=
  if man.nCachedBlockHeight > man.nLastScanHeight ∧ man.nLastScanHeight > 0 then man.nCachedBlockHeight else h

lemma checkAndRemove_steps {C' : Chain} (hext : ChainExtends C' C) (hlast : s.infnodeman.nLastScanHeight ≠ 0)
    (hscan : s.infnodeman.nCachedBlockHeight > s.infnodeman.nLastScanHeight → h ≤ s.infnodeman.nCachedBlockHeight ∧
      (buildInfinitynodeList E C' now s.infnodeman.nCachedBlockHeight s.infnodeman.nLastScanHeight s).1 = true) :
    Relation.ReflTransGen (ListStep E C) (h, s) (checkHeight h s.infnodeman, checkAndRemove E C' now s) := by
  have hbuild : Relation.ReflTransGen (ListStep E C) (h, s) (checkHeight h s.infnodeman, checkScan E C' now s) := by
    simp only [checkScan, checkHeight]
    split_ifs with htip
    · obtain ⟨hh, hok⟩ := hscan htip.1
      exact .single (.build hext hh (Prod.ext hok rfl))
    · exact .refl
  simp only [checkAndRemove, hlast, false_and, if_false]
  exact ((hbuild.trans (renewStatement_steps _)).trans (renewStatement_steps _)).trans (renewStatement_steps _)

/-- The maps of two managers hold the same registrations and payments. -/
structure SameList (man man' : CInfinitynodeMan) : Prop where
  nodes : ∀ o, regs man' o = regs man o
  nonMatured : man'.mapInfinitynodesNonMatured = man.mapInfinitynodesNonMatured
  paid : man'.mapLastPaid = man.mapLastPaid
  scanned : man'.nLastScanHeight = man.nLastScanHeight
  rewards : RewardsOk man → RewardsOk man'

lemma sameList_setStatements (man : CInfinitynodeMan) (stm : Statements) (t : SinType) :
    SameList man (man.setStatements stm t) := by
  cases t <;> exact ⟨fun _ => rfl, rfl, rfl, rfl, id⟩

lemma sameList_rank (man : CInfinitynodeMan) (x : Int) (t : SinType) (updateList : Bool) :
    SameList man (man.calculInfinityNodeRank x t updateList).2 := by
  refine ⟨map_registered_modify rfl (registered_newRank t (man.rankedNodes t x) updateList), rfl, rfl, rfl, ?_⟩
  intro hok o inf hinf
  obtain ⟨inf₀, hinf₀, hscript, hreward⟩ := rewards_modify rfl (fun inf => by
    unfold CInfinitynodeMan.newRank
    split_ifs <;> (try split) <;> exact ⟨rfl, rfl⟩) hinf
  rw [hscript, hreward]
  exact hok o inf₀ hinf₀

lemma ListOk.congr (hok : ListOk E C h s) (hsame : SameList s.infnodeman s'.infnodeman) : ListOk E C h s' where
  begin_le := hok.begin_le
  reach := hok.reach
  low_pos := hok.low_pos
  low_le := hok.low_le
  clean := hok.clean
  scanned := hsame.scanned.trans hok.scanned
  nodes o inf := by rw [hsame.nodes, hok.nodes]
  nonMatured o inf := by
    unfold pending
    rw [hsame.nonMatured]
    exact hok.nonMatured o inf
  rewards := hsame.rewards hok.rewards

lemma PaidOk.congr (hok : PaidOk E C h s) (hsame : SameList s.infnodeman s'.infnodeman) : PaidOk E C h s' := by
  refine ⟨?_, ?_⟩
  · rw [hsame.paid]
    exact hok.sound
  · rw [hsame.paid]
    exact hok.complete

lemma ListStep.cases_list (hstep : ListStep E C a b) :
    (∃ C' now nLow, ChainExtends C' C ∧ a.1 ≤ b.1 ∧ buildInfinitynodeList E C' now b.1 nLow a.2 = (true, b.2)) ∨
      (b.1 = a.1 ∧ SameList a.2.infnodeman b.2.infnodeman) := by
  cases hstep with
  | build hext hh hbuild => exact .inl ⟨_, _, _, hext, hh, hbuild⟩
  | tip htip => exact .inr ⟨rfl, fun _ => rfl, rfl, rfl, rfl, id⟩
  | statement t => exact .inr ⟨rfl, sameList_setStatements _ _ t⟩
  | rank x t updateList => exact .inr ⟨rfl, sameList_rank _ x t updateList⟩

lemma ListStep.height_le (hstep : ListStep E C a b) : a.1 ≤ b.1 := by
  rcases hstep.cases_list with ⟨_, _, _, -, hh, -⟩ | ⟨hh, -⟩
  · exact hh
  · exact hh.ge

lemma le_of_steps (hsteps : Relation.ReflTransGen (ListStep E C) a b) : a.1 ≤ b.1 := by
  induction hsteps with
  | refl => exact le_rfl
  | tail _ hstep ih => exact ih.trans hstep.height_le

lemma ListOk.step (hC : UniqueTxids C) (hok : ListOk E C a.1 a.2) (hstep : ListStep E C a b) :
    ListOk E C b.1 b.2 ∧ (b.1 < 350000 ∨ 350000 ≤ a.1 → PaidOk E C a.1 a.2 → PaidOk E C b.1 b.2) := by
  rcases hstep.cases_list with ⟨C', now, nLow, hext, hh, hbuild⟩ | ⟨hh, hsame⟩
  · exact hok.build hC hh (build_extends hext (hok.begin_le.trans hh) hbuild)
  · rw [hh]
    exact ⟨hok.congr hsame, fun _ hpaid => hpaid.congr hsame⟩

lemma initial_eq_true {nBlockHeight : Int} (hinit : initialInfinitynodeList E C now nBlockHeight s = (true, s')) :
    E.params.nInfinityNodeBeginHeight ≤ nBlockHeight ∧
      buildInfinitynodeList E C now nBlockHeight E.params.nInfinityNodeBeginHeight s = (true, s') := by
  unfold initialInfinitynodeList at hinit
  split_ifs at hinit with hbegin
  · simp at hinit
  · exact ⟨not_lt.mp hbegin, hinit⟩

lemma ListRun.ok {h₁ : Int} (hC : UniqueTxids C) (hlow : fullScanLow E ≤ h₁ - INF_MATURED_LIMIT)
    (hrun : ListRun E C h₁ a) :
    ListOk E C a.1 a.2 ∧ h₁ ≤ a.1 ∧ (a.1 < 350000 ∨ 350000 ≤ h₁ → PaidOk E C a.1 a.2) := by
  obtain ⟨C₁, now, s₀, s₁, hext, hinit, hsteps⟩ := hrun
  obtain ⟨hbegin, hbuild⟩ := initial_eq_true hinit
  have hfull := listOk_full hC hbegin hlow rfl (build_extends hext hbegin hbuild)
  induction hsteps with
  | refl => exact ⟨hfull.1, le_rfl, fun _ => hfull.2.1⟩
  | tail _ hstep ih =>
    obtain ⟨hok, hge, hpaid⟩ := ih
    have hle := hstep.height_le
    obtain ⟨hok', hpaid'⟩ := hok.step hC hstep
    exact ⟨hok', hge.trans hle, fun hside => hpaid' (by omega) (hpaid (by omega))⟩

lemma ListOk.fresh (hok : ListOk E C h s) (now : Int) (s₀ : InfinityState) :
    ∃ f, initialInfinitynodeList E C now h s₀ = (true, f) := by
  have hclean : Event.abort ∉ scanEvents E C h (fullScanLow E) := by
    intro habort
    rcases mem_scanEvents.mp habort with ⟨x, hlow, hle, hx⟩ | ⟨hlow, -⟩
    · exact hok.clean x (by omega) hle hx
    · exact absurd hok.low_pos (not_lt.mpr hlow)
  unfold initialInfinitynodeList
  rw [if_neg (not_lt.mpr hok.begin_le)]
  refine ⟨_, (build_eq_true_iff hok.begin_le).mpr ⟨hok.reach, ?_, rfl⟩⟩
  simpa [prepareScan] using hclean

lemma PaidOk.recent {t : InfinityState} (hs : PaidOk E C h s) (ht : PaidOk E C h t)
    (hy : s.infnodeman.mapLastPaid[p]? = some y) (hrecent : paidFrom E h ≤ y) :
    t.infnodeman.mapLastPaid[p]? = some y := by
  obtain ⟨hge, hle, hpaid⟩ := hs.sound p y hy
  obtain ⟨z, hyz, hz⟩ := ht.complete p y hge hrecent hle hpaid
  -- the other payment is one of the chain as well, and recent enough for the first to know it
  obtain ⟨hge', hle', hpaid'⟩ := ht.sound p z hz
  obtain ⟨w, hzw, hw⟩ := hs.complete p z hge' (hrecent.trans hyz) hle' hpaid'
  obtain rfl : y = w := Option.some.inj (hy.symm.trans hw)
  obtain rfl : y = z := le_antisymm hyz hzw
  exact hz

lemma PaidOk.filter {f : InfinityState} (hs : PaidOk E C h s) (hf : PaidOk E C h f)
    (hfrom : ∀ (p : CScript) y, f.infnodeman.mapLastPaid[p]? = some y → paidFrom E h ≤ y) (p : CScript) :
    f.infnodeman.mapLastPaid[p]? = (s.infnodeman.mapLastPaid[p]?).filter (fun y => decide (paidFrom E h ≤ y)) := by
  apply Option.ext
  intro y
  rw [Option.filter_eq_some_iff, decide_eq_true_eq]
  exact ⟨fun hy => ⟨hf.recent hs hy (hfrom p y hy), hfrom p y hy⟩, fun ⟨hy, hrecent⟩ => hs.recent hf hy hrecent⟩

/-- Builds at non-decreasing heights leave the registrations a full scan at the last height leaves, and
its last payments are those of the run that are recent enough for it. -/
theorem listRun_eq_fullScan {h₁ : Int} (hC : UniqueTxids C) (hlow : fullScanLow E + INF_MATURED_LIMIT ≤ h₁)
    (hrun : ListRun E C h₁ (h, s)) (now : Int) (s₀ : InfinityState) :
    ∃ f, initialInfinitynodeList E C now h s₀ = (true, f) ∧
      (∀ o, regs f.infnodeman o = regs s.infnodeman o) ∧
      (∀ o, pending f.infnodeman o = pending s.infnodeman o) ∧
      RewardsOk f.infnodeman ∧ RewardsOk s.infnodeman ∧
      (h < 350000 ∨ 350000 ≤ h₁ → ∀ p : CScript, f.infnodeman.mapLastPaid[p]? =
        (s.infnodeman.mapLastPaid[p]?).filter (fun y => decide (h - lastPaidScanDeepth E h ≤ y))) := by
  obtain ⟨hok, -, hpaid⟩ := hrun.ok hC (by omega)
  obtain ⟨f, hf⟩ := hok.fresh now s₀
  obtain ⟨hfok, hfpaid, hfrom⟩ := listOk_full hC hok.begin_le hok.low_le rfl (initial_eq_true hf).2
  refine ⟨f, hf, ?_, ?_, hfok.rewards, hok.rewards, ?_⟩
  · intro o
    exact Option.ext (fun inf => (hfok.nodes o inf).trans (hok.nodes o inf).symm)
  · intro o
    exact Option.ext (fun inf => (hfok.nonMatured o inf).trans (hok.nonMatured o inf).symm)
  · intro hside p
    exact (hpaid hside).filter hfpaid hfrom p

def exampleList : InfinityState := (initialInfinitynodeList exampleEnv exampleChain 0 160 {}).2

lemma exampleList_built : initialInfinitynodeList exampleEnv exampleChain 0 160 {} = (true, exampleList) :=
  Prod.ext (by decide +kernel) rfl

def exampleTip : InfinityState := { exampleList with infnodeman := exampleList.infnodeman.updatedBlockTip 170 }

lemma exampleTip_run :
    ListRun exampleEnv exampleChain 160 (170, checkAndRemove exampleEnv exampleChain 0 exampleTip) := by
  have htip : ListStep exampleEnv exampleChain (160, exampleList) (160, exampleTip) := .tip (by decide +kernel)
  have hheight : checkHeight 160 exampleTip.infnodeman = 170 := by decide +kernel
  have hcheck : Relation.ReflTransGen (ListStep exampleEnv exampleChain) (160, exampleTip)
      (checkHeight 160 exampleTip.infnodeman, checkAndRemove exampleEnv exampleChain 0 exampleTip) :=
    checkAndRemove_steps (.refl _) (by decide +kernel) (fun _ => by decide +kernel)
  rw [hheight] at hcheck
  exact ⟨exampleChain, 0, {}, exampleList, .refl _, exampleList_built, .head htip hcheck⟩

theorem listRun_eq_fullScan_example :
    ∃ f, initialInfinitynodeList exampleEnv exampleChain 1 170 {} = (true, f) ∧
      ∀ o, regs f.infnodeman o = regs (checkAndRemove exampleEnv exampleChain 0 exampleTip).infnodeman o := by
  obtain ⟨f, hf, hregs, -⟩ := listRun_eq_fullScan exampleChain_unique (by decide) exampleTip_run 1 {}
  exact ⟨f, hf, hregs⟩

/-- The payment at height 155 is seen by the scan at 160, kept by the next one, and out of the reach of
a full scan at 170. -/
theorem listRun_mapLastPaid_kept :
    let s := initialInfinitynodeList exampleEnv exampleChain 0 160 {}
    let s' := updateInfinitynodeList exampleEnv exampleChain 0 170 s.2
    let f := initialInfinitynodeList exampleEnv exampleChain 0 170 {}
    s.1 = true ∧ s'.1 = true ∧ f.1 = true ∧ s'.2.infnodeman.mapLastPaid[([0x51] : CScript)]? = some 155 ∧
      f.2.infnodeman.mapLastPaid[([0x51] : CScript)]? = none := by
  decide +kernel

end Qstees.Proofs
