import Qstees.Library.Traversal
import Qstees.Model.MasternodeChecks
import Qstees.Proofs.MasternodeList

/-!
# Nodes removed from the list

Of the nodes with one burn outpoint `CheckAndRemoveBurnFundNotUniqueNode` keeps the one with the least time, the first
in the list among these.
-/

namespace Qstees.Proofs

open CMasternodeMan List

variable {E : MnEnv} {ctx : MnContext} {man : CMasternodeMan} {o : COutPoint} {a b mn : CMasternode}
  {l : List CMasternode} {s : BurnFundPass}

/-- `Add` is the only function that inserts, at the outpoint of the node. -/
def NodesKeyed (mapMasternodes : StdMap COutPoint CMasternode) : Prop :=
  ∀ (o : COutPoint) (mn : CMasternode), mapMasternodes[o]? = some mn → mn.vin.prevout = o

/-- Signed earlier, or listed before. -/
def Older (a b : CMasternode) : Prop :=
  a.sigTime < b.sigTime ∨ a.sigTime = b.sigTime ∧ compare a.vin.prevout b.vin.prevout = .lt

lemma mem_nodes (hkeyed : NodesKeyed man.mapMasternodes) :
    mn ∈ man.nodes ↔ man.mapMasternodes[mn.vin.prevout]? = some mn := Traversal.mem_values_iff hkeyed

lemma nodes_ordered (hkeyed : NodesKeyed man.mapMasternodes) :
    man.nodes.Pairwise (fun a b => compare a.vin.prevout b.vin.prevout = .lt) := Traversal.values_ordered hkeyed

variable (E) in
lemma removeNodes_lookup (bans : List CMasternode) (man : CMasternodeMan) (o : COutPoint) :
    (man.removeNodes E bans).mapMasternodes[o]? =
      if o ∈ bans.map (fun pmn => pmn.vin.prevout) then none else man.mapMasternodes[o]? := by
  simp only [mem_map]
  refine Traversal.view_foldl (fun man : CMasternodeMan => man.mapMasternodes[o]?) none (fun man pmn => ?_) bans man
  by_cases ho : pmn.vin.prevout = o
  · cases hfound : man.mapMasternodes[pmn.vin.prevout]? with
    | none => simp [← ho, hfound]
    | some mn => simp [ho]
  · cases hfound : man.mapMasternodes[pmn.vin.prevout]? with
    | none => simp [ho]
    | some mn => simp [ho, Std.ExtTreeMap.getElem?_erase]

lemma NodesKeyed.removeNodes (hkeyed : NodesKeyed man.mapMasternodes) (bans : List CMasternode) :
    NodesKeyed (man.removeNodes E bans).mapMasternodes := by
  intro o mn hmn
  rw [removeNodes_lookup] at hmn
  split_ifs at hmn
  exact hkeyed o mn hmn

lemma mem_nodes_removeNodes (hkeyed : NodesKeyed man.mapMasternodes) {bans : List CMasternode}
    (hbans : ∀ pmn ∈ bans, pmn ∈ man.nodes) : mn ∈ (man.removeNodes E bans).nodes ↔ mn ∈ man.nodes ∧ mn ∉ bans := by
  rw [mem_nodes (hkeyed.removeNodes bans), mem_nodes hkeyed, removeNodes_lookup]
  split_ifs with hban
  · refine iff_of_false (fun h => nomatch h) fun ⟨hmn, hnot⟩ => ?_
    obtain ⟨pmn, hpmn, hsame⟩ := mem_map.mp hban
    have hfound := (mem_nodes hkeyed).mp (hbans pmn hpmn)
    rw [hsame, hmn] at hfound
    cases hfound
    exact hnot hpmn
  · exact (and_iff_left fun hmn => hban (mem_map_of_mem hmn)).symm

/-- The first of the nodes of `l` with the burn `b` and the least time. -/
noncomputable def holderOf (l : List CMasternode) (b : COutPoint) : Option CMasternode :=
  (l.filter (fun mn => mn.vinBurnFund.prevout = b)).argmin CMasternode.sigTime

lemma holderOf_append (b : COutPoint) :
    holderOf (l ++ [a]) b =
      if a.vinBurnFund.prevout = b then
        match holderOf l b with
        | none => some a
        | some c => if a.sigTime < c.sigTime then some a else some c
      else holderOf l b := by
  rw [holderOf, filter_append, filter_singleton]
  by_cases h : a.vinBurnFund.prevout = b
  · rw [decide_eq_true h, if_pos h, cond_true, argmin_concat, ← holderOf]
    cases holderOf l b with
    | none => rfl
    | some c => rfl
  · rw [decide_eq_false h, if_neg h, cond_false, append_nil, ← holderOf]

lemma holderOf_mem {b : COutPoint} {c : CMasternode} (h : holderOf l b = some c) :
    c ∈ l ∧ c.vinBurnFund.prevout = b := by
  simpa using mem_filter.mp (argmin_mem h)

lemma exists_holderOf (hmn : mn ∈ l) : ∃ c, holderOf l mn.vinBurnFund.prevout = some c := by
  refine Option.ne_none_iff_exists'.mp fun hnone => ?_
  have hempty := argmin_eq_none.mp hnone
  exact not_mem_nil (hempty ▸ mem_filter.mpr ⟨hmn, decide_eq_true rfl⟩)

/-- What the loop has after the nodes of `l`. -/
structure Passed (l : List CMasternode) (s : BurnFundPass) : Prop where
  holder : ∀ b, s.nBurnFundMap[b]? = holderOf l b
  banned : ∀ mn, mn ∈ s.vpMasternodesToBan ↔ mn ∈ l ∧ holderOf l mn.vinBurnFund.prevout ≠ some mn

lemma Passed.visit (h : Passed l s) (hnew : a ∉ l) : Passed (l ++ [a]) (s.visit a) := by
  have hmem : ∀ mn, mn ∈ l ++ [a] ↔ mn ∈ l ∨ mn = a := by simp
  have hlookup := h.holder a.vinBurnFund.prevout
  cases hc : holderOf l a.vinBurnFund.prevout with
  | none =>
    simp only [BurnFundPass.visit, hlookup, hc]
    refine ⟨fun b => ?_, fun mn => ?_⟩
    · by_cases hb : a.vinBurnFund.prevout = b
      · subst hb
        simp [holderOf_append, hc]
      · simp [holderOf_append, hb, Std.ExtTreeMap.getElem?_insert, h.holder]
    · rw [h.banned, hmem, holderOf_append]
      grind [exists_holderOf]
  | some c =>
    have hcm := holderOf_mem hc
    simp only [BurnFundPass.visit, hlookup, hc]
    split_ifs with htime
    · refine ⟨fun b => ?_, fun mn => ?_⟩
      · by_cases hb : a.vinBurnFund.prevout = b
        · subst hb
          simp [holderOf_append, hc, htime]
        · simp [holderOf_append, hb, hcm.2, Std.ExtTreeMap.getElem?_insert, Std.ExtTreeMap.getElem?_erase, h.holder]
      · rw [mem_append, mem_singleton, h.banned, hmem, holderOf_append]
        grind
    · refine ⟨fun b => ?_, fun mn => ?_⟩
      · rw [holderOf_append, h.holder]
        grind
      · rw [mem_append, mem_singleton, h.banned, hmem, holderOf_append]
        grind

lemma passed_nodes (hnodup : l.Nodup) : Passed l (l.foldl BurnFundPass.visit {}) := by
  induction l using List.reverseRecOn with
  | nil => exact ⟨fun b => by simp [holderOf], fun mn => by simp⟩
  | append_singleton l a ih =>
    rw [foldl_append, foldl_cons, foldl_nil]
    obtain ⟨hl, -, hdisjoint⟩ := nodup_append.mp hnodup
    exact (ih hl).visit fun ha => hdisjoint a ha a (mem_singleton_self a) rfl

lemma nodes_nodup (hkeyed : NodesKeyed man.mapMasternodes) : man.nodes.Nodup := by
  refine (nodes_ordered hkeyed).imp fun {a b} hlt heq => ?_
  subst heq
  exact absurd hlt (by simp)

lemma older_of_holderOf (hl : l.Pairwise (fun a b => compare a.vin.prevout b.vin.prevout = .lt))
    (h : holderOf l b.vinBurnFund.prevout = some a) (hb : b ∈ l) : b = a ∨ Older a b := by
  have hmem : b ∈ l.filter (fun mn => mn.vinBurnFund.prevout = b.vinBurnFund.prevout) :=
    mem_filter.mpr ⟨hb, decide_eq_true rfl⟩
  obtain ⟨ha, hleast, hfirst⟩ := argmin_eq_some_iff.mp h
  by_cases htime : a.sigTime < b.sigTime
  · exact .inr (.inl htime)
  have hidx := hfirst b hmem (not_lt.mp htime)
  rcases hidx.eq_or_lt with heq | hlt
  · exact .inl ((idxOf_inj ha).mp heq).symm
  · refine .inr (.inr ⟨le_antisymm (hleast b hmem) (not_lt.mp htime), ?_⟩)
    have hpair := pairwise_iff_getElem.mp (hl.filter _) _ _ (idxOf_lt_length_of_mem ha)
      (idxOf_lt_length_of_mem hmem) hlt
    rwa [getElem_idxOf, getElem_idxOf] at hpair

/-- A node stays if it is the one its burn is left to. -/
lemma mem_nodes_burnFund (hkeyed : NodesKeyed man.mapMasternodes) (hsync : ctx.isMasternodeListSynced = true) :
    mn ∈ (man.checkAndRemoveBurnFundNotUniqueNode E ctx).nodes ↔
      mn ∈ man.nodes ∧ holderOf man.nodes mn.vinBurnFund.prevout = some mn := by
  have hpassed := passed_nodes (nodes_nodup hkeyed)
  rw [checkAndRemoveBurnFundNotUniqueNode, hsync, Bool.not_true, if_neg Bool.false_ne_true,
    mem_nodes_removeNodes hkeyed (fun pmn hpmn => ((hpassed.banned pmn).mp hpmn).1), hpassed.banned]
  tauto

lemma NodesKeyed.insert {mapMasternodes : StdMap COutPoint CMasternode} (h : NodesKeyed mapMasternodes)
    (mn : CMasternode) :
    NodesKeyed (mapMasternodes.insert mn.vin.prevout mn) := by
  intro o mn' hmn'
  rw [Std.ExtTreeMap.getElem?_insert] at hmn'
  split_ifs at hmn' with ho
  · cases hmn'
    exact Std.LawfulEqOrd.eq_of_compare ho
  · exact h o mn' hmn'

def listedNodes (vecMasternodes : List CMasternode) : CMasternodeMan :=
  { emptyList with mapMasternodes := vecMasternodes.foldl (fun m mn => m.insert mn.vin.prevout mn) ∅ }

lemma keyed_listedNodes (vecMasternodes : List CMasternode) :
    NodesKeyed (listedNodes vecMasternodes).mapMasternodes := by
  suffices h : ∀ (m : StdMap COutPoint CMasternode), NodesKeyed m →
      NodesKeyed (vecMasternodes.foldl (fun m mn => m.insert mn.vin.prevout mn) m) from
    h ∅ (fun o mn hmn => by simp at hmn)
  induction vecMasternodes with
  | nil => exact fun m hm => hm
  | cons mn vec ih => exact fun m hm => ih _ (hm.insert mn)

/-- A node with the collateral `(n, 0)` and the burn `(burn, 0)`. -/
def nodeAt (n burn : Nat) (sigTime : Int) : CMasternode :=
  (announcement ⟨n, 0⟩ ⟨burn, 0⟩ [5] sigTime 250003).toCMasternode .enabled

/-- One node for each burn transaction, the oldest of those that shared it. -/
structure BurnFundsUnique (before after : CMasternodeMan) : Prop where
  unique : ∀ a ∈ after.nodes, ∀ b ∈ after.nodes, a.vinBurnFund.prevout = b.vinBurnFund.prevout → a = b
  kept : ∀ a ∈ before.nodes, ∃ b ∈ after.nodes, a.vinBurnFund.prevout = b.vinBurnFund.prevout
  oldest : ∀ a ∈ after.nodes, a ∈ before.nodes ∧
    ∀ b ∈ before.nodes, a.vinBurnFund.prevout = b.vinBurnFund.prevout → b = a ∨ Older a b
  unshared : ∀ a ∈ before.nodes,
    (∀ b ∈ before.nodes, a.vinBurnFund.prevout = b.vinBurnFund.prevout → b = a) → a ∈ after.nodes
  keyed : NodesKeyed after.mapMasternodes

/-- Once the list is synced, each burn transaction is left with the node that signed first. -/
theorem burnFunds_unique (hkeyed : NodesKeyed man.mapMasternodes) :
    (ctx.isMasternodeListSynced = true → BurnFundsUnique man (man.checkAndRemoveBurnFundNotUniqueNode E ctx)) ∧
      (ctx.isMasternodeListSynced = false → man.checkAndRemoveBurnFundNotUniqueNode E ctx = man) := by
  refine ⟨fun hsync => ⟨?_, ?_, ?_, ?_, ?_⟩, fun hsync => by simp [checkAndRemoveBurnFundNotUniqueNode, hsync]⟩
  · intro a ha b hb hburn
    have hholds := ((mem_nodes_burnFund hkeyed hsync).mp ha).2
    rw [hburn, ((mem_nodes_burnFund hkeyed hsync).mp hb).2] at hholds
    exact (Option.some.inj hholds).symm
  · intro a ha
    obtain ⟨c, hc⟩ := exists_holderOf ha
    obtain ⟨hcm, hburn⟩ := holderOf_mem hc
    exact ⟨c, (mem_nodes_burnFund hkeyed hsync).mpr ⟨hcm, hburn ▸ hc⟩, hburn.symm⟩
  · intro a ha
    obtain ⟨hmem, hholds⟩ := (mem_nodes_burnFund hkeyed hsync).mp ha
    exact ⟨hmem, fun b hb hburn => older_of_holderOf (nodes_ordered hkeyed) (hburn ▸ hholds) hb⟩
  · intro a ha halone
    obtain ⟨c, hc⟩ := exists_holderOf ha
    obtain ⟨hcm, hburn⟩ := holderOf_mem hc
    exact (mem_nodes_burnFund hkeyed hsync).mpr ⟨ha, halone c hcm hburn.symm ▸ hc⟩
  · rw [checkAndRemoveBurnFundNotUniqueNode, hsync]
    exact hkeyed.removeNodes _

theorem burnFunds_unique_three :
    BurnFundsUnique (listedNodes [nodeAt 7 1 50, nodeAt 8 1 40, nodeAt 9 1 40])
      ((listedNodes [nodeAt 7 1 50, nodeAt 8 1 40, nodeAt 9 1 40]).checkAndRemoveBurnFundNotUniqueNode smallMnEnv
        collateralContext) :=
  (burnFunds_unique (keyed_listedNodes _)).1 rfl

/-- Before the list is synced two nodes with one burn stay. -/
theorem burnFund_shared_unsynced :
    ¬BurnFundsUnique (listedNodes [nodeAt 7 1 50, nodeAt 8 1 40])
      ((listedNodes [nodeAt 7 1 50, nodeAt 8 1 40]).checkAndRemoveBurnFundNotUniqueNode smallMnEnv
        { collateralContext with isMasternodeListSynced := false }) := by
  intro h
  exact absurd (h.unique (nodeAt 7 1 50) (by decide +kernel) (nodeAt 8 1 40) (by decide +kernel) rfl) (by decide)

variable {nCachedBlockHeight nSinType nLimit : Int}

def tierNodes (nSinType : Int) (man : CMasternodeMan) : List CMasternode :=
  man.nodes.filter (fun mn => mn.getSinTypeInt == nSinType)

/-- What `pass` should do to the tier, and that it does nothing the second time. -/
structure TierLimited (pass : CMasternodeMan → CMasternodeMan) (nSinType nLimit : Int) (man : CMasternodeMan) :
    Prop where
  count : ((tierNodes nSinType (pass man)).length : Int) = min ((tierNodes nSinType man).length : Int) nLimit
  remain : ∀ mn ∈ tierNodes nSinType (pass man), mn ∈ tierNodes nSinType man
  oldest : ∀ mn ∈ tierNodes nSinType (pass man), ∀ mn' ∈ tierNodes nSinType man,
    mn' ∉ tierNodes nSinType (pass man) → Older mn mn'
  others : ∀ mn : CMasternode, mn.getSinTypeInt ≠ nSinType → (mn ∈ (pass man).nodes ↔ mn ∈ man.nodes)
  keyed : NodesKeyed (pass man).mapMasternodes
  again : pass (pass man) = pass man

lemma filter_zipIdx_eq_drop {α : Type} (v : List α) (n : Int) (k : Nat) :
    ((v.zipIdx k).filter (fun p => n ≤ (p.2 : Int) + 1)).map Prod.fst = v.drop (n - 1 - k).toNat := by
  induction v generalizing k with
  | nil => simp
  | cons a v ih =>
    rw [zipIdx_cons, filter_cons]
    by_cases hn : n ≤ (k : Int) + 1
    · rw [if_pos (decide_eq_true hn), map_cons, ih, show (n - 1 - k).toNat = 0 by omega,
        show (n - 1 - ((k + 1 : Nat) : Int)).toNat = 0 by omega]
      rfl
    · rw [if_neg (by simpa using hn), ih,
        show (n - 1 - k).toNat = (n - 1 - ((k + 1 : Nat) : Int)).toNat + 1 by omega, drop_succ_cons]

/-- Banning all but `k` nodes of the tier leaves these. -/
lemma length_tierNodes_removeNodes (hkeyed : NodesKeyed man.mapMasternodes) {v : List CMasternode}
    (hv : v.Perm (tierNodes nSinType man)) (k : Nat) :
    (tierNodes nSinType (man.removeNodes E (v.drop k))).length = min k v.length := by
  have hnodup : v.Nodup := hv.nodup_iff.mpr ((nodes_nodup hkeyed).filter _)
  have hmem : ∀ mn, mn ∈ v ↔ mn ∈ man.nodes ∧ (mn.getSinTypeInt == nSinType) = true :=
    fun mn => hv.mem_iff.trans mem_filter
  have hlisted : ∀ mn ∈ v.drop k, mn ∈ man.nodes := fun mn hmn => ((hmem mn).mp (mem_of_mem_drop hmn)).1
  have hdisjoint : List.Disjoint (v.take k) (v.drop k) :=
    disjoint_of_nodup_append ((take_append_drop k v).symm ▸ hnodup)
  have hperm : (tierNodes nSinType (man.removeNodes E (v.drop k))).Perm (v.take k) := by
    refine (perm_ext_iff_of_nodup ((nodes_nodup (hkeyed.removeNodes _)).filter _) hnodup.take).mpr fun mn => ?_
    rw [mem_filter, mem_nodes_removeNodes hkeyed hlisted, and_right_comm, ← hmem]
    nth_rewrite 1 [← take_append_drop k v]
    rw [mem_append, or_and_right, and_not_self_iff, or_false]
    exact and_iff_left_of_imp fun htake => hdisjoint htake
  rw [hperm.length_eq, length_take]

variable (E ctx man nSinType) in
lemma limit_pass (hlimit : limitAt E nCachedBlockHeight nLimit = nLimit) :
    ∃ v : List CMasternode, v.Perm (tierNodes nSinType man) ∧
      checkAndRemoveLimitNumberNode E ctx nCachedBlockHeight nSinType nLimit man =
        if ctx.isMasternodeListSynced = false ∨ (v.length : Int) ≤ nLimit then man
        else man.removeNodes E (v.drop (nLimit - 1).toNat) := by
  generalize hv : sortPairs ((man.nodes.filter (fun mn => mn.getSinTypeInt == nSinType)).map
    (fun mn => (mn.sigTime, mn))) = v
  refine ⟨v.map Prod.snd, ?_, ?_⟩
  · have hsorted := (perm_insertionSort (fun t1 t2 => (comparePair t1 t2).isLE)
      ((tierNodes nSinType man).map (fun mn => (mn.sigTime, mn)))).map Prod.snd
    rw [map_map, show (Prod.snd ∘ fun mn : CMasternode => (mn.sigTime, mn)) = id from rfl, map_id] at hsorted
    rw [← hv]
    exact hsorted
  · have hdrop := congrArg (List.map Prod.snd) (filter_zipIdx_eq_drop v nLimit 0)
    rw [map_map, Nat.cast_zero, Int.sub_zero, map_drop] at hdrop
    simp only [checkAndRemoveLimitNumberNode, hv, hlimit, ← hdrop, length_map]
    cases ctx.isMasternodeListSynced with
    | false => rfl
    | true => simp [Function.comp_def]

/-- The limit of a tier works as it should exactly if the tier is within it before the call. -/
theorem tierLimited_iff (hkeyed : NodesKeyed man.mapMasternodes) (hLimit : 1 ≤ nLimit)
    (hheight : nCachedBlockHeight < 330000) (htest : E.networkID = .test → nCachedBlockHeight < 1000) :
    TierLimited (checkAndRemoveLimitNumberNode E ctx nCachedBlockHeight nSinType nLimit) nSinType nLimit man ↔
      ((tierNodes nSinType man).length : Int) ≤ nLimit := by
  have hlimit : limitAt E nCachedBlockHeight nLimit = nLimit := if_neg (by
    rintro (h | ⟨h, h'⟩)
    · omega
    · exact absurd (htest h) (not_lt.mpr h'))
  obtain ⟨v, hperm, hpass⟩ := limit_pass E ctx man nSinType hlimit
  have hlength := hperm.length_eq
  constructor
  · intro h
    by_contra hmore
    have hcount := h.count
    rw [min_eq_right (not_le.mp hmore).le, hpass] at hcount
    split_ifs at hcount with hskip
    · omega
    · rw [length_tierNodes_removeNodes hkeyed hperm] at hcount
      omega
  · intro hfew
    have hsame : checkAndRemoveLimitNumberNode E ctx nCachedBlockHeight nSinType nLimit man = man := by
      rw [hpass, if_pos (.inr (hlength ▸ hfew))]
    refine ⟨?_, ?_, ?_, ?_, ?_, ?_⟩
    all_goals rw [hsame]
    · rw [min_eq_left hfew]
    · exact fun mn hmn => hmn
    · exact fun mn _ mn' hmn' hnot => absurd hmn' hnot
    · exact fun mn _ => Iff.rfl
    · exact hkeyed
    · rw [hsame]

/-- Two nodes of one tier. -/
def twoNodes : CMasternodeMan :=
  listedNodes [{ nodeAt 7 1 50 with nSinType := 1 }, { nodeAt 8 2 60 with nSinType := 1 }]

theorem tierLimited_iff_two :
    (tierNodes 1 twoNodes).length = 2 ∧
      TierLimited (checkAndRemoveLimitNumberNode smallMnEnv collateralContext 100 1 2) 1 2 twoNodes :=
  ⟨by decide +kernel,
    (tierLimited_iff (keyed_listedNodes _) (by decide) (by decide) (fun _ => by decide)).mpr (by decide +kernel)⟩

/-- Of two nodes none stays for the limit one. -/
theorem tierLimit_none_left :
    ¬TierLimited (checkAndRemoveLimitNumberNode smallMnEnv collateralContext 100 1 1) 1 1 twoNodes := by
  intro h
  exact absurd h.count (by decide +kernel)

end Qstees.Proofs
