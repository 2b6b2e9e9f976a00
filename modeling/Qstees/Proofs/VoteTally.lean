import Qstees.Model.Infinitynodersv
import Qstees.Library.Tally
import Qstees.Proofs.Scan
import Qstees.Proofs.Statements
import Qstees.Proofs.VoteStore

/-!
# The tally of a proposal

A vote weighs what the last node of its voter gives it, in the order of the outpoints; the node that was added last need
not be the one that counts, and a voter without a node weighs nothing in any mode but the public one.
-/

namespace Qstees.Proofs

open CInfinitynodeMan List

def TierNode (address : String) (inf : CInfinitynode) : Prop :=
  inf.collateralAddress = address ∧ tierWeight inf.nQSTEESType ≠ none

instance (address : String) : DecidablePred (TierNode address) := fun inf => by unfold TierNode; infer_instance

lemma tierWeight_eq_some {t w : Int} : tierWeight t = some w ↔ (t = 1 ∧ w = 2) ∨ (t = 5 ∧ w = 10) ∨
    (t = 10 ∧ w = 20) := by
  unfold tierWeight
  split_ifs <;> simp_all <;> omega

def lastTier (address : String) (nodes : List CInfinitynode) : Option Int :=
  ((nodes.filter (fun inf => TierNode address inf)).getLast?).map CInfinitynode.nQSTEESType

lemma nodeWeight_eq (address : String) (nodes : List CInfinitynode) (value : Int) :
    nodeWeight address value nodes = ((lastTier address nodes).bind tierWeight).getD value := by
  induction nodes using List.reverseRecOn with
  | nil => rfl
  | append_singleton nodes inf ih =>
    have hstep : nodeWeight address value (nodes ++ [inf]) =
        if inf.collateralAddress = address then (tierWeight inf.nQSTEESType).getD (nodeWeight address value nodes)
        else nodeWeight address value nodes := foldl_append.trans rfl
    rw [hstep]
    by_cases hnode : TierNode address inf
    · obtain ⟨w, hw⟩ := Option.ne_none_iff_exists'.mp hnode.2
      simp [lastTier, filter_append, hnode, hnode.1, hw]
    have hlast : lastTier address (nodes ++ [inf]) = lastTier address nodes := by
      simp [lastTier, filter_append, hnode]
    rw [hlast, ← ih]
    split_ifs with howner
    · have hnone : tierWeight inf.nQSTEESType = none := by
        by_contra hne
        exact hnode ⟨howner, hne⟩
      rw [hnone]
      rfl
    · rfl

/-- The node that decides the weight of an address: no node that counts for it has a greater outpoint. -/
structure LastNode (man : CInfinitynodeMan) (address : String) (inf : CInfinitynode) : Prop where
  held : man.mapInfinitynodes.nodes[inf.vinBurnFund]? = some inf
  tier : TierNode address inf
  last : ∀ (o : COutPoint) inf', man.mapInfinitynodes.nodes[o]? = some inf' → TierNode address inf' →
    compare inf.vinBurnFund o ≠ .lt

lemma exists_last_split {α : Type} (p : α → Prop) [DecidablePred p] (l : List α) :
    (∀ x ∈ l, ¬p x) ∨ ∃ before x after, l = before ++ x :: after ∧ p x ∧ ∀ y ∈ after, ¬p y := by
  induction l with
  | nil => exact .inl (by simp)
  | cons y l ih =>
    rcases ih with hnone | ⟨before, x, after, rfl, hx, hafter⟩
    · by_cases hy : p y
      · exact .inr ⟨[], y, l, rfl, hy, hnone⟩
      · exact .inl (forall_mem_cons.mpr ⟨hy, hnone⟩)
    · exact .inr ⟨y :: before, x, after, rfl, hx, hafter⟩

variable {man : CInfinitynodeMan} {address : String} {inf : CInfinitynode}

lemma lastTier_eq_none (h : ∀ inf ∈ man.nodeList, ¬TierNode address inf) : lastTier address man.nodeList = none := by
  simpa [lastTier] using h

lemma lastTier_split {before after : List CInfinitynode} (hinf : TierNode address inf)
    (hafter : ∀ y ∈ after, ¬TierNode address y) :
    lastTier address (before ++ inf :: after) = some inf.nQSTEESType := by
  have hnil : after.filter (fun inf => TierNode address inf) = [] := by simpa using hafter
  simp [lastTier, filter_append, hinf, hnil]

lemma lastNode_cases (man : CInfinitynodeMan) (address : String) :
    ((∀ inf ∈ man.nodeList, ¬TierNode address inf) ∧ lastTier address man.nodeList = none) ∨
      ∃ inf, LastNode man address inf ∧ lastTier address man.nodeList = some inf.nQSTEESType := by
  rcases exists_last_split (TierNode address) man.nodeList with hnone | ⟨before, inf, after, hsplit, hinf, hafter⟩
  · exact .inl ⟨hnone, lastTier_eq_none hnone⟩
  right
  refine ⟨inf, ⟨mem_nodeList.mp (by simp [hsplit]), hinf, ?_⟩, by rw [hsplit, lastTier_split hinf hafter]⟩
  intro o inf' hheld htier hlt
  obtain rfl := man.mapInfinitynodes.keyed o inf' hheld
  have hmem : inf' ∈ man.nodeList := mem_nodeList.mpr hheld
  have hordered := nodeList_ordered man
  rw [hsplit, pairwise_append, pairwise_cons] at hordered
  rw [hsplit, mem_append, mem_cons] at hmem
  rcases hmem with hbefore | rfl | hmem
  · exact Std.OrientedCmp.not_lt_of_lt (hordered.2.2 inf' hbefore inf mem_cons_self) hlt
  · rw [Std.compare_self] at hlt
    cases hlt
  · exact hafter inf' hmem htier

lemma LastNode.unique {inf' : CInfinitynode} (h : LastNode man address inf) (h' : LastNode man address inf') :
    inf = inf' := by
  have hle := h.last _ inf' h'.held h'.tier
  have hge := h'.last _ inf h.held h.tier
  have heq : inf.vinBurnFund = inf'.vinBurnFund := by
    cases hcmp : compare inf.vinBurnFund inf'.vinBurnFund with
    | lt => exact absurd hcmp hle
    | eq => exact Std.LawfulEqCmp.eq_of_compare hcmp
    | gt => exact absurd (Std.OrientedCmp.gt_iff_lt.mp hcmp) hge
  have hheld := h.held
  rw [heq, h'.held] at hheld
  exact (Option.some.inj hheld).symm

lemma LastNode.lastTier (h : LastNode man address inf) : lastTier address man.nodeList = some inf.nQSTEESType := by
  rcases lastNode_cases man address with ⟨hnone, -⟩ | ⟨inf', hinf', hlast⟩
  · exact absurd h.tier (hnone inf (mem_nodeList.mpr h.held))
  · rw [hlast, h.unique hinf']

def addNode (man : CInfinitynodeMan) (inf : CInfinitynode) : CInfinitynodeMan :=
  { man with mapInfinitynodes := man.mapInfinitynodes.insert inf }

lemma held_addNode (man : CInfinitynodeMan) (inf : CInfinitynode) (o : COutPoint) :
    (addNode man inf).mapInfinitynodes.nodes[o]? =
      if inf.vinBurnFund = o then some inf else man.mapInfinitynodes.nodes[o]? := getElem?_insert_node _ inf o

section Add

variable (hnew : man.mapInfinitynodes.nodes[inf.vinBurnFund]? = none)
include hnew

lemma held_addNode_of_held {inf' : CInfinitynode} {o : COutPoint} (hheld : man.mapInfinitynodes.nodes[o]? = some inf') :
    (addNode man inf).mapInfinitynodes.nodes[o]? = some inf' := by
  rw [held_addNode, if_neg]
  · exact hheld
  · rintro rfl
    rw [hnew] at hheld
    cases hheld

lemma LastNode.addNode {old : CInfinitynode} (h : LastNode man address old)
    (hinf : TierNode address inf → compare old.vinBurnFund inf.vinBurnFund ≠ .lt) :
    LastNode (addNode man inf) address old where
  held := held_addNode_of_held hnew h.held
  tier := h.tier
  last := by
    intro o inf' hheld htier
    rw [held_addNode] at hheld
    split_ifs at hheld with ho
    · cases hheld
      rw [← ho]
      exact hinf htier
    · exact h.last o inf' hheld htier

lemma lastTier_addNode_of_not (hinf : ¬TierNode address inf) :
    lastTier address (addNode man inf).nodeList = lastTier address man.nodeList := by
  rcases lastNode_cases man address with ⟨hnone, hlast⟩ | ⟨old, hold, hlast⟩
  · rw [hlast]
    apply lastTier_eq_none
    intro x hx htier
    have hheld := mem_nodeList.mp hx
    rw [held_addNode] at hheld
    split_ifs at hheld
    · cases hheld
      exact hinf htier
    · exact hnone x (mem_nodeList.mpr hheld) htier
  · rw [hlast]
    exact (hold.addNode hnew (fun htier => absurd htier hinf)).lastTier

lemma lastTier_addNode (hinf : TierNode address inf) :
    ((∀ old, LastNode man address old → compare old.vinBurnFund inf.vinBurnFund = .lt) ∧
      lastTier address (addNode man inf).nodeList = some inf.nQSTEESType) ∨
      ∃ old, LastNode man address old ∧ compare inf.vinBurnFund old.vinBurnFund = .lt ∧
        lastTier address (addNode man inf).nodeList = some old.nQSTEESType := by
  by_cases hlater : ∃ old, LastNode man address old ∧ compare inf.vinBurnFund old.vinBurnFund = .lt
  · obtain ⟨old, hold, hlt⟩ := hlater
    exact .inr ⟨old, hold, hlt, (hold.addNode hnew (fun _ => Std.OrientedCmp.not_lt_of_lt hlt)).lastTier⟩
  left
  have hbefore : ∀ old, LastNode man address old → compare old.vinBurnFund inf.vinBurnFund = .lt := by
    intro old hold
    cases hcmp : compare inf.vinBurnFund old.vinBurnFund with
    | lt => exact absurd ⟨old, hold, hcmp⟩ hlater
    | eq =>
      rw [Std.LawfulEqCmp.eq_of_compare hcmp, hold.held] at hnew
      cases hnew
    | gt => exact Std.OrientedCmp.gt_iff_lt.mp hcmp
  refine ⟨hbefore, LastNode.lastTier ⟨by rw [held_addNode, if_pos rfl], hinf, ?_⟩⟩
  intro o inf' hheld htier hlt
  rw [held_addNode] at hheld
  split_ifs at hheld with ho
  · rw [ho, Std.compare_self] at hlt
    cases hlt
  · -- the last of the nodes that were there is earlier, so all of them are
    obtain rfl := man.mapInfinitynodes.keyed o inf' hheld
    rcases lastNode_cases man address with ⟨hnone, -⟩ | ⟨old, hold, -⟩
    · exact hnone inf' (mem_nodeList.mpr hheld) htier
    · have hlater' := Std.TransCmp.lt_trans (hbefore old hold) hlt
      exact hold.last _ inf' hheld htier hlater'

end Add

def addressWeight (man : CInfinitynodeMan) (address : String) : Int :=
  ((lastTier address man.nodeList).bind tierWeight).getD 0

/-- The node becomes the last of its address, at a lower tier. -/
def TakesOver (man : CInfinitynodeMan) (inf : CInfinitynode) : Prop :=
  tierWeight inf.nQSTEESType ≠ none ∧ ∃ old, LastNode man inf.collateralAddress old ∧
    compare old.vinBurnFund inf.vinBurnFund = .lt ∧ inf.nQSTEESType < old.nQSTEESType

lemma addressWeight_eq {t w : Int} (hlast : lastTier address man.nodeList = some t) (hw : tierWeight t = some w) :
    addressWeight man address = w := by
  rw [addressWeight, hlast]
  simp [hw]

lemma addressWeight_nonneg : 0 ≤ addressWeight man address := by
  unfold addressWeight
  cases hw : (lastTier address man.nodeList).bind tierWeight with
  | none => exact le_rfl
  | some w =>
    obtain ⟨t, -, hw⟩ := Option.bind_eq_some_iff.mp hw
    rcases tierWeight_eq_some.mp hw with ⟨-, rfl⟩ | ⟨-, rfl⟩ | ⟨-, rfl⟩ <;> decide

lemma tierWeight_le_iff {t t' w w' : Int} (hw : tierWeight t = some w) (hw' : tierWeight t' = some w') :
    w ≤ w' ↔ t ≤ t' := by
  rcases tierWeight_eq_some.mp hw with ⟨rfl, rfl⟩ | ⟨rfl, rfl⟩ | ⟨rfl, rfl⟩ <;>
    rcases tierWeight_eq_some.mp hw' with ⟨rfl, rfl⟩ | ⟨rfl, rfl⟩ | ⟨rfl, rfl⟩ <;> decide

lemma addressWeight_le_iff (hnew : man.mapInfinitynodes.nodes[inf.vinBurnFund]? = none) :
    addressWeight man inf.collateralAddress ≤ addressWeight (addNode man inf) inf.collateralAddress ↔
      ¬TakesOver man inf := by
  by_cases htier : tierWeight inf.nQSTEESType = none
  · have hsame : lastTier inf.collateralAddress (addNode man inf).nodeList =
      lastTier inf.collateralAddress man.nodeList :=
      lastTier_addNode_of_not hnew (fun hinf => hinf.2 htier)
    refine iff_of_true ?_ (fun htakes => htakes.1 htier)
    rw [addressWeight, addressWeight, hsame]
  obtain ⟨w, hw⟩ := Option.ne_none_iff_exists'.mp htier
  rcases lastNode_cases man inf.collateralAddress with ⟨hnone, hlast⟩ | ⟨old, hold, hlast⟩
  · refine iff_of_true ?_ ?_
    · have hzero : addressWeight man inf.collateralAddress = 0 := by
        rw [addressWeight, hlast]
        rfl
      rw [hzero]
      exact addressWeight_nonneg
    · rintro ⟨-, old, hold, -⟩
      exact hnone old (mem_nodeList.mpr hold.held) hold.tier
  · obtain ⟨w', hw'⟩ := Option.ne_none_iff_exists'.mp hold.tier.2
    have hbefore := addressWeight_eq hlast hw'
    have htakes : TakesOver man inf ↔
        compare old.vinBurnFund inf.vinBurnFund = .lt ∧ inf.nQSTEESType < old.nQSTEESType := by
      constructor
      · rintro ⟨-, old', hold', hlt, htype⟩
        obtain rfl := hold.unique hold'
        exact ⟨hlt, htype⟩
      · rintro ⟨hlt, htype⟩
        exact ⟨htier, old, hold, hlt, htype⟩
    rw [htakes, hbefore]
    rcases lastTier_addNode hnew ⟨rfl, htier⟩ with ⟨hearlier, hafter⟩ | ⟨old', hold', hlt, hafter⟩
    · rw [addressWeight_eq hafter hw, tierWeight_le_iff hw' hw, not_and_or, not_lt]
      exact ⟨.inr, fun h => h.resolve_left (not_not.mpr (hearlier old hold))⟩
    · obtain rfl := hold.unique hold'
      rw [addressWeight_eq hafter hw']
      exact iff_of_true le_rfl (fun h => Std.OrientedCmp.not_lt_of_lt hlt h.1)

section Sum

variable (E : InfinityEnv)

def countedVotes (rsv : CInfinitynodersv) (proposal : String) (opinion : Bool) : List CVote :=
  (proposalVotes rsv proposal).filter (fun v => v.opinion == opinion)

def Decodes (v : CVote) : Prop := ∃ voter, extractDestination E.hashes v.voter = .ok voter

def voterAddress (v : CVote) : String :=
  match extractDestination E.hashes v.voter with
  | .ok voter => E.keyIO.encodeDestination (voter.getD .noDestination)
  | .error _ => ""

/-- The votes whose voter has a last node of some tier, or none that counts. -/
def votesOfTier (man : CInfinitynodeMan) (votes : List CVote) (tier : Option Int) : Nat :=
  votes.countP (fun v => lastTier (voterAddress E v) man.nodeList = tier)

variable {E} {rsv : CInfinitynodersv} {p : String} {opinion : Bool} {mode : Int} {votes : List CVote}

lemma foldlM_add {f : CVote → Except String Int} {w : CVote → Int} (hf : ∀ v ∈ votes, f v = .ok (w v)) (r : Int) :
    votes.foldlM (fun result v => (fun value => result + value) <$> f v) r = .ok (r + (votes.map w).sum) := by
  induction votes generalizing r with
  | nil => simp [pure, Except.pure]
  | cons v votes ih =>
    rw [forall_mem_cons] at hf
    rw [foldlM_cons, hf.1]
    have hrest := ih hf.2 (r + w v)
    rw [add_assoc] at hrest
    exact hrest

lemma foldlM_add_throws {f : CVote → Except String Int} {v : CVote} (hv : v ∈ votes)
    (hf : ∀ w, f v ≠ .ok w) (r r' : Int) :
    votes.foldlM (fun result v => (fun value => result + value) <$> f v) r ≠ .ok r' := by
  induction votes generalizing r with
  | nil => cases hv
  | cons u votes ih =>
    rw [foldlM_cons]
    intro hok
    obtain ⟨r₁, hr₁, hok⟩ := ok_of_bind hok
    rcases mem_cons.mp hv with rfl | hv
    · cases hfv : f v with
      | error e =>
        rw [hfv] at hr₁
        cases hr₁
      | ok w => exact hf w hfv
    · exact ih hv r₁ hok

lemma getResult_eq : getResult E man rsv p opinion mode =
    (countedVotes rsv p opinion).foldlM (fun result v =>
      (fun value => result + value) <$> voteWeight E man.nodeList mode v) 0 := by
  unfold getResult countedVotes proposalVotes
  cases rsv[p]? with
  | none => rfl
  | some votes => rfl

lemma getResult_public :
    getResult E man rsv p opinion 0 = .ok ((countedVotes rsv p opinion).length : Int) := by
  have hone : ∀ v ∈ countedVotes rsv p opinion, voteWeight E man.nodeList 0 v = .ok ((fun _ => 1 : CVote → Int) v) :=
    fun _ _ => rfl
  rw [getResult_eq, foldlM_add hone]
  simp

lemma voteWeight_nodes (hmode : mode = 1 ∨ mode = 2) {v : CVote} (hv : Decodes E v) :
    voteWeight E man.nodeList mode v = .ok (addressWeight man (voterAddress E v)) := by
  obtain ⟨voter, hvoter⟩ := hv
  have hweight : addressWeight man (voterAddress E v) = nodeWeight (voterAddress E v) 0 man.nodeList :=
    (nodeWeight_eq _ _ _).symm
  unfold voteWeight
  rw [hweight, if_pos hmode, voterAddress, hvoter]
  rcases hmode with rfl | rfl <;> rfl

lemma getResult_nodes (hmode : mode = 1 ∨ mode = 2) (hdecodes : ∀ v ∈ countedVotes rsv p opinion, Decodes E v) :
    getResult E man rsv p opinion mode =
      .ok ((countedVotes rsv p opinion).map (fun v => addressWeight man (voterAddress E v))).sum := by
  rw [getResult_eq, foldlM_add (fun v hv => voteWeight_nodes hmode (hdecodes v hv)), zero_add]

lemma decodes_of_getResult (hmode : mode = 1 ∨ mode = 2) {r : Int} (hr : getResult E man rsv p opinion mode = .ok r) :
    ∀ v ∈ countedVotes rsv p opinion, Decodes E v := by
  intro v hv
  by_contra hthrows
  rw [getResult_eq] at hr
  refine foldlM_add_throws hv ?_ 0 r hr
  intro w hw
  unfold voteWeight at hw
  rw [if_pos hmode] at hw
  obtain ⟨voter, hvoter, -⟩ := ok_of_bind hw
  exact hthrows ⟨voter, hvoter⟩

lemma sum_addNode (hnew : man.mapInfinitynodes.nodes[inf.vinBurnFund]? = none) (votes : List CVote) :
    (votes.map (fun v => addressWeight (addNode man inf) (voterAddress E v))).sum =
      (votes.map (fun v => addressWeight man (voterAddress E v))).sum +
        votes.countP (fun v => voterAddress E v = inf.collateralAddress) *
          (addressWeight (addNode man inf) inf.collateralAddress - addressWeight man inf.collateralAddress) := by
  induction votes with
  | nil => simp
  | cons v votes ih =>
    rw [map_cons, sum_cons, ih, map_cons, sum_cons, countP_cons]
    by_cases howner : voterAddress E v = inf.collateralAddress
    · simp only [howner, decide_true, if_true, Nat.cast_add, Nat.cast_one]
      ring
    · have hsame : lastTier (voterAddress E v) (addNode man inf).nodeList = lastTier (voterAddress E v) man.nodeList :=
        lastTier_addNode_of_not hnew (fun hinf => howner hinf.1.symm)
      simp only [howner, decide_false, Bool.false_eq_true, if_false, Nat.add_zero, addressWeight, hsame]
      ring

lemma sum_addressWeight (man : CInfinitynodeMan) (votes : List CVote) :
    (votes.map (fun v => addressWeight man (voterAddress E v))).sum + votesOfTier E man votes none =
      votes.length + votesOfTier E man votes (some 1) + 9 * votesOfTier E man votes (some 5) +
        19 * votesOfTier E man votes (some 10) := by
  induction votes with
  | nil => rfl
  | cons v votes ih =>
    unfold votesOfTier at ih ⊢
    simp only [map_cons, sum_cons, length_cons, countP_cons]
    rcases lastNode_cases man (voterAddress E v) with ⟨-, hlast⟩ | ⟨inf, hinf, hlast⟩
    · have hzero : addressWeight man (voterAddress E v) = 0 := by
        rw [addressWeight, hlast]
        rfl
      simp only [hlast, hzero, decide_true, if_true, reduceCtorEq, decide_false, Bool.false_eq_true, if_false]
      push_cast
      omega
    · obtain ⟨w, hw⟩ := Option.ne_none_iff_exists'.mp hinf.tier.2
      rw [addressWeight_eq hlast hw]
      rcases tierWeight_eq_some.mp hw with ⟨ht, rfl⟩ | ⟨ht, rfl⟩ | ⟨ht, rfl⟩ <;>
      · simp [hlast, ht]
        omega

/-- The weights of the nodes' votes make up for votes without. -/
def NodesOutweigh (E : InfinityEnv) (man : CInfinitynodeMan) (votes : List CVote) : Prop :=
  votesOfTier E man votes none ≤
    votesOfTier E man votes (some 1) + 9 * votesOfTier E man votes (some 5) + 19 * votesOfTier E man votes (some 10)

lemma getResult_modes_iff (hdecodes : ∀ v ∈ countedVotes rsv p opinion, Decodes E v) :
    (∃ r₀ r₁ r₂, getResult E man rsv p opinion 0 = .ok r₀ ∧ getResult E man rsv p opinion 1 = .ok r₁ ∧
      getResult E man rsv p opinion 2 = .ok r₂ ∧ r₀ ≤ r₂ ∧ r₁ ≤ r₂) ↔
      NodesOutweigh E man (countedVotes rsv p opinion) := by
  have hsum := sum_addressWeight (E := E) man (countedVotes rsv p opinion)
  rw [getResult_public, getResult_nodes (.inl rfl) hdecodes, getResult_nodes (.inr rfl) hdecodes]
  unfold NodesOutweigh
  constructor
  · rintro ⟨r₀, r₁, r₂, ⟨⟩, ⟨⟩, ⟨⟩, hle, -⟩
    omega
  · intro hle
    exact ⟨_, _, _, rfl, rfl, rfl, by omega, le_rfl⟩

lemma getResult_addNode_iff (hmode : mode = 1 ∨ mode = 2) (hdecodes : ∀ v ∈ countedVotes rsv p opinion, Decodes E v)
    (hnew : man.mapInfinitynodes.nodes[inf.vinBurnFund]? = none) :
    (∃ r r', getResult E man rsv p opinion mode = .ok r ∧ getResult E (addNode man inf) rsv p opinion mode =
      .ok r' ∧ r ≤ r') ↔
      (∀ v ∈ countedVotes rsv p opinion, voterAddress E v ≠ inf.collateralAddress) ∨ ¬TakesOver man inf := by
  rw [getResult_nodes hmode hdecodes, getResult_nodes hmode hdecodes, sum_addNode hnew, ← addressWeight_le_iff hnew]
  have hcount : (∀ v ∈ countedVotes rsv p opinion, voterAddress E v ≠ inf.collateralAddress) ↔
      (countedVotes rsv p opinion).countP (fun v => voterAddress E v = inf.collateralAddress) = 0 := by
    simp [countP_eq_zero]
  rw [hcount]
  generalize (countedVotes rsv p opinion).countP (fun v => voterAddress E v = inf.collateralAddress) = n
  constructor
  · rintro ⟨r, r', ⟨⟩, ⟨⟩, hle⟩
    by_cases hzero : n = 0
    · exact .inl hzero
    · right
      by_contra hlt
      have hpos : (0 : Int) < n := by omega
      nlinarith
  · rintro (rfl | hle)
    · exact ⟨_, _, rfl, rfl, by simp⟩
    · have hnonneg := mul_nonneg (Int.natCast_nonneg n) (sub_nonneg.mpr hle)
      exact ⟨_, _, rfl, rfl, by omega⟩

/-- One more node lowers no tally and the mode for both kinds of weight is not below the others, exactly where no
script of a voter throws, the node does not take over from a higher tier of a voter, and the voters with nodes make up
for those without. -/
theorem getResult_grows_iff (E : InfinityEnv) (man : CInfinitynodeMan) (inf : CInfinitynode) (rsv : CInfinitynodersv)
    (p : String) (opinion : Bool) (mode : Int) (hmode : mode = 0 ∨ mode = 1 ∨ mode = 2)
    (hnew : man.mapInfinitynodes.nodes[inf.vinBurnFund]? = none) :
    ((∃ r r', getResult E man rsv p opinion mode = .ok r ∧ getResult E (addNode man inf) rsv p opinion mode =
      .ok r' ∧ r ≤ r') ∧
      ∃ r₀ r₁ r₂, getResult E man rsv p opinion 0 = .ok r₀ ∧ getResult E man rsv p opinion 1 = .ok r₁ ∧
        getResult E man rsv p opinion 2 = .ok r₂ ∧ r₀ ≤ r₂ ∧ r₁ ≤ r₂) ↔
    (∀ v ∈ countedVotes rsv p opinion, Decodes E v) ∧
      (mode = 0 ∨ (∀ v ∈ countedVotes rsv p opinion, voterAddress E v ≠ inf.collateralAddress) ∨ ¬TakesOver man inf) ∧
      NodesOutweigh E man (countedVotes rsv p opinion) := by
  by_cases hdecodes : ∀ v ∈ countedVotes rsv p opinion, Decodes E v
  · rw [getResult_modes_iff hdecodes]
    by_cases hpublic : mode = 0
    · subst hpublic
      rw [getResult_public, getResult_public]
      have hsame : ∃ r r', (Except.ok ((countedVotes rsv p opinion).length : Int) : Except String Int) = .ok r ∧
          (Except.ok ((countedVotes rsv p opinion).length : Int) : Except String Int) = .ok r' ∧ r ≤ r' :=
        ⟨_, _, rfl, rfl, le_rfl⟩
      exact ⟨fun h => ⟨hdecodes, .inl rfl, h.2⟩, fun h => ⟨hsame, h.2.2⟩⟩
    · rw [getResult_addNode_iff (hmode.resolve_left hpublic) hdecodes hnew]
      exact ⟨fun h => ⟨hdecodes, .inr h.1, h.2⟩, fun h => ⟨h.2.1.resolve_left hpublic, h.2.2⟩⟩
  · refine iff_of_false ?_ (fun h => hdecodes h.1)
    rintro ⟨-, -, r₁, -, -, hr₁, -⟩
    exact hdecodes (decodes_of_getResult (.inl rfl) hr₁)

end Sum

def ownerVotes : CInfinitynodersv :=
  CInfinitynodersv.add ∅ ⟨"00000001", keyIDScript (List.replicate 20 7), 300001, true⟩

def ownerNode (hash : Nat) (nQSTEESType : Int) : CInfinitynode :=
  { vinBurnFund := ⟨hash, 0⟩, collateralAddress := ownerAddress, nQSTEESType }

theorem getResult_grows_owner :
    ∃ r r', getResult exampleEnv (addNode {} (ownerNode 1 1)) ownerVotes "00000001" true 2 = .ok r ∧
      getResult exampleEnv (addNode (addNode {} (ownerNode 1 1)) (ownerNode 2 10)) ownerVotes "00000001" true 2 =
        .ok r' ∧
      r ≤ r' := by
  have hiff := getResult_grows_iff exampleEnv (addNode {} (ownerNode 1 1)) (ownerNode 2 10) ownerVotes "00000001" true 2
    (by decide) (by decide +kernel)
  have hlist : countedVotes ownerVotes "00000001" true =
    [⟨"00000001", keyIDScript (List.replicate 20 7), 300001, true⟩] := by
    decide +kernel
  refine (hiff.mpr ⟨?_, ?_, by unfold NodesOutweigh; decide +kernel⟩).1
  · rw [hlist]
    intro v hv
    obtain rfl := mem_singleton.mp hv
    exact ⟨some (.keyID (List.replicate 20 7)), rfl⟩
  · right
    right
    rintro ⟨-, old, hold, -, hlt⟩
    obtain ⟨w, hw⟩ := Option.ne_none_iff_exists'.mp hold.tier.2
    rcases tierWeight_eq_some.mp hw with ⟨ht, -⟩ | ⟨ht, -⟩ | ⟨ht, -⟩ <;> rw [ht] at hlt <;> exact absurd hlt (by decide)

/-- A small node after a large one takes nine tenths of the weight away, and a voter without a node counts in public
only. -/
theorem getResult_shrinks :
    (getResult exampleEnv (addNode {} (ownerNode 1 10)) ownerVotes "00000001" true 1 = .ok 20 ∧
      getResult exampleEnv (addNode (addNode {} (ownerNode 1 10)) (ownerNode 2 1)) ownerVotes "00000001" true 1 =
        .ok 2) ∧
    getResult exampleEnv {} ownerVotes "00000001" true 0 = .ok 1 ∧
      getResult exampleEnv {} ownerVotes "00000001" true 2 = .ok 0 := by
  refine ⟨⟨?_, ?_⟩, ?_, ?_⟩ <;> decide +kernel

end Qstees.Proofs
