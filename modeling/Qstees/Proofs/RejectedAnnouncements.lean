import Qstees.Proofs.MasternodeList

/-!
# Announcements after a rejected one

A rejected announcement checks the node it names and may leave two hashes among the seen announcements: its own, and
that of the listed node.
-/

namespace Qstees.Proofs

open Std.ExtTreeMap CMasternodeBroadcast CMasternodeMan Repinged

variable {E : MnEnv} {ctx : MnContext} {man : CMasternodeMan}

variable {pmn : CMasternode} {mnb : CMasternodeBroadcast} {after : CMasternodeMan}

/-- The ping is neither empty nor of the time that stands for now. -/
def RealPing (mnp : CMasternodePing) : Prop := mnp.same {} = false ∧ mnp.sigTime ≠ -1

def Brought (outpoint : COutPoint) (mnp : CMasternodePing) (o : COutPoint) (p q : CMasternodePing) : Prop :=
  o = outpoint ∧ q = mnp ∧ (RealPing mnp → Later p q)

variable {outpoint : COutPoint}

lemma checkAndUpdate_repinged (h : man.mapMasternodes[outpoint]? = some pmn)
    (fromNew : Bool) (mnp : CMasternodePing) :
    Repinged (Brought outpoint mnp) man (mnp.checkAndUpdate E ctx man outpoint pmn fromNew).2.2 := by
  unfold CMasternodePing.checkAndUpdate
  dsimp only
  split_ifs with hsimple htimely hsig
  · exact of_eq rfl
  · exact of_eq rfl
  · exact of_eq rfl
  have hpinged : pmn.isPingedWithin ctx (MASTERNODE_MIN_MNP_SECONDS - 60) mnp.sigTime = false := by
    simp only [CMasternodePing.timely, Bool.not_eq_true', Bool.and_eq_false_iff, not_or, Bool.not_eq_false] at htimely
    exact htimely.2
  have hbrought : Brought outpoint mnp outpoint pmn.lastPing mnp :=
    ⟨rfl, rfl, fun hgenuine => later_of_not_pingedWithin (by decide) hpinged (fun h => absurd h hgenuine.2)⟩
  have hset : Repinged (Brought outpoint mnp) man (man.setNode outpoint { pmn with lastPing := mnp }) :=
    setNode h rfl (.inr hbrought)
  refine (hset.kept (of_eq (mapMasternodes_updateSeenPing _ _))).kept (check_kept ?_ _ _)
  rw [mapMasternodes_updateSeenPing, getElem?_setNode, if_pos rfl]

lemma updatePing_repinged (h : man.mapMasternodes[outpoint]? = some pmn)
    (mnb : CMasternodeBroadcast) :
    Repinged (Brought outpoint mnb.lastPing) man (mnb.updatePing E ctx man outpoint pmn) := by
  unfold CMasternodeBroadcast.updatePing
  dsimp only
  split_ifs with hempty
  · refine (setNode h ?_ (.inr ⟨rfl, rfl, fun hgenuine => ?_⟩)).kept (of_eq (mapMasternodes_insertSeenPing _))
    · rfl
    · exact absurd hempty (Bool.eq_false_iff.mp hgenuine.1)
  · exact (checkAndUpdate_repinged h true mnb.lastPing).kept (of_eq (mapMasternodes_insertSeenPing _))
  · exact checkAndUpdate_repinged h true mnb.lastPing

lemma keepsPings_score (man : CMasternodeMan) (outpoint : COutPoint) (score : Int) :
    KeepsPings man (match man.mapMasternodes[outpoint]? with
      | none => man
      | some pmn => man.setNode outpoint { pmn with nPoSeBanScore := score }) := by
  split
  · exact of_eq rfl
  · rename_i mn hmn
    exact setNode hmn rfl (.inl rfl)

lemma updateFromNewBroadcast_repinged (h : ¬(mnb.sigTime ≤ pmn.sigTime ∧ mnb.fRecovery = false)) :
    Repinged (fun o p q => (o = outpoint → RealPing mnb.lastPing) → Later p q) (man.setNode outpoint (mnb.takeOver pmn))
      (mnb.updateFromNewBroadcast E ctx man outpoint pmn).2 := by
  have hping : Repinged (Brought outpoint mnb.lastPing) (man.setNode outpoint (mnb.takeOver pmn))
      (mnb.updatePing E ctx (man.setNode outpoint (mnb.takeOver pmn)) outpoint (mnb.takeOver pmn)) :=
    updatePing_repinged (by rw [getElem?_setNode, if_pos rfl]) mnb
  unfold CMasternodeBroadcast.updateFromNewBroadcast
  rw [if_neg (by simpa using h)]
  dsimp only
  generalize mnb.updatePing E ctx (man.setNode outpoint (mnb.takeOver pmn)) outpoint (mnb.takeOver pmn) =
    pinged at hping ⊢
  have hscored := keepsPings_score pinged outpoint (-MASTERNODE_POSE_BAN_MAX_SCORE)
  have hlater : ∀ o p q r, (q = p ∨ Brought outpoint mnb.lastPing o p q) → (r = q ∨ Later q r) →
      r = p ∨ ((o = outpoint → RealPing mnb.lastPing) → Later p r) := by
    rintro o p q r (rfl | ⟨ho, rfl, hq⟩) (rfl | hr)
    · exact .inl rfl
    · exact .inr (fun _ => hr)
    · exact .inr (fun hgenuine => hq (hgenuine ho))
    · exact .inr (fun hgenuine hp => (hq (hgenuine ho) hp).trans (hr (hgenuine ho).1))
  split_ifs
  · exact (hping.kept hscored).trans manageState_repinged hlater
  · exact (hping.kept hscored).trans (of_eq rfl) hlater
  · exact hping.trans (of_eq rfl) hlater

/-- The announcement of a listed node gets past the tests of `Update` and replaces the node's data. -/
structure Updates (E : MnEnv) (ctx : MnContext) (man : CMasternodeMan) (pmn : CMasternode)
    (mnb : CMasternodeBroadcast) : Prop where
  newer : pmn.sigTime < mnb.sigTime ∨ (pmn.sigTime = mnb.sigTime ∧ mnb.fRecovery = true)
  notBanned : (pmn.check E ctx man false).nActiveState ≠ .poseBan
  sameKey : (pmn.check E ctx man false).pubKeyCollateralAddress = mnb.pubKeyCollateralAddress
  signed : (mnb.checkSignature E.toMasternodeEnv).1 = true
  due : (pmn.check E ctx man false).isBroadcastedWithin ctx MASTERNODE_MIN_MNB_SECONDS = false ∨
    mnb.isOwn ctx man.activeMasternode = true

/-- The announcement would be added to the list, or would update it. -/
inductive Enters (E : MnEnv) (ctx : MnContext) (man : CMasternodeMan) (mnb : CMasternodeBroadcast) : Prop where
  | added (hash : UInt256) (fresh : Fresh E man mnb)
    (simple : (mnb.simpleCheck E.toMasternodeEnv ctx.toMasternodeMoment).ok = true)
    (unlisted : man.mapMasternodes[mnb.vin.prevout]? = none) (outpoint : mnb.checkOutpoint E ctx man = .ok hash)
  | updated (pmn : CMasternode) (fresh : Fresh E man mnb)
    (simple : (mnb.simpleCheck E.toMasternodeEnv ctx.toMasternodeMoment).ok = true)
    (listed : man.mapMasternodes[mnb.vin.prevout]? = some pmn) (updates : Updates E ctx man pmn mnb)

lemma Enters.fresh (h : Enters E ctx man mnb) : Fresh E man mnb := by
  cases h <;> assumption

abbrev noted (E : MnEnv) (ctx : MnContext) (man : CMasternodeMan) (mnb : CMasternodeBroadcast) : CMasternodeMan :=
  man.insertSeen (mnb.getHash E) (ctx.getTime, mnb)

section

variable (hsimple : (mnb.simpleCheck E.toMasternodeEnv ctx.toMasternodeMoment).ok = true)
include hsimple

lemma processNew_listed
    (hlisted : man.mapMasternodes[mnb.vin.prevout]? = some pmn) :
    man.processNew E ctx mnb = (noted E ctx man mnb).updateListed E ctx pmn mnb := by
  unfold processNew
  dsimp only
  rw [if_neg (by simp [hsimple]), mapMasternodes_insertSeen, hlisted]

lemma processNew_added
    (hunlisted : man.mapMasternodes[mnb.vin.prevout]? = none) :
    man.processNew E ctx mnb = (noted E ctx man mnb).addNew E ctx
      (mnb.simpleCheck E.toMasternodeEnv ctx.toMasternodeMoment).expired mnb := by
  unfold processNew
  dsimp only
  rw [if_neg (by simp [hsimple]), mapMasternodes_insertSeen, hunlisted]

end

lemma mapMasternodes_updateListed (pmn : CMasternode) (mnb : CMasternodeBroadcast) :
    (man.updateListed E ctx pmn mnb).2.2.mapMasternodes =
      (mnb.update E ctx (man.insertSeen (pmn.getHash E) (0, .empty ctx)) mnb.vin.prevout pmn).2.2.mapMasternodes := by
  unfold updateListed
  dsimp only
  split_ifs <;> rfl

/-- Two managers that agree on what a check reads. -/
structure SameFrame (a b : CMasternodeMan) : Prop where
  size : a.mapMasternodes.size = b.mapMasternodes.size
  watchdog : a.nLastWatchdogVoteTime = b.nLastWatchdogVoteTime
  active : a.activeMasternode = b.activeMasternode

structure Twin (outpoint : COutPoint) (a b : CMasternodeMan) : Prop extends SameFrame a b where
  node : a.mapMasternodes[outpoint]? = b.mapMasternodes[outpoint]?

variable {outpoint : COutPoint} {a b : CMasternodeMan}

lemma SameFrame.check_eq (h : SameFrame a b) (force : Bool) (mn : CMasternode) :
    mn.check E ctx a force = mn.check E ctx b force := by
  simp only [CMasternode.check, CMasternode.checkChain, CMasternode.checkActivity, h.size, h.watchdog, h.active]

lemma size_setNode (mn : CMasternode) : (man.setNode outpoint mn).mapMasternodes.size =
    if (man.mapMasternodes[outpoint]?).isSome then man.mapMasternodes.size else man.mapMasternodes.size + 1 := by
  rw [CMasternodeMan.setNode, size_insert]
  have hmem : outpoint ∈ man.mapMasternodes ↔ (man.mapMasternodes[outpoint]?).isSome = true :=
    mem_iff_isSome_getElem?
  split_ifs with h₁ h₂ h₂
  · rfl
  · exact absurd (hmem.mp h₁) h₂
  · exact absurd (hmem.mpr h₂) h₁
  · rfl

lemma Twin.setNode (h : Twin outpoint a b) (mn : CMasternode) :
    Twin outpoint (a.setNode outpoint mn) (b.setNode outpoint mn) where
  node := by rw [getElem?_setNode, getElem?_setNode, if_pos rfl, if_pos rfl]
  size := by rw [size_setNode, size_setNode, h.node, h.size]
  watchdog := h.watchdog
  active := h.active

variable (E outpoint) in
lemma updateSeenPing_twin (mn : CMasternode) (mnp : CMasternodePing) (man : CMasternodeMan) :
    Twin outpoint (man.updateSeenPing E mn mnp) man := by
  unfold updateSeenPing
  split <;> exact ⟨⟨rfl, rfl, rfl⟩, rfl⟩

lemma Twin.trans {c : CMasternodeMan} (hab : Twin outpoint a b) (hbc : Twin outpoint b c) : Twin outpoint a c :=
  ⟨⟨hab.size.trans hbc.size, hab.watchdog.trans hbc.watchdog, hab.active.trans hbc.active⟩, hab.node.trans hbc.node⟩

lemma Twin.symm (h : Twin outpoint a b) : Twin outpoint b a :=
  ⟨⟨h.size.symm, h.watchdog.symm, h.active.symm⟩, h.node.symm⟩

lemma Twin.insertSeenPing (h : Twin outpoint a b) (mnp : CMasternodePing) :
    Twin outpoint (a.insertSeenPing E mnp) (b.insertSeenPing E mnp) := ⟨⟨h.size, h.watchdog, h.active⟩, h.node⟩

variable (E ctx) in
lemma Twin.checkAndUpdate (h : Twin outpoint a b) (pmn : CMasternode) (fromNew : Bool) (mnp : CMasternodePing) :
    (mnp.checkAndUpdate E ctx a outpoint pmn fromNew).1 = (mnp.checkAndUpdate E ctx b outpoint pmn fromNew).1 ∧
      Twin outpoint (mnp.checkAndUpdate E ctx a outpoint pmn fromNew).2.2
        (mnp.checkAndUpdate E ctx b outpoint pmn fromNew).2.2 := by
  have hself := updateSeenPing_twin E outpoint { pmn with lastPing := mnp } mnp
  have hseen := (hself _).trans ((h.setNode { pmn with lastPing := mnp }).trans (hself _).symm)
  unfold CMasternodePing.checkAndUpdate
  dsimp only
  rw [hseen.check_eq]
  split_ifs
  · exact ⟨rfl, h⟩
  · exact ⟨rfl, h⟩
  · exact ⟨rfl, h⟩
  · exact ⟨rfl, hseen.setNode _⟩

variable (E ctx) in
lemma Twin.updatePing (h : Twin outpoint a b) (pmn : CMasternode) (mnb : CMasternodeBroadcast) :
    Twin outpoint (mnb.updatePing E ctx a outpoint pmn) (mnb.updatePing E ctx b outpoint pmn) := by
  obtain ⟨hret, htwin⟩ := h.checkAndUpdate E ctx pmn true mnb.lastPing
  unfold CMasternodeBroadcast.updatePing
  dsimp only
  rw [hret]
  split_ifs
  · exact (h.setNode _).insertSeenPing _
  · exact htwin.insertSeenPing _
  · exact htwin

lemma activeMasternode_updatePing :
    (mnb.updatePing E ctx man outpoint pmn).activeMasternode = man.activeMasternode := by
  unfold CMasternodeBroadcast.updatePing CMasternodePing.checkAndUpdate
  dsimp only
  split_ifs
  all_goals first
    | rfl
    | exact (updateSeenPing_twin E outpoint _ _ _).active

section

variable (h : Twin outpoint a b) (hown : mnb.isOwn ctx a.activeMasternode = false) (pmn : CMasternode)
include h hown

lemma Twin.updateFromNewBroadcast :
    (mnb.updateFromNewBroadcast E ctx a outpoint pmn).1 = (mnb.updateFromNewBroadcast E ctx b outpoint pmn).1 ∧
      Twin outpoint (mnb.updateFromNewBroadcast E ctx a outpoint pmn).2
        (mnb.updateFromNewBroadcast E ctx b outpoint pmn).2 := by
  have hping := (h.setNode (mnb.takeOver pmn)).updatePing E ctx (mnb.takeOver pmn) mnb
  unfold CMasternodeBroadcast.updateFromNewBroadcast
  dsimp only
  rw [activeMasternode_updatePing, activeMasternode_updatePing]
  have hownb : mnb.isOwn ctx b.activeMasternode = false := h.active ▸ hown
  split_ifs with hguard hia hib
  · exact ⟨rfl, h⟩
  all_goals simp_all [CMasternodeMan.setNode]

lemma Twin.updateChecked :
    Twin outpoint (mnb.updateChecked E ctx a outpoint pmn).2.2 (mnb.updateChecked E ctx b outpoint pmn).2.2 := by
  obtain ⟨hret, htwin⟩ := h.updateFromNewBroadcast (E := E) hown pmn
  unfold CMasternodeBroadcast.updateChecked
  dsimp only
  rw [hret, htwin.node, h.active]
  split_ifs
  · exact h
  · exact h
  · exact h
  · split
    · exact htwin
    · rw [htwin.check_eq]
      exact htwin.setNode _
  · exact htwin
  · exact h

end

/-- The announcement is refused, and enters no node. -/
structure Rejected (E : MnEnv) (ctx : MnContext) (man : CMasternodeMan) (pfrom : Option (List UInt8))
    (mnb : CMasternodeBroadcast) : Prop where
  refused : (man.checkMnbAndUpdateMasternodeList E ctx pfrom mnb).1 = false
  notAdded : man.mapMasternodes[mnb.vin.prevout]? = none →
    (man.checkMnbAndUpdateMasternodeList E ctx pfrom mnb).2.2.mapMasternodes[mnb.vin.prevout]? = none

structure Rechecked (E : MnEnv) (ctx : MnContext) (man after : CMasternodeMan) : Prop extends SameFrame after man where
  node : ∀ o : COutPoint, after.mapMasternodes[o]? = man.mapMasternodes[o]? ∨
    ∃ pmn, man.mapMasternodes[o]? = some pmn ∧ after.mapMasternodes[o]? = some (pmn.check E ctx man false)

lemma Rechecked.of_eq (hmap : after.mapMasternodes = man.mapMasternodes)
    (hwatchdog : after.nLastWatchdogVoteTime = man.nLastWatchdogVoteTime)
    (hactive : after.activeMasternode = man.activeMasternode) : Rechecked E ctx man after :=
  ⟨⟨by rw [hmap], hwatchdog, hactive⟩, fun o => .inl (by rw [hmap])⟩

lemma Rechecked.setNode (h : man.mapMasternodes[outpoint]? = some pmn) :
    Rechecked E ctx man (man.setNode outpoint (pmn.check E ctx man false)) where
  size := by rw [size_setNode, h]; rfl
  watchdog := rfl
  active := rfl
  node := by
    intro o
    rw [getElem?_setNode]
    split_ifs with ho
    · exact .inr ⟨pmn, ho ▸ h, rfl⟩
    · exact .inl rfl

lemma Rejected.fresh {pfrom : Option (List UInt8)} (h : Rejected E ctx man pfrom mnb) :
    Fresh E man mnb := by
  by_contra hseen
  have hret := h.refused
  rw [(checkMnb_of_seen hseen pfrom).1] at hret
  cases hret

section

variable (hsimple : (mnb.simpleCheck E.toMasternodeEnv ctx.toMasternodeMoment).ok = true)
include hsimple

end

lemma Rechecked.listed (h : Rechecked E ctx man after)
    (hpmn : man.mapMasternodes[outpoint]? = some pmn) :
    ∃ pmn', after.mapMasternodes[outpoint]? = some pmn' ∧
      nodeData pmn' = nodeData pmn ∧ pmn'.check E ctx after false = pmn.check E ctx man false := by
  rcases h.node outpoint with heq | ⟨pmn₀, hpmn₀, heq⟩
  · exact ⟨pmn, heq.trans hpmn, rfl, h.check_eq false pmn⟩
  · rw [hpmn] at hpmn₀
    cases hpmn₀
    exact ⟨_, heq, nodeData_check _ _ _ _ _, (h.check_eq false _).trans (check_check E ctx man pmn)⟩

lemma Rechecked.unlisted (h : Rechecked E ctx man after)
    (hnone : man.mapMasternodes[outpoint]? = none) : after.mapMasternodes[outpoint]? = none := by
  rcases h.node outpoint with heq | ⟨pmn, hpmn, -⟩
  · exact heq.trans hnone
  · rw [hnone] at hpmn
    cases hpmn

end Qstees.Proofs
