import Qstees.Library.Runs
import Qstees.Proofs.Pings
import Qstees.Proofs.RejectedAnnouncements

/-!
# The times of a masternode

No message removes a node or brings back an older announcement of it. Its last ping goes back only where an announcement
without a ping, or a ping of the time that stands for now, comes in between.
-/

namespace Qstees.Proofs

open Repinged

/-- An announcement, from a peer or as a recovery reply, or a ping. -/
inductive NodeMessage where
  | announce (pfrom : Option (List UInt8)) (mnb : CMasternodeBroadcast)
  | ping (mnp : CMasternodePing)

namespace NodeMessage

def about : NodeMessage → COutPoint
  | announce _ mnb => mnb.vin.prevout
  | ping mnp => mnp.vin.prevout

def lastPing : NodeMessage → CMasternodePing
  | announce _ mnb => mnb.lastPing
  | ping mnp => mnp

def process (E : MnEnv) (man : CMasternodeMan) (received : MnContext × NodeMessage) : CMasternodeMan :=
  match received.2 with
  | announce pfrom mnb => (man.checkMnbAndUpdateMasternodeList E received.1 pfrom mnb).2.2
  | ping mnp => (man.processPing E received.1 mnp).2

end NodeMessage

variable {E : MnEnv} {ctx : MnContext} {man after : CMasternodeMan} {outpoint o : COutPoint} {pmn : CMasternode}
  {mnb : CMasternodeBroadcast} {mnp : CMasternodePing} {genuine : Prop}

/-- The node stays in the list, with no older announcement and, if `genuine`, with no older ping. -/
def Forward (genuine : Prop) (outpoint : COutPoint) (man after : CMasternodeMan) : Prop :=
  ∀ mn, man.mapMasternodes[outpoint]? = some mn → ∃ mn', after.mapMasternodes[outpoint]? = some mn' ∧
    mn.sigTime ≤ mn'.sigTime ∧ (genuine → Later mn.lastPing mn'.lastPing)

lemma Repinged.forward {ok : COutPoint → CMasternodePing → CMasternodePing → Prop} (h : Repinged ok man after)
    (hok : ∀ p q, ok o p q → genuine → Later p q) : Forward genuine o man after := by
  intro mn hmn
  obtain ⟨mn', hmn', hdata⟩ := h.data.some hmn
  have hsig : mn'.sigTime = mn.sigTime := congrArg NodeData.sigTime hdata
  refine ⟨mn', hmn', hsig.ge, fun hgenuine => ?_⟩
  rcases h.ping o mn mn' hmn hmn' with heq | hping
  · rw [heq]
    exact fun _ => le_rfl
  · exact hok _ _ hping hgenuine

lemma KeepsPings.forward (h : KeepsPings man after) : Forward genuine o man after :=
  Repinged.forward h (fun _ _ => False.elim)

lemma updateFromNewBroadcast_forward (hpmn : man.mapMasternodes[outpoint]? = some pmn)
    (hnewer : pmn.sigTime ≤ mnb.sigTime) :
    Forward (o = outpoint → RealPing mnb.lastPing) o man (mnb.updateFromNewBroadcast E ctx man outpoint pmn).2 := by
  by_cases hguard : mnb.sigTime ≤ pmn.sigTime ∧ mnb.fRecovery = false
  · unfold CMasternodeBroadcast.updateFromNewBroadcast
    rw [if_pos (by simpa using hguard)]
    exact KeepsPings.forward (of_eq rfl)
  have hforward : Forward (o = outpoint → RealPing mnb.lastPing) o (man.setNode outpoint (mnb.takeOver pmn))
      (mnb.updateFromNewBroadcast E ctx man outpoint pmn).2 :=
    (updateFromNewBroadcast_repinged hguard).forward (fun _ _ hping => hping)
  intro mn hmn
  by_cases ho : outpoint = o
  · subst ho
    rw [hpmn] at hmn
    cases hmn
    obtain ⟨mn', hmn', hsig, hping⟩ := hforward (mnb.takeOver pmn) (by rw [getElem?_setNode, if_pos rfl])
    exact ⟨mn', hmn', hnewer.trans hsig, hping⟩
  · exact hforward mn (by rw [getElem?_setNode, if_neg ho, hmn])

lemma Forward.kept {later : CMasternodeMan} (h : Forward genuine o man after) (hkept : KeepsPings after later) :
    Forward genuine o man later := by
  intro mn hmn
  obtain ⟨mn', hmn', hsig, hping⟩ := h mn hmn
  obtain ⟨mn'', hmn'', hdata⟩ := hkept.data.some hmn'
  have hsig' : mn''.sigTime = mn'.sigTime := congrArg NodeData.sigTime hdata
  obtain hsame | hfalse := hkept.ping o mn' mn'' hmn' hmn''
  · refine ⟨mn'', hmn'', hsig.trans hsig'.ge, ?_⟩
    rwa [hsame]
  · exact hfalse.elim

lemma updateChecked_forward (hpmn : man.mapMasternodes[outpoint]? = some pmn) (hnewer : pmn.sigTime ≤ mnb.sigTime) :
    Forward (o = outpoint → RealPing mnb.lastPing) o man (mnb.updateChecked E ctx man outpoint pmn).2.2 := by
  have hupdate :
    Forward (o = outpoint → RealPing mnb.lastPing) o man (mnb.updateFromNewBroadcast E ctx man outpoint pmn).2 :=
    updateFromNewBroadcast_forward hpmn hnewer
  have hsame : Forward (o = outpoint → RealPing mnb.lastPing) o man man := KeepsPings.forward (of_eq rfl)
  unfold CMasternodeBroadcast.updateChecked
  dsimp only
  split_ifs
  · exact hsame
  · exact hsame
  · exact hsame
  · split
    · exact hupdate
    · rename_i mn hmn
      exact hupdate.kept (check_kept hmn _ false)
  · exact hupdate
  · exact hsame

lemma KeepsPings.trans_forward {before : CMasternodeMan} (hkept : KeepsPings before man)
    (h : Forward genuine o man after) :
    Forward genuine o before after := by
  intro mn hmn
  obtain ⟨mn', hmn', hdata⟩ := hkept.data.some hmn
  have hsig' : mn'.sigTime = mn.sigTime := congrArg NodeData.sigTime hdata
  obtain hsame | hfalse := hkept.ping o mn mn' hmn hmn'
  · rw [← hsig', ← hsame]
    exact h mn' hmn'
  · exact hfalse.elim

lemma update_forward (hpmn : man.mapMasternodes[outpoint]? = some pmn) :
    Forward (o = outpoint → RealPing mnb.lastPing) o man (mnb.update E ctx man outpoint pmn).2.2 := by
  unfold CMasternodeBroadcast.update
  split_ifs with hequal holder
  · exact KeepsPings.forward (of_eq rfl)
  · exact KeepsPings.forward (of_eq rfl)
  · apply KeepsPings.trans_forward (check_kept hpmn man false)
    apply updateChecked_forward
    · rw [getElem?_setNode, if_pos rfl]
    · rw [sigTime_check]
      omega

lemma addNew_forward {expired : Bool} (hnone : man.mapMasternodes[mnb.vin.prevout]? = none) :
    Forward genuine o man (man.addNew E ctx expired mnb).2.2 := by
  have hset : ∀ mn later, Repinged (fun _ => Later) (man.setNode mnb.vin.prevout mn) later →
    Forward genuine o man later := by
    intro mn later hlater mn₀ hmn₀
    have hne : mnb.vin.prevout ≠ o := by
      rintro rfl
      rw [hnone] at hmn₀
      cases hmn₀
    exact hlater.forward (fun _ _ hping _ => hping) mn₀ (by rw [getElem?_setNode, if_neg hne, hmn₀])
  unfold CMasternodeMan.addNew
  split
  · apply KeepsPings.forward
    dsimp only
    split_ifs <;> exact of_eq rfl
  · dsimp only
    split_ifs
    all_goals first
      | exact hset _ _ manageState_repinged
      | exact hset _ _ (of_eq rfl)

lemma announce_forward (pfrom : Option (List UInt8)) : Forward (o = mnb.vin.prevout → RealPing mnb.lastPing) o man
    (man.checkMnbAndUpdateMasternodeList E ctx pfrom mnb).2.2 := by
  by_cases hfresh : Fresh E man mnb
  swap
  · exact KeepsPings.forward (of_eq (checkMnb_of_seen hfresh pfrom).2)
  rw [checkMnb_of_fresh hfresh]
  by_cases hsimple : (mnb.simpleCheck E.toMasternodeEnv ctx.toMasternodeMoment).ok = true
  swap
  · unfold CMasternodeMan.processNew
    dsimp only
    rw [if_pos (by simpa using hsimple)]
    exact KeepsPings.forward (of_eq rfl)
  have hseen : KeepsPings man (man.insertSeen (mnb.getHash E) (ctx.getTime, mnb)) := of_eq rfl
  cases hlisted : man.mapMasternodes[mnb.vin.prevout]? with
  | none =>
    rw [processNew_added hsimple hlisted]
    exact hseen.trans_forward (addNew_forward hlisted)
  | some pmn =>
    rw [processNew_listed hsimple hlisted]
    refine hseen.trans_forward (Forward.kept ?_ (of_eq (mapMasternodes_updateListed pmn mnb)))
    refine KeepsPings.trans_forward ?_ (update_forward hlisted)
    exact of_eq rfl

lemma ping_forward : Forward (o = mnp.vin.prevout → RealPing mnp) o man (man.processPing E ctx mnp).2 := by
  have hrecord : KeepsPings man (man.recordPing E ctx mnp) := by
    unfold CMasternodeMan.recordPing
    split_ifs
    · refine kept ?_ (updateWatchdogVoteTime_kept _ _)
      exact of_eq rfl
    · exact of_eq rfl
  by_cases hread : PingRead E ctx man mnp
  swap
  · rw [processPing_of_not_read hread]
    exact KeepsPings.forward (of_eq rfl)
  rw [processPing_of_read hread]
  split
  · exact hrecord.forward
  · rename_i pmn hpmn
    split_ifs
    · exact hrecord.forward
    · apply hrecord.trans_forward
      apply (checkAndUpdate_repinged hpmn false mnp).forward
      rintro p q ⟨ho, -, hlater⟩ hgenuine
      exact hlater (hgenuine ho)

lemma process_forward (received : MnContext × NodeMessage) :
    Forward (o = received.2.about → RealPing received.2.lastPing) o man (NodeMessage.process E man received) := by
  obtain ⟨ctx, message⟩ := received
  cases message with
  | announce pfrom mnb => exact announce_forward pfrom
  | ping mnp => exact ping_forward

/-- The node at `outpoint` has a ping, and a message about it brings one. -/
structure Pinging (outpoint : COutPoint) (man : CMasternodeMan) (message : NodeMessage) : Prop where
  stored : ∀ mn, man.mapMasternodes[outpoint]? = some mn → mn.lastPing.same {} = false
  brought : outpoint = message.about → RealPing message.lastPing

/-- In every run of messages a listed node keeps its place and gets no older announcement, nor an older ping if it has
one all along and each message about it brings one. -/
theorem times_moveForward {mn : CMasternode} (received : List (MnContext × NodeMessage))
    (h : man.mapMasternodes[outpoint]? = some mn) :
    ∃ mn', (Runs.run (NodeMessage.process E) man received).mapMasternodes[outpoint]? = some mn' ∧
      mn.sigTime ≤ mn'.sigTime ∧
      ((∀ p ∈ Runs.trace (NodeMessage.process E) man received, Pinging outpoint p.1 p.2.2) →
        mn.lastPing.sigTime ≤ mn'.lastPing.sigTime) := by
  induction received generalizing man mn with
  | nil => exact ⟨mn, h, le_rfl, fun _ => le_rfl⟩
  | cons first received ih =>
    obtain ⟨mn₁, hmn₁, hsig₁, hping₁⟩ := process_forward (E := E) first mn h
    obtain ⟨mn₂, hmn₂, hsig₂, hping₂⟩ := ih hmn₁
    refine ⟨mn₂, hmn₂, hsig₁.trans hsig₂, fun hpinging => ?_⟩
    obtain ⟨hstored, hbrought⟩ := hpinging (man, first) List.mem_cons_self
    have hrest := hping₂ (fun p hp => hpinging p (List.mem_cons_of_mem _ hp))
    exact (hping₁ hbrought (hstored mn h)).trans hrest

def pingedNode : CMasternode := { ownAnnouncement.toCMasternode .enabled with lastPing := pingOf 500 [1] false }

def pingedList : CMasternodeMan := emptyList.setNode ⟨7, 1⟩ pingedNode

lemma pingedList_node : pingedList.mapMasternodes[(⟨7, 1⟩ : COutPoint)]? = some pingedNode := by
  rw [pingedList, getElem?_setNode, if_pos rfl]

theorem times_moveForward_ping :
    ∃ mn', (Runs.run (NodeMessage.process smallMnEnv) pingedList
      [(pingContext, .ping (pingOf 1100 [1] false))]).mapMasternodes[
      (⟨7, 1⟩ : COutPoint)]? = some mn' ∧ 50 ≤ mn'.sigTime ∧ 500 ≤ mn'.lastPing.sigTime := by
  obtain ⟨mn', hmn', hsig, hping⟩ := times_moveForward (E := smallMnEnv)
    [(pingContext, .ping (pingOf 1100 [1] false))] pingedList_node
  refine ⟨mn', hmn', hsig, hping ?_⟩
  intro p hp
  obtain rfl : p = (pingedList, pingContext, .ping (pingOf 1100 [1] false)) := by simpa [Runs.trace] using hp
  refine ⟨fun mn hmn => ?_, fun _ => ⟨by decide +kernel, by decide +kernel⟩⟩
  rw [pingedList_node] at hmn
  cases hmn
  decide +kernel

/-- An announcement without a ping takes away the last one. -/
theorem announcement_without_ping :
    ((Runs.run (NodeMessage.process smallMnEnv) pingedList [(collateralContext, .announce none
      { announcement ⟨7, 1⟩ ⟨8, 0⟩ [5] 600 250003 with vchSig := [1] })]).mapMasternodes[(⟨7, 1⟩ : COutPoint)]?).map
        (fun mn => (mn.sigTime, mn.lastPing.sigTime)) = some (600, 0) ∧
      (pingedList.mapMasternodes[(⟨7, 1⟩ : COutPoint)]?).map (fun mn => (mn.sigTime, mn.lastPing.sigTime)) =
        some (50, 500) := by
  decide +kernel

end Qstees.Proofs
