import Qstees.Proofs.MasternodeList

/-!
# Pings that are not authentic

A ping is recorded as seen, and its sentinel flag is taken as a watchdog vote, before its signature is looked at.
-/

namespace Qstees.Proofs

open CMasternodeMan

variable {E : MnEnv} {ctx ctx' : MnContext} {man : CMasternodeMan}

structure PingRead (E : MnEnv) (ctx : MnContext) (man : CMasternodeMan) (mnp : CMasternodePing) : Prop where
  on : ctx.fLiteMode = false
  synced : ctx.isBlockchainSynced = true
  unseen : man.mapSeenMasternodePing[E.hashPing mnp.vin mnp.sigTime]? = none

/-- The ping of a listed node that `CheckAndUpdate` accepts. -/
structure PingAccepted (E : MnEnv) (ctx : MnContext) (man : CMasternodeMan) (mnp : CMasternodePing) : Prop
    extends PingRead E ctx man mnp where
  listed : ∃ pmn, man.mapMasternodes[mnp.vin.prevout]? = some pmn ∧ pmn.nActiveState ≠ .expired ∧
    mnp.timely E ctx pmn false = true ∧ mnp.checkSignature E pmn.pubKeyMasternode = true
  simple : (mnp.simpleCheck ctx.toMasternodeMoment).1 = true

def votedAt (pmn : CMasternode) (time : Int) : CMasternode := { pmn with nTimeLastWatchdogVote := time }

def voteTime (ctx : MnContext) (nVoteTime : Int) : Int := if nVoteTime = 0 then ctx.getAdjustedTime else nVoteTime

lemma updateWatchdogVoteTime_none {outpoint : COutPoint} (h : man.mapMasternodes[outpoint]? = none) (nVoteTime : Int) :
    man.updateWatchdogVoteTime ctx outpoint nVoteTime = man := by
  rw [updateWatchdogVoteTime, h]

lemma updateWatchdogVoteTime_some {outpoint : COutPoint} {pmn : CMasternode}
    (h : man.mapMasternodes[outpoint]? = some pmn)
    (nVoteTime : Int) : man.updateWatchdogVoteTime ctx outpoint nVoteTime =
      { man.setNode outpoint (votedAt pmn (voteTime ctx nVoteTime)) with nLastWatchdogVoteTime := ctx.getTime } := by
  rw [updateWatchdogVoteTime, h]
  rfl

variable (E ctx man) in
lemma recordPing_cases (mnp : CMasternodePing) :
    (mnp.fSentinelIsCurrent = true ∧ ∃ pmn, man.mapMasternodes[mnp.vin.prevout]? = some pmn ∧
      man.recordPing E ctx mnp =
        { (man.insertSeenPing E mnp).setNode mnp.vin.prevout (votedAt pmn (voteTime ctx mnp.sigTime)) with
        nLastWatchdogVoteTime := ctx.getTime }) ∨
      ((mnp.fSentinelIsCurrent = false ∨ man.mapMasternodes[mnp.vin.prevout]? = none) ∧
        man.recordPing E ctx mnp = man.insertSeenPing E mnp) := by
  unfold recordPing
  cases hflag : mnp.fSentinelIsCurrent with
  | false => exact .inr ⟨.inl rfl, rfl⟩
  | true =>
    rw [if_pos rfl]
    cases hpmn : man.mapMasternodes[mnp.vin.prevout]? with
    | none =>
      have hseen : (man.insertSeenPing E mnp).mapMasternodes[mnp.vin.prevout]? = none := hpmn
      exact .inr ⟨.inr rfl, updateWatchdogVoteTime_none hseen _⟩
    | some pmn =>
      have hseen : (man.insertSeenPing E mnp).mapMasternodes[mnp.vin.prevout]? = some pmn := hpmn
      exact .inl ⟨rfl, pmn, rfl, updateWatchdogVoteTime_some hseen _⟩

variable (E ctx) in
lemma recordPing_listed {o : COutPoint} {pmn : CMasternode} (h : man.mapMasternodes[o]? = some pmn)
    (mnp : CMasternodePing) :
    ∃ time, (man.recordPing E ctx mnp).mapMasternodes[o]? = some (votedAt pmn time) := by
  rcases recordPing_cases E ctx man mnp with ⟨-, pmn', hpmn', heq⟩ | ⟨-, heq⟩
  · rw [heq]
    change ∃ time, ((man.insertSeenPing E mnp).setNode mnp.vin.prevout _).mapMasternodes[o]? = _
    rw [getElem?_setNode]
    split_ifs with ho
    · rw [ho, h] at hpmn'
      cases hpmn'
      exact ⟨_, rfl⟩
    · exact ⟨_, h⟩
  · rw [heq]
    exact ⟨pmn.nTimeLastWatchdogVote, h⟩

lemma recordPing_unlisted {o : COutPoint} (h : man.mapMasternodes[o]? = none) (mnp : CMasternodePing) :
    (man.recordPing E ctx mnp).mapMasternodes[o]? = none := by
  rcases recordPing_cases E ctx man mnp with ⟨-, pmn', hpmn', heq⟩ | ⟨-, heq⟩
  · rw [heq]
    change ((man.insertSeenPing E mnp).setNode mnp.vin.prevout _).mapMasternodes[o]? = none
    rw [getElem?_setNode]
    split_ifs with ho
    · rw [ho, h] at hpmn'
      cases hpmn'
    · exact h
  · rw [heq]
    exact h

lemma mapSeenMasternodePing_recordPing (mnp : CMasternodePing) :
    (man.recordPing E ctx mnp).mapSeenMasternodePing = (man.insertSeenPing E mnp).mapSeenMasternodePing := by
  rcases recordPing_cases E ctx man mnp with ⟨-, pmn', hpmn', heq⟩ | ⟨-, heq⟩
  · rw [heq]
    rfl
  · rw [heq]

variable {mnp : CMasternodePing}

lemma processPing_of_not_read (h : ¬PingRead E ctx man mnp) :
    (man.processPing E ctx mnp).2 = man := by
  unfold processPing
  by_cases hoff : (ctx.fLiteMode || !ctx.isBlockchainSynced) = true
  · rw [if_pos hoff]
  · rw [if_neg hoff]
    by_cases hseen : (man.mapSeenMasternodePing[E.hashPing mnp.vin mnp.sigTime]?).isSome = true
    · rw [if_pos hseen]
    · simp only [Bool.or_eq_true, Bool.not_eq_true', not_or, Bool.not_eq_true, Bool.not_eq_false] at hoff
      exact absurd ⟨hoff.1, hoff.2, by simpa using hseen⟩ h

lemma processPing_of_read (h : PingRead E ctx man mnp) :
    (man.processPing E ctx mnp).2 =
      match (man.recordPing E ctx mnp).mapMasternodes[mnp.vin.prevout]? with
      | none => man.recordPing E ctx mnp
      | some pmn => if pmn.nActiveState = .expired then man.recordPing E ctx mnp
          else (mnp.checkAndUpdate E ctx (man.recordPing E ctx mnp) mnp.vin.prevout pmn false).2.2 := by
  unfold processPing
  rw [if_neg (by simp [h.on, h.synced]), if_neg (by simp [h.unseen])]
  dsimp only
  cases (man.recordPing E ctx mnp).mapMasternodes[mnp.vin.prevout]? with
  | none => rfl
  | some pmn =>
    dsimp only
    split_ifs <;> rfl

lemma processPing_unsigned (h : PingRead E ctx man mnp)
    (hbad : ∀ pmn, man.mapMasternodes[mnp.vin.prevout]? = some pmn →
      mnp.checkSignature E pmn.pubKeyMasternode = false) :
    (man.processPing E ctx mnp).2 = man.recordPing E ctx mnp := by
  rw [processPing_of_read h]
  cases hpmn : man.mapMasternodes[mnp.vin.prevout]? with
  | none => rw [recordPing_unlisted hpmn]
  | some pmn =>
    obtain ⟨time, hvoted⟩ := recordPing_listed E ctx hpmn mnp
    have hsig : mnp.checkSignature E (votedAt pmn time).pubKeyMasternode = false := hbad pmn hpmn
    rw [hvoted]
    dsimp only
    split_ifs
    · rfl
    · unfold CMasternodePing.checkAndUpdate
      dsimp only
      rw [hsig]
      split_ifs <;> first | rfl | contradiction

def pingData (mn : CMasternode) : CMasternodePing × Int × NodeState :=
  (mn.lastPing, mn.nTimeLastWatchdogVote, mn.nActiveState)

/-- No node's last ping, watchdog vote or state changes, nor the time of the last watchdog vote. -/
structure Unaffected (man after : CMasternodeMan) : Prop where
  node : ∀ o : COutPoint, (after.mapMasternodes[o]?).map pingData = (man.mapMasternodes[o]?).map pingData
  watchdog : after.nLastWatchdogVoteTime = man.nLastWatchdogVoteTime

/-- The ping does not carry the sentinel flag for a listed node, or the two times that it sets are set already. -/
def Quiet (ctx : MnContext) (man : CMasternodeMan) (mnp : CMasternodePing) : Prop :=
  mnp.fSentinelIsCurrent = true → ∀ pmn, man.mapMasternodes[mnp.vin.prevout]? = some pmn →
    pmn.nTimeLastWatchdogVote = voteTime ctx mnp.sigTime ∧ man.nLastWatchdogVoteTime = ctx.getTime

lemma recordPing_unaffected_iff (mnp : CMasternodePing) :
    Unaffected man (man.recordPing E ctx mnp) ↔ Quiet ctx man mnp := by
  rcases recordPing_cases E ctx man mnp with ⟨hflag, pmn, hpmn, heq⟩ | ⟨hnot, heq⟩
  · rw [heq]
    constructor
    · intro h _ pmn' hpmn'
      rw [hpmn] at hpmn'
      cases hpmn'
      have hnode := h.node mnp.vin.prevout
      change (((man.insertSeenPing E mnp).setNode mnp.vin.prevout _).mapMasternodes[mnp.vin.prevout]?).map pingData =
        _ at hnode
      rw [getElem?_setNode, if_pos rfl, hpmn] at hnode
      simp only [Option.map_some, pingData, votedAt, Option.some.injEq, Prod.mk.injEq, true_and, and_true] at hnode
      exact ⟨hnode.symm, h.watchdog.symm⟩
    · intro h
      obtain ⟨htime, hlast⟩ := h hflag pmn hpmn
      have hvoted : pingData (votedAt pmn (voteTime ctx mnp.sigTime)) = pingData pmn := by rw [← htime]; rfl
      refine ⟨fun o => ?_, hlast.symm⟩
      change (((man.insertSeenPing E mnp).setNode mnp.vin.prevout _).mapMasternodes[o]?).map pingData = _
      rw [getElem?_setNode]
      split_ifs with ho
      · rw [← ho, hpmn, Option.map_some, Option.map_some, hvoted]
      · rfl
  · rw [heq]
    refine ⟨fun _ hflag pmn hpmn => ?_, fun _ => ⟨fun _ => rfl, rfl⟩⟩
    rcases hnot with hnot | hnot
    · rw [hflag] at hnot
      cases hnot
    · rw [hpmn] at hnot
      cases hnot

lemma PingAccepted.recordPing_iff {ping : CMasternodePing} (h : PingAccepted E ctx' man ping) :
    PingAccepted E ctx' (man.recordPing E ctx mnp) ping ↔
      E.hashPing mnp.vin mnp.sigTime ≠ E.hashPing ping.vin ping.sigTime := by
  have hseen : (man.recordPing E ctx mnp).mapSeenMasternodePing[E.hashPing ping.vin ping.sigTime]? = none ↔
      E.hashPing mnp.vin mnp.sigTime ≠ E.hashPing ping.vin ping.sigTime := by
    rw [mapSeenMasternodePing_recordPing]
    simp only [insertSeenPing, Std.ExtTreeMap.getElem?_insertIfNew, Std.LawfulEqCmp.compare_eq_iff_eq]
    split_ifs with hk
    · simp [hk.1]
    · refine ⟨fun _ heq => hk ⟨heq, ?_⟩, fun _ => h.unseen⟩
      rw [heq, Std.ExtTreeMap.mem_iff_isSome_getElem?, h.unseen]
      exact Bool.false_ne_true
  refine ⟨fun h' => hseen.mp h'.unseen, fun hne => ⟨⟨h.on, h.synced, hseen.mpr hne⟩, ?_, h.simple⟩⟩
  obtain ⟨pmn, hpmn, hstate, htimely, hsig⟩ := h.listed
  obtain ⟨time, hvoted⟩ := recordPing_listed E ctx hpmn mnp
  exact ⟨votedAt pmn time, hvoted, hstate, htimely, hsig⟩

/-- A ping with a wrong signature changes nothing and stands in no one's way, if and only if it is not read, or it moves
no watchdog time and no acceptable ping has its hash. -/
theorem unsignedPing_harmless_iff {mnp : CMasternodePing}
    (hbad : ∀ pmn, man.mapMasternodes[mnp.vin.prevout]? = some pmn →
      mnp.checkSignature E pmn.pubKeyMasternode = false) :
    (Unaffected man (man.processPing E ctx mnp).2 ∧
        ∀ ping, PingAccepted E ctx' man ping → PingAccepted E ctx' (man.processPing E ctx mnp).2 ping) ↔
      ¬PingRead E ctx man mnp ∨
        (Quiet ctx man mnp ∧
          ∀ ping, PingAccepted E ctx' man ping →
            E.hashPing mnp.vin mnp.sigTime ≠ E.hashPing ping.vin ping.sigTime) := by
  by_cases hread : PingRead E ctx man mnp
  · rw [processPing_unsigned hread hbad, recordPing_unaffected_iff]
    simp only [hread, not_true_eq_false, false_or]
    apply and_congr_right
    intro _
    exact forall₂_congr (fun ping h => h.recordPing_iff)
  · rw [processPing_of_not_read hread]
    simp only [hread, not_false_eq_true, true_or, iff_true]
    exact ⟨⟨fun _ => rfl, rfl⟩, fun _ h => h⟩

def listOf (nActiveState : NodeState) : CMasternodeMan :=
  emptyList.setNode ⟨7, 1⟩ (ownAnnouncement.toCMasternode nActiveState)

def pingContext : MnContext := { collateralContext with mapBlockIndex := fun _ => true }

def pingOf (sigTime : Int) (vchSig : List UInt8) (fSentinelIsCurrent : Bool) : CMasternodePing where
  vin := ⟨⟨7, 1⟩, [], SEQUENCE_FINAL, []⟩
  blockHash := 1
  sigTime := sigTime
  vchSig := vchSig
  fSentinelIsCurrent := fSentinelIsCurrent

lemma pingOf_unsigned (sigTime : Int) (flag : Bool) (key : CPubKey) :
    (pingOf sigTime [9] flag).checkSignature smallMnEnv key = false := rfl

theorem unsignedPing_harmless_expired :
    Unaffected (listOf .expired) ((listOf .expired).processPing smallMnEnv pingContext (pingOf 500 [9] false)).2 ∧
      ∀ ping, PingAccepted smallMnEnv pingContext (listOf .expired) ping →
        PingAccepted smallMnEnv pingContext ((listOf .expired).processPing smallMnEnv pingContext
          (pingOf 500 [9] false)).2 ping := by
  refine (unsignedPing_harmless_iff (fun pmn _ => pingOf_unsigned 500 false pmn.pubKeyMasternode)).mpr (.inr ⟨?_, ?_⟩)
  · intro hflag
    cases hflag
  · intro ping h
    obtain ⟨pmn, hpmn, hstate, -⟩ := h.listed
    rw [listOf, getElem?_setNode] at hpmn
    split_ifs at hpmn
    · cases hpmn
      exact absurd rfl hstate
    · cases hpmn

/-- A forged ping with the flag moves the watchdog times, and keeps the genuine ping of the same time out. -/
theorem unsignedPing_harms :
    (∀ pmn, (listOf .enabled).mapMasternodes[(pingOf 500 [9] true).vin.prevout]? = some pmn →
        (pingOf 500 [9] true).checkSignature smallMnEnv pmn.pubKeyMasternode = false) ∧
      ¬Unaffected (listOf .enabled) ((listOf .enabled).processPing smallMnEnv pingContext (pingOf 500 [9] true)).2 ∧
      PingAccepted smallMnEnv pingContext (listOf .enabled) (pingOf 500 [1] true) ∧
      ¬PingAccepted smallMnEnv pingContext ((listOf .enabled).processPing smallMnEnv pingContext
        (pingOf 500 [9] true)).2 (pingOf 500 [1] true) := by
  refine ⟨fun pmn _ => pingOf_unsigned 500 true pmn.pubKeyMasternode, ?_, ?_, ?_⟩
  · intro h
    exact absurd h.watchdog (by decide +kernel)
  · exact ⟨⟨rfl, rfl, by decide +kernel⟩, ⟨ownAnnouncement.toCMasternode .enabled, by decide +kernel⟩,
      by decide +kernel⟩
  · intro h
    exact absurd h.unseen (by decide +kernel)

end Qstees.Proofs
