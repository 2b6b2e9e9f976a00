import Qstees.Model.MasternodeMan
import Qstees.Proofs.Announcements

/-!
# Announcements and the masternode list

What a check of a node keeps, what an announcement enters into the list, and who owns the collateral of a node that is
added.
-/

namespace Qstees.Proofs

open CMasternodeMan

structure NodeData where
  vin : CTxIn
  vinBurnFund : CTxIn
  addr : CService
  pubKeyCollateralAddress : CPubKey
  pubKeyMasternode : CPubKey
  vchSig : List UInt8
  sigTime : Int
  nProtocolVersion : Int
deriving DecidableEq

def nodeData (mn : CMasternode) : NodeData :=
  ⟨mn.vin, mn.vinBurnFund, mn.addr, mn.pubKeyCollateralAddress, mn.pubKeyMasternode, mn.vchSig, mn.sigTime,
    mn.nProtocolVersion⟩

variable {E : MnEnv} {ctx : MnContext} {man : CMasternodeMan}

/-- Two states of one node with the same announcement, ping and time of the last check. -/
def KeepsIdentity (mn mn' : CMasternode) : Prop :=
  nodeData mn' = nodeData mn ∧ mn'.lastPing = mn.lastPing ∧ mn'.nTimeLastChecked = mn.nTimeLastChecked

lemma updateInfinityNodeInfo_keepsIdentity (full : Bool) (mn : CMasternode) :
    KeepsIdentity mn (mn.updateInfinityNodeInfo E ctx full) := by
  unfold CMasternode.updateInfinityNodeInfo
  split
  · split
    · dsimp only
      split_ifs <;> exact ⟨rfl, rfl, rfl⟩
    · exact ⟨rfl, rfl, rfl⟩
  · exact ⟨rfl, rfl, rfl⟩

lemma checkActivity_keepsIdentity (mn : CMasternode) : KeepsIdentity mn (mn.checkActivity ctx man) := by
  unfold CMasternode.checkActivity
  dsimp only
  split_ifs <;> exact ⟨rfl, rfl, rfl⟩

lemma checkChain_keepsIdentity (full : Bool) (mn : CMasternode) : KeepsIdentity mn (mn.checkChain E ctx man full) := by
  unfold CMasternode.checkChain
  split_ifs
  all_goals first
    | exact ⟨rfl, rfl, rfl⟩
    | exact checkActivity_keepsIdentity mn
    | exact checkActivity_keepsIdentity _

lemma KeepsIdentity.trans {a b c : CMasternode} (h₁ : KeepsIdentity a b) (h₂ : KeepsIdentity b c) : KeepsIdentity a c :=
  ⟨h₂.1.trans h₁.1, h₂.2.1.trans h₁.2.1, h₂.2.2.trans h₁.2.2⟩

lemma checkUpdated_keepsIdentity (full : Bool) (mn : CMasternode) :
    KeepsIdentity mn (if mn.updateThrows E ctx full then mn.updateInfinityNodeInfo E ctx full
      else (mn.updateInfinityNodeInfo E ctx full).checkChain E ctx man full) := by
  split_ifs
  · exact updateInfinityNodeInfo_keepsIdentity full mn
  · exact (updateInfinityNodeInfo_keepsIdentity full mn).trans (checkChain_keepsIdentity full _)

section

variable (E ctx man) (force : Bool) (mn : CMasternode)

lemma check_cases :
    mn.check E ctx man force = mn ∨ KeepsIdentity { mn with nTimeLastChecked := ctx.getTime }
      (mn.check E ctx man force) := by
  unfold CMasternode.check
  split_ifs with hshutdown hrecent
  · exact .inl rfl
  · exact .inl rfl
  right
  dsimp only
  by_cases hspent : mn.nActiveState = .outpointSpent
  · rw [if_pos hspent]
    exact ⟨rfl, rfl, rfl⟩
  · rw [if_neg hspent]
    refine KeepsIdentity.trans ?_ (checkUpdated_keepsIdentity _ _)
    split_ifs <;> exact ⟨rfl, rfl, rfl⟩

@[simp]
lemma nodeData_check : nodeData (mn.check E ctx man force) = nodeData mn := by
  rcases check_cases E ctx man force mn with h | h
  · rw [h]
  · exact h.1

@[simp]
lemma lastPing_check : (mn.check E ctx man force).lastPing = mn.lastPing := by
  rcases check_cases E ctx man force mn with h | h
  · rw [h]
  · exact h.2.1

lemma sigTime_check : (mn.check E ctx man force).sigTime = mn.sigTime :=
  congrArg NodeData.sigTime (nodeData_check E ctx man force mn)

lemma check_check : (mn.check E ctx man false).check E ctx man false = mn.check E ctx man false := by
  rcases check_cases E ctx man false mn with h | h
  · rw [h, h]
  · generalize mn.check E ctx man false = checked at h
    unfold CMasternode.check
    have hnow : checked.nTimeLastChecked = ctx.getTime := h.2.2
    simp [hnow, MASTERNODE_CHECK_SECONDS]

end

def SameData (man man' : CMasternodeMan) : Prop :=
  ∀ outpoint : COutPoint, (man'.mapMasternodes[outpoint]?).map nodeData = (man.mapMasternodes[outpoint]?).map nodeData

lemma SameData.some {man' : CMasternodeMan} {o : COutPoint} {mn : CMasternode} (h : SameData man man')
    (hmn : man.mapMasternodes[o]? = some mn) :
    ∃ mn', man'.mapMasternodes[o]? = some mn' ∧ nodeData mn' = nodeData mn := by
  have ho := h o
  rw [hmn] at ho
  exact Option.map_eq_some_iff.mp ho

/-- The list with the same data in every node, and with the last ping in every node or one that `ok` allows in its
place. -/
structure Repinged (ok : COutPoint → CMasternodePing → CMasternodePing → Prop) (man man' : CMasternodeMan) : Prop where
  data : SameData man man'
  ping : ∀ (o : COutPoint) (mn mn' : CMasternode), man.mapMasternodes[o]? = some mn →
    man'.mapMasternodes[o]? = some mn' → mn'.lastPing = mn.lastPing ∨ ok o mn.lastPing mn'.lastPing

abbrev KeepsPings : CMasternodeMan → CMasternodeMan → Prop := Repinged (fun _ _ _ => False)

section Repinged

variable {ok ok₁ ok₂ : COutPoint → CMasternodePing → CMasternodePing → Prop} {a b c : CMasternodeMan}

lemma Repinged.of_eq (h : b.mapMasternodes = a.mapMasternodes) : Repinged ok a b := by
  refine ⟨fun _ => by rw [h], ?_⟩
  intro o mn mn' hmn hmn'
  rw [h, hmn] at hmn'
  cases hmn'
  exact .inl rfl

lemma Repinged.trans (h₁ : Repinged ok₁ a b) (h₂ : Repinged ok₂ b c)
    (hok : ∀ o p q r, (q = p ∨ ok₁ o p q) → (r = q ∨ ok₂ o q r) → r = p ∨ ok o p r) : Repinged ok a c := by
  refine ⟨fun o => (h₂.data o).trans (h₁.data o), ?_⟩
  intro o mn mn'' hmn hmn''
  obtain ⟨mn', hmn', -⟩ := h₁.data.some hmn
  exact hok o _ _ _ (h₁.ping o mn mn' hmn hmn') (h₂.ping o mn' mn'' hmn' hmn'')

lemma Repinged.kept (h₁ : Repinged ok a b) (h₂ : KeepsPings b c) : Repinged ok a c :=
  h₁.trans h₂ (by rintro o p q r hq (rfl | ⟨⟨⟩⟩); exact hq)

end Repinged

@[simp]
lemma getElem?_setNode (outpoint o : COutPoint) (mn : CMasternode) :
    (man.setNode outpoint mn).mapMasternodes[o]? = if outpoint = o then some mn else man.mapMasternodes[o]? := by
  simp [setNode, Std.ExtTreeMap.getElem?_insert]

variable {outpoint : COutPoint} {mnb : CMasternodeBroadcast}

lemma Repinged.setNode {ok : COutPoint → CMasternodePing → CMasternodePing → Prop} {mn mn' : CMasternode}
    (h : man.mapMasternodes[outpoint]? = some mn) (hdata : nodeData mn' = nodeData mn)
    (hping : mn'.lastPing = mn.lastPing ∨ ok outpoint mn.lastPing mn'.lastPing) :
    Repinged ok man (man.setNode outpoint mn') := by
  constructor
  · intro o
    rw [getElem?_setNode]
    split_ifs with ho
    · rw [← ho, h]
      simp [hdata]
    · rfl
  · intro o m m' hm hm'
    rw [getElem?_setNode] at hm'
    split_ifs at hm' with ho
    · subst ho
      rw [h] at hm
      cases hm
      cases hm'
      exact hping
    · rw [hm] at hm'
      cases hm'
      exact .inl rfl

@[simp] lemma mapMasternodes_eraseSeen (hash : UInt256) :
    (man.eraseSeen hash).mapMasternodes = man.mapMasternodes := rfl

@[simp]
lemma mapMasternodes_insertSeen (hash : UInt256) (seen : Int × CMasternodeBroadcast) :
    (man.insertSeen hash seen).mapMasternodes = man.mapMasternodes := rfl

@[simp]
lemma mapMasternodes_insertSeenPing (mnp : CMasternodePing) :
    (man.insertSeenPing E mnp).mapMasternodes = man.mapMasternodes := rfl

@[simp]
lemma mapMasternodes_updateSeenPing (mn : CMasternode) (mnp : CMasternodePing) :
    (man.updateSeenPing E mn mnp).mapMasternodes = man.mapMasternodes := by
  unfold updateSeenPing
  split <;> rfl

@[simp]
lemma mapMasternodes_setActive (active : ActiveNode) : (man.setActive active).mapMasternodes = man.mapMasternodes := rfl

@[simp]
lemma mapMasternodes_setState (nState : ActiveState) : (man.setState nState).mapMasternodes = man.mapMasternodes := rfl

lemma updateWatchdogVoteTime_kept (outpoint : COutPoint) (nVoteTime : Int) :
    KeepsPings man (man.updateWatchdogVoteTime ctx outpoint nVoteTime) := by
  unfold updateWatchdogVoteTime
  split
  · exact Repinged.of_eq rfl
  · rename_i pmn h
    refine Repinged.kept (Repinged.setNode h ?_ (.inl ?_)) (Repinged.of_eq rfl) <;> rfl

lemma getElem?_of_findByKey {key : CPubKey} {mn : CMasternode}
    (h : man.findByKey key = some (outpoint, mn)) : man.mapMasternodes[outpoint]? = some mn := by
  have hmem : (outpoint, mn) ∈ man.mapMasternodes.toList := List.mem_of_find?_eq_some h
  exact Std.ExtTreeMap.mem_toList_iff_getElem?_eq_some.mp hmem

lemma check_kept {mn : CMasternode} (h : man.mapMasternodes[outpoint]? = some mn)
    (man' : CMasternodeMan) (force : Bool) :
    KeepsPings man (man.setNode outpoint (mn.check E ctx man' force)) :=
  Repinged.setNode h (nodeData_check E ctx man' force mn) (.inl (lastPing_check E ctx man' force mn))

lemma checkMasternode_kept (key : CPubKey) (force : Bool) : KeepsPings man (man.checkMasternode E ctx key force) := by
  unfold checkMasternode
  split
  · exact Repinged.of_eq rfl
  · rename_i h
    exact check_kept (getElem?_of_findByKey h) man force

lemma setMasternodeLastPing_repinged {ok : COutPoint → CMasternodePing → CMasternodePing → Prop} {pmn : CMasternode}
    (h : man.mapMasternodes[outpoint]? = some pmn) {mnp : CMasternodePing} (hok : ok outpoint pmn.lastPing mnp) :
    Repinged ok man (man.setMasternodeLastPing E ctx outpoint mnp) := by
  rw [setMasternodeLastPing, h]
  have hset : Repinged ok man (man.setNode outpoint { pmn with lastPing := mnp }) := Repinged.setNode h rfl (.inr hok)
  have hseen : ∀ later : CMasternodeMan, KeepsPings later ((later.insertSeenPing E mnp).updateSeenPing E pmn mnp) := by
    intro later
    apply Repinged.of_eq
    rw [mapMasternodes_updateSeenPing, mapMasternodes_insertSeenPing]
  dsimp only
  split_ifs
  · exact (hset.kept (updateWatchdogVoteTime_kept _ _)).kept (hseen _)
  · exact hset.kept (hseen _)

/-- The ping `q` is no older than `p`, unless `p` is the empty one. -/
def Later (p q : CMasternodePing) : Prop := p.same {} = false → p.sigTime ≤ q.sigTime

lemma later_of_not_pingedWithin {mn : CMasternode} {seconds : Int} {mnp : CMasternodePing} (hseconds : 0 ≤ seconds)
    (h : mn.isPingedWithin ctx seconds mnp.sigTime = false)
    (htime : mnp.sigTime = -1 → mnp.sigTime = ctx.getAdjustedTime) :
    Later mn.lastPing mnp := by
  intro hsome
  unfold CMasternode.isPingedWithin at h
  rw [hsome] at h
  simp only [Bool.false_eq_true, if_false, decide_eq_false_iff_not, not_lt] at h
  split_ifs at h with hnow
  · have := htime hnow
    omega
  · omega

lemma sendMasternodePing_repinged : Repinged (fun _ => Later) man (man.sendMasternodePing E ctx) := by
  unfold sendMasternodePing
  dsimp only
  split_ifs
  · exact Repinged.of_eq rfl
  split
  · exact Repinged.of_eq rfl
  rename_i pmn hpmn
  split
  · exact Repinged.of_eq rfl
  · split_ifs with hsig hrecent
    · exact Repinged.of_eq rfl
    · exact Repinged.of_eq rfl
    · apply setMasternodeLastPing_repinged hpmn
      exact later_of_not_pingedWithin (by decide) (Bool.eq_false_iff.mpr hrecent) (fun _ => rfl)

lemma manageStateRemote_kept : KeepsPings man (man.manageStateRemote E ctx) := by
  unfold manageStateRemote
  dsimp only
  have hcheck : KeepsPings man (man.checkMasternode E ctx man.activeMasternode.pubKeyMasternode true) :=
    checkMasternode_kept _ _
  refine hcheck.kept ?_
  split
  · exact Repinged.of_eq rfl
  · split_ifs <;> exact Repinged.of_eq rfl

lemma manageState_repinged : Repinged (fun _ => Later) man (man.manageState E ctx) := by
  have hsend : ∀ later : CMasternodeMan, KeepsPings man later →
    Repinged (fun _ => Later) man (later.sendMasternodePing E ctx) := by
    intro later h
    exact h.trans sendMasternodePing_repinged (by rintro o p q r (rfl | ⟨⟨⟩⟩) hr; exact hr)
  unfold manageState
  dsimp only
  split_ifs
  all_goals try exact Repinged.of_eq rfl
  all_goals apply hsend
  all_goals try unfold manageStateInitial
  all_goals try split_ifs
  all_goals try refine Repinged.kept ?_ manageStateRemote_kept
  all_goals exact Repinged.of_eq rfl

@[simp]
lemma mapMasternodes_seenAgain (pfrom : Option (List UInt8)) (hash : UInt256) (mnb : CMasternodeBroadcast)
    (seen : Int × CMasternodeBroadcast) : (man.seenAgain E ctx pfrom hash mnb seen).mapMasternodes =
      man.mapMasternodes := by
  unfold seenAgain
  dsimp only
  split
  · split_ifs <;> rfl
  · split_ifs <;> rfl

def Fresh (E : MnEnv) (man : CMasternodeMan) (mnb : CMasternodeBroadcast) : Prop :=
  man.mapSeenMasternodeBroadcast[mnb.getHash E]? = none ∨ mnb.fRecovery = true

lemma checkMnb_of_fresh (h : Fresh E man mnb) (pfrom : Option (List UInt8)) :
    man.checkMnbAndUpdateMasternodeList E ctx pfrom mnb = man.processNew E ctx mnb := by
  unfold checkMnbAndUpdateMasternodeList
  rcases h with h | h
  · rw [h]
  · rw [h]
    cases man.mapSeenMasternodeBroadcast[mnb.getHash E]? <;> rfl

lemma checkMnb_of_seen (h : ¬Fresh E man mnb) (pfrom : Option (List UInt8)) :
    (man.checkMnbAndUpdateMasternodeList E ctx pfrom mnb).1 = true ∧
      (man.checkMnbAndUpdateMasternodeList E ctx pfrom mnb).2.2.mapMasternodes = man.mapMasternodes := by
  unfold Fresh at h
  obtain ⟨hseen, hrecovery⟩ := not_or.mp h
  obtain ⟨seen, hseen⟩ := Option.ne_none_iff_exists'.mp hseen
  have hrecovery : mnb.fRecovery = false := Bool.eq_false_iff.mpr hrecovery
  unfold checkMnbAndUpdateMasternodeList
  rw [hseen, hrecovery]
  exact ⟨rfl, mapMasternodes_seenAgain _ _ _ _⟩

lemma processNew_unlisted (h : man.mapMasternodes[mnb.vin.prevout]? = none) :
    (man.processNew E ctx mnb).2.2.mapMasternodes = man.mapMasternodes ∨
      ((mnb.simpleCheck E.toMasternodeEnv ctx.toMasternodeMoment).ok = true ∧
        ∃ hash, mnb.checkOutpoint E ctx man = .ok hash) := by
  unfold processNew
  dsimp only
  split_ifs with hsimple
  · exact .inl rfl
  rw [mapMasternodes_insertSeen, h]
  dsimp only
  unfold addNew
  have hsame : mnb.checkOutpoint E ctx (man.insertSeen (mnb.getHash E) (ctx.getTime, mnb)) =
    mnb.checkOutpoint E ctx man := rfl
  rw [hsame]
  cases hcheck : mnb.checkOutpoint E ctx man with
  | error e =>
    left
    dsimp only
    split_ifs <;> rfl
  | ok hash => exact .inr ⟨by simpa using hsimple, hash, rfl⟩

def collateralPayee (E : MnEnv) (mnb : CMasternodeBroadcast) : CScript :=
  getScriptForDestination (.keyID (E.getID mnb.pubKeyCollateralAddress))

lemma checkCollateral_eq_ok {nHeight : Int} (h : checkCollateral E ctx outpoint = .ok nHeight) :
    ∃ coin, ctx.getUTXOCoin outpoint = some coin ∧ hasCollateralAmount E coin = true ∧
      (coin.nHeight : Int) = nHeight := by
  unfold checkCollateral at h
  split at h
  · cases h
  · rename_i coin hcoin
    split_ifs at h with hamount
    cases h
    exact ⟨coin, hcoin, hamount, rfl⟩

lemma exists_of_associated (h : mnb.isInputAssociatedWithPubkey E ctx = true) :
    ∃ i coin, ctx.getUTXOCoin ⟨mnb.vin.prevout.hash, i⟩ = some coin ∧ hasCollateralAmount E coin = true ∧
      coin.out.scriptPubKey = collateralPayee E mnb := by
  unfold CMasternodeBroadcast.isInputAssociatedWithPubkey at h
  dsimp only at h
  split at h
  · cases h
  rename_i tx block htx
  rw [List.any_eq_true] at h
  obtain ⟨i, -, hi⟩ := h
  rw [ctx.hash_getTransaction _ _ _ _ htx, Bool.and_eq_true] at hi
  obtain ⟨hcollateral, hscript⟩ := hi
  split at hcollateral
  · rename_i nHeight hok
    obtain ⟨coin, hcoin, hamount, -⟩ := checkCollateral_eq_ok hok
    rw [ctx.coin_getTransaction _ _ _ _ hcoin htx] at hscript
    exact ⟨i, coin, hcoin, hamount, by simpa [collateralPayee] using hscript⟩
  · cases hcollateral

lemma checkOutpoint_eq_ok {hash : UInt256} (h : mnb.checkOutpoint E ctx man = .ok hash) :
    E.verifyMessage mnb.pubKeyCollateralAddress mnb.vchSig (mnb.strMessage E.toMasternodeEnv) = true ∧
      mnb.isInputAssociatedWithPubkey E ctx = true ∧
      ∃ coin, ctx.getUTXOCoin mnb.vin.prevout = some coin ∧ hasCollateralAmount E coin = true ∧
        E.nMasternodeMinimumConfirmations ≤ ctx.height - coin.nHeight + 1 := by
  unfold CMasternodeBroadcast.checkOutpoint at h
  iterate 3
    split at h
    · cases h
  rename_i hsig hlock
  split at h
  · cases h
  · cases h
  rename_i nHeight hok
  split_ifs at h with hconf hassoc hearly
  obtain ⟨coin, hcoin, hamount, hheight⟩ := checkCollateral_eq_ok hok
  refine ⟨?_, by simpa using hassoc, coin, hcoin, hamount, by omega⟩
  unfold CMasternodeBroadcast.checkSignature at hsig
  split_ifs at hsig with hverify
  · exact hverify
  · simp at hsig

/-- The coin that the announcement names is unspent, has the amount and the confirmations, and pays the key under
which the announcement is signed. -/
def OwnsCollateral (E : MnEnv) (ctx : MnContext) (mnb : CMasternodeBroadcast) : Prop :=
  E.verifyMessage mnb.pubKeyCollateralAddress mnb.vchSig (mnb.strMessage E.toMasternodeEnv) = true ∧
    ∃ coin, ctx.getUTXOCoin mnb.vin.prevout = some coin ∧ hasCollateralAmount E coin = true ∧
      E.nMasternodeMinimumConfirmations ≤ ctx.height - coin.nHeight + 1 ∧ coin.out.scriptPubKey = collateralPayee E mnb

/-- No other output of the transaction of `outpoint` is an unspent coin of the collateral amount for `payee`. -/
def SoleCollateral (E : MnEnv) (ctx : MnContext) (outpoint : COutPoint) (payee : CScript) : Prop :=
  ∀ i coin, i ≠ outpoint.n → ctx.getUTXOCoin ⟨outpoint.hash, i⟩ = some coin → hasCollateralAmount E coin = true →
    coin.out.scriptPubKey ≠ payee

/-- An added node owns its collateral if and only if no other output of the collateral transaction stands in for it,
or the coin pays the key as well. -/
theorem added_ownsCollateral_iff {mnb : CMasternodeBroadcast} {pfrom : Option (List UInt8)}
    (hnew : man.mapMasternodes[mnb.vin.prevout]? = none)
    (hadded : ((man.checkMnbAndUpdateMasternodeList E ctx pfrom mnb).2.2.mapMasternodes[mnb.vin.prevout]?).isSome =
      true) :
    OwnsCollateral E ctx mnb ↔
      SoleCollateral E ctx mnb.vin.prevout (collateralPayee E mnb) ∨
        ∃ coin, ctx.getUTXOCoin mnb.vin.prevout = some coin ∧ coin.out.scriptPubKey = collateralPayee E mnb := by
  have hfresh : Fresh E man mnb := by
    by_contra hseen
    rw [(checkMnb_of_seen hseen pfrom).2, hnew] at hadded
    cases hadded
  rw [checkMnb_of_fresh hfresh] at hadded
  rcases processNew_unlisted (E := E) hnew with hsame | ⟨-, hash, hok⟩
  · rw [hsame, hnew] at hadded
    cases hadded
  obtain ⟨hverify, hassoc, coin, hcoin, hamount, hconf⟩ := checkOutpoint_eq_ok hok
  constructor
  · rintro ⟨-, coin', hcoin', -, -, hscript⟩
    exact .inr ⟨coin', hcoin', hscript⟩
  rintro (hsole | ⟨coin', hcoin', hscript⟩)
  · obtain ⟨i, other, hother, hamount', hscript⟩ := exists_of_associated hassoc
    have hi : i = mnb.vin.prevout.n := by
      by_contra hne
      exact hsole i other hne hother hamount' hscript
    rw [hi, hcoin] at hother
    cases hother
    exact ⟨hverify, coin, hcoin, hamount, hconf, hscript⟩
  · rw [hcoin] at hcoin'
    cases hcoin'
    exact ⟨hverify, coin, hcoin, hamount, hconf, hscript⟩

def smallMnEnv : MnEnv where
  toMasternodeEnv := { plainMasternodeEnv with verifyMessage := fun _ vchSig _ => vchSig == [1] }
  hashes := ⟨id, id, id, id, id⟩
  encodeDestination := fun _ => ""
  cBurnAddress := ""
  nMasternodeCollateralMinimum := 10000
  nMasternodeMinimumConfirmations := 15
  nMasternodeBurnQSTEESNODE_1 := 100000
  nMasternodeBurnQSTEESNODE_5 := 500000
  nMasternodeBurnQSTEESNODE_10 := 1000000
  nPowTargetSpacing := 120
  hashBroadcast := fun txin _ sigTime => txin.prevout.hash * 1000 + txin.prevout.n * 100 + sigTime.toNat
  hashPing := fun txin sigTime => txin.prevout.hash * 1000 + txin.prevout.n * 100 + sigTime.toNat

def twoCollaterals : CTransaction where
  vin := [⟨⟨6, 0⟩, [], SEQUENCE_FINAL, []⟩]
  vout := [⟨10000 * COIN, keyIDScript (List.replicate 20 0x22), -10⟩,
    ⟨10000 * COIN, keyIDScript (List.replicate 20 0x11), -10⟩]
  hash := 7

def collateralContext : MnContext where
  toMasternodeMoment := someMoment
  getTime := 1000
  height := 100
  getBlockTime := fun _ => 0
  getBlockHash := fun _ => 0
  blockHeight := fun _ => 90
  getUTXOCoin := fun o => if o.hash = 7 then (twoCollaterals.vout[o.n]?).map (fun out => ⟨out, false, 1⟩) else none
  getTransaction := fun _ hash => if hash = 7 then some (twoCollaterals, 0) else none
  localService := (⟨List.replicate 16 0, 0⟩, false)
  signMessage := fun _ => none
  hash_getTransaction := by
    intro slow hash tx block h
    split_ifs at h with h7
    cases h
    exact h7.symm
  coin_getTransaction := by
    intro outpoint coin tx block hcoin htx
    split_ifs at hcoin htx
    cases htx
    obtain ⟨out, hout, rfl⟩ := Option.map_eq_some_iff.mp hcoin
    exact hout

def emptyList : CMasternodeMan where
  activeMasternode := ⟨⟨0, 0⟩, [], ⟨List.replicate 16 0, 0⟩, .initial, false, false, 0⟩

def ownAnnouncement : CMasternodeBroadcast := { announcement ⟨7, 1⟩ ⟨8, 0⟩ [5] 50 250003 with vchSig := [1] }

def foreignAnnouncement : CMasternodeBroadcast := { announcement ⟨7, 0⟩ ⟨8, 0⟩ [5] 50 250003 with vchSig := [1] }

theorem added_ownsCollateral_second : OwnsCollateral smallMnEnv collateralContext ownAnnouncement := by
  have hnew : emptyList.mapMasternodes[ownAnnouncement.vin.prevout]? = none := by decide +kernel
  have hadded : ((emptyList.checkMnbAndUpdateMasternodeList smallMnEnv collateralContext none
      ownAnnouncement).2.2.mapMasternodes[ownAnnouncement.vin.prevout]?).isSome = true := by decide +kernel
  refine (added_ownsCollateral_iff hnew hadded).mpr
    (.inr ⟨⟨⟨10000 * COIN, keyIDScript (List.replicate 20 0x11), -10⟩, false, 1⟩, ?_⟩)
  decide +kernel

/-- The node announced for the other output of the transaction is added as well, with a coin of another key. -/
theorem added_foreignCollateral :
    emptyList.mapMasternodes[foreignAnnouncement.vin.prevout]? = none ∧
      ((emptyList.checkMnbAndUpdateMasternodeList smallMnEnv collateralContext none
        foreignAnnouncement).2.2.mapMasternodes[foreignAnnouncement.vin.prevout]?).isSome = true ∧
      ¬OwnsCollateral smallMnEnv collateralContext foreignAnnouncement := by
  refine ⟨by decide +kernel, by decide +kernel, ?_⟩
  rintro ⟨-, coin, hcoin, -, -, hscript⟩
  have hcoin' : collateralContext.getUTXOCoin foreignAnnouncement.vin.prevout =
      some ⟨⟨10000 * COIN, keyIDScript (List.replicate 20 0x22), -10⟩, false, 1⟩ := by decide +kernel
  rw [hcoin'] at hcoin
  cases hcoin
  exact absurd hscript (by decide +kernel)

end Qstees.Proofs
