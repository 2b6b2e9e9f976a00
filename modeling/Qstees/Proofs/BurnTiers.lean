import Qstees.Proofs.Events
import Qstees.Proofs.MasternodeList

/-!
# The tier of a burn

The scan of the chain and `GetSinType` ask for a value in a window that is open below and closed above.
-/

namespace Qstees.Proofs

open VoteState

variable {I : InfinityEnv} {E : MnEnv} {ctx : MnContext} {mn : CMasternode}

structure SameAmounts (I : InfinityEnv) (E : MnEnv) : Prop where
  one : E.nMasternodeBurnQSTEESNODE_1 = I.params.nMasternodeBurnQSTEESNODE_1
  five : E.nMasternodeBurnQSTEESNODE_5 = I.params.nMasternodeBurnQSTEESNODE_5
  ten : E.nMasternodeBurnQSTEESNODE_10 = I.params.nMasternodeBurnQSTEESNODE_10

lemma tierAmounts {P : Params} (hP : Configured P) (hnetwork : P.network ≠ .regtest) :
    P.nMasternodeBurnQSTEESNODE_1 = 100000 ∧ P.nMasternodeBurnQSTEESNODE_5 = 500000 ∧
      P.nMasternodeBurnQSTEESNODE_10 = 1000000 := by
  cases hP with
  | main => exact ⟨rfl, rfl, rfl⟩
  | test v => exact ⟨rfl, rfl, rfl⟩
  | final v => exact ⟨rfl, rfl, rfl⟩
  | regtest _ hn => exact absurd hn hnetwork

/-- The burn coin of a masternode whose information is updated. -/
structure BurnFunded (E : MnEnv) (ctx : MnContext) (mn : CMasternode) (coin : Coin) : Prop where
  burnFund : ctx.getUTXOCoin mn.vinBurnFund.prevout = some coin
  burnAddress : (destinationOf E coin.out.scriptPubKey).isSome
  collateral : ∃ coinCollateral, ctx.getUTXOCoin mn.vin.prevout = some coinCollateral ∧
    (destinationOf E coinCollateral.out.scriptPubKey).isSome

/-- What the masternode with updated information, the scan and `GetSinType` make of a value. -/
structure TiersAgree (I : InfinityEnv) (E : MnEnv) (ctx : MnContext) (mn : CMasternode) (v : Int) : Prop where
  node : isNodeBurn I v = true → mn.getSinType E = getSinType I.params v
  nodeInt : isNodeBurn I v = true → mn.getSinTypeInt = getSinType I.params v
  scan : isNodeBurn I v = true → ∀ C nHeight tx i out data inf, out.nValue = v →
    registerEvent I C nHeight tx i out data = .register inf → inf.nQSTEESType = getSinType I.params v
  accepted : mn.checkBurnFund E ctx = true ↔ isNodeBurn I v = true

/-- The value is on no edge of a tier's window. -/
def InsideWindows (P : Params) (v : Int) : Prop :=
  ∀ n ∈ [P.nMasternodeBurnQSTEESNODE_1, P.nMasternodeBurnQSTEESNODE_5, P.nMasternodeBurnQSTEESNODE_10],
    v ≠ (n - 1) * COIN ∧ v ≠ n * COIN

lemma updated_amounts {coin : Coin} (h : BurnFunded E ctx mn coin) (fAllowFull : Bool) :
    (mn.updateInfinityNodeInfo E ctx fAllowFull).nBurnAmount = coin.out.nValue.tdiv COIN + 1 ∧
      (mn.updateInfinityNodeInfo E ctx fAllowFull).nSinType =
        (if coin.out.nValue.tdiv COIN + 1 ≥ 100000 then (coin.out.nValue.tdiv COIN + 1).tdiv 100000
          else coin.out.nValue.tdiv COIN + 1) ∧
      (mn.updateInfinityNodeInfo E ctx fAllowFull).nExpireHeight = coin.nHeight + 720 * 365 := by
  obtain ⟨coinCollateral, hcoin, hcollateral⟩ := h.collateral
  obtain ⟨addressBurnNode, hburn⟩ := Option.isSome_iff_exists.mp h.burnAddress
  obtain ⟨addressCollateral, hdest⟩ := Option.isSome_iff_exists.mp hcollateral
  rw [CMasternode.updateInfinityNodeInfo]
  simp only [h.burnFund, hcoin, hburn, hdest]
  cases fAllowFull with
  | false => exact ⟨rfl, rfl, rfl⟩
  | true => exact ⟨rfl, rfl, rfl⟩

lemma registered_type {C : Chain} {nHeight : Int} {tx : CTransaction} {i : Nat} {out : CTxOut}
    {data : List (List UInt8)} {inf : CInfinitynode} (h : registerEvent I C nHeight tx i out data = .register inf) :
    inf.nQSTEESType = (out.nValue.tdiv COIN + 1).tdiv 100000 := by
  rw [registerEvent] at h
  split at h
  · cases h
  · cases h
    rfl

/-- The coins that a masternode counts, from what the division by `COIN` leaves. -/
lemma coins_spec (v : Int) : 0 ≤ v ∧ v.tdiv COIN = v / 100000000 ∨ v < 0 ∧ v.tdiv COIN ≤ 0 := by
  rcases lt_or_ge v 0 with hneg | hpos
  · refine .inr ⟨hneg, ?_⟩
    rw [← Int.neg_neg v, Int.neg_tdiv]
    have : 0 ≤ (-v).tdiv COIN := Int.tdiv_nonneg (by omega) (by decide)
    omega
  · exact .inl ⟨hpos, Int.tdiv_eq_ediv_of_nonneg hpos⟩

section Amounts

variable (hP : Configured I.params) (hnetwork : I.params.network ≠ .regtest)
include hP hnetwork

lemma isNodeBurn_iff (v : Int) : isNodeBurn I v = true ↔
    99999 * COIN < v ∧ v ≤ 100000 * COIN ∨ 499999 * COIN < v ∧ v ≤ 500000 * COIN ∨
      999999 * COIN < v ∧ v ≤ 1000000 * COIN := by
  obtain ⟨hone, hfive, hten⟩ := tierAmounts hP hnetwork
  simp only [isNodeBurn, isBurnOf, hone, hfive, hten, Bool.or_eq_true, decide_eq_true_eq]
  norm_num [or_assoc]

lemma insideWindows_iff (v : Int) : InsideWindows I.params v ↔
    (v ≠ 99999 * COIN ∧ v ≠ 100000 * COIN) ∧ (v ≠ 499999 * COIN ∧ v ≠ 500000 * COIN) ∧
      v ≠ 999999 * COIN ∧ v ≠ 1000000 * COIN := by
  obtain ⟨hone, hfive, hten⟩ := tierAmounts hP hnetwork
  rw [InsideWindows, hone, hfive, hten, List.forall_mem_cons, List.forall_mem_cons, List.forall_mem_singleton]
  norm_num

lemma tier_of_inside {v : Int} (hinside : InsideWindows I.params v) (hscan : isNodeBurn I v = true) :
    v.tdiv COIN = 99999 ∧ getSinType I.params v = 1 ∨ v.tdiv COIN = 499999 ∧ getSinType I.params v = 5 ∨
      v.tdiv COIN = 999999 ∧ getSinType I.params v = 10 := by
  obtain ⟨hone, hfive, hten⟩ := tierAmounts hP hnetwork
  rw [isNodeBurn_iff hP hnetwork] at hscan
  rw [insideWindows_iff hP hnetwork] at hinside
  have hcoins := coins_spec v
  rw [getSinType, hone, hfive, hten]
  simp only [COIN] at hscan hinside hcoins ⊢
  split_ifs <;> omega

/-- The four computations of the tier agree on a burn value, and the masternode's check takes what the scan takes, if
and only if the value is at no end of a tier's window. -/
theorem tiersAgree_iff (hE : SameAmounts I E) {coin : Coin} (hcoin : BurnFunded E ctx mn coin)
    (hlive : ctx.height ≤ coin.nHeight + 720 * 365) (fAllowFull : Bool) :
    TiersAgree I E ctx (mn.updateInfinityNodeInfo E ctx fAllowFull) coin.out.nValue ↔
      InsideWindows I.params coin.out.nValue := by
  obtain ⟨hone, hfive, hten⟩ := tierAmounts hP hnetwork
  obtain ⟨hburn, htype, hexpire⟩ := updated_amounts hcoin fAllowFull
  have hcheck : (mn.updateInfinityNodeInfo E ctx fAllowFull).checkBurnFund E ctx = true ↔
      coin.out.nValue.tdiv COIN = 99999 ∨ coin.out.nValue.tdiv COIN = 499999 ∨ coin.out.nValue.tdiv COIN = 999999 := by
    rw [CMasternode.checkBurnFund, hburn, hexpire, hE.one, hE.five, hE.ten, hone, hfive, hten]
    simp only [Bool.and_eq_true, Bool.not_eq_true', decide_eq_false_iff_not, Bool.or_eq_true, beq_iff_eq]
    omega
  have hcoins := coins_spec coin.out.nValue
  constructor
  · intro hagree
    have haccepted := hcheck.symm.trans (hagree.accepted.trans (isNodeBurn_iff hP hnetwork _))
    rw [insideWindows_iff hP hnetwork]
    simp only [COIN] at haccepted hcoins ⊢
    omega
  · intro hinside
    refine ⟨fun hscan => ?_, fun hscan => ?_, fun hscan => ?_, ?_⟩
    · rw [CMasternode.getSinType, hburn, hE.one, hE.five, hE.ten, hone, hfive, hten]
      obtain ⟨hq, ht⟩ | ⟨hq, ht⟩ | ⟨hq, ht⟩ := tier_of_inside hP hnetwork hinside hscan <;> rw [hq, ht] <;> rfl
    · rw [CMasternode.getSinTypeInt, htype]
      obtain ⟨hq, ht⟩ | ⟨hq, ht⟩ | ⟨hq, ht⟩ := tier_of_inside hP hnetwork hinside hscan <;> rw [hq, ht] <;> rfl
    · intro C nHeight tx i out data inf hvalue hevent
      rw [registered_type hevent, hvalue]
      obtain ⟨hq, ht⟩ | ⟨hq, ht⟩ | ⟨hq, ht⟩ := tier_of_inside hP hnetwork hinside hscan <;> rw [hq, ht] <;> rfl
    · rw [hcheck, isNodeBurn_iff hP hnetwork]
      rw [insideWindows_iff hP hnetwork] at hinside
      simp only [COIN] at hinside hcoins ⊢
      omega

end Amounts

/-- A network whose burn address is that of the key `bb`. -/
def burnEnv : MnEnv :=
  { smallMnEnv with
    encodeDestination := fun dest => match dest with
      | .keyID id => hexStr id
      | _ => ""
    cBurnAddress := hexStr (List.replicate 20 0xbb) }

/-- The burn of the lowest tier, paid by an output of another key than that of the collateral. -/
def foreignBurn : CTransaction where
  vin := [⟨⟨9, 0⟩, [], SEQUENCE_FINAL, []⟩]
  vout := [⟨99999 * COIN, keyIDScript (List.replicate 20 0xbb), -10⟩]
  hash := 8

/-- What it spends. -/
def foreignFunds : CTransaction where
  vin := [⟨⟨6, 0⟩, [], SEQUENCE_FINAL, []⟩]
  vout := [⟨100000 * COIN, keyIDScript (List.replicate 20 0x33), -10⟩]
  hash := 9

/-- The transactions of the example. -/
def transactionAt (hash : UInt256) : Option CTransaction :=
  [twoCollaterals, foreignBurn, foreignFunds].find? (fun tx => tx.hash = hash)

/-- A moment at which they are the chain. -/
def burnContext (time : Int) : MnContext :=
  { collateralContext with
    getAdjustedTime := time
    getTime := time
    getUTXOCoin := fun o => (transactionAt o.hash).bind (fun tx => (tx.vout[o.n]?).map (fun out => ⟨out, false, 1⟩))
    getTransaction := fun _ hash => (transactionAt hash).map (fun tx => (tx, 0))
    hash_getTransaction := by
      intro slow hash tx block h
      obtain ⟨found, hfound, hpair⟩ := Option.map_eq_some_iff.mp h
      cases hpair
      simpa using List.find?_some hfound
    coin_getTransaction := by
      intro outpoint coin tx block hcoin htx
      obtain ⟨found, hfound, hpair⟩ := Option.map_eq_some_iff.mp htx
      cases hpair
      rw [hfound] at hcoin
      obtain ⟨out, hout, rfl⟩ := Option.map_eq_some_iff.mp hcoin
      exact hout }

/-- The node of the example announcement. -/
def burnNode : CMasternode := ownAnnouncement.toCMasternode .enabled

/-- A node that takes the other output for its burn. -/
def exactBurnNode : CMasternode := { burnNode with vinBurnFund := ⟨⟨9, 0⟩, [], SEQUENCE_FINAL, []⟩ }

theorem tiersAgree_iff_belowWindow :
    TiersAgree { exampleEnv with params := finalParams 100 } burnEnv (burnContext 100)
      (burnNode.updateInfinityNodeInfo burnEnv (burnContext 100) true)
        (99999 * COIN) ↔ InsideWindows (finalParams 100) (99999 * COIN) := by
  have hfunded : BurnFunded burnEnv (burnContext 100) burnNode
      ⟨⟨99999 * COIN, keyIDScript (List.replicate 20 0xbb), -10⟩, false, 1⟩ :=
    ⟨rfl, by decide +kernel, ⟨⟨10000 * COIN, keyIDScript (List.replicate 20 0x11), -10⟩, false, 1⟩, rfl,
      by decide +kernel⟩
  exact tiersAgree_iff (I := { exampleEnv with params := finalParams 100 }) (.final 100) (by decide)
    ⟨rfl, rfl, rfl⟩ hfunded (by decide) true

/-- A burn of exactly the first tier's amount, which the scan takes as that tier. -/
theorem exactBurn_refused :
    isNodeBurn { exampleEnv with params := finalParams 100 } (100000 * COIN) = true ∧
      getSinType (finalParams 100) (100000 * COIN) = 1 ∧
      ((burnContext 100).getUTXOCoin exactBurnNode.vinBurnFund.prevout).map (·.out.nValue) = some (100000 * COIN) ∧
      (exactBurnNode.updateInfinityNodeInfo burnEnv (burnContext 100) true).getSinType burnEnv = 0 ∧
      (exactBurnNode.updateInfinityNodeInfo burnEnv (burnContext 100) true).checkBurnFund burnEnv (burnContext 100) =
        false := by
  decide +kernel

end Qstees.Proofs
