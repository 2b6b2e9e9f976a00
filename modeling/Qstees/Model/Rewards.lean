import Qstees.Model.Primitives

/-!
# Network parameters and the reward schedule

`getBlockSubsidy`, `getMasternodePayment` and `getDevCoin`, with the parameters of the
networks they read. `getDevCoin` multiplies by a `double`; the product is computed on
naturals with the rounding of IEEE binary64.
-/

namespace Qstees

inductive Network where
  | main | test | final | regtest
deriving DecidableEq, Repr

structure Params where
  network : Network
  nMasternodeBurnQSTEESNODE_1 : Int
  nMasternodeBurnQSTEESNODE_5 : Int
  nMasternodeBurnQSTEESNODE_10 : Int
  nLimitQSTEESNODE_1 : Int
  nLimitQSTEESNODE_5 : Int
  nLimitQSTEESNODE_10 : Int
  nInfinityNodeBeginHeight : Int
  nInfinityNodeGenesisStatement : Int
  nInfinityNodeVoteValue : Int
  cBurnAddress : String
  cBurnAddressPubKey : String
  cMetadataAddress : String
  cGovernanceAddress : String

/-- `CMainParams`. The begin height is written `9999999999` in the source and narrowed to `int`. -/
def mainParams : Params where
  network := .main
  nMasternodeBurnQSTEESNODE_1 := 100000
  nMasternodeBurnQSTEESNODE_5 := 500000
  nMasternodeBurnQSTEESNODE_10 := 1000000
  nLimitQSTEESNODE_1 := 375
  nLimitQSTEESNODE_5 := 375
  nLimitQSTEESNODE_10 := 375
  nInfinityNodeBeginHeight := 1410065407
  nInfinityNodeGenesisStatement := 250000
  nInfinityNodeVoteValue := 100
  cBurnAddress := "QSteesBurnAddress123456788SuqaXbx3AMC"
  cBurnAddressPubKey := "ebaf5ec74cb2e2342dfda0229133738ff4dc742d"
  cMetadataAddress := "QSteesBurnAddressForMetadataXXXXEU2mj"
  cGovernanceAddress := "QSteesBurnAddressGovernanceVoteba5vkQ"

/-- `CTestNetParams`. The constructor leaves the vote value unset, so it stays a parameter. -/
def testParams (nInfinityNodeVoteValue : Int) : Params where
  network := .test
  nMasternodeBurnQSTEESNODE_1 := 100000
  nMasternodeBurnQSTEESNODE_5 := 500000
  nMasternodeBurnQSTEESNODE_10 := 1000000
  nLimitQSTEESNODE_1 := 6
  nLimitQSTEESNODE_5 := 6
  nLimitQSTEESNODE_10 := 6
  nInfinityNodeBeginHeight := 100
  nInfinityNodeGenesisStatement := 110
  nInfinityNodeVoteValue := nInfinityNodeVoteValue
  cBurnAddress := "QSteesBurnAddress123456788SuqaXbx3AMC"
  cBurnAddressPubKey := "ebaf5ec74cb2e2342dfda0229133738ff4dc742d"
  cMetadataAddress := "QSteesBurnAddressForMetadataXXXXEU2mj"
  cGovernanceAddress := "QSteesBurnAddressGovernanceVoteba5vkQ"

def finalParams (nInfinityNodeVoteValue : Int) : Params :=
  { testParams nInfinityNodeVoteValue with network := .final }

/-- The parameter sets a node can run with. `CRegTestParams` sets no tier amounts at all,
so for it only the members it does set are fixed. -/
inductive Configured : Params → Prop
  | main : Configured mainParams
  | test (v : Int) : Configured (testParams v)
  | final (v : Int) : Configured (finalParams v)
  | regtest (P : Params) (hn : P.network = .regtest) (hb : P.nInfinityNodeBeginHeight = 100)
      (hg : P.nInfinityNodeGenesisStatement = 110) : Configured P

lemma Configured.genesisStatement_pos {P : Params} (h : Configured P) :
    0 < P.nInfinityNodeGenesisStatement := by
  cases h with
  | main => decide
  | test v => simp [testParams]
  | final v => simp [finalParams, testParams]
  | regtest hn hb hg => omega

/-- The branches of `GetMasternodePayment`, which differ in their amounts only. -/
def tierPayment (P : Params) (nHeight early late : Int) : Int :=
  if P.network = .final ∧ nHeight ≥ 105 ∧ nHeight < 150000 then early * COIN
  else if P.network = .test ∧ nHeight ≥ 105 ∧ nHeight < 150000 then early * COIN
  else if nHeight < 150000 then 0 * COIN
  else if nHeight < 170100 then 0 * COIN
  else if nHeight < 5000000 then late * COIN
  else 0

/-- `GetMasternodePayment` of a tier. -/
def getMasternodePayment (P : Params) (nHeight qsteestype : Int) : Int :=
  if qsteestype = 0 then 0
  else if qsteestype = 1 then tierPayment P nHeight 8 160
  else if qsteestype = 5 then tierPayment P nHeight 41 838
  else if qsteestype = 10 then tierPayment P nHeight 85 1752
  else 0

/-- The steps of the subsidy. -/
def baseReward (nHeight : Int) : Int :=
  if nHeight < 22000 then 10000 * COIN
  else if nHeight < 50000 then 5000 * COIN
  else if nHeight < 100000 then 2500 * COIN
  else if nHeight < 170000 then 1250 * COIN
  else if nHeight < 245000 then 500 * COIN
  else if nHeight < 262000 then 250 * COIN
  else if nHeight < 500000 then 25 * COIN
  else if nHeight < 1000000 then 1250000000
  else if nHeight < 1500000 then 625000000
  else if nHeight < 5000000 then 3 * COIN
  else 0

def getBlockSubsidy (P : Params) (nHeight : Int) : Int :=
  baseReward nHeight + (getMasternodePayment P nHeight 1 + getMasternodePayment P nHeight 5 +
    getMasternodePayment P nHeight 10)

/-- The nearest double, ties to even. -/
def roundToDouble (m : Nat) : Nat :=
  let k := m.log2 + 1 - 53
  let q := m / 2 ^ k
  let r := m % 2 ^ k
  if 2 ^ k < 2 * r ∨ (2 * r = 2 ^ k ∧ q % 2 = 1) then (q + 1) * 2 ^ k else q * 2 ^ k

/-- `c / 2 ^ e * reward` in `double` arithmetic, converted back to an integer. -/
def mulDouble (c e : Nat) (reward : Int) : Int :=
  let trunc (r : Nat) : Nat := roundToDouble (roundToDouble r * c) / 2 ^ e
  if 0 ≤ reward then (trunc reward.toNat : Int) else -(trunc (-reward).toNat : Int)

def tenPercent : Int → Int := mulDouble 3602879701896397 55

def onePercent : Int → Int := mulDouble 5764607523034235 59

/-- `GetDevCoin`: a tenth, at some heights a hundredth. -/
def getDevCoin (P : Params) (nHeight : Int) (reward : Int) : Int :=
  if P.network = .test ∧ nHeight < 100 then tenPercent reward
  else if P.network = .test ∧ 100 ≤ nHeight ∧ nHeight < 150 then onePercent reward
  else if P.network = .test ∧ 150 ≤ nHeight ∧ nHeight < 200 then tenPercent reward
  else if nHeight < 170050 then tenPercent reward
  else if 170050 ≤ nHeight ∧ nHeight < 262000 then onePercent reward
  else if 262000 ≤ nHeight ∧ nHeight < 1500000 then tenPercent reward
  else tenPercent reward

end Qstees
