import Qstees.Library.Selection
import Qstees.Model.TxVerify

/-!
# Coin selection

Output groups and the two solvers of `wallet/coinselection.cpp`. A `std::set<CInputCoin>` is the list of what it
holds in the order of insertion; the wallet shuffles it before it is used. Amounts are added exactly. Every draw
of a random generator is an argument, named by the place in the program at which it is made.
-/

namespace Qstees

def CENT : Int := 1000000

def MIN_CHANGE : Int := CENT

def MIN_FINAL_CHANGE : Int := MIN_CHANGE / 2

structure CFeeRate where
  nSatoshisPerK : Nat
deriving DecidableEq, Repr

/-- `GetFee`: at least one satoshi for a positive rate. -/
def CFeeRate.getFee (rate : CFeeRate) (nBytes : Nat) : Int :=
  let nFee := rate.nSatoshisPerK * nBytes / 1000
  if nFee = 0 ∧ nBytes ≠ 0 ∧ rate.nSatoshisPerK > 0 then 1 else nFee

/-- The random draws, each by the place it is made at. -/
structure Randomness where
  shuffle : {α : Type} → List Nat → List α → List α
  shuffle_perm : ∀ {α : Type} (place : List Nat) (xs : List α), (shuffle place xs).Perm xs
  randbool : List Nat → Bool
  getRandInt : List Nat → Nat → Nat
  getRandInt_lt : ∀ place nMax, 0 < nMax → getRandInt place nMax < nMax

structure CInputCoin where
  outpoint : COutPoint
  txout : CTxOut
  m_input_bytes : Int := -1
deriving DecidableEq, Repr

def CInputCoin.effectiveValue (coin : CInputCoin) : Int := coin.txout.nValue

def CInputCoin.ofTx (tx : CTransaction) (i : Nat) (input_bytes : Int) : Except String CInputCoin :=
  match tx.vout[i]? with
  | none => .error "The output index is out of range"
  | some txout => .ok ⟨⟨tx.hash, i⟩, txout, input_bytes⟩

def insertCoin (setCoins : List CInputCoin) (coin : CInputCoin) : List CInputCoin :=
  if setCoins.any (fun c => c.outpoint = coin.outpoint) then setCoins else setCoins ++ [coin]

def insertCoins (setCoins coins : List CInputCoin) : List CInputCoin := coins.foldl insertCoin setCoins

structure CoinEligibilityFilter where
  conf_mine : Int
  conf_theirs : Int
  max_ancestors : Nat
  max_descendants : Nat

structure OutputGroup where
  m_outputs : List CInputCoin := []
  m_from_me : Bool := true
  m_value : Int := 0
  m_depth : Int := 999
  m_ancestors : Nat := 0
  m_descendants : Nat := 0
  effective_value : Int := 0
  fee : Int := 0
  long_term_fee : Int := 0
deriving DecidableEq, Repr

namespace OutputGroup

/-- `OutputGroup::Insert`. -/
def insert (group : OutputGroup) (output : CInputCoin) (depth : Int) (from_me : Bool) (ancestors descendants : Nat) :
    OutputGroup :=
  let m_value := group.m_value + output.effectiveValue
  { group with
    m_outputs := group.m_outputs ++ [output]
    m_from_me := group.m_from_me && from_me
    m_value := m_value
    m_depth := min group.m_depth depth
    m_ancestors := group.m_ancestors + ancestors
    m_descendants := max group.m_descendants descendants
    effective_value := m_value }

/-- `OutputGroup::Discard`. -/
def discard (group : OutputGroup) (output : CInputCoin) : OutputGroup :=
  if group.m_outputs.any (fun c => c.outpoint = output.outpoint) then
    { group with
      m_outputs := group.m_outputs.eraseP (fun c => c.outpoint = output.outpoint)
      m_value := group.m_value - output.effectiveValue
      effective_value := group.effective_value - output.effectiveValue }
  else group

/-- `EligibleForSpending`. -/
def eligibleForSpending (group : OutputGroup) (eligibility_filter : CoinEligibilityFilter) : Bool :=
  decide (group.m_depth ≥ if group.m_from_me then eligibility_filter.conf_mine else eligibility_filter.conf_theirs) &&
    decide (group.m_ancestors ≤ eligibility_filter.max_ancestors) &&
    decide (group.m_descendants ≤ eligibility_filter.max_descendants)

end OutputGroup

abbrev Solution := List CInputCoin × Int

def solutionOf (groups : List OutputGroup) : Solution :=
  groups.foldl (fun s group => (insertCoins s.1 group.m_outputs, s.2 + group.m_value)) ([], 0)

def sortDescending (groups : List OutputGroup) : List OutputGroup :=
  groups.insertionSort (fun a b => a.effective_value ≥ b.effective_value)

def TOTAL_TRIES : Nat := 100000

structure BnBState where
  curr_value : Int := 0
  curr_available_value : Int
  curr_selection : List Bool := []
  curr_waste : Int := 0
  best_selection : List Bool := []
  best_waste : Int := MAX_MONEY
deriving DecidableEq, Repr

variable (utxo_pool : List OutputGroup)

def poolAt (i : Nat) : Except String OutputGroup :=
  match utxo_pool[i]? with
  | none => .error "vector::_M_range_check"
  | some utxo => .ok utxo

/-- The step back to the last coin included. -/
def walkBack (utxo_pool : List OutputGroup) : List Bool → Int → Except String (List Bool × Int)
  | false :: curr_selection, curr_available_value => do
    let utxo ← poolAt utxo_pool curr_selection.length
    walkBack utxo_pool curr_selection (curr_available_value + utxo.effective_value)
  | curr_selection, curr_available_value => .ok (curr_selection, curr_available_value)

def resizeFlags (n : Nat) (flags : List Bool) : List Bool := flags.take n ++ List.replicate (n - flags.length) false

/-- No good solution lies below this selection. -/
def bnbHopeless (actual_target cost_of_change : Int) (s : BnBState) :
    Except String Bool :=
  if s.curr_value + s.curr_available_value < actual_target ∨ s.curr_value > actual_target + cost_of_change then .ok true
  else if s.curr_waste > s.best_waste then do
    let first ← poolAt utxo_pool 0
    return decide (first.fee - first.long_term_fee > 0)
  else .ok false

/-- Go back? Keeps a solution that is not worse. -/
def bnbTurn (actual_target cost_of_change : Int) (s : BnBState) :
    Except String (Bool × BnBState) := do
  if ← bnbHopeless utxo_pool actual_target cost_of_change s then return (true, s)
  else if s.curr_value ≥ actual_target then
    let waste := s.curr_waste + (s.curr_value - actual_target)
    if waste ≤ s.best_waste then
      return (true, { s with
        best_selection := resizeFlags utxo_pool.length s.curr_selection.reverse
        best_waste := waste })
    else return (true, s)
  else return (false, s)

/-- Backtracking: the last included coin is left out; `none` when there is none. -/
def bnbBack (s : BnBState) : Except String (Option BnBState) := do
  let (curr_selection, curr_available_value) ← walkBack utxo_pool s.curr_selection s.curr_available_value
  match curr_selection with
  | [] => return none
  | _ :: front =>
    let utxo ← poolAt utxo_pool front.length
    return some { s with
      curr_selection := false :: front
      curr_available_value := curr_available_value
      curr_value := s.curr_value - utxo.effective_value
      curr_waste := s.curr_waste - (utxo.fee - utxo.long_term_fee) }

/-- Whether the coin before `utxo` was left out and is worth the same. -/
def bnbTwin (utxo : OutputGroup) : List Bool → Except String Bool
  | false :: front => do
    let previous ← poolAt utxo_pool front.length
    return decide (utxo.effective_value = previous.effective_value) && decide (utxo.fee = previous.fee)
  | _ => .ok false

/-- Moving forwards: the next coin is included, unless its twin was just left out. -/
def bnbForward (s : BnBState) : Except String BnBState := do
  let utxo ← poolAt utxo_pool s.curr_selection.length
  let s := { s with curr_available_value := s.curr_available_value - utxo.effective_value }
  if ← bnbTwin utxo_pool utxo s.curr_selection then return { s with curr_selection := false :: s.curr_selection }
  else return { s with
    curr_selection := true :: s.curr_selection
    curr_value := s.curr_value + utxo.effective_value
    curr_waste := s.curr_waste + (utxo.fee - utxo.long_term_fee) }

/-- The search of `SelectCoinsBnB`. -/
def bnbLoop (utxo_pool : List OutputGroup) (actual_target cost_of_change : Int) :
    Nat → BnBState → Except String BnBState
  | 0, s => .ok s
  | tries + 1, s => do
    let (backtrack, s) ← bnbTurn utxo_pool actual_target cost_of_change s
    if backtrack then
      match ← bnbBack utxo_pool s with
      | none => return s
      | some s => bnbLoop utxo_pool actual_target cost_of_change tries s
    else bnbLoop utxo_pool actual_target cost_of_change tries (← bnbForward utxo_pool s)

variable (rand : Randomness) (place : List Nat)

/-- `SelectCoinsBnB`. The order that `std::sort` gives to equal groups is open, so it is drawn. -/
def selectCoinsBnB (utxo_pool : List OutputGroup)
    (target_value cost_of_change not_input_fees : Int) : Except String (Option Solution) :=
  let actual_target := not_input_fees + target_value
  let curr_available_value := (utxo_pool.map OutputGroup.effective_value).sum
  if utxo_pool.any (fun utxo => !decide (utxo.effective_value > 0)) then .error "assertion utxo.effective_value > 0"
  else if curr_available_value < actual_target then .ok none
  else do
    let utxo_pool := sortDescending (rand.shuffle place utxo_pool)
    let s ← bnbLoop utxo_pool actual_target cost_of_change TOTAL_TRIES { curr_available_value }
    return if s.best_selection.isEmpty then none else some (solutionOf (Selection.pick s.best_selection utxo_pool))

structure SubsetState where
  vfIncluded : List Bool
  nTotal : Int
  fReachedTarget : Bool
  vfBest : List Bool
  nBest : Int
deriving DecidableEq, Repr

/-- Whether a group is tried: at random in the first pass, if it is not included in the second. -/
def subsetDraw (nPass : Nat) (s : SubsetState) (i : Nat) : Bool :=
  if nPass = 0 then rand.randbool (place ++ [i]) else !s.vfIncluded.getD i false

def subsetInclude (nTargetValue : Int) (s : SubsetState) (group : OutputGroup) (i : Nat) : SubsetState :=
  let nTotal := s.nTotal + group.m_value
  let vfIncluded := s.vfIncluded.set i true
  if nTotal ≥ nTargetValue then
    let s := if nTotal < s.nBest then { s with nBest := nTotal, vfBest := vfIncluded } else s
    { s with fReachedTarget := true, nTotal := nTotal - group.m_value, vfIncluded := vfIncluded.set i false }
  else { s with nTotal := nTotal, vfIncluded := vfIncluded }

/-- One group in a pass of `ApproximateBestSubset`. -/
def subsetStep (nTargetValue : Int) (nPass : Nat) (s : SubsetState)
    (entry : OutputGroup × Nat) : SubsetState :=
  if subsetDraw rand place nPass s entry.2 then subsetInclude nTargetValue s entry.1 entry.2 else s

def subsetPass (groups : List OutputGroup) (nTargetValue : Int) (nPass : Nat)
    (s : SubsetState) : SubsetState :=
  groups.zipIdx.foldl (subsetStep rand place nTargetValue nPass) s

/-- One repetition: a random pass, and a second one if the first does not reach the target. -/
def subsetRepetition (groups : List OutputGroup) (nTargetValue : Int)
    (s : SubsetState) : SubsetState :=
  let s := { s with vfIncluded := List.replicate groups.length false, nTotal := 0, fReachedTarget := false }
  let s := subsetPass rand place groups nTargetValue 0 s
  if s.fReachedTarget then s else subsetPass rand place groups nTargetValue 1 s

def subsetLoop (rand : Randomness) (place : List Nat) (groups : List OutputGroup) (nTargetValue : Int) :
    Nat → SubsetState → SubsetState
  | 0, s => s
  | iterations + 1, s =>
    if s.nBest = nTargetValue then s
    else subsetLoop rand place groups nTargetValue iterations
      (subsetRepetition rand (place ++ [iterations]) groups nTargetValue s)

/-- `ApproximateBestSubset`. -/
def approximateBestSubset (rand : Randomness) (place : List Nat) (groups : List OutputGroup)
    (nTotalLower nTargetValue : Int) : List Bool × Int :=
  let s := subsetLoop rand place groups nTargetValue 1000
    { vfIncluded := [], nTotal := 0, fReachedTarget := false
      vfBest := List.replicate groups.length true, nBest := nTotalLower }
  (s.vfBest, s.nBest)

structure KnapsackScan where
  lowest_larger : Option OutputGroup := none
  applicable_groups : List OutputGroup := []
  nTotalLower : Int := 0

/-- An exact group, or the groups below and the least above. -/
def knapsackScan (nTargetValue : Int) : KnapsackScan → List OutputGroup → OutputGroup ⊕ KnapsackScan
  | s, [] => .inr s
  | s, group :: groups =>
    if group.m_value = nTargetValue then .inl group
    else if group.m_value < nTargetValue + MIN_CHANGE then
      knapsackScan nTargetValue
        { s with
          applicable_groups := s.applicable_groups ++ [group]
          nTotalLower := s.nTotalLower + group.m_value } groups
    else
      match s.lowest_larger with
      | none => knapsackScan nTargetValue { s with lowest_larger := some group } groups
      | some lowest =>
        if group.m_value < lowest.m_value then
          knapsackScan nTargetValue { s with lowest_larger := some group } groups
        else knapsackScan nTargetValue s groups

/-- The two calls of `ApproximateBestSubset`, on the groups in descending order. -/
def knapsackBest (rand : Randomness) (place : List Nat) (nTargetValue : Int) (s : KnapsackScan) : List Bool × Int :=
  let applicable_groups := sortDescending s.applicable_groups
  let best := approximateBestSubset rand (place ++ [0]) applicable_groups s.nTotalLower nTargetValue
  if best.2 ≠ nTargetValue ∧ s.nTotalLower ≥ nTargetValue + MIN_CHANGE then
    approximateBestSubset rand (place ++ [1]) applicable_groups s.nTotalLower (nTargetValue + MIN_CHANGE)
  else best

def knapsackApproximate (rand : Randomness) (place : List Nat) (nTargetValue : Int) (s : KnapsackScan) : Solution :=
  let (vfBest, nBest) := knapsackBest rand place nTargetValue s
  let bestSubset := solutionOf (Selection.pick vfBest (sortDescending s.applicable_groups))
  match s.lowest_larger with
  | some lowest =>
    if (nBest ≠ nTargetValue ∧ nBest < nTargetValue + MIN_CHANGE) ∨ lowest.m_value ≤ nBest then solutionOf [lowest]
    else bestSubset
  | none => bestSubset

/-- `KnapsackSolver`. -/
def knapsackSolver (rand : Randomness) (place : List Nat) (nTargetValue : Int) (groups : List OutputGroup) :
    Option Solution :=
  match knapsackScan nTargetValue {} (rand.shuffle place groups) with
  | .inl group => some (solutionOf [group])
  | .inr s =>
    if s.nTotalLower = nTargetValue then some (solutionOf s.applicable_groups)
    else if s.nTotalLower < nTargetValue then s.lowest_larger.map (fun lowest => solutionOf [lowest])
    else some (knapsackApproximate rand place nTargetValue s)

end Qstees
