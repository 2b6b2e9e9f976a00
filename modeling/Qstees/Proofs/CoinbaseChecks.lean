import Qstees.Model.ContextualCheck
import Qstees.Proofs.Connect
import Qstees.Proofs.TierPayments

/-!
# The checks of the coinbase in `ConnectBlock`

`CheckTransaction` asks for one output and nothing asks for two, but the dev fund check reads the second output. The
check of the payees extracts addresses for its log, and `ExtractDestination` throws on a script like `01 00`. -/

namespace Qstees.Proofs

/-- The block is accepted or rejected: the check ends without an exception and without reading past a vector. -/
def HasVerdict {α : Type} (x : Validation α) : Prop := ∀ what, x.result ≠ .error (.exception what)

section verdicts

variable {α β : Type}

lemma hasVerdict_bind_ok {x : Validation α} {a : α} {ss : List Int} (hx : x = ⟨.ok a, ss⟩) (f : α → Validation β) :
    HasVerdict (x >>= f) ↔ HasVerdict (f a) := by
  subst hx
  rfl

lemma hasVerdict_check {c : Bool} {level : Nat} {reason : String} {f : Unit → Validation β} :
    HasVerdict (Tally.check c (.dos level reason) >>= f) ↔ (c = true → HasVerdict (f ())) := by
  cases c with
  | true => simp [hasVerdict_bind_ok (show Tally.check true (Failure.dos level reason) = ⟨.ok (), []⟩ from rfl)]
  | false =>
    constructor
    · intro _ h
      cases h
    · intro _ what h
      cases h

lemma hasVerdict_liftException {x : Except String α} {f : α → Validation β} :
    HasVerdict (liftException x >>= f) ↔ ∃ a, x = .ok a ∧ HasVerdict (f a) := by
  cases x with
  | error what =>
    refine iff_of_false (fun h => h what rfl) ?_
    rintro ⟨a, h, -⟩
    cases h
  | ok a =>
    rw [hasVerdict_bind_ok (show liftException (.ok a) = ⟨.ok a, []⟩ from rfl)]
    simp

lemma hasVerdict_sum64 {a b : Int} {f : Int → Validation β} :
    HasVerdict (sum64 a b >>= f) ↔ HasVerdict (f (wrap64 (a + b))) :=
  hasVerdict_bind_ok rfl f

end verdicts

variable {E : ConnectEnv}

/-- What a coinbase may pay in all. -/
def coinbaseLimit (E : ConnectEnv) (nHeight nFees : Int) : Int :=
  let blockReward := wrap64 (nFees + getBlockSubsidy E.params nHeight)
  wrap64 (blockReward + E.getDevCoin nHeight blockReward)

/-- The addresses that the payee check extracts for its log: of the third to fifth output and, unless the output burns,
of every payee of the height. They are looked at once a payee has enough votes. -/
def AddressesExtract (P : PaymentEnv) (s : CMasternodePayments) (nHeight : Int) (vout : List CTxOut) : Prop :=
  ∀ bp, s.mapMasternodeBlocks[nHeight]? = some bp →
    (∃ p ∈ bp.vecPayees, MNPAYMENTS_SIGNATURES_REQUIRED ≤ p.getVoteCount) → ∀ txout ∈ (vout.drop 2).take 3,
      extractionThrows txout.scriptPubKey = false ∧
        (txout.scriptPubKey = burnfundScript P ∨ ∀ p ∈ bp.vecPayees, extractionThrows p.scriptPubKey = false)

lemma checkTransactionValid_ok {P : PaymentEnv} {s : CMasternodePayments} {nHeight : Int} {vout : List CTxOut} :
    (∃ valid, s.checkTransactionValid P vout nHeight = .ok valid) ↔ AddressesExtract P s nHeight vout := by
  have hthrows : AddressesExtract P s nHeight vout ↔
      (s.mapMasternodeBlocks[nHeight]?).any (fun bp => bp.logThrows P vout) = false := by
    unfold AddressesExtract
    cases s.mapMasternodeBlocks[nHeight]? with
    | none => simp
    | some bp =>
      simp only [Option.some.injEq, forall_eq', ← enoughVotes_iff, Option.any_some,
        CMasternodeBlockPayees.logThrows, Bool.and_eq_false_imp, decide_eq_true_eq, List.any_eq_false]
      refine forall_congr' fun _ => forall₂_congr fun txout _ => ?_
      simp [or_iff_not_imp_left]
  rw [hthrows, CMasternodePayments.checkTransactionValid]
  split_ifs with h
  · simp [h]
  · simp [Bool.eq_false_iff.mpr h]

lemma isBlockPayeeValid_ok {P : PaymentEnv} {R : PayeeRules} {s : CMasternodePayments} {nHeight : Int}
    {vout : List CTxOut} :
    (∃ valid, s.isBlockPayeeValid P R vout nHeight = .ok valid) ↔
      (R.isSynced = true → AddressesExtract P s nHeight vout) := by
  rw [← checkTransactionValid_ok]
  unfold CMasternodePayments.isBlockPayeeValid
  cases R.isSynced with
  | false => simp [pure, Except.pure]
  | true =>
    cases s.checkTransactionValid P vout nHeight with
    | error what => simp [bind, Except.bind]
    | ok valid =>
      simp only [Bool.not_true, Bool.false_eq_true, if_false, bind, Except.bind, pure, Except.pure]
      split_ifs <;> simp

lemma checkPayee_hasVerdict {nHeight : Int} {coinbase : CTransaction} :
    HasVerdict (checkPayee E nHeight coinbase) ↔
      (forkInfinityNode < nHeight → ∃ valid, E.isBlockPayeeValid coinbase nHeight = .ok valid) := by
  unfold checkPayee
  split_ifs with hfork
  · refine iff_of_true ?_ (by omega)
    rintro what ⟨⟩
  · rw [hasVerdict_liftException, imp_iff_right (by omega)]
    refine exists_congr fun valid => and_iff_left ?_
    intro what h
    unfold Tally.check at h
    split_ifs at h
    cases h

lemma checkDevFee_hasVerdict {nHeight blockReward : Int} {coinbase : CTransaction} :
    HasVerdict (checkDevFee E nHeight blockReward coinbase) ↔ ∃ dev, coinbase.vout[1]? = some dev ∧
      (dev.scriptPubKey = E.devScript → E.getDevCoin nHeight blockReward ≤ dev.nValue →
        HasVerdict (checkPayee E nHeight coinbase)) := by
  unfold checkDevFee
  cases coinbase.vout[1]? with
  | none =>
    refine iff_of_false (fun h => h "read past the end of vout" rfl) ?_
    rintro ⟨dev, h, -⟩
    cases h
  | some dev => simp only [hasVerdict_check, beq_iff_eq, decide_eq_true_eq, Option.some.injEq, exists_eq_left']

/-- In a block that passed `CheckBlock`, the coinbase checks reach a verdict exactly if the coinbase pays more than the
limit, or it has a second output and the payee check is not reached or finds addresses that it can extract. -/
theorem checkCoinbase_hasVerdict_iff {block : CBlock} {ss : List Int} (hblock : checkBlock E block = ⟨.ok (), ss⟩)
    {coinbase : CTransaction} (hfirst : block.vtx.head? = some coinbase) (P : PaymentEnv) (R : PayeeRules)
    (s : CMasternodePayments) (nHeight nFees : Int) :
    HasVerdict (checkCoinbase (E.withPayees P R s) nHeight nFees coinbase) ↔
      coinbaseLimit E nHeight nFees < outputSum coinbase.vout ∨ ∃ dev, coinbase.vout[1]? = some dev ∧
        (dev.scriptPubKey = E.devScript →
          E.getDevCoin nHeight (wrap64 (nFees + getBlockSubsidy E.params nHeight)) ≤ dev.nValue →
          forkInfinityNode < nHeight → R.isSynced = true → AddressesExtract P s nHeight coinbase.vout) := by
  obtain ⟨hok, -⟩ := checkBlock_ok hblock
  have htx := hok.txs_ok coinbase (List.mem_of_mem_head? hfirst)
  -- `CheckTransaction` has seen that the outputs are in range, so `GetValueOut` does not throw.
  obtain ⟨s₁, hvalue⟩ :=
    (getValueOut_iff coinbase (outputSum coinbase.vout)).mpr ⟨htx.outputs_nonneg, htx.outputs_le, rfl⟩
  have hpayee : HasVerdict (checkPayee (E.withPayees P R s) nHeight coinbase) ↔
      (forkInfinityNode < nHeight → R.isSynced = true → AddressesExtract P s nHeight coinbase.vout) := by
    rw [checkPayee_hasVerdict, ← isBlockPayeeValid_ok]
    rfl
  unfold checkCoinbase
  rw [hasVerdict_sum64, hasVerdict_bind_ok hvalue, hasVerdict_sum64, hasVerdict_check, checkDevFee_hasVerdict, hpayee,
    decide_eq_true_eq, ← not_lt, imp_iff_not_or, not_not]
  rfl

/-- Synchronised, with the payments enforced and no budget system. -/
def examplePayeeRules : PayeeRules := ⟨true, 0, 0, 1, 0, false, true⟩

/-- The checks at height 170200, where six votes for one payee are known. -/
def votedEnv : ConnectEnv := lenientEnv.withPayees shippedEnv examplePayeeRules sixVotes

/-- A coinbase of 50 units to its miner, with the dev output and outputs to these scripts behind it. -/
def coinbaseTo (scripts : List CScript) : CTransaction :=
  { exampleCoinbase with vout := exampleCoinbase.vout ++ scripts.map (⟨0, ·, -10⟩) }

theorem checkCoinbase_hasVerdict_example :
    HasVerdict (checkCoinbase votedEnv 170200 0 (coinbaseTo [[OP_1], [OP_1], burnfundScript shippedEnv])) := by
  refine (checkCoinbase_hasVerdict_iff
    (show checkBlock lenientEnv ⟨[coinbaseTo [[OP_1], [OP_1], burnfundScript shippedEnv]]⟩ =
      ⟨.ok (), List.replicate 5 50⟩ by
      decide +kernel) rfl shippedEnv examplePayeeRules sixVotes 170200 0).mpr
        (.inr ⟨_, rfl, fun _ _ _ _ bp hbp _ => ?_⟩)
  cases sixVotes_payees.symm.trans hbp
  decide +kernel

/-- A coinbase with only the first output. -/
def loneCoinbase : CTransaction := { exampleCoinbase with vout := [⟨50, [OP_1], -10⟩] }

def exampleContextualEnv : ContextualEnv := ⟨2000000000, false, false, 0, 0, fun _ => [], id, fun _ => 1200⟩

/-- A block with a coinbase of one output passes `CheckBlock` and `ContextualCheckBlock`; connecting it reads the
second output. So does one that pays to the script `01 00`; there the payee check throws. -/
theorem checkCoinbase_noVerdict :
    (checkBlock lenientEnv ⟨[loneCoinbase]⟩ = ⟨.ok (), [50]⟩ ∧
      contextualCheckBlock exampleContextualEnv 170200 ⟨[loneCoinbase]⟩ = ⟨.ok (), []⟩ ∧
      (connectBlock votedEnv ⟨[loneCoinbase]⟩ 170200 false true false (exampleView 1)).result =
        .error (.exception "read past the end of vout")) ∧
    checkBlock lenientEnv ⟨[coinbaseTo [[1, 0]]]⟩ = ⟨.ok (), [50, 50, 50]⟩ ∧
      contextualCheckBlock exampleContextualEnv 170200 ⟨[coinbaseTo [[1, 0]]]⟩ = ⟨.ok (), []⟩ ∧
      (connectBlock votedEnv ⟨[coinbaseTo [[1, 0]]]⟩ 170200 false true false (exampleView 1)).result =
        .error (.exception "ExtractDestination") := by
  decide +kernel

end Qstees.Proofs
