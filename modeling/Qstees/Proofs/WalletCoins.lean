import Qstees.Library.Traversal
import Qstees.Model.Wallet
import Qstees.Proofs.CoinSelection

/-!
# The coins a wallet lists and selects

`AvailableCoins` lists distinct outputs of wallet transactions, and no deposit before its release.
-/

namespace Qstees.Proofs

open CWallet List CInputCoin

section Listing

variable {E : WalletEnv} {ctx : WalletContext} {wallet : CWallet} {args : AvailableCoinsArgs}
    {coinControl : CCoinControl}

/-- `Solver` sees a deposit, released at `r`. -/
def IsDeposit (script : CScript) (r : Int) : Prop :=
  isOutputTermDeposit script = .ok true ∧ outputTermDepositReleaseBlock script = .ok r

def Released (height : Int) (script : CScript) : Prop := ∀ r, IsDeposit script r → r ≤ height

lemma isLockedDeposit_false {script : CScript} (h : isLockedDeposit ctx script = .ok false) :
    Released ctx.height script := by
  rintro r ⟨hdeposit, hr⟩
  unfold isLockedDeposit at h
  rw [hdeposit, hr] at h
  have hle : decide (r > ctx.height) = false := Except.ok.inj h
  simpa using hle

def walletOutput (wallet : CWallet) (o : COutPoint) : Option (CWalletTx × CTxOut) :=
  (wallet.mapWallet[o.hash]?).bind fun wtx => (wtx.tx.vout[o.n]?).map fun txout => (wtx, txout)

lemma walletOutput_eq_some {o : COutPoint} {wtx : CWalletTx} {txout : CTxOut} :
    walletOutput wallet o = some (wtx, txout) ↔ wallet.mapWallet[o.hash]? = some wtx ∧
      wtx.tx.vout[o.n]? = some txout := by
  simp only [walletOutput, Option.bind_eq_some_iff, Option.map_eq_some_iff, Prod.mk.injEq]
  constructor
  · rintro ⟨w, hw, out, hout, rfl, rfl⟩
    exact ⟨hw, hout⟩
  · rintro ⟨hw, hout⟩
    exact ⟨wtx, hw, txout, hout, rfl, rfl⟩

def outputKey (out : COutput) : COutPoint := ⟨out.tx.tx.hash, out.i⟩

/-- An output that `AvailableCoins` lists. -/
structure Listed (ctx : WalletContext) (wallet : CWallet) (coinControl : CCoinControl) (out : COutput)
    (txout : CTxOut) : Prop where
  held : walletOutput wallet (outputKey out) = some (out.tx, txout)
  released : Released ctx.height txout.scriptPubKey
  unspent : wallet.isSpent ctx (outputKey out) = false
  positive : 1 ≤ txout.nValue
  selected : coinControl.hasSelected = true → coinControl.fAllowOtherInputs = false →
    coinControl.isSelected (outputKey out) = true

lemma availableOutput_some {wtxid : UInt256} {wtx : CWalletTx} {nDepth : Int} {txout : CTxOut} {i : Nat} {out : COutput}
    (hheld : wallet.mapWallet[wtxid]? = some wtx) (hout : wtx.tx.vout[i]? = some txout)
    (h : wallet.availableOutput E ctx {} coinControl wtxid wtx nDepth txout i = .ok (some out)) :
    out.tx = wtx ∧ out.i = i ∧ Listed ctx wallet coinControl out txout := by
  have hhash := wallet.keyed wtxid wtx hheld
  unfold availableOutput at h
  simp only [Bool.false_eq_true, false_and, if_false] at h
  obtain ⟨locked, hlocked, h⟩ := ok_of_bind h
  cases locked with
  | true => cases h
  | false =>
    simp only [Bool.false_eq_true, if_false, Bool.not_eq_true', and_true] at h
    split_ifs at h with hrange hselected hcoin hspent hmine
    · cases h
    · cases h
    · cases h
    · cases h
    · cases h
    · simp only [pure, Except.pure, Except.ok.injEq, Option.some.injEq] at h
      subst h
      have hkey (out : COutput) (htx : out.tx = wtx) (hi : out.i = i) : outputKey out = ⟨wtxid, i⟩ := by
        rw [outputKey, htx, hi, hhash]
      refine ⟨rfl, rfl, ?_, isLockedDeposit_false hlocked, ?_, by omega, fun hsel hother => ?_⟩
      · rw [hkey _ rfl rfl]
        exact walletOutput_eq_some.mpr ⟨hheld, hout⟩
      · rw [hkey _ rfl rfl]
        simpa using hspent
      · rw [hkey _ rfl rfl]
        by_contra hnot
        exact hselected ⟨hsel, hother, by simpa using hnot⟩

def outputKeys (entry : UInt256 × CWalletTx) : List COutPoint :=
  (List.range entry.2.tx.vout.length).map fun i => ⟨entry.2.tx.hash, i⟩

variable {outs : List COutput}

lemma availableEntry_spec {entry : UInt256 × CWalletTx}
    (hheld : wallet.mapWallet[entry.1]? = some entry.2)
    (h : wallet.availableEntry E ctx {} coinControl entry = .ok outs) :
    (outs.map outputKey).Sublist (outputKeys entry) ∧ ∀ out ∈ outs, ∃ txout,
      Listed ctx wallet coinControl out txout := by
  unfold availableEntry at h
  obtain ⟨depth, -, h⟩ := ok_of_bind h
  cases depth with
  | none =>
    cases h
    simp
  | some nDepth =>
    obtain ⟨coins, hcoins, h⟩ := ok_of_bind h
    cases h
    have hkeys : outputKeys entry = entry.2.tx.vout.zipIdx.flatMap fun p => [⟨entry.2.tx.hash, p.2⟩] := by
      rw [outputKeys, range_eq_range', ← zipIdx_map_snd 0 entry.2.tx.vout, map_map, map_eq_flatMap]
      rfl
    rw [List.reduceOption, filterMap_eq_flatMap_toList, hkeys]
    refine Traversal.flatMap_sublist_of_forall₂ (Traversal.mapM_eq_ok_iff.mp hcoins) ?_
    rintro ⟨txout, i⟩ hmem (_ | out) hcoin
    · simp
    · obtain ⟨htx, rfl, hlisted⟩ := availableOutput_some hheld (mem_zipIdx_iff_getElem?.mp hmem) hcoin
      exact ⟨by simp [outputKey, htx], by simpa using ⟨txout, hlisted⟩⟩

lemma availableCoins_spec (h : wallet.availableCoins E ctx {} coinControl = .ok outs) :
    (outs.map outputKey).Nodup ∧ ∀ out ∈ outs, ∃ txout, Listed ctx wallet coinControl out txout := by
  unfold availableCoins at h
  obtain ⟨lists, hlists, h⟩ := ok_of_bind h
  cases h
  have hheld : ∀ entry ∈ wallet.mapWallet.toList, wallet.mapWallet[entry.1]? = some entry.2 := fun entry hentry =>
    Std.ExtTreeMap.mem_toList_iff_getElem?_eq_some.mp hentry
  have hnodup : (wallet.mapWallet.toList.flatMap outputKeys).Nodup := by
    rw [nodup_flatMap]
    refine ⟨fun entry _ => nodup_range.map fun i j hij => (COutPoint.mk.inj hij).2, ?_⟩
    refine (Std.ExtTreeMap.distinct_keys_toList).imp_of_mem fun {a b} ha hb hne => ?_
    rw [Function.onFun, disjoint_left]
    intro o hoa hob
    obtain ⟨i, -, rfl⟩ := List.mem_map.mp hoa
    obtain ⟨j, -, heq⟩ := List.mem_map.mp hob
    have hhash : b.1 = a.1 := by
      rw [← wallet.keyed _ _ (hheld a ha), ← wallet.keyed _ _ (hheld b hb)]
      exact (COutPoint.mk.inj heq).1
    exact hne (by simp [hhash])
  rw [flatten_eq_flatMap]
  obtain ⟨hkeys, hlisted⟩ := Traversal.flatMap_sublist_of_forall₂ (Traversal.mapM_eq_ok_iff.mp hlists)
    fun entry hentry outs houts => availableEntry_spec (hheld entry hentry) houts
  exact ⟨hkeys.nodup hnodup, hlisted⟩

end Listing

variable {out : COutput} {coin : CInputCoin} {coins : List CInputCoin} {group : OutputGroup}
  {groups : List OutputGroup}

lemma getInputCoin_eq_ok (h : out.getInputCoin = .ok coin) :
    coin.outpoint = outputKey out ∧ out.tx.tx.vout[out.i]? = some coin.txout := by
  unfold COutput.getInputCoin ofTx at h
  cases hout : out.tx.tx.vout[out.i]? with
  | none => simp [hout] at h
  | some txout =>
    simp only [hout, Except.ok.injEq] at h
    subst h
    exact ⟨rfl, rfl⟩

def InputCoins (outs : List COutput) (coins : List CInputCoin) : Prop :=
  List.Forall₂ (fun out coin => out.getInputCoin = .ok coin) (outs.filter COutput.fSpendable) coins

lemma InputCoins.map_outpoint (h : InputCoins outs coins) :
    coins.map outpoint = (outs.filter COutput.fSpendable).map outputKey := by
  unfold InputCoins at h
  generalize outs.filter COutput.fSpendable = spendable at h ⊢
  induction h with
  | nil => rfl
  | cons hcoin _ ih => rw [map_cons, map_cons, (getInputCoin_eq_ok hcoin).1, ih]

lemma InputCoins.exists_output (h : InputCoins outs coins)
    (hcoin : coin ∈ coins) : ∃ out ∈ outs, out.getInputCoin = .ok coin := by
  suffices hexists : ∃ out ∈ outs.filter COutput.fSpendable, out.getInputCoin = .ok coin by
    obtain ⟨out, hout, heq⟩ := hexists
    exact ⟨out, mem_of_mem_filter hout, heq⟩
  unfold InputCoins at h
  generalize outs.filter COutput.fSpendable = spendable at h ⊢
  induction h with
  | nil => cases hcoin
  | cons hfirst _ ih =>
    rcases mem_cons.mp hcoin with rfl | hcoin
    · exact ⟨_, mem_cons_self, hfirst⟩
    · obtain ⟨out, hout, heq⟩ := ih hcoin
      exact ⟨out, mem_cons_of_mem _ hout, heq⟩

lemma InputCoins.concat (h : InputCoins outs coins)
    (hspendable : out.fSpendable = true) (hcoin : out.getInputCoin = .ok coin) :
    InputCoins (outs ++ [out]) (coins ++ [coin]) := by
  unfold InputCoins at h ⊢
  rw [filter_append, filter_cons_of_pos hspendable, filter_nil]
  exact rel_append h (.cons hcoin .nil)

lemma InputCoins.skip (h : InputCoins outs coins) (hspendable : (!out.fSpendable) = true) :
    InputCoins (outs ++ [out]) coins := by
  unfold InputCoins at h ⊢
  rw [Bool.not_eq_true'] at hspendable
  simpa [filter_append, hspendable] using h

lemma counted_insert (h : Counted group) (depth : Int) (from_me : Bool)
    (ancestors descendants : Nat) :
    Counted (group.insert coin depth from_me ancestors descendants) := by
  unfold Counted at h ⊢
  simp [OutputGroup.insert, coinsValue, effectiveValue, h]

def allGroups (s : List OutputGroup × List (CTxDestination × OutputGroup)) : List OutputGroup := s.1 ++ s.2.map Prod.snd

lemma groupCoins_cons :
    groupCoins (group :: groups) = group.m_outputs ++ groupCoins groups := flatMap_cons

lemma groupCoins_append (groups' : List OutputGroup) :
    groupCoins (groups ++ groups') = groupCoins groups ++ groupCoins groups' :=
  flatMap_append

lemma groupCoins_perm {groups' : List OutputGroup} (h : groups.Perm groups') :
    (groupCoins groups).Perm (groupCoins groups') :=
  h.flatMap_right _

/-- The groups `rest` with `group` hold the coins of `groups`. -/
def SplitOff (groups : List OutputGroup) (group : OutputGroup) (rest : List OutputGroup) : Prop :=
  (groupCoins (group :: rest)).Perm (groupCoins groups) ∧ ∀ g ∈ group :: rest, g = {} ∨ g ∈ groups

lemma splitOff_lookup (gmap : List (CTxDestination × OutputGroup)) (dst : CTxDestination) :
    SplitOff (gmap.map Prod.snd) ((gmap.lookup dst).getD {})
      ((gmap.eraseP (fun entry => entry.1 = dst)).map Prod.snd) := by
  induction gmap with
  | nil => exact ⟨.refl _, by simp⟩
  | cons entry gmap ih =>
    by_cases hdst : entry.1 = dst
    · subst hdst
      rw [eraseP_cons_of_pos (by simp), lookup_cons, beq_self_eq_true]
      exact ⟨.refl _, fun g hg => .inr hg⟩
    · have hne : (dst == entry.1) = false := by simpa using Ne.symm hdst
      rw [eraseP_cons_of_neg (by simpa using hdst), lookup_cons, hne]
      refine ⟨(groupCoins_perm (.swap _ _ _)).trans (ih.1.append_left _), fun g hg => ?_⟩
      rcases mem_cons.mp ((List.Perm.swap _ _ _).mem_iff.mp hg) with rfl | hg
      · simp
      · exact (ih.2 g hg).imp_right (mem_cons_of_mem _)

/-- Placing a coin inserts it into one group, a new one or one of those there. -/
lemma placeCoin_split (insert : OutputGroup → OutputGroup) (s : List OutputGroup × List (CTxDestination × OutputGroup))
    (dst : Option CTxDestination) :
    ∃ group rest, (allGroups (placeCoin insert s dst)).Perm (insert group :: rest) ∧
      SplitOff (allGroups s) group rest := by
  cases dst with
  | none =>
    refine ⟨{}, allGroups s, ?_, .refl _, by simp⟩
    simp [allGroups, placeCoin]
  | some dst =>
    obtain ⟨hcoins, hfrom⟩ := splitOff_lookup s.2 dst
    have hcoins' := hcoins.append_left (groupCoins s.1)
    unfold allGroups placeCoin storeGroup
    dsimp only
    generalize (s.2.lookup dst).getD {} = group, (s.2.eraseP fun entry => entry.1 = dst) = gmap at *
    rw [← groupCoins_append, ← groupCoins_append] at hcoins'
    have hfrom' : ∀ g ∈ s.1 ++ group :: gmap.map Prod.snd, g = {} ∨ g ∈ s.1 ++ s.2.map Prod.snd :=
      forall_mem_append.mpr ⟨fun g hg => .inr (mem_append_left _ hg),
        fun g hg => (hfrom g hg).imp_right (mem_append_right _)⟩
    split_ifs
    · exact ⟨{}, s.1 ++ group :: gmap.map Prod.snd, perm_middle.trans (by simp), hcoins',
        forall_mem_cons.mpr ⟨.inl rfl, hfrom'⟩⟩
    · exact ⟨group, s.1 ++ gmap.map Prod.snd, perm_middle, (groupCoins_perm perm_middle.symm).trans hcoins',
        fun g hg => hfrom' g (perm_middle.mem_iff.mpr hg)⟩

/-- What `GroupOutputs` keeps: its groups hold the coins seen so far, and count them. -/
structure Grouping (seen : List COutput) (s : List OutputGroup × List (CTxDestination × OutputGroup)) : Prop where
  coins : ∃ coins, InputCoins seen coins ∧ (groupCoins (allGroups s)).Perm coins
  counted : ∀ group ∈ allGroups s, Counted group

lemma Grouping.place {seen : List COutput}
    {s : List OutputGroup × List (CTxDestination × OutputGroup)}
    {insert : OutputGroup → OutputGroup} (hs : Grouping seen s)
    (hspendable : out.fSpendable = true) (hcoin : out.getInputCoin = .ok coin)
    (hinsert : ∀ group, (insert group).m_outputs = group.m_outputs ++ [coin])
    (hcounted : ∀ group, Counted group → Counted (insert group)) (dst : Option CTxDestination) :
    Grouping (seen ++ [out]) (placeCoin insert s dst) := by
  obtain ⟨coins, hcoins, hperm⟩ := hs.coins
  obtain ⟨group, rest, hplaced, hsame, hfrom⟩ := placeCoin_split insert s dst
  have hall : ∀ g ∈ group :: rest, Counted g := fun g hg => (hfrom g hg).elim (fun h => h ▸ rfl) (hs.counted g)
  rw [forall_mem_cons] at hall
  refine ⟨⟨coins ++ [coin], hcoins.concat hspendable hcoin, ?_⟩, fun g hg => ?_⟩
  · calc (groupCoins (allGroups (placeCoin insert s dst))).Perm (groupCoins (insert group :: rest)) :=
      groupCoins_perm hplaced
      _ = group.m_outputs ++ ([coin] ++ groupCoins rest) := by rw [groupCoins_cons, hinsert, append_assoc]
      List.Perm _ (group.m_outputs ++ (groupCoins rest ++ [coin])) := perm_append_comm.append_left _
      _ = groupCoins (group :: rest) ++ [coin] := by rw [groupCoins_cons, append_assoc]
      List.Perm _ (coins ++ [coin]) := (hsame.trans hperm).append_right _
  · exact forall_mem_cons.mpr ⟨hcounted group hall.1, hall.2⟩ g (hplaced.mem_iff.mp hg)

lemma groupOutputs_spec {E : WalletEnv} {ctx : WalletContext}
    {single_coin : Bool} (h : groupOutputs E ctx outs single_coin = .ok groups) :
    (∃ coins, InputCoins outs coins ∧ (groupCoins groups).Perm coins) ∧ ∀ group ∈ groups, Counted group := by
  unfold groupOutputs at h
  obtain ⟨s, hfold, h⟩ := ok_of_bind h
  cases h
  suffices hs : Grouping outs s from ⟨hs.coins, hs.counted⟩
  have hstart : Grouping [] ([], []) := ⟨⟨[], .nil, .nil⟩, by simp [allGroups]⟩
  refine Traversal.foldlM_invariant (I := Grouping) (fun seen out _ s s' _ hs h => ?_) hstart hfold
  unfold groupOutput at h
  split_ifs at h with hspendable
  · cases h
    obtain ⟨coins, hcoins, hperm⟩ := hs.coins
    exact ⟨⟨coins, hcoins.skip hspendable, hperm⟩, hs.counted⟩
  · obtain ⟨coin, hcoin, h⟩ := ok_of_bind h
    obtain ⟨dst, -, h⟩ := ok_of_bind h
    cases h
    exact hs.place (by simpa using hspendable) hcoin (fun _ => rfl)
      (fun group hgroup => counted_insert hgroup _ _ _ _) dst

lemma getFee_nonneg (rate : CFeeRate) (nBytes : Nat) : 0 ≤ rate.getFee nBytes := by
  unfold CFeeRate.getFee
  dsimp only
  split_ifs
  · exact zero_le_one
  · exact Int.natCast_nonneg _

lemma inputFee_nonneg (rate : CFeeRate) : 0 ≤ inputFee rate coin := by
  unfold inputFee
  split_ifs
  · exact le_rfl
  · exact getFee_nonneg rate _

variable (effective_fee : CFeeRate)

/-- The coin is worth more than its fee. -/
def worthwhile (coin : CInputCoin) : Bool :=
  decide (coin.txout.nValue - inputFee effective_fee coin > 0)

def effectiveSum (coins : List CInputCoin) : Int :=
  (coins.map fun coin => coin.txout.nValue - inputFee effective_fee coin).sum

def feeSum (rate : CFeeRate) (coins : List CInputCoin) : Int := (coins.map (inputFee rate)).sum

def dustValue (coins : List CInputCoin) : Int :=
  coinsValue (coins.filter fun coin => !worthwhile effective_fee coin)

/-- An outpoint stands for one coin. -/
def OneCoinEach (coins : List CInputCoin) : Prop := ∀ a ∈ coins, ∀ b ∈ coins, a.outpoint = b.outpoint → a = b

lemma Distinct.oneCoinEach (h : Distinct coins) : OneCoinEach coins :=
  fun _ ha _ hb heq => inj_on_of_nodup_map h ha hb heq

lemma foldl_effectiveCoin (effective_fee long_term_feerate : CFeeRate) (kept : List CInputCoin) {rest : List CInputCoin}
    (houtputs : group.m_outputs = kept ++ rest) (hone : OneCoinEach (kept ++ rest))
    (hkept : ∀ coin ∈ kept, worthwhile effective_fee coin = true) :
    rest.foldl (effectiveCoin effective_fee long_term_feerate) group =
      { group with
        m_outputs := kept ++ rest.filter (worthwhile effective_fee)
        m_value := group.m_value - dustValue effective_fee rest
        fee := group.fee + feeSum effective_fee (rest.filter (worthwhile effective_fee))
        long_term_fee := group.long_term_fee + feeSum long_term_feerate (rest.filter (worthwhile effective_fee))
        effective_value := group.effective_value + effectiveSum effective_fee (rest.filter (worthwhile effective_fee)) -
          dustValue effective_fee rest } := by
  induction rest generalizing group kept with
  | nil => simp [dustValue, coinsValue, feeSum, effectiveSum, ← houtputs]
  | cons coin rest ih =>
    rw [foldl_cons, effectiveCoin]
    cases hcoin : worthwhile effective_fee coin with
    | true =>
      rw [if_pos (of_decide_eq_true hcoin), ih (kept ++ [coin]) (by simp [houtputs]) (by simpa using hone)
        (by simpa [or_imp, forall_and, hcoin] using hkept)]
      simp [dustValue, coinsValue, feeSum, effectiveSum, hcoin, add_assoc]
    | false =>
      have hnone : ∀ c ∈ kept, ¬c.outpoint = coin.outpoint := by
        intro c hc heq
        have hsame := hone c (by simp [hc]) coin (by simp) heq
        rw [← hsame, hkept c hc] at hcoin
        cases hcoin
      have herase : group.m_outputs.eraseP (fun c => c.outpoint = coin.outpoint) = kept ++ rest := by
        rw [houtputs, eraseP_append_right _ (by simpa using hnone), eraseP_cons_of_pos (by simp)]
      have hsub : (kept ++ rest) ⊆ kept ++ coin :: rest := ((sublist_cons_self coin rest).append_left kept).subset
      rw [if_neg (of_decide_eq_false hcoin), OutputGroup.discard, if_pos (by simp [houtputs]), ih kept herase
        (fun a ha b hb => hone a (hsub ha) b (hsub hb)) hkept]
      simp only [dustValue, coinsValue, effectiveValue, hcoin, filter_cons, Bool.not_false, if_true, map_cons,
        sum_cons, Bool.false_eq_true, if_false, OutputGroup.mk.injEq, true_and]
      constructor
      · ring
      · exact ⟨by ring, trivial⟩

lemma effectiveGroup_eq (effective_fee long_term_feerate : CFeeRate) (hone : OneCoinEach group.m_outputs) :
    effectiveGroup effective_fee long_term_feerate group =
      { group with
        m_outputs := group.m_outputs.filter (worthwhile effective_fee)
        m_value := group.m_value - dustValue effective_fee group.m_outputs
        fee := feeSum effective_fee (group.m_outputs.filter (worthwhile effective_fee))
        long_term_fee := feeSum long_term_feerate (group.m_outputs.filter (worthwhile effective_fee))
        effective_value := effectiveSum effective_fee (group.m_outputs.filter (worthwhile effective_fee)) -
          dustValue effective_fee group.m_outputs } := by
  have hfold := @foldl_effectiveCoin { group with fee := 0, long_term_fee := 0, effective_value := 0 } effective_fee
    long_term_feerate [] group.m_outputs rfl hone (by simp)
  simpa [effectiveGroup] using hfold

lemma coinsValue_filter (effective_fee : CFeeRate) :
    coinsValue coins = coinsValue (coins.filter (worthwhile effective_fee)) + dustValue effective_fee coins := by
  have hperm := filter_append_perm (worthwhile effective_fee) coins
  rw [coinsValue, ← (hperm.map _).sum_eq, map_append, sum_append, coinsValue, dustValue, coinsValue]

lemma effectiveGroup_spec (effective_fee long_term_feerate : CFeeRate) (hcounted : Counted group)
    (hdistinct : Distinct group.m_outputs) (hvalues : ∀ coin ∈ group.m_outputs, 0 ≤ coin.txout.nValue) :
    (effectiveGroup effective_fee long_term_feerate group).m_outputs.Sublist group.m_outputs ∧
      Counted (effectiveGroup effective_fee long_term_feerate group) ∧
      (effectiveGroup effective_fee long_term_feerate group).effective_value ≤
        (effectiveGroup effective_fee long_term_feerate group).m_value := by
  have hvalue : group.m_value = _ := hcounted.trans (coinsValue_filter effective_fee)
  have hdust : 0 ≤ dustValue effective_fee group.m_outputs := by
    apply sum_nonneg
    simp only [List.mem_map, mem_filter, forall_exists_index, and_imp]
    rintro _ coin hcoin - rfl
    exact hvalues coin hcoin
  have hfees : effectiveSum effective_fee (group.m_outputs.filter (worthwhile effective_fee)) ≤
      coinsValue (group.m_outputs.filter (worthwhile effective_fee)) :=
    sum_le_sum fun coin _ => sub_le_self _ (inputFee_nonneg effective_fee)
  rw [effectiveGroup_eq effective_fee long_term_feerate hdistinct.oneCoinEach]
  refine ⟨filter_sublist, ?_, ?_⟩
  · simp only [Counted]
    omega
  · dsimp only
    omega

section EffectivePool

variable (fees : FeeContext) (params : CoinSelectionParams) (eligibility_filter : CoinEligibilityFilter)

def utxoPool (groups : List OutputGroup) : List OutputGroup :=
  ((groups.filter (·.eligibleForSpending eligibility_filter)).map
    (effectiveGroup params.effective_fee fees.long_term_feerate)).filter (fun group =>
      decide (group.effective_value > 0))

/-- A group of the pool holds the coins that are worth their fee, and its sums are over these. -/
structure CountsWorthwhile (group pooled : OutputGroup) : Prop where
  outputs : pooled.m_outputs = group.m_outputs.filter (worthwhile params.effective_fee)
  value : pooled.m_value = coinsValue pooled.m_outputs
  effective_value : pooled.effective_value = effectiveSum params.effective_fee pooled.m_outputs
  fee : pooled.fee = feeSum params.effective_fee pooled.m_outputs
  long_term_fee : pooled.long_term_fee = feeSum fees.long_term_feerate pooled.m_outputs

def HasWorthwhile (group : OutputGroup) : Prop := ∃ coin ∈ group.m_outputs, worthwhile params.effective_fee coin = true

variable {params} in
lemma effectiveSum_worthwhile (group : OutputGroup) :
    HasWorthwhile params group ∧
      0 < effectiveSum params.effective_fee (group.m_outputs.filter (worthwhile params.effective_fee)) ∨
      ¬HasWorthwhile params group ∧
        effectiveSum params.effective_fee (group.m_outputs.filter (worthwhile params.effective_fee)) = 0 := by
  by_cases hsome : HasWorthwhile params group
  · refine .inl ⟨hsome, sum_pos _ ?_ ?_⟩
    · intro value hvalue
      obtain ⟨coin, hcoin, rfl⟩ := List.mem_map.mp hvalue
      exact of_decide_eq_true (mem_filter.mp hcoin).2
    · obtain ⟨coin, hcoin, hworth⟩ := hsome
      exact ne_nil_of_mem (mem_map_of_mem (mem_filter.mpr ⟨hcoin, hworth⟩))
  · have hnone : group.m_outputs.filter (worthwhile params.effective_fee) = [] :=
      filter_eq_nil_iff.mpr fun coin hcoin hworth => hsome ⟨coin, hcoin, hworth⟩
    exact .inr ⟨hsome, by rw [hnone]; rfl⟩

variable {fees params eligibility_filter}

lemma mem_utxoPool (hgroup : group ∈ groups) (heligible : group.eligibleForSpending eligibility_filter = true) :
    effectiveGroup params.effective_fee fees.long_term_feerate group ∈ utxoPool fees params eligibility_filter groups ↔
      0 < (effectiveGroup params.effective_fee fees.long_term_feerate group).effective_value := by
  rw [utxoPool, mem_filter, decide_eq_true_eq]
  exact and_iff_right (mem_map_of_mem (mem_filter.mpr ⟨hgroup, heligible⟩))

/-- Branch and bound is given every group with coins worth their fee, with its sums over these, if and only if the other
coins of such a group add up to nothing, and those of a group without such coins to nothing negative. -/
theorem effectivePool_iff (hbnb : params.use_bnb = true) (hcounted : ∀ group ∈ groups, Counted group)
    (hone : ∀ group ∈ groups, OneCoinEach group.m_outputs) :
    (∀ rand place nTargetValue, selectCoinsMinConf rand place fees params nTargetValue eligibility_filter groups =
      selectCoinsBnB rand place (utxoPool fees params eligibility_filter groups) nTargetValue
        (fees.discard_rate.getFee params.change_spend_size + params.effective_fee.getFee params.change_output_size)
        (params.effective_fee.getFee params.tx_noinputs_size)) ∧
    ((∀ group ∈ groups, group.eligibleForSpending eligibility_filter = true →
        (effectiveGroup params.effective_fee fees.long_term_feerate group ∈
          utxoPool fees params eligibility_filter groups →
          CountsWorthwhile fees params group (effectiveGroup params.effective_fee fees.long_term_feerate group)) ∧
        (HasWorthwhile params group →
          effectiveGroup params.effective_fee fees.long_term_feerate group ∈
            utxoPool fees params eligibility_filter groups)) ↔
      ∀ group ∈ groups, group.eligibleForSpending eligibility_filter = true →
        0 ≤ dustValue params.effective_fee group.m_outputs ∧
          (HasWorthwhile params group → dustValue params.effective_fee group.m_outputs = 0)) := by
  refine ⟨fun rand place nTargetValue => by rw [selectCoinsMinConf, if_pos hbnb, utxoPool], ?_⟩
  refine forall_congr' fun group => forall_congr' fun hgroup => forall_congr' fun heligible => ?_
  have hvalue := (hcounted group hgroup).trans (coinsValue_filter params.effective_fee)
  rw [mem_utxoPool hgroup heligible, effectiveGroup_eq params.effective_fee fees.long_term_feerate (hone group hgroup)]
  constructor
  · rintro ⟨hcounts, hin⟩
    rcases effectiveSum_worthwhile group with ⟨hsome, hpos⟩ | ⟨hnone, hzero⟩
    · have hsum := (hcounts (hin hsome)).effective_value
      dsimp only at hsum
      exact ⟨by omega, fun _ => by omega⟩
    · refine ⟨?_, fun hsome => absurd hsome hnone⟩
      by_contra hnegative
      have hsum := (hcounts (by dsimp only; omega)).effective_value
      dsimp only at hsum
      omega
  · rintro ⟨hnonneg, hdust⟩
    rcases effectiveSum_worthwhile group with ⟨hsome, hpos⟩ | ⟨hnone, hzero⟩
    · have hdust := hdust hsome
      refine ⟨fun _ => ⟨rfl, ?_, ?_, rfl, rfl⟩, fun _ => ?_⟩
      · dsimp only
        omega
      · dsimp only
        omega
      · dsimp only
        omega
    · refine ⟨fun hin => ?_, fun hsome => absurd hsome hnone⟩
      dsimp only at hin
      omega

end EffectivePool

def exampleFees : FeeContext where
  nFeeRateNeeded := ⟨0⟩
  long_term_feerate := ⟨0⟩
  discard_rate := ⟨0⟩
  dustRelayFee := ⟨0⟩
  minRelayTxFee := ⟨0⟩
  getMinimumFee := fun _ _ => 1000
  isFallback := fun _ => false

def exampleParams : CoinSelectionParams where
  use_bnb := true
  change_output_size := 0
  change_spend_size := 0
  effective_fee := ⟨1000⟩
  tx_noinputs_size := 0

/-- Two coins that cost 100 each to spend. -/
def exampleGroup (nValue : Int) : OutputGroup :=
  (OutputGroup.insert {} ⟨⟨1, 0⟩, ⟨1000, [], -10⟩, 100⟩ 1 true 0 0).insert ⟨⟨1, 1⟩, ⟨nValue, [], -10⟩, 100⟩ 1 true 0 0

theorem effectivePool_iff_worthwhile :
    CountsWorthwhile exampleFees exampleParams (exampleGroup 200) (effectiveGroup ⟨1000⟩ ⟨0⟩ (exampleGroup 200)) := by
  have hdistinct : ((exampleGroup 200).m_outputs.map outpoint).Nodup := by decide
  have hiff :=
    @effectivePool_iff [exampleGroup 200] exampleFees exampleParams ⟨1, 1, 0, 0⟩ rfl (forall_mem_singleton.mpr rfl)
    (forall_mem_singleton.mpr (Distinct.oneCoinEach hdistinct))
  have hclean : dustValue ⟨1000⟩ (exampleGroup 200).m_outputs = 0 := by decide
  refine (hiff.2.mpr (forall_mem_singleton.mpr fun _ => ⟨hclean.ge, fun _ => hclean⟩) _ (by simp) rfl).1 ?_
  decide

/-- A coin not worth its fee lowers the value of its group. -/
theorem dust_lowers_effectiveValue :
    (utxoPool exampleFees exampleParams ⟨1, 1, 0, 0⟩ [exampleGroup 50]).map OutputGroup.effective_value = [850] ∧
      effectiveSum ⟨1000⟩ ((exampleGroup 50).m_outputs.filter (worthwhile ⟨1000⟩)) = 900 := by
  decide

lemma groupCoins_mem_sublist (h : group ∈ groups) :
    group.m_outputs.Sublist (groupCoins groups) := by
  have hsingle : [group].Sublist groups := singleton_sublist.mpr h
  simpa [groupCoins] using hsingle.flatMap OutputGroup.m_outputs

/-- Groups as `GroupOutputs` makes them of the wallet's coins. -/
structure Poolable (groups : List OutputGroup) : Prop where
  distinct : Distinct (groupCoins groups)
  counted : ∀ group ∈ groups, Counted group
  nonneg : ∀ coin ∈ groupCoins groups, 0 ≤ coin.txout.nValue

lemma selectCoinsMinConf_solves {rand : Randomness} {place : List Nat} {fees : FeeContext}
    {params : CoinSelectionParams} {target : Int} {eligibility_filter : CoinEligibilityFilter}
    {s : Solution} (hgroups : Poolable groups)
    (h : selectCoinsMinConf rand place fees params target eligibility_filter groups = .ok (some s)) :
    Solves (groupCoins groups) target s := by
  unfold selectCoinsMinConf at h
  dsimp only at h
  set eligible := groups.filter (·.eligibleForSpending eligibility_filter) with heligible
  have hsub : (groupCoins eligible).Sublist (groupCoins groups) := filter_sublist.flatMap _
  have hmem : ∀ group ∈ eligible, group ∈ groups := fun group hgroup => mem_of_mem_filter hgroup
  split_ifs at h with hbnb
  · have heffective := fun group hgroup =>
      have hgroupSub := groupCoins_mem_sublist (hmem group hgroup)
      effectiveGroup_spec params.effective_fee fees.long_term_feerate (hgroups.counted group (hmem group hgroup))
        (hgroups.distinct.subperm hgroupSub.subperm) (fun coin hcoin => hgroups.nonneg coin (hgroupSub.subset hcoin))
    set pool := (eligible.map (effectiveGroup params.effective_fee fees.long_term_feerate)).filter
      (fun group => decide (group.effective_value > 0)) with hpool
    have hpoolSub : (groupCoins pool).Sublist (groupCoins eligible) := by
      refine (filter_sublist.flatMap _).trans ?_
      rw [flatMap_map]
      exact List.Sublist.flatMap_right _ (fun group hgroup => (heffective group hgroup).1)
    have hpoolMem : ∀ group ∈ pool, Counted group ∧ group.effective_value ≤ group.m_value := by
      intro group hgroup
      obtain ⟨original, horiginal, rfl⟩ := List.mem_map.mp (mem_of_mem_filter hgroup)
      exact (heffective original horiginal).2
    have hsolves := selectCoinsBnB_solves (hgroups.distinct.subperm (hpoolSub.trans hsub).subperm)
      (fun group hgroup => (hpoolMem group hgroup).1) (fun group hgroup => (hpoolMem group hgroup).2)
        (getFee_nonneg _ _) h
    exact ⟨hsolves.subperm.trans (hpoolSub.trans hsub).subperm, hsolves.value, hsolves.reached⟩
  · have hsolves := knapsackSolver_solves (hgroups.distinct.subperm hsub.subperm)
      (fun group hgroup => hgroups.counted group (hmem group hgroup)) (Except.ok.inj h)
    exact ⟨hsolves.subperm.trans hsub.subperm, hsolves.value, hsolves.reached⟩

lemma firstSelection_solves {rand : Randomness} {place : List Nat} {fees : FeeContext}
    {params : CoinSelectionParams} {target : Int} {filters : List CoinEligibilityFilter}
    {s : Solution} (hgroups : Poolable groups)
    (h : firstSelection rand place fees params target groups filters = .ok (some s)) :
    Solves (groupCoins groups) target s := by
  induction filters with
  | nil => cases h
  | cons eligibility_filter filters ih =>
    unfold firstSelection at h
    obtain ⟨attempt, hattempt, h⟩ := ok_of_bind h
    cases attempt with
    | none => exact ih h
    | some solution =>
      cases h
      exact selectCoinsMinConf_solves hgroups hattempt

section Selecting

variable {E : WalletEnv} {ctx : WalletContext} {wallet : CWallet} {coin_control : CCoinControl}

def countedValue (ctx : WalletContext) (wallet : CWallet) (coin_control : CCoinControl) (o : COutPoint) : Int :=
  match walletOutput wallet o with
  | none => 0
  | some (wtx, txout) =>
    if coin_control.isSelected o then (valueInNextBlock ctx wtx txout).toOption.getD 0 else txout.nValue

/-- The coins of a selection and the value at which they are counted. -/
structure Selected (ctx : WalletContext) (wallet : CWallet) (coin_control : CCoinControl) (coins : List CInputCoin)
    (nValue : Int) : Prop where
  distinct : Distinct coins
  held : ∀ coin ∈ coins, ∃ wtx, walletOutput wallet coin.outpoint = some (wtx, coin.txout) ∧
    (coin_control.isSelected coin.outpoint = true → ∃ v, valueInNextBlock ctx wtx coin.txout = .ok v)
  listed : ∀ coin ∈ coins, (coin_control.isSelected coin.outpoint = true → coin_control.fAllowOtherInputs = false) →
    Released ctx.height coin.txout.scriptPubKey ∧ wallet.isSpent ctx coin.outpoint = false
  preset : coin_control.fAllowOtherInputs = true → ∀ o, coin_control.isSelected o = true →
    o ∈ coins.map outpoint
  value : nValue = (coins.map fun coin => countedValue ctx wallet coin_control coin.outpoint).sum

lemma Selected.length_le {coins : List CInputCoin} {nValue : Int} (h : Selected ctx wallet coin_control coins nValue) :
    coins.length ≤ (wallet.mapWallet.toList.flatMap outputKeys).length := by
  have hsub : coins.map outpoint ⊆ wallet.mapWallet.toList.flatMap outputKeys := by
    intro o ho
    obtain ⟨coin, hcoin, rfl⟩ := List.mem_map.mp ho
    obtain ⟨wtx, hout, -⟩ := h.held coin hcoin
    obtain ⟨hwtx, hn⟩ := walletOutput_eq_some.mp hout
    refine mem_flatMap.mpr ⟨_, Std.ExtTreeMap.mem_toList_iff_getElem?_eq_some.mpr hwtx, ?_⟩
    refine List.mem_map.mpr ⟨coin.outpoint.n, List.mem_range.mpr (List.getElem?_eq_some_iff.mp hn).1, ?_⟩
    rw [wallet.keyed _ _ hwtx]
  simpa using (subperm_of_subset h.distinct hsub).length_le

variable {o : COutPoint} {wtx : CWalletTx} {txout : CTxOut} {v : Int} {s : Solution}
  {preset : List CInputCoin}

lemma mem_listSelected : o ∈ coin_control.listSelected ↔ coin_control.isSelected o = true := by
  unfold CCoinControl.listSelected CCoinControl.isSelected
  rw [Std.ExtTreeSet.mem_toList, Std.ExtTreeSet.contains_iff_mem]

lemma listSelected_nodup (coin_control : CCoinControl) : coin_control.listSelected.Nodup :=
  (Std.ExtTreeSet.distinct_toList).imp fun {a b} hne heq => hne (by simp [heq])

lemma hasSelected_of_isSelected (h : coin_control.isSelected o = true) :
    coin_control.hasSelected = true := by
  unfold CCoinControl.isSelected at h
  unfold CCoinControl.hasSelected
  have hmem : o ∈ coin_control.setSelected := Std.ExtTreeSet.contains_iff_mem.mp h
  have hne : coin_control.setSelected.isEmpty = false := by
    rw [← Bool.not_eq_true, Std.ExtTreeSet.isEmpty_iff]
    rintro hempty
    rw [hempty] at hmem
    exact Std.ExtTreeSet.not_mem_empty hmem
  simp [hne]

lemma countedValue_selected (hheld : walletOutput wallet o = some (wtx, txout))
    (hselected : coin_control.isSelected o = true) (hv : valueInNextBlock ctx wtx txout = .ok v) :
    countedValue ctx wallet coin_control o = v := by
  simp [countedValue, hheld, hselected, hv, Except.toOption]

lemma countedValue_unselected (hheld : walletOutput wallet o = some (wtx, txout))
    (hselected : coin_control.isSelected o = false) :
    countedValue ctx wallet coin_control o = txout.nValue := by
  simp [countedValue, hheld, hselected]

structure Valued (ctx : WalletContext) (wallet : CWallet) (coin_control : CCoinControl) (s : Solution) : Prop where
  held : ∀ coin ∈ s.1, ∃ wtx v, walletOutput wallet coin.outpoint = some (wtx, coin.txout) ∧
    coin_control.isSelected coin.outpoint = true ∧ valueInNextBlock ctx wtx coin.txout = .ok v
  value : s.2 = (s.1.map fun coin => countedValue ctx wallet coin_control coin.outpoint).sum

lemma Valued.concat {coin : CInputCoin} (hs : Valued ctx wallet coin_control s)
    (hheld : walletOutput wallet coin.outpoint = some (wtx, coin.txout))
    (hselected : coin_control.isSelected coin.outpoint = true)
    (hv : valueInNextBlock ctx wtx coin.txout = .ok v) :
    Valued ctx wallet coin_control (s.1 ++ [coin], s.2 + v) where
  held c hc := by
    rcases mem_append.mp hc with hc | hc
    · exact hs.held c hc
    · obtain rfl := mem_singleton.mp hc
      exact ⟨wtx, v, hheld, hselected, hv⟩
  value := by
    simp [hs.value, countedValue_selected hheld hselected hv]

lemma Listed.getInputCoin {out : COutput} {coin : CInputCoin}
    (hlisted : Listed ctx wallet coin_control out txout) (hcoin : out.getInputCoin = .ok coin) :
    coin.outpoint = outputKey out ∧ coin.txout = txout ∧
      walletOutput wallet coin.outpoint = some (out.tx, coin.txout) := by
  obtain ⟨hkey, hout⟩ := getInputCoin_eq_ok hcoin
  have heq : coin.txout = txout := Option.some.inj (hout.symm.trans (walletOutput_eq_some.mp hlisted.held).2)
  exact ⟨hkey, heq, by rw [hkey, heq, hlisted.held]⟩

lemma selectListed_spec (hnodup : (outs.map outputKey).Nodup)
    (hlisted : ∀ out ∈ outs, ∃ txout, Listed ctx wallet coin_control out txout)
    (hselected : coin_control.hasSelected = true) (hother : coin_control.fAllowOtherInputs = false)
    (h : outs.foldlM (selectListed ctx) ([], 0) = .ok s) :
    InputCoins outs s.1 ∧ Valued ctx wallet coin_control s := by
  have hstart : InputCoins [] ([] : List CInputCoin) ∧ Valued ctx wallet coin_control ([], 0) := ⟨.nil, by simp, rfl⟩
  refine Traversal.foldlM_invariant
    (I := fun seen (s : Solution) => InputCoins seen s.1 ∧ Valued ctx wallet coin_control s) ?_ hstart h
  rintro seen out rest s s' houts ⟨hcoins, hvalued⟩ hstep
  unfold selectListed at hstep
  split_ifs at hstep with hspendable
  · cases hstep
    exact ⟨hcoins.skip hspendable, hvalued⟩
  obtain ⟨coin, hcoin, hstep⟩ := ok_of_bind hstep
  obtain ⟨v, hv, hstep⟩ := ok_of_bind hstep
  cases hstep
  obtain ⟨txout, hout⟩ := hlisted out (by simp [houts])
  obtain ⟨hkey, heq, hheld⟩ := hout.getInputCoin hcoin
  have hnew : coin.outpoint ∉ s.1.map outpoint := by
    rw [hcoins.map_outpoint, hkey]
    intro hmem
    obtain ⟨out', hout', hsame⟩ := List.mem_map.mp hmem
    rw [houts, map_append, map_cons, nodup_append] at hnodup
    exact hnodup.2.2 _ (List.mem_map.mpr ⟨out', mem_of_mem_filter hout', rfl⟩) _ mem_cons_self hsame
  rw [insertCoin_of_notMem hnew]
  exact ⟨hcoins.concat (by simpa using hspendable) hcoin,
    hvalued.concat hheld (by rw [hkey]; exact hout.selected hselected hother) hv⟩

lemma selectPreset_spec
    (h : coin_control.listSelected.foldlM (wallet.selectPreset ctx) (some ([], 0)) = .ok (some s)) :
    s.1.map outpoint = coin_control.listSelected ∧ Valued ctx wallet coin_control s := by
  have hstart : ∀ s : Solution, some ([], 0) = some s →
      s.1.map outpoint = [] ∧ Valued ctx wallet coin_control s := by
    rintro s ⟨⟩
    exact ⟨rfl, by simp, rfl⟩
  refine Traversal.foldlM_invariant
    (I := fun seen (r : Option Solution) => ∀ s, r = some s →
      s.1.map outpoint = seen ∧ Valued ctx wallet coin_control s) ?_ hstart h s rfl
  intro seen o rest r r' hselected hr hstep s' hs'
  subst hs'
  cases r with
  | none => cases hstep
  | some s =>
    obtain ⟨hseen, hvalued⟩ := hr s rfl
    unfold selectPreset at hstep
    dsimp only at hstep
    cases hwtx : wallet.mapWallet[o.hash]? with
    | none => simp [hwtx] at hstep
    | some wtx =>
      simp only [hwtx] at hstep
      split_ifs at hstep with hindex
      · cases hstep
      obtain ⟨coin, hcoin, hstep⟩ := ok_of_bind hstep
      obtain ⟨v, hv, hstep⟩ := ok_of_bind hstep
      cases hstep
      have hlt : o.n < wtx.tx.vout.length := by omega
      unfold ofTx at hcoin
      simp only [getElem?_eq_getElem hlt, Except.ok.injEq] at hcoin
      have hkey : coin.outpoint = o := by
        rw [← hcoin, wallet.keyed o.hash wtx hwtx]
      have hheld : walletOutput wallet coin.outpoint = some (wtx, coin.txout) := by
        rw [hkey]
        exact walletOutput_eq_some.mpr ⟨hwtx, by rw [← hcoin, getElem?_eq_getElem hlt]⟩
      have hmem : coin_control.isSelected coin.outpoint = true := by
        rw [hkey]
        exact mem_listSelected.mp (by simp [hselected])
      have hnew : coin.outpoint ∉ s.1.map outpoint := by
        rw [hseen, hkey]
        have hnodup := listSelected_nodup coin_control
        rw [hselected, nodup_append] at hnodup
        intro hmem
        exact hnodup.2.2 _ hmem _ mem_cons_self rfl
      rw [insertCoin_of_notMem hnew]
      exact ⟨by rw [map_append, hseen, map_singleton, hkey], hvalued.concat hheld hmem hv⟩

lemma withoutPreset_spec {outs outs' : List COutput} (h : withoutPreset preset outs = .ok outs') :
    outs'.Sublist outs ∧ ∀ out ∈ outs', outputKey out ∉ preset.map outpoint := by
  induction outs generalizing outs' with
  | nil =>
    cases h
    simp
  | cons out outs ih =>
    unfold withoutPreset at h
    obtain ⟨coin, hcoin, h⟩ := ok_of_bind h
    obtain ⟨rest, hrest, h⟩ := ok_of_bind h
    obtain ⟨hsub, hnot⟩ := ih hrest
    have h := Except.ok.inj h
    split_ifs at h with hany
    · subst h
      exact ⟨hsub.cons _, hnot⟩
    subst h
    refine ⟨hsub.cons_cons _, fun out' hout' => ?_⟩
    rcases mem_cons.mp hout' with rfl | hout'
    · intro hmem
      obtain ⟨c, hc, heq⟩ := List.mem_map.mp hmem
      apply hany
      refine any_eq_true.mpr ⟨c, hc, ?_⟩
      simp [heq, (getInputCoin_eq_ok hcoin).1]
    · exact hnot out' hout'

lemma removePreset_spec {outs outs' : List COutput}
    (hpreset : preset.map outpoint = coin_control.listSelected)
    (h : removePreset coin_control preset outs = .ok outs') :
    outs'.Sublist outs ∧ ∀ out ∈ outs', coin_control.isSelected (outputKey out) = false := by
  unfold removePreset at h
  split_ifs at h with hselected
  · obtain ⟨hsub, hnot⟩ := withoutPreset_spec h
    refine ⟨hsub, fun out hout => ?_⟩
    have := hnot out hout
    rw [hpreset, mem_listSelected] at this
    simpa using this
  · cases h
    refine ⟨List.Sublist.refl _, fun out _ => ?_⟩
    by_contra hsel
    exact hselected (hasSelected_of_isSelected (by simpa using hsel))

/-- A coin that the solvers may choose: listed, and not selected by the coin control. -/
structure Automatic (ctx : WalletContext) (wallet : CWallet) (coin_control : CCoinControl)
    (coin : CInputCoin) : Prop where
  held : ∃ wtx, walletOutput wallet coin.outpoint = some (wtx, coin.txout)
  listed : Released ctx.height coin.txout.scriptPubKey ∧ wallet.isSpent ctx coin.outpoint = false
  unselected : coin_control.isSelected coin.outpoint = false

lemma Selected.join {auto : List CInputCoin} (hdistinct : Distinct auto)
    (hauto : ∀ coin ∈ auto, Automatic ctx wallet coin_control coin)
    (hpreset : preset.map outpoint = coin_control.listSelected)
    (hvalued : Valued ctx wallet coin_control (preset, v))
    (hother : coin_control.hasSelected = true → coin_control.fAllowOtherInputs = true) :
    Selected ctx wallet coin_control (auto ++ preset) (coinsValue auto + v) where
  distinct := by
    unfold Distinct
    rw [map_append, nodup_append, hpreset]
    refine ⟨hdistinct, listSelected_nodup coin_control, fun o ho o' ho' heq => ?_⟩
    obtain ⟨coin, hcoin, rfl⟩ := List.mem_map.mp ho
    have hunselected := (hauto coin hcoin).unselected
    rw [heq, mem_listSelected.mp ho'] at hunselected
    cases hunselected
  held coin hcoin := by
    rcases mem_append.mp hcoin with hcoin | hcoin
    · obtain ⟨wtx, hheld⟩ := (hauto coin hcoin).held
      exact ⟨wtx, hheld, fun hsel => absurd hsel (by simp [(hauto coin hcoin).unselected])⟩
    · obtain ⟨wtx, v, hheld, -, hv⟩ := hvalued.held coin hcoin
      exact ⟨wtx, hheld, fun _ => ⟨v, hv⟩⟩
  listed coin hcoin hnot := by
    rcases mem_append.mp hcoin with hcoin | hcoin
    · exact (hauto coin hcoin).listed
    · obtain ⟨-, -, -, hsel, -⟩ := hvalued.held coin hcoin
      have hallowed := hother (hasSelected_of_isSelected hsel)
      rw [hnot hsel] at hallowed
      cases hallowed
  preset _ o ho := by
    rw [map_append, hpreset]
    exact mem_append_right _ (mem_listSelected.mpr ho)
  value := by
    have hnominal : auto.map (fun coin => countedValue ctx wallet coin_control coin.outpoint) =
        auto.map fun coin => coin.txout.nValue := by
      refine map_congr_left fun coin hcoin => ?_
      obtain ⟨wtx, hheld⟩ := (hauto coin hcoin).held
      exact countedValue_unselected hheld (hauto coin hcoin).unselected
    have hv := hvalued.value
    dsimp only at hv
    rw [map_append, sum_append, hnominal, ← hv, coinsValue]

variable {rand : Randomness} {place : List Nat} {fees : FeeContext} {params : CoinSelectionParams} {outs : List COutput}
  {target : Int} {r : SelectResult}

lemma automatic_groups {vCoins : List COutput} {single_coin : Bool} {groups : List OutputGroup}
    (hnodup : (outs.map outputKey).Nodup) (hlisted : ∀ out ∈ outs, ∃ txout, Listed ctx wallet coin_control out txout)
    (hsub : vCoins.Subperm outs) (hnot : ∀ out ∈ vCoins, coin_control.isSelected (outputKey out) = false)
    (h : groupOutputs E ctx vCoins single_coin = .ok groups) :
    Poolable groups ∧ ∀ coin ∈ groupCoins groups, Automatic ctx wallet coin_control coin := by
  obtain ⟨⟨coins, hcoins, hperm⟩, hcounted⟩ := groupOutputs_spec h
  have hkeys : (vCoins.map outputKey).Nodup := by
    obtain ⟨l, hl, hsublist⟩ := hsub
    exact ((hl.map outputKey).nodup_iff).mp ((hsublist.map outputKey).nodup hnodup)
  have hdistinct : Distinct coins := by
    unfold Distinct
    rw [hcoins.map_outpoint]
    exact (filter_sublist.map outputKey).nodup hkeys
  have hfrom : ∀ coin ∈ groupCoins groups, 0 ≤ coin.txout.nValue ∧ Automatic ctx wallet coin_control coin := by
    intro coin hcoin
    obtain ⟨out, hout, heq⟩ := hcoins.exists_output (hperm.mem_iff.mp hcoin)
    obtain ⟨txout, hl⟩ := hlisted out (hsub.subset hout)
    obtain ⟨hkey, rfl, hheld⟩ := hl.getInputCoin heq
    exact ⟨Int.le_of_lt hl.positive, ⟨_, hheld⟩, ⟨hl.released, hkey ▸ hl.unspent⟩, by rw [hkey, hnot out hout]⟩
  exact ⟨⟨hdistinct.subperm hperm.subperm, hcounted, fun coin hcoin => (hfrom coin hcoin).1⟩,
    fun coin hcoin => (hfrom coin hcoin).2⟩

lemma shuffleOutputs_perm (rand : Randomness) (place : List Nat) (coin_control : CCoinControl) (vCoins : List COutput) :
    (shuffleOutputs rand place coin_control vCoins).Perm vCoins := by
  unfold shuffleOutputs
  split_ifs
  · exact rand.shuffle_perm place vCoins
  · exact List.Perm.refl vCoins

section

variable (hnodup : (outs.map outputKey).Nodup)
  (hlisted : ∀ out ∈ outs, ∃ txout, Listed ctx wallet coin_control out txout)
include hnodup hlisted

lemma selectWithPreset_spec
    (hother : coin_control.hasSelected = true → coin_control.fAllowOtherInputs = true)
    (h : wallet.selectWithPreset E ctx rand place fees params outs target coin_control = .ok r)
    (hr : r.success = true) :
    Selected ctx wallet coin_control r.setCoinsRet r.nValueRet ∧ target ≤ r.nValueRet := by
  unfold selectWithPreset at h
  obtain ⟨preset?, hpresetFold, h⟩ := ok_of_bind h
  cases preset? with
  | none =>
    cases h
    cases hr
  | some s =>
    obtain ⟨preset, v⟩ := s
    obtain ⟨hpreset, hvalued⟩ := selectPreset_spec hpresetFold
    obtain ⟨left, hleft, h⟩ := ok_of_bind h
    obtain ⟨hleftSub, hleftNot⟩ := removePreset_spec hpreset hleft
    obtain ⟨groups, hgroups, h⟩ := ok_of_bind h
    have hperm := shuffleOutputs_perm rand place coin_control left
    obtain ⟨hpool, hauto⟩ := automatic_groups hnodup hlisted
      (hperm.subperm.trans hleftSub.subperm) (fun out hout => hleftNot out (hperm.mem_iff.mp hout)) hgroups
    split_ifs at h with htarget
    · cases h
      have hjoin := @Selected.join ctx wallet coin_control v preset [] nodup_nil (by simp) hpreset hvalued hother
      simp only [nil_append, coinsValue, map_nil, sum_nil, zero_add] at hjoin
      exact ⟨hjoin, htarget⟩
    obtain ⟨solution?, hsolution, h⟩ := ok_of_bind h
    cases solution? with
    | none =>
      cases h
      cases hr
    | some solution =>
      cases h
      have hsolves := firstSelection_solves hpool hsolution
      have hjoin := Selected.join (hpool.distinct.subperm hsolves.subperm)
        (fun coin hcoin => hauto coin (hsolves.subperm.subset hcoin)) hpreset hvalued hother
      rw [← hsolves.value] at hjoin
      have hreached := hsolves.reached
      dsimp only
      rw [insertCoins_of_distinct hjoin.distinct]
      exact ⟨hjoin, by omega⟩

lemma selectCoins_spec
    (h : wallet.selectCoins E ctx rand place fees params outs target coin_control = .ok r) (hr : r.success = true) :
    Selected ctx wallet coin_control r.setCoinsRet r.nValueRet ∧ target ≤ r.nValueRet := by
  unfold selectCoins at h
  split_ifs at h with hcontrol
  · obtain ⟨s, hfold, h⟩ := ok_of_bind h
    cases h
    have hother : coin_control.fAllowOtherInputs = false := by simpa using hcontrol.2
    obtain ⟨hcoins, hvalued⟩ := selectListed_spec hnodup hlisted hcontrol.1 hother hfold
    refine ⟨⟨?_, ?_, ?_, ?_, hvalued.value⟩, of_decide_eq_true hr⟩
    · unfold Distinct
      rw [hcoins.map_outpoint]
      exact (filter_sublist.map outputKey).nodup hnodup
    · intro coin hcoin
      obtain ⟨wtx, v, hheld, -, hv⟩ := hvalued.held coin hcoin
      exact ⟨wtx, hheld, fun _ => ⟨v, hv⟩⟩
    · intro coin hcoin _
      obtain ⟨out, hout, heq⟩ := hcoins.exists_output hcoin
      obtain ⟨txout, hl⟩ := hlisted out hout
      obtain ⟨hkey, rfl, -⟩ := hl.getInputCoin heq
      exact ⟨hl.released, hkey ▸ hl.unspent⟩
    · intro hallowed
      rw [hother] at hallowed
      cases hallowed
  · refine selectWithPreset_spec hnodup hlisted (fun hsel => ?_) h hr
    by_contra hother
    exact hcontrol ⟨hsel, by simpa using hother⟩

end

end Selecting

end Qstees.Proofs
