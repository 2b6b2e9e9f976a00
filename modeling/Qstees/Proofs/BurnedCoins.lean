import Qstees.Proofs.BlockJournal
import Qstees.Proofs.ScriptTemplates

/-!
# Burned coins

A script of type `TX_BURN_DATA` pushes an identifier and returns, so no spend of it verifies.
-/

namespace Qstees.Proofs

open List

def IsBurn (script : CScript) : Prop := ∃ solved, solver script = .ok solved ∧ solved.typeRet = .burnData

lemma matchOpcode_smallData (opcode1 : Opcode) (vch1 : List UInt8) :
    matchOpcode opcode1 vch1 OP_SMALLDATA = .ok (if vch1.length > nMaxDatacarrierBytes then none else some [vch1]) :=
  rfl

variable {script : CScript} {block : CBlock} {nHeight : Int} {view' : CCoinsViewCache}
  {st st' : ConnectState} {tx : CTransaction} {ss : List Int} {coin : Coin} {vout : List CTxOut}
  {n : Nat}

lemma getScriptOp_length {opcode : Opcode} {vch pc : List UInt8}
    (h : getScriptOp script = some (opcode, vch, pc)) :
    pc.length + vch.length + 1 ≤ script.length ∧ script.length ≤ pc.length + vch.length + 5 := by
  cases script with
  | nil => cases h
  | cons first tail =>
    unfold getScriptOp takeOperand at h
    dsimp only at h
    split_ifs at h
    all_goals
      cases h
      simp only [length_cons, length_take, length_drop, length_nil]
      omega

lemma getScriptOp_operand {opcode : Opcode} {vch pc : List UInt8}
    (h : getScriptOp script = some (opcode, vch, pc)) (hvch : vch ≠ []) :
    opcode ≤ OP_PUSHDATA4 := by
  cases script with
  | nil => cases h
  | cons first tail =>
    obtain rfl := getScriptOp_head h
    unfold getScriptOp at h
    dsimp only at h
    split_ifs at h with hdirect hone hone' htwo htwo' hfour
    all_goals
      first
      | exact UInt8.le_trans (UInt8.le_of_lt hdirect) (by decide)
      | (subst_vars; decide)
      | (cases h; exact absurd rfl hvch)

lemma IsBurn.shape (h : IsBurn script) :
    ∃ opcode id rest, getScriptOp script = some (opcode, id, OP_RETURN :: rest) ∧ id.length = 20 ∧
      rest.length ≤ nMaxDatacarrierBytes + 5 := by
  obtain ⟨solved, hsolved, htype⟩ := h
  obtain ⟨template, hmem, hmatch⟩ := solver_template hsolved htype (by decide)
  have hcases : template = [OP_PUBKEYHASH, OP_RETURN, OP_SMALLDATA] ∨ template = [OP_PUBKEYHASH, OP_RETURN] := by
    simpa [mTemplates] using hmem
  rcases hcases with rfl | rfl
  · simp (disch := decide) only [matchTemplate_pubKeyHash, matchTemplate_fixed] at hmatch
    obtain ⟨opcode, id, _, hpush, hlen, rest, rfl, hmatch⟩ := hmatch
    obtain ⟨opcode', data, pc, new, hdata, hsmall, hend⟩ := (matchTemplate_cons (by decide)).mp hmatch
    obtain ⟨rfl, -⟩ := matchTemplate_nil.mp hend
    have hle : ¬data.length > nMaxDatacarrierBytes := by
      intro hlong
      rw [matchOpcode_smallData, if_pos hlong] at hsmall
      cases hsmall
    have hbytes := getScriptOp_length hdata
    rw [length_nil] at hbytes
    exact ⟨opcode, id, rest, hpush, hlen, by omega⟩
  · simp (disch := decide) only [matchTemplate_pubKeyHash, matchTemplate_fixed, matchTemplate_nil] at hmatch
    obtain ⟨opcode, id, _, hpush, hlen, _, rfl, rfl, -⟩ := hmatch
    exact ⟨opcode, id, [], hpush, hlen, Nat.zero_le _⟩

lemma IsBurn.spendable (h : IsBurn script) : isUnspendable script = false := by
  obtain ⟨opcode, id, rest, hpush, hlen, hrest⟩ := h.shape
  have hlength := getScriptOp_length hpush
  have hdata : nMaxDatacarrierBytes = 103 := rfl
  have hmax : MAX_SCRIPT_SIZE = 10000 := rfl
  rw [length_cons] at hlength
  rw [isUnspendable, Bool.or_eq_false_iff]
  refine ⟨?_, decide_eq_false (by omega)⟩
  cases script with
  | nil => rfl
  | cons first tail =>
    obtain rfl := getScriptOp_head hpush
    have hop := getScriptOp_operand hpush (ne_nil_of_length_pos (by omega))
    rw [head?_cons, beq_eq_false_iff_ne]
    intro heq
    rw [Option.some.inj heq] at hop
    exact absurd hop (by decide)

lemma IsBurn.evalScript_ne_ok (h : IsBurn script) (C : EvalContext)
    (stack stack' : List (List UInt8)) : evalScript C stack script ≠ .ok stack' := by
  obtain ⟨opcode, id, rest, hpush, hlen, -⟩ := h.shape
  intro heval
  unfold evalScript at heval
  obtain ⟨⟨⟩, -, heval⟩ := ok_of_bind heval
  obtain ⟨st', hloop, -⟩ := ok_of_bind heval
  have hnonempty : script ≠ [] := by
    rintro rfl
    cases hpush
  have hlong := (getScriptOp_length hpush).1
  obtain ⟨fuel, hfuel⟩ : ∃ fuel, script.length = fuel + 1 + 1 := ⟨script.length - 2, by omega⟩
  rw [hfuel] at hloop
  obtain ⟨st₁, hstep₁, hloop₁⟩ := evalLoop_succ hnonempty hloop
  obtain ⟨nOpCount, hrun₁⟩ := evalStep_exec hpush hstep₁
  have hop := getScriptOp_operand hpush (ne_nil_of_length_pos (by omega))
  simp only [execInstruction, all_nil, hop, decide_true, Bool.and_true, if_true] at hrun₁
  split_ifs at hrun₁
  obtain rfl := Except.ok.inj hrun₁
  obtain ⟨st₂, hstep₂, -⟩ := evalLoop_succ (cons_ne_nil _ _) hloop₁
  have hreturn : getScriptOp (OP_RETURN :: rest) = some (OP_RETURN, [], rest) := rfl
  obtain ⟨nOpCount', hrun₂⟩ := evalStep_exec hreturn hstep₂
  cases hrun₂

lemma IsBurn.verifyScript_error (h : IsBurn script) (C : EvalContext) (scriptSig : CScript)
    (witness : List (List UInt8)) : verifyScript C scriptSig script witness ≠ .ok () := by
  intro hverify
  unfold verifyScript at hverify
  obtain ⟨⟨⟩, -, hverify⟩ := ok_of_bind hverify
  obtain ⟨stackCopy, -, hverify⟩ := ok_of_bind hverify
  obtain ⟨stack, heval, -⟩ := ok_of_bind hverify
  exact h.evalScript_ne_ok _ _ _ heval

/-- The coin at an outpoint is as before, and it is still cached if it was. -/
structure KeepsCoin (o : COutPoint) (view view' : CCoinsViewCache) : Prop where
  coin : coinAt view' o = coinAt view o
  cached : view.cacheCoins[o]? ≠ none → view'.cacheCoins[o]? ≠ none

namespace KeepsCoin

variable {o : COutPoint} {view view₁ view₂ : CCoinsViewCache}

lemma refl (o : COutPoint) (view : CCoinsViewCache) : KeepsCoin o view view := ⟨rfl, id⟩

lemma trans (h₁ : KeepsCoin o view view₁) (h₂ : KeepsCoin o view₁ view₂) : KeepsCoin o view view₂ :=
  ⟨h₂.coin.trans h₁.coin, fun h => h₂.cached (h₁.cached h)⟩

lemma of_eq (hbase : view₁.base = view.base) (hcache : view₁.cacheCoins[o]? = view.cacheCoins[o]?) :
    KeepsCoin o view view₁ :=
  ⟨coinAt_congr hbase hcache, fun h => hcache ▸ h⟩

lemma fetchCoin (o : COutPoint) (view : CCoinsViewCache) (o' : COutPoint) : KeepsCoin o view (view.fetchCoin o') :=
  ⟨coinAt_fetchCoin view o' o, fetchCoin_cached⟩

lemma foldl_fetchCoin (o : COutPoint) (view : CCoinsViewCache) (os : List COutPoint) :
    KeepsCoin o view (os.foldl CCoinsViewCache.fetchCoin view) :=
  List.foldlRecOn os _ (refl o view) fun v hv o' _ => hv.trans (fetchCoin o v o')

variable {o' : COutPoint} {res : DisconnectResult}

lemma spendCoin (h : o' ≠ o) (view : CCoinsViewCache) : KeepsCoin o view (view.spendCoin o').2.2 :=
  of_eq (spendCoin_base view o') (spendCoin_ne view h)

lemma addCoin (h : o' ≠ o) {coin : Coin} {overwrite : Bool}
    (hadd : view.addCoin o' coin overwrite = .ok view₁) : KeepsCoin o view view₁ := by
  cases hs : isUnspendable coin.out.scriptPubKey with
  | true =>
    rw [addCoin_unspendable hs hadd]
    exact refl o view
  | false =>
    obtain ⟨-, -, rfl⟩ := addCoin_eq_ok hs hadd
    exact of_eq rfl (getElem?_insert_ne _ _ h)

lemma of_addCoin_cached {coin : Coin} (hcoin : coinAt view o ≠ none) (hcached : view.cacheCoins[o]? ≠ none)
    (hadd : view.addCoin o' coin false = .ok view₁) :
    KeepsCoin o view view₁ := by
  by_cases ho : o' = o
  · subst ho
    cases hs : isUnspendable coin.out.scriptPubKey with
    | true =>
      rw [addCoin_unspendable hs hadd]
      exact refl o' view
    | false =>
      obtain ⟨e, he⟩ := Option.ne_none_iff_exists'.mp hcached
      have hspent := (addCoin_eq_ok hs hadd).2.1 rfl
      rw [entryAt, he, Option.getD_some] at hspent
      rw [coinAt_of_cached he, visible, if_pos hspent] at hcoin
      exact absurd rfl hcoin
  · exact addCoin ho hadd

lemma accessByTxidFrom (o : COutPoint) (txid : UInt256) (fuel n : Nat) (view : CCoinsViewCache) :
    KeepsCoin o view (accessByTxidFrom txid fuel n view).2 := by
  induction fuel generalizing n view with
  | zero => exact refl o view
  | succ fuel ih =>
    unfold Qstees.accessByTxidFrom
    dsimp only
    split_ifs
    · exact fetchCoin o view _
    · exact (fetchCoin o view _).trans (ih _ _)

lemma applyTxInUndo {undo : Coin} (h : o' ≠ o)
    (happly : applyTxInUndo undo view o' = .ok (res, view₁)) : KeepsCoin o view view₁ := by
  have hrecover : KeepsCoin o view (recoverMetadata undo (view.fetchCoin o') o').2 := by
    refine (fetchCoin o view o').trans ?_
    unfold recoverMetadata accessByTxid
    split_ifs
    · have haccess := accessByTxidFrom o o'.hash MAX_OUTPUTS_PER_BLOCK 0 (view.fetchCoin o')
      dsimp only
      split_ifs
      · exact haccess
      · exact haccess
    · exact refl o _
  unfold Qstees.applyTxInUndo at happly
  dsimp only at happly
  revert hrecover happly
  cases recoverMetadata undo (view.fetchCoin o') o' with
  | mk found view₂ =>
    intro happly hrecover
    cases found with
    | none =>
      cases happly
      exact hrecover
    | some undo' =>
      obtain ⟨view₃, hadd, happly⟩ := ok_of_bind happly
      cases happly
      exact hrecover.trans (addCoin h hadd)

lemma undoLoop {α : Type}
    {f : α → CCoinsViewCache → Except String (DisconnectResult × CCoinsViewCache)} {as : List α}
    (hf : ∀ a ∈ as, ∀ view view₁ res, f a view = .ok (res, view₁) → KeepsCoin o view view₁)
    (h : undoLoop f as view = .ok (res, view₁)) : KeepsCoin o view view₁ := by
  induction as generalizing view res with
  | nil =>
    obtain ⟨-, rfl⟩ := Prod.mk.inj (Except.ok.inj h)
    exact refl o view
  | cons a as ih =>
    unfold Qstees.undoLoop at h
    obtain ⟨⟨res₁, view₂⟩, hfirst, h⟩ := ok_of_bind h
    have hkeep := hf a mem_cons_self view view₂ res₁ hfirst
    dsimp only at h
    by_cases hfailed : res₁ = .failed
    · rw [if_pos hfailed] at h
      cases h
      exact hkeep
    · rw [if_neg hfailed] at h
      obtain ⟨⟨res₂, view₃⟩, hrest, h⟩ := ok_of_bind h
      cases h
      exact hkeep.trans (ih (fun b hb => hf b (mem_cons_of_mem _ hb)) hrest)

lemma removeOutputs {tx : CTransaction} (nHeight : Int) {vout : List CTxOut} {n : Nat}
    (h : ∀ k, n ≤ k → k < n + vout.length → (⟨tx.hash, k⟩ : COutPoint) ≠ o) (view : CCoinsViewCache) :
    KeepsCoin o view (removeOutputs tx nHeight n vout view).2 := by
  induction vout generalizing n view with
  | nil => exact refl o view
  | cons out vout ih =>
    have hrest : ∀ view, KeepsCoin o view (Qstees.removeOutputs tx nHeight (n + 1) vout view).2 := fun view =>
      ih (fun k hlo hhi => h k (by omega) (by rw [length_cons]; omega)) view
    unfold Qstees.removeOutputs
    split_ifs
    · exact hrest view
    · exact (spendCoin (h n le_rfl (by rw [length_cons]; omega)) view).trans (hrest _)

lemma disconnectTx {nHeight : Int} {tx : CTransaction} {txundo : Option (List Coin)}
    (houts : ∀ k < tx.vout.length, (⟨tx.hash, k⟩ : COutPoint) ≠ o)
    (hins : txundo ≠ none → ∀ txin ∈ tx.vin, txin.prevout ≠ o)
    (h : disconnectTx nHeight tx txundo view = .ok (res, view₁)) : KeepsCoin o view view₁ := by
  have hremove : KeepsCoin o view (Qstees.removeOutputs tx nHeight 0 tx.vout view).2 :=
    removeOutputs nHeight (fun k _ hk => houts k (by omega)) view
  unfold Qstees.disconnectTx at h
  dsimp only at h
  cases txundo with
  | none =>
    cases h
    exact hremove
  | some vprevout =>
    dsimp only at h
    by_cases hlen : vprevout.length ≠ tx.vin.length
    · rw [if_pos hlen] at h
      cases h
      exact hremove
    · rw [if_neg hlen] at h
      obtain ⟨⟨res', view'⟩, hrestore, h⟩ := ok_of_bind h
      cases h
      refine hremove.trans (undoLoop ?_ hrestore)
      intro p hp view view₁ res happly
      have hmem : p.1 ∈ tx.vin := (of_mem_zip (mem_reverse.mp hp)).1
      exact applyTxInUndo (hins (Option.some_ne_none _) p.1 hmem) happly

end KeepsCoin

variable {view : CCoinsViewCache}

lemma KeepsCoin.disconnectBlock {o : COutPoint} {vtxundo : List (List Coin)}
    {res : DisconnectResult} (houts : o ∉ block.outpoints)
    (hins : ∀ tx ∈ block.vtx.tail, ∀ txin ∈ tx.vin, txin.prevout ≠ o)
    (h : disconnectBlock block vtxundo nHeight view = .ok (res, view')) :
    KeepsCoin o view view' := by
  unfold Qstees.disconnectBlock at h
  split_ifs at h
  · obtain ⟨-, rfl⟩ := Prod.mk.inj (Except.ok.inj h)
    exact KeepsCoin.refl o view
  refine KeepsCoin.undoLoop ?_ h
  rintro ⟨tx, txundo⟩ hp view view₁ res hround
  rw [mem_reverse] at hp
  have htx := (of_mem_zip hp).1
  apply KeepsCoin.disconnectTx _ _ hround
  · rintro k hk rfl
    exact houts (mem_outpoints htx hk)
  intro hsome
  -- Only the first transaction is paired with no undo data.
  cases hvtx : block.vtx with
  | nil => rw [hvtx] at htx; cases htx
  | cons coinbase vtx =>
    rw [hvtx, zip_cons_cons, mem_cons] at hp
    rcases hp with heq | hrest
    · exact absurd (Prod.mk.inj heq).2 hsome
    · exact hins tx (by rw [hvtx]; exact (of_mem_zip hrest).1)

/-- The script checks of a block, made while its transactions are read or by the queue at the end: every input of a
transaction that passes them verified against the script of the coin it spends. -/
def ScriptsChecked (E : ConnectEnv) : Prop :=
  ∀ tx view, E.checkInputs tx view = true → E.controlWait = true → ∀ txin ∈ tx.vin,
    ∃ C, verifyScript C txin.scriptSig (view.accessCoin txin.prevout).out.scriptPubKey txin.scriptWitness = .ok ()

variable {E : ConnectEnv} {o : COutPoint}

lemma connectTx_checkInputs (hcb : tx.isCoinBase = false)
    (h : connectTx E nHeight st tx = ⟨.ok st', ss⟩) :
    E.checkInputs tx (st.view.fetchInputs tx) = true := by
  unfold connectTx at h
  simp only [Tally.bind_eq_ok, Tally.check_eq_ok, hcb, Bool.false_or] at h
  obtain ⟨st₁, s, _, hspend, ⟨_, _, _, ⟨-, rfl⟩, ⟨_, _, _, ⟨hcheck, rfl⟩, -⟩, -⟩, -⟩ := h
  obtain ⟨txfee, s', -, -, -, rfl⟩ := checkSpend_ok hcb hspend
  exact hcheck

lemma prevout_ne_of_burned (hchecked : ScriptsChecked E) (hwait : E.controlWait = true)
    (hcoin : coinAt st.view o = some coin) (hburn : IsBurn coin.out.scriptPubKey)
    (h : connectTx E nHeight st tx = ⟨.ok st', ss⟩) :
    ∀ txin ∈ tx.spentInputs, txin.prevout ≠ o := by
  intro txin htxin heq
  unfold CTransaction.spentInputs at htxin
  split_ifs at htxin with hcb
  · cases htxin
  · obtain ⟨C, hverify⟩ := hchecked tx _ (connectTx_checkInputs (by simpa using hcb) h) hwait txin htxin
    have hfetched : coinAt (st.view.fetchInputs tx) o = some coin := by
      rw [fetchInputs_eq, (KeepsCoin.foldl_fetchCoin o st.view _).coin, hcoin]
    rw [heq, (coinAt_unspent hfetched).2] at hverify
    exact hburn.verifyScript_error _ _ _ hverify

lemma spendInputs_keeps {vin : List CTxIn} (h : ∀ txin ∈ vin, txin.prevout ≠ o)
    {vprevout : List Coin}
    (hspend : spendInputs vin view = .ok (vprevout, view')) : KeepsCoin o view view' := by
  induction vin generalizing view vprevout with
  | nil =>
    obtain ⟨-, rfl⟩ := Prod.mk.inj (Except.ok.inj hspend)
    exact KeepsCoin.refl o view
  | cons txin vin ih =>
    have hfirst := KeepsCoin.spendCoin (h txin mem_cons_self) view
    unfold spendInputs at hspend
    revert hfirst hspend
    obtain ⟨found, coin, view₁⟩ := view.spendCoin txin.prevout
    intro hfirst hspend
    cases found with
    | false => cases hspend
    | true =>
      obtain ⟨⟨vprevout', view₂⟩, hrest, hspend⟩ := ok_of_bind hspend
      obtain ⟨-, rfl⟩ := Prod.mk.inj (Except.ok.inj hspend)
      exact hfirst.trans (ih (fun t ht => h t (mem_cons_of_mem _ ht)) hrest)

/-- A transaction adds its outputs elsewhere, or where a cached coin stops it. -/
def AddsElsewhere (o : COutPoint) (view : CCoinsViewCache) (tx : CTransaction) : Prop :=
  (∀ k < tx.vout.length, (⟨tx.hash, k⟩ : COutPoint) ≠ o) ∨ (tx.isCoinBase = false ∧ view.cacheCoins[o]? ≠ none)

lemma addCoinsFrom_keeps
    (h : (∀ k, n ≤ k → k < n + vout.length → (⟨tx.hash, k⟩ : COutPoint) ≠ o) ∨
      (tx.isCoinBase = false ∧ coinAt view o ≠ none ∧ view.cacheCoins[o]? ≠ none))
    (hadd : addCoinsFrom tx nHeight n vout view = .ok view') : KeepsCoin o view view' := by
  induction vout generalizing n view with
  | nil =>
    obtain rfl := Except.ok.inj hadd
    exact KeepsCoin.refl o view
  | cons out vout ih =>
    obtain ⟨view₁, hfirst, hrest⟩ := ok_of_bind hadd
    rw [length_cons] at h
    rcases h with hne | ⟨hcb, hcoin, hcached⟩
    · exact (KeepsCoin.addCoin (hne n le_rfl (by omega)) hfirst).trans
        (ih (.inl fun k hlo hhi => hne k (by omega) (by omega)) hrest)
    · rw [hcb] at hfirst
      have hkeep := KeepsCoin.of_addCoin_cached hcoin hcached hfirst
      exact hkeep.trans (ih (.inr ⟨hcb, hkeep.coin ▸ hcoin, hkeep.cached hcached⟩) hrest)

lemma connectTx_keeps (hchecked : ScriptsChecked E) (hwait : E.controlWait = true)
    (hcoin : coinAt st.view o = some coin) (hburn : IsBurn coin.out.scriptPubKey)
    (hadds : AddsElsewhere o st.view tx) (h : connectTx E nHeight st tx = ⟨.ok st', ss⟩) :
    KeepsCoin o st.view st'.view := by
  have hspent := prevout_ne_of_burned hchecked hwait hcoin hburn h
  obtain ⟨st₁, vprevout, hspend, hupdate, -, -, -⟩ := connectTx_ok h
  have hfetch : KeepsCoin o st.view st₁.view := by
    cases hcb : tx.isCoinBase with
    | true =>
      rw [checkSpend_coinbase hcb] at hspend
      obtain ⟨rfl, -⟩ := Tally.pure_eq_ok.mp hspend
      exact KeepsCoin.refl o _
    | false =>
      obtain ⟨txfee, s, -, -, -, rfl⟩ := checkSpend_ok hcb hspend
      dsimp only
      rw [fetchInputs_eq]
      exact KeepsCoin.foldl_fetchCoin o _ _
  obtain ⟨⟨vprevout', view₁⟩, hinputs, hupdate⟩ := ok_of_bind hupdate
  obtain ⟨view₂, hadd, hupdate⟩ := ok_of_bind hupdate
  obtain ⟨-, rfl⟩ := Prod.mk.inj (Except.ok.inj hupdate)
  have hkeep := hfetch.trans (spendInputs_keeps hspent hinputs)
  refine hkeep.trans (addCoinsFrom_keeps (hadds.imp (fun hne k _ hk => hne k (by omega)) fun hcached => ?_) hadd)
  exact ⟨hcached.1, by simp [hkeep.coin, hcoin], hkeep.cached hcached.2⟩

lemma fold_connectTx_keeps (hchecked : ScriptsChecked E) (hwait : E.controlWait = true)
    {vtx : List CTransaction} (h : Tally.fold (connectTx E nHeight) st vtx = ⟨.ok st', ss⟩)
    (hcoin : coinAt st.view o = some coin) (hburn : IsBurn coin.out.scriptPubKey)
    (hadds : ∀ tx ∈ vtx, AddsElsewhere o st.view tx) :
    KeepsCoin o st.view st'.view ∧ ∀ tx ∈ vtx, ∀ txin ∈ tx.spentInputs, txin.prevout ≠ o := by
  induction vtx generalizing st ss with
  | nil =>
    obtain ⟨rfl, -⟩ := Tally.pure_eq_ok.mp h
    exact ⟨KeepsCoin.refl o _, by simp⟩
  | cons tx vtx ih =>
    obtain ⟨st₁, s₁, s₂, hstep, hrest, -⟩ := Tally.bind_eq_ok.mp h
    have hkeep := connectTx_keeps hchecked hwait hcoin hburn (hadds tx mem_cons_self) hstep
    have hadds₁ : ∀ t ∈ vtx, AddsElsewhere o st₁.view t := fun t ht =>
      (hadds t (mem_cons_of_mem _ ht)).imp_right (fun hc => ⟨hc.1, hkeep.cached hc.2⟩)
    obtain ⟨hkeeps, hspent⟩ := ih hrest (hkeep.coin.trans hcoin) hadds₁
    refine ⟨hkeep.trans hkeeps, ?_⟩
    intro t ht
    rcases mem_cons.mp ht with rfl | ht
    · exact prevout_ne_of_burned hchecked hwait hcoin hburn hstep
    · exact hspent t ht

lemma addCoinsFrom_adds {k : Nat} {out : CTxOut} (hout : vout[k]? = some out)
    (hs : isUnspendable out.scriptPubKey = false)
    (hadd : addCoinsFrom tx nHeight n vout view = .ok view') :
    coinAt view' ⟨tx.hash, n + k⟩ = some (.ofOut out nHeight tx.isCoinBase) ∧
      view'.cacheCoins[(⟨tx.hash, n + k⟩ : COutPoint)]? ≠ none := by
  induction vout generalizing n k view with
  | nil => cases hout
  | cons first vout ih =>
    obtain ⟨view₁, hfirst, hrest⟩ := ok_of_bind hadd
    cases k with
    | succ k =>
      rw [getElem?_cons_succ] at hout
      rw [show n + (k + 1) = n + 1 + k by omega]
      exact ih hout hrest
    | zero =>
      obtain rfl := Option.some.inj hout
      -- The later outputs have other indices.
      have hkeep : KeepsCoin ⟨tx.hash, n⟩ view₁ view' := addCoinsFrom_keeps (.inl fun j hlo _ => by
        intro heq
        have hn := congrArg COutPoint.n heq
        dsimp only at hn
        omega) hrest
      obtain ⟨hunspent, -, rfl⟩ := addCoin_eq_ok hs hfirst
      refine ⟨?_, hkeep.cached ?_⟩
      · rw [Nat.add_zero, hkeep.coin, coinAt_insert, Function.update_self, visible_of_unspent hunspent]
      · simp [setEntry]

lemma connectTxs_burns (hchecked : ScriptsChecked E) (hwait : E.controlWait = true)
    (hok : BlockOk block) (htx : tx ∈ block.vtx) {out : CTxOut}
    (hout : tx.vout[n]? = some out) (hburn : IsBurn out.scriptPubKey)
    (h : connectTxs E nHeight view block.vtx = ⟨.ok st, ss⟩) :
    coinAt st.view ⟨tx.hash, n⟩ = some (.ofOut out nHeight tx.isCoinBase) := by
  obtain ⟨before, after, hsplit⟩ := append_of_mem htx
  obtain ⟨coinbase, vtx, hvtx, -, hrest⟩ := hok.coinbase_first
  -- Only the first transaction of a block is a coinbase.
  have hafter : ∀ t ∈ after, t.isCoinBase = false := by
    intro t ht
    apply hrest
    rw [hsplit] at hvtx
    cases before with
    | nil =>
      obtain ⟨-, rfl⟩ := List.cons.inj hvtx
      exact ht
    | cons first before =>
      obtain ⟨-, rfl⟩ := List.cons.inj hvtx
      simp [ht]
  unfold connectTxs at h
  rw [hsplit] at h
  obtain ⟨st₀, s₀, s₁, -, h⟩ := Tally.fold_append h
  obtain ⟨st₁, s₂, s₃, hround, hloop, -⟩ := Tally.bind_eq_ok.mp h
  obtain ⟨st', vprevout, -, hupdate, -⟩ := connectTx_ok hround
  obtain ⟨⟨vprevout', view₁⟩, -, hupdate⟩ := ok_of_bind hupdate
  obtain ⟨view₂, hadd, hupdate⟩ := ok_of_bind hupdate
  obtain ⟨-, rfl⟩ := Prod.mk.inj (Except.ok.inj hupdate)
  obtain ⟨hcoin, hcached⟩ := addCoinsFrom_adds hout hburn.spendable hadd
  rw [Nat.zero_add] at hcoin hcached
  obtain ⟨hkeep, -⟩ := fold_connectTx_keeps hchecked hwait hloop hcoin hburn (fun t ht => .inr ⟨hafter t ht, hcached⟩)
  exact hkeep.coin.trans hcoin

lemma connectChecked_txs {enforce : Bool}
    (h : connectChecked E block nHeight enforce false view = ⟨.ok st, ss⟩) :
    ∃ view₁ s₁ s₂, applyBIP30 block nHeight enforce view = ⟨.ok view₁, s₁⟩ ∧
      connectTxs E nHeight view₁ block.vtx = ⟨.ok st, s₂⟩ ∧ E.controlWait = true := by
  obtain ⟨view₁, s₁, _, hbip30, hbody, -⟩ := Tally.bind_eq_ok.mp h
  obtain ⟨st', s₂, _, hloop, hend, -⟩ := Tally.bind_eq_ok.mp hbody
  cases hvtx : block.vtx with
  | nil =>
    rw [hvtx] at hend
    exact absurd hend Tally.fail_ne_ok
  | cons coinbase vtx =>
    rw [hvtx] at hend
    simp only [Tally.bind_eq_ok, Tally.check_eq_ok, Tally.pure_eq_ok] at hend
    obtain ⟨_, _, _, -, ⟨_, _, _, ⟨hwait, -⟩, ⟨_, _, _, -, ⟨rfl, -⟩, -⟩, -⟩, -⟩ := hend
    exact ⟨view₁, s₁, s₂, hbip30, hvtx ▸ hloop, hwait⟩

/-- A block above the one that burned, with what disconnecting it reads. -/
structure LaterBlock where
  block : CBlock
  vtxundo : List (List Coin)
  nHeight : Int

/-- The coins of the tip and the blocks above the one that burned, the last one first. -/
structure Tip where
  view : CCoinsViewCache
  later : List LaterBlock

/-- How the tip moves after the block with the transaction `txid`: a block whose scripts are checked is connected, the
last block is disconnected, or the cache is flushed or replaced. A block that `ConnectBlock` exempts from BIP30 must
not repeat the transaction. -/
inductive TipStep (txid : UInt256) : Tip → Tip → Prop
  | connect {E : ConnectEnv} {block : CBlock} {nHeight : Int} {fEnforceBIP30 : Bool} {view : CCoinsViewCache}
      {st : ConnectState} {ss : List Int} {later : List LaterBlock} (checked : ScriptsChecked E)
      (exempt : (fEnforceBIP30 || decide (nHeight ≥ BIP34_IMPLIES_BIP30_LIMIT)) = false →
        ∀ tx ∈ block.vtx, tx.hash ≠ txid)
      (ok : connectBlock E block nHeight false fEnforceBIP30 false view = ⟨.ok st, ss⟩) :
      TipStep txid ⟨view, later⟩ ⟨st.view, ⟨block, st.vtxundo, nHeight⟩ :: later⟩
  | disconnect {view view' : CCoinsViewCache} {b : LaterBlock} {later : List LaterBlock} {res : DisconnectResult}
      (ok : disconnectBlock b.block b.vtxundo b.nHeight view = .ok (res, view')) :
      TipStep txid ⟨view, b :: later⟩ ⟨view', later⟩
  | flush {view view' : CCoinsViewCache} {later : List LaterBlock} (same : coinAt view' = coinAt view) :
      TipStep txid ⟨view, later⟩ ⟨view', later⟩

/-- The coin is unspent, and no later block creates or spends it. -/
structure StillBurned (o : COutPoint) (coin : Coin) (tip : Tip) : Prop where
  coin : coinAt tip.view o = some coin
  created : ∀ b ∈ tip.later, o ∉ b.block.outpoints
  spent : ∀ b ∈ tip.later, ∀ tx ∈ b.block.vtx.tail, ∀ txin ∈ tx.vin, txin.prevout ≠ o

lemma applyBIP30_keeps {fEnforceBIP30 : Bool} {view view₁ : CCoinsViewCache}
    (hcoin : coinAt view o = some coin)
    (hexempt : (fEnforceBIP30 || decide (nHeight ≥ BIP34_IMPLIES_BIP30_LIMIT)) = false →
      ∀ tx ∈ block.vtx, tx.hash ≠ o.hash)
    (hbip30 : applyBIP30 block nHeight fEnforceBIP30 view = ⟨.ok view₁, ss⟩) :
    KeepsCoin o view view₁ ∧ o ∉ block.outpoints := by
  unfold applyBIP30 at hbip30
  split_ifs at hbip30 with happly
  · obtain ⟨_, _, _, hnew, hview₁, -⟩ := Tally.bind_eq_ok.mp hbip30
    obtain ⟨rfl, -⟩ := Tally.pure_eq_ok.mp hview₁
    refine ⟨KeepsCoin.foldl_fetchCoin o view _, ?_⟩
    intro hmem
    have hfree := all_eq_true.mp (Tally.check_eq_ok.mp hnew).1 o hmem
    rw [haveCoin_eq, hcoin] at hfree
    cases hfree
  · obtain ⟨rfl, -⟩ := Tally.pure_eq_ok.mp hbip30
    refine ⟨KeepsCoin.refl o view, ?_⟩
    intro hmem
    obtain ⟨tx, htx, hk⟩ := mem_flatMap.mp hmem
    obtain ⟨k, -, rfl⟩ := mem_map.mp hk
    exact hexempt (Bool.eq_false_iff.mpr happly) tx htx rfl

lemma StillBurned.connect (hburn : IsBurn coin.out.scriptPubKey)
    {later : List LaterBlock} (hs : StillBurned o coin ⟨view, later⟩) (hchecked : ScriptsChecked E)
    {fEnforceBIP30 : Bool}
    (hexempt : (fEnforceBIP30 || decide (nHeight ≥ BIP34_IMPLIES_BIP30_LIMIT)) = false →
      ∀ tx ∈ block.vtx, tx.hash ≠ o.hash)
    (h : connectBlock E block nHeight false fEnforceBIP30 false view = ⟨.ok st, ss⟩) :
    StillBurned o coin ⟨st.view, ⟨block, st.vtxundo, nHeight⟩ :: later⟩ := by
  obtain ⟨_, s₁, s₂, hcheck, hconnect, -⟩ := Tally.bind_eq_ok.mp h
  obtain ⟨hok, -⟩ := checkBlock_ok hcheck
  obtain ⟨coinbase, vtx, hvtx, -, hrest⟩ := hok.coinbase_first
  obtain ⟨view₁, _, _, hbip30, htxs, hwait⟩ := connectChecked_txs hconnect
  unfold connectTxs at htxs
  obtain ⟨hview, hnew⟩ := applyBIP30_keeps hs.coin hexempt hbip30
  have hcoin₁ := hview.coin.trans hs.coin
  have hadds : ∀ tx ∈ block.vtx, AddsElsewhere o view₁ tx := fun tx htx =>
    .inl (fun k hk heq => hnew (heq ▸ mem_outpoints htx hk))
  obtain ⟨hkeep, hspent⟩ := fold_connectTx_keeps hchecked hwait htxs hcoin₁ hburn hadds
  refine ⟨hkeep.coin.trans hcoin₁, ?_, ?_⟩
  · intro b hb
    rcases mem_cons.mp hb with rfl | hb
    · exact hnew
    · exact hs.created b hb
  · intro b hb
    rcases mem_cons.mp hb with rfl | hb
    · intro tx htx txin htxin
      rw [hvtx, tail_cons] at htx
      refine hspent tx (by rw [hvtx]; exact mem_cons_of_mem _ htx) txin ?_
      rw [CTransaction.spentInputs, hrest tx htx]
      exact htxin
    · exact hs.spent b hb

lemma StillBurned.step (hburn : IsBurn coin.out.scriptPubKey) {tip tip' : Tip}
    (hs : StillBurned o coin tip) (h : TipStep o.hash tip tip') : StillBurned o coin tip' := by
  cases h with
  | connect checked exempt ok => exact hs.connect hburn checked exempt ok
  | disconnect ok =>
    have hkeep := KeepsCoin.disconnectBlock (hs.created _ mem_cons_self) (hs.spent _ mem_cons_self) ok
    exact ⟨hkeep.coin.trans hs.coin, fun b hb => hs.created b (mem_cons_of_mem _ hb),
      fun b hb => hs.spent b (mem_cons_of_mem _ hb)⟩
  | flush same => exact ⟨(congrFun same o).trans hs.coin, hs.created, hs.spent⟩

/-- No spend of a burn script verifies, the script is not unspendable for the set of coins, and once a connected block
has created such an output its coin is there in every later tip. -/
theorem burned_stays_burned {script : CScript} {solved : Solved} (hsolved : solver script = .ok solved)
    (htype : solved.typeRet = .burnData) :
    (∀ C scriptSig witness, verifyScript C scriptSig script witness ≠ .ok ()) ∧
    isUnspendable script = false ∧
    ∀ (E : ConnectEnv) (block : CBlock) (nHeight : Int) (fEnforceBIP30 : Bool) (view : CCoinsViewCache)
      (st : ConnectState)
      (ss : List Int), ScriptsChecked E → connectBlock E block nHeight false fEnforceBIP30 false view = ⟨.ok st, ss⟩ →
      ∀ tx ∈ block.vtx, ∀ n out, tx.vout[n]? = some out → out.scriptPubKey = script →
      ∀ tip, Relation.ReflTransGen (TipStep tx.hash) ⟨st.view, []⟩ tip →
        coinAt tip.view ⟨tx.hash, n⟩ = some (.ofOut out nHeight tx.isCoinBase) := by
  have hburn : IsBurn script := ⟨solved, hsolved, htype⟩
  refine ⟨hburn.verifyScript_error, hburn.spendable, ?_⟩
  rintro E block nHeight fEnforceBIP30 view st ss hchecked hconnect tx htx n out hout rfl tip hrun
  obtain ⟨_, s₁, s₂, hcheck, hbody, -⟩ := Tally.bind_eq_ok.mp hconnect
  obtain ⟨view₁, _, _, -, htxs, hwait⟩ := connectChecked_txs hbody
  have hcoin := connectTxs_burns hchecked hwait (checkBlock_ok hcheck).1 htx hout hburn htxs
  have hstart : StillBurned ⟨tx.hash, n⟩ (.ofOut out nHeight tx.isCoinBase) ⟨st.view, []⟩ :=
    ⟨hcoin, fun b hb => absurd hb not_mem_nil, fun b hb => absurd hb not_mem_nil⟩
  have hend : StillBurned ⟨tx.hash, n⟩ (.ofOut out nHeight tx.isCoinBase) tip := by
    induction hrun with
    | refl => exact hstart
    | tail _ hstep ih => exact ih.step hburn hstep
  exact hend.coin

def scriptEnv : ConnectEnv :=
  { lenientEnv with checkInputs := fun tx view => tx.vin.all (fun txin =>
      match verifyScript ⟨⟨id, id, id, id, id⟩, fun _ => true, {},
        ⟨fun _ _ _ _ => true, fun _ => true, fun _ => true⟩, .base⟩
        txin.scriptSig (view.accessCoin txin.prevout).out.scriptPubKey txin.scriptWitness with
      | .ok () => true
      | .error _ => false) }

lemma scriptEnv_checked : ScriptsChecked scriptEnv := by
  intro tx view h _ txin htxin
  have hverify := all_eq_true.mp h txin htxin
  split at hverify
  · exact ⟨_, ‹_›⟩
  · cases hverify

def burnScript : CScript := getScriptForBurn (List.replicate 20 7) []

def burnTx : CTransaction := ⟨[⟨⟨5, 0⟩, [], SEQUENCE_FINAL, []⟩], [⟨10, burnScript, -10⟩], 1, 0, 11⟩

def nextCoinbase : CTransaction :=
  ⟨[⟨⟨0, 0xffffffff⟩, [1, 3], SEQUENCE_FINAL, []⟩], [⟨50, [OP_1], -10⟩, ⟨0, [], -10⟩], 1, 0, 13⟩

theorem burned_stays_burned_example :
    ∃ st tip,
      (∃ ss, connectBlock scriptEnv ⟨[exampleCoinbase, burnTx]⟩ 2 false true false (exampleView 1) = ⟨.ok st, ss⟩) ∧
      TipStep burnTx.hash ⟨st.view, []⟩ tip ∧ tip.later.length = 1 ∧
      coinAt tip.view ⟨burnTx.hash, 0⟩ = some ⟨⟨10, burnScript, -10⟩, false, 2⟩ := by
  have hrun : (connectBlock scriptEnv ⟨[exampleCoinbase, burnTx]⟩ 2 false true false (exampleView 1) >>= fun st =>
      connectBlock scriptEnv ⟨[nextCoinbase]⟩ 3 false true false st.view).result.isOk = true := by
    decide +kernel
  obtain ⟨st₂, ss, hrun⟩ := Tally.exists_eq_ok hrun
  obtain ⟨st, s₁, s₂, hburned, hnext, -⟩ := Tally.bind_eq_ok.mp hrun
  have hstep : TipStep burnTx.hash ⟨st.view, []⟩ ⟨st₂.view, [⟨⟨[nextCoinbase]⟩, st₂.vtxundo, 3⟩]⟩ :=
    .connect scriptEnv_checked (fun h => absurd h (by decide)) hnext
  have hsolved : solver burnScript = .ok ⟨true, .burnData, [List.replicate 20 7]⟩ := by decide +kernel
  obtain ⟨-, -, hstays⟩ := burned_stays_burned hsolved rfl
  exact ⟨st, _, ⟨s₁, hburned⟩, hstep, rfl, hstays _ _ _ _ _ _ _ scriptEnv_checked hburned burnTx (by simp) 0 _ rfl rfl _
    (.single hstep)⟩

end Qstees.Proofs
