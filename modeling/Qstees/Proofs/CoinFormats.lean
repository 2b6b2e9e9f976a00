import Qstees.Model.Compressor
import Qstees.Proofs.TermDeposit

/-!
# Coins and undo data read back

Every layer of the format recovers what it wrote and stops behind it: the integers, the compressed amounts and scripts,
and then coins, undo records and the undo data of a block. -/

namespace Qstees.Proofs

open Codec List

variable {n : Nat}

lemma recovers_varInt32 (hn : n < 2 ^ 32) : Recovers (readVarIntOf 32) (writeVarIntOf 32 n) n :=
  recovers_varInt (by omega) (by omega)

lemma recovers_varInt64 (hn : n < 2 ^ 64) : Recovers (readVarIntOf 64) (writeVarIntOf 64 n) n :=
  recovers_varInt (by omega) (by omega)

lemma writeVarIntOf_small (hn : n < 128) : writeVarIntOf 32 n = [UInt8.ofNat n] := by
  change (varIntDigits 5 n false).reverse = _
  rw [varIntDigits, if_pos (show n ≤ 127 by omega), Nat.mod_eq_of_lt hn]
  rfl

lemma length_writeLE (k n : Nat) : (writeLE k n).length = k := by
  induction k generalizing n with
  | zero => rfl
  | succ k ih => rw [writeLE, length_cons, ih]

lemma readLE_writeLE {k n : Nat} (hn : n < 256 ^ k) : readLE (writeLE k n) = n := by
  induction k generalizing n with
  | zero =>
    obtain rfl : n = 0 := by simpa using hn
    rfl
  | succ k ih =>
    rw [pow_succ, Nat.mul_comm] at hn
    rw [writeLE, readLE, ih (Nat.div_lt_of_lt_mul hn), UInt8.toNat_ofNat']
    omega

lemma recovers_ite_throw {α : Type} {c : Prop} [Decidable c] {e : String} {read : Reader α} {bytes : List UInt8} {a : α}
    (hc : ¬c) (h : Recovers read bytes a) : Recovers (if c then throw e else read) bytes a := by
  rw [if_neg hc]
  exact h

lemma recovers_readSize {k min n : Nat} (hmin : min ≤ n) (hn : n < 256 ^ k) :
    Recovers (readSize k min) (writeLE k n) n := by
  refine (recovers_take (length_writeLE k n)).bind_nil ?_
  rw [readLE_writeLE hn]
  exact recovers_ite_throw (by omega) (Recovers.pure n)

lemma recovers_compactSize (hn : n ≤ MAX_SIZE) : Recovers readCompactSize (writeCompactSize n) n := by
  have hmax : n ≤ 0x02000000 := hn
  have hselect : ∀ {b : UInt8} {bytes : List UInt8}, Recovers (readSizeAfter b) bytes n →
      Recovers readCompactSize (b :: bytes) n := by
    intro b bytes hread
    refine Recovers.bind (recovers_byte b) (hread.bind_nil ?_)
    exact recovers_ite_throw (by omega) (Recovers.pure n)
  unfold writeCompactSize
  split_ifs with h1 h2 h4
  · have hb : UInt8.ofNat n < 253 := by
      rw [UInt8.lt_iff_toNat_lt, UInt8.toNat_ofNat', Nat.mod_eq_of_lt (by omega)]
      exact h1
    apply hselect
    rw [readSizeAfter, if_pos hb, UInt8.toNat_ofNat', Nat.mod_eq_of_lt (by omega)]
    exact Recovers.pure n
  · apply hselect
    exact recovers_readSize (by omega) (by omega)
  · apply hselect
    exact recovers_readSize (by omega) (by omega)
  · omega

lemma divideZeros_spec {fuel n e : Nat} (hn : n ≠ 0) :
    ∃ k ≤ fuel, (divideZeros fuel n e).2 = e + k ∧ (divideZeros fuel n e).1 * 10 ^ k = n ∧
      (k < fuel → (divideZeros fuel n e).1 % 10 ≠ 0) := by
  induction fuel generalizing n e with
  | zero => exact ⟨0, le_rfl, rfl, by simp [divideZeros], by omega⟩
  | succ fuel ih =>
    unfold divideZeros
    by_cases hzero : n % 10 = 0
    · rw [if_pos hzero]
      obtain ⟨k, hk, he, hvalue, hstop⟩ := @ih (n / 10) (e + 1) (by omega)
      refine ⟨k + 1, by omega, by omega, ?_, fun hlt => hstop (by omega)⟩
      rw [pow_succ, ← mul_assoc, hvalue]
      omega
    · rw [if_neg hzero]
      exact ⟨0, by omega, rfl, by simp, fun _ => hzero⟩

lemma multiplyTens_eq {e n : Nat} (h : n * 10 ^ e < 2 ^ 64) : multiplyTens e n = n * 10 ^ e := by
  induction e generalizing n with
  | zero => rw [multiplyTens, pow_zero, mul_one]
  | succ e ih =>
    have hvalue : n * 10 * 10 ^ e = n * 10 ^ (e + 1) := by rw [pow_succ, mul_assoc, mul_comm 10]
    have hle : n * 10 ≤ n * 10 ^ (e + 1) := Nat.mul_le_mul_left n (Nat.le_self_pow (by omega) 10)
    rw [multiplyTens, Nat.mod_eq_of_lt (by omega), ih (by omega), hvalue]

lemma compressAmount_lt : compressAmount n < 2 ^ 64 := by
  unfold compressAmount
  split_ifs
  · decide
  · dsimp only
    split_ifs
    · exact Nat.mod_lt _ (by decide)
    · exact Nat.mod_lt _ (by decide)

lemma decompressAmount_digit {q d e : Nat} (hpos : 1 ≤ d) (hd : d ≤ 9) (he : e < 9)
    (hfits : (q * 10 + d) * 10 ^ e < 2 ^ 64) :
    decompressAmount (1 + (q * 9 + d - 1) * 10 + e) = (q * 10 + d) * 10 ^ e := by
  have hten : (1 + (q * 9 + d - 1) * 10 + e - 1) / 10 = q * 9 + (d - 1) := by omega
  have hexp : (1 + (q * 9 + d - 1) * 10 + e - 1) % 10 = e := by omega
  have hq : (q * 9 + (d - 1)) / 9 = q := by omega
  have hdigit : (q * 9 + (d - 1)) % 9 + 1 = d := by omega
  have hlt : q * 10 + d < 2 ^ 64 := lt_of_le_of_lt (Nat.le_mul_of_pos_right _ (Nat.pow_pos (by decide))) hfits
  rw [decompressAmount, if_neg (by omega)]
  dsimp only
  rw [hten, hexp, if_pos he, hq, hdigit, Nat.mod_eq_of_lt hlt, multiplyTens_eq hfits]

lemma decompressAmount_nine {m : Nat} (hpos : 1 ≤ m) (hfits : m * 10 ^ 9 < 2 ^ 64) :
    decompressAmount (1 + (m - 1) * 10 + 9) = m * 10 ^ 9 := by
  have hten : (1 + (m - 1) * 10 + 9 - 1) / 10 + 1 = m := by omega
  have hexp : (1 + (m - 1) * 10 + 9 - 1) % 10 = 9 := by omega
  rw [decompressAmount, if_neg (by omega)]
  dsimp only
  rw [hexp, if_neg (by decide), hten, Nat.mod_eq_of_lt (by omega), multiplyTens_eq hfits]

lemma decompressAmount_compressAmount (hn : n < 2 ^ 60) : decompressAmount (compressAmount n) = n := by
  by_cases hzero : n = 0
  · subst hzero
    rfl
  obtain ⟨e, he, hexp, hvalue, hstop⟩ := @divideZeros_spec 9 n 0 hzero
  unfold compressAmount
  rw [if_neg hzero]
  generalize divideZeros 9 n 0 = result at hexp hvalue hstop
  obtain ⟨m, e'⟩ := result
  dsimp only at hexp hvalue hstop ⊢
  obtain rfl : e' = e := by omega
  have hle : m ≤ n := hvalue ▸ Nat.le_mul_of_pos_right m (Nat.pow_pos (by decide))
  by_cases hlt : e' < 9
  · have hsplit : m / 10 * 10 + m % 10 = m := by omega
    rw [if_pos hlt, Nat.mod_eq_of_lt (by omega),
      decompressAmount_digit (by have := hstop hlt; omega) (by omega) hlt (by rw [hsplit, hvalue]; omega), hsplit,
        hvalue]
  · obtain rfl : e' = 9 := by omega
    rw [if_neg hlt, Nat.mod_eq_of_lt (by omega), decompressAmount_nine (by omega) (by omega), hvalue]

lemma eq_append_of_drop {script front back : List UInt8} (hfront : script.drop 0 = front ++ script.drop front.length)
    (hback : script.drop (front.length + n) = back) : script = front ++ (script.drop front.length).take n ++ back := by
  have hmiddle : (script.drop front.length).take n ++ back = script.drop front.length := by
    rw [← hback, ← drop_drop, take_append_drop]
  rw [append_assoc, hmiddle]
  exact hfront

variable {script : CScript}

lemma isToKeyID_shape {keyID : List UInt8} (h : isToKeyID script = some keyID) :
    keyID.length = 20 ∧ script = [OP_DUP, OP_HASH160, 20] ++ keyID ++ [OP_EQUALVERIFY, OP_CHECKSIG] := by
  unfold isToKeyID at h
  split_ifs at h with hbytes
  obtain ⟨hlen, hdup, hhash, hsize, hverify, hcheck⟩ := hbytes
  cases h
  refine ⟨by rw [length_take, length_drop]; omega, eq_append_of_drop ?_ ?_⟩
  · rw [drop_eq_cons hdup, drop_eq_cons hhash, drop_eq_cons hsize]
    rfl
  · change script.drop 23 = _
    rw [drop_eq_cons hverify, drop_eq_cons hcheck, drop_eq_nil_iff.mpr (by omega)]

lemma isToScriptID_shape {scriptID : List UInt8} (h : isToScriptID script = some scriptID) :
    scriptID.length = 20 ∧ script = [OP_HASH160, 20] ++ scriptID ++ [OP_EQUAL] := by
  unfold isToScriptID at h
  split_ifs at h with hbytes
  obtain ⟨hlen, hhash, hsize, hequal⟩ := hbytes
  cases h
  refine ⟨by rw [length_take, length_drop]; omega, eq_append_of_drop ?_ ?_⟩
  · rw [drop_eq_cons hhash, drop_eq_cons hsize]
    rfl
  · change script.drop 22 = _
    rw [drop_eq_cons hequal, drop_eq_nil_iff.mpr (by omega)]

lemma isToPubKey_shape {P : PubKeyOps} {pubkey : List UInt8} (h : isToPubKey P script = some pubkey) :
    (∃ header x, (header = 0x02 ∨ header = 0x03) ∧ x.length = 32 ∧ pubkey = header :: x ∧
        script = [33, header] ++ x ++ [OP_CHECKSIG]) ∨
      ∃ x, x.length = 64 ∧ pubkey = 0x04 :: x ∧ P.isFullyValid (0x04 :: x) = true ∧
        script = [65, 0x04] ++ x ++ [OP_CHECKSIG] := by
  unfold isToPubKey at h
  split_ifs at h with hshort hlong
  · left
    obtain ⟨hlen, hsize, hcheck, hheader⟩ := hshort
    cases h
    obtain ⟨header, hone, hheader⟩ : ∃ header, script[1]? = some header ∧ (header = 0x02 ∨ header = 0x03) := by
      rcases hheader with h2 | h3
      · exact ⟨_, h2, .inl rfl⟩
      · exact ⟨_, h3, .inr rfl⟩
    refine ⟨header, (script.drop 2).take 32, hheader, by rw [length_take, length_drop]; omega, ?_, ?_⟩
    · rw [drop_eq_cons hone]
      rfl
    · refine eq_append_of_drop ?_ ?_
      · rw [drop_eq_cons hsize, drop_eq_cons hone]
        rfl
      · change script.drop 34 = _
        rw [drop_eq_cons hcheck, drop_eq_nil_iff.mpr (by omega)]
  · right
    obtain ⟨hlen, hsize, hcheck, hone⟩ := hlong
    dsimp only at h
    split_ifs at h with hvalid
    cases h
    have hkey : (script.drop 1).take 65 = 0x04 :: (script.drop 2).take 64 := by
      rw [drop_eq_cons hone]
      rfl
    refine ⟨(script.drop 2).take 64, by rw [length_take, length_drop]; omega, hkey, hkey ▸ hvalid, ?_⟩
    refine eq_append_of_drop ?_ ?_
    · rw [drop_eq_cons hsize, drop_eq_cons hone]
      rfl
    · change script.drop 66 = _
      rw [drop_eq_cons hcheck, drop_eq_nil_iff.mpr (by omega)]

lemma and_one_cases (b : UInt8) : b &&& 0x01 = 0 ∨ b &&& 0x01 = 1 := by
  have hparity : (b &&& 0x01).toNat = b.toNat % 2 := by
    rw [UInt8.toNat_and]
    exact Nat.and_one_is_mod _
  rcases Nat.mod_two_eq_zero_or_one b.toNat with h | h
  · exact .inl (UInt8.toNat_inj.mp (hparity.trans h))
  · exact .inr (UInt8.toNat_inj.mp (hparity.trans h))

lemma decompress_uncompressed (P : PubKeyOps) {x : List UInt8} (hlen : x.length = 64)
    (hvalid : P.isFullyValid (0x04 :: x) = true) :
    P.decompress ((0x02 ||| ((x[63]?).getD 0 &&& 0x01)) :: x.take 32) = some (0x04 :: x) := by
  obtain ⟨b, hb⟩ : ∃ b, x[63]? = some b := ⟨_, getElem?_eq_getElem (by omega)⟩
  have hlast : x.drop 63 = [b] := by
    rw [drop_eq_cons hb, drop_eq_nil_iff.mpr (by omega)]
  have hx : x = x.take 32 ++ ((x.drop 32).take 31 ++ [b]) := by
    rw [← hlast, show x.drop 63 = (x.drop 32).drop 31 by rw [drop_drop], take_append_drop, take_append_drop]
  rw [hx] at hvalid
  have hinverse := P.decompress_compress (x.take 32) ((x.drop 32).take 31) b (by rw [length_take]; omega)
    (by rw [length_take, length_drop]; omega) hvalid
  rw [← hx] at hinverse
  rw [hb, Option.getD_some]
  exact hinverse

lemma compressScript_some {P : PubKeyOps} {compr : List UInt8} (h : compressScript P script = some compr) :
    ∃ nSize data, nSize < nSpecialScripts ∧ compr = UInt8.ofNat nSize :: data ∧
      data.length = getSpecialScriptSize nSize ∧ decompressScript P nSize data = some script := by
  unfold compressScript at h
  cases hkey : isToKeyID script with
  | some keyID =>
    rw [hkey] at h
    cases h
    obtain ⟨hlen, hscript⟩ := isToKeyID_shape hkey
    exact ⟨0, keyID, by decide, rfl, hlen, congrArg some hscript.symm⟩
  | none =>
    rw [hkey] at h
    cases hid : isToScriptID script with
    | some scriptID =>
      rw [hid] at h
      cases h
      obtain ⟨hlen, hscript⟩ := isToScriptID_shape hid
      exact ⟨1, scriptID, by decide, rfl, hlen, congrArg some hscript.symm⟩
    | none =>
      rw [hid] at h
      cases hpub : isToPubKey P script with
      | none =>
        rw [hpub] at h
        cases h
      | some pubkey =>
        rw [hpub] at h
        rcases isToPubKey_shape hpub with ⟨header, x, hheader, hlen, rfl, hscript⟩ | ⟨x, hlen, rfl, hvalid, hscript⟩
        · dsimp only at h
          rw [if_pos hheader, take_of_length_le (by omega)] at h
          cases h
          rcases hheader with rfl | rfl
          · exact ⟨2, x, by decide, rfl, hlen, congrArg some hscript.symm⟩
          · exact ⟨3, x, by decide, rfl, hlen, congrArg some hscript.symm⟩
        · have hdecompress := decompress_uncompressed P hlen hvalid
          have hshort : (x.take 32).length = 32 := by rw [length_take]; omega
          dsimp only at h
          rw [if_neg (by decide), if_pos rfl] at h
          cases h
          have hrebuild : ∀ c, P.decompress (c :: x.take 32) = some (0x04 :: x) →
              (P.decompress (c :: x.take 32)).map (fun pubkey => [65] ++ pubkey ++ [OP_CHECKSIG]) = some script := by
            intro c hc
            rw [hc, Option.map_some, hscript]
            rfl
          rcases and_one_cases ((x[63]?).getD 0) with hparity | hparity
          · rw [hparity] at hdecompress ⊢
            exact ⟨4, x.take 32, by decide, rfl, hshort, hrebuild _ hdecompress⟩
          · rw [hparity] at hdecompress ⊢
            exact ⟨5, x.take 32, by decide, rfl, hshort, hrebuild _ hdecompress⟩

lemma recovers_script (P : PubKeyOps) (hlen : script.length ≤ MAX_SCRIPT_SIZE) (prior : CScript) :
    Recovers (unserializeScript P prior) (serializeScript P script) script := by
  have hmax : script.length ≤ 10000 := hlen
  unfold serializeScript
  cases hcompress : compressScript P script with
  | some compr =>
    obtain ⟨nSize, data, hsize, rfl, hdata, hscript⟩ := compressScript_some hcompress
    have hsix : nSize < 6 := hsize
    rw [← singleton_append, ← writeVarIntOf_small (by omega)]
    refine (recovers_varInt32 (by omega)).bind ?_
    rw [if_pos hsize]
    refine (recovers_take hdata).bind_nil ?_
    rw [hscript, Option.getD_some]
    exact Recovers.pure script
  | none =>
    have hsize : (script.length + nSpecialScripts) % 2 ^ 32 = script.length + 6 :=
      Nat.mod_eq_of_lt (by unfold nSpecialScripts; omega)
    dsimp only
    rw [hsize]
    refine (recovers_varInt32 (by omega)).bind ?_
    have hrest : script.length + 6 - nSpecialScripts = script.length := rfl
    rw [if_neg (by unfold nSpecialScripts; omega), hrest, if_neg (by omega)]
    exact recovers_take rfl

/-- A coin as blocks can create it. -/
structure Storable (coin : Coin) : Prop where
  nonneg : 0 ≤ coin.out.nValue
  money : coin.out.nValue ≤ MAX_MONEY
  height : coin.nHeight < 2 ^ 31
  script : coin.out.scriptPubKey.length ≤ MAX_SCRIPT_SIZE

/-- The output read back over another one: the value and the script are the stored ones. -/
def readOver (prior out : CTxOut) : CTxOut := ⟨out.nValue, out.scriptPubKey, prior.nRounds⟩

def readBack (prior coin : Coin) : Coin := ⟨readOver prior.out coin.out, coin.fCoinBase, coin.nHeight⟩

variable (P : PubKeyOps) {coin : Coin}

lemma Storable.recovers_txOut (h : Storable coin) (prior : CTxOut) :
    Recovers (unserializeTxOut P prior) (serializeTxOut P coin.out) (readOver prior coin.out) := by
  have hmoney : coin.out.nValue ≤ 60000000000000000 := h.money
  have hnonneg := h.nonneg
  have hvalue : ((coin.out.nValue % 2 ^ 64).toNat : Int) = coin.out.nValue := by omega
  refine (recovers_varInt64 (compressAmount_lt)).bind ?_
  refine (recovers_script P h.script prior.scriptPubKey).bind_nil ?_
  rw [decompressAmount_compressAmount (by omega), hvalue, wrap64_eq_self ⟨by omega, by omega⟩]
  exact Recovers.pure _

lemma Storable.code_eq (h : Storable coin) : coin.code = coin.nHeight * 2 + coin.fCoinBase.toNat := by
  have hheight := h.height
  have hflag : coin.fCoinBase.toNat ≤ 1 := Bool.toNat_le _
  exact Nat.mod_eq_of_lt (by omega)

lemma Storable.code_lt : coin.code < 2 ^ 32 := Nat.mod_lt _ (by decide)

lemma Storable.code_parts (h : Storable coin) :
    coin.code / 2 = coin.nHeight ∧ (coin.code % 2 == 1) = coin.fCoinBase := by
  rw [h.code_eq]
  cases coin.fCoinBase with
  | false => exact ⟨by simp, by simp⟩
  | true =>
    constructor
    · simp only [Bool.toNat_true]; omega
    · simp only [Bool.toNat_true, beq_iff_eq]; omega

lemma Storable.recovers_coin (h : Storable coin) :
    ∃ bytes, coin.serialize P = .ok bytes ∧ ∀ prior,
      Recovers (Coin.unserialize P prior) bytes (readBack prior coin) := by
  have hunspent : coin.isSpent = false := by
    have hnonneg := h.nonneg
    simp only [Coin.isSpent, CTxOut.isNull, beq_eq_false_iff_ne, ne_eq]
    omega
  refine ⟨_, by rw [Coin.serialize, hunspent]; rfl, fun prior => ?_⟩
  refine (recovers_varInt32 (Storable.code_lt)).bind ?_
  refine (h.recovers_txOut P prior.out).bind_nil ?_
  rw [h.code_parts.1, h.code_parts.2]
  exact Recovers.pure _

lemma Storable.recovers_txInUndo (h : Storable coin) (prior : Coin) :
    Recovers (unserializeTxInUndo P prior) (serializeTxInUndo P coin) (readBack prior coin) := by
  have hout := h.recovers_txOut P prior.out
  unfold serializeTxInUndo
  rw [append_assoc]
  refine (recovers_varInt32 (Storable.code_lt)).bind ?_
  rw [h.code_parts.1, h.code_parts.2]
  by_cases hheight : coin.nHeight > 0
  · rw [if_pos hheight, if_pos hheight]
    have hdummy : Recovers (readVarIntOf 32) [0] 0 := recovers_varInt32 (n := 0) (by decide)
    exact hdummy.bind (hout.bind_nil (Recovers.pure _))
  · rw [if_neg hheight, if_neg hheight]
    exact hout.bind_nil (Recovers.pure _)

lemma recovers_txUndo {vprevout : List Coin} (hcoins : ∀ coin ∈ vprevout, Storable coin)
    (hcount : vprevout.length ≤ MAX_INPUTS_PER_BLOCK) :
    Recovers (unserializeTxUndo P) (serializeTxUndo P vprevout) (vprevout.map (readBack .empty)) := by
  have hsize : vprevout.length ≤ MAX_SIZE := hcount.trans (by decide)
  refine (recovers_compactSize hsize).bind (recovers_ite_throw (by omega) ?_)
  exact Recovers.repeated fun coin hcoin => (hcoins coin hcoin).recovers_txInUndo P .empty

lemma recovers_blockUndo {vtxundo : List (List Coin)} (hcoins : ∀ vprevout ∈ vtxundo, ∀ coin ∈ vprevout, Storable coin)
    (hcounts : ∀ vprevout ∈ vtxundo, vprevout.length ≤ MAX_INPUTS_PER_BLOCK) (hsize : vtxundo.length ≤ MAX_SIZE) :
    Recovers (unserializeBlockUndo P) (serializeBlockUndo P vtxundo) (vtxundo.map (List.map (readBack .empty))) := by
  refine (recovers_compactSize hsize).bind ?_
  exact Recovers.repeated fun vprevout hmem => recovers_txUndo P (hcoins vprevout hmem) (hcounts vprevout hmem)

/-- Coins, the undo records of a transaction and those of a block read back, up to the last byte. -/
theorem coinFormats_readBack :
    (∀ coin, Storable coin → ∃ bytes, coin.serialize P = .ok bytes ∧
        ∀ prior, Recovers (Coin.unserialize P prior) bytes (readBack prior coin)) ∧
      (∀ vprevout, (∀ coin ∈ vprevout, Storable coin) → vprevout.length ≤ MAX_INPUTS_PER_BLOCK →
        Recovers (unserializeTxUndo P) (serializeTxUndo P vprevout) (vprevout.map (readBack .empty))) ∧
      ∀ vtxundo : List (List Coin), (∀ vprevout ∈ vtxundo, ∀ coin ∈ vprevout, Storable coin) →
        (∀ vprevout ∈ vtxundo, vprevout.length ≤ MAX_INPUTS_PER_BLOCK) → vtxundo.length ≤ MAX_SIZE →
        Recovers (unserializeBlockUndo P) (serializeBlockUndo P vtxundo) (vtxundo.map (List.map (readBack .empty))) :=
  ⟨fun _ hcoin => hcoin.recovers_coin P, fun _ => recovers_txUndo P, fun _ => recovers_blockUndo P⟩

/-- The coordinates of the generator of secp256k1. -/
def generatorX : List UInt8 :=
  (writeLE 32 0x79be667ef9dcbbac55a06295ce870b07029bfcdb2dce28d959f2815b16f81798).reverse

@[inherit_doc generatorX]
def generatorY : List UInt8 :=
  (writeLE 32 0x483ada7726a3c4655da4fbfc0e1108a8fd17b448a68554199c47d08ffb10d4b8).reverse

/-- The curve, with the generator as the only key looked at. -/
def pointKeys : PubKeyOps where
  isFullyValid key := key == 0x04 :: (generatorX ++ generatorY)
  decompress compressed := if compressed = 0x02 :: generatorX then some (0x04 :: (generatorX ++ generatorY)) else none
  decompress_compress x y b hx hy hvalid := by
    have hkey : x ++ (y ++ [b]) = generatorX ++ generatorY := (List.cons.inj (eq_of_beq hvalid)).2
    obtain ⟨rfl, hrest⟩ := append_inj hkey (hx.trans (by decide +kernel))
    have hlast : generatorY.getLast? = some 0xb8 := by decide +kernel
    rw [← hrest, getLast?_concat] at hlast
    cases hlast
    rw [hrest]
    exact if_pos rfl

/-- A coinbase output that pays to this key. -/
def pointCoin : Coin := ⟨⟨1200000000, [65, 0x04] ++ generatorX ++ generatorY ++ [OP_CHECKSIG], -10⟩, true, 2 ^ 31 - 1⟩

theorem coinFormats_readBack_point :
    (∃ bytes, pointCoin.serialize pointKeys = .ok bytes ∧ Coin.unserialize pointKeys .empty bytes =
      .ok (pointCoin, [])) ∧
      unserializeBlockUndo pointKeys (serializeBlockUndo pointKeys [[pointCoin], [pointCoin, pointCoin]]) =
        .ok ([[pointCoin], [pointCoin, pointCoin]], []) := by
  have hstorable : Storable pointCoin := ⟨by decide, by decide, by decide, by decide⟩
  obtain ⟨hcoin, -, hundo⟩ := coinFormats_readBack pointKeys
  constructor
  · obtain ⟨bytes, hbytes, hread⟩ := hcoin pointCoin hstorable
    have hall := hread .empty []
    rw [append_nil] at hall
    exact ⟨bytes, hbytes, hall⟩
  · have hall := hundo [[pointCoin], [pointCoin, pointCoin]] (by simp [hstorable])
      (by simp [MAX_INPUTS_PER_BLOCK]; decide) (by decide) []
    rw [append_nil] at hall
    exact hall

end Qstees.Proofs
