import Qstees.Model.CoreWrite
import Qstees.Proofs.Announcements
import Qstees.Proofs.VoteCounting

/-!
# The signed string of a payment vote

The string is the outpoint of the masternode, the height and the text of the payee script, one after the other.
-/

namespace Qstees.Proofs

open Encoding List

def asmWords : Nat → CScript → List String
  | 0, _ => []
  | fuel + 1, pc =>
    if pc.isEmpty then []
    else
      match getScriptOp pc with
      | none => ["[error]"]
      | some (opcode, vch, pc) => asmWord opcode vch :: asmWords fuel pc

/-- The texts of the instructions of a script, up to the first that is cut off. -/
def scriptWords (script : CScript) : List String := asmWords script.length script

lemma intText_cons (i : Int) : ∃ c digits, (toString i).toList = c :: digits ∧ (c = '-' ∨ c.isDigit = true) ∧
    ∀ d ∈ digits, d.isDigit = true := by
  cases i with
  | ofNat n =>
    have hne : (toString n).toList ≠ [] := by
      rw [Nat.toString_eq_ofList_toDigits, String.toList_ofList]
      exact Nat.toDigits_ne_nil
    obtain ⟨c, digits, htext⟩ := exists_cons_of_ne_nil hne
    have hdigits : ∀ d ∈ c :: digits, d.isDigit = true := fun d hd => isDigit_of_mem_repr (htext ▸ hd)
    rw [forall_mem_cons] at hdigits
    exact ⟨c, digits, htext, .inr hdigits.1, hdigits.2⟩
  | negSucc n =>
    have htext : toString (Int.negSucc n) = "-" ++ toString (n + 1) := rfl
    exact ⟨'-', (toString (n + 1)).toList, by simp [htext], .inl rfl, fun d hd => isDigit_of_mem_repr hd⟩

lemma opName_word (opcode : Opcode) : (getOpName opcode).toList ≠ [] ∧ ' ' ∉ (getOpName opcode).toList := by
  have htable : ∀ entry ∈ opNames, entry.2.toList ≠ [] ∧ ' ' ∉ entry.2.toList := by decide +kernel
  unfold getOpName
  cases hlookup : opNames.lookup opcode with
  | none => decide
  | some name =>
    obtain ⟨before, after, hsplit, -⟩ := lookup_eq_some_iff.mp hlookup
    exact htable (opcode, name) (by simp [hsplit])

lemma asmWord_word (opcode : Opcode) (vch : List UInt8) :
    (asmWord opcode vch).toList ≠ [] ∧ ' ' ∉ (asmWord opcode vch).toList := by
  unfold asmWord
  split_ifs with hpush hshort
  · obtain ⟨c, digits, htext, hc, hdigits⟩ := intText_cons (getint (setVch vch))
    rw [htext]
    refine ⟨cons_ne_nil _ _, fun hmem => ?_⟩
    rcases mem_cons.mp hmem with rfl | hmem
    · exact absurd hc (by decide)
    · exact absurd (hdigits _ hmem) (by decide)
  · rw [hexStr, String.toList_ofList]
    constructor
    · intro hnil
      have hlen := length_hexText vch
      rw [hnil, length_nil] at hlen
      omega
    · intro hmem
      obtain ⟨b, -, hb⟩ := mem_flatMap.mp hmem
      have hdigit : ∀ n < 16, Nat.digitChar n ≠ ' ' := by decide
      have hlt := b.toNat_lt
      rcases mem_cons.mp hb with h | h
      · exact hdigit _ (by omega) h.symm
      · exact hdigit _ (by omega) (mem_singleton.mp h).symm
  · exact opName_word opcode

lemma asmWords_word (fuel : Nat) (pc : CScript) : ∀ word ∈ asmWords fuel pc, word.toList ≠ [] ∧ ' ' ∉ word.toList := by
  induction fuel generalizing pc with
  | zero =>
    intro word hmem
    cases hmem
  | succ fuel ih =>
    unfold asmWords
    split_ifs
    · intro word hmem
      cases hmem
    · split
      · intro word hmem
        obtain rfl := mem_singleton.mp hmem
        decide
      · exact forall_mem_cons.mpr ⟨asmWord_word _ _, ih _⟩

def spaced (words : List String) : List Char := (words.map String.toList).flatMap (fun word => ' ' :: word)

lemma asmLoop_spaced (fuel : Nat) (pc : CScript) {str : String} (hstr : str.isEmpty = false) :
    (asmLoop fuel str pc).toList = str.toList ++ spaced (asmWords fuel pc) := by
  induction fuel generalizing pc str with
  | zero => simp [asmLoop, asmWords, spaced]
  | succ fuel ih =>
    unfold asmLoop asmWords
    by_cases hpc : pc.isEmpty = true
    · simp [hpc, spaced]
    simp only [hpc, hstr, Bool.false_eq_true, if_false]
    cases getScriptOp pc with
    | none => simp [spaced]
    | some op =>
      obtain ⟨opcode, vch, pc'⟩ := op
      have hne : (str ++ " " ++ asmWord opcode vch).isEmpty = false := by
        simp [String.isEmpty_eq_false_iff]
      dsimp only
      rw [ih pc' hne]
      simp [spaced]

lemma scriptToAsmStr_toList (script : CScript) :
    (scriptToAsmStr script).toList = (spaced (scriptWords script)).tail := by
  unfold scriptToAsmStr scriptWords
  generalize script.length = fuel
  cases fuel with
  | zero => rfl
  | succ fuel =>
    unfold asmLoop asmWords
    by_cases hpc : script.isEmpty = true
    · simp [hpc, spaced]
    simp only [hpc, Bool.false_eq_true, if_false]
    cases getScriptOp script with
    | none => simp [spaced]
    | some op =>
      obtain ⟨opcode, vch, pc⟩ := op
      have hne : (asmWord opcode vch).isEmpty = false := by
        rw [String.isEmpty_eq_false_iff]
        intro heq
        exact (asmWord_word opcode vch).1 (by rw [heq]; rfl)
      have hloop := asmLoop_spaced fuel pc hne
      simp [hloop, spaced]

lemma spaced_tail_inj {ws ws' : List String} (hws : ∀ w ∈ ws, w.toList ≠ [] ∧ ' ' ∉ w.toList)
    (hws' : ∀ w ∈ ws', w.toList ≠ [] ∧ ' ' ∉ w.toList) (h : (spaced ws).tail = (spaced ws').tail) : ws = ws' := by
  cases ws with
  | nil =>
    cases ws' with
    | nil => rfl
    | cons w ws' => exact absurd (append_eq_nil_iff.mp h.symm).1 (hws' w mem_cons_self).1
  | cons w ws =>
    cases ws' with
    | nil => exact absurd (append_eq_nil_iff.mp h).1 (hws w mem_cons_self).1
    | cons w' ws' =>
      have hlists : (w :: ws).map String.toList = (w' :: ws').map String.toList :=
        flatMap_cons_inj (forall_mem_map.mpr fun w hw => (hws w hw).2) (forall_mem_map.mpr fun w hw => (hws' w hw).2)
          (congrArg (List.cons ' ') h)
      exact map_injective_iff.mpr (fun _ _ => String.toList_inj.mp) hlists

lemma scriptToAsmStr_eq_iff (a b : CScript) : scriptToAsmStr a = scriptToAsmStr b ↔ scriptWords a = scriptWords b := by
  rw [← String.toList_inj, scriptToAsmStr_toList, scriptToAsmStr_toList]
  exact ⟨spaced_tail_inj (asmWords_word _ _) (asmWords_word _ _), fun h => by rw [h]⟩

lemma mod_pow_of_bytes {a b : Nat} (n : Nat) (h : ∀ k < n, a / 256 ^ k % 256 = b / 256 ^ k % 256) :
    a % 256 ^ n = b % 256 ^ n := by
  induction n with
  | zero => simp [Nat.mod_one]
  | succ n ih =>
    rw [Nat.mod_pow_succ, Nat.mod_pow_succ, ih (fun k hk => h k (by omega)), h n (by omega)]

lemma getHex_inj {a b : UInt256} (ha : a < 2 ^ 256) (hb : b < 2 ^ 256) (h : (getHex a).toList = (getHex b).toList) :
    a = b := by
  simp only [getHex, hexStr, String.toList_ofList] at h
  have hbytes := hexText_inj h
  have hsame : ∀ k < 32, a / 256 ^ k % 256 = b / 256 ^ k % 256 := by
    intro k hk
    have hbyte := congrArg (fun l : List UInt8 => (l[k]?).map UInt8.toNat) hbytes
    simpa [hk, getElem?_range, UInt8.toNat_ofNat'] using hbyte
  have hmod := mod_pow_of_bytes 32 hsame
  have hpow : (256 : Nat) ^ 32 = 2 ^ 256 := by norm_num
  rw [hpow, Nat.mod_eq_of_lt ha, Nat.mod_eq_of_lt hb] at hmod
  exact hmod

lemma length_getHex (a : UInt256) : (getHex a).toList.length = 64 := by
  rw [getHex, hexStr, String.toList_ofList, length_hexText]
  simp

lemma digits_append_inj {as bs rest rest' : List Char} (ha : ∀ c ∈ as, c.isDigit = true)
    (hb : ∀ c ∈ bs, c.isDigit = true)
    (hrest : ∀ c, rest.head? = some c → c.isDigit = false) (hrest' : ∀ c, rest'.head? = some c → c.isDigit = false)
    (h : as ++ rest = bs ++ rest') : as = bs ∧ rest = rest' := by
  have hcut : ∀ {ds xs : List Char}, (∀ c ∈ ds, c.isDigit = true) → (∀ c, xs.head? = some c → c.isDigit = false) →
      (ds ++ xs).takeWhile Char.isDigit = ds := by
    intro ds xs hds hxs
    rw [takeWhile_append_of_pos hds]
    cases xs with
    | nil => simp
    | cons x xs => simp [hxs x rfl]
  have htake := congrArg (List.takeWhile Char.isDigit) h
  rw [hcut ha hrest, hcut hb hrest'] at htake
  subst htake
  exact ⟨rfl, append_cancel_left h⟩

lemma intText_append_inj {i j : Int} {rest rest' : List Char} (hrest : ∀ c, rest.head? = some c → c.isDigit = false)
    (hrest' : ∀ c, rest'.head? = some c → c.isDigit = false)
    (h : (toString i).toList ++ rest = (toString j).toList ++ rest') : i = j ∧ rest = rest' := by
  obtain ⟨c, digits, hi, -, hdigits⟩ := intText_cons i
  obtain ⟨c', digits', hj, -, hdigits'⟩ := intText_cons j
  rw [hi, hj, cons_append, cons_append] at h
  obtain ⟨rfl, htail⟩ := List.cons.inj h
  obtain ⟨rfl, hsame⟩ := digits_append_inj hdigits hdigits' hrest hrest' htail
  have htext : toString i = toString j := String.toList_inj.mp (hi.trans hj.symm)
  exact ⟨Int.repr_injective htext, hsame⟩

def LeadingDigit (script : CScript) : Prop := ∃ c, (scriptToAsmStr script).toList.head? = some c ∧ c.isDigit = true

def voteString (E : VoteEnv) (vote : CMasternodePaymentVote) : String :=
  vote.strMessage { E with scriptToAsmStr := scriptToAsmStr }

lemma voteString_toList (E : VoteEnv) (vote : CMasternodePaymentVote) :
    (voteString E vote).toList = (getHex vote.vinMasternode.prevout.hash).toList ++ ('-' ::
      ((toString vote.vinMasternode.prevout.n).toList ++ ((toString vote.nBlockHeight).toList ++
        (scriptToAsmStr vote.payee).toList))) := by
  simp [voteString, CMasternodePaymentVote.strMessage, COutPoint.toStringShort]

def keyVote (nBlockHeight : Int) : CMasternodePaymentVote :=
  ⟨⟨⟨7, 1⟩, [], SEQUENCE_FINAL, []⟩, nBlockHeight, keyIDScript (List.replicate 20 0x11), []⟩

/-- Two votes with output indices of the same width, and with heights of the same width or payees whose texts do not
begin with a digit, have the same signed string if and only if they agree in outpoint, height and words of the payee. -/
theorem voteString_eq_iff (E : VoteEnv) {v w : CMasternodePaymentVote} (hv : v.vinMasternode.prevout.hash < 2 ^ 256)
    (hw : w.vinMasternode.prevout.hash < 2 ^ 256)
    (hindex : (toString v.vinMasternode.prevout.n).length = (toString w.vinMasternode.prevout.n).length)
    (hheight : (toString v.nBlockHeight).length = (toString w.nBlockHeight).length ∨
      ¬LeadingDigit v.payee ∧ ¬LeadingDigit w.payee) :
    voteString E v = voteString E w ↔ v.vinMasternode.prevout = w.vinMasternode.prevout ∧
      v.nBlockHeight = w.nBlockHeight ∧ scriptWords v.payee = scriptWords w.payee := by
  constructor
  · intro h
    have htext := congrArg String.toList h
    rw [voteString_toList, voteString_toList] at htext
    obtain ⟨hhash, htext⟩ := append_inj htext (by rw [length_getHex, length_getHex])
    obtain ⟨hn, htext⟩ := append_inj (List.cons.inj htext).2 (by simpa only [String.length_toList] using hindex)
    have hrest : v.nBlockHeight = w.nBlockHeight ∧
      (scriptToAsmStr v.payee).toList = (scriptToAsmStr w.payee).toList := by
      rcases hheight with hwidth | ⟨hv', hw'⟩
      · obtain ⟨hh, hpayee⟩ := append_inj htext (by simpa only [String.length_toList] using hwidth)
        exact ⟨Int.repr_injective (String.toList_inj.mp hh), hpayee⟩
      · have hdigit : ∀ {script : CScript}, ¬LeadingDigit script →
            ∀ c, (scriptToAsmStr script).toList.head? = some c → c.isDigit = false := by
          intro script hnot c hc
          by_contra hdigit
          exact hnot ⟨c, hc, by simpa using hdigit⟩
        exact intText_append_inj (hdigit hv') (hdigit hw') htext
    refine ⟨?_, hrest.1, (scriptToAsmStr_eq_iff _ _).mp (String.toList_inj.mp hrest.2)⟩
    have hhash' := getHex_inj hv hw hhash
    have hn' : v.vinMasternode.prevout.n = w.vinMasternode.prevout.n := Nat.repr_injective (String.toList_inj.mp hn)
    cases hpv : v.vinMasternode.prevout
    cases hpw : w.vinMasternode.prevout
    rw [hpv, hpw] at hhash' hn'
    exact congrArg₂ COutPoint.mk hhash' hn'
  · rintro ⟨hprevout, hheight, hpayee⟩
    rw [← String.toList_inj, voteString_toList, voteString_toList, hprevout, hheight,
      (scriptToAsmStr_eq_iff _ _).mpr hpayee]

/-- At the last height of three digits and the first of four, votes for a key have different strings. -/
theorem voteString_ne_nextWidth : voteString smallVoteEnv (keyVote 999) ≠ voteString smallVoteEnv (keyVote 1000) := by
  have hletter : ∀ height, (scriptToAsmStr (keyVote height).payee).toList.head? = some 'O' := by
    intro height
    change (scriptToAsmStr (keyIDScript (List.replicate 20 0x11))).toList.head? = some 'O'
    decide +kernel
  have hno : ∀ height, ¬LeadingDigit (keyVote height).payee := by
    rintro height ⟨c, hc, hdigit⟩
    obtain rfl := Option.some.inj ((hletter height).symm.trans hc)
    exact absurd hdigit (by decide)
  have hhash : ∀ height, (keyVote height).vinMasternode.prevout.hash < 2 ^ 256 := by
    intro height
    change 7 < 2 ^ 256
    norm_num
  intro h
  have hsame := (voteString_eq_iff smallVoteEnv (hhash 999) (hhash 1000) rfl (.inr ⟨hno 999, hno 1000⟩)).mp h
  have hheight : (999 : Int) = 1000 := hsame.2.1
  omega

/-- A digit can move from the output index to the height and from the height to the payee, and a number can be pushed in
two ways. -/
theorem voteString_collisions :
    (∃ v w : CMasternodePaymentVote, v.vinMasternode.prevout ≠ w.vinMasternode.prevout ∧
      v.nBlockHeight ≠ w.nBlockHeight ∧ v.payee = w.payee ∧ voteString smallVoteEnv v = voteString smallVoteEnv w) ∧
      (∃ v w : CMasternodePaymentVote, v.vinMasternode = w.vinMasternode ∧ v.nBlockHeight ≠ w.nBlockHeight ∧
        v.payee ≠ w.payee ∧ voteString smallVoteEnv v = voteString smallVoteEnv w) ∧
      ∃ v w : CMasternodePaymentVote, v.vinMasternode = w.vinMasternode ∧ v.nBlockHeight = w.nBlockHeight ∧
        v.payee ≠ w.payee ∧ voteString smallVoteEnv v = voteString smallVoteEnv w := by
  refine ⟨⟨⟨⟨⟨7, 1⟩, [], 0, []⟩, 23, [OP_DUP], []⟩, ⟨⟨⟨7, 12⟩, [], 0, []⟩, 3, [OP_DUP], []⟩, ?_⟩,
    ⟨⟨⟨⟨7, 1⟩, [], 0, []⟩, 1, [OP_16], []⟩, ⟨⟨⟨7, 1⟩, [], 0, []⟩, 11, [0x56], []⟩, ?_⟩,
    ⟨⟨⟨⟨7, 1⟩, [], 0, []⟩, 100, [OP_1], []⟩, ⟨⟨⟨7, 1⟩, [], 0, []⟩, 100, [0x01, 0x01], []⟩, ?_⟩⟩
  · decide +kernel
  · decide +kernel
  · decide +kernel

end Qstees.Proofs
