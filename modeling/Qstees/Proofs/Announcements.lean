import Qstees.Model.Masternode

/-!
# What the signature of an announcement binds

The signed string names the address, the time, the two key ids and the protocol version, with no separators after the
port.
-/

namespace Qstees.Proofs

open Encoding List CService

lemma length_drainBits (tobits acc bits n : Nat) : (drainBits tobits acc bits n).length = n := by
  induction n with
  | zero => rfl
  | succ n ih => rw [drainBits, length_cons, ih]

lemma value_drainBits (tobits acc bits n : Nat) :
    value (2 ^ tobits) (drainBits tobits acc bits n) = acc / 2 ^ bits % (2 ^ tobits) ^ n := by
  induction n with
  | zero => simp [drainBits, Nat.mod_one]
  | succ n ih =>
    have hshift : acc / 2 ^ (bits + n * tobits) = acc / 2 ^ bits / (2 ^ tobits) ^ n := by
      rw [Nat.div_div_eq_div_mul, ← pow_mul, ← pow_add, Nat.mul_comm tobits n]
    rw [drainBits, value_cons, length_drainBits, ih, hshift, Nat.mod_pow_succ]
    ring

def padBits (tobits bits : Nat) : Nat := if bits % tobits = 0 then 0 else tobits - bits % tobits

lemma padBits_step (frombits tobits bits n : Nat) :
    padBits tobits (bits + frombits * (n + 1)) = padBits tobits ((bits + frombits) % tobits + frombits * n) := by
  have hdiv := Nat.div_add_mod (bits + frombits) tobits
  have htotal : bits + frombits * (n + 1) = tobits * ((bits + frombits) / tobits) +
    ((bits + frombits) % tobits + frombits * n) := by
    rw [Nat.mul_succ]
    omega
  rw [htotal, padBits, padBits, Nat.mul_add_mod]

variable {tobits bits frombits v : Nat} {c : Char} {a b : CService}

lemma length_convertBits (frombits : Nat) (vs : List Nat) (acc : Nat) (hbits : bits < tobits) :
    tobits * (convertBits frombits tobits acc bits vs).length =
      bits + frombits * vs.length + padBits tobits (bits + frombits * vs.length) := by
  induction vs generalizing acc bits with
  | nil =>
    simp only [convertBits, padBits, length_nil, Nat.mul_zero, Nat.add_zero, Nat.mod_eq_of_lt hbits]
    split_ifs with hzero
    · simp [hzero]
    · simp only [length_singleton]
      omega
  | cons v vs ih =>
    have hrest := Nat.mod_lt (bits + frombits) (Nat.zero_lt_of_lt hbits)
    have hdiv := Nat.div_add_mod (bits + frombits) tobits
    rw [convertBits, length_append, length_drainBits, Nat.mul_add, ih _ hrest, length_cons, padBits_step, Nat.mul_succ]
    omega

lemma pending_step (acc : Nat) (hbits : bits < tobits) (hv : v < 2 ^ frombits) :
    (acc * 2 ^ frombits + v) % 2 ^ (frombits + tobits - 1) % 2 ^ (bits + frombits) =
      acc % 2 ^ bits * 2 ^ frombits + v := by
  have hlow : acc % 2 ^ bits < 2 ^ bits := Nat.mod_lt _ (by positivity)
  have hfits : acc % 2 ^ bits * 2 ^ frombits + v < 2 ^ bits * 2 ^ frombits := by
    calc acc % 2 ^ bits * 2 ^ frombits + v < (acc % 2 ^ bits + 1) * 2 ^ frombits := by
          rw [Nat.succ_mul]
          exact Nat.add_lt_add_left hv _
      _ ≤ 2 ^ bits * 2 ^ frombits := Nat.mul_le_mul_right _ hlow
  rw [Nat.mod_mod_of_dvd _ (pow_dvd_pow 2 (by omega)), pow_add, Nat.add_mod, Nat.mul_mod_mul_right,
    Nat.mod_eq_of_lt (hv.trans_le (Nat.le_mul_of_pos_left _ (by positivity)))]
  exact Nat.mod_eq_of_lt hfits

lemma value_convertBits {vs : List Nat} (hvs : ∀ v ∈ vs, v < 2 ^ frombits) (acc : Nat)
    (hbits : bits < tobits) :
    value (2 ^ tobits) (convertBits frombits tobits acc bits vs) =
      (acc % 2 ^ bits * 2 ^ (frombits * vs.length) + value (2 ^ frombits) vs) *
        2 ^ padBits tobits (bits + frombits * vs.length) := by
  induction vs generalizing acc bits with
  | nil =>
    simp only [convertBits, padBits, length_nil, Nat.mul_zero, Nat.add_zero, Nat.mod_eq_of_lt hbits, pow_zero,
      Nat.mul_one, value_nil]
    split_ifs with hzero
    · simp [hzero, Nat.mod_one]
    · have hsplit : 2 ^ tobits = 2 ^ bits * 2 ^ (tobits - bits) := by
        rw [← pow_add, Nat.add_sub_cancel' hbits.le]
      rw [value_cons, value_nil, hsplit, Nat.mul_mod_mul_right]
      simp
  | cons v vs ih =>
    have hrest := Nat.mod_lt (bits + frombits) (Nat.zero_lt_of_lt hbits)
    have hpending := pending_step acc hbits (hvs v mem_cons_self)
    have hpow : (2 ^ tobits) ^ (convertBits frombits tobits ((acc * 2 ^ frombits + v) % 2 ^ (frombits + tobits - 1))
        ((bits + frombits) % tobits) vs).length = 2 ^ ((bits + frombits) % tobits + frombits * vs.length +
          padBits tobits ((bits + frombits) % tobits + frombits * vs.length)) := by
      rw [← pow_mul, length_convertBits frombits vs _ hrest]
    have hbitsplit : 2 ^ (bits + frombits) = 2 ^ ((bits + frombits) % tobits) *
      (2 ^ tobits) ^ ((bits + frombits) / tobits) := by
      rw [← pow_mul, ← pow_add, Nat.mod_add_div]
    rw [hbitsplit, Nat.mod_mul] at hpending
    rw [convertBits, value_append, value_drainBits, ih (fun w hw => hvs w (mem_cons_of_mem _ hw)) _ hrest, hpow,
      length_cons, padBits_step, value_cons]
    generalize (acc * 2 ^ frombits + v) % 2 ^ (frombits + tobits - 1) = acc' at hpending ⊢
    generalize padBits tobits ((bits + frombits) % tobits + frombits * vs.length) = pad
    rw [Nat.mul_succ, pow_add, pow_add, pow_add, ← pow_mul 2 frombits]
    linear_combination (2 ^ (frombits * vs.length) * 2 ^ pad) * hpending

lemma convertBits_inj (hf : 0 < frombits) (ht : 0 < tobits) {vs ws : List Nat}
    (hlen : vs.length = ws.length) (hvs : ∀ v ∈ vs, v < 2 ^ frombits)
    (hws : ∀ w ∈ ws, w < 2 ^ frombits)
    (h : convertBits frombits tobits 0 0 vs = convertBits frombits tobits 0 0 ws) : vs = ws := by
  have hv := value_convertBits hvs 0 ht
  have hw := value_convertBits hws 0 ht
  rw [h, hw, hlen] at hv
  have hvalue := Nat.eq_of_mul_eq_mul_right (by positivity) hv
  simp only [Nat.zero_mod, Nat.zero_mul, Nat.zero_add] at hvalue
  exact value_inj (Nat.one_lt_two_pow hf.ne') hlen hvs hws hvalue.symm

lemma lt_of_mem_convertBits (vs : List Nat) {acc x : Nat}
    (hx : x ∈ convertBits frombits tobits acc bits vs) : x < 2 ^ tobits := by
  have hdrain : ∀ acc bits n, ∀ y ∈ drainBits tobits acc bits n, y < 2 ^ tobits := by
    intro acc bits n
    induction n with
    | zero => simp [drainBits]
    | succ n ih => exact forall_mem_cons.mpr ⟨Nat.mod_lt _ (by positivity), ih⟩
  induction vs generalizing acc bits with
  | nil =>
    rw [convertBits] at hx
    split_ifs at hx
    · cases hx
    · rw [mem_singleton.mp hx]
      exact Nat.mod_lt _ (by positivity)
  | cons v vs ih =>
    rw [convertBits] at hx
    rcases mem_append.mp hx with hx | hx
    · exact hdrain _ _ _ x hx
    · exact ih hx

lemma base32_char (hv : v < 32) : ∃ c ∈ pbase32, pbase32[v]? = some c := by
  have hlen : pbase32.length = 32 := rfl
  exact ⟨pbase32[v], getElem_mem _, getElem?_eq_getElem (by omega)⟩

lemma base32_char_inj {w : Nat} (hv : v < 32) (hw : w < 32)
    (h : (pbase32[v]?).getD '=' = (pbase32[w]?).getD '=') : v = w := by
  have hnodup : pbase32.Nodup := by decide
  have hlen : pbase32.length = 32 := rfl
  rw [getElem?_eq_getElem (by omega), getElem?_eq_getElem (by omega)] at h
  exact (List.Nodup.getElem_inj_iff hnodup).mp h

lemma mem_encodeBase32 {bytes : List UInt8} (hc : c ∈ (encodeBase32 bytes).toList) :
    c ∈ '=' :: pbase32 := by
  simp only [encodeBase32, String.toList_ofList, mem_append, mem_map, mem_replicate] at hc
  rcases hc with ⟨v, hv, rfl⟩ | ⟨_, rfl⟩
  · obtain ⟨c, hc, hget⟩ := base32_char (lt_of_mem_convertBits _ hv)
    rw [hget]
    exact mem_cons_of_mem _ hc
  · exact mem_cons_self

lemma encodeBase32_inj {as bs : List UInt8} (hlen : as.length = bs.length) (h : encodeBase32 as = encodeBase32 bs) :
    as = bs := by
  have hbyte : ∀ bytes : List UInt8, ∀ v ∈ bytes.map UInt8.toNat, v < 2 ^ 8 := by
    intro bytes v hv
    obtain ⟨b, _, rfl⟩ := mem_map.mp hv
    exact b.toNat_lt
  have hlen' : (as.map UInt8.toNat).length = (bs.map UInt8.toNat).length := by simpa using hlen
  have hout : (convertBits 8 5 0 0 (as.map UInt8.toNat)).length =
    (convertBits 8 5 0 0 (bs.map UInt8.toNat)).length := by
    have ha := length_convertBits 8 (as.map UInt8.toNat) 0 (show 0 < 5 by decide)
    have hb := length_convertBits 8 (bs.map UInt8.toNat) 0 (show 0 < 5 by decide)
    rw [hlen', ← hb] at ha
    exact Nat.eq_of_mul_eq_mul_left (by decide) ha
  have htext := String.ofList_inj.mp h
  obtain ⟨hchars, _⟩ := append_inj htext (by simpa using hout)
  have hconv : convertBits 8 5 0 0 (as.map UInt8.toNat) = convertBits 8 5 0 0 (bs.map UInt8.toNat) := by
    apply ext_getElem hout
    intro i hi hi'
    have hchar : (List.map (fun v => (pbase32[v]?).getD '=') (convertBits 8 5 0 0 (as.map UInt8.toNat)))[i]? =
        (List.map (fun v => (pbase32[v]?).getD '=') (convertBits 8 5 0 0 (bs.map UInt8.toNat)))[i]? := by rw [hchars]
    rw [getElem?_map, getElem?_map, getElem?_eq_getElem hi, getElem?_eq_getElem hi'] at hchar
    exact base32_char_inj (lt_of_mem_convertBits _ (getElem_mem hi)) (lt_of_mem_convertBits _ (getElem_mem hi'))
      (Option.some.inj hchar)
  have hnats := convertBits_inj (show 0 < 8 by decide) (show 0 < 5 by decide) hlen' (hbyte as) (hbyte bs) hconv
  exact map_injective_iff.mpr (fun _ _ => UInt8.toNat_inj.mp) hnats

lemma ip_ext (ha : a.ip.length = 16) (hb : b.ip.length = 16)
    (h : ∀ n < 16, a.getByte n = b.getByte n) : a.ip = b.ip := by
  apply ext_getElem (ha.trans hb.symm)
  intro i hi hi'
  have hbyte := h (15 - i) (by omega)
  have hindex : 15 - (15 - i) = i := by omega
  simp only [getByte, hindex, getElem?_eq_getElem hi, getElem?_eq_getElem hi', Option.getD_some] at hbyte
  exact UInt8.toNat_inj.mp hbyte

lemma getByte_lt (a : CService) (n : Nat) : a.getByte n < 256 := UInt8.toNat_lt _

lemma getByte_of_take {k n : Nat} (h : a.ip.take k = b.ip.take k) (hn : 15 - n < k) :
    a.getByte n = b.getByte n := by
  have hget := congrArg (fun ip : List UInt8 => ip[15 - n]?) h
  simp only [getElem?_take_of_lt hn] at hget
  rw [getByte, getByte, hget]

inductive AddressKind (a : CService) : Prop
  | tor (hip : a.ip.take 6 = pchOnionCat) (htext : a.toStringIP = encodeBase32 (a.ip.drop 6) ++ ".onion")
  | internal (hip : a.ip.take 6 = g_internal_prefix) (htext : a.toStringIP = encodeBase32 (a.ip.drop 6) ++ ".internal")
  | ipv4 (hip : a.ip.take 12 = pchIPv4)
      (htext : a.toStringIP = ".".intercalate ([3, 2, 1, 0].map (fun n => toString (a.getByte n))))

lemma addressKind (h : (a.isIPv4 || a.isTor || a.isInternal) = true) : AddressKind a := by
  unfold isIPv4 isTor isInternal at h
  by_cases htor : a.isTor = true
  · exact .tor (eq_of_beq htor) (by simp [toStringIP, htor])
  · by_cases hinternal : a.isInternal = true
    · exact .internal (eq_of_beq hinternal) (by simp [toStringIP, htor, hinternal])
    · have hv4 : a.isIPv4 = true := by
        simp only [isTor, isInternal, isIPv4, Bool.or_eq_true] at *
        tauto
      exact .ipv4 (eq_of_beq hv4) (by simp [toStringIP, htor, hinternal, hv4])

lemma isDigit_of_mem_repr {n : Nat} (hc : c ∈ (toString n).toList) : c.isDigit = true := by
  have htext : toString n = String.ofList (Nat.toDigits 10 n) := Nat.toString_eq_ofList_toDigits
  rw [htext, String.toList_ofList] at hc
  exact Nat.isDigit_of_mem_toDigits (by decide) (by decide) hc

lemma mem_ipv4Text
    (hc : c ∈ (".".intercalate ([3, 2, 1, 0].map (fun n => toString (a.getByte n)))).toList) :
    c = '.' ∨ c.isDigit = true := by
  rw [String.toList_intercalate] at hc
  rcases mem_of_mem_intercalate hc with hsep | ⟨f, hf, hmem⟩
  · exact .inl hsep
  · obtain ⟨text, htext, rfl⟩ := mem_map.mp hf
    obtain ⟨n, _, rfl⟩ := mem_map.mp htext
    exact .inr (isDigit_of_mem_repr hmem)

lemma notMem_toStringIP (h : AddressKind a) (hbase : c ∉ '=' :: pbase32)
    (htor : c ∉ ".onion".toList) (hinternal : c ∉ ".internal".toList) (hdot : c ≠ '.')
    (hdigit : c.isDigit = false) : c ∉ a.toStringIP.toList := by
  intro hc
  cases h with
  | tor _ htext =>
    rw [htext, String.toList_append, mem_append] at hc
    exact hc.elim (fun hc => hbase (mem_encodeBase32 hc)) htor
  | internal _ htext =>
    rw [htext, String.toList_append, mem_append] at hc
    exact hc.elim (fun hc => hbase (mem_encodeBase32 hc)) hinternal
  | ipv4 _ htext =>
    rw [htext] at hc
    rcases mem_ipv4Text hc with heq | htrue
    · exact hdot heq
    · rw [hdigit] at htrue
      cases htrue

lemma colon_notMem (h : AddressKind a) : ':' ∉ a.toStringIP.toList :=
  notMem_toStringIP h (by decide) (by decide) (by decide) (by decide) (by decide)

lemma bracket_notMem (h : AddressKind a) : '[' ∉ a.toStringIP.toList :=
  notMem_toStringIP h (by decide) (by decide) (by decide) (by decide) (by decide)

lemma ip_of_prefix {p : List UInt8} {k : Nat} (ha : a.ip.take k = p) (hb : b.ip.take k = p)
    (h : a.ip.drop k = b.ip.drop k) : a.ip = b.ip := by
  rw [← take_append_drop k a.ip, ← take_append_drop k b.ip, ha, hb, h]

lemma ipv4_inj (ha : a.ip.length = 16) (hb : b.ip.length = 16) (hip : a.ip.take 12 = b.ip.take 12)
    (h : ".".intercalate ([3, 2, 1, 0].map (fun n => toString (a.getByte n))) =
      ".".intercalate ([3, 2, 1, 0].map (fun n => toString (b.getByte n)))) : a.ip = b.ip := by
  have hdot : ∀ (d : CService), ∀ f ∈ ([3, 2, 1, 0].map (fun n => toString (d.getByte n))).map String.toList,
    '.' ∉ f := by
    intro d f hf hmem
    obtain ⟨text, htext, rfl⟩ := mem_map.mp hf
    obtain ⟨n, _, rfl⟩ := mem_map.mp htext
    exact absurd (isDigit_of_mem_repr hmem) (by decide)
  have htext := congrArg String.toList h
  rw [String.toList_intercalate, String.toList_intercalate] at htext
  have hfields := intercalate_inj (by simp) (hdot a) (hdot b) htext
  have htail : ∀ n ∈ [3, 2, 1, 0], a.getByte n = b.getByte n := by
    intro n hn
    have hstrings := map_injective_iff.mpr (fun _ _ => String.toList_inj.mp) hfields
    exact Nat.repr_inj.mp (map_inj_left.mp hstrings n hn)
  apply ip_ext ha hb
  intro n hn
  by_cases hsmall : n < 4
  · exact htail n (by simp; omega)
  · exact getByte_of_take hip (by omega)

lemma toStringIP_inj (ha : a.ip.length = 16) (hb : b.ip.length = 16) (hka : AddressKind a)
    (hkb : AddressKind b) (h : a.toStringIP = b.toStringIP) : a.ip = b.ip := by
  have hdrop : (a.ip.drop 6).length = (b.ip.drop 6).length := by simp [ha, hb]
  -- texts of different kinds differ in their last character, or in that dotted ones have no letters
  have hlast : ∀ s t : String, s ++ ".onion" ≠ t ++ ".internal" := by
    intro s t heq
    have hend := congrArg (fun x : String => x.toList.getLast?) heq
    have ho : ".onion".toList.getLast? = some 'n' := by decide +kernel
    have hi : ".internal".toList.getLast? = some 'l' := by decide +kernel
    simp only [String.toList_append, getLast?_append, ho, hi, Option.some_or] at hend
    exact absurd hend (by decide)
  have hletter : ∀ (d : CService) (s t : String), 'n' ∈ t.toList →
      ".".intercalate ([3, 2, 1, 0].map (fun n => toString (d.getByte n))) ≠ s ++ t := by
    intro d s t hn heq
    have hmem : 'n' ∈ (".".intercalate ([3, 2, 1, 0].map (fun n => toString (d.getByte n)))).toList := by
      rw [heq, String.toList_append]
      exact mem_append_right _ hn
    rcases mem_ipv4Text hmem with hdot | hdigit
    · cases hdot
    · exact absurd hdigit (by decide)
  cases hka with
  | tor hipa hta =>
    cases hkb with
    | tor hipb htb =>
      rw [hta, htb] at h
      exact ip_of_prefix hipa hipb (encodeBase32_inj hdrop (String.append_left_inj _ |>.mp h))
    | internal hipb htb =>
      rw [hta, htb] at h
      exact absurd h (hlast _ _)
    | ipv4 hipb htb =>
      rw [hta, htb] at h
      exact absurd h.symm (hletter b _ _ (by decide))
  | internal hipa hta =>
    cases hkb with
    | tor hipb htb =>
      rw [hta, htb] at h
      exact absurd h.symm (hlast _ _)
    | internal hipb htb =>
      rw [hta, htb] at h
      exact ip_of_prefix hipa hipb (encodeBase32_inj hdrop (String.append_left_inj _ |>.mp h))
    | ipv4 hipb htb =>
      rw [hta, htb] at h
      exact absurd h.symm (hletter b _ _ (by decide))
  | ipv4 hipa hta =>
    cases hkb with
    | tor hipb htb =>
      rw [hta, htb] at h
      exact absurd h (hletter a _ _ (by decide))
    | internal hipb htb =>
      rw [hta, htb] at h
      exact absurd h (hletter a _ _ (by decide))
    | ipv4 hipb htb =>
      rw [hta, htb] at h
      exact ipv4_inj ha hb (hipa.trans hipb.symm) h

lemma ipv6Text (h : (a.isIPv4 || a.isTor || a.isInternal) = false) :
    a.toStringIP.toList = [':'].intercalate ([15, 13, 11, 9, 7, 5, 3, 1].map (fun n =>
      Nat.toDigits 16 (a.getByte n * 256 + a.getByte (n - 1)))) := by
  simp only [Bool.or_eq_false_iff] at h
  have hsep : ":".toList = [':'] := by decide +kernel
  simp only [toStringIP, h, Bool.false_eq_true, if_false, String.toList_intercalate, map_map, hsep,
    Function.comp_def, String.toList_ofList]

lemma notMem_ipv6Text (hdigit : ∀ n < 16, Nat.digitChar n ≠ c) (hsep : c ≠ ':') :
    c ∉ [':'].intercalate ([15, 13, 11, 9, 7, 5, 3, 1].map (fun n =>
      Nat.toDigits 16 (a.getByte n * 256 + a.getByte (n - 1)))) := by
  intro hmem
  rcases mem_of_mem_intercalate hmem with heq | ⟨f, hf, hmem⟩
  · exact hsep heq
  · obtain ⟨n, _, rfl⟩ := mem_map.mp hf
    exact notMem_toDigits hdigit _ hmem

lemma ipv6_inj (ha : a.ip.length = 16) (hb : b.ip.length = 16)
    (h : [':'].intercalate ([15, 13, 11, 9, 7, 5, 3,
      1].map (fun n => Nat.toDigits 16 (a.getByte n * 256 + a.getByte (n - 1)))) =
      [':'].intercalate ([15, 13, 11, 9, 7, 5, 3,
        1].map (fun n => Nat.toDigits 16 (b.getByte n * 256 + b.getByte (n - 1))))) :
    a.ip = b.ip := by
  have hcolon : ∀ (d : CService), ∀ f ∈ [15, 13, 11, 9, 7, 5, 3, 1].map (fun n =>
      Nat.toDigits 16 (d.getByte n * 256 + d.getByte (n - 1))), ':' ∉ f := by
    intro d f hf
    obtain ⟨n, _, rfl⟩ := mem_map.mp hf
    exact notMem_toDigits (by decide +kernel) _
  have hfields := intercalate_inj (by simp) (hcolon a) (hcolon b) h
  have hpair : ∀ n ∈ [15, 13, 11, 9, 7, 5, 3, 1], a.getByte n = b.getByte n ∧
    a.getByte (n - 1) = b.getByte (n - 1) := by
    intro n hn
    have hvalue := toDigits_inj (map_inj_left.mp hfields n hn)
    have h1 := getByte_lt a (n - 1)
    have h2 := getByte_lt b (n - 1)
    omega
  apply ip_ext ha hb
  intro n hn
  rcases Nat.even_or_odd' n with ⟨k, rfl | rfl⟩
  · have hk : 2 * k + 1 ∈ [15, 13, 11, 9, 7, 5, 3, 1] := by simp; omega
    exact (hpair _ hk).2
  · have hk : 2 * k + 1 ∈ [15, 13, 11, 9, 7, 5, 3, 1] := by simp; omega
    exact (hpair _ hk).1

lemma toStringIPPort_plain (h : (a.isIPv4 || a.isTor || a.isInternal) = true) :
    a.toStringIPPort.toList = a.toStringIP.toList ++ ':' :: (toString a.port).toList := by
  rw [toStringIPPort, if_pos h, String.toList_append, String.toList_append, append_assoc]
  rfl

lemma toStringIPPort_bracket (h : (a.isIPv4 || a.isTor || a.isInternal) = false) :
    a.toStringIPPort.toList = '[' :: (a.toStringIP.toList ++ ']' :: ':' :: (toString a.port).toList) := by
  rw [toStringIPPort, if_neg (by simp [h]), String.toList_append, String.toList_append, String.toList_append]
  simp

lemma plain_ne_bracket (h : AddressKind a) (rest rest' : List Char) :
    a.toStringIP.toList ++ ':' :: rest ≠ '[' :: rest' := by
  intro heq
  have hnot := bracket_notMem h
  cases htext : a.toStringIP.toList with
  | nil =>
    rw [htext] at heq
    exact absurd (List.cons.inj heq).1 (by decide)
  | cons c cs =>
    rw [htext] at heq hnot
    exact hnot ((List.cons.inj heq).1 ▸ mem_cons_self)

lemma toStringIPPort_inj (ha : a.ip.length = 16) (hb : b.ip.length = 16)
    (hport : a.port = b.port) {rest rest' : List Char}
    (h : a.toStringIPPort.toList ++ rest = b.toStringIPPort.toList ++ rest') :
    a.ip = b.ip ∧ rest = rest' := by
  cases hka : (a.isIPv4 || a.isTor || a.isInternal) with
  | false =>
    rw [toStringIPPort_bracket hka] at h
    cases hkb : (b.isIPv4 || b.isTor || b.isInternal) with
    | false =>
      have hclose : ∀ n < 16, Nat.digitChar n ≠ ']' := by decide
      rw [toStringIPPort_bracket hkb, ipv6Text hka, ipv6Text hkb, hport] at h
      simp only [cons_append, append_assoc, List.cons.injEq, true_and] at h
      obtain ⟨htext, hrest⟩ := split_inj (notMem_ipv6Text hclose (by decide)) (notMem_ipv6Text hclose (by decide)) h
      exact ⟨ipv6_inj ha hb htext, append_cancel_left (List.cons.inj hrest).2⟩
    | true =>
      rw [toStringIPPort_plain hkb] at h
      simp only [cons_append, append_assoc] at h
      exact absurd h.symm (plain_ne_bracket (addressKind hkb) _ _)
  | true =>
    rw [toStringIPPort_plain hka] at h
    cases hkb : (b.isIPv4 || b.isTor || b.isInternal) with
    | false =>
      rw [toStringIPPort_bracket hkb] at h
      simp only [cons_append, append_assoc] at h
      exact absurd h (plain_ne_bracket (addressKind hka) _ _)
    | true =>
      rw [toStringIPPort_plain hkb, hport] at h
      simp only [cons_append, append_assoc] at h
      obtain ⟨htext, hrest⟩ := split_inj (colon_notMem (addressKind hka)) (colon_notMem (addressKind hkb)) h
      exact ⟨toStringIP_inj ha hb (addressKind hka) (addressKind hkb) (String.toList_inj.mp htext),
        append_cancel_left hrest⟩

lemma service_ext (hip : a.ip = b.ip) (hport : a.port = b.port) : a = b := by
  cases a
  cases b
  cases hip
  cases hport
  rfl

variable {E : MasternodeEnv}

lemma port_of_simpleCheck {now : MasternodeMoment} {mnb : CMasternodeBroadcast}
    (h : (mnb.simpleCheck E now).ok = true) :
    mnb.addr.port = E.nDefaultPort := by
  by_contra hport
  rw [CMasternodeBroadcast.simpleCheck] at h
  split_ifs at h

/-- Two announcements that pass the check, with protocol versions of the same width, have the same signed string if and
only if they agree in address, time, key ids and protocol version. -/
theorem strMessage_eq_iff {now now' : MasternodeMoment} {a b : CMasternodeBroadcast}
    (ha : (a.simpleCheck E now).ok = true) (hb : (b.simpleCheck E now').ok = true)
    (hwidth : (toString a.nProtocolVersion).length = (toString b.nProtocolVersion).length) :
    a.strMessage E = b.strMessage E ↔ a.addr = b.addr ∧ a.sigTime = b.sigTime ∧
      E.getID a.pubKeyCollateralAddress = E.getID b.pubKeyCollateralAddress ∧
      E.getID a.pubKeyMasternode = E.getID b.pubKeyMasternode ∧ a.nProtocolVersion = b.nProtocolVersion := by
  constructor
  · intro h
    have hport : a.addr.port = b.addr.port := (port_of_simpleCheck ha).trans (port_of_simpleCheck hb).symm
    have htext := congrArg String.toList h
    simp only [CMasternodeBroadcast.strMessage, String.toList_append, append_assoc] at htext
    obtain ⟨hip, hrest⟩ := toStringIPPort_inj a.ip_length b.ip_length hport htext
    -- from the end: the version and the ids have fixed widths
    have hid : ∀ c : CPubKey, (hexStr (E.getID c).reverse).toList.length = 40 := by
      intro c
      rw [hexStr, String.toList_ofList, length_hexText, length_reverse, E.getID_length]
    have hversion : (toString a.nProtocolVersion).toList.length = (toString b.nProtocolVersion).toList.length := by
      rw [String.length_toList, String.length_toList]
      exact hwidth
    obtain ⟨htime, hrest⟩ := append_inj' hrest (by simp only [length_append, hid, hversion])
    obtain ⟨hcollateral, hrest⟩ := append_inj' hrest (by simp only [length_append, hid, hversion])
    obtain ⟨hmasternode, hprotocol⟩ := append_inj' hrest hversion
    have hbytes : ∀ {c d : CPubKey}, (hexStr (E.getID c).reverse).toList = (hexStr (E.getID d).reverse).toList →
        E.getID c = E.getID d := by
      intro c d heq
      simp only [hexStr, String.toList_ofList] at heq
      exact reverse_injective (hexText_inj heq)
    refine ⟨?_, Int.repr_injective (String.toList_inj.mp htime), hbytes hcollateral, hbytes hmasternode,
      Int.repr_injective (String.toList_inj.mp hprotocol)⟩
    exact service_ext hip hport
  · rintro ⟨haddr, htime, hcollateral, hmasternode, hprotocol⟩
    simp only [CMasternodeBroadcast.strMessage, haddr, htime, hcollateral, hmasternode, hprotocol]

def plainMasternodeEnv : MasternodeEnv where
  networkID := .main
  nDefaultPort := 3337
  isReachable := fun _ => true
  getID := fun pubKey => (pubKey ++ List.replicate 20 0).take 20
  getID_length := by simp
  verifyMessage := fun _ _ _ => true

def announcement (prevout burn : COutPoint) (pubKeyMasternode : CPubKey) (sigTime nProtocolVersion : Int) :
    CMasternodeBroadcast where
  vin := ⟨prevout, [], SEQUENCE_FINAL, []⟩
  vinBurnFund := ⟨burn, [], SEQUENCE_FINAL, []⟩
  addr := ⟨pchIPv4 ++ [8, 8, 8, 8], 3337⟩
  pubKeyCollateralAddress := List.replicate 20 0x11
  pubKeyMasternode := pubKeyMasternode
  vchSig := []
  sigTime := sigTime
  nProtocolVersion := nProtocolVersion
  lastPing := {}
  ip_length := rfl

def someMoment : MasternodeMoment := ⟨1000, fun _ => false, false⟩

theorem strMessage_ne_masternodeKey :
    (announcement ⟨7, 0⟩ ⟨8, 0⟩ (List.replicate 20 0x11) 1 250000).strMessage plainMasternodeEnv ≠
      (announcement ⟨7, 0⟩ ⟨8, 0⟩ (List.replicate 20 0x12) 1 250000).strMessage plainMasternodeEnv := by
  have ha : ((announcement ⟨7, 0⟩ ⟨8, 0⟩ (List.replicate 20 0x11) 1 250000).simpleCheck plainMasternodeEnv
    someMoment).ok = true := by
    decide +kernel
  have hb : ((announcement ⟨7, 0⟩ ⟨8, 0⟩ (List.replicate 20 0x12) 1 250000).simpleCheck plainMasternodeEnv
    someMoment).ok = true := by
    decide +kernel
  intro h
  exact absurd ((strMessage_eq_iff ha hb rfl).mp h).2.2.2.1 (by decide)

/-- Announcements that differ in an outpoint only have the same string; so do two that move a digit from the protocol
version to the time, with key ids all of whose digits are that digit. -/
theorem strMessage_collisions :
    (∃ a b : CMasternodeBroadcast, (a.simpleCheck plainMasternodeEnv someMoment).ok = true ∧
        (b.simpleCheck plainMasternodeEnv someMoment).ok = true ∧ a.vin.prevout ≠ b.vin.prevout ∧
        a.vinBurnFund.prevout ≠ b.vinBurnFund.prevout ∧
          a.strMessage plainMasternodeEnv = b.strMessage plainMasternodeEnv) ∧
      ∃ a b : CMasternodeBroadcast, (a.simpleCheck plainMasternodeEnv someMoment).ok = true ∧
        (b.simpleCheck plainMasternodeEnv someMoment).ok = true ∧ a.sigTime ≠ b.sigTime ∧
        a.nProtocolVersion ≠ b.nProtocolVersion ∧
          a.strMessage plainMasternodeEnv = b.strMessage plainMasternodeEnv := by
  refine ⟨⟨announcement ⟨7, 0⟩ ⟨8, 0⟩ (List.replicate 20 0x11) 1 250000,
    announcement ⟨9, 0⟩ ⟨10, 0⟩ (List.replicate 20 0x11) 1 250000, ?_⟩,
    announcement ⟨7, 0⟩ ⟨8, 0⟩ (List.replicate 20 0x11) 1 1250000,
    announcement ⟨7, 0⟩ ⟨8, 0⟩ (List.replicate 20 0x11) 11 250000, ?_⟩
  · decide +kernel
  · decide +kernel

end Qstees.Proofs
