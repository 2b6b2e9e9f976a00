import Qstees.Model.Infinitynode

/-!
# The events of a block

Where the events of a scan come from, and what a longer chain keeps of them.
-/

namespace Qstees.Proofs

open List Event

/-- A node as its registration made it: without the time it was read at, its rank, its last reward
and its metadata. -/
def registered (inf : CInfinitynode) : CInfinitynode :=
  { inf with
    sigTime := 0, nLastRewardHeight := -1, nRank := 0, metadataNodeAddress := "NodeAddress", metadataService := {} }

section Block

variable {E : InfinityEnv} {C : Chain} {x : Int}

variable {e : Event} {i : Nat} {inf : CInfinitynode} {y h low : Int}

lemma mem_scanEvents :
    e ∈ scanEvents E C h low ↔ (∃ x, max low 0 ≤ x ∧ x ≤ h ∧ e ∈ blockEvents E C x) ∨ (low ≤ 0 ∧ e = .abort) := by
  unfold scanEvents
  rw [mem_append, mem_flatMap]
  refine or_congr ?_ ?_
  · constructor
    · rintro ⟨k, hk, he⟩
      have hlt := mem_range.mp hk
      exact ⟨h - k, by omega, by omega, he⟩
    · rintro ⟨x, hlow, hle, he⟩
      refine ⟨(h - x).toNat, mem_range.mpr (by omega), ?_⟩
      have hx : h - ((h - x).toNat : Int) = x := by omega
      rwa [hx]
  · split_ifs with hlow
    · simp [hlow]
    · simp [hlow]

lemma clean_scanEvents (hclean : Event.abort ∉ scanEvents E C h low) :
    0 < low ∧ ∀ x, low ≤ x → x ≤ h → Event.abort ∉ blockEvents E C x := by
  have hpos : 0 < low := by
    by_contra hlow
    exact hclean (mem_scanEvents.mpr (.inr ⟨not_lt.mp hlow, rfl⟩))
  refine ⟨hpos, ?_⟩
  intro x hlow hx habort
  exact hclean (mem_scanEvents.mpr (.inl ⟨x, by omega, hx, habort⟩))

lemma mem_blockEvents (h : e ∈ blockEvents E C x) (hne : e ≠ .abort) :
    ∃ block, C.readBlock x = some block ∧ ∃ tx ∈ block.vtx, e ∈ txEvents E C x block tx := by
  unfold blockEvents at h
  split at h
  · simp [hne] at h
  · next block hblock =>
    obtain ⟨tx, htx, he⟩ := mem_flatMap.mp h
    exact ⟨block, hblock, tx, htx, he⟩

variable {tx : CTransaction} {out : CTxOut}

lemma mem_voteEvents {event : CVote → Event}
    {data : List (List UInt8)} (he : e ∈ voteEvents E C event x tx out data) :
    e = .abort ∨ ∃ vote, e = event vote := by
  unfold voteEvents at he
  split at he
  · split_ifs at he
    · split at he
      · exact .inl (mem_singleton.mp he)
      · exact .inr ⟨_, mem_singleton.mp he⟩
    · cases he
  · cases he

lemma mem_metadataWords {check : Nat} {words : List (List UInt8)}
    (hcheck : i = 0 → check = 0) (he : e ∈ metadataWords E C x tx i check words) :
    e = .abort ∨ ∃ owner service, e = .metadata owner "" service x := by
  induction words generalizing i check with
  | nil => simp [metadataWords] at he
  | cons w words ih =>
    rw [metadataWords] at he
    rcases mem_append.mp he with hupdate | hrest
    · by_cases hi : i = 0
      · -- at most the address has been seen, so there are not two checks yet
        subst hi
        simp only [hcheck rfl] at hupdate
        split_ifs at hupdate <;> simp_all
      · simp only [hi, if_false, false_and, E.keyIO.encode_none] at hupdate
        rw [mem_ite_nil_right] at hupdate
        cases hfund : funding E C tx with
        | none =>
          rw [hfund] at hupdate
          exact .inl (mem_singleton.mp hupdate.2)
        | some fund =>
          rw [hfund] at hupdate
          exact .inr ⟨_, _, mem_singleton.mp hupdate.2⟩
    · exact ih (fun hi => absurd hi (Nat.succ_ne_zero i)) hrest

lemma mem_metadataEvents {data : List (List UInt8)}
    (he : e ∈ metadataEvents E C x tx out data) :
    e = .abort ∨ ∃ owner service, e = .metadata owner "" service x := by
  unfold metadataEvents at he
  split at he
  · split_ifs at he
    · exact mem_metadataWords (fun _ => rfl) he
    · cases he
  · cases he

lemma mem_outputEvents (he : e ∈ outputEvents E C x tx i out)
    (hne : e ≠ .abort) :
    (∃ b id data, solver out.scriptPubKey = .ok ⟨b, .burnData, id :: data⟩ ∧ registerEvent E C x tx i out data = e) ∨
      (∃ vote, e = .burnVote vote ∨ e = .governanceVote vote) ∨ ∃ owner service, e = .metadata owner "" service x := by
  unfold outputEvents at he
  split at he
  · exact absurd (mem_singleton.mp he) hne
  · next b id data hsolver =>
    simp only [mem_append, mem_ite_nil_right] at he
    rcases he with (⟨-, ⟨-, hreg⟩ | hvote⟩ | ⟨-, hvote⟩) | ⟨-, hmeta⟩
    · exact .inl ⟨b, id, data, hsolver, (mem_singleton.mp hreg).symm⟩
    · obtain ⟨vote, rfl⟩ := (mem_voteEvents hvote).resolve_left hne
      exact .inr (.inl ⟨vote, .inl rfl⟩)
    · obtain ⟨vote, rfl⟩ := (mem_voteEvents hvote).resolve_left hne
      exact .inr (.inl ⟨vote, .inr rfl⟩)
    · exact .inr (.inr ((mem_metadataEvents hmeta).resolve_left hne))
  · cases he

lemma registerEvent_cases (tx : CTransaction) (i : Nat) (out : CTxOut) (data : List (List UInt8)) :
    registerEvent E C x tx i out data = .abort ∨ ∃ inf, registerEvent E C x tx i out data = .register inf ∧
      inf.nHeight = x ∧ inf.vinBurnFund = ⟨tx.hash, i⟩ ∧ registered inf = inf := by
  unfold registerEvent
  split
  · exact .inl rfl
  · exact .inr ⟨_, rfl, rfl, rfl, rfl⟩

/-- A transaction of a block and the output that a registration comes from. -/
structure RegisteredBy (E : InfinityEnv) (C : Chain) (x : Int) (block : CBlock) (tx : CTransaction) (i : Nat)
    (inf : CInfinitynode) : Prop where
  block_eq : C.readBlock x = some block
  mem : tx ∈ block.vtx
  event : ∃ out b id data, tx.vout[i]? = some out ∧ solver out.scriptPubKey = .ok ⟨b, .burnData, id :: data⟩ ∧
    registerEvent E C x tx i out data = .register inf

variable {block : CBlock}

lemma mem_txEvents (he : e ∈ txEvents E C x block tx)
    (hne : e ≠ .abort) :
    (∃ p, e = .paid p x) ∨ ∃ i out, tx.vout[i]? = some out ∧ e ∈ outputEvents E C x tx i out := by
  unfold txEvents at he
  split_ifs at he with hcb
  · obtain ⟨out, -, rfl⟩ := mem_map.mp he
    exact .inl ⟨_, rfl⟩
  · obtain ⟨⟨out, i⟩, hout, he⟩ := mem_flatMap.mp he
    exact .inr ⟨i, out, mem_zipIdx_iff_getElem?.mp hout, he⟩

lemma blockEvents_cases (h : e ∈ blockEvents E C x) (hne : e ≠ .abort) :
    (∃ p, e = .paid p x) ∨ (∃ block tx i inf, e = .register inf ∧ RegisteredBy E C x block tx i inf) ∨
      (∃ vote, e = .burnVote vote ∨ e = .governanceVote vote) ∨ ∃ owner service, e = .metadata owner "" service x := by
  obtain ⟨block, hblock, tx, htx, he⟩ := mem_blockEvents h hne
  rcases mem_txEvents he hne with hpaid | ⟨i, out, hout, he⟩
  · exact .inl hpaid
  · rcases mem_outputEvents he hne with ⟨b, id, data, hsolver, rfl⟩ | hrest
    · rcases registerEvent_cases tx i out data with habort | ⟨inf, hinf, -⟩
      · exact absurd habort hne
      · exact .inr (.inl ⟨block, tx, i, inf, hinf, hblock, htx, out, b, id, data, hout, hsolver, hinf⟩)
    · exact .inr (.inr hrest)

lemma register_mem_blockEvents (h : register inf ∈ blockEvents E C x) :
    ∃ block tx i, RegisteredBy E C x block tx i inf := by
  rcases blockEvents_cases h (by simp) with ⟨p, hp⟩ | ⟨block, tx, i, inf', heq, hby⟩ | ⟨vote, hvote⟩
    | ⟨owner, service, hmeta⟩
  · cases hp
  · cases heq
    exact ⟨block, tx, i, hby⟩
  · simp at hvote
  · cases hmeta

lemma RegisteredBy.facts
    (h : RegisteredBy E C x block tx i inf) :
    inf.nHeight = x ∧ inf.vinBurnFund = ⟨tx.hash, i⟩ ∧ registered inf = inf := by
  obtain ⟨out, b, id, data, -, -, hreg⟩ := h.event
  rcases registerEvent_cases tx i out data with habort | ⟨inf', hinf', hfacts⟩
  · rw [habort] at hreg
    cases hreg
  · rw [hinf'] at hreg
    cases hreg
    exact hfacts

lemma registered_of_mem (h : register inf ∈ blockEvents E C x) :
    inf.nHeight = x ∧ registered inf = inf := by
  obtain ⟨block, tx, i, hby⟩ := register_mem_blockEvents h
  exact ⟨hby.facts.1, hby.facts.2.2⟩

lemma paid_mem_blockEvents {p : CScript} (h : paid p y ∈ blockEvents E C x) : y = x := by
  rcases blockEvents_cases h (by simp) with ⟨q, hq⟩ | ⟨block, tx, i, inf, hreg, -⟩ | ⟨vote, hvote⟩
    | ⟨owner, service, hmeta⟩
  · cases hq
    rfl
  · cases hreg
  · simp at hvote
  · cases hmeta

lemma metadata_mem_blockEvents {owner address : String} {service : CService}
    (h : metadata owner address service y ∈ blockEvents E C x) : address = "" := by
  rcases blockEvents_cases h (by simp) with ⟨q, hq⟩ | ⟨block, tx, i, inf, hreg, -⟩ | ⟨vote, hvote⟩
    | ⟨owner, service, hmeta⟩
  · cases hq
  · cases hreg
  · simp at hvote
  · cases hmeta
    rfl

def UniqueTxids (C : Chain) : Prop :=
  ∀ x y block block', C.readBlock x = some block → C.readBlock y = some block' → ∀ tx ∈ block.vtx, ∀ tx' ∈ block'.vtx,
    tx.hash = tx'.hash → x = y ∧ tx = tx'

lemma register_unique (hC : UniqueTxids C) {inf' : CInfinitynode}
    (h : register inf ∈ blockEvents E C x) (h' : register inf' ∈ blockEvents E C y)
    (ho : inf.vinBurnFund = inf'.vinBurnFund) : inf = inf' := by
  obtain ⟨block, tx, i, hby⟩ := register_mem_blockEvents h
  obtain ⟨block', tx', i', hby'⟩ := register_mem_blockEvents h'
  rw [hby.facts.2.1, hby'.facts.2.1] at ho
  obtain ⟨hhash, rfl⟩ := COutPoint.mk.inj ho
  obtain ⟨rfl, rfl⟩ := hC x y block block' hby.block_eq hby'.block_eq tx hby.mem tx' hby'.mem hhash
  obtain ⟨out, b, id, data, hout, hsolver, hreg⟩ := hby.event
  obtain ⟨out', b', id', data', hout', hsolver', hreg'⟩ := hby'.event
  cases hout.symm.trans hout'
  rw [hsolver] at hsolver'
  cases hsolver'
  exact register.inj (hreg.symm.trans hreg')

end Block

/-- The blocks and transactions of a chain are still there in another one. -/
structure ChainExtends (C C' : Chain) : Prop where
  height_le : C.height ≤ C'.height
  blocks : ∀ x ≤ C.height, C'.readBlock x = C.readBlock x
  transactions : ∀ hash tx, C.getTransaction hash = some tx → C'.getTransaction hash = some tx

lemma ChainExtends.refl (C : Chain) : ChainExtends C C :=
  ⟨le_rfl, fun _ _ => rfl, fun _ _ h => h⟩

def untilAbort (events : List Event) : List Event := events.takeWhile (fun e => e ≠ .abort)

variable {events : List Event}

lemma untilAbort_eq_self (h : Event.abort ∉ events) : untilAbort events = events := by
  refine takeWhile_eq_self_iff.mpr ?_
  intro e he
  exact decide_eq_true (fun habort => h (habort ▸ he))

lemma untilAbort_append_of_mem (h : Event.abort ∈ events) (events' : List Event) :
    untilAbort (events ++ events') = untilAbort events := by
  refine takeWhile_append.trans (if_neg ?_)
  intro hlen
  have hself : events.takeWhile (fun e => e ≠ .abort) = events := (List.takeWhile_prefix _).eq_of_length hlen
  simpa using takeWhile_eq_self_iff.mp hself _ h

lemma untilAbort_append_of_notMem (h : Event.abort ∉ events) (events' : List Event) :
    untilAbort (events ++ events') = events ++ untilAbort events' :=
  takeWhile_append_of_pos (fun _ he => decide_eq_true (fun habort => h (habort ▸ he)))

/-- What a chain that knows more makes of a list of events: the same, or it may go on after the abort. -/
structure Resumes (events events' : List Event) : Prop where
  upto : untilAbort events <+: events'
  eq : Event.abort ∉ events → events' = events

lemma Resumes.refl (events : List Event) : Resumes events events := ⟨List.takeWhile_prefix _, fun _ => rfl⟩

lemma Resumes.abort (events : List Event) : Resumes [.abort] events := ⟨by simp [untilAbort], by simp⟩

lemma Resumes.append {a a' b b' : List Event} (ha : Resumes a a') (hb : Resumes b b') :
    Resumes (a ++ b) (a' ++ b') := by
  by_cases habort : Event.abort ∈ a
  · refine ⟨?_, fun h => absurd (mem_append_left b habort) h⟩
    rw [untilAbort_append_of_mem habort]
    exact ha.upto.trans (prefix_append a' b')
  · rw [ha.eq habort]
    refine ⟨?_, ?_⟩
    · rw [untilAbort_append_of_notMem habort]
      exact (prefix_append_right_inj a).mpr hb.upto
    · intro h
      rw [hb.eq (fun hmem => h (mem_append_right a hmem))]

lemma Resumes.flatMap {α : Type} {l : List α} {f g : α → List Event} (h : ∀ x ∈ l, Resumes (f x) (g x)) :
    Resumes (l.flatMap f) (l.flatMap g) := by
  induction l with
  | nil => exact .refl []
  | cons x l ih =>
    rw [forall_mem_cons] at h
    exact h.1.append (ih h.2)

lemma Resumes.ite {p : Prop} [Decidable p] {events' : List Event} (h : Resumes events events') :
    Resumes (if p then events else []) (if p then events' else []) := by
  split_ifs
  · exact h
  · exact .refl []

section Extends

variable {E : InfinityEnv} {C C' : Chain} {x : Int} {tx : CTransaction} {out : CTxOut} {data : List (List UInt8)}

section

variable (hC : ChainExtends C C')
include hC

lemma funding_extends {fund : CScript × CTxDestination} (h : funding E C tx = some fund) :
    funding E C' tx = some fund := by
  unfold funding at h ⊢
  obtain ⟨txin, htxin, h⟩ := Option.bind_eq_some_iff.mp h
  obtain ⟨prevtx, hprevtx, h⟩ := Option.bind_eq_some_iff.mp h
  refine Option.bind_eq_some_iff.mpr ⟨txin, htxin, ?_⟩
  exact Option.bind_eq_some_iff.mpr ⟨prevtx, hC.transactions _ _ hprevtx, h⟩

lemma registerEvent_resumes (i : Nat) :
    Resumes [registerEvent E C x tx i out data] [registerEvent E C' x tx i out data] := by
  unfold registerEvent
  cases hfund : funding E C tx with
  | none => exact .abort _
  | some fund =>
    rw [funding_extends hC hfund]
    exact .refl _

lemma voteEvents_resumes (event : CVote → Event) :
    Resumes (voteEvents E C event x tx out data) (voteEvents E C' event x tx out data) := by
  unfold voteEvents
  split
  · next voteOpinion =>
    refine Resumes.ite ?_
    cases hfund : funding E C tx with
    | none => exact .abort _
    | some fund =>
      rw [funding_extends hC hfund]
      exact .refl _
  · exact .refl []

lemma metadataWords_resumes (i check : Nat) (words : List (List UInt8)) :
    Resumes (metadataWords E C x tx i check words) (metadataWords E C' x tx i check words) := by
  induction words generalizing i check with
  | nil => exact .refl []
  | cons w words ih =>
    rw [metadataWords, metadataWords]
    refine Resumes.append (Resumes.ite ?_) (ih _ _)
    cases hfund : funding E C tx with
    | none => exact .abort _
    | some fund =>
      rw [funding_extends hC hfund]
      exact .refl _

lemma metadataEvents_resumes :
    Resumes (metadataEvents E C x tx out data) (metadataEvents E C' x tx out data) := by
  unfold metadataEvents
  split
  · exact Resumes.ite (metadataWords_resumes hC _ _ _)
  · exact .refl []

lemma outputEvents_resumes (i : Nat) :
    Resumes (outputEvents E C x tx i out) (outputEvents E C' x tx i out) := by
  unfold outputEvents
  split
  · exact .refl _
  · refine Resumes.append (Resumes.append (Resumes.ite (Resumes.append (Resumes.ite ?_) ?_)) (Resumes.ite ?_))
      (Resumes.ite ?_)
    · exact registerEvent_resumes hC i
    · exact voteEvents_resumes hC _
    · exact voteEvents_resumes hC _
    · exact metadataEvents_resumes hC
  · exact .refl []

lemma blockEvents_resumes (hx : x ≤ C.height) :
    Resumes (blockEvents E C x) (blockEvents E C' x) := by
  unfold blockEvents
  rw [hC.blocks x hx]
  split
  · exact .refl _
  · refine Resumes.flatMap ?_
    intro tx _
    unfold txEvents
    split_ifs
    · exact .refl _
    · exact Resumes.flatMap (fun out _ => outputEvents_resumes hC out.2)

lemma scanEvents_resumes {h : Int} (low : Int) (hh : h ≤ C.height) :
    Resumes (scanEvents E C h low) (scanEvents E C' h low) := by
  unfold scanEvents
  refine Resumes.append (Resumes.flatMap ?_) (.refl _)
  intro k _
  exact blockEvents_resumes hC (by omega)

lemma scanEvents_extends (hh : h ≤ C.height)
    (hclean : Event.abort ∉ scanEvents E C h low) : scanEvents E C' h low = scanEvents E C h low :=
  (scanEvents_resumes hC low hh).eq hclean

end

end Extends

/-- The address on the test networks of the key hash of twenty bytes `7`, which owns the nodes of the example. -/
def ownerAddress : String := "SMwABTfM7CFDEe8Ewfqy1NeCcbfQSfwcRe"

/-- The address of the key hash of twenty bytes `3`. -/
def nodeAddress : String := "SMZvfgJNtindgjeN9FMTbxeQdqzGwXnBRF"

/-- What `EncodeDestination` and `DecodeDestination` give for the addresses of the example. -/
def exampleKeyIO : KeyIO where
  encodeDestination := fun
    | .keyID id =>
      if id = List.replicate 20 1 then "SMPJunctnV4LunQRk37CuFeWeU9iBDoZwx"
      else if id = List.replicate 20 2 then "SMUcnjTdqbvVJG2PweELFc9TeA4zYQR6qY"
      else if id = List.replicate 20 3 then nodeAddress
      else if id = List.replicate 20 7 then ownerAddress
      else ""
    | _ => ""
  decodeDestination := fun s => if s = nodeAddress then .keyID (List.replicate 20 3) else .noDestination
  encode_none := rfl
  decode_empty := rfl
  decode_default := rfl

/-- A test network that burns to addresses of known keys. -/
def exampleEnv : InfinityEnv where
  params :=
    { finalParams 100 with
      cBurnAddress := "SMPJunctnV4LunQRk37CuFeWeU9iBDoZwx"
      cMetadataAddress := "SMUcnjTdqbvVJG2PweELFc9TeA4zYQR6qY" }
  hashes := ⟨id, id, id, id, id⟩
  keyIO := exampleKeyIO
  lookup := fun s => if s = "ip" then some { port := 1 } else none

/-- The bytes of `nodeAddress` and of ` ip`. -/
def examplePayload : List UInt8 :=
  [0x53, 0x4d, 0x5a, 0x76, 0x66, 0x67, 0x4a, 0x4e, 0x74, 0x69, 0x6e, 0x64, 0x67, 0x6a, 0x65, 0x4e, 0x39, 0x46, 0x4d,
   0x54, 0x62, 0x78, 0x65, 0x51, 0x64, 0x71, 0x7a, 0x47, 0x77, 0x58, 0x6e, 0x42, 0x52, 0x46, 0x20, 0x69, 0x70]

/-- The coinbases: the first block funds three burns, and one block pays a node. -/
def exampleCoinbaseAt (x : Int) : CTransaction :=
  ⟨[⟨⟨0, 0xffffffff⟩, [], 0, []⟩],
    if x = 1 then [1000000, 1000000, 100000].map (fun nCoins => ⟨nCoins * COIN, keyIDScript (List.replicate 20 7), -10⟩)
    else if x = 155 then [⟨8 * COIN, [0x51], -10⟩]
    else [], 1, 0, x.toNat⟩

/-- A burn of one output of the first coinbase. -/
def exampleBurn (hash n : Nat) (nCoins : Int) (id data : List UInt8) : CTransaction :=
  ⟨[⟨⟨1, n⟩, [], 0, []⟩], [⟨nCoins * COIN, getScriptForBurn id data, -10⟩], 1, 0, hash⟩

/-- Two nodes of the highest tier and one metadata transaction of their owner. -/
def exampleBurns (x : Int) : List CTransaction :=
  if x = 100 then [exampleBurn 1000 0 1000000 (List.replicate 20 1) []]
  else if x = 111 then [exampleBurn 1001 1 1000000 (List.replicate 20 1) []]
  else if x = 165 then [exampleBurn 1002 2 100000 (List.replicate 20 2) examplePayload]
  else []

def exampleChain : Chain where
  height := 200
  readBlock := fun x => if 0 ≤ x ∧ x ≤ 200 then some ⟨exampleCoinbaseAt x :: exampleBurns x⟩ else none
  getTransaction := fun hash => if hash ≤ 200 then some (exampleCoinbaseAt hash) else none

lemma exampleBurns_mem {x : Int} (htx : tx ∈ exampleBurns x) :
    (x = 100 ∧ tx = exampleBurn 1000 0 1000000 (List.replicate 20 1) []) ∨
      (x = 111 ∧ tx = exampleBurn 1001 1 1000000 (List.replicate 20 1) []) ∨
      (x = 165 ∧ tx = exampleBurn 1002 2 100000 (List.replicate 20 2) examplePayload) := by
  unfold exampleBurns at htx
  split_ifs at htx with h100 h111 h165
  · exact .inl ⟨h100, mem_singleton.mp htx⟩
  · exact .inr (.inl ⟨h111, mem_singleton.mp htx⟩)
  · exact .inr (.inr ⟨h165, mem_singleton.mp htx⟩)
  · cases htx

lemma exampleChain_hash {x : Int} (hblock : exampleChain.readBlock x = some block)
    (htx : tx ∈ block.vtx) : (tx.hash = x.toNat ∧ 0 ≤ x ∧ x ≤ 200 ∧ tx = exampleCoinbaseAt x) ∨
      (tx.hash ≥ 1000 ∧ tx ∈ exampleBurns x) := by
  obtain ⟨hrange, hblock⟩ := Option.ite_none_right_eq_some.mp hblock
  cases hblock
  rcases mem_cons.mp htx with rfl | hburn
  · exact .inl ⟨rfl, hrange.1, hrange.2, rfl⟩
  · refine .inr ⟨?_, hburn⟩
    rcases exampleBurns_mem hburn with ⟨-, rfl⟩ | ⟨-, rfl⟩ | ⟨-, rfl⟩ <;> simp [exampleBurn]

lemma exampleChain_unique : UniqueTxids exampleChain := by
  intro x y block block' hblock hblock' tx htx tx' htx' hhash
  rcases exampleChain_hash hblock htx with ⟨hx, hx0, hx200, rfl⟩ | ⟨hge, hburn⟩ <;>
    rcases exampleChain_hash hblock' htx' with ⟨hy, hy0, hy200, rfl⟩ | ⟨hge', hburn'⟩
  · have hheight : x.toNat = y.toNat := hx.symm.trans (hhash.trans hy)
    obtain rfl : x = y := by omega
    exact ⟨rfl, rfl⟩
  · have hheight : x.toNat ≥ 1000 := hge'.trans_eq (hhash.symm.trans hx)
    omega
  · have hheight : y.toNat ≥ 1000 := hge.trans_eq (hhash.trans hy)
    omega
  · rcases exampleBurns_mem hburn with ⟨rfl, rfl⟩ | ⟨rfl, rfl⟩ | ⟨rfl, rfl⟩ <;>
      rcases exampleBurns_mem hburn' with ⟨rfl, rfl⟩ | ⟨rfl, rfl⟩ | ⟨rfl, rfl⟩ <;> simp [exampleBurn] at hhash ⊢

end Qstees.Proofs
