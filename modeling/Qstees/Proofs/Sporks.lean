import Qstees.Library.Replay
import Qstees.Library.Runs
import Qstees.Library.Traversal
import Qstees.Model.Spork

/-!
# Sporks

The signed string of a spork message is the text of three numbers without a border between them.
-/

namespace Qstees.Proofs

open Replay List CSporkManager CSporkMessage

def width (i : Int) : Nat := (toString i).length

/-- At least two of the three numbers of two messages are written with the same number of characters. -/
def BordersMatch (m m' : CSporkMessage) : Prop :=
  (width m.nSporkID = width m'.nSporkID ∧ width m.nValue = width m'.nValue) ∨
    (width m.nSporkID = width m'.nSporkID ∧ width m.nTimeSigned = width m'.nTimeSigned) ∨
    (width m.nValue = width m'.nValue ∧ width m.nTimeSigned = width m'.nTimeSigned)

lemma length_strMessage (m : CSporkMessage) :
    m.strMessage.length = width m.nSporkID + width m.nValue + width m.nTimeSigned := by
  simp [strMessage, width]

lemma eq_of_strMessage_eq {m m' : CSporkMessage} (hborders : BordersMatch m m') (h : m.strMessage = m'.strMessage) :
    m.nSporkID = m'.nSporkID ∧ m.nValue = m'.nValue ∧ m.nTimeSigned = m'.nTimeSigned := by
  have hlen := congrArg String.length h
  rw [length_strMessage, length_strMessage] at hlen
  have hid : width m.nSporkID = width m'.nSporkID := by
    unfold BordersMatch at hborders
    omega
  have hvalue : width m.nValue = width m'.nValue := by
    unfold BordersMatch at hborders
    omega
  have hlist := congrArg String.toList h
  simp only [strMessage, String.toList_append, append_assoc] at hlist
  obtain ⟨hids, hlist⟩ := append_inj hlist (by simpa only [String.length_toList, width] using hid)
  obtain ⟨hvalues, htimes⟩ := append_inj hlist (by simpa only [String.length_toList, width] using hvalue)
  exact ⟨Int.repr_injective (String.toList_inj.mp hids), Int.repr_injective (String.toList_inj.mp hvalues),
    Int.repr_injective (String.toList_inj.mp htimes)⟩

/-- Where two of the three numbers keep their width, messages that differ have different strings, and a signature that
verifies one string only verifies one of them only. -/
theorem sporkString_binds (E : SporkEnv) {m m' : CSporkMessage} (hborders : BordersMatch m m')
    (hdistinct : (m.nSporkID, m.nValue, m.nTimeSigned) ≠ (m'.nSporkID, m'.nValue, m'.nTimeSigned)) :
    m.strMessage ≠ m'.strMessage ∧
      ((∀ vchSig s s', E.verifyMessage E.sporkPubKey vchSig s = true →
        E.verifyMessage E.sporkPubKey vchSig s' = true → s = s') →
        ∀ vchSig, checkSignature E { m with vchSig } = true →
          checkSignature E { m' with vchSig } = false) := by
  have hne : m.strMessage ≠ m'.strMessage := by
    intro heq
    obtain ⟨hid, hvalue, htime⟩ := eq_of_strMessage_eq hborders heq
    exact hdistinct (by rw [hid, hvalue, htime])
  refine ⟨hne, ?_⟩
  intro hverify vchSig hm
  by_contra hm'
  rw [Bool.not_eq_false] at hm'
  exact hne (hverify vchSig _ _ hm hm')

theorem sporkString_ne_switch :
    (⟨[], 10001, 0, 1600000000⟩ : CSporkMessage).strMessage ≠
      (⟨[], 10001, 4070908800, 1600000001⟩ : CSporkMessage).strMessage :=
  (sporkString_binds ⟨[], fun _ _ _ => 0, fun _ => none, fun _ _ => none, fun _ _ _ => false⟩
    (.inr (.inl ⟨by decide +kernel, by decide +kernel⟩)) (by decide)).1

/-- Different sporks that sign one string. -/
theorem sporkString_collisions :
    (⟨[], 10001, 1, 23⟩ : CSporkMessage).strMessage = (⟨[], 10001, 12, 3⟩ : CSporkMessage).strMessage ∧
      (⟨[], 1, 22, 33⟩ : CSporkMessage).strMessage = (⟨[], 12, 23, 3⟩ : CSporkMessage).strMessage ∧
      (⟨[], 1, 23, 4⟩ : CSporkMessage).strMessage = (⟨[], 12, 3, 4⟩ : CSporkMessage).strMessage := by
  decide +kernel

section Delivery

variable {E : SporkEnv} {man : CSporkManager}

def hearsSporks (ctx : SporkContext) : Bool := !ctx.fLiteMode && ctx.hasTip

def sporkTells (E : SporkEnv) (id : Int) (spork : CSporkMessage) : Option CSporkMessage :=
  if spork.nSporkID = id ∧ spork.checkSignature E then some spork else none

lemma sporkTells_eq_some {id : Int} {spork m : CSporkMessage} :
    sporkTells E id spork = some m ↔ spork = m ∧ m.nSporkID = id ∧ m.checkSignature E = true := by
  unfold sporkTells
  split_ifs with h
  · constructor
    · intro heq
      cases heq
      exact ⟨rfl, h⟩
    · rintro ⟨rfl, -⟩
      rfl
  · refine ⟨(fun hnone => by cases hnone), ?_⟩
    rintro ⟨rfl, hm⟩
    exact absurd hm h

variable {ctx : SporkContext}

lemma active_processSpork (hctx : hearsSporks ctx = true) (spork : CSporkMessage) (id : Int) :
    (man.processSpork E ctx spork).1.mapSporksActive[id]? =
      newestWins nTimeSigned man.mapSporksActive[id]? (sporkTells E id spork) := by
  unfold hearsSporks at hctx
  rw [Bool.and_eq_true, Bool.not_eq_true'] at hctx
  unfold CSporkManager.processSpork sporkTells
  rw [if_neg (by simp [hctx.1]), if_neg (by simp [hctx.2])]
  by_cases hold : (man.mapSporksActive[spork.nSporkID]?).any (fun active => active.nTimeSigned ≥ spork.nTimeSigned) =
    true
  · rw [if_pos hold]
    split_ifs with htells
    · obtain ⟨rfl, -⟩ := htells
      obtain ⟨active, hactive, hge⟩ := (Option.any_eq_true _ _).mp hold
      rw [hactive]
      exact (if_pos (of_decide_eq_true hge)).symm
    · exact (newestWins_none_right _).symm
  · rw [if_neg hold]
    by_cases hsig : spork.checkSignature E = true
    · rw [if_neg (by simp [hsig])]
      dsimp only
      rw [Std.ExtTreeMap.getElem?_insert]
      by_cases hid : spork.nSporkID = id
      · subst hid
        rw [if_pos Std.compare_self, if_pos ⟨rfl, hsig⟩]
        cases hactive : man.mapSporksActive[spork.nSporkID]? with
        | none => rfl
        | some active =>
          rw [hactive, Option.any_some, decide_eq_true_eq] at hold
          exact (if_neg hold).symm
      · have hcompare : compare spork.nSporkID id ≠ .eq := fun heq => hid (Std.LawfulEqCmp.eq_of_compare heq)
        rw [if_neg hcompare, if_neg (fun h => hid h.1), newestWins_none_right]
    · rw [if_pos (by simp [hsig]), if_neg (fun h => hsig h.2), newestWins_none_right]

/-- The actions are messages; `sporks` are those signed validly. -/
structure Heard (E : SporkEnv) (actions : List SporkAction) (sporks : List CSporkMessage) : Prop where
  messages : ∀ a ∈ actions, ∃ ctx spork, a = .message ctx spork ∧ hearsSporks ctx = true
  /-- The validly signed ones. -/
  signed : ∀ spork, spork ∈ sporks ↔ spork.checkSignature E = true ∧ ∃ ctx, .message ctx spork ∈ actions

def messageOf : SporkAction → Option CSporkMessage
  | .message _ spork => some spork
  | _ => none

variable {actions : List SporkAction}

lemma active_run (h : ∀ a ∈ actions, ∃ ctx spork, a = .message ctx spork ∧ hearsSporks ctx = true)
    (id : Int) : (Runs.run (SporkAction.run E) man actions).mapSporksActive[id]? =
      replay (newestWins nTimeSigned)
        (fun a => (messageOf a).bind (sporkTells E id)) man.mapSporksActive[id]? actions := by
  induction actions generalizing man with
  | nil => rfl
  | cons a actions ih =>
    rw [forall_mem_cons] at h
    obtain ⟨⟨ctx, spork, rfl, hctx⟩, hrest⟩ := h
    rw [Runs.run_cons, ih hrest]
    have hcell : (SporkAction.run E man (.message ctx spork)).mapSporksActive[id]? = _ :=
      active_processSpork hctx spork id
    rw [hcell]
    rfl

/-- The message that a node ends with for an id: the newest one, where the one it started with wins a tie. -/
structure NewestSpork (man : CSporkManager) (sporks : List CSporkMessage) (id : Int) (m : CSporkMessage) : Prop where
  known : man.mapSporksActive[id]? = some m ∨ (m ∈ sporks ∧ m.nSporkID = id)
  newest : ∀ spork ∈ sporks, spork.nSporkID = id → spork.nTimeSigned ≤ m.nTimeSigned
  start : ∀ m₀, man.mapSporksActive[id]? = some m₀ → m₀.nTimeSigned < m.nTimeSigned ∨ m = m₀

def DistinctTimes (sporks : List CSporkMessage) : Prop :=
  ∀ a ∈ sporks, ∀ b ∈ sporks, a.nSporkID = b.nSporkID → a.nTimeSigned = b.nTimeSigned → a = b

lemma active_run_iff {sporks : List CSporkMessage} (h : Heard E actions sporks)
    (hdistinct : DistinctTimes sporks) {id : Int} {m : CSporkMessage} :
    (Runs.run (SporkAction.run E) man actions).mapSporksActive[id]? = some m ↔ NewestSpork man sporks id m := by
  have hmem : ∀ v, v ∈ actions.filterMap (fun a => (messageOf a).bind (sporkTells E id)) ↔ v ∈ sporks ∧
    v.nSporkID = id := by
    intro v
    rw [mem_filterMap]
    constructor
    · rintro ⟨a, ha, htells⟩
      obtain ⟨ctx, spork, rfl, -⟩ := h.messages a ha
      obtain ⟨rfl, hid, hsig⟩ := sporkTells_eq_some.mp htells
      exact ⟨(h.signed spork).mpr ⟨hsig, ctx, ha⟩, hid⟩
    · rintro ⟨hv, hid⟩
      obtain ⟨hsig, ctx, ha⟩ := (h.signed v).mp hv
      exact ⟨_, ha, sporkTells_eq_some.mpr ⟨rfl, hid, hsig⟩⟩
  have hagree : ∀ a ∈ actions.filterMap (fun a => (messageOf a).bind (sporkTells E id)),
      ∀ b ∈ actions.filterMap (fun a => (messageOf a).bind (sporkTells E id)),
        a.nTimeSigned = b.nTimeSigned → a = b := by
    intro a ha b hb htime
    obtain ⟨ha, haid⟩ := (hmem a).mp ha
    obtain ⟨hb, hbid⟩ := (hmem b).mp hb
    exact hdistinct a ha b hb (haid.trans hbid.symm) htime
  rw [active_run h.messages, replay_newestWins_iff hagree]
  simp only [hmem]
  constructor
  · rintro ⟨hknown, hnewest, hstart⟩
    exact ⟨hknown, fun spork hs hid => hnewest spork ⟨hs, hid⟩, hstart⟩
  · rintro ⟨hknown, hnewest, hstart⟩
    exact ⟨hknown, fun spork hs => hnewest spork hs.1 hs.2, hstart⟩

lemma heard_messages (hctx : hearsSporks ctx = true) {received sporks : List CSporkMessage}
    (hsigned : ∀ spork, spork ∈ sporks ↔ spork.checkSignature E = true ∧ spork ∈ received) :
    Heard E (received.map (SporkAction.message ctx)) sporks := by
  refine ⟨fun a ha => ?_, fun spork => ?_⟩
  · obtain ⟨spork, -, rfl⟩ := mem_map.mp ha
    exact ⟨ctx, spork, rfl, hctx⟩
  · rw [hsigned]
    refine and_congr_right (fun _ => ⟨fun hspork => ⟨ctx, mem_map_of_mem hspork⟩, ?_⟩)
    rintro ⟨ctx', ha⟩
    obtain ⟨spork', hspork', heq⟩ := mem_map.mp ha
    obtain ⟨-, rfl⟩ := SporkAction.message.inj heq
    exact hspork'

end Delivery

/-- Condition on a step: an update by the signer is not made before the time of the message it replaces. -/
def UpdatesForward (man : CSporkManager) : SporkAction → Prop
  | .updateSpork nSporkID _ adjustedTime => ∀ m, man.mapSporksActive[nSporkID]? = some m → m.nTimeSigned ≤ adjustedTime
  | _ => True

/-- No active spork was replaced by an older one. -/
def NotOlder (man man' : CSporkManager) : Prop :=
  ∀ (id : Int) m, man.mapSporksActive[id]? = some m → ∃ m', man'.mapSporksActive[id]? = some m' ∧
    m.nTimeSigned ≤ m'.nTimeSigned

lemma NotOlder.refl (man : CSporkManager) : NotOlder man man := fun _ m hm => ⟨m, hm, le_rfl⟩

lemma NotOlder.trans {a b c : CSporkManager} (hab : NotOlder a b) (hbc : NotOlder b c) : NotOlder a c := by
  intro id m hm
  obtain ⟨m', hm', hle⟩ := hab id m hm
  obtain ⟨m'', hm'', hle'⟩ := hbc id m' hm'
  exact ⟨m'', hm'', hle.trans hle'⟩

lemma notOlder_insert {man man' : CSporkManager} {nSporkID : Int} {spork : CSporkMessage}
    (hmap : man'.mapSporksActive = man.mapSporksActive.insert nSporkID spork)
    (hle : ∀ m, man.mapSporksActive[nSporkID]? = some m → m.nTimeSigned ≤ spork.nTimeSigned) : NotOlder man man' := by
  intro id m hm
  rw [hmap, Std.ExtTreeMap.getElem?_insert]
  by_cases hid : nSporkID = id
  · subst hid
    rw [if_pos Std.compare_self]
    exact ⟨spork, rfl, hle m hm⟩
  · have hcompare : compare nSporkID id ≠ .eq := fun heq => hid (Std.LawfulEqCmp.eq_of_compare heq)
    rw [if_neg hcompare]
    exact ⟨m, hm, le_rfl⟩

lemma sign_nTimeSigned (E : SporkEnv) (spork : CSporkMessage) (strSignKey : String) :
    (spork.sign E strSignKey).2.nTimeSigned = spork.nTimeSigned := by
  unfold sign
  split
  · rfl
  · split <;> rfl

lemma notOlder_run (E : SporkEnv) {man : CSporkManager} {a : SporkAction} (ha : UpdatesForward man a) :
    NotOlder man (a.run E man) := by
  cases a with
  | message ctx spork =>
    change NotOlder man (man.processSpork E ctx spork).1
    unfold CSporkManager.processSpork
    split_ifs with hlite htip hold hsig
    · exact .refl man
    · exact .refl man
    · exact .refl man
    · exact .refl man
    · apply notOlder_insert rfl
      intro m hm
      rw [hm, Option.any_some, decide_eq_true_eq] at hold
      omega
  | updateSpork nSporkID nValue adjustedTime =>
    change NotOlder man (man.updateSpork E nSporkID nValue adjustedTime).2
    unfold updateSpork
    dsimp only
    split_ifs
    · apply notOlder_insert rfl
      intro m hm
      rw [sign_nTimeSigned]
      exact ha m hm
    · exact .refl man
  | setPrivKey strPrivKey =>
    change NotOlder man (man.setPrivKey E strPrivKey).2
    unfold setPrivKey
    dsimp only
    split_ifs
    · exact .refl man
    · exact .refl man

lemma notOlder_runs (E : SporkEnv) {man : CSporkManager}
    (hgood : ∀ p ∈ Runs.trace (SporkAction.run E) man actions, UpdatesForward p.1 p.2) :
    NotOlder man (Runs.run (SporkAction.run E) man actions) :=
  Runs.invariant (fun _ _ hs ha => hs.trans (notOlder_run E ha)) (NotOlder.refl man) hgood

/-- Nodes that hear the same signed messages, in any order, end with the same sporks, the newest ones; and no spork is
ever replaced by an older one, as long as the signer makes no update before the time of the spork it replaces. -/
theorem sporks_converge (E : SporkEnv) :
    (∀ man sporks actions actions', Heard E actions sporks → Heard E actions' sporks → DistinctTimes sporks →
      (Runs.run (SporkAction.run E) man actions).mapSporksActive =
        (Runs.run (SporkAction.run E) man actions').mapSporksActive ∧
        ∀ (id : Int) m, (Runs.run (SporkAction.run E) man actions).mapSporksActive[id]? = some m ↔
          NewestSpork man sporks id m) ∧
    ∀ man actions actions', (∀ p ∈ Runs.trace (SporkAction.run E) man (actions ++ actions'), UpdatesForward p.1 p.2) →
      NotOlder (Runs.run (SporkAction.run E) man actions) (Runs.run (SporkAction.run E) man (actions ++ actions')) := by
  constructor
  · intro man sporks actions actions' h h' hdistinct
    refine ⟨?_, fun id m => active_run_iff h hdistinct⟩
    apply Std.ExtTreeMap.ext_getElem?
    intro id
    apply Option.ext
    intro m
    rw [active_run_iff h hdistinct, active_run_iff h' hdistinct]
  · intro man actions actions' hgood
    rw [Runs.run_append]
    apply notOlder_runs
    intro p hp
    apply hgood
    rw [Runs.trace_append]
    exact mem_append_right _ hp

def sporkEnv : SporkEnv :=
  ⟨[2], fun _ _ _ => 0, fun _ => some ([1], [2]), fun _ _ => some [7], fun _ vchSig _ => vchSig ≠ []⟩

/-- Two sporks of one id, the later one first or last and a badly signed one in between; and an update by the signer. -/
theorem sporks_converge_pair :
    let a : SporkAction := .message {} ⟨[7], 10001, 0, 1600000000⟩
    let b : SporkAction := .message {} ⟨[7], 10001, 1, 1600000001⟩
    let bad : SporkAction := .message {} ⟨[], 10001, 2, 1600000002⟩
    let update : SporkAction := .updateSpork 10001 3 1600000003
    (Runs.run (SporkAction.run sporkEnv) {} [a, bad, b]).mapSporksActive =
        (Runs.run (SporkAction.run sporkEnv) {} [b, b, a]).mapSporksActive ∧
      NotOlder (Runs.run (SporkAction.run sporkEnv) {} [b])
        (Runs.run (SporkAction.run sporkEnv) {} ([b] ++ [update])) := by
  intro a b bad update
  have hheard : ∀ received : List CSporkMessage,
    (∀ x ∈ received, x.vchSig = [] ∨ x ∈ [⟨[7], 10001, 0, 1600000000⟩, ⟨[7], 10001, 1, 1600000001⟩]) →
      (∀ x ∈ [⟨[7], 10001, 0, 1600000000⟩, ⟨[7], 10001, 1, 1600000001⟩], x ∈ received) →
      Heard sporkEnv (received.map (.message {})) [⟨[7], 10001, 0, 1600000000⟩, ⟨[7], 10001, 1, 1600000001⟩] := by
    intro received hall hboth
    apply heard_messages rfl
    intro spork
    constructor
    · intro hspork
      refine ⟨?_, hboth spork hspork⟩
      revert spork
      decide
    · rintro ⟨hsig, hspork⟩
      refine (hall spork hspork).resolve_left (fun hempty => ?_)
      simp [checkSignature, sporkEnv, hempty] at hsig
  have hdistinct : DistinctTimes [⟨[7], 10001, 0, 1600000000⟩, ⟨[7], 10001, 1, 1600000001⟩] := by
    unfold DistinctTimes
    decide
  refine ⟨((sporks_converge sporkEnv).1 {} _ [a, bad, b] [b, b, a] (hheard [_, _, _] (by decide) (by decide))
    (hheard [_, _, _] (by decide) (by decide)) hdistinct).1, (sporks_converge sporkEnv).2 {} [b] [update] ?_⟩
  intro p hp
  simp only [Runs.trace, singleton_append, mem_cons, not_mem_nil, or_false] at hp
  rcases hp with rfl | rfl
  · trivial
  · intro m hm
    have hcell : (SporkAction.run sporkEnv {} b).mapSporksActive[(10001 : Int)]? =
      some ⟨[7], 10001, 1, 1600000001⟩ := by
      decide +kernel
    rw [hcell] at hm
    cases hm
    decide

/-- The own node sets a spork back in time. -/
theorem sporks_setBack :
    let man := (CSporkManager.processSpork sporkEnv {} {} ⟨[7], 10001, 1, 1600000001⟩).1
    (man.mapSporksActive[(10001 : Int)]?).map nTimeSigned = some 1600000001 ∧
      ((man.updateSpork sporkEnv 10001 0 1600000000).2.mapSporksActive[(10001 : Int)]?).map nTimeSigned =
        some 1600000000 := by
  decide +kernel

/-- What holds of a manager whose sporks all came from the network. -/
structure NetworkSporks (E : SporkEnv) (man : CSporkManager) : Prop where
  keyed : ∀ (id : Int) m, man.mapSporksActive[id]? = some m → m.nSporkID = id
  signed : ∀ (id : Int) m, man.mapSporksActive[id]? = some m → m.checkSignature E = true
  stored : man.pSporkDB = man.mapSporksActive

/-- A node in the state `man` after the answer of a peer in the state `man'` to `GETSPORKS`. -/
def answered (E : SporkEnv) (ctx : SporkContext) (man man' : CSporkManager) : CSporkManager :=
  Runs.run (SporkAction.run E) man ((man'.getSporks {}).map (SporkAction.message ctx))

section Network

variable {E : SporkEnv} {man : CSporkManager}

lemma NetworkSporks.empty : NetworkSporks E {} := by
  refine ⟨?_, ?_, rfl⟩ <;> simp

section

variable (h : NetworkSporks E man)
include h

lemma NetworkSporks.processSpork (ctx : SporkContext) (spork : CSporkMessage) :
    NetworkSporks E (man.processSpork E ctx spork).1 := by
  unfold CSporkManager.processSpork
  split_ifs with hlite htip hold hsig
  · exact h
  · exact h
  · exact h
  · exact h
  have hcell : ∀ (id : Int) m, (man.mapSporksActive.insert spork.nSporkID spork)[id]? = some m →
      (spork.nSporkID = id ∧ spork = m) ∨ man.mapSporksActive[id]? = some m := by
    intro id m hm
    rw [Std.ExtTreeMap.getElem?_insert] at hm
    split_ifs at hm with hid
    · exact .inl ⟨Std.LawfulEqCmp.eq_of_compare hid, Option.some.inj hm⟩
    · exact .inr hm
  refine ⟨?_, ?_, congrArg (fun map => map.insert spork.nSporkID spork) h.stored⟩
  · intro id m hm
    rcases hcell id m hm with ⟨hid, rfl⟩ | hm
    · exact hid
    · exact h.keyed id m hm
  · intro id m hm
    rcases hcell id m hm with ⟨-, rfl⟩ | hm
    · simpa using hsig
    · exact h.signed id m hm

lemma NetworkSporks.run
    (hmessages : ∀ a ∈ actions, ∃ ctx spork, a = .message ctx spork) :
    NetworkSporks E (Runs.run (SporkAction.run E) man actions) := by
  induction actions generalizing man with
  | nil => exact h
  | cons a actions ih =>
    rw [forall_mem_cons] at hmessages
    obtain ⟨⟨ctx, spork, rfl⟩, hrest⟩ := hmessages
    exact ih (h.processSpork ctx spork) hrest

lemma NetworkSporks.mem_getSporks {spork : CSporkMessage} :
    spork ∈ man.getSporks {} ↔ man.mapSporksActive[spork.nSporkID]? = some spork := by
  unfold getSporks
  rw [if_neg (by simp), Traversal.mem_values_iff h.keyed]

/-- What a peer answers to `GETSPORKS` has one message of each id, so that the answer has no order. -/
lemma NetworkSporks.active_answered {start : CSporkManager} (hctx : hearsSporks ctx = true) {id : Int}
    {m : CSporkMessage} :
    (answered E ctx start man).mapSporksActive[id]? = some m ↔ NewestSpork start (man.getSporks {}) id m := by
  apply active_run_iff
  · apply heard_messages hctx
    intro spork
    exact (and_iff_right_of_imp (fun hspork => h.signed _ spork (h.mem_getSporks.mp hspork))).symm
  · intro a ha b hb hid _
    have hcell := h.mem_getSporks.mp ha
    rw [hid, h.mem_getSporks.mp hb] at hcell
    exact (Option.some.inj hcell).symm

lemma NetworkSporks.newest_swap {man' : CSporkManager} (h' : NetworkSporks E man') {id : Int} {m : CSporkMessage}
    (htie : ∀ a b, man.mapSporksActive[id]? = some a → man'.mapSporksActive[id]? = some b →
      a.nTimeSigned = b.nTimeSigned → a = b) (hm : NewestSpork man (man'.getSporks {}) id m) :
    NewestSpork man' (man.getSporks {}) id m := by
  obtain ⟨hknown, hnewest, hstart⟩ := hm
  have hsent : ∀ b, man'.mapSporksActive[id]? = some b → b.nTimeSigned ≤ m.nTimeSigned := by
    intro b hb
    obtain rfl := h'.keyed id b hb
    exact hnewest b (h'.mem_getSporks.mpr hb) rfl
  rcases hknown with hm | ⟨hm, rfl⟩
  · obtain rfl := h.keyed id m hm
    refine ⟨.inr ⟨h.mem_getSporks.mpr hm, rfl⟩, ?_, ?_⟩
    · intro spork hspork hid
      rw [h.mem_getSporks, hid, hm] at hspork
      rw [Option.some.inj hspork]
    · intro b hb
      rcases (hsent b hb).lt_or_eq with hlt | heq
      · exact .inl hlt
      · exact .inr (htie m b hm hb heq.symm)
  · rw [h'.mem_getSporks] at hm
    refine ⟨.inl hm, ?_, ?_⟩
    · intro spork hspork hid
      rw [h.mem_getSporks, hid] at hspork
      rcases hstart spork hspork with hlt | rfl
      · exact hlt.le
      · exact le_rfl
    · intro b hb
      rw [hm] at hb
      exact .inr (Option.some.inj hb)

lemma active_loadSpork {start : CSporkManager} (hstart : start.pSporkDB = man.mapSporksActive)
    (i id : Int) : (start.loadSpork E i).pSporkDB = man.mapSporksActive ∧
      (start.loadSpork E i).mapSporksActive[id]? =
        if id = i then man.mapSporksActive[id]? <|> start.mapSporksActive[id]? else start.mapSporksActive[id]? := by
  unfold loadSpork
  rw [hstart]
  cases hspork : man.mapSporksActive[i]? with
  | none =>
    refine ⟨hstart, ?_⟩
    split_ifs with hid
    · subst hid
      simp [hspork]
    · rfl
  | some spork =>
    obtain rfl := h.keyed i spork hspork
    refine ⟨rfl, ?_⟩
    split_ifs with hid
    · subst hid
      simp [hspork]
    · simp [Std.ExtTreeMap.getElem?_insert, Ne.symm hid]

lemma active_loadSporks (ids : List Int) {start : CSporkManager}
    (hstart : start.pSporkDB = man.mapSporksActive) (id : Int) :
    (ids.foldl (loadSpork E) start).mapSporksActive[id]? =
      if id ∈ ids then man.mapSporksActive[id]? <|> start.mapSporksActive[id]? else start.mapSporksActive[id]? := by
  induction ids generalizing start with
  | nil => simp
  | cons i ids ih =>
    obtain ⟨hstored, hcell⟩ := active_loadSpork h hstart i id
    rw [foldl_cons, ih hstored, hcell]
    by_cases hid : id = i
    · subst hid
      cases man.mapSporksActive[id]? <;> simp
    · simp [hid]

lemma NetworkSporks.loadSporksFromDB (id : Int) :
    (loadSporksFromDB E { pSporkDB := man.pSporkDB }).mapSporksActive[id]? =
      if id ∈ sporkIDs then man.mapSporksActive[id]? else none := by
  unfold CSporkManager.loadSporksFromDB
  have hstart : ({ pSporkDB := man.pSporkDB } : CSporkManager).pSporkDB = man.mapSporksActive := h.stored
  rw [active_loadSporks h sporkIDs hstart]
  simp

end

/-- The state of a node that has heard `sporks` in this order, in contexts that may let it drop some of them. -/
def afterSporks (E : SporkEnv) (sporks : List (SporkContext × CSporkMessage)) : CSporkManager :=
  Runs.run (SporkAction.run E) {} (sporks.map (fun p => .message p.1 p.2))

lemma networkSporks_afterSporks (sporks : List (SporkContext × CSporkMessage)) :
    NetworkSporks E (afterSporks E sporks) := by
  apply NetworkSporks.empty.run
  intro a ha
  obtain ⟨p, -, rfl⟩ := mem_map.mp ha
  exact ⟨p.1, p.2, rfl⟩

/-- Two nodes that answer each other have the same sporks, if no two of theirs tie. -/
theorem sporks_exchange {sporks sporks' : List (SporkContext × CSporkMessage)} (hctx : hearsSporks ctx = true)
    (htie : ∀ (id : Int) a b, (afterSporks E sporks).mapSporksActive[id]? = some a →
      (afterSporks E sporks').mapSporksActive[id]? = some b → a.nTimeSigned = b.nTimeSigned → a = b) :
    (answered E ctx (afterSporks E sporks) (afterSporks E sporks')).mapSporksActive =
      (answered E ctx (afterSporks E sporks') (afterSporks E sporks)).mapSporksActive := by
  have h := networkSporks_afterSporks (E := E) sporks
  have h' := networkSporks_afterSporks (E := E) sporks'
  apply Std.ExtTreeMap.ext_getElem?
  intro id
  apply Option.ext
  intro m
  rw [h'.active_answered hctx, h.active_answered hctx]
  constructor
  · exact h.newest_swap h' (htie id)
  · exact h'.newest_swap h (fun a b ha hb htime => (htie id b a hb ha htime.symm).symm)

/-- Each has heard one of two sporks of an id, and both end with the later one. -/
theorem sporks_exchange_pair :
    let first := afterSporks sporkEnv [({}, ⟨[7], 10001, 0, 5⟩)]
    let second := afterSporks sporkEnv [({}, ⟨[7], 10001, 1, 6⟩)]
    (answered sporkEnv {} first second).mapSporksActive[(10001 : Int)]? = some ⟨[7], 10001, 1, 6⟩ ∧
      (answered sporkEnv {} first second).mapSporksActive = (answered sporkEnv {} second first).mapSporksActive := by
  refine ⟨by decide +kernel, sporks_exchange rfl fun id a b ha hb htime => ?_⟩
  have hfirst : (afterSporks sporkEnv [({}, ⟨[7], 10001, 0, 5⟩)]).mapSporksActive =
      (∅ : StdMap Int CSporkMessage).insert 10001 ⟨[7], 10001, 0, 5⟩ := rfl
  have hsecond : (afterSporks sporkEnv [({}, ⟨[7], 10001, 1, 6⟩)]).mapSporksActive =
      (∅ : StdMap Int CSporkMessage).insert 10001 ⟨[7], 10001, 1, 6⟩ := rfl
  rw [hfirst, Std.ExtTreeMap.getElem?_insert] at ha
  rw [hsecond, Std.ExtTreeMap.getElem?_insert] at hb
  split_ifs at ha hb
  · cases ha
    cases hb
    cases htime
  · simp at ha

/-- A restart loses the sporks without a name only. -/
theorem sporks_restart (E : SporkEnv) (sporks : List (SporkContext × CSporkMessage)) (id : Int) :
    (loadSporksFromDB E { pSporkDB := (afterSporks E sporks).pSporkDB }).mapSporksActive[id]? =
      if id ∈ sporkIDs then (afterSporks E sporks).mapSporksActive[id]? else none :=
  (networkSporks_afterSporks sporks).loadSporksFromDB id

end Network

end Qstees.Proofs
