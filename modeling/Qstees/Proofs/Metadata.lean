import Qstees.Proofs.RewardNode

/-!
# Metadata updates

The node address of a metadata payload is held in a variable of the loop over its words, so it is gone when the service
in the next word completes the update.
-/

namespace Qstees.Proofs

variable {E : InfinityEnv}

/-- A metadata burn of the owner in block `x`. -/
def MetadataTx (E : InfinityEnv) (C : Chain) (x : Int) (owner address : String) (service : CService) : Prop :=
  ∃ block tx out b id metadata word₀ word₁ script dest, C.readBlock x = some block ∧ tx ∈ block.vtx ∧
    tx.isCoinBase = false ∧ out ∈ tx.vout ∧ solver out.scriptPubKey = .ok ⟨b, .burnData, [id, metadata]⟩ ∧
    E.params.cMetadataAddress = E.keyIO.encodeDestination (.keyID id) ∧
    isBurnOf E.params.nMasternodeBurnQSTEESNODE_1 out.nValue = true ∧ getlines 0x20 metadata = [word₀, word₁] ∧
    stdString word₀ = address ∧ isValidDestination (E.keyIO.decodeDestination address) = true ∧
    E.lookup (cStr word₁) = some service ∧ funding E C tx = some (script, dest) ∧ E.keyIO.encodeDestination dest = owner

/-- Every node has the initial address or none. -/
def AddressesOk (man : CInfinitynodeMan) : Prop :=
  ∀ (o : COutPoint) inf, man.mapInfinitynodes.nodes[o]? = some inf →
    inf.metadataNodeAddress = "NodeAddress" ∨ inf.metadataNodeAddress = ""

variable {man : CInfinitynodeMan}

lemma AddressesOk.modify {m : NodeMap} (hok : AddressesOk man) {f : CInfinitynode → CInfinitynode}
    (hm : m.nodes = man.mapInfinitynodes.nodes.map (fun _ inf => f inf))
    (hf : ∀ inf, (f inf).metadataNodeAddress = inf.metadataNodeAddress ∨ (f inf).metadataNodeAddress = "")
    (o : COutPoint) (inf : CInfinitynode) (hinf : m.nodes[o]? = some inf) :
    inf.metadataNodeAddress = "NodeAddress" ∨ inf.metadataNodeAddress = "" := by
  rw [hm, Std.ExtTreeMap.getElem?_map] at hinf
  obtain ⟨inf₀, hinf₀, rfl⟩ := Option.map_eq_some_iff.mp hinf
  rcases hf inf₀ with hkeep | hempty
  · rw [hkeep]
    exact hok o inf₀ hinf₀
  · exact .inr hempty

lemma AddressesOk.add (hok : AddressesOk man) {inf : CInfinitynode} (hinf : inf.metadataNodeAddress = "NodeAddress") :
    AddressesOk (man.add inf) := by
  unfold CInfinitynodeMan.add
  split
  · exact hok
  · intro o inf' hinf'
    simp only [getElem?_insert_node] at hinf'
    split_ifs at hinf' with ho
    · rw [← Option.some.inj hinf']
      exact .inl hinf
    · exact hok o inf' hinf'

lemma AddressesOk.applyEvent {C : Chain} {x : Int} {e : Event} (he : e ∈ blockEvents E C x) (now h : Int)
    {s : InfinityState} (hok : AddressesOk s.infnodeman) : AddressesOk (applyEvent E now h s e).infnodeman := by
  cases e with
  | register inf =>
    simp only [Qstees.applyEvent]
    split_ifs
    · apply hok.add
      rw [← (registered_of_mem he).2]
      rfl
    · exact hok
  | metadata owner address service y =>
    obtain rfl := metadata_mem_blockEvents he
    refine hok.modify rfl ?_
    intro inf
    unfold CInfinitynodeMan.setMetadata
    split_ifs
    · exact .inr rfl
    · exact .inl rfl
  | paid q y =>
    simp only [Qstees.applyEvent]
    split_ifs
    · unfold AddressesOk
      rw [addUpdateLastPaid_nodes]
      exact hok
    · exact hok
  | governanceVote vote =>
    simp only [Qstees.applyEvent]
    split_ifs <;> exact hok
  | burnVote vote => exact hok
  | abort => exact hok

lemma addressesOk_empty (hempty : man.mapInfinitynodes = .empty) : AddressesOk man := by
  intro o inf hinf
  rw [hempty] at hinf
  simp [NodeMap.empty] at hinf

lemma AddressesOk.build (C : Chain) (now h nLow : Int) {s : InfinityState} (hok : AddressesOk s.infnodeman) :
    AddressesOk (buildInfinitynodeList E C now h nLow s).2.infnodeman := by
  by_cases hbegin : h < E.params.nInfinityNodeBeginHeight
  · rw [buildInfinitynodeList, if_pos hbegin]
    exact addressesOk_empty rfl
  refine build_invariant (P := fun a => AddressesOk a.infnodeman) hbegin ?_ ?_ ?_
  · unfold prepareScan
    split_ifs
    · exact addressesOk_empty rfl
    · exact hok
  · intro e he a ha
    rcases mem_scanEvents.mp he with ⟨x, -, -, he⟩ | ⟨-, rfl⟩
    · exact ha.applyEvent he now h
    · exact ha
  · intro a ha
    refine ha.modify rfl ?_
    intro inf
    unfold CInfinitynodeMan.setLastReward
    split <;> exact .inl rfl

lemma ManRun.addressesOk {may : CInfinitynodeMan → Prop} {s : InfinityState} (hrun : ManRun E may s) :
    AddressesOk s.infnodeman := by
  induction hrun with
  | init => exact addressesOk_empty rfl
  | clear hs hmay ih => exact addressesOk_empty rfl
  | build hs C now h nLow hmay ih => exact ih.build C now h nLow
  | @statement s hs t ih =>
    unfold CInfinitynodeMan.deterministicRewardStatement
    cases t <;> exact ih
  | rank hs x t updateList ih =>
    refine ih.modify rfl ?_
    intro inf
    unfold CInfinitynodeMan.newRank
    split_ifs <;> (try split) <;> exact .inl rfl
  | tip hs nHeight ih => exact ih
  | reload hs hsaved versionOk hmay ih ihsaved =>
    cases versionOk with
    | false => exact addressesOk_empty rfl
    | true =>
      have hranks : ∀ inf : CInfinitynode, ({ inf with nRank := 0 } : CInfinitynode).metadataNodeAddress =
          inf.metadataNodeAddress ∨ ({ inf with nRank := 0 } : CInfinitynode).metadataNodeAddress = "" :=
        fun _ => .inl rfl
      exact ihsaved.modify rfl hranks

/-- A node whose owner sent well-formed metadata never holds the address of the payload. -/
theorem metadata_address_lost {C : Chain} {x : Int} {s : InfinityState}
    (hrun : ManRun E (fun _ => True) s) {o : COutPoint}
    {inf : CInfinitynode} (hinf : s.infnodeman.mapInfinitynodes.nodes[o]? = some inf) {address : String}
    {service : CService}
    (hmeta : MetadataTx E C x inf.collateralAddress address service) : inf.metadataNodeAddress ≠ address := by
  obtain ⟨_, _, _, _, _, _, _, _, _, _, -, -, -, -, -, -, -, -, -, hvalid, -⟩ := hmeta
  intro heq
  rcases hrun.addressesOk o inf hinf with hdefault | hempty
  · rw [← heq, hdefault, E.keyIO.decode_default] at hvalid
    cases hvalid
  · rw [← heq, hempty, E.keyIO.decode_empty] at hvalid
    cases hvalid

/-- The example list after an incremental build that reads the metadata transaction. -/
def exampleUpdated : InfinityState := (buildInfinitynodeList exampleEnv exampleChain 0 170 105 exampleList).2

lemma exampleUpdated_run : ManRun exampleEnv (fun _ => True) exampleUpdated := by
  have hinit : ManRun exampleEnv (fun _ => True) {} := .init
  exact (hinit.build exampleChain 0 160 100 (fun _ => trivial)).build exampleChain 0 170 105 (fun _ => trivial)

lemma exampleMetadata : MetadataTx exampleEnv exampleChain 165 ownerAddress nodeAddress { port := 1 } := by
  refine ⟨⟨exampleCoinbaseAt 165 :: exampleBurns 165⟩,
    exampleBurn 1002 2 100000 (List.replicate 20 2) examplePayload,
    ⟨100000 * COIN, getScriptForBurn (List.replicate 20 2) examplePayload, -10⟩, true,
      List.replicate 20 2, examplePayload,
    examplePayload.take 34, [0x69, 0x70], keyIDScript (List.replicate 20 7), .keyID (List.replicate 20 7), ?_⟩
  decide +kernel

def exampleFirstNode : CInfinitynode :=
  { vinBurnFund := ⟨1000, 0⟩, nHeight := 100, nExpireHeight := 262900, nBurnValue := 1000000 * COIN, nQSTEESType := 10,
    collateralAddress := ownerAddress, scriptPubKey := getScriptForBurn (List.replicate 20 1) [],
    metadataNodeAddress := "", metadataService := { port := 1 } }

lemma exampleUpdated_node : exampleUpdated.infnodeman.mapInfinitynodes.nodes[(⟨1000, 0⟩ : COutPoint)]? =
    some exampleFirstNode := by
  decide +kernel

theorem metadata_address_lost_example : exampleFirstNode.metadataNodeAddress ≠ nodeAddress :=
  metadata_address_lost exampleUpdated_run exampleUpdated_node exampleMetadata

/-- The owner of the node of height 100 sent `nodeAddress` and `ip` at height 165: the service is stored, the address
is not. -/
theorem metadata_update_example :
    ManRun exampleEnv (fun _ => True) exampleUpdated ∧
      MetadataTx exampleEnv exampleChain 165 ownerAddress nodeAddress { port := 1 } ∧
      exampleUpdated.infnodeman.mapInfinitynodes.nodes[(⟨1000, 0⟩ : COutPoint)]? = some exampleFirstNode ∧
      exampleFirstNode.collateralAddress = ownerAddress ∧ exampleFirstNode.nHeight < 165 ∧
      exampleFirstNode.metadataNodeAddress = "" :=
  ⟨exampleUpdated_run, exampleMetadata, exampleUpdated_node, rfl, by decide, rfl⟩

end Qstees.Proofs
