import EmvaultCore.DescriptorText
import EmvaultCore.MockSigner
import EmvaultCore.Snapshot

/-!
# The two artifacts of a built federation

`build_federation_with` and `build_federation_taproot_with` return a descriptor
string, from a ranged builder, and a snapshot, of the federation that
`Federation::new` makes from the same signers.
-/

namespace EmvaultCore.FederationBuild

open Library (Text)
open Library.Text

structure BuiltFederation where
  descriptorString : Text
  snapshotJson : Json

/-- `miniscript`, `serde_json::from_str`, the clock and the system's randomness. -/
structure Environment where
  miniscript : Miniscript
  fromStr : Text → Except String Json
  now : Int
  random : Except String ChainCode

inductive NumsChaincode where
  | random
  | custom (chainCode : ChainCode)

variable (environment : Environment)

/-- What both functions do after they have a descriptor. -/
def snapshotOf (threshold : UInt32) (signers : List Signer) (network : NetworkType) :
    Outcome EmVaultError Json := do
  let federation ←
    (Federation.new environment.miniscript threshold signers network).mapCause .federation
  let snapshot ← FederationSnapshot.fromFederation environment.miniscript.printing environment.now
    federation
  Outcome.ofResult (fun reason => .snapshot (.json reason))
    (environment.fromStr snapshot.toCanonicalJson)

def buildFederationWith (signers : List Signer) (threshold : UInt32) (network : NetworkType)
    (scriptType : ScriptType) : Outcome EmVaultError BuiltFederation := do
  let descriptor ← Outcome.ofResult .descriptor
    (DescriptorBuilder.buildFrom environment.miniscript threshold network .ranged scriptType
      .rawNums signers)
  let descriptorString := toMultipathString environment.miniscript descriptor
  let snapshotJson ← snapshotOf environment threshold signers network
  return { descriptorString, snapshotJson }

def buildFederation (signers : List Signer) (threshold : UInt32) (network : NetworkType) :
    Outcome EmVaultError BuiltFederation :=
  buildFederationWith environment signers threshold network .wsh

def NumsChaincode.resolve : NumsChaincode → Outcome EmVaultError ChainCode
  | .custom chainCode => .ok chainCode
  | .random => Outcome.ofResult
      (fun reason => .descriptor (.parse ("nums chaincode rng failed: " ++ reason)))
      environment.random

def buildFederationTaprootWith (signers : List Signer) (threshold : UInt32)
    (network : NetworkType) (chaincode : NumsChaincode) :
    Outcome EmVaultError (BuiltFederation × ChainCode) := do
  let resolved ← chaincode.resolve environment
  let descriptor ← Outcome.ofResult .descriptor
    (DescriptorBuilder.buildFrom environment.miniscript threshold network .ranged .tr
      (.numsXpub resolved) signers)
  let descriptorString := toMultipathString environment.miniscript descriptor
  let snapshotJson ← snapshotOf environment threshold signers network
  return ({ descriptorString, snapshotJson }, resolved)

def lifted (recorded : Text) : Text :=
  replace externalText multipathText (before '#' recorded)

def BuiltFederation.Agrees (built : BuiltFederation) : Prop :=
  ∃ recorded, built.snapshotJson.member? "descriptor" = some (.string (String.ofList recorded)) ∧
    lifted recorded = built.descriptorString

/-- `serde_json` reads the snapshot's canonical text, and its descriptor in it. -/
def ReadsBack (threshold : UInt32) (signers : List Signer) (network : NetworkType) : Prop :=
  ∀ federation snapshot,
    Federation.new environment.miniscript threshold signers network = .ok federation →
    (FederationSnapshot.fromFederation environment.miniscript.printing environment.now federation :
      Outcome EmVaultError FederationSnapshot) = .ok snapshot →
    ∃ json, environment.fromStr snapshot.toCanonicalJson = .ok json ∧
      json.member? "descriptor" = some (.string (String.ofList snapshot.descriptor))

variable {environment} {threshold : UInt32} {signers : List Signer} {network : NetworkType}
  {scriptType : ScriptType} {internalKey : TaprootInternalKey} {descriptor : Descriptor}

theorem before_checksum {builder : DescriptorBuilder} {inner : Network}
    (base58 : environment.miniscript.printing.PrintsBase58) :
    before '#' ((builder.assembled inner).toText environment.miniscript) =
      (builder.assembled inner).body environment.miniscript.printing :=
  before_append (DescriptorBuilder.hash_not_mem_assembled base58)

theorem star_mem_multipath (faithful : environment.miniscript.Faithful)
    (base58 : environment.miniscript.printing.PrintsBase58)
    (built : DescriptorBuilder.buildFrom environment.miniscript threshold network .ranged scriptType
      internalKey signers = .ok descriptor) :
    '*' ∈ toMultipathString environment.miniscript descriptor := by
  obtain ⟨-, answer⟩ := DescriptorBuilder.build_from_eq_ok.mp built
  obtain ⟨nonempty, -⟩ := DescriptorBuilder.build_eq_ok.mp answer
  obtain ⟨inner, -, rfl⟩ := DescriptorBuilder.build_is_assembled faithful answer
  rw [toMultipathString, before_checksum base58]
  have kept : '*' ∈ multipathText := by decide
  exact mem_replace kept (DescriptorBuilder.star_mem_assembled rfl nonempty)

theorem star_not_mem_lifted (faithful : environment.miniscript.Faithful)
    (base58 : environment.miniscript.printing.PrintsBase58) {federation : Federation}
    (made : Federation.new environment.miniscript threshold signers network = .ok federation) :
    '*' ∉ lifted federation.descriptorString := by
  have plain : '*' ∉ before '#' federation.descriptorString := by
    obtain ⟨-, ⟨-, descriptor, built, rfl⟩ | ⟨-, rfl⟩⟩ := Federation.with_config_eq_ok.mp made
    · obtain ⟨-, answer⟩ := DescriptorBuilder.build_from_eq_ok.mp built
      obtain ⟨inner, -, rfl⟩ := DescriptorBuilder.build_is_assembled faithful answer
      rw [before_checksum base58]
      exact DescriptorBuilder.star_not_mem_assembled base58 rfl rfl
    · exact List.not_mem_nil
  have inPattern : '*' ∈ externalText := by decide
  rw [lifted, replace_eq_self inPattern plain]
  exact plain

theorem snapshot_of_ok (reads : ReadsBack environment threshold signers network) {json : Json}
    (answered : snapshotOf environment threshold signers network = .ok json) :
    ∃ federation, Federation.new environment.miniscript threshold signers network = .ok federation ∧
      json.member? "descriptor" = some (.string (String.ofList federation.descriptorString)) := by
  simp only [snapshotOf, bind_eq_ok, Outcome.map_cause_eq_ok, Outcome.of_result_eq_ok] at answered
  obtain ⟨federation, made, snapshot, taken, parsed⟩ := answered
  obtain ⟨read, readOk, member⟩ := reads federation snapshot made taken
  obtain rfl : read = json := Except.ok.inj (readOk.symm.trans parsed)
  have recorded : snapshot.descriptor = federation.descriptorString := by
    rw [FederationSnapshot.fromFederation] at taken
    split at taken
    · cases taken
    · rw [← Except.ok.inj taken]
      rfl
  exact ⟨federation, made, recorded ▸ member⟩

theorem snapshot_of_succeeds (reads : ReadsBack environment threshold signers network)
    {federation : Federation}
    (made : Federation.new environment.miniscript threshold signers network = .ok federation) :
    ∃ json, snapshotOf environment threshold signers network = .ok json := by
  have size : federation.signers.length < 2 ^ 32 := by
    obtain ⟨valid, kind⟩ := Federation.with_config_eq_ok.mp made
    obtain ⟨-, bounded, -⟩ := Federation.validate_inputs_ok.mp valid
    rcases kind with ⟨-, descriptor, -, rfl⟩ | ⟨-, rfl⟩ <;> exact bounded
  obtain ⟨snapshot, taken⟩ : ∃ snapshot,
      (FederationSnapshot.fromFederation environment.miniscript.printing environment.now
        federation : Outcome EmVaultError FederationSnapshot) = .ok snapshot := by
    rw [FederationSnapshot.fromFederation, if_neg (by omega)]
    exact ⟨_, rfl⟩
  obtain ⟨json, parsed, -⟩ := reads federation snapshot made taken
  refine ⟨json, ?_⟩
  simp only [snapshotOf, bind_eq_ok, Outcome.map_cause_eq_ok, Outcome.of_result_eq_ok]
  exact ⟨federation, made, snapshot, taken, parsed⟩

theorem artifacts_disagree (faithful : environment.miniscript.Faithful)
    (base58 : environment.miniscript.printing.PrintsBase58)
    (reads : ReadsBack environment threshold signers network) {json : Json} {text : Text}
    (answered : snapshotOf environment threshold signers network = .ok json)
    (ranged : '*' ∈ text) : ¬ BuiltFederation.Agrees ⟨text, json⟩ := by
  rintro ⟨recorded, member, same⟩
  obtain ⟨federation, made, found⟩ := snapshot_of_ok reads answered
  have texts : String.ofList recorded = String.ofList federation.descriptorString :=
    Json.string.inj (Option.some.inj (member.symm.trans found))
  have equal : recorded = federation.descriptorString := by
    simpa using congrArg String.toList texts
  apply star_not_mem_lifted faithful base58 made
  rw [← equal]
  exact same ▸ ranged

def fixedKeys (signers : List Signer) : List DescriptorPublicKey :=
  (DescriptorBuilder.insertAll ∅ signers).valuesInOrder.map (buildDescriptorKey .fixed)

/-- Where the ranged descriptor builds on a Bitcoin network, the fixed one needs
distinct printed keys and the consent of `miniscript`. -/
theorem fixed_build_iff
    (ranged : DescriptorBuilder.buildFrom environment.miniscript threshold network .ranged scriptType
      internalKey signers = .ok descriptor) :
    (∃ fixed, DescriptorBuilder.buildFrom environment.miniscript threshold network .fixed .wsh
        .rawNums signers = .ok fixed) ↔
      ((fixedKeys signers).map (·.toText environment.miniscript.printing)).Nodup ∧
        ∃ fixed, environment.miniscript.newWshSortedmulti threshold.toNat (fixedKeys signers) =
          .ok fixed := by
  obtain ⟨distinct, answer⟩ := DescriptorBuilder.build_from_eq_ok.mp ranged
  obtain ⟨nonempty, inner, onBitcoin, kinds, -⟩ := DescriptorBuilder.build_eq_ok.mp answer
  constructor
  · rintro ⟨fixed, built⟩
    obtain ⟨-, made⟩ := DescriptorBuilder.build_from_eq_ok.mp built
    obtain ⟨-, _, -, -, apart, accepted⟩ := DescriptorBuilder.build_eq_ok.mp made
    exact ⟨apart, fixed, accepted⟩
  · rintro ⟨apart, fixed, accepted⟩
    refine ⟨fixed, DescriptorBuilder.build_from_eq_ok.mpr ⟨distinct, ?_⟩⟩
    exact DescriptorBuilder.build_eq_ok.mpr ⟨nonempty, inner, onBitcoin, kinds, apart, accepted⟩

theorem build_succeeds_iff (reads : ReadsBack environment threshold signers network)
    {federation : Federation}
    (accepted : Federation.withConfig environment.miniscript threshold signers network .ranged
      scriptType = .ok federation) :
    (∃ built, buildFederationWith environment signers threshold network scriptType = .ok built) ↔
      network.isBitcoin = true ∧
        ((fixedKeys signers).map (·.toText environment.miniscript.printing)).Nodup ∧
        ∃ fixed, environment.miniscript.newWshSortedmulti threshold.toNat (fixedKeys signers) =
          .ok fixed := by
  obtain ⟨valid, kind⟩ := Federation.with_config_eq_ok.mp accepted
  simp only [buildFederationWith, bind_eq_ok, Outcome.of_result_eq_ok]
  constructor
  · rintro ⟨built, descriptor, ranged, json, answered, -⟩
    obtain ⟨-, answer⟩ := DescriptorBuilder.build_from_eq_ok.mp ranged
    obtain ⟨-, inner, onBitcoin, -⟩ := DescriptorBuilder.build_eq_ok.mp answer
    have bitcoin : network.isBitcoin = true :=
      (NetworkType.is_bitcoin_iff network).mpr ⟨inner, onBitcoin⟩
    obtain ⟨made, madeOk, -⟩ := snapshot_of_ok reads answered
    obtain ⟨-, ⟨-, fixed, built, -⟩ | ⟨elements, -⟩⟩ := Federation.with_config_eq_ok.mp madeOk
    · exact ⟨bitcoin, (fixed_build_iff ranged).mp ⟨fixed, built⟩⟩
    · rw [bitcoin] at elements
      cases elements
  · rintro ⟨bitcoin, fixedOk⟩
    obtain ⟨-, descriptor, ranged, -⟩ | ⟨elements, -⟩ := kind
    · obtain ⟨fixed, built⟩ := (fixed_build_iff ranged).mpr fixedOk
      have made : Federation.new environment.miniscript threshold signers network = .ok _ :=
        Federation.with_config_eq_ok.mpr ⟨valid, Or.inl ⟨bitcoin, fixed, built, rfl⟩⟩
      obtain ⟨json, answered⟩ := snapshot_of_succeeds reads made
      exact ⟨_, descriptor, ranged, json, answered, rfl⟩
    · rw [bitcoin] at elements
      cases elements

/-- The snapshot of a built federation never records its descriptor string: one
is taken of fixed `wsh` keys, the other prints ranged keys. A build succeeds,
where the ranged federation does, when the fixed one can be made as well. -/
theorem built_artifacts_disagree (faithful : environment.miniscript.Faithful)
    (base58 : environment.miniscript.printing.PrintsBase58)
    (reads : ReadsBack environment threshold signers network) :
    (∀ scriptType built,
      buildFederationWith environment signers threshold network scriptType = .ok built →
        ¬ built.Agrees) ∧
    (∀ chaincode built resolved,
      buildFederationTaprootWith environment signers threshold network chaincode =
          .ok (built, resolved) → ¬ built.Agrees) ∧
    (∀ scriptType federation,
      Federation.withConfig environment.miniscript threshold signers network .ranged scriptType =
          .ok federation →
        ((∃ built, buildFederationWith environment signers threshold network scriptType =
            .ok built) ↔
          network.isBitcoin = true ∧
            ((fixedKeys signers).map (·.toText environment.miniscript.printing)).Nodup ∧
            ∃ fixed, environment.miniscript.newWshSortedmulti threshold.toNat (fixedKeys signers) =
              .ok fixed)) := by
  refine ⟨?_, ?_, fun scriptType federation => build_succeeds_iff reads⟩
  · intro scriptType built answer
    simp only [buildFederationWith, bind_eq_ok, Outcome.of_result_eq_ok] at answer
    obtain ⟨descriptor, ranged, json, answered, result⟩ := answer
    obtain rfl := Except.ok.inj result
    exact artifacts_disagree faithful base58 reads answered
      (star_mem_multipath faithful base58 ranged)
  · intro chaincode built resolved answer
    simp only [buildFederationTaprootWith, bind_eq_ok, Outcome.of_result_eq_ok] at answer
    obtain ⟨_, -, descriptor, ranged, json, answered, result⟩ := answer
    obtain ⟨rfl, -⟩ := Prod.mk.inj (Except.ok.inj result)
    exact artifacts_disagree faithful base58 reads answered
      (star_mem_multipath faithful base58 ranged)

def mockSnapshot : FederationSnapshot :=
  FederationSnapshot.record MockSigner.printing 1700000000 (MockSigner.federation .wsh)

def mockFromStr (text : Text) : Except String Json :=
  if text = mockSnapshot.toCanonicalJson then .ok mockSnapshot.toJson
  else .error "expected value"

def mockEnvironment : Environment where
  miniscript := MockSigner.miniscript
  fromStr := mockFromStr
  now := 1700000000
  random := .ok 0

theorem mock_snapshot_reads (parser : environment.fromStr = mockFromStr)
    (made : Federation.new environment.miniscript 2 [MockSigner.first, MockSigner.second]
      (.bitcoin .testnet) = .ok (MockSigner.federation .wsh))
    (recorded : FederationSnapshot.record environment.miniscript.printing environment.now
      (MockSigner.federation .wsh) = mockSnapshot) :
    ReadsBack environment 2 [MockSigner.first, MockSigner.second] (.bitcoin .testnet) := by
  intro federation snapshot again taken
  obtain rfl : MockSigner.federation .wsh = federation := Except.ok.inj (made.symm.trans again)
  have size : ¬ 2 ^ 32 ≤ (MockSigner.federation .wsh).signers.length := by decide
  rw [FederationSnapshot.fromFederation, if_neg size, recorded] at taken
  obtain rfl : mockSnapshot = snapshot := Except.ok.inj taken
  have read : environment.fromStr mockSnapshot.toCanonicalJson = .ok mockSnapshot.toJson := by
    rw [parser, mockFromStr, if_pos (Eq.refl mockSnapshot.toCanonicalJson)]
  refine ⟨mockSnapshot.toJson, read, ?_⟩
  simp [FederationSnapshot.toJson, Json.member?]

theorem mock_reads_back :
    ReadsBack mockEnvironment 2 [MockSigner.first, MockSigner.second] (.bitcoin .testnet) :=
  mock_snapshot_reads rfl MockSigner.federation_made rfl

theorem built_artifacts_disagree_mock :
    (∀ scriptType built,
      buildFederationWith mockEnvironment [MockSigner.first, MockSigner.second] 2
          (.bitcoin .testnet) scriptType = .ok built → ¬ built.Agrees) ∧
    (∀ chaincode built resolved,
      buildFederationTaprootWith mockEnvironment [MockSigner.first, MockSigner.second] 2
          (.bitcoin .testnet) chaincode = .ok (built, resolved) → ¬ built.Agrees) ∧
    (∀ scriptType federation,
      Federation.withConfig MockSigner.miniscript 2 [MockSigner.first, MockSigner.second]
          (.bitcoin .testnet) .ranged scriptType = .ok federation →
        ((∃ built, buildFederationWith mockEnvironment [MockSigner.first, MockSigner.second] 2
            (.bitcoin .testnet) scriptType = .ok built) ↔
          (NetworkType.bitcoin .testnet).isBitcoin = true ∧
            ((fixedKeys [MockSigner.first, MockSigner.second]).map
              (·.toText MockSigner.printing)).Nodup ∧
            ∃ fixed, MockSigner.miniscript.newWshSortedmulti 2
              (fixedKeys [MockSigner.first, MockSigner.second]) = .ok fixed)) :=
  @built_artifacts_disagree mockEnvironment 2 [MockSigner.first, MockSigner.second]
    (.bitcoin .testnet) MockSigner.miniscript_faithful MockSigner.prints_base58 mock_reads_back

/-- Two testnet signers: the build succeeds and its artifacts disagree. -/
theorem mock_build_disagrees :
    ∃ built, buildFederationWith mockEnvironment [MockSigner.first, MockSigner.second] 2
        (.bitcoin .testnet) .wsh = .ok built ∧ ¬ built.Agrees := by
  have ranged : DescriptorBuilder.buildFrom MockSigner.miniscript 2 (.bitcoin .testnet) .ranged .wsh
      .rawNums [MockSigner.first, MockSigner.second] = .ok (MockSigner.descriptor .ranged) := by
    decide +kernel
  obtain ⟨json, answered⟩ := snapshot_of_succeeds mock_reads_back MockSigner.federation_made
  have star : '*' ∈ toMultipathString mockEnvironment.miniscript (MockSigner.descriptor .ranged) :=
    star_mem_multipath MockSigner.miniscript_faithful MockSigner.prints_base58 ranged
  refine ⟨⟨_, json⟩, ?_, artifacts_disagree MockSigner.miniscript_faithful MockSigner.prints_base58
    mock_reads_back answered star⟩
  simp only [buildFederationWith, bind_eq_ok, Outcome.of_result_eq_ok]
  exact ⟨_, ranged, json, answered, rfl⟩

end EmvaultCore.FederationBuild
