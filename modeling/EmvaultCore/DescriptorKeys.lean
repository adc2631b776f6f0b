import EmvaultCore.MockSigner

/-!
# When cosigner slots hold distinct keys

`reject_duplicate_keys` compares printed keys, and a printed key starts with its
origin. Two slots can therefore hold the same key material under different
annotations; here is exactly when a built descriptor has such slots.
-/

namespace EmvaultCore

/-- What a cosigner slot holds, whatever its origin annotation. -/
inductive KeyMaterial where
  | point (key : PublicKey)
  | xOnly (key : XOnlyPublicKey)
  | extended (publicKey : SecpPublicKey) (chainCode : ChainCode)
deriving DecidableEq

def DescriptorPublicKey.material : DescriptorPublicKey → KeyMaterial
  | .single ⟨_, .fullKey key⟩ => .point key
  | .single ⟨_, .xOnly key⟩ => .xOnly key
  | .xPub key => .extended key.xkey.publicKey key.xkey.chainCode
  | .multiXPub key => .extended key.xkey.publicKey key.xkey.chainCode

def Descriptor.cosignerKeys : Descriptor → List DescriptorPublicKey
  | .wsh (.sortedMulti _ pks) => pks
  | .tr _ (some (.multiA _ pks)) => pks
  | _ => []

namespace DescriptorKeys

variable {mode : KeyMode} {scriptType : ScriptType} {left right : KeyEntry}

def entryMaterial (mode : KeyMode) (scriptType : ScriptType) (entry : KeyEntry) : KeyMaterial :=
  match mode, scriptType with
  | .fixed, .wsh => .point (PublicKey.new entry.xpub.publicKey)
  | .fixed, .tr => .xOnly entry.xpub.publicKey.xOnly
  | .ranged, _ => .extended entry.xpub.publicKey entry.xpub.chainCode

/-- Equal origins and, where the extended key is printed, an equal place in the
key tree. -/
structure SameOrigin (mode : KeyMode) (left right : KeyEntry) : Prop where
  fingerprint : left.fingerprint = right.fingerprint
  derivationPath : left.derivationPath = right.derivationPath
  keyTree : mode = .ranged → left.xpub.depth = right.xpub.depth ∧
    left.xpub.parentFingerprint = right.xpub.parentFingerprint ∧
    left.xpub.childNumber = right.xpub.childNumber

theorem cosigner_material (builder : DescriptorBuilder) (entry : KeyEntry) :
    (builder.cosigner entry).material = entryMaterial builder.mode builder.scriptType entry := by
  unfold DescriptorBuilder.cosigner DescriptorBuilder.taprootCosigner entryMaterial
  cases builder.scriptType <;> cases builder.mode <;> rfl

theorem cosigner_determined {builder : DescriptorBuilder}
    (network : left.xpub.network = right.xpub.network)
    (material : entryMaterial builder.mode builder.scriptType left =
      entryMaterial builder.mode builder.scriptType right)
    (origins : SameOrigin builder.mode left right) :
    builder.cosigner left = builder.cosigner right := by
  have fingerprint := origins.fingerprint
  have path := origins.derivationPath
  have keyTree := origins.keyTree
  have extendedKey : builder.mode = .ranged → left.xpub = right.xpub := by
    intro ranged
    obtain ⟨depth, parent, child⟩ := keyTree ranged
    have inner : left.xpub.publicKey = right.xpub.publicKey ∧
        left.xpub.chainCode = right.xpub.chainCode := by
      simpa [entryMaterial, ranged] using material
    cases leftKey : left.xpub
    cases rightKey : right.xpub
    simp_all
  cases mode : builder.mode with
  | fixed =>
      cases kind : builder.scriptType <;>
        simp_all [DescriptorBuilder.cosigner, DescriptorBuilder.taprootCosigner, entryMaterial,
          buildDescriptorKey, buildTaprootKey, PublicKey.new]
  | ranged =>
      have key := extendedKey mode
      cases kind : builder.scriptType <;>
        simp [DescriptorBuilder.cosigner, DescriptorBuilder.taprootCosigner,
          buildDescriptorKey, mode, kind, key, fingerprint, path]

section Determined

variable {Entry Printed Material : Type} {entries : List Entry} {printed : Entry → Printed}
  {material : Entry → Material} {annotated : Entry → Entry → Prop}

/-- Where the printed form is distinct and follows from material and annotation,
a repeated material is one that appears under two annotations. -/
theorem nodup_material_iff (distinct : (entries.map printed).Nodup)
    (reflexive : ∀ entry, annotated entry entry)
    (determined : ∀ left ∈ entries, ∀ right ∈ entries, material left = material right →
      annotated left right → printed left = printed right) :
    (entries.map material).Nodup ↔
      ∀ left ∈ entries, ∀ right ∈ entries, material left = material right →
        annotated left right := by
  constructor
  · intro apart left leftMember right rightMember same
    have equal : left = right := List.inj_on_of_nodup_map apart leftMember rightMember same
    rw [equal]
    exact reflexive right
  · intro agree
    apply List.Nodup.map_on _ distinct.of_map
    intro left leftMember right rightMember same
    have origins := agree left leftMember right rightMember same
    have text := determined left leftMember right rightMember same origins
    exact List.inj_on_of_nodup_map distinct leftMember rightMember text

end Determined

theorem built_slots {miniscript : Miniscript} (faithful : miniscript.Faithful)
    {builder : DescriptorBuilder} {descriptor : Descriptor}
    (built : builder.build miniscript = .ok descriptor) :
    descriptor.cosignerKeys.Perm (builder.entries.valuesInOrder.map builder.cosigner) := by
  obtain ⟨network, -, rfl⟩ := DescriptorBuilder.build_is_assembled faithful built
  have slots := builder.cosigners_perm
  unfold DescriptorBuilder.assembled
  cases builder.scriptType <;> exact slots

theorem built_materials_nodup_iff {miniscript : Miniscript} (faithful : miniscript.Faithful)
    {builder : DescriptorBuilder} {descriptor : Descriptor}
    (built : builder.build miniscript = .ok descriptor) :
    (descriptor.cosignerKeys.map DescriptorPublicKey.material).Nodup ↔
      ∀ left ∈ builder.entries.valuesInOrder, ∀ right ∈ builder.entries.valuesInOrder,
        entryMaterial builder.mode builder.scriptType left =
          entryMaterial builder.mode builder.scriptType right →
        SameOrigin builder.mode left right := by
  obtain ⟨-, network, -, sameNetwork, distinct, -⟩ := DescriptorBuilder.build_eq_ok.mp built
  have slots := (built_slots faithful built).map DescriptorPublicKey.material
  have printed := (builder.cosigners_perm.map (·.toText miniscript.printing)).nodup_iff.mp distinct
  rw [slots.nodup_iff, List.map_map]
  simp only [Function.comp_def, cosigner_material]
  rw [List.map_map] at printed
  apply nodup_material_iff printed
  · intro entry
    exact ⟨rfl, rfl, fun _ => ⟨rfl, rfl, rfl⟩⟩
  · intro left leftMember right rightMember material origins
    have network := (sameNetwork left leftMember).trans (sameNetwork right rightMember).symm
    have key := cosigner_determined network material origins
    simp only [Function.comp_apply, key]

/-- A built descriptor has pairwise distinct key material exactly when no two
signers contribute the same material under different annotations. -/
theorem built_key_material_distinct_iff {miniscript : Miniscript}
    (faithful : miniscript.Faithful) {threshold : UInt32} {network : NetworkType}
    {internalKey : TaprootInternalKey} {signers : List Signer} {descriptor : Descriptor}
    (built : DescriptorBuilder.buildFrom miniscript threshold network mode scriptType internalKey
      signers = .ok descriptor) :
    (descriptor.cosignerKeys.map DescriptorPublicKey.material).Nodup ↔
      ∀ left ∈ signers, ∀ right ∈ signers,
        entryMaterial mode scriptType (KeyEntry.ofSigner left) =
          entryMaterial mode scriptType (KeyEntry.ofSigner right) →
        SameOrigin mode (KeyEntry.ofSigner left) (KeyEntry.ofSigner right) := by
  obtain ⟨distinct, answer⟩ := DescriptorBuilder.build_from_eq_ok.mp built
  have entries {entry : KeyEntry} : entry ∈ (DescriptorBuilder.insertAll ∅ signers).valuesInOrder ↔
      ∃ signer ∈ signers, KeyEntry.ofSigner signer = entry :=
    DescriptorBuilder.insert_all_values distinct
  rw [built_materials_nodup_iff faithful answer]
  constructor
  · intro agree left leftMember right rightMember
    exact agree _ (entries.mpr ⟨left, leftMember, rfl⟩) _ (entries.mpr ⟨right, rightMember, rfl⟩)
  · intro agree left leftMember right rightMember
    obtain ⟨leftSigner, leftAmong, rfl⟩ := entries.mp leftMember
    obtain ⟨rightSigner, rightAmong, rfl⟩ := entries.mp rightMember
    exact agree leftSigner leftAmong rightSigner rightAmong

theorem built_key_material_distinct_mock :
    ((MockSigner.descriptor .fixed).cosignerKeys.map DescriptorPublicKey.material).Nodup ↔
      ∀ left ∈ [MockSigner.second, MockSigner.first],
        ∀ right ∈ [MockSigner.second, MockSigner.first],
        entryMaterial .fixed .wsh (KeyEntry.ofSigner left) =
          entryMaterial .fixed .wsh (KeyEntry.ofSigner right) →
        SameOrigin .fixed (KeyEntry.ofSigner left) (KeyEntry.ofSigner right) := by
  have built : DescriptorBuilder.buildFrom MockSigner.miniscript 2 (.bitcoin .testnet) .fixed .wsh
      .rawNums [MockSigner.second, MockSigner.first] = .ok (MockSigner.descriptor .fixed) := by
    decide +kernel
  exact built_key_material_distinct_iff MockSigner.miniscript_faithful built

/-- The first signer again, listed by a wallet that does not know its master key. -/
def twin : Signer :=
  { MockSigner.first with id := "00000000", fingerprint := 0 }

/-- One device listed twice makes a 2-of-2 that it can sign alone. -/
theorem twin_slots_share_key :
    [MockSigner.first.id, twin.id].Nodup ∧
      ∃ descriptor,
        DescriptorBuilder.buildFrom MockSigner.miniscript 2 (.bitcoin .testnet) .fixed .wsh .rawNums
            [MockSigner.first, twin] = .ok descriptor ∧
          ¬ (descriptor.cosignerKeys.map DescriptorPublicKey.material).Nodup := by
  refine ⟨by decide, .wsh (.sortedMulti 2
    [buildDescriptorKey .fixed (KeyEntry.ofSigner twin),
      buildDescriptorKey .fixed (KeyEntry.ofSigner MockSigner.first)]), ?_, ?_⟩
  · decide +kernel
  · decide

end DescriptorKeys

end EmvaultCore
