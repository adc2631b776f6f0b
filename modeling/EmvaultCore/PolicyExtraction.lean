import EmvaultCore.PolicyMatch
import EmvaultCore.WalletPolicy

/-!
# The policy of a built descriptor

`multisig_policy` reads threshold and keys back out of the `wsh` descriptors of
the builder, and a verifier that trusts such a descriptor accepts it again from
its text. The `tr` descriptors of the same builder have no policy.
-/

namespace EmvaultCore.PolicyMatch

open Library (Text)

/-- The policy that a builder stands for: its threshold, and one key for each
signer as the descriptor prints it. -/
structure PolicyOf (printing : KeyPrinting) (builder : DescriptorBuilder)
    (policy : MultisigPolicy) : Prop where
  threshold : policy.threshold = builder.threshold.toNat
  keys : ∀ text, text ∈ policy.keys ↔
    ∃ entry ∈ builder.entries.valuesInOrder, (builder.cosigner entry).toText printing = text
  size : policy.keys.size = builder.entries.size

/-- Extraction undoes building, and the descriptor passes for itself, as it is
and when its text is parsed again with or without the checksum. -/
structure Extracts (miniscript : Miniscript) (builder : DescriptorBuilder)
    (descriptor : Descriptor) : Prop where
  policy : ∃ policy, multisigPolicy miniscript.printing descriptor = .ok policy ∧
    PolicyOf miniscript.printing builder policy
  itself : descriptorsMatch miniscript.printing descriptor descriptor = .ok true
  printed : ensureDescriptorStringMatches miniscript descriptor (descriptor.toText miniscript) =
    .ok ()
  bare : ensureDescriptorStringMatches miniscript descriptor
    (descriptor.body miniscript.printing) = .ok ()

/-- `miniscript` reads the descriptor from its text, with and without checksum. -/
structure ParsesBack (miniscript : Miniscript) (descriptor : Descriptor) : Prop where
  printed : miniscript.fromStr (descriptor.toText miniscript) = .ok descriptor
  bare : miniscript.fromStr (descriptor.body miniscript.printing) = .ok descriptor

variable {miniscript : Miniscript} {printing : KeyPrinting} {builder : DescriptorBuilder}
  {descriptor : Descriptor}

theorem printed_keys_size {texts : List Text} (distinct : texts.Nodup) :
    (Std.ExtTreeSet.ofList texts : Std.ExtTreeSet Text compare).size = texts.length := by
  apply Std.ExtTreeSet.size_ofList
  apply distinct.imp
  intro left right different equal
  exact different (Std.LawfulEqCmp.eq_of_compare equal)

theorem policy_of_cosigners
    (distinct : (builder.cosigners.map (·.toText printing)).Nodup) :
    PolicyOf printing builder ⟨builder.threshold.toNat,
      Std.ExtTreeSet.ofList (builder.cosigners.map (·.toText printing))⟩ := by
  have listed := builder.cosigners_perm
  constructor
  · rfl
  · intro text
    have texts := (listed.map (·.toText printing)).mem_iff (a := text)
    rw [Std.ExtTreeSet.mem_ofList, List.contains_iff_mem, texts, List.map_map, List.mem_map]
    rfl
  · have counted := listed.length_eq
    rw [List.length_map, BTreeMap.valuesInOrder, List.length_map, Std.ExtTreeMap.length_toList]
      at counted
    rw [printed_keys_size distinct, List.length_map, counted]

theorem matches_itself {k : Nat} {keys : List DescriptorPublicKey} :
    descriptorsMatch printing (.wsh (.sortedMulti k keys)) (.wsh (.sortedMulti k keys)) =
      .ok true :=
  descriptors_match_iff.mpr ⟨k, keys, keys, rfl, rfl, fun _ => Iff.rfl⟩

theorem string_matches_of_parsed {text : Text}
    (parsed : miniscript.fromStr text = .ok descriptor)
    (itself : descriptorsMatch miniscript.printing descriptor descriptor = .ok true) :
    ensureDescriptorStringMatches miniscript descriptor text = .ok () := by
  rw [ensureDescriptorStringMatches, parsed]
  exact ensure_ok_iff_match.mpr itself

/-- Extraction undoes building exactly for the segwit script type. -/
theorem extracts_iff_wsh (faithful : miniscript.Faithful)
    (built : builder.build miniscript = .ok descriptor)
    (parsesBack : ParsesBack miniscript descriptor) :
    Extracts miniscript builder descriptor ↔ builder.scriptType = .wsh := by
  obtain ⟨-, -, -, -, distinct, -⟩ := DescriptorBuilder.build_eq_ok.mp built
  obtain ⟨network, -, assembled⟩ := DescriptorBuilder.build_is_assembled faithful built
  constructor
  · intro extracts
    obtain ⟨policy, extracted, -⟩ := extracts.policy
    obtain ⟨k, keys, shape, -⟩ := multisig_policy_eq_ok.mp extracted
    rw [assembled, DescriptorBuilder.assembled] at shape
    cases kind : builder.scriptType with
    | wsh => rfl
    | tr =>
        rw [kind] at shape
        cases shape
  · intro kind
    have shape : descriptor = .wsh (.sortedMulti builder.threshold.toNat builder.cosigners) := by
      rw [assembled, DescriptorBuilder.assembled, kind]
    have itself : descriptorsMatch miniscript.printing descriptor descriptor = .ok true := by
      rw [shape]
      exact matches_itself
    constructor
    · exact ⟨_, multisig_policy_eq_ok.mpr ⟨_, _, shape, rfl⟩, policy_of_cosigners distinct⟩
    · exact itself
    · exact string_matches_of_parsed parsesBack.printed itself
    · exact string_matches_of_parsed parsesBack.bare itself

def reading (miniscript : Miniscript) (descriptor : Descriptor) : Miniscript :=
  { miniscript with
    fromStr := fun text =>
      if text = descriptor.toText miniscript ∨ text = descriptor.body miniscript.printing then
        .ok descriptor
      else .error "unexpected" }

theorem reading_parses_back : ParsesBack (reading miniscript descriptor) descriptor where
  printed := if_pos (Or.inl rfl)
  bare := if_pos (Or.inr rfl)

theorem reading_segwit_faithful (faithful : miniscript.Faithful) {inner : WshInner} :
    (reading miniscript (.wsh inner)).Faithful where
  sortedmulti := by
    intro k keys descriptor answer
    exact faithful.sortedmulti answer
  multiA := by
    intro internalKey k keys descriptor nonempty answer
    simp only [reading] at answer
    split_ifs at answer with known
    rcases known with whole | bare
    · have opening := congrArg List.head? whole
      simp [Descriptor.toText, Descriptor.body, trText, wshText] at opening
    · have opening := congrArg List.head? bare
      simp [Descriptor.body, trText, wshText] at opening

theorem extracts_iff_wsh_mock :
    Extracts (reading MockSigner.miniscript trusted)
        (.ofSigners 2 (.bitcoin .testnet) .fixed .wsh .rawNums
          [MockSigner.first, MockSigner.second]) trusted ↔
      (DescriptorBuilder.ofSigners 2 (.bitcoin .testnet) .fixed .wsh .rawNums
        [MockSigner.first, MockSigner.second]).scriptType = .wsh := by
  have built : (DescriptorBuilder.ofSigners 2 (.bitcoin .testnet) .fixed .wsh .rawNums
      [MockSigner.first, MockSigner.second]).build (reading MockSigner.miniscript trusted) =
        .ok trusted := by decide +kernel
  have faithful : (reading MockSigner.miniscript trusted).Faithful :=
    reading_segwit_faithful MockSigner.miniscript_faithful
  exact extracts_iff_wsh faithful built reading_parses_back

/-- The builder makes a taproot descriptor whose policy is refused. -/
theorem taproot_policy_refused :
    (FederationBuild.taprootBuilder 2 (.bitcoin .testnet) FederationBuild.mockChaincode
        [MockSigner.first, MockSigner.second]).build
        (reading FederationBuild.taprootEnvironment.miniscript FederationBuild.mockTaproot) =
          .ok FederationBuild.mockTaproot ∧
      multisigPolicy FederationBuild.mockPrinting FederationBuild.mockTaproot =
        .error (.unsupportedShape "expected wsh(sortedmulti(...)), got a tr descriptor") ∧
      ¬ Extracts
        (reading FederationBuild.taprootEnvironment.miniscript FederationBuild.mockTaproot)
        (FederationBuild.taprootBuilder 2 (.bitcoin .testnet) FederationBuild.mockChaincode
          [MockSigner.first, MockSigner.second]) FederationBuild.mockTaproot := by
  have refused : multisigPolicy FederationBuild.mockPrinting FederationBuild.mockTaproot =
      .error (.unsupportedShape "expected wsh(sortedmulti(...)), got a tr descriptor") := by
    decide +kernel
  refine ⟨by decide +kernel, refused, ?_⟩
  intro extracts
  obtain ⟨policy, extracted, -⟩ := extracts.policy
  cases refused.symm.trans extracted

end EmvaultCore.PolicyMatch
