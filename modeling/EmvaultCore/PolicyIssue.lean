import EmvaultCore.WalletPolicy

/-!
# When a wallet policy is issued

`bip388_taproot_policy` is a second path to the descriptor that `build` makes.
It leaves out the checks of `build`, and writes a wildcard behind every key,
also behind the single keys of fixed mode.
-/

namespace EmvaultCore.DescriptorBuilder

open Library (Text)
open Library.Text

/-- What `build` asks of a taproot builder, and keys that have a wildcard. -/
structure Fundable (miniscript : Miniscript) (builder : DescriptorBuilder) (network : Network) :
    Prop where
  ranged : builder.mode = .ranged
  someSigner : builder.entries.isEmpty = false
  networks : ∀ entry ∈ builder.entries.valuesInOrder,
    entry.xpub.network = NetworkKind.ofNetwork network
  distinct : (builder.sortedTaprootKeys.map (·.toText miniscript.printing)).Nodup
  accepts : ∃ descriptor,
    miniscript.fromStr ((builder.assembled network).body miniscript.printing) = .ok descriptor

/-- An issued policy is the policy of the descriptor that the builder builds. -/
def IssuedSoundly (miniscript : Miniscript) (builder : DescriptorBuilder) : Prop :=
  ∀ policy, builder.bip388TaprootPolicy miniscript.printing = .ok policy →
    ∃ descriptor, builder.build miniscript = .ok descriptor ∧
      policy.expand = some (toMultipathString miniscript descriptor)

variable {miniscript : Miniscript} {builder : DescriptorBuilder} {network : Network}
  {chainCode : ChainCode}

theorem policy_issued {policy : Bip388TaprootPolicy} {printing : KeyPrinting}
    (issued : builder.bip388TaprootPolicy printing = .ok policy) :
    ∃ chainCode network, builder.taprootInternalKey = .numsXpub chainCode ∧
      builder.scriptType = .tr ∧ builder.network.bitcoin? = some network := by
  unfold bip388TaprootPolicy at issued
  cases internal : builder.taprootInternalKey with
  | rawNums =>
      rw [internal] at issued
      cases issued
  | numsXpub chainCode =>
      rw [internal] at issued
      by_cases taproot : builder.scriptType = .tr
      · cases onBitcoin : builder.network.bitcoin? with
        | none => simp [taproot, onBitcoin] at issued
        | some network => exact ⟨chainCode, network, rfl, taproot, rfl⟩
      · simp [taproot] at issued

theorem policy_always_issued {printing : KeyPrinting}
    (internal : builder.taprootInternalKey = .numsXpub chainCode)
    (taproot : builder.scriptType = .tr) (onBitcoin : builder.network.bitcoin? = some network) :
    ∃ policy, builder.bip388TaprootPolicy printing = .ok policy := by
  rw [bip388TaprootPolicy, internal]
  simp [taproot, onBitcoin]

theorem build_of_fundable (taproot : builder.scriptType = .tr)
    (onBitcoin : builder.network.bitcoin? = some network)
    (fundable : builder.Fundable miniscript network) :
    ∃ descriptor, builder.build miniscript = .ok descriptor := by
  obtain ⟨descriptor, answer⟩ := fundable.accepts
  refine ⟨descriptor, build_eq_ok.mpr ⟨fundable.someSigner, network, onBitcoin,
    fundable.networks, ?_, ?_⟩⟩
  · rw [cosigners, taproot]
    exact fundable.distinct
  · rw [accepted, taproot]
    exact answer

theorem built_body (printsBack : FederationBuild.PrintsBack miniscript)
    (taproot : builder.scriptType = .tr) (onBitcoin : builder.network.bitcoin? = some network)
    {descriptor : Descriptor} (built : builder.build miniscript = .ok descriptor) :
    toMultipathString miniscript descriptor =
      toMultipathString miniscript (builder.assembled network) := by
  obtain ⟨-, other, same, -, -, answer⟩ := build_eq_ok.mp built
  obtain rfl := Option.some.inj (onBitcoin.symm.trans same)
  have body : descriptor.body miniscript.printing =
      (builder.assembled network).body miniscript.printing := by
    rw [accepted, taproot] at answer
    unfold assembled at answer ⊢
    rw [taproot] at answer ⊢
    exact printsBack _ _ _ _ answer
  rw [toMultipathString, toMultipathString, Descriptor.toText, Descriptor.toText, body]

theorem star_not_mem_fixed {printing : KeyPrinting} (fixed : builder.mode = .fixed)
    {key : DescriptorPublicKey} (among : key ∈ builder.cosigners) (step : Text) :
    '*' ∉ key.textAt printing step := by
  obtain ⟨entry, -, rfl⟩ := cosigners_mem among
  obtain ⟨single, key⟩ := cosigner_of_fixed fixed entry
  intro member
  have printed : '*' ∈ (builder.cosigner entry).toText printing := by
    rw [key] at member ⊢
    exact member
  rcases cosigner_mem printed with plain | ⟨ranged, -⟩
  · exact absurd plain (by decide)
  · rw [fixed] at ranged
    cases ranged

theorem fixed_policy_differs {printing : KeyPrinting} (base58 : printing.PrintsBase58)
    (taproot : builder.scriptType = .tr)
    (internal : builder.taprootInternalKey = .numsXpub chainCode)
    (fixed : builder.mode = .fixed) (nonempty : builder.cosigners ≠ []) :
    builder.multipathBody printing network chainCode ≠
      builder.bodyWith (·.textAt printing bothKeychains) network := by
  intro same
  have nums := @nums_text_at_both builder network chainCode printing base58 internal
  have keys :
      (builder.cosigners.map fun key => ',' :: (keyInfo printing key ++ multipathText)).flatten =
        (builder.cosigners.map fun key => ',' :: key.textAt printing bothKeychains).flatten := by
    simpa [multipathBody, bodyWith, taproot, taprootFrame, nums] using same
  obtain ⟨key, among⟩ := List.exists_mem_of_ne_nil _ nonempty
  have starred : '*' ∈ (builder.cosigners.map fun key =>
      ',' :: (keyInfo printing key ++ multipathText)).flatten := by
    rw [List.mem_flatten]
    refine ⟨_, List.mem_map.mpr ⟨key, among, rfl⟩, ?_⟩
    exact List.mem_cons_of_mem _ (List.mem_append_right _ (by decide))
  rw [keys] at starred
  obtain ⟨text, listed, member⟩ := List.mem_flatten.mp starred
  obtain ⟨other, cosigner, rfl⟩ := List.mem_map.mp listed
  rcases List.mem_cons.mp member with comma | inKey
  · exact absurd comma (by decide)
  · exact star_not_mem_fixed fixed cosigner bothKeychains inKey

/-- A policy is the policy of the built descriptor exactly where it is refused
or the builder is in ranged mode and passes all checks of `build`. -/
theorem issued_soundly_iff (printsBack : FederationBuild.PrintsBack miniscript)
    (base58 : miniscript.printing.PrintsBase58) :
    builder.IssuedSoundly miniscript ↔
      ∀ chainCode network, builder.taprootInternalKey = .numsXpub chainCode →
        builder.scriptType = .tr → builder.network.bitcoin? = some network →
        builder.Fundable miniscript network := by
  constructor
  · intro sound chainCode network internal taproot onBitcoin
    obtain ⟨policy, issued⟩ := @policy_always_issued builder network chainCode
      miniscript.printing internal taproot onBitcoin
    obtain ⟨descriptor, built, expanded⟩ := sound policy issued
    obtain ⟨someSigner, other, same, networks, distinct, answer⟩ := build_eq_ok.mp built
    obtain rfl := Option.some.inj (onBitcoin.symm.trans same)
    rw [cosigners, taproot] at distinct
    rw [accepted, taproot] at answer
    refine ⟨?_, someSigner, networks, distinct, descriptor, answer⟩
    have someCosigner := cosigners_nonempty someSigner
    obtain ⟨again, issuedAgain, expansion⟩ := @policy_expands miniscript builder network chainCode
      taproot internal onBitcoin someCosigner
    obtain rfl := Except.ok.inj (issued.symm.trans issuedAgain)
    cases mode : builder.mode with
    | ranged => rfl
    | fixed =>
        rw [built_body printsBack taproot onBitcoin built, multipath_text base58, expansion]
          at expanded
        exact absurd (Option.some.inj expanded)
          (fixed_policy_differs base58 taproot internal mode someCosigner)
  · intro funded policy issued
    obtain ⟨chainCode, network, internal, taproot, onBitcoin⟩ := policy_issued issued
    have fundable := funded chainCode network internal taproot onBitcoin
    obtain ⟨descriptor, built⟩ := build_of_fundable taproot onBitcoin fundable
    refine ⟨descriptor, built, ?_⟩
    have registrable : builder.Registrable network chainCode :=
      ⟨taproot, fundable.ranged, internal, onBitcoin⟩
    obtain ⟨again, issuedAgain, expansion⟩ := @policy_expands miniscript builder network chainCode
      taproot internal onBitcoin (cosigners_nonempty fundable.someSigner)
    obtain rfl := Except.ok.inj (issued.symm.trans issuedAgain)
    rw [expansion, built_body printsBack taproot onBitcoin built,
      multipath_string registrable base58]

end EmvaultCore.DescriptorBuilder

namespace EmvaultCore.FederationBuild

theorem issued_soundly_iff_mock :
    (taprootBuilder 2 (.bitcoin .testnet) mockChaincode
        [MockSigner.first, MockSigner.second]).IssuedSoundly taprootEnvironment.miniscript ↔
      ∀ chainCode network,
        (taprootBuilder 2 (.bitcoin .testnet) mockChaincode
          [MockSigner.first, MockSigner.second]).taprootInternalKey = .numsXpub chainCode →
        (taprootBuilder 2 (.bitcoin .testnet) mockChaincode
          [MockSigner.first, MockSigner.second]).scriptType = .tr →
        (taprootBuilder 2 (.bitcoin .testnet) mockChaincode
          [MockSigner.first, MockSigner.second]).network.bitcoin? = some network →
        (taprootBuilder 2 (.bitcoin .testnet) mockChaincode
          [MockSigner.first, MockSigner.second]).Fundable taprootEnvironment.miniscript network :=
  DescriptorBuilder.issued_soundly_iff mock_prints_back nums_prints_base58

/-- A builder without signers is issued a policy, and builds nothing. -/
theorem policy_without_signers :
    ¬ (DescriptorBuilder.configured 2 (.bitcoin .testnet) .ranged .tr
        (.numsXpub mockChaincode)).IssuedSoundly taprootEnvironment.miniscript := by
  intro sound
  obtain ⟨policy, issued⟩ := @DescriptorBuilder.policy_always_issued
    (DescriptorBuilder.configured 2 (.bitcoin .testnet) .ranged .tr (.numsXpub mockChaincode))
    .testnet mockChaincode taprootEnvironment.miniscript.printing rfl rfl rfl
  obtain ⟨descriptor, built, -⟩ := sound policy issued
  obtain ⟨someSigner, -⟩ := DescriptorBuilder.build_eq_ok.mp built
  exact absurd someSigner (by decide)

end EmvaultCore.FederationBuild
