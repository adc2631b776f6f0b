import EmvaultCore.DescriptorHistory
import EmvaultCore.FederationBuild
import EmvaultCore.Multipath

/-!
# The wallet policy of a taproot federation

`bip388_taproot_policy` describes a federation to a signing device by a template
with numbered placeholders and the keys they stand for. Expanding the policy
gives the descriptor string that was funded.
-/

namespace EmvaultCore

open Library (Text)
open Library.Text

def stripWildcard (key : Text) : Text := trimEnd externalText (trimEnd multipathText key)

structure Bip388TaprootPolicy where
  template : Text
  keys : List Text
deriving DecidableEq, Repr

def placeholder (index : Nat) : Text := '@' :: decimal index ++ ['/', '*', '*']

def DescriptorBuilder.bip388TaprootPolicy (printing : KeyPrinting) (builder : DescriptorBuilder) :
    Except DescriptorError Bip388TaprootPolicy :=
  match builder.taprootInternalKey with
  | .rawNums => .error (.parse "BIP-388 policy requires a NumsXpub taproot builder")
  | .numsXpub chainCode =>
      if builder.scriptType ≠ .tr then .error (.parse "BIP-388 policy requires ScriptType::Tr")
      else
        match builder.network.bitcoin? with
        | none => .error (.parse "only Bitcoin networks supported")
        | some network =>
            let numsKey := stripWildcard ((numsXpubDescriptorKey network chainCode).toText printing)
            let keys := numsKey ::
              builder.sortedTaprootKeys.map fun key => stripWildcard (key.toText printing)
            let placeholders := join [','] ((List.range' 1 (keys.length - 1)).map placeholder)
            let template := trText ++ ['@', '0', '/', '*', '*', ','] ++ multiAText ++
              decimal builder.threshold.toNat ++ [','] ++ placeholders ++ [')', ')']
            .ok { template, keys }

/-- Expansion with `skip` characters of the last placeholder still to be dropped. -/
def expandFrom (keys : List Text) : Nat → Text → Option Text
  | _, [] => some []
  | skip + 1, _ :: rest => expandFrom keys skip rest
  | 0, char :: rest =>
      if char = '@' then
        let digits := rest.takeWhile Char.isDigit
        if digits ≠ [] ∧ ['/', '*', '*'] <+: rest.drop digits.length then do
          let key ← keys[Nat.ofDigitChars 10 digits 0]?
          let expanded ← expandFrom keys (digits.length + 3) rest
          some (key ++ multipathText ++ expanded)
        else none
      else (expandFrom keys 0 rest).map (char :: ·)

/-- Each `@i/**` stands for key `i` on both keychains. -/
def Bip388TaprootPolicy.expand (policy : Bip388TaprootPolicy) : Option Text :=
  expandFrom policy.keys 0 policy.template

namespace FederationBuild

/-- The free function of the same name. -/
def bip388TaprootPolicy (environment : Environment) (signers : List Signer) (threshold : UInt32)
    (network : NetworkType) (chaincode : ChainCode) : Outcome EmVaultError Bip388TaprootPolicy :=
  Outcome.ofResult .descriptor do
    let builder ← (DescriptorBuilder.configured threshold network .ranged .tr
      (.numsXpub chaincode)).addSigners signers
    builder.bip388TaprootPolicy environment.miniscript.printing

end FederationBuild

section Expansion

variable {keys : List Text}

theorem expand_from_drop (skip : Nat) (text : Text) :
    expandFrom keys skip text = expandFrom keys 0 (text.drop skip) := by
  induction text generalizing skip with
  | nil => simp [expandFrom]
  | cons head rest ih =>
      cases skip with
      | zero => rfl
      | succ skip => exact ih skip

theorem expand_plain {plain rest : Text} (absent : '@' ∉ plain) :
    expandFrom keys 0 (plain ++ rest) = (expandFrom keys 0 rest).map (plain ++ ·) := by
  induction plain with
  | nil => simp
  | cons head plain ih =>
      rw [List.mem_cons, not_or] at absent
      have other : ¬ head = '@' := fun same => absent.1 same.symm
      rw [List.cons_append, expandFrom, if_neg other, ih absent.2, Option.map_map]
      rfl

theorem expand_comma (rest : Text) :
    expandFrom keys 0 (',' :: rest) = (expandFrom keys 0 rest).map (',' :: ·) := by
  have absent : '@' ∉ [','] := by decide
  exact expand_plain absent

theorem take_digits (index : Nat) (rest : Text) :
    (decimal index ++ '/' :: rest).takeWhile Char.isDigit = decimal index := by
  have digits : ∀ char ∈ decimal index, char.isDigit = true := fun char => mem_decimal
  rw [List.takeWhile_append_of_pos digits]
  simp

theorem expand_placeholder (index : Nat) (rest : Text) :
    expandFrom keys 0 (placeholder index ++ rest) =
      keys[index]?.bind fun key =>
        (expandFrom keys 0 rest).map (key ++ multipathText ++ ·) := by
  have digits := take_digits index (['*', '*'] ++ rest)
  have text : placeholder index ++ rest = '@' :: (decimal index ++ '/' :: (['*', '*'] ++ rest)) := by
    simp [placeholder]
  have number : Nat.ofDigitChars 10 (decimal index) 0 = index := Nat.ofDigitChars_ten_toDigits
  have wildcard : ['/', '*', '*'] <+:
      (decimal index ++ '/' :: (['*', '*'] ++ rest)).drop (decimal index).length := by
    rw [List.drop_left]
    exact ⟨rest, rfl⟩
  have after : (decimal index ++ '/' :: (['*', '*'] ++ rest)).drop ((decimal index).length + 3) =
      rest := by
    rw [← List.drop_drop, List.drop_left]
    rfl
  rw [text, expandFrom, if_pos rfl]
  simp only [digits, number, decimal_nonempty, wildcard, expand_from_drop _ (_ ++ _), after,
    ne_eq, not_false_eq_true, and_self, if_true]
  cases keys[index]? with
  | none => rfl
  | some key => cases expandFrom keys 0 rest <;> rfl

theorem expand_placeholders (before infos : List Text) (rest : Text) :
    expandFrom (before ++ infos) 0
        (((List.range' before.length infos.length).map fun index => ',' :: placeholder index).flatten
          ++ rest) =
      (expandFrom (before ++ infos) 0 rest).map
        ((infos.map fun info => ',' :: (info ++ multipathText)).flatten ++ ·) := by
  induction infos generalizing before with
  | nil => simp
  | cons info infos ih =>
      have shifted := ih (before ++ [info])
      rw [List.append_assoc, List.singleton_append, List.length_append, List.length_singleton]
        at shifted
      have listed : (before ++ info :: infos)[before.length]? = some info := by simp
      rw [List.length_cons, List.range'_succ, List.map_cons, List.flatten_cons, List.append_assoc,
        List.cons_append, expand_comma, expand_placeholder, listed, Option.bind_some, shifted,
        Option.map_map, Option.map_map]
      congr 1
      funext text
      simp

end Expansion

section Stripped

variable {printing : KeyPrinting} {info : Text}

theorem strip_wildcard_external (absent : '*' ∉ info) :
    stripWildcard (info ++ externalText) = info := by
  have single : ¬ multipathText <:+ info ++ externalText := by
    intro ends
    have inner : externalText <:+ multipathText :=
      List.suffix_of_suffix_length_le (List.suffix_append info externalText) ends (by decide)
    exact absurd inner (by decide)
  have inSuffix : '*' ∈ externalText := by decide
  rw [stripWildcard, trim_end_eq_self single, trim_end_append inSuffix absent]

/-- The key information of a ranged key: all it prints but the wildcard. -/
def keyInfo (printing : KeyPrinting) (key : DescriptorPublicKey) : Text :=
  stripWildcard (key.toText printing)

def IsRanged (printing : KeyPrinting) (key : DescriptorPublicKey) : Prop :=
  key.toText printing = keyInfo printing key ++ externalText ∧ '*' ∉ keyInfo printing key

theorem key_info_of_text {key : DescriptorPublicKey} (absent : '*' ∉ info)
    (text : key.toText printing = info ++ externalText) : keyInfo printing key = info := by
  rw [keyInfo, text, strip_wildcard_external absent]

theorem is_ranged_of_text {key : DescriptorPublicKey} (absent : '*' ∉ info)
    (text : key.toText printing = info ++ externalText) : IsRanged printing key := by
  rw [IsRanged, key_info_of_text absent text]
  exact ⟨text, absent⟩

theorem ranged_key_is_ranged (base58 : printing.PrintsBase58) (entry : KeyEntry) :
    IsRanged printing (buildDescriptorKey .ranged entry) := by
  rcases ranged_lifts base58 entry with ⟨info, absent, text, -⟩
  exact is_ranged_of_text absent text

theorem nums_key_is_ranged (base58 : printing.PrintsBase58) (network : Network)
    (chainCode : ChainCode) : IsRanged printing (numsXpubDescriptorKey network chainCode) := by
  rcases nums_lifts base58 network chainCode with ⟨info, absent, text, -⟩
  exact is_ranged_of_text absent text

theorem ranged_text_at_both {key : DescriptorPublicKey} (ranged : IsRanged printing key)
    (lifts : Lifts (key.toText printing) (key.textAt printing bothKeychains)) :
    key.textAt printing bothKeychains = keyInfo printing key ++ multipathText := by
  rcases lifts with ⟨info, absent, ⟨text, -⟩ | ⟨text, lifted⟩⟩
  · have star : '*' ∈ key.toText printing := by
      rw [ranged.1]
      exact List.mem_append_right _ (by decide)
    rw [text] at star
    exact absurd star absent
  · rw [lifted, key_info_of_text absent text]

end Stripped

namespace DescriptorBuilder

variable {miniscript : Miniscript} {builder : DescriptorBuilder} {network : Network}
  {chainCode : ChainCode}

/-- A ranged taproot builder over the extended NUMS key. -/
structure Registrable (builder : DescriptorBuilder) (network : Network) (chainCode : ChainCode) :
    Prop where
  taproot : builder.scriptType = .tr
  ranged : builder.mode = .ranged
  internal : builder.taprootInternalKey = .numsXpub chainCode
  onBitcoin : builder.network.bitcoin? = some network

/-- The keys in the order of the placeholders: the internal key, then the cosigners. -/
def policyKeys (builder : DescriptorBuilder) (network : Network) (chainCode : ChainCode) :
    List DescriptorPublicKey :=
  numsXpubDescriptorKey network chainCode :: builder.cosigners

theorem policy_keys_ranged (registrable : builder.Registrable network chainCode)
    (base58 : miniscript.printing.PrintsBase58) :
    ∀ key ∈ builder.policyKeys network chainCode, IsRanged miniscript.printing key := by
  intro key member
  rcases List.mem_cons.mp member with rfl | among
  · exact nums_key_is_ranged base58 network chainCode
  · rcases cosigners_mem among with ⟨entry, -, rfl⟩
    have cosigner : builder.cosigner entry = buildDescriptorKey .ranged entry := by
      rw [DescriptorBuilder.cosigner, registrable.taproot, taprootCosigner, registrable.ranged]
    rw [cosigner]
    exact ranged_key_is_ranged base58 entry

def taprootFrame (builder : DescriptorBuilder) : Text :=
  [','] ++ multiAText ++ decimal builder.threshold.toNat

theorem at_not_mem_frame (builder : DescriptorBuilder) : '@' ∉ builder.taprootFrame := by
  intro member
  have outside : '@' ∉ [','] ++ multiAText := by decide
  rcases List.mem_append.mp member with fixed | digits
  · exact outside fixed
  · exact absurd (mem_decimal digits) (by decide)

def multipathBody (printing : KeyPrinting) (builder : DescriptorBuilder) (network : Network)
    (chainCode : ChainCode) : Text :=
  trText ++ keyInfo printing (numsXpubDescriptorKey network chainCode) ++ multipathText ++
    builder.taprootFrame ++
    (builder.cosigners.map fun key => ',' :: (keyInfo printing key ++ multipathText)).flatten ++
    [')', ')']

theorem nums_text_at_both {printing : KeyPrinting} (base58 : printing.PrintsBase58)
    (internal : builder.taprootInternalKey = .numsXpub chainCode) :
    (builder.internalKey network).textAt printing bothKeychains =
      keyInfo printing (numsXpubDescriptorKey network chainCode) ++ multipathText := by
  have lifts := @internal_key_lifts printing builder network base58
  rw [internalKey, internal] at lifts ⊢
  exact ranged_text_at_both (nums_key_is_ranged base58 network chainCode) lifts

/-- The first pipeline: print, cut the checksum and lift the wildcards. -/
theorem multipath_string (registrable : builder.Registrable network chainCode)
    (base58 : miniscript.printing.PrintsBase58) :
    toMultipathString miniscript (builder.assembled network) =
      builder.multipathBody miniscript.printing network chainCode := by
  have ranged := policy_keys_ranged registrable base58
  have internal : (builder.internalKey network).textAt miniscript.printing bothKeychains =
      keyInfo miniscript.printing (numsXpubDescriptorKey network chainCode) ++ multipathText :=
    nums_text_at_both base58 registrable.internal
  have keys : (builder.cosigners.map fun key =>
        ',' :: key.textAt miniscript.printing bothKeychains) =
      builder.cosigners.map fun key => ',' :: (keyInfo miniscript.printing key ++ multipathText) := by
    apply List.map_congr_left
    intro key among
    rw [ranged_text_at_both (ranged key (List.mem_cons_of_mem _ among)) (cosigner_lifts base58 among)]
  rw [multipath_text base58]
  simp [bodyWith, registrable.taproot, internal, keys, taprootFrame, multipathBody]

/-- The template, placeholder by placeholder. -/
theorem template_text (nonempty : builder.cosigners ≠ []) :
    trText ++ ['@', '0', '/', '*', '*', ','] ++ multiAText ++ decimal builder.threshold.toNat ++
        [','] ++ join [','] ((List.range' 1 builder.cosigners.length).map placeholder) ++
        [')', ')'] =
      trText ++ (placeholder 0 ++ (builder.taprootFrame ++
        (((List.range' 1 builder.cosigners.length).map fun index => ',' :: placeholder index).flatten
          ++ [')', ')']))) := by
  have somePlaceholder : (List.range' 1 builder.cosigners.length).map placeholder ≠ [] := by
    simpa using nonempty
  have joined : ',' :: join [','] ((List.range' 1 builder.cosigners.length).map placeholder) =
      ((List.range' 1 builder.cosigners.length).map fun index => ',' :: placeholder index).flatten := by
    rw [join_comma somePlaceholder, List.map_map]
    rfl
  rw [← joined]
  simp [taprootFrame, placeholder, decimal]

theorem template_expands (printing : KeyPrinting) (builder : DescriptorBuilder) (network : Network)
    (chainCode : ChainCode) :
    expandFrom ((builder.policyKeys network chainCode).map (keyInfo printing)) 0
        (trText ++ (placeholder 0 ++ (builder.taprootFrame ++
          (((List.range' 1 builder.cosigners.length).map fun index =>
            ',' :: placeholder index).flatten ++ [')', ')'])))) =
      some (builder.multipathBody printing network chainCode) := by
  have opening : '@' ∉ trText := by decide
  have closing : '@' ∉ [')', ')'] := by decide
  have cosigners := expand_placeholders
    [keyInfo printing (numsXpubDescriptorKey network chainCode)]
    (builder.cosigners.map (keyInfo printing)) [')', ')']
  have ends : expandFrom ((builder.policyKeys network chainCode).map (keyInfo printing)) 0
      [')', ')'] = some [')', ')'] := rfl
  rw [List.singleton_append, List.length_map, List.length_singleton] at cosigners
  rw [expand_plain opening, expand_placeholder, policyKeys, List.map_cons, List.getElem?_cons_zero,
    Option.bind_some, expand_plain builder.at_not_mem_frame, cosigners]
  rw [policyKeys, List.map_cons] at ends
  simp [ends, multipathBody, Function.comp_def]

/-- The second pipeline: strip the wildcards and number the placeholders. -/
theorem policy_expands (taproot : builder.scriptType = .tr)
    (numsInternal : builder.taprootInternalKey = .numsXpub chainCode)
    (onBitcoin : builder.network.bitcoin? = some network) (nonempty : builder.cosigners ≠ []) :
    ∃ policy, builder.bip388TaprootPolicy miniscript.printing = .ok policy ∧
      policy.expand = some (builder.multipathBody miniscript.printing network chainCode) := by
  have sorted : builder.sortedTaprootKeys = builder.cosigners := by
    rw [cosigners, taproot]
  rw [bip388TaprootPolicy, numsInternal]
  simp only [taproot, onBitcoin, sorted, ne_eq, not_true_eq_false, if_false]
  refine ⟨_, rfl, ?_⟩
  have listed : keyInfo miniscript.printing (numsXpubDescriptorKey network chainCode) ::
      builder.cosigners.map (keyInfo miniscript.printing) =
        (builder.policyKeys network chainCode).map (keyInfo miniscript.printing) := rfl
  have expanded := template_expands miniscript.printing builder network chainCode
  rw [← template_text nonempty] at expanded
  simp only [Bip388TaprootPolicy.expand, List.length_cons, List.length_map, Nat.add_sub_cancel]
  exact expanded

end DescriptorBuilder

namespace FederationBuild

variable {environment : Environment} {threshold : UInt32} {signers others : List Signer}
  {network : NetworkType} {chaincode resolved : ChainCode}

def taprootBuilder (threshold : UInt32) (network : NetworkType) (chaincode : ChainCode)
    (signers : List Signer) : DescriptorBuilder :=
  DescriptorBuilder.ofSigners threshold network .ranged .tr (.numsXpub chaincode) signers

theorem taproot_builder_perm (distinct : (signers.map Signer.id).Nodup)
    (same : signers.Perm others) :
    taprootBuilder threshold network chaincode others =
      taprootBuilder threshold network chaincode signers := by
  have otherDistinct := (same.map Signer.id).nodup_iff.mp distinct
  have entries := DescriptorBuilder.insert_all_eq otherDistinct distinct
    fun pair => (same.map DescriptorBuilder.contribution).mem_iff.symm
  rw [taprootBuilder, taprootBuilder, DescriptorBuilder.ofSigners, DescriptorBuilder.ofSigners,
    entries]

theorem policy_of_builder (distinct : (signers.map Signer.id).Nodup)
    {policy : Bip388TaprootPolicy}
    (answer : (taprootBuilder threshold network chaincode signers).bip388TaprootPolicy
      environment.miniscript.printing = .ok policy) :
    bip388TaprootPolicy environment signers threshold network chaincode = .ok policy := by
  rw [bip388TaprootPolicy, Outcome.of_result_eq_ok, bind_eq_ok]
  refine ⟨_, DescriptorBuilder.add_signers_eq_ok.mpr ⟨distinct, ?_, rfl⟩, answer⟩
  intro signer _
  exact Std.ExtTreeMap.not_mem_empty

/-- What is parsed from the text of a taproot multisig prints as that text. -/
def PrintsBack (miniscript : Miniscript) : Prop :=
  ∀ internalKey k keys descriptor,
    miniscript.fromStr
        (Descriptor.body miniscript.printing (.tr internalKey (some (.multiA k keys)))) =
      .ok descriptor →
    descriptor.body miniscript.printing =
      Descriptor.body miniscript.printing (.tr internalKey (some (.multiA k keys)))

/-- A taproot federation that was built has a policy, for its signers in any
order, and the policy expands to the descriptor string. -/
theorem registered_policy_is_funded (printsBack : PrintsBack environment.miniscript)
    (base58 : environment.miniscript.printing.PrintsBase58) {result : BuiltFederation}
    (built : buildFederationTaprootWith environment signers threshold network (.custom chaincode) =
      .ok (result, resolved)) (same : signers.Perm others) :
    ∃ policy, bip388TaprootPolicy environment others threshold network chaincode = .ok policy ∧
      policy.expand = some result.descriptorString := by
  simp only [buildFederationTaprootWith, bind_eq_ok, Outcome.of_result_eq_ok] at built
  rcases built with ⟨_, custom, descriptor, ranged, json, -, results⟩
  obtain rfl := Except.ok.inj custom
  rcases Prod.mk.inj (Except.ok.inj results) with ⟨rfl, -⟩
  rcases DescriptorBuilder.build_from_eq_ok.mp ranged with ⟨distinct, answer⟩
  rcases DescriptorBuilder.build_eq_ok.mp answer with ⟨someEntry, inner, onBitcoin, -, -, parsed⟩
  have body : descriptor.body environment.miniscript.printing =
      ((taprootBuilder threshold network chaincode signers).assembled inner).body
        environment.miniscript.printing := printsBack _ _ _ _ parsed
  have registrable : (taprootBuilder threshold network chaincode signers).Registrable inner
      chaincode := ⟨rfl, rfl, rfl, onBitcoin⟩
  have someCosigner := DescriptorBuilder.cosigners_nonempty someEntry
  rcases @DescriptorBuilder.policy_expands environment.miniscript _ _ _ registrable.taproot
    registrable.internal registrable.onBitcoin someCosigner with ⟨policy, made, expanded⟩
  rw [← taproot_builder_perm distinct same] at made
  refine ⟨policy, policy_of_builder ((same.map Signer.id).nodup_iff.mp distinct) made, ?_⟩
  rw [expanded, ← DescriptorBuilder.multipath_string registrable base58, toMultipathString,
    toMultipathString, Descriptor.toText, Descriptor.toText, body]

/-! The 2-of-2 of two mock signers over the extended NUMS key of one chain code. -/

def mockChaincode : ChainCode :=
  0x0707070707070707070707070707070707070707070707070707070707070707

def mockPrinting : KeyPrinting :=
  { MockSigner.printing with
    xpub := fun key =>
      if key = numsXpub .testnet mockChaincode then
        "tpubD6NzVbkrYhZ4WQgMVqcBgUZNwtMTUeTtcMvt9L18scpQgcQ54vKVBn1Ds8iHpazBvV8w29gahc6KLQdiszYjog6sZuWP6E8qapX7FxdWN5v".toList
      else MockSigner.printing.xpub key }

def mockTaproot : Descriptor :=
  (taprootBuilder 2 (.bitcoin .testnet) mockChaincode
    [MockSigner.first, MockSigner.second]).assembled .testnet

def mockTaprootFromStr (text : Text) : Except String Descriptor :=
  if text = mockTaproot.body mockPrinting then .ok mockTaproot else .error "unexpected"

def taprootEnvironment : Environment :=
  { mockEnvironment with
    miniscript := {
      printing := mockPrinting
      newWshSortedmulti := MockSigner.newWshSortedmulti
      fromStr := mockTaprootFromStr
      checksum := fun body =>
        if body = mockTaproot.body mockPrinting then "8hwxtxtw".toList
        else MockSigner.checksum body } }

theorem mock_prints_back : PrintsBack taprootEnvironment.miniscript := by
  intro internalKey k keys descriptor parsed
  change mockTaprootFromStr _ = _ at parsed
  unfold mockTaprootFromStr at parsed
  split at parsed
  · rename_i same
    rw [← Except.ok.inj parsed]
    exact same.symm
  · cases parsed

theorem nums_prints_base58 : taprootEnvironment.miniscript.printing.PrintsBase58 := by
  intro key
  by_cases nums : key = numsXpub .testnet mockChaincode
  · rw [nums]
    decide +kernel
  · have other : taprootEnvironment.miniscript.printing.xpub key = MockSigner.printing.xpub key :=
      if_neg nums
    rw [other]
    exact MockSigner.prints_base58 key

theorem record_of_same_keys {printing other : KeyPrinting} {now : Int} {federation : Federation}
    (keys : ∀ signer ∈ federation.signers, printing.xpub signer.xpub = other.xpub signer.xpub)
    (paths : printing.derivationPath = other.derivationPath) :
    FederationSnapshot.record printing now federation =
      FederationSnapshot.record other now federation := by
  have signers := List.map_congr_left fun signer member =>
    congrArg (fun xpub : Text => ({
      id := signer.id, label := signer.label, xpub,
      fingerprint := Library.Text.hex 8 signer.fingerprint
      derivationPath := other.derivationPath signer.derivationPath
      signerType := signer.signerType
      capabilities := signer.capabilities } : SignerSnapshot)) (keys signer member)
  rw [FederationSnapshot.record, FederationSnapshot.record, paths, signers]

theorem mock_taproot_built :
    ∃ built, buildFederationTaprootWith taprootEnvironment [MockSigner.first, MockSigner.second] 2
      (.bitcoin .testnet) (.custom mockChaincode) = .ok (built, mockChaincode) := by
  have made : Federation.new taprootEnvironment.miniscript 2 [MockSigner.first, MockSigner.second]
      (.bitcoin .testnet) = .ok (MockSigner.federation .wsh) := by decide +kernel
  have keys : ∀ signer ∈ (MockSigner.federation .wsh).signers,
      signer.xpub ≠ numsXpub .testnet mockChaincode := by decide
  have recorded : FederationSnapshot.record taprootEnvironment.miniscript.printing
      taprootEnvironment.now (MockSigner.federation .wsh) = mockSnapshot :=
    record_of_same_keys (fun signer member => if_neg (keys signer member)) rfl
  have descriptor : DescriptorBuilder.buildFrom taprootEnvironment.miniscript 2 (.bitcoin .testnet)
      .ranged .tr (.numsXpub mockChaincode) [MockSigner.first, MockSigner.second] =
        .ok mockTaproot := by decide +kernel
  rcases snapshot_of_succeeds (mock_snapshot_reads rfl made recorded) made with ⟨json, answered⟩
  refine ⟨⟨toMultipathString taprootEnvironment.miniscript mockTaproot, json⟩, ?_⟩
  simp only [buildFederationTaprootWith, bind_eq_ok, Outcome.of_result_eq_ok]
  exact ⟨mockChaincode, rfl, mockTaproot, descriptor, json, answered, rfl⟩

theorem registered_policy_is_funded_mock :
    ∃ built, buildFederationTaprootWith taprootEnvironment [MockSigner.first, MockSigner.second] 2
        (.bitcoin .testnet) (.custom mockChaincode) = .ok (built, mockChaincode) ∧
      ∃ policy, bip388TaprootPolicy taprootEnvironment [MockSigner.second, MockSigner.first] 2
          (.bitcoin .testnet) mockChaincode = .ok policy ∧
        policy.expand = some built.descriptorString := by
  rcases mock_taproot_built with ⟨built, answer⟩
  have swapped : [MockSigner.first, MockSigner.second].Perm [MockSigner.second, MockSigner.first] :=
    List.Perm.swap _ _ _
  exact ⟨built, answer,
    registered_policy_is_funded mock_prints_back nums_prints_base58 answer swapped⟩

end FederationBuild

end EmvaultCore
