import EmvaultCore.DescriptorText

/-!
# Lifting a descriptor to both keychains

`to_multipath_string` substitutes in the printed text. On what the builder
assembles it changes each ranged key into its two-path form and nothing else.
-/

namespace EmvaultCore

open Library (Text)
open Library.Text

/-- A text without wildcard is kept, one that ends in `/0/*` gets both branches. -/
def Lifts (text lifted : Text) : Prop :=
  ∃ info, '*' ∉ info ∧ (text = info ∧ lifted = info ∨
    text = info ++ externalText ∧ lifted = info ++ multipathText)

section Texts

variable {printing : KeyPrinting} {plain rest : Text}

theorem lift_first (absent : '*' ∉ plain) :
    replace externalText multipathText (plain ++ externalText ++ rest) =
      plain ++ multipathText ++ replace externalText multipathText rest := by
  have inStem : '*' ∉ ['/', '0', '/'] := by decide
  exact replace_first inStem absent

theorem lift_plain (absent : '*' ∉ plain) :
    replace externalText multipathText plain = plain := by
  have inPattern : '*' ∈ externalText := by decide
  exact replace_eq_self inPattern absent

theorem lift_keys {keys : List DescriptorPublicKey} {lifted : DescriptorPublicKey → Text}
    (lifts : ∀ key ∈ keys, Lifts (key.toText printing) (lifted key)) (before : '*' ∉ plain)
    (after : '*' ∉ rest) :
    replace externalText multipathText (plain ++ keysText printing keys ++ rest) =
      plain ++ (keys.map fun key => ',' :: lifted key).flatten ++ rest := by
  induction keys generalizing plain with
  | nil =>
      have absent : '*' ∉ plain ++ rest := by simp [before, after]
      simp [keysText, lift_plain absent]
  | cons key keys ih =>
      have later : ∀ other ∈ keys, Lifts (other.toText printing) (lifted other) :=
        fun other member => lifts other (List.mem_cons_of_mem key member)
      rcases lifts key List.mem_cons_self with ⟨info, bare, ⟨text, same⟩ | ⟨text, same⟩⟩
      · have absent : '*' ∉ plain ++ ',' :: info := by simp [before, bare]
        have here := ih later absent
        have split : plain ++ keysText printing (key :: keys) ++ rest =
            (plain ++ ',' :: info) ++ keysText printing keys ++ rest := by
          simp [keysText, text]
        rw [split, here, List.map_cons, List.flatten_cons, same]
        simp
      · have absent : '*' ∉ plain ++ ',' :: info := by simp [before, bare]
        have here := ih later List.not_mem_nil
        have split : plain ++ keysText printing (key :: keys) ++ rest =
            (plain ++ ',' :: info) ++ externalText ++ ([] ++ keysText printing keys ++ rest) := by
          simp [keysText, text]
        rw [split, lift_first absent, here, List.map_cons, List.flatten_cons, same]
        simp

theorem star_not_mem_decimal (number : Nat) : '*' ∉ decimal number := fun member =>
  absurd (mem_decimal member) (by decide)

theorem lift_internal {internal lifted : Text} (lifts : Lifts internal lifted)
    (before : '*' ∉ plain) {middle : Text} (between : '*' ∉ middle)
    {keys : List DescriptorPublicKey} {liftedKey : DescriptorPublicKey → Text}
    (each : ∀ key ∈ keys, Lifts (key.toText printing) (liftedKey key)) (after : '*' ∉ rest) :
    replace externalText multipathText
        (plain ++ internal ++ (middle ++ keysText printing keys ++ rest)) =
      plain ++ lifted ++ (middle ++ (keys.map fun key => ',' :: liftedKey key).flatten ++ rest) := by
  rcases lifts with ⟨info, bare, ⟨text, same⟩ | ⟨text, same⟩⟩
  · have absent : '*' ∉ plain ++ info ++ middle := by simp [before, bare, between]
    have whole := @lift_keys printing _ rest keys liftedKey each absent after
    simpa [text, same] using whole
  · have absent : '*' ∉ plain ++ info := by simp [before, bare]
    have split : plain ++ internal ++ (middle ++ keysText printing keys ++ rest) =
        plain ++ info ++ externalText ++ (middle ++ keysText printing keys ++ rest) := by
      simp [text]
    rw [split, lift_first absent, lift_keys each between after, same]
    simp

end Texts

def DescriptorPublicKey.lifted : DescriptorPublicKey → DescriptorPublicKey
  | .xPub key =>
      if key.derivationPath = [.normal 0] ∧ key.wildcard = .unhardened then
        .multiXPub ⟨key.origin, key.xkey, [[.normal 0], [.normal 1]], .unhardened⟩
      else .xPub key
  | key => key

def Descriptor.mapKeys (change : DescriptorPublicKey → DescriptorPublicKey) :
    Descriptor → Descriptor
  | .wsh (.sortedMulti k pks) => .wsh (.sortedMulti k (pks.map change))
  | .tr internalKey (some (.multiA k pks)) =>
      .tr (change internalKey) (some (.multiA k (pks.map change)))
  | descriptor => descriptor

/-- How a pair of keychains prints. -/
def KeyPrinting.PrintsTwoPaths (printing : KeyPrinting) : Prop :=
  printing.derivationPaths [[.normal 0], [.normal 1]] = ['/', '<', '0', ';', '1', '>']

/-- The key with its receive step, where it has one, printed as `step`. -/
def DescriptorPublicKey.textAt (printing : KeyPrinting) (step : Text) : DescriptorPublicKey → Text
  | .xPub key =>
      if key.derivationPath = [.normal 0] ∧ key.wildcard = .unhardened then
        originText key.origin ++ printing.xpub key.xkey ++ '/' :: step ++ ['/', '*']
      else DescriptorPublicKey.toText printing (.xPub key)
  | key => key.toText printing

def bothKeychains : Text := ['<', '0', ';', '1', '>']

section Keys

variable {printing : KeyPrinting}

theorem text_at_receive (key : DescriptorPublicKey) :
    key.textAt printing ['0'] = key.toText printing := by
  cases key with
  | xPub key =>
      by_cases receives : key.derivationPath = [.normal 0] ∧ key.wildcard = .unhardened
      · simp [DescriptorPublicKey.textAt, receives, DescriptorPublicKey.toText, pathText,
          ChildNumber.toText, decimal, Wildcard.toText]
      · rw [DescriptorPublicKey.textAt, if_neg receives]
  | single key => rfl
  | multiXPub key => rfl

theorem text_at_both (twoPaths : printing.PrintsTwoPaths) (key : DescriptorPublicKey) :
    key.textAt printing bothKeychains = key.lifted.toText printing := by
  rw [KeyPrinting.PrintsTwoPaths] at twoPaths
  cases key with
  | xPub key =>
      by_cases receives : key.derivationPath = [.normal 0] ∧ key.wildcard = .unhardened
      · simp [DescriptorPublicKey.textAt, DescriptorPublicKey.lifted, receives,
          DescriptorPublicKey.toText, twoPaths, bothKeychains, Wildcard.toText]
      · rw [DescriptorPublicKey.textAt, DescriptorPublicKey.lifted, if_neg receives,
          if_neg receives]
  | single key => rfl
  | multiXPub key => rfl

theorem fixed_key_lifts {key : DescriptorPublicKey} (bare : '*' ∉ key.toText printing) :
    Lifts (key.toText printing) (key.toText printing) :=
  ⟨_, bare, Or.inl ⟨rfl, rfl⟩⟩

theorem ranged_lifts (base58 : printing.PrintsBase58) (entry : KeyEntry) :
    ∃ info, '*' ∉ info ∧
      (buildDescriptorKey .ranged entry).toText printing = info ++ externalText ∧
      (buildDescriptorKey .ranged entry).textAt printing bothKeychains = info ++ multipathText := by
  have outside : '*' ∉ keyAlphabet := by decide
  refine ⟨originText (some (entry.fingerprint, entry.derivationPath)) ++
    printing.xpub entry.xpub, ?_, ?_, ?_⟩
  · rw [List.mem_append, not_or]
    exact ⟨fun member => outside (origin_mem_key_alphabet member), (base58 entry.xpub).2⟩
  · rw [ranged_key_text]
    simp [pathText, ChildNumber.toText, decimal, externalText]
  · simp [buildDescriptorKey, DescriptorPublicKey.textAt, bothKeychains, multipathText]

theorem nums_lifts (base58 : printing.PrintsBase58) (network : Network) (chainCode : ChainCode) :
    ∃ info, '*' ∉ info ∧
      (numsXpubDescriptorKey network chainCode).toText printing = info ++ externalText ∧
      (numsXpubDescriptorKey network chainCode).textAt printing bothKeychains =
        info ++ multipathText := by
  refine ⟨_, (base58 (numsXpub network chainCode)).2, ?_, ?_⟩
  · simp [numsXpubDescriptorKey, DescriptorPublicKey.toText, originText, Wildcard.toText, pathText,
      ChildNumber.toText, decimal, externalText]
  · simp [numsXpubDescriptorKey, DescriptorPublicKey.textAt, originText, bothKeychains,
      multipathText]

end Keys

namespace DescriptorBuilder

variable {printing : KeyPrinting} {builder : DescriptorBuilder} {network : Network}

def bodyWith (print : DescriptorPublicKey → Text) (builder : DescriptorBuilder)
    (network : Network) : Text :=
  let keys := (builder.cosigners.map fun key => ',' :: print key).flatten
  match builder.scriptType with
  | .wsh =>
      wshText ++ (sortedmultiText ++ decimal builder.threshold.toNat ++ keys ++ [')']) ++ [')']
  | .tr =>
      trText ++ print (builder.internalKey network) ++ [','] ++
        (multiAText ++ decimal builder.threshold.toNat ++ keys ++ [')']) ++ [')']

theorem assembled_body :
    (builder.assembled network).body printing =
      builder.bodyWith (DescriptorPublicKey.toText printing) network := by
  unfold assembled bodyWith
  cases builder.scriptType with
  | wsh => rfl
  | tr => rfl

theorem mapped_body (change : DescriptorPublicKey → DescriptorPublicKey) :
    ((builder.assembled network).mapKeys change).body printing =
      builder.bodyWith (fun key => (change key).toText printing) network := by
  unfold assembled bodyWith
  cases builder.scriptType <;>
    simp [Descriptor.mapKeys, Descriptor.body, WshInner.toText, TapTree.toText, keysText,
      Function.comp_def]

theorem cosigner_of_ranged (ranged : builder.mode = .ranged) (entry : KeyEntry) :
    builder.cosigner entry = buildDescriptorKey .ranged entry := by
  cases kind : builder.scriptType <;> simp [cosigner, taprootCosigner, kind, ranged]

theorem cosigner_of_fixed (fixed : builder.mode = .fixed) (entry : KeyEntry) :
    ∃ single, builder.cosigner entry = .single single := by
  cases kind : builder.scriptType <;>
    simp [cosigner, taprootCosigner, kind, fixed, buildDescriptorKey, buildTaprootKey]

theorem cosigner_lifts (base58 : printing.PrintsBase58) {key : DescriptorPublicKey}
    (among : key ∈ builder.cosigners) :
    Lifts (key.toText printing) (key.textAt printing bothKeychains) := by
  rcases cosigners_mem among with ⟨entry, -, rfl⟩
  cases mode : builder.mode with
  | fixed =>
      have outside : '*' ∉ keyAlphabet := by decide
      have bare : '*' ∉ (builder.cosigner entry).toText printing := by
        intro member
        rcases cosigner_mem member with plain | ⟨ranged, -⟩
        · exact outside plain
        · rw [mode] at ranged
          cases ranged
      rcases cosigner_of_fixed mode entry with ⟨single, key⟩
      rw [key] at bare ⊢
      exact fixed_key_lifts bare
  | ranged =>
      rcases ranged_lifts base58 entry with ⟨info, bare, text, lifted⟩
      rw [cosigner_of_ranged mode]
      exact ⟨info, bare, Or.inr ⟨text, lifted⟩⟩

theorem internal_key_lifts (base58 : printing.PrintsBase58) :
    Lifts ((builder.internalKey network).toText printing)
      ((builder.internalKey network).textAt printing bothKeychains) := by
  unfold internalKey
  cases builder.taprootInternalKey with
  | rawNums =>
      apply fixed_key_lifts
      intro member
      have outside : '*' ∉ keyAlphabet := by decide
      exact outside (hex_mem_key_alphabet member)
  | numsXpub chainCode =>
      rcases nums_lifts base58 network chainCode with ⟨info, bare, text, lifted⟩
      exact ⟨info, bare, Or.inr ⟨text, lifted⟩⟩

/-- The multipath string prints every key on both keychains. -/
theorem multipath_text {miniscript : Miniscript} (base58 : miniscript.printing.PrintsBase58) :
    toMultipathString miniscript (builder.assembled network) =
      builder.bodyWith (·.textAt miniscript.printing bothKeychains) network := by
  have cosigners : ∀ key ∈ builder.cosigners, Lifts (key.toText miniscript.printing)
      (key.textAt miniscript.printing bothKeychains) := fun key => cosigner_lifts base58
  have hash := @hash_not_mem_assembled miniscript.printing builder network base58
  have closing : '*' ∉ [')', ')'] := by decide
  rw [toMultipathString, Descriptor.toText, before_append hash]
  unfold assembled bodyWith
  cases builder.scriptType with
  | wsh =>
      have opening : '*' ∉ wshText ++ sortedmultiText ++ decimal builder.threshold.toNat := by
        rw [List.mem_append, not_or]
        exact ⟨by decide, star_not_mem_decimal _⟩
      have lifted := lift_keys cosigners opening closing
      simpa [Descriptor.body, WshInner.toText, keysText] using lifted
  | tr =>
      have opening : '*' ∉ trText := by decide
      have between : '*' ∉ [','] ++ multiAText ++ decimal builder.threshold.toNat := by
        rw [List.mem_append, not_or]
        exact ⟨by decide, star_not_mem_decimal _⟩
      have internal := @internal_key_lifts miniscript.printing builder network base58
      have lifted := lift_internal internal opening between cosigners closing
      simpa [Descriptor.body, TapTree.toText, keysText] using lifted

theorem multipath_is_lifted {miniscript : Miniscript} (base58 : miniscript.printing.PrintsBase58)
    (twoPaths : miniscript.printing.PrintsTwoPaths) :
    toMultipathString miniscript (builder.assembled network) =
      ((builder.assembled network).mapKeys DescriptorPublicKey.lifted).body
        miniscript.printing := by
  have keys : DescriptorPublicKey.textAt miniscript.printing bothKeychains =
      fun key => key.lifted.toText miniscript.printing := funext (text_at_both twoPaths)
  rw [multipath_text base58, mapped_body, ← keys]

end DescriptorBuilder

end EmvaultCore
