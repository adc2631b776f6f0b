import EmvaultCore.DescriptorBuilder

/-!
# Which characters a built descriptor prints

Only extended keys and wildcards print anything beyond a small alphabet. A `#`
therefore marks the checksum and nothing else, and a `*` marks a ranged key.
-/

namespace EmvaultCore

open Library (Text)
open Library.Text

def keyAlphabet : Text :=
  ['0', '1', '2', '3', '4', '5', '6', '7', '8', '9', 'a', 'b', 'c', 'd', 'e', 'f', '[', ']', '/',
    '\'']

def frameAlphabet : Text :=
  wshText ++ sortedmultiText ++ trText ++ multiAText ++ [',', ')'] ++ keyAlphabet

/-- Extended keys print in base 58. -/
def KeyPrinting.PrintsBase58 (printing : KeyPrinting) : Prop :=
  ∀ key, '#' ∉ printing.xpub key ∧ '*' ∉ printing.xpub key

/-- Extended keys print none of the characters that structure a descriptor. -/
def KeyPrinting.PrintsPlain (printing : KeyPrinting) : Prop :=
  ∀ key, '/' ∉ printing.xpub key ∧ '*' ∉ printing.xpub key ∧ '#' ∉ printing.xpub key

theorem KeyPrinting.PrintsPlain.base58 {printing : KeyPrinting} (plain : printing.PrintsPlain) :
    printing.PrintsBase58 :=
  fun key => ⟨(plain key).2.2, (plain key).2.1⟩

section Characters

variable {char : Char}

theorem mem_of_all_mem {text alphabet : Text} (checked : text.all (· ∈ alphabet) = true)
    (member : char ∈ text) : char ∈ alphabet := by
  have found := List.all_eq_true.mp checked char member
  exact of_decide_eq_true found

theorem digit_mem (digit : char.isDigit) : char ∈ "0123456789".toList := by
  have bounds : 48 ≤ char.toNat ∧ char.toNat ≤ 57 := by
    simp only [Char.isDigit, Bool.and_eq_true, decide_eq_true_eq, UInt32.le_iff_toNat_le] at digit
    exact digit
  have table : ∀ value : Fin 58, 48 ≤ value.val → Char.ofNat value ∈ "0123456789".toList := by
    decide
  have member := table ⟨char.toNat, by omega⟩ bounds.1
  rwa [Char.ofNat_toNat] at member

theorem digit_mem_key_alphabet (digit : char.isDigit) : char ∈ keyAlphabet :=
  mem_of_all_mem (by decide) (digit_mem digit)

theorem hex_mem_key_alphabet {width number : Nat} (member : char ∈ hex width number) :
    char ∈ keyAlphabet := by
  have digits : "0123456789abcdef".toList.all (· ∈ keyAlphabet) = true := by decide
  exact mem_of_all_mem digits (mem_hex member)

theorem child_mem_key_alphabet {child : ChildNumber} (member : char ∈ child.toText) :
    char ∈ keyAlphabet := by
  cases child with
  | normal index => exact digit_mem_key_alphabet (mem_decimal member)
  | hardened index =>
      rcases List.mem_append.mp member with digits | mark
      · exact digit_mem_key_alphabet (mem_decimal digits)
      · rw [List.mem_singleton.mp mark]
        decide

theorem path_mem_key_alphabet {path : DerivationPath} (member : char ∈ pathText path) :
    char ∈ keyAlphabet := by
  obtain ⟨step, among, inside⟩ := List.mem_flatten.mp member
  obtain ⟨child, -, rfl⟩ := List.mem_map.mp among
  rcases List.mem_cons.mp inside with slash | rest
  · rw [slash]
    decide
  · exact child_mem_key_alphabet rest

theorem origin_mem_key_alphabet {origin : Option KeySource} (member : char ∈ originText origin) :
    char ∈ keyAlphabet := by
  cases origin with
  | none => cases member
  | some source =>
      obtain ⟨fingerprint, path⟩ := source
      simp only [originText, List.cons_append, List.mem_cons, List.mem_append,
        List.not_mem_nil, or_false] at member
      rcases member with opening | (digits | steps) | closing
      · rw [opening]
        decide
      · exact hex_mem_key_alphabet digits
      · exact path_mem_key_alphabet steps
      · rw [closing]
        decide

variable {printing : KeyPrinting}

theorem fixed_key_text (entry : KeyEntry) :
    (buildDescriptorKey .fixed entry).toText printing =
      originText (some (entry.fingerprint, entry.derivationPath)) ++
        ((if entry.xpub.publicKey.odd then ['0', '3'] else ['0', '2']) ++
          hex 64 entry.xpub.publicKey.xOnly) := by
  simp only [buildDescriptorKey, DescriptorPublicKey.toText, SinglePubKey.toText,
    PublicKey.toText, PublicKey.new, if_true]

theorem ranged_key_text (entry : KeyEntry) :
    (buildDescriptorKey .ranged entry).toText printing =
      originText (some (entry.fingerprint, entry.derivationPath)) ++
        printing.xpub entry.xpub ++ pathText [.normal 0] ++ ['/', '*'] := by
  simp only [buildDescriptorKey, DescriptorPublicKey.toText, Wildcard.toText]

theorem fixed_key_mem_alphabet {entry : KeyEntry}
    (member : char ∈ (buildDescriptorKey .fixed entry).toText printing) : char ∈ keyAlphabet := by
  rw [fixed_key_text, List.mem_append, List.mem_append] at member
  rcases member with origin | parity | digits
  · exact origin_mem_key_alphabet origin
  · split at parity
    · exact mem_of_all_mem (by decide) parity
    · exact mem_of_all_mem (by decide) parity
  · exact hex_mem_key_alphabet digits

theorem ranged_key_mem {entry : KeyEntry}
    (member : char ∈ (buildDescriptorKey .ranged entry).toText printing) :
    char ∈ keyAlphabet ∨ char ∈ printing.xpub entry.xpub ∨ char = '*' := by
  simp only [ranged_key_text, List.mem_append, List.mem_cons, List.not_mem_nil, or_false]
    at member
  rcases member with ((origin | key) | path) | slash | star
  · exact Or.inl (origin_mem_key_alphabet origin)
  · exact Or.inr (Or.inl key)
  · exact Or.inl (path_mem_key_alphabet path)
  · rw [slash]
    exact Or.inl (by decide)
  · exact Or.inr (Or.inr star)

theorem star_mem_ranged_key (entry : KeyEntry) :
    '*' ∈ (buildDescriptorKey .ranged entry).toText printing := by
  simp [ranged_key_text]

namespace DescriptorBuilder

variable {builder : DescriptorBuilder} {network : Network}

theorem mem_assembled_body (member : char ∈ (builder.assembled network).body printing) :
    char ∈ frameAlphabet ∨ char ∈ (builder.internalKey network).toText printing ∨
      ∃ key ∈ builder.cosigners, char ∈ key.toText printing := by
  have framing : ∀ text ∈ [wshText, sortedmultiText, trText, multiAText, [','], [')']],
      text.all (· ∈ frameAlphabet) = true := by decide
  have inKeys (member : char ∈ keysText printing builder.cosigners) :
      char ∈ frameAlphabet ∨ ∃ key ∈ builder.cosigners, char ∈ key.toText printing := by
    obtain ⟨text, among, inside⟩ := List.mem_flatten.mp member
    obtain ⟨key, cosigner, rfl⟩ := List.mem_map.mp among
    rcases List.mem_cons.mp inside with comma | rest
    · rw [comma]
      exact Or.inl (by decide)
    · exact Or.inr ⟨key, cosigner, rest⟩
  have inNumber {number : Nat} (member : char ∈ decimal number) : char ∈ frameAlphabet :=
    List.mem_append_right _ (digit_mem_key_alphabet (mem_decimal member))
  unfold assembled at member
  cases kind : builder.scriptType with
  | wsh =>
      simp only [kind, Descriptor.body, WshInner.toText, List.mem_append] at member
      rcases member with (opening | (((name | number) | keys) | closing)) | closing
      · exact Or.inl (mem_of_all_mem (framing _ (by simp)) opening)
      · exact Or.inl (mem_of_all_mem (framing _ (by simp)) name)
      · exact Or.inl (inNumber number)
      · exact (inKeys keys).imp_right Or.inr
      · exact Or.inl (mem_of_all_mem (framing _ (by simp)) closing)
      · exact Or.inl (mem_of_all_mem (framing _ (by simp)) closing)
  | tr =>
      simp only [kind, Descriptor.body, TapTree.toText, List.mem_append] at member
      rcases member with
        (((opening | internal) | comma) | (((name | number) | keys) | closing)) | closing
      · exact Or.inl (mem_of_all_mem (framing _ (by simp)) opening)
      · exact Or.inr (Or.inl internal)
      · exact Or.inl (mem_of_all_mem (framing _ (by simp)) comma)
      · exact Or.inl (mem_of_all_mem (framing _ (by simp)) name)
      · exact Or.inl (inNumber number)
      · exact (inKeys keys).imp_right Or.inr
      · exact Or.inl (mem_of_all_mem (framing _ (by simp)) closing)
      · exact Or.inl (mem_of_all_mem (framing _ (by simp)) closing)

theorem mem_assembled_body_of_key {key : DescriptorPublicKey} (cosigner : key ∈ builder.cosigners)
    (member : char ∈ key.toText printing) :
    char ∈ (builder.assembled network).body printing := by
  have inKeys : char ∈ keysText printing builder.cosigners := by
    rw [keysText, List.mem_flatten]
    exact ⟨',' :: key.toText printing, List.mem_map.mpr ⟨key, cosigner, rfl⟩,
      List.mem_cons_of_mem _ member⟩
  unfold assembled
  cases builder.scriptType <;>
    simp [Descriptor.body, WshInner.toText, TapTree.toText, inKeys]

theorem taproot_key_mem_alphabet {entry : KeyEntry}
    (member : char ∈ (buildTaprootKey entry).toText printing) : char ∈ keyAlphabet := by
  simp only [buildTaprootKey, DescriptorPublicKey.toText, SinglePubKey.toText, List.mem_append]
    at member
  rcases member with origin | digits
  · exact origin_mem_key_alphabet origin
  · exact hex_mem_key_alphabet digits

theorem cosigner_mem {entry : KeyEntry} (member : char ∈ (builder.cosigner entry).toText printing) :
    char ∈ keyAlphabet ∨
      builder.mode = .ranged ∧ (char ∈ printing.xpub entry.xpub ∨ char = '*') := by
  unfold cosigner taprootCosigner at member
  cases mode : builder.mode with
  | fixed =>
      cases kind : builder.scriptType with
      | wsh => exact Or.inl (fixed_key_mem_alphabet (by simpa only [mode, kind] using member))
      | tr => exact Or.inl (taproot_key_mem_alphabet (by simpa only [mode, kind] using member))
  | ranged =>
      have ranged : char ∈ (buildDescriptorKey .ranged entry).toText printing := by
        cases kind : builder.scriptType <;> simpa only [mode, kind] using member
      exact (ranged_key_mem ranged).imp_right fun rest => ⟨rfl, rest⟩

theorem cosigners_mem {key : DescriptorPublicKey} (among : key ∈ builder.cosigners) :
    ∃ entry ∈ builder.entries.valuesInOrder, key = builder.cosigner entry := by
  have member := builder.cosigners_perm.mem_iff.mp among
  obtain ⟨entry, values, rfl⟩ := List.mem_map.mp member
  exact ⟨entry, values, rfl⟩

theorem internal_key_mem (member : char ∈ (builder.internalKey network).toText printing) :
    char ∈ keyAlphabet ∨
      ∃ key, char ∈ printing.xpub key ∨ char = '*' ∧ builder.taprootInternalKey ≠ .rawNums := by
  unfold internalKey at member
  cases internal : builder.taprootInternalKey with
  | rawNums =>
      simp only [internal, DescriptorPublicKey.toText, originText, SinglePubKey.toText,
        List.nil_append] at member
      exact Or.inl (hex_mem_key_alphabet member)
  | numsXpub chainCode =>
      simp only [internal, numsXpubDescriptorKey, DescriptorPublicKey.toText, originText,
        List.nil_append, Wildcard.toText, List.mem_append, List.mem_cons, List.not_mem_nil,
        or_false] at member
      rcases member with (key | path) | slash | star
      · exact Or.inr ⟨_, Or.inl key⟩
      · exact Or.inl (path_mem_key_alphabet path)
      · rw [slash]
        exact Or.inl (by decide)
      · exact Or.inr ⟨numsXpub network chainCode, Or.inr ⟨star, by simp⟩⟩

theorem hash_not_mem_assembled (base58 : printing.PrintsBase58) :
    '#' ∉ (builder.assembled network).body printing := by
  intro member
  have outside : '#' ∉ keyAlphabet ∧ '#' ∉ frameAlphabet := by decide
  rcases mem_assembled_body member with framed | internal | ⟨key, among, inKey⟩
  · exact outside.2 framed
  · rcases internal_key_mem internal with plain | ⟨other, extended | star⟩
    · exact outside.1 plain
    · exact (base58 other).1 extended
    · exact absurd star.1 (by decide)
  · obtain ⟨entry, -, rfl⟩ := cosigners_mem among
    rcases cosigner_mem inKey with plain | ⟨-, extended | star⟩
    · exact outside.1 plain
    · exact (base58 entry.xpub).1 extended
    · exact absurd star (by decide)

theorem star_mem_assembled (ranged : builder.mode = .ranged)
    (nonempty : builder.entries.isEmpty = false) :
    '*' ∈ (builder.assembled network).body printing := by
  obtain ⟨key, among⟩ := List.exists_mem_of_ne_nil _ (cosigners_nonempty nonempty)
  have text : '*' ∈ key.toText printing := by
    obtain ⟨entry, -, rfl⟩ := cosigners_mem among
    unfold cosigner taprootCosigner
    cases builder.scriptType <;> simp only [ranged] <;> exact star_mem_ranged_key entry
  exact mem_assembled_body_of_key among text

theorem star_not_mem_assembled (base58 : printing.PrintsBase58) (fixed : builder.mode = .fixed)
    (raw : builder.taprootInternalKey = .rawNums) :
    '*' ∉ (builder.assembled network).body printing := by
  intro member
  have outside : '*' ∉ keyAlphabet ∧ '*' ∉ frameAlphabet := by decide
  rcases mem_assembled_body member with framed | internal | ⟨key, among, inKey⟩
  · exact outside.2 framed
  · rcases internal_key_mem internal with plain | ⟨other, extended | star⟩
    · exact outside.1 plain
    · exact (base58 other).2 extended
    · exact star.2 raw
  · obtain ⟨entry, -, rfl⟩ := cosigners_mem among
    rcases cosigner_mem inKey with plain | ⟨ranged, -⟩
    · exact outside.1 plain
    · rw [fixed] at ranged
      cases ranged

end DescriptorBuilder

end Characters

end EmvaultCore
