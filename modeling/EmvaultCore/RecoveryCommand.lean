import EmvaultCore.Library.Shell
import EmvaultCore.MultipathBranches

/-!
# The recovery command in a shell

The Bitcoin Core instructions put the JSON of an import request between single
quotes. A hardened step of an origin path prints a single quote of its own, and
then the shell reads another word.
-/

namespace EmvaultCore

open Library (Text)
open Library.Text

def ChildNumber.isHardened : ChildNumber → Bool
  | .normal _ => false
  | .hardened _ => true

/-- Neither extended keys, which print in base 58, nor checksums have a quote. -/
structure Miniscript.PrintsUnquoted (miniscript : Miniscript) : Prop where
  xpub : ∀ key, '\'' ∉ miniscript.printing.xpub key
  checksum : ∀ body, '\'' ∉ miniscript.checksum body

namespace RecoveryCommand

def importRequest (template : RecoveryTemplate) : ImportRequest where
  desc := template.descriptor
  active := true
  internal := false
  timestamp := "now"
  range := (0, (template.lastReceiveIndex.getD 20).toNat)

def payload (template : RecoveryTemplate) : Text :=
  (Json.array [(importRequest template).toJson]).writePretty 0

/-- The shell hands over the payload as the last word of the import line, and that
is the JSON of a request for the template's descriptor. -/
structure Survives (template : RecoveryTemplate) (instructions : RecoveryInstructions) : Prop where
  lastWord : ∃ line found, instructions.steps[3]? = some line ∧
    Library.Shell.words line = some found ∧ found.getLast? = some (payload template)
  descriptor : (importRequest template).toJson.member? "desc" =
    some (.string (String.ofList template.descriptor))

/-! ### The quotes of the payload -/

section Payload

variable {template : RecoveryTemplate}

theorem quote_mem_escape {char : Char} : '\'' ∈ Json.escape char ↔ char = '\'' := by
  constructor
  · intro member
    unfold Json.escape at member
    -- Seven characters become a backslash and another character.
    iterate 7
      split at member
      · exact absurd member (by decide)
    split at member
    · rcases List.mem_append.mp member with mark | digits
      · exact absurd mark (by decide)
      · exact absurd (mem_hex digits) (by decide)
    · exact (List.mem_singleton.mp member).symm
  · rintro rfl
    decide

theorem quote_mem_escaped {text : Text} :
    '\'' ∈ (text.map Json.escape).flatten ↔ '\'' ∈ text := by
  constructor
  · intro member
    obtain ⟨part, among, inside⟩ := List.mem_flatten.mp member
    obtain ⟨char, source, rfl⟩ := List.mem_map.mp among
    rwa [quote_mem_escape.mp inside] at source
  · intro member
    exact List.mem_flatten.mpr ⟨_, List.mem_map_of_mem member, quote_mem_escape.mpr rfl⟩

theorem sorted_request (active desc internal timestamp range : Text) :
    Json.sortMembers [("desc", desc), ("active", active), ("internal", internal),
        ("timestamp", timestamp), ("range", range)] =
      [("active", active), ("desc", desc), ("internal", internal), ("range", range),
        ("timestamp", timestamp)] := by
  have first : ¬ "desc" ≤ "active" := by decide
  have last : ¬ "timestamp" ≤ "range" := by decide
  have between : "internal" ≤ "range" ∧ "active" ≤ "internal" ∧ "desc" ≤ "internal" := by decide
  simp [Json.sortMembers, first, last, between]

theorem payload_text (template : RecoveryTemplate) :
    payload template =
      "[\n  \x7b\n    \"active\": true,\n    \"desc\": \"".toList ++
        (template.descriptor.map Json.escape).flatten ++
        "\",\n    \"internal\": false,\n    \"range\": [\n      0,\n      ".toList ++
        decimal (template.lastReceiveIndex.getD 20).toNat ++
        "\n    ],\n    \"timestamp\": \"now\"\n  \x7d\n]".toList := by
  have index : (Json.number (template.lastReceiveIndex.getD 20).toNat).writeCanonical =
      decimal (template.lastReceiveIndex.getD 20).toNat := by
    have notNegative : ¬ ((template.lastReceiveIndex.getD 20).toNat : Int) < 0 := by omega
    rw [Json.writeCanonical, Json.integer, if_neg notNegative, Int.natAbs_natCast]
  have desc : (Json.string (String.ofList template.descriptor)).writeCanonical =
      '"' :: (template.descriptor.map Json.escape).flatten ++ ['"'] := by
    rw [Json.writeCanonical, Json.quote, String.toList_ofList]
  simp only [payload, importRequest, List.map, ImportRequest.toJson, Json.writePretty,
    Json.writePrettyItems, Json.writePrettyMembers, sorted_request, index, desc, join]
  generalize (template.descriptor.map Json.escape).flatten = escaped
  generalize decimal (template.lastReceiveIndex.getD 20).toNat = digits
  simp only [List.append_assoc, List.cons_append, List.nil_append]
  rfl

theorem quote_mem_payload : '\'' ∈ payload template ↔ '\'' ∈ template.descriptor := by
  have front : '\'' ∉ "[\n  \x7b\n    \"active\": true,\n    \"desc\": \"".toList := by decide
  have middle :
      '\'' ∉ "\",\n    \"internal\": false,\n    \"range\": [\n      0,\n      ".toList := by
    decide
  have index : '\'' ∉ decimal (template.lastReceiveIndex.getD 20).toNat :=
    fun member => absurd (mem_decimal member) (by decide)
  have back : '\'' ∉ "\n    ],\n    \"timestamp\": \"now\"\n  \x7d\n]".toList := by decide
  simp only [payload_text, List.mem_append, front, middle, index, back, quote_mem_escaped, false_or,
    or_false]

theorem payload_ending : (payload template).getLast? ≠ some '\'' := by
  have ending : (payload template).getLast? = some ']' := List.getLast?_concat
  rw [ending]
  decide

/-! ### The line of the command -/

def commandText : Text :=
  "  bitcoin-cli -rpcwallet=emvault-recovery importdescriptors ".toList

def commandWords : List Text :=
  ["bitcoin-cli".toList, "-rpcwallet=emvault-recovery".toList, "importdescriptors".toList]

theorem command_line (template : RecoveryTemplate) :
    (generateInstructions .bitcoinCore template).steps[3]? =
      some (commandText ++ ('\'' :: payload template ++ ['\''])) := by
  have opening : "  bitcoin-cli -rpcwallet=emvault-recovery importdescriptors '".toList =
      commandText ++ ['\''] := by decide
  have line : (generateInstructions .bitcoinCore template).steps[3]? =
      some ("  bitcoin-cli -rpcwallet=emvault-recovery importdescriptors '".toList ++
        payload template ++ ['\'']) := rfl
  rw [line, opening, List.append_assoc, List.append_assoc]
  rfl

theorem command_starts :
    Library.Shell.run .initial commandText = ⟨.plain, none, commandWords⟩ := by
  decide +kernel

theorem survives_iff_unquoted :
    Survives template (generateInstructions .bitcoinCore template) ↔
      '\'' ∉ template.descriptor := by
  have unquoted : ∀ word ∈ commandWords, '\'' ∉ word := by decide
  have splits := Library.Shell.last_word_quoted_iff command_starts unquoted
    (@payload_ending template)
  rw [← quote_mem_payload, ← splits]
  constructor
  · intro survives
    obtain ⟨line, found, same, split, last⟩ := survives.lastWord
    rw [command_line, Option.some.injEq] at same
    exact ⟨found, same ▸ split, last⟩
  · intro last
    obtain ⟨found, split, isLast⟩ := last
    exact ⟨⟨_, found, command_line template, split, isLast⟩, rfl⟩

end Payload

/-! ### The quotes of a descriptor -/

section Quotes

variable {printing : KeyPrinting} {builder : DescriptorBuilder} {network : Network}

theorem quote_mem_child {child : ChildNumber} :
    '\'' ∈ child.toText ↔ child.isHardened = true := by
  have digits (index : Fin (2 ^ 31)) : '\'' ∉ decimal index :=
    fun member => absurd (mem_decimal member) (by decide)
  cases child with
  | normal index => simp [ChildNumber.toText, ChildNumber.isHardened, digits]
  | hardened index => simp [ChildNumber.toText, ChildNumber.isHardened]

theorem quote_mem_path {path : DerivationPath} :
    '\'' ∈ pathText path ↔ ∃ child ∈ path, child.isHardened = true := by
  have slash : '\'' ≠ '/' := by decide
  induction path with
  | nil => simp [pathText]
  | cons child path ih =>
      have split : pathText (child :: path) = '/' :: child.toText ++ pathText path := rfl
      simp [split, slash, quote_mem_child, ih]

theorem quote_mem_origin {fingerprint : Fingerprint} {path : DerivationPath} :
    '\'' ∈ originText (some (fingerprint, path)) ↔ ∃ child ∈ path, child.isHardened = true := by
  have brackets : '\'' ≠ '[' ∧ '\'' ≠ ']' := by decide
  have digits : '\'' ∉ hex 8 fingerprint := fun member => absurd (mem_hex member) (by decide)
  simp [originText, brackets, digits, quote_mem_path]

theorem cosigner_text (unquoted : ∀ key, '\'' ∉ printing.xpub key) (entry : KeyEntry) :
    ∃ rest, '\'' ∉ rest ∧ (builder.cosigner entry).toText printing =
      originText (some (entry.fingerprint, entry.derivationPath)) ++ rest := by
  have point : '\'' ∉ hex 64 entry.xpub.publicKey.xOnly :=
    fun member => absurd (mem_hex member) (by decide)
  have ranged : ∃ rest, '\'' ∉ rest ∧ (buildDescriptorKey .ranged entry).toText printing =
      originText (some (entry.fingerprint, entry.derivationPath)) ++ rest := by
    refine ⟨printing.xpub entry.xpub ++ pathText [.normal 0] ++ ['/', '*'], ?_, ?_⟩
    · have step : '\'' ∉ pathText [.normal 0] := by decide
      simp [unquoted, step]
    · simp [ranged_key_text]
  unfold DescriptorBuilder.cosigner DescriptorBuilder.taprootCosigner
  cases builder.scriptType <;> cases builder.mode
  case wsh.fixed =>
    refine ⟨_, ?_, fixed_key_text entry⟩
    split
    · simp [point]
    · simp [point]
  case tr.fixed => exact ⟨_, point, rfl⟩
  all_goals exact ranged

theorem quote_mem_cosigner (unquoted : ∀ key, '\'' ∉ printing.xpub key) {entry : KeyEntry} :
    '\'' ∈ (builder.cosigner entry).toText printing ↔
      ∃ child ∈ entry.derivationPath, child.isHardened = true := by
  obtain ⟨rest, absent, text⟩ := @cosigner_text printing builder unquoted entry
  rw [text, List.mem_append, quote_mem_origin, or_iff_left absent]

theorem quote_mem_assembled (unquoted : ∀ key, '\'' ∉ printing.xpub key)
    (raw : builder.taprootInternalKey = .rawNums) :
    '\'' ∈ (builder.assembled network).body printing ↔
      ∃ entry ∈ builder.entries.valuesInOrder,
        ∃ child ∈ entry.derivationPath, child.isHardened = true := by
  constructor
  · intro member
    by_contra soft
    have piecewise : DescriptorBuilder.Piecewise fun text _ => '\'' ∉ text := by
      constructor
      · exact fun framed quoted => absurd (framed _ quoted) (by decide)
      · intro left _ right _ first second
        rw [List.mem_append, not_or]
        exact ⟨first, second⟩
    have internal : '\'' ∉ (builder.internalKey network).toText printing := by
      rw [DescriptorBuilder.internalKey, raw]
      exact fun digit => absurd (mem_hex digit) (by decide)
    have each : ∀ key ∈ builder.cosigners, '\'' ∉ key.toText printing := by
      intro key among quoted
      obtain ⟨entry, listed, rfl⟩ := DescriptorBuilder.cosigners_mem among
      exact soft ⟨entry, listed, (quote_mem_cosigner unquoted).mp quoted⟩
    have absent := @DescriptorBuilder.body_with_related builder network _ piecewise
      (DescriptorPublicKey.toText printing) (fun _ => []) internal each
    rw [DescriptorBuilder.assembled_body] at member
    exact absent member
  · rintro ⟨entry, listed, hardened⟩
    have among : builder.cosigner entry ∈ builder.cosigners :=
      builder.cosigners_perm.mem_iff.mpr (List.mem_map_of_mem listed)
    exact DescriptorBuilder.mem_assembled_body_of_key among
      ((quote_mem_cosigner unquoted).mpr hardened)

end Quotes

section Federations

variable {miniscript : Miniscript} {origin federation : Federation}

theorem quote_mem_descriptor_string (faithful : miniscript.Faithful)
    (unquoted : miniscript.PrintsUnquoted)
    (reached : Federation.Reachable miniscript origin federation)
    (onBitcoin : federation.network.isBitcoin = true) :
    '\'' ∈ federation.descriptorString ↔
      ∃ signer ∈ federation.signers, ∃ child ∈ signer.derivationPath, child.isHardened = true := by
  obtain ⟨distinct, descriptor, answer, -, text⟩ := Federation.built_of_reachable reached onBitcoin
  obtain ⟨network, -, rfl⟩ := DescriptorBuilder.build_is_assembled faithful answer
  have checksum : '\'' ∉ '#' :: miniscript.checksum
      ((DescriptorBuilder.ofSigners federation.threshold federation.network federation.keyMode
        federation.scriptType .rawNums federation.signers).assembled network |>.body
          miniscript.printing) := by
    rw [List.mem_cons, not_or]
    exact ⟨by decide, unquoted.checksum _⟩
  rw [text, Descriptor.toText, List.mem_append, or_iff_left checksum,
    quote_mem_assembled unquoted.xpub rfl]
  constructor
  · rintro ⟨entry, listed, hardened⟩
    obtain ⟨signer, member, rfl⟩ := (DescriptorBuilder.insert_all_values distinct).mp listed
    exact ⟨signer, member, hardened⟩
  · rintro ⟨signer, member, hardened⟩
    exact ⟨KeyEntry.ofSigner signer,
      (DescriptorBuilder.insert_all_values distinct).mpr ⟨signer, member, rfl⟩, hardened⟩

/-- The import line of a built template survives the shell exactly when no signer
has a hardened step in its derivation path. -/
theorem command_survives_iff (faithful : miniscript.Faithful)
    (unquoted : miniscript.PrintsUnquoted) {builder : RecoveryTemplateBuilder}
    (reached : Federation.Reachable miniscript origin builder.federation)
    (onBitcoin : builder.federation.network.isBitcoin = true) (sha256 : Text → Text) (now : Int) :
    ∃ template, (builder.build miniscript.printing sha256 now : Outcome Empty RecoveryTemplate) =
        .ok template ∧
      ∀ instructions ∈ template.reconstructionInstructions, instructions.software = .bitcoinCore →
        (Survives template instructions ↔
          ∀ signer ∈ builder.federation.signers, ∀ child ∈ signer.derivationPath,
            child.isHardened = false) := by
  have sound := Federation.sound_of_reachable reached
  obtain ⟨template, made, carried, written, -⟩ :=
    @build_spec Empty miniscript.printing sha256 now builder sound.counted
  refine ⟨template, made, ?_⟩
  intro instructions among isCore
  rw [written] at among
  obtain ⟨software, -, rfl⟩ := List.mem_map.mp among
  obtain rfl : software = .bitcoinCore := isCore
  rw [survives_iff_unquoted, carried,
    quote_mem_descriptor_string faithful unquoted reached onBitcoin]
  simp only [not_exists, not_and, Bool.not_eq_true]

end Federations

/-! The 2-of-2 with the same keys, and with paths that have no hardened step. -/

def withoutHardening (signer : Signer) : Signer :=
  { signer with derivationPath := [.normal 48, .normal 1, .normal 0, .normal 2] }

def plainDescriptor : Descriptor :=
  (DescriptorBuilder.ofSigners 2 (.bitcoin .testnet) .fixed .wsh .rawNums
    [withoutHardening MockSigner.first, withoutHardening MockSigner.second]).assembled .testnet

def plainMiniscript : Miniscript :=
  { MockSigner.miniscript with
    checksum := fun body =>
      if body = plainDescriptor.body MockSigner.printing then "pysv9dxy".toList
      else MockSigner.checksum body }

def plainFederation : Federation :=
  { MockSigner.federation .wsh with
    signers := [withoutHardening MockSigner.first, withoutHardening MockSigner.second]
    descriptor := some plainDescriptor
    descriptorString := plainDescriptor.toText plainMiniscript }

def plainSha256 (_ : Text) : Text :=
  "4b700c0d9bfda96857104ff69c5de457215020b1ae41f8da8cd93de469d71e22".toList

theorem plain_federation_made :
    Federation.new plainMiniscript 2
        [withoutHardening MockSigner.first, withoutHardening MockSigner.second]
        (.bitcoin .testnet) = .ok plainFederation := by
  decide +kernel

theorem plain_miniscript_unquoted : plainMiniscript.PrintsUnquoted := by
  constructor
  · intro key
    change '\'' ∉ MockSigner.printing.xpub key
    unfold MockSigner.printing
    dsimp only
    split_ifs <;> decide +kernel
  · intro body
    unfold plainMiniscript MockSigner.checksum
    dsimp only
    split_ifs <;> decide +kernel

theorem command_survives_plain :
    ∃ template, ((RecoveryTemplateBuilder.new plainFederation).build MockSigner.printing
        plainSha256 1700000000 : Outcome Empty RecoveryTemplate) = .ok template ∧
      ∃ instructions ∈ template.reconstructionInstructions, Survives template instructions := by
  have faithful : plainMiniscript.Faithful := MockSigner.miniscript_faithful.with_checksum _
  obtain ⟨template, made, survives⟩ := @command_survives_iff plainMiniscript plainFederation
    faithful plain_miniscript_unquoted (RecoveryTemplateBuilder.new plainFederation)
    (Federation.constructed_by_new plain_federation_made) rfl plainSha256 1700000000
  obtain ⟨built, again, -, written, -⟩ := @build_spec Empty MockSigner.printing plainSha256
    1700000000 (RecoveryTemplateBuilder.new plainFederation) (by decide)
  obtain rfl : built = template := Except.ok.inj (again.symm.trans made)
  have listed : generateInstructions .bitcoinCore built ∈ built.reconstructionInstructions := by
    rw [written]
    exact List.mem_cons_self
  have soft : ∀ signer ∈ plainFederation.signers, ∀ child ∈ signer.derivationPath,
      child.isHardened = false := by decide
  exact ⟨built, made, _, listed, (survives _ listed rfl).mpr soft⟩

def hardenedBuilder : RecoveryTemplateBuilder :=
  RecoveryTemplateBuilder.new (MockSigner.federation .wsh)

def hardenedSha256 (_ : Text) : Text :=
  "16474ae148b4c13937cd57b425dd9243032f25dc5f933e0ec695747b3251829a".toList

def hardenedContents : RecoveryTemplate := hardenedBuilder.blank MockSigner.printing 1700000000

/-- With the hardened paths of the test federation the shell drops every mark. -/
theorem hardened_command_loses_marks :
    ∃ template, (hardenedBuilder.build MockSigner.printing hardenedSha256 1700000000 :
        Outcome Empty RecoveryTemplate) = .ok template ∧
      ∃ instructions ∈ template.reconstructionInstructions,
        ∃ line, instructions.software = .bitcoinCore ∧ instructions.steps[3]? = some line ∧
          Library.Shell.words line =
            some (commandWords ++ [(payload template).filter (· ≠ '\'')]) ∧
          ¬ Survives template instructions := by
  have counted : ¬ 2 ^ 32 ≤ hardenedBuilder.federation.signers.length := by decide
  have made : ∃ template, (hardenedBuilder.build MockSigner.printing hardenedSha256 1700000000 :
      Outcome Empty RecoveryTemplate) = .ok template ∧
      generateInstructions .bitcoinCore template ∈ template.reconstructionInstructions ∧
      template.descriptor = hardenedContents.descriptor ∧
      payload template = payload hardenedContents := by
    rw [RecoveryTemplateBuilder.build, if_neg counted]
    exact ⟨_, rfl, List.mem_cons_self, rfl, rfl⟩
  obtain ⟨template, made, listed, descriptor, same⟩ := made
  have quoted : '\'' ∈ hardenedContents.descriptor := by decide +kernel
  have split : Library.Shell.words
      (commandText ++ ('\'' :: payload hardenedContents ++ ['\''])) =
        some (commandWords ++ [(payload hardenedContents).filter (· ≠ '\'')]) := by
    rw [payload_text]
    decide +kernel
  refine ⟨template, made, _, listed, _, rfl, command_line template, ?_, ?_⟩
  · rw [same]
    exact split
  · rw [survives_iff_unquoted, descriptor]
    exact not_not_intro quoted

end RecoveryCommand

end EmvaultCore
