import EmvaultCore.JsonReading
import EmvaultCore.Recovery
import EmvaultCore.SnapshotVerify

/-!
# Verifying a recovery template

`verify` hashes the contents of a template again and lets `miniscript` parse its
descriptor. The contents are all fields but the checksum and the time, and the
canonical text that is hashed can be read back, so no two contents share it.
-/

namespace EmvaultCore

open Library (Text)
open Library.Text

namespace Json

mutual

/-- `to_string_pretty` of a derived type, at a nesting depth: the members stand in
the order in which they are declared. -/
def writeDeclared (depth : Nat) : Json → Text
  | .array (item :: items) =>
      '[' :: newline (depth + 1) ++
        join (',' :: newline (depth + 1)) (writeDeclared (depth + 1) item ::
          writeDeclaredItems (depth + 1) items) ++
        newline depth ++ [']']
  | .object (member :: members) =>
      '{' :: newline (depth + 1) ++
        join (',' :: newline (depth + 1))
          ((quote member.1 ++ [':', ' '] ++ writeDeclared (depth + 1) member.2) ::
            writeDeclaredMembers (depth + 1) members) ++
        newline depth ++ ['}']
  | value => writeCanonical value

def writeDeclaredItems (depth : Nat) : List Json → List Text
  | [] => []
  | item :: items => writeDeclared depth item :: writeDeclaredItems depth items

def writeDeclaredMembers (depth : Nat) : List (String × Json) → List Text
  | [] => []
  | (name, value) :: members =>
      (quote name ++ [':', ' '] ++ writeDeclared depth value) :: writeDeclaredMembers depth members

end

end Json

/-! What the derived readers make of the written forms. -/

open Json

def Network.ofJson (name : String) : Option Network :=
  [Network.bitcoin, .testnet, .testnet4, .signet, .regtest].find? fun network =>
    network.toJson = name

def ElementsNetworkId.ofJson (name : String) : Option ElementsNetworkId :=
  [ElementsNetworkId.liquid, .liquidTestnet, .elementsRegtest].find? fun id => id.toJson = name

def NetworkType.ofJson (json : Json) : Option NetworkType := do
  let kind ← requiredField "kind" asString json
  let inner ← (memberWhere (· ≠ "kind") json).join
  match inner with
  | (name, .null) =>
      if kind = "bitcoin" then (Network.ofJson name).map .bitcoin
      else if kind = "elements" then (ElementsNetworkId.ofJson name).map .elements
      else none
  | _ => none

def SignerType.ofJson (json : Json) : Option SignerType := do
  match ← asString json with
  | "software" => some .software
  | "external" => some .external
  | _ => none

def DeviceType.ofJson (json : Json) : Option DeviceType := do
  match ← requiredField "kind" asString json with
  | "trezor" => some .trezor
  | "jade" => some .jade
  | "passport_prime" => some .passportPrime
  | "ledger" => some .ledger
  | "coldcard" => some .coldcard
  | "hsm" => (requiredField "vendor" asString json).map .hsm
  | "generic" => some .generic
  | _ => none

def RecoverySoftware.ofJson (json : Json) : Option RecoverySoftware := do
  match ← requiredField "kind" asString json with
  | "bitcoin_core" => some .bitcoinCore
  | "sparrow_wallet" => some .sparrowWallet
  | "specter_desktop" => some .specterDesktop
  | "nunchuk" => some .nunchuk
  | "other" => (requiredField "name" asString json).map .other
  | _ => none

def RecoveryInstructions.ofJson (json : Json) : Option RecoveryInstructions := do
  let software ← requiredField "software" RecoverySoftware.ofJson json
  let minVersion ← optionalField "min_version" asString json
  let steps ← requiredField "steps" (asList asString) json
  return { software, minVersion, steps := steps.map String.toList }

def RecoverySignerInfo.ofJson (json : Json) : Option RecoverySignerInfo := do
  let id ← requiredField "id" asString json
  let label ← optionalField "label" asString json
  let fingerprint ← requiredField "fingerprint" asString json
  let derivationPath ← requiredField "derivation_path" asString json
  let signerType ← requiredField "signer_type" SignerType.ofJson json
  let deviceType ← requiredField "device_type" DeviceType.ofJson json
  return { id, label, signerType, deviceType
           fingerprint := fingerprint.toList
           derivationPath := derivationPath.toList }

namespace RecoveryTemplate

def ofContents (checksum : Text) (generatedAt : Int) (json : Json) :
    Option RecoveryTemplate := do
  let descriptor ← requiredField "descriptor" asString json
  let threshold ← requiredField "threshold" asU32 json
  let totalSigners ← requiredField "total_signers" asCount json
  let network ← requiredField "network" NetworkType.ofJson json
  let signerInfo ← requiredField "signer_info" (asList RecoverySignerInfo.ofJson) json
  let reconstructionInstructions ←
    requiredField "reconstruction_instructions" (asList RecoveryInstructions.ofJson) json
  let lastReceiveIndex ← optionalField "last_receive_index" asU32 json
  let lastChangeIndex ← optionalField "last_change_index" asU32 json
  return { threshold, totalSigners, network, signerInfo, reconstructionInstructions,
           lastReceiveIndex, lastChangeIndex, checksum, generatedAt
           descriptor := descriptor.toList }

/-- The number of signers is a 32-bit word. -/
def ofJson (json : Json) : Option RecoveryTemplate := do
  let checksum ← requiredField "checksum" asString json
  let generatedAt ← requiredField "generated_at" asI64 json
  (ofContents checksum.toList generatedAt json).filter fun template =>
    template.totalSigners < 2 ^ 32

def toValue (template : RecoveryTemplate) : Json :=
  let index (value : UInt32) : Json := .number value.toNat
  .object [
    ("descriptor", .string (String.ofList template.descriptor)),
    ("threshold", .number template.threshold.toNat),
    ("total_signers", .number template.totalSigners),
    ("network", template.network.toJson),
    ("signer_info", .array (template.signerInfo.map RecoverySignerInfo.toJson)),
    ("reconstruction_instructions",
      .array (template.reconstructionInstructions.map RecoveryInstructions.toJson)),
    ("last_receive_index", .ofOption index template.lastReceiveIndex),
    ("last_change_index", .ofOption index template.lastChangeIndex),
    ("checksum", .string (String.ofList template.checksum)),
    ("generated_at", .number template.generatedAt)]

/-- `to_json`. Values of derived types are always written. -/
def toJson (template : RecoveryTemplate) : Except RecoveryError Text :=
  .ok (template.toValue.writeDeclared 0)

end RecoveryTemplate

/-- `serde_json::from_str` in two steps: the value of a text, and what the derived
reader makes of a value that does not have the form of a written template, an
error or the template of another form that it accepts. -/
structure SerdeJson where
  fromStr : Text → Except String Json
  readOther : Json → Except String RecoveryTemplate

namespace RecoveryTemplate

def fromJson (serde : SerdeJson) (json : Text) : Except RecoveryError RecoveryTemplate :=
  match serde.fromStr json with
  | .error reason => .error (.json reason)
  | .ok value =>
      match ofJson value with
      | some template => .ok template
      | none => (serde.readOther value).mapError .json

def verify (parse : ParseDescriptor) (sha256 : Text → Text) (template : RecoveryTemplate) :
    Except RecoveryError Unit :=
  let recomputed := template.computeChecksum sha256
  if recomputed ≠ template.checksum then
    .error (.checksumMismatch (String.ofList template.checksum) (String.ofList recomputed))
  else
    match parse template.descriptor with
    | .ok _ => .ok ()
    | .error reason => .error (.invalidDescriptor reason)

end RecoveryTemplate

namespace RecoveryVerify

/-! ### Written forms are read back -/

theorem network_reads (network : NetworkType) : NetworkType.ofJson network.toJson = some network := by
  cases network with
  | bitcoin network => cases network <;> rfl
  | elements id => cases id <;> rfl

theorem signer_type_reads (kind : SignerType) : SignerType.ofJson kind.toJson = some kind := by
  cases kind <;> rfl

theorem device_type_reads (kind : DeviceType) : DeviceType.ofJson kind.toJson = some kind := by
  cases kind <;> rfl

theorem software_reads (software : RecoverySoftware) :
    RecoverySoftware.ofJson software.toJson = some software := by
  cases software <;> rfl

theorem strings_read (texts : List Text) :
    asList asString (.array (texts.map fun text => .string (String.ofList text))) =
      some (texts.map String.ofList) := by
  have read := @as_list_reads _ asString Json.string (fun _ => rfl) (texts.map String.ofList)
  rw [List.map_map] at read
  exact read

theorem optional_string_reads (value : Option String) :
    asOption asString (.ofOption .string value) = some value := by
  cases value with
  | none => rfl
  | some value => rfl

theorem instructions_read (instructions : RecoveryInstructions) :
    RecoveryInstructions.ofJson instructions.toJson = some instructions := by
  have fields : RecoveryInstructions.ofJson instructions.toJson = (do
      let software ← RecoverySoftware.ofJson instructions.software.toJson
      let minVersion ← asOption asString (.ofOption .string instructions.minVersion)
      let steps ← asList asString
        (.array (instructions.steps.map fun step => .string (String.ofList step)))
      return { software, minVersion, steps := steps.map String.toList }) := rfl
  rw [fields, software_reads, optional_string_reads, strings_read]
  simp

theorem signer_info_reads (info : RecoverySignerInfo) :
    RecoverySignerInfo.ofJson info.toJson = some info := by
  have fields : RecoverySignerInfo.ofJson info.toJson = (do
      let label ← asOption asString (.ofOption .string info.label)
      let signerType ← SignerType.ofJson info.signerType.toJson
      let deviceType ← DeviceType.ofJson info.deviceType.toJson
      return { id := info.id, label, signerType, deviceType
               fingerprint := (String.ofList info.fingerprint).toList
               derivationPath := (String.ofList info.derivationPath).toList }) := rfl
  rw [fields, optional_string_reads, signer_type_reads, device_type_reads]
  simp

theorem optional_index_reads (index : Option UInt32) :
    asOption asU32 (.ofOption (fun value : UInt32 => .number value.toNat) index) = some index := by
  cases index with
  | none => rfl
  | some value =>
      change (asU32 (.number value.toNat)).map some = some (some value)
      rw [as_u32_number]
      rfl

theorem contents_read {template : RecoveryTemplate} {rest : List (String × Json)}
    (distinct : ((Json.object (template.checksumContent.members ++ rest)).members.map
      Prod.fst).Nodup) (checksum : Text) (generatedAt : Int) :
    RecoveryTemplate.ofContents checksum generatedAt
        (.object (template.checksumContent.members ++ rest)) =
      some { template with checksum, generatedAt } := by
  rw [RecoveryTemplate.ofContents, required_field_at distinct 0 "descriptor" rfl,
    required_field_at distinct 1 "threshold" rfl, required_field_at distinct 2 "total_signers" rfl,
    required_field_at distinct 3 "network" rfl, required_field_at distinct 4 "signer_info" rfl,
    required_field_at distinct 5 "reconstruction_instructions" rfl,
    optional_field_at distinct 6 "last_receive_index" rfl,
    optional_field_at distinct 7 "last_change_index" rfl, as_u32_number, as_count_number,
    network_reads, as_list_reads signer_info_reads, as_list_reads instructions_read,
    optional_index_reads, optional_index_reads]
  simp [asString]

theorem checksum_content_reads (template : RecoveryTemplate) (checksum : Text)
    (generatedAt : Int) :
    RecoveryTemplate.ofContents checksum generatedAt template.checksumContent =
      some { template with checksum, generatedAt } := by
  have distinct : ((template.checksumContent.members ++ []).map Prod.fst).Nodup := by
    change ["descriptor", "threshold", "total_signers", "network", "signer_info",
      "reconstruction_instructions", "last_receive_index", "last_change_index"].Nodup
    simp
  exact contents_read distinct checksum generatedAt

theorem template_fields_distinct (template : RecoveryTemplate) :
    (template.toValue.members.map Prod.fst).Nodup := by
  change ["descriptor", "threshold", "total_signers", "network", "signer_info",
    "reconstruction_instructions", "last_receive_index", "last_change_index", "checksum",
    "generated_at"].Nodup
  decide +kernel

theorem template_reads {template : RecoveryTemplate} (counted : template.totalSigners < 2 ^ 32)
    (dated : -2 ^ 63 ≤ template.generatedAt ∧ template.generatedAt < 2 ^ 63) :
    RecoveryTemplate.ofJson template.toValue = some template := by
  have distinct := template_fields_distinct template
  have contents : RecoveryTemplate.ofContents template.checksum template.generatedAt
      template.toValue = some template := contents_read distinct _ _
  have text : asString (.string (String.ofList template.checksum)) =
    some (String.ofList template.checksum) := rfl
  rw [RecoveryTemplate.ofJson, required_field_at distinct 8 "checksum" rfl,
    required_field_at distinct 9 "generated_at" rfl, as_i64_number dated, text,
    Option.bind_eq_bind, Option.bind_some, Option.bind_eq_bind, Option.bind_some,
    String.toList_ofList, contents]
  exact Option.filter_eq_some_iff.mpr ⟨rfl, decide_eq_true counted⟩

/-! ### The order of members does not matter -/

theorem network_order_free : OrderFree NetworkType.ofJson := by
  intro json
  rw [NetworkType.ofJson, NetworkType.ofJson, order_free_required order_free_string,
    member_where_canonical]
  cases memberWhere (· ≠ "kind") json with
  | none => rfl
  | some found =>
      cases found with
      | none => rfl
      | some member =>
          cases member with
          | mk name value => cases value <;> rfl

theorem signer_type_order_free : OrderFree SignerType.ofJson := by
  intro json
  rw [SignerType.ofJson, SignerType.ofJson, order_free_string]

theorem device_type_order_free : OrderFree DeviceType.ofJson := by
  intro json
  simp only [DeviceType.ofJson, order_free_required order_free_string _ json]

theorem software_order_free : OrderFree RecoverySoftware.ofJson := by
  intro json
  simp only [RecoverySoftware.ofJson, order_free_required order_free_string _ json]

theorem instructions_order_free : OrderFree RecoveryInstructions.ofJson := by
  intro json
  simp only [RecoveryInstructions.ofJson, order_free_required software_order_free _ json,
    order_free_optional order_free_string _ json,
    order_free_required (order_free_list order_free_string) _ json]

theorem signer_info_order_free : OrderFree RecoverySignerInfo.ofJson := by
  intro json
  simp only [RecoverySignerInfo.ofJson, order_free_required order_free_string _ json,
    order_free_optional order_free_string _ json,
    order_free_required signer_type_order_free _ json,
    order_free_required device_type_order_free _ json]

theorem contents_order_free (checksum : Text) (generatedAt : Int) :
    OrderFree (RecoveryTemplate.ofContents checksum generatedAt) := by
  intro json
  simp only [RecoveryTemplate.ofContents, order_free_required order_free_string _ json,
    order_free_required order_free_u32 _ json, order_free_required order_free_count _ json,
    order_free_required network_order_free _ json,
    order_free_required (order_free_list signer_info_order_free) _ json,
    order_free_required (order_free_list instructions_order_free) _ json,
    order_free_optional order_free_u32 _ json]

/-! ### What the checksum covers -/

def Edited (template edited : RecoveryTemplate) : Prop :=
  edited ≠ { template with
    checksum := edited.checksum
    generatedAt := edited.generatedAt }

theorem contents_of_text {template other : RecoveryTemplate}
    (same : template.checksumContent.writeCanonical = other.checksumContent.writeCanonical) :
    ¬ Edited template other := by
  have sorted := canonical_eq_of_text same
  have read := checksum_content_reads template other.checksum other.generatedAt
  rw [← contents_order_free, sorted, contents_order_free, checksum_content_reads] at read
  exact not_not_intro (Option.some.inj read)

section Verify

variable {parse : ParseDescriptor} {sha256 : Text → Text} {template edited : RecoveryTemplate}

theorem verify_eq_ok :
    template.verify parse sha256 = .ok () ↔
      template.checksum = template.computeChecksum sha256 ∧
        ∃ descriptor, parse template.descriptor = .ok descriptor := by
  unfold RecoveryTemplate.verify
  by_cases same : template.computeChecksum sha256 = template.checksum
  · cases parse template.descriptor with
    | error reason => simp [same]
    | ok descriptor => simp [same]
  · have apart : ¬ template.checksum = template.computeChecksum sha256 :=
      fun equal => same equal.symm
    simp [same, apart]

/-- SHA-256 tells the contents of the two templates apart, if they differ. -/
def NoCollision (sha256 : Text → Text) (template edited : RecoveryTemplate) : Prop :=
  template.computeChecksum sha256 = edited.computeChecksum sha256 →
    template.checksumContent.writeCanonical = edited.checksumContent.writeCanonical

theorem edited_mismatch (verified : template.verify parse sha256 = .ok ())
    (kept : edited.checksum = template.checksum) (differs : Edited template edited)
    (noCollision : NoCollision sha256 template edited) :
    edited.verify parse sha256 = .error (.checksumMismatch (String.ofList template.checksum)
      (String.ofList (edited.computeChecksum sha256))) := by
  have matching := (verify_eq_ok.mp verified).1
  have mismatch : edited.computeChecksum sha256 ≠ edited.checksum := by
    intro same
    have hashes : template.computeChecksum sha256 = edited.computeChecksum sha256 := by
      rw [same, kept, matching]
    exact contents_of_text (noCollision hashes) differs
  rw [RecoveryTemplate.verify, if_pos mismatch, kept]

def ReadsBack (serde : SerdeJson) (template : RecoveryTemplate) : Prop :=
  serde.fromStr (template.toValue.writeDeclared 0) = .ok template.toValue

theorem round_trips {serde : SerdeJson} (counted : template.totalSigners < 2 ^ 32)
    (dated : -2 ^ 63 ≤ template.generatedAt ∧ template.generatedAt < 2 ^ 63)
    (reads : ReadsBack serde template) :
    ∃ text, template.toJson = .ok text ∧ RecoveryTemplate.fromJson serde text = .ok template := by
  refine ⟨_, rfl, ?_⟩
  rw [RecoveryTemplate.fromJson, reads]
  simp only [template_reads counted dated]

end Verify

/-! ### Built templates -/

section Build

variable {miniscript : Miniscript} {parse : ParseDescriptor} {sha256 : Text → Text}
  {builder : RecoveryTemplateBuilder} {template : RecoveryTemplate} {now : Int}

theorem built_counts {Error : Type} {printing : KeyPrinting}
    (made : (builder.build printing sha256 now : Outcome Error RecoveryTemplate) = .ok template) :
    template.totalSigners < 2 ^ 32 ∧ template.generatedAt = now := by
  rw [RecoveryTemplateBuilder.build] at made
  by_cases many : 2 ^ 32 ≤ builder.federation.signers.length
  · rw [if_pos many] at made
    cases made
  · rw [if_neg many] at made
    cases made
    exact ⟨Nat.lt_of_not_le many, rfl⟩

theorem built_verifies (recordable : SnapshotVerify.Recordable parse miniscript builder.federation)
    (isBitcoin : builder.federation.network.isBitcoin = true) (now : Int) :
    ∃ template, (builder.build miniscript.printing sha256 now :
        Outcome RecoveryError RecoveryTemplate) = .ok template ∧
      template.verify parse sha256 = .ok () := by
  obtain ⟨origin, reached⟩ := recordable.reachable
  have sound := Federation.sound_of_reachable reached
  obtain ⟨-, descriptor, -, stored, text⟩ := Federation.built_of_reachable reached isBitcoin
  obtain ⟨template, made, carried, _, checksum⟩ :=
    @build_spec RecoveryError miniscript.printing sha256 now builder sound.counted
  refine ⟨template, made, verify_eq_ok.mpr ⟨checksum, descriptor, ?_⟩⟩
  rw [carried, text]
  exact recordable.parsesBack descriptor stored

end Build

/-- Built templates verify and survive their text, and what `verify` accepts
cannot be edited under the same checksum. -/
theorem templates_round_trip_and_detect {miniscript : Miniscript} {parse : ParseDescriptor}
    {sha256 : Text → Text} {serde : SerdeJson} :
    (∀ (builder : RecoveryTemplateBuilder) (now : Int64),
      SnapshotVerify.Recordable parse miniscript builder.federation →
      builder.federation.network.isBitcoin = true →
      ∃ template, (builder.build miniscript.printing sha256 now.toInt :
          Outcome RecoveryError RecoveryTemplate) = .ok template ∧
        template.verify parse sha256 = .ok () ∧
        (ReadsBack serde template → ∃ text parsed, template.toJson = .ok text ∧
          RecoveryTemplate.fromJson serde text = .ok parsed ∧ parsed = template ∧
          parsed.verify parse sha256 = .ok ())) ∧
    (∀ template edited, Edited template edited →
      template.checksumContent.writeCanonical ≠ edited.checksumContent.writeCanonical) ∧
    ∀ template edited : RecoveryTemplate, template.verify parse sha256 = .ok () →
      Edited template edited → edited.checksum = template.checksum →
      NoCollision sha256 template edited →
      edited.verify parse sha256 = .error (.checksumMismatch (String.ofList template.checksum)
        (String.ofList (edited.computeChecksum sha256))) := by
  refine ⟨?_, ?_, ?_⟩
  · intro builder now recordable isBitcoin
    obtain ⟨template, made, verified⟩ := built_verifies recordable isBitcoin now.toInt
    refine ⟨template, made, verified, ?_⟩
    intro reads
    obtain ⟨counted, dated⟩ := built_counts made
    have bounds : -2 ^ 63 ≤ template.generatedAt ∧ template.generatedAt < 2 ^ 63 := by
      rw [dated]
      exact ⟨now.le_toInt, now.toInt_lt⟩
    obtain ⟨text, written, read⟩ := round_trips counted bounds reads
    exact ⟨text, template, written, read, rfl, verified⟩
  · intro template edited differs same
    exact contents_of_text same differs
  · intro template edited verified differs kept noCollision
    exact edited_mismatch verified kept differs noCollision

def mockBuilder : RecoveryTemplateBuilder :=
  ((RecoveryTemplateBuilder.new (MockSigner.federation .wsh)).setSoftwares
    [.nunchuk]).setLastReceiveIndex 7

def mockContents : RecoveryTemplate :=
  { mockBuilder.blank MockSigner.printing 1700000000 with
    reconstructionInstructions :=
      [generateInstructions .nunchuk (mockBuilder.blank MockSigner.printing 1700000000)] }

def mockDigest : Text :=
  "398b58d08a9568a9b54105c6ad366f1502bcc8ce674a970653956f59a3022c2f".toList

def tamperedDigest : Text :=
  "11c337794c55028ff797246b3092b3c60ca9ab44b9f72a978c3e450a341e9363".toList

def mockTemplate : RecoveryTemplate := { mockContents with checksum := mockDigest }

def tampered : RecoveryTemplate := { mockTemplate with threshold := 99 }

def mockSha256 (text : Text) : Text :=
  if text = mockContents.checksumContent.writeCanonical then mockDigest else tamperedDigest

def mockSerde : SerdeJson where
  fromStr text :=
    if text = mockTemplate.toValue.writeDeclared 0 then .ok mockTemplate.toValue
    else .error "expected value"
  readOther _ := .error "missing field"

theorem tampered_differs : Edited mockTemplate tampered := by
  intro same
  have thresholds := congrArg RecoveryTemplate.threshold same
  cases thresholds

theorem mock_contents : mockTemplate.checksumContent = mockContents.checksumContent := rfl

theorem tampered_checksum : tampered.computeChecksum mockSha256 = tamperedDigest := by
  have apart : tampered.checksumContent.writeCanonical ≠
      mockContents.checksumContent.writeCanonical := by
    intro same
    rw [← mock_contents] at same
    exact contents_of_text same.symm tampered_differs
  rw [RecoveryTemplate.computeChecksum, mockSha256, if_neg apart]

theorem mock_template_built : (mockBuilder.build MockSigner.printing mockSha256 1700000000 :
    Outcome RecoveryError RecoveryTemplate) = .ok mockTemplate := by
  have counted : ¬ 2 ^ 32 ≤ mockBuilder.federation.signers.length := by decide
  have unsigned : (mockBuilder.build MockSigner.printing mockSha256 1700000000 :
      Outcome RecoveryError RecoveryTemplate) =
        .ok { mockContents with checksum := mockContents.computeChecksum mockSha256 } := by
    rw [RecoveryTemplateBuilder.build, if_neg counted]
    rfl
  rw [unsigned, RecoveryTemplate.computeChecksum, mockSha256, if_pos rfl]
  rfl

theorem mock_template_guarded :
    ∃ template, (mockBuilder.build MockSigner.printing mockSha256 1700000000 :
        Outcome RecoveryError RecoveryTemplate) = .ok template ∧
      template.verify SnapshotVerify.mockParse mockSha256 = .ok () ∧
      (∃ text parsed, template.toJson = .ok text ∧
        RecoveryTemplate.fromJson mockSerde text = .ok parsed ∧ parsed = template ∧
        parsed.verify SnapshotVerify.mockParse mockSha256 = .ok ()) ∧
      { template with threshold := 99 }.verify SnapshotVerify.mockParse mockSha256 =
        .error (.checksumMismatch (String.ofList mockDigest) (String.ofList tamperedDigest)) := by
  obtain ⟨valid, _, detects⟩ := @templates_round_trip_and_detect MockSigner.miniscript
    SnapshotVerify.mockParse mockSha256 mockSerde
  obtain ⟨template, made, verified, survives⟩ :=
    valid mockBuilder 1700000000 SnapshotVerify.mock_recordable rfl
  obtain rfl : mockTemplate = template := Except.ok.inj (mock_template_built.symm.trans made)
  have reads : ReadsBack mockSerde mockTemplate := by
    unfold ReadsBack mockSerde
    dsimp only
    rw [if_pos rfl]
  have distinct : mockTemplate.checksum ≠ tamperedDigest := by decide
  have noCollision : NoCollision mockSha256 mockTemplate tampered := by
    intro same
    rw [tampered_checksum, ← (verify_eq_ok.mp verified).1] at same
    exact absurd same distinct
  have found := detects mockTemplate tampered verified tampered_differs rfl noCollision
  rw [tampered_checksum] at found
  exact ⟨mockTemplate, made, verified, survives reads, found⟩

end RecoveryVerify

end EmvaultCore
