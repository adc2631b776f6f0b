import EmvaultCore.MemberOrder
import EmvaultCore.RecoveryVerify

/-!
# Reading snapshots back

`from_json` of both kinds of snapshots: the derived readers, behind what
`serde_json::from_str` makes of a text. They read what was written, whatever the
order of the members, so a snapshot survives its canonical text.
-/

namespace EmvaultCore

open Library (Text)
open Json

/-- `serde_json::from_str` in two steps: the value of a text, and what the derived
reader makes of a value that does not have the form of a written one. -/
structure SerdeFor (Target : Type) where
  fromStr : Text → Except String Json
  readOther : Json → Except String Target

def SerdeFor.deserialize {Target : Type} (serde : SerdeFor Target)
    (ofJson : Json → Option Target) (json : Text) : Except String Target :=
  match serde.fromStr json with
  | .error reason => .error reason
  | .ok value =>
      match ofJson value with
      | some target => .ok target
      | none => serde.readOther value

/-! The derived readers of the written forms. -/

def Json.asBool : Json → Option Bool
  | .bool value => some value
  | _ => none

def TransportType.ofJson (json : Json) : Option TransportType := do
  match ← asString json with
  | "usb" => some .usb
  | "ble" => some .ble
  | "qr" => some .qr
  | "sd_card" => some .sdCard
  | "nfc" => some .nfc
  | "pkcs11" => some .pkcs11
  | _ => none

def SignerCapabilities.ofJson (json : Json) : Option SignerCapabilities := do
  let blindSigning ← requiredField "blind_signing" asBool json
  let taproot ← requiredField "taproot" asBool json
  let musig2 ← requiredField "musig2" asBool json
  let transports ← requiredField "transports" (asList TransportType.ofJson) json
  return { blindSigning, taproot, musig2, transports }

def SignerSnapshot.ofJson (json : Json) : Option SignerSnapshot := do
  let id ← requiredField "id" asString json
  let label ← optionalField "label" asString json
  let xpub ← requiredField "xpub" asString json
  let fingerprint ← requiredField "fingerprint" asString json
  let derivationPath ← requiredField "derivation_path" asString json
  let signerType ← requiredField "signer_type" SignerType.ofJson json
  let capabilities ← requiredField "capabilities" SignerCapabilities.ofJson json
  return { id, label, signerType, capabilities
           xpub := xpub.toList
           fingerprint := fingerprint.toList
           derivationPath := derivationPath.toList }

namespace FederationSnapshot

def ofJson (json : Json) : Option FederationSnapshot := do
  let descriptor ← requiredField "descriptor" asString json
  let threshold ← requiredField "threshold" asU32 json
  let totalSigners ← requiredField "total_signers" asU32 json
  let network ← requiredField "network" NetworkType.ofJson json
  let signers ← requiredField "signers" (asList SignerSnapshot.ofJson) json
  let createdAt ← requiredField "created_at" asI64 json
  return { threshold, network, signers, createdAt
           descriptor := descriptor.toList
           totalSigners := totalSigners.toNat }

def fromJson (serde : SerdeFor FederationSnapshot) (json : Text) :
    Except SnapshotError FederationSnapshot :=
  (serde.deserialize ofJson json).mapError .json

/-- `total_signers` is a `u32`, and the time is written as an `i64`. -/
structure WellTyped (snapshot : FederationSnapshot) : Prop where
  counted : snapshot.totalSigners < 2 ^ 32
  dated : -2 ^ 63 ≤ snapshot.createdAt ∧ snapshot.createdAt < 2 ^ 63

end FederationSnapshot

namespace FederatedWalletSnapshot

def toJson (snapshot : FederatedWalletSnapshot) : Json :=
  .object [
    ("federations", .array (snapshot.federations.map FederationSnapshot.toJson)),
    ("network", snapshot.network.toJson),
    ("created_at", .number snapshot.createdAt)]

def toCanonicalJson (snapshot : FederatedWalletSnapshot) : Text := snapshot.toJson.writeCanonical

def ofJson (json : Json) : Option FederatedWalletSnapshot := do
  let federations ← requiredField "federations" (asList FederationSnapshot.ofJson) json
  let network ← requiredField "network" NetworkType.ofJson json
  let createdAt ← requiredField "created_at" asI64 json
  return { federations, network, createdAt }

def fromJson (serde : SerdeFor FederatedWalletSnapshot) (json : Text) :
    Except SnapshotError FederatedWalletSnapshot :=
  (serde.deserialize ofJson json).mapError .json

structure WellTyped (snapshot : FederatedWalletSnapshot) : Prop where
  each : ∀ federation ∈ snapshot.federations, federation.WellTyped
  dated : -2 ^ 63 ≤ snapshot.createdAt ∧ snapshot.createdAt < 2 ^ 63

end FederatedWalletSnapshot

namespace SnapshotReading

open RecoveryVerify (network_reads signer_type_reads optional_string_reads network_order_free
  signer_type_order_free)

/-! ### Names of the written objects -/

theorem capabilities_names (capabilities : SignerCapabilities) :
    (capabilities.toJson.members.map Prod.fst).Nodup := by
  change ["blind_signing", "taproot", "musig2", "transports"].Nodup
  decide +kernel

theorem signer_names (signer : SignerSnapshot) :
    (signer.toJson.members.map Prod.fst).Nodup := by
  change ["id", "label", "xpub", "fingerprint", "derivation_path", "signer_type",
    "capabilities"].Nodup
  decide +kernel

theorem snapshot_names (snapshot : FederationSnapshot) :
    (snapshot.toJson.members.map Prod.fst).Nodup := by
  change ["descriptor", "threshold", "total_signers", "network", "signers", "created_at"].Nodup
  decide +kernel

theorem wallet_snapshot_names (snapshot : FederatedWalletSnapshot) :
    (snapshot.toJson.members.map Prod.fst).Nodup := by
  change ["federations", "network", "created_at"].Nodup
  decide +kernel

/-! ### Written forms are read back -/

theorem transport_reads (transport : TransportType) :
    TransportType.ofJson transport.toJson = some transport := by
  cases transport <;> rfl

theorem capabilities_read (capabilities : SignerCapabilities) :
    SignerCapabilities.ofJson capabilities.toJson = some capabilities := by
  have distinct := capabilities_names capabilities
  rw [SignerCapabilities.ofJson, required_field_at distinct 0 "blind_signing" rfl,
    required_field_at distinct 1 "taproot" rfl, required_field_at distinct 2 "musig2" rfl,
    required_field_at distinct 3 "transports" rfl, as_list_reads transport_reads]
  rfl

theorem signer_reads (signer : SignerSnapshot) :
    SignerSnapshot.ofJson signer.toJson = some signer := by
  have distinct := signer_names signer
  have label : signer.toJson.members[1]? = some ("label", .ofOption .string signer.label) := by
    rw [SignerSnapshot.toJson]
    cases signer.label <;> rfl
  rw [SignerSnapshot.ofJson, required_field_at distinct 0 "id" rfl,
    optional_field_at distinct 1 "label" label, required_field_at distinct 2 "xpub" rfl,
    required_field_at distinct 3 "fingerprint" rfl,
    required_field_at distinct 4 "derivation_path" rfl,
    required_field_at distinct 5 "signer_type" rfl,
    required_field_at distinct 6 "capabilities" rfl, optional_string_reads, signer_type_reads,
    capabilities_read]
  simp [asString]

theorem snapshot_reads {snapshot : FederationSnapshot} (typed : snapshot.WellTyped) :
    FederationSnapshot.ofJson snapshot.toJson = some snapshot := by
  have distinct := snapshot_names snapshot
  have count : asU32 (.number snapshot.totalSigners) =
      some (UInt32.ofNat snapshot.totalSigners) := by
    have bound := typed.counted
    rw [asU32, if_pos ⟨by omega, by omega⟩, Int.toNat_natCast]
  have counted : (UInt32.ofNat snapshot.totalSigners).toNat = snapshot.totalSigners :=
    UInt32.toNat_ofNat_of_lt' typed.counted
  rw [FederationSnapshot.ofJson, required_field_at distinct 0 "descriptor" rfl,
    required_field_at distinct 1 "threshold" rfl, required_field_at distinct 2 "total_signers" rfl,
    required_field_at distinct 3 "network" rfl, required_field_at distinct 4 "signers" rfl,
    required_field_at distinct 5 "created_at" rfl, as_u32_number, count, network_reads,
    as_list_reads signer_reads, as_i64_number typed.dated]
  simp [asString, counted]

theorem wallet_snapshot_reads {snapshot : FederatedWalletSnapshot} (typed : snapshot.WellTyped) :
    FederatedWalletSnapshot.ofJson snapshot.toJson = some snapshot := by
  have distinct := wallet_snapshot_names snapshot
  rw [FederatedWalletSnapshot.ofJson, required_field_at distinct 0 "federations" rfl,
    required_field_at distinct 1 "network" rfl, required_field_at distinct 2 "created_at" rfl,
    as_list_reads_of fun federation member => snapshot_reads (typed.each federation member),
    network_reads, as_i64_number typed.dated]
  rfl

/-! ### The order of members does not matter -/

theorem order_free_bool : OrderFree asBool := by
  intro json
  cases json <;> rfl

theorem transport_order_free : OrderFree TransportType.ofJson := by
  intro json
  rw [TransportType.ofJson, TransportType.ofJson, order_free_string]

theorem capabilities_order_free : OrderFree SignerCapabilities.ofJson := by
  intro json
  simp only [SignerCapabilities.ofJson, order_free_required order_free_bool _ json,
    order_free_required (order_free_list transport_order_free) _ json]

theorem signer_order_free : OrderFree SignerSnapshot.ofJson := by
  intro json
  simp only [SignerSnapshot.ofJson, order_free_required order_free_string _ json,
    order_free_optional order_free_string _ json,
    order_free_required signer_type_order_free _ json,
    order_free_required capabilities_order_free _ json]

theorem snapshot_order_free : OrderFree FederationSnapshot.ofJson := by
  intro json
  simp only [FederationSnapshot.ofJson, order_free_required order_free_string _ json,
    order_free_required order_free_u32 _ json, order_free_required network_order_free _ json,
    order_free_required (order_free_list signer_order_free) _ json,
    order_free_required order_free_i64 _ json]

theorem wallet_snapshot_order_free : OrderFree FederatedWalletSnapshot.ofJson := by
  intro json
  simp only [FederatedWalletSnapshot.ofJson, order_free_required network_order_free _ json,
    order_free_required (order_free_list snapshot_order_free) _ json,
    order_free_required order_free_i64 _ json]

/-! ### What serde_json reads -/

/-- The integers that `serde_json` holds: those of an `i64` or a `u64`. -/
def Word (number : Int) : Prop := -2 ^ 63 ≤ number ∧ number < 2 ^ 64

/-- `serde_json` reads JSON, up to 127 arrays and objects inside each other. It may
keep the members of an object in another order. -/
def ReadsJson (fromStr : Text → Except String Json) : Prop :=
  ∀ text value, Json.parse text = some value → Fits Word 127 value →
    ∃ read, fromStr text = .ok read ∧ Reordered value read

theorem canonical_text_read {fromStr : Text → Except String Json} (reads : ReadsJson fromStr)
    {json : Json} (fits : Fits Word 127 json) :
    ∃ read, fromStr json.writeCanonical = .ok read ∧ Reordered json read := by
  have sorted := reordered_canonical json
  obtain ⟨read, answer, same⟩ :=
    reads _ _ (parse_write_canonical json) (sorted.fits.mp fits)
  exact ⟨read, answer, sorted.trans same⟩

theorem canonical_text_deserialized {Target : Type} {serde : SerdeFor Target}
    (reads : ReadsJson serde.fromStr) {ofJson : Json → Option Target} (free : OrderFree ofJson)
    {json : Json} (fits : Fits Word 127 json) {target : Target}
    (written : ofJson json = some target) :
    serde.deserialize ofJson json.writeCanonical = .ok target := by
  have once : json.NamesOnce := ⟨127, fits.mono fun _ _ => trivial⟩
  obtain ⟨read, answer, same⟩ := canonical_text_read reads fits
  have form : ofJson read = some target := by
    rw [← free read, ← same.canonical once, free json, written]
  rw [SerdeFor.deserialize, answer]
  dsimp only
  rw [form]

/-! ### Snapshots are within what serde_json reads -/

theorem network_fits (network : NetworkType) (depth : Nat) :
    Fits Word (depth + 1) network.toJson := by
  cases network with
  | bitcoin network =>
      have distinct : ["kind", network.toJson].Nodup := by cases network <;> decide +kernel
      exact .object distinct (by simp [Fits.string, Fits.null])
  | elements id =>
      have distinct : ["kind", id.toJson].Nodup := by cases id <;> decide +kernel
      exact .object distinct (by simp [Fits.string, Fits.null])

theorem transport_fits (transport : TransportType) (depth : Nat) :
    Fits Word depth transport.toJson := by
  cases transport <;> exact .string

theorem capabilities_fit (capabilities : SignerCapabilities) (depth : Nat) :
    Fits Word (depth + 2) capabilities.toJson := by
  apply Fits.object
  · exact capabilities_names capabilities
  · simp [Fits.bool, fits_array, transport_fits]

theorem signer_fits (signer : SignerSnapshot) (depth : Nat) :
    Fits Word (depth + 3) signer.toJson := by
  have kind : Fits Word (depth + 2) signer.signerType.toJson := by
    cases signer.signerType <;> exact .string
  apply Fits.object
  · exact signer_names signer
  · simp only [List.forall_mem_cons]
    refine ⟨.string, ?_, .string, .string, .string, kind, capabilities_fit _ depth, by simp⟩
    cases signer.label with
    | none => exact .null
    | some label => exact .string

theorem time_fits {value : Int} (dated : -2 ^ 63 ≤ value ∧ value < 2 ^ 63) (depth : Nat) :
    Fits Word depth (.number value) :=
  .number ⟨dated.1, dated.2.trans (by decide)⟩

theorem snapshot_fits {snapshot : FederationSnapshot} (typed : snapshot.WellTyped) (depth : Nat) :
    Fits Word (depth + 5) snapshot.toJson := by
  have threshold : Word snapshot.threshold.toNat := by
    have bound := snapshot.threshold.toNat_lt
    constructor <;> omega
  have total : Word snapshot.totalSigners := by
    have bound := typed.counted
    constructor <;> omega
  have signers : Fits Word (depth + 4) (.array (snapshot.signers.map SignerSnapshot.toJson)) := by
    apply Fits.array
    intro item listed
    obtain ⟨signer, _, rfl⟩ := List.mem_map.mp listed
    exact signer_fits signer depth
  apply Fits.object
  · exact snapshot_names snapshot
  · simp only [List.forall_mem_cons]
    exact ⟨.string, .number threshold, .number total, network_fits _ _, signers,
      time_fits typed.dated _, by simp⟩

theorem wallet_snapshot_fits {snapshot : FederatedWalletSnapshot} (typed : snapshot.WellTyped)
    (depth : Nat) : Fits Word (depth + 7) snapshot.toJson := by
  have federations : Fits Word (depth + 6)
      (.array (snapshot.federations.map FederationSnapshot.toJson)) := by
    apply Fits.array
    intro item listed
    obtain ⟨federation, member, rfl⟩ := List.mem_map.mp listed
    exact snapshot_fits (typed.each federation member) depth
  apply Fits.object
  · exact wallet_snapshot_names snapshot
  · simp only [List.forall_mem_cons]
    exact ⟨federations, network_fits _ _, time_fits typed.dated _, by simp⟩

/-! ### Canonical texts of snapshots -/

theorem snapshot_survives {serde : SerdeFor FederationSnapshot} (reads : ReadsJson serde.fromStr)
    {snapshot : FederationSnapshot} (typed : snapshot.WellTyped) :
    FederationSnapshot.fromJson serde snapshot.toCanonicalJson = .ok snapshot := by
  rw [FederationSnapshot.fromJson, FederationSnapshot.toCanonicalJson,
    canonical_text_deserialized reads snapshot_order_free (snapshot_fits typed 122)
      (snapshot_reads typed)]
  rfl

theorem wallet_snapshot_survives {serde : SerdeFor FederatedWalletSnapshot}
    (reads : ReadsJson serde.fromStr) {snapshot : FederatedWalletSnapshot}
    (typed : snapshot.WellTyped) :
    FederatedWalletSnapshot.fromJson serde snapshot.toCanonicalJson = .ok snapshot := by
  rw [FederatedWalletSnapshot.fromJson, FederatedWalletSnapshot.toCanonicalJson,
    canonical_text_deserialized reads wallet_snapshot_order_free (wallet_snapshot_fits typed 120)
      (wallet_snapshot_reads typed)]
  rfl

/-- `write_canonical` is a canonical encoding of JSON: its text is read as the value
up to member order, values have one text exactly if they are equal up to member
order, and reading a snapshot from its text and writing it gives the text again. -/
theorem write_canonical_encodes {serde : SerdeFor FederationSnapshot}
    {walletSerde : SerdeFor FederatedWalletSnapshot} (reads : ReadsJson serde.fromStr)
    (walletReads : ReadsJson walletSerde.fromStr) :
    (∀ value : Value, ∃ read, Json.parse value.text = some read ∧ Reordered value.json read) ∧
    (∀ value : Value, Fits Word 127 value.json →
      ∃ read, serde.fromStr value.text = .ok read ∧ Reordered value.json read) ∧
    (∀ value other : Value, value.text = other.text ↔ Reordered value.json other.json) ∧
    (∀ snapshot : FederationSnapshot, snapshot.WellTyped →
      (FederationSnapshot.fromJson serde snapshot.toCanonicalJson).map
        FederationSnapshot.toCanonicalJson = .ok snapshot.toCanonicalJson) ∧
    ∀ snapshot : FederatedWalletSnapshot, snapshot.WellTyped →
      (FederatedWalletSnapshot.fromJson walletSerde snapshot.toCanonicalJson).map
        FederatedWalletSnapshot.toCanonicalJson = .ok snapshot.toCanonicalJson := by
  refine ⟨parse_text, ?_, ?_, ?_, ?_⟩
  · intro value fits
    exact canonical_text_read reads fits
  · intro value other
    exact text_eq_iff
  · intro snapshot typed
    rw [snapshot_survives reads typed]
    rfl
  · intro snapshot typed
    rw [wallet_snapshot_survives walletReads typed]
    rfl

def grammarSerde (Target : Type) : SerdeFor Target where
  fromStr text :=
    match Json.parse text with
    | some value => .ok value
    | none => .error "expected value"
  readOther _ := .error "missing field"

theorem grammar_reads_json (Target : Type) : ReadsJson (grammarSerde Target).fromStr := by
  intro text value read _
  refine ⟨value, ?_, .refl value⟩
  simp [grammarSerde, read]

def mockSnapshot : FederationSnapshot :=
  .record MockSigner.printing 1700000000 (MockSigner.federation .wsh)

theorem mock_snapshot_reproduced :
    (FederationSnapshot.fromJson (grammarSerde FederationSnapshot)
      mockSnapshot.toCanonicalJson).map FederationSnapshot.toCanonicalJson =
        .ok mockSnapshot.toCanonicalJson := by
  have typed : mockSnapshot.WellTyped := by
    constructor
    · decide
    · decide
  have encodes := write_canonical_encodes (grammar_reads_json FederationSnapshot)
    (grammar_reads_json FederatedWalletSnapshot)
  exact encodes.2.2.2.1 mockSnapshot typed

end SnapshotReading

end EmvaultCore
