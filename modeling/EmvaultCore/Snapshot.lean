import EmvaultCore.CanonicalJson
import EmvaultCore.Federation

/-!
# Federation snapshots

A snapshot records the descriptor a `Federation` carries, its thresholds and its
signers, and is exported as canonical JSON.
-/

namespace EmvaultCore

open Library (Text)

structure SignerSnapshot where
  id : SignerId
  label : Option String
  xpub : Text
  fingerprint : Text
  derivationPath : Text
  signerType : SignerType
  capabilities : SignerCapabilities

structure FederationSnapshot where
  descriptor : Text
  threshold : UInt32
  totalSigners : Nat
  network : NetworkType
  signers : List SignerSnapshot
  createdAt : Int

/-! The `serde` forms of the fields. -/

def Network.toJson : Network → String
  | .bitcoin => "bitcoin"
  | .testnet => "testnet"
  | .testnet4 => "testnet4"
  | .signet => "signet"
  | .regtest => "regtest"

def ElementsNetworkId.toJson : ElementsNetworkId → String
  | .liquid => "liquid"
  | .liquidTestnet => "liquid_testnet"
  | .elementsRegtest => "elements_regtest"

/-- Internally tagged, with the network as a member of its own. -/
def NetworkType.toJson : NetworkType → Json
  | .bitcoin network => .object [("kind", .string "bitcoin"), (network.toJson, .null)]
  | .elements id => .object [("kind", .string "elements"), (id.toJson, .null)]

def SignerType.toJson : SignerType → Json
  | .software => .string "software"
  | .external => .string "external"

def TransportType.toJson : TransportType → Json
  | .usb => .string "usb"
  | .ble => .string "ble"
  | .qr => .string "qr"
  | .sdCard => .string "sd_card"
  | .nfc => .string "nfc"
  | .pkcs11 => .string "pkcs11"

def SignerCapabilities.toJson (capabilities : SignerCapabilities) : Json :=
  .object [
    ("blind_signing", .bool capabilities.blindSigning),
    ("taproot", .bool capabilities.taproot),
    ("musig2", .bool capabilities.musig2),
    ("transports", .array (capabilities.transports.map TransportType.toJson))]

def SignerSnapshot.toJson (signer : SignerSnapshot) : Json :=
  .object [
    ("id", .string signer.id),
    ("label", match signer.label with | some label => .string label | none => .null),
    ("xpub", .string (String.ofList signer.xpub)),
    ("fingerprint", .string (String.ofList signer.fingerprint)),
    ("derivation_path", .string (String.ofList signer.derivationPath)),
    ("signer_type", signer.signerType.toJson),
    ("capabilities", signer.capabilities.toJson)]

namespace FederationSnapshot

def toJson (snapshot : FederationSnapshot) : Json :=
  .object [
    ("descriptor", .string (String.ofList snapshot.descriptor)),
    ("threshold", .number snapshot.threshold.toNat),
    ("total_signers", .number snapshot.totalSigners),
    ("network", snapshot.network.toJson),
    ("signers", .array (snapshot.signers.map SignerSnapshot.toJson)),
    ("created_at", .number snapshot.createdAt)]

def toCanonicalJson (snapshot : FederationSnapshot) : Text := snapshot.toJson.writeCanonical

/-- What a snapshot taken at `now`, in seconds, records of a federation. -/
def record (printing : KeyPrinting) (now : Int) (federation : Federation) :
    FederationSnapshot where
  descriptor := federation.descriptorString
  threshold := federation.threshold
  totalSigners := federation.signers.length
  network := federation.network
  signers := federation.signers.map fun signer => {
    id := signer.id
    label := signer.label
    xpub := printing.xpub signer.xpub
    fingerprint := Library.Text.hex 8 signer.fingerprint
    derivationPath := printing.derivationPath signer.derivationPath
    signerType := signer.signerType
    capabilities := signer.capabilities }
  createdAt := now

def fromFederation {Error : Type} (printing : KeyPrinting) (now : Int)
    (federation : Federation) : Outcome Error FederationSnapshot :=
  if 2 ^ 32 ≤ federation.signers.length then
    .error (.panic "federation member count fits u32")
  else .ok (record printing now federation)

end FederationSnapshot

end EmvaultCore
