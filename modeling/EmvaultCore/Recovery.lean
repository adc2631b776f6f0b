import EmvaultCore.Federation
import EmvaultCore.Snapshot

/-!
# Recovery templates

What `RecoveryTemplateBuilder::build` writes down about a federation, and the
steps that bring it into each target software. SHA-256 is a parameter.
-/

namespace EmvaultCore

open Library (Text)
open Library.Text

inductive RecoverySoftware where
  | bitcoinCore
  | sparrowWallet
  | specterDesktop
  | nunchuk
  | other (name : String)
deriving DecidableEq

inductive DeviceType where
  | trezor
  | jade
  | passportPrime
  | ledger
  | coldcard
  | hsm (vendor : String)
  | generic
deriving DecidableEq

structure RecoveryInstructions where
  software : RecoverySoftware
  minVersion : Option String
  steps : List Text
deriving DecidableEq

structure RecoverySignerInfo where
  id : SignerId
  label : Option String
  fingerprint : Text
  derivationPath : Text
  signerType : SignerType
  deviceType : DeviceType
deriving DecidableEq

structure RecoveryTemplate where
  descriptor : Text
  threshold : UInt32
  totalSigners : Nat
  network : NetworkType
  signerInfo : List RecoverySignerInfo
  reconstructionInstructions : List RecoveryInstructions
  lastReceiveIndex : Option UInt32
  lastChangeIndex : Option UInt32
  checksum : Text
  generatedAt : Int
deriving DecidableEq

namespace Json

def newline (depth : Nat) : Text := '\n' :: List.replicate (2 * depth) ' '

mutual

/-- `to_string_pretty`, at a nesting depth. Members are sorted by their names. -/
def writePretty (depth : Nat) : Json → Text
  | .array (item :: items) =>
      '[' :: newline (depth + 1) ++
        join (',' :: newline (depth + 1)) (writePretty (depth + 1) item ::
          writePrettyItems (depth + 1) items) ++
        newline depth ++ [']']
  | .object (member :: members) =>
      '{' :: newline (depth + 1) ++
        join (',' :: newline (depth + 1))
          ((sortMembers ((member.1, writePretty (depth + 1) member.2) ::
            writePrettyMembers (depth + 1) members)).map fun written =>
              quote written.1 ++ [':', ' '] ++ written.2) ++
        newline depth ++ ['}']
  | value => writeCanonical value

def writePrettyItems (depth : Nat) : List Json → List Text
  | [] => []
  | item :: items => writePretty depth item :: writePrettyItems depth items

def writePrettyMembers (depth : Nat) : List (String × Json) → List (String × Text)
  | [] => []
  | (name, value) :: members =>
      (name, writePretty depth value) :: writePrettyMembers depth members

end

end Json

/-! The import steps of each target software. -/

/-- An object of the array that `importdescriptors` takes. -/
structure ImportRequest where
  desc : Text
  active : Bool
  internal : Bool
  timestamp : String
  range : Nat × Nat
deriving DecidableEq

def ImportRequest.toJson (request : ImportRequest) : Json :=
  .object [
    ("desc", .string (String.ofList request.desc)),
    ("active", .bool request.active),
    ("internal", .bool request.internal),
    ("timestamp", .string request.timestamp),
    ("range", .array [.number request.range.1, .number request.range.2])]

/-- A step by what it hands to the software. -/
inductive ImportStep where
  | say (text : Text)
  | paste (descriptor : Text)
  | into (name : String) (descriptor : Text)
  | importDescriptors (requests : List ImportRequest)
deriving DecidableEq

namespace ImportStep

def toText : ImportStep → Text
  | .say text => text
  | .paste descriptor => descriptor
  | .into name descriptor =>
      "Import the following descriptor into ".toList ++ name.toList ++ ": ".toList ++ descriptor
  | .importDescriptors requests =>
      "  bitcoin-cli -rpcwallet=emvault-recovery importdescriptors '".toList ++
        (Json.array (requests.map ImportRequest.toJson)).writePretty 0 ++ ['\'']

def descriptors : ImportStep → List Text
  | .say _ => []
  | .paste descriptor | .into _ descriptor => [descriptor]
  | .importDescriptors requests => requests.map ImportRequest.desc

end ImportStep

def bitcoinCoreSteps (template : RecoveryTemplate) : List ImportStep := [
  .say "Start `bitcoind` and create (or unlock) a descriptor wallet:".toList,
  .say "  bitcoin-cli createwallet \"emvault-recovery\" false false \"\" false true".toList,
  .say "Import the federation descriptor with `importdescriptors` (timestamp=\"now\" performs a full chain rescan):".toList,
  .importDescriptors [{
    desc := template.descriptor
    active := true
    internal := false
    timestamp := "now"
    range := (0, (template.lastReceiveIndex.getD 20).toNat) }],
  .say "Once the import completes, use `getbalance` and `listtransactions` to confirm the federation's UTXO history is visible.".toList]

def sparrowSteps (template : RecoveryTemplate) : List ImportStep := [
  .say "Open Sparrow → File → New Wallet → choose a wallet name.".toList,
  .say "Set the policy type to \"Multi Signature\" (m of n).".toList,
  .say ("Choose Threshold = ".toList ++ decimal template.threshold.toNat ++
    " and add Cosigners = ".toList ++ decimal template.totalSigners ++ " keystores.".toList),
  .say "Click \"Edit Policy → Output Descriptor\" and paste the descriptor below.".toList,
  .paste template.descriptor,
  .say "Apply, then verify the first receive address matches a known reference.".toList]

def specterSteps (template : RecoveryTemplate) : List ImportStep := [
  .say "Open Specter Desktop and connect to your Bitcoin Core node.".toList,
  .say ("Devices → Add new device for each of the ".toList ++ decimal template.totalSigners ++
    " cosigners.".toList),
  .say "Wallets → Add new wallet → choose \"Multisignature\".".toList,
  .say ("Set quorum to ".toList ++ decimal template.threshold.toNat ++ " of ".toList ++
    decimal template.totalSigners ++
    " and select the cosigner devices in the order encoded in the descriptor.".toList),
  .say "Advanced → \"Edit descriptor\" → paste the descriptor below.".toList,
  .paste template.descriptor,
  .say "Save the wallet and verify Specter generates the same first receive address as the source federation.".toList]

def nunchukSteps (template : RecoveryTemplate) : List ImportStep := [
  .say "Open Nunchuk → Wallets → Add → \"Recover wallet\".".toList,
  .say "Choose \"Recover from descriptor\".".toList,
  .say "Paste the descriptor:".toList,
  .paste template.descriptor,
  .say ("Confirm Threshold = ".toList ++ decimal template.threshold.toNat ++ " of ".toList ++
    decimal template.totalSigners ++ " and complete the recovery flow.".toList)]

namespace RecoverySoftware

def importSteps (template : RecoveryTemplate) : RecoverySoftware → List ImportStep
  | .bitcoinCore => bitcoinCoreSteps template
  | .sparrowWallet => sparrowSteps template
  | .specterDesktop => specterSteps template
  | .nunchuk => nunchukSteps template
  | .other name => [.into name template.descriptor]

def minVersion : RecoverySoftware → Option String
  | .bitcoinCore => some "24.0"
  | .sparrowWallet => some "1.7.0"
  | .specterDesktop => some "1.14.0"
  | .nunchuk => some "1.9.0"
  | .other _ => none

end RecoverySoftware

def generateInstructions (software : RecoverySoftware) (template : RecoveryTemplate) :
    RecoveryInstructions where
  software := software
  minVersion := software.minVersion
  steps := (software.importSteps template).map ImportStep.toText

/-! The `serde` forms that the checksum covers. -/

def RecoverySoftware.toJson : RecoverySoftware → Json
  | .bitcoinCore => .object [("kind", .string "bitcoin_core")]
  | .sparrowWallet => .object [("kind", .string "sparrow_wallet")]
  | .specterDesktop => .object [("kind", .string "specter_desktop")]
  | .nunchuk => .object [("kind", .string "nunchuk")]
  | .other name => .object [("kind", .string "other"), ("name", .string name)]

def DeviceType.toJson : DeviceType → Json
  | .trezor => .object [("kind", .string "trezor")]
  | .jade => .object [("kind", .string "jade")]
  | .passportPrime => .object [("kind", .string "passport_prime")]
  | .ledger => .object [("kind", .string "ledger")]
  | .coldcard => .object [("kind", .string "coldcard")]
  | .hsm vendor => .object [("kind", .string "hsm"), ("vendor", .string vendor)]
  | .generic => .object [("kind", .string "generic")]

def Json.ofOption {Value : Type} (toJson : Value → Json) : Option Value → Json
  | some value => toJson value
  | none => .null

def RecoveryInstructions.toJson (instructions : RecoveryInstructions) : Json :=
  .object [
    ("software", instructions.software.toJson),
    ("min_version", .ofOption .string instructions.minVersion),
    ("steps", .array (instructions.steps.map fun step => .string (String.ofList step)))]

def RecoverySignerInfo.toJson (info : RecoverySignerInfo) : Json :=
  .object [
    ("id", .string info.id),
    ("label", .ofOption .string info.label),
    ("fingerprint", .string (String.ofList info.fingerprint)),
    ("derivation_path", .string (String.ofList info.derivationPath)),
    ("signer_type", info.signerType.toJson),
    ("device_type", info.deviceType.toJson)]

namespace RecoveryTemplate

/-- `ChecksumContent`: every field but the checksum and the time. -/
def checksumContent (template : RecoveryTemplate) : Json :=
  let index (value : UInt32) : Json := .number value.toNat
  .object [
    ("descriptor", .string (String.ofList template.descriptor)),
    ("threshold", .number template.threshold.toNat),
    ("total_signers", .number template.totalSigners),
    ("network", template.network.toJson),
    ("signer_info", .array (template.signerInfo.map RecoverySignerInfo.toJson)),
    ("reconstruction_instructions",
      .array (template.reconstructionInstructions.map RecoveryInstructions.toJson)),
    ("last_receive_index", .ofOption index template.lastReceiveIndex),
    ("last_change_index", .ofOption index template.lastChangeIndex)]

/-- `compute_checksum`, with the hash in its hexadecimal form. -/
def computeChecksum (sha256 : Text → Text) (template : RecoveryTemplate) : Text :=
  sha256 template.checksumContent.writeCanonical

def carried (template : RecoveryTemplate) : List Text :=
  template.descriptor :: template.reconstructionInstructions.flatMap fun instructions =>
    (instructions.software.importSteps template).flatMap ImportStep.descriptors

end RecoveryTemplate

structure RecoveryTemplateBuilder where
  federation : Federation
  softwares : List RecoverySoftware
  lastReceiveIndex : Option UInt32
  lastChangeIndex : Option UInt32
  labels : BTreeMap SignerId String
  deviceTypes : BTreeMap SignerId DeviceType

namespace RecoveryTemplateBuilder

def new (federation : Federation) : RecoveryTemplateBuilder where
  federation := federation
  softwares := [.bitcoinCore, .sparrowWallet, .specterDesktop, .nunchuk]
  lastReceiveIndex := none
  lastChangeIndex := none
  labels := ∅
  deviceTypes := ∅

def setSoftwares (builder : RecoveryTemplateBuilder) (softwares : List RecoverySoftware) :
    RecoveryTemplateBuilder :=
  { builder with softwares := softwares }

def setLastReceiveIndex (builder : RecoveryTemplateBuilder) (index : UInt32) :
    RecoveryTemplateBuilder :=
  { builder with lastReceiveIndex := some index }

def setLastChangeIndex (builder : RecoveryTemplateBuilder) (index : UInt32) :
    RecoveryTemplateBuilder :=
  { builder with lastChangeIndex := some index }

def signerLabel (builder : RecoveryTemplateBuilder) (id : SignerId) (label : String) :
    RecoveryTemplateBuilder :=
  { builder with labels := builder.labels.insert id label }

def signerDeviceType (builder : RecoveryTemplateBuilder) (id : SignerId) (kind : DeviceType) :
    RecoveryTemplateBuilder :=
  { builder with deviceTypes := builder.deviceTypes.insert id kind }

def signerInfo (printing : KeyPrinting) (builder : RecoveryTemplateBuilder) (signer : Signer) :
    RecoverySignerInfo where
  id := signer.id
  label := builder.labels[signer.id]?.or signer.label
  fingerprint := hex 8 signer.fingerprint
  derivationPath := printing.derivationPath signer.derivationPath
  signerType := signer.signerType
  deviceType := builder.deviceTypes[signer.id]?.getD .generic

def blank (printing : KeyPrinting) (now : Int) (builder : RecoveryTemplateBuilder) :
    RecoveryTemplate where
  descriptor := builder.federation.descriptorString
  threshold := builder.federation.threshold
  totalSigners := builder.federation.signers.length
  network := builder.federation.network
  signerInfo := builder.federation.signers.map (builder.signerInfo printing)
  reconstructionInstructions := []
  lastReceiveIndex := builder.lastReceiveIndex
  lastChangeIndex := builder.lastChangeIndex
  checksum := []
  generatedAt := now

def build {Error : Type} (printing : KeyPrinting) (sha256 : Text → Text) (now : Int)
    (builder : RecoveryTemplateBuilder) : Outcome Error RecoveryTemplate :=
  if 2 ^ 32 ≤ builder.federation.signers.length then
    .error (.panic "federation member count fits u32")
  else
    let template := builder.blank printing now
    let instructions := builder.softwares.map fun software => generateInstructions software template
    let instructed := { template with reconstructionInstructions := instructions }
    .ok { instructed with checksum := instructed.computeChecksum sha256 }

end RecoveryTemplateBuilder

namespace RecoveryTemplate

def fromFederation {Error : Type} (printing : KeyPrinting) (sha256 : Text → Text) (now : Int)
    (federation : Federation) : Outcome Error RecoveryTemplate :=
  (RecoveryTemplateBuilder.new federation).build printing sha256 now

end RecoveryTemplate

section Carried

variable {template : RecoveryTemplate} {software : RecoverySoftware} {text : Text}

theorem import_descriptors :
    (software.importSteps template).flatMap ImportStep.descriptors = [template.descriptor] := by
  cases software <;> rfl

theorem mem_carried : text ∈ template.carried ↔ text = template.descriptor := by
  rw [RecoveryTemplate.carried, List.mem_cons, List.mem_flatMap]
  constructor
  · rintro (same | ⟨instructions, -, member⟩)
    · exact same
    · rwa [import_descriptors, List.mem_singleton] at member
  · exact Or.inl

/-- A built template carries its federation's descriptor, instructions that hand
it over, and the checksum of its own contents. -/
theorem build_spec {Error : Type} {printing : KeyPrinting} {sha256 : Text → Text} {now : Int}
    {builder : RecoveryTemplateBuilder} (counted : builder.federation.signers.length < 2 ^ 32) :
    ∃ template, (builder.build printing sha256 now : Outcome Error RecoveryTemplate) = .ok template ∧
      template.descriptor = builder.federation.descriptorString ∧
      template.reconstructionInstructions =
        builder.softwares.map (fun software => generateInstructions software template) ∧
      template.checksum = template.computeChecksum sha256 := by
  rw [RecoveryTemplateBuilder.build, if_neg (by omega)]
  exact ⟨_, rfl, rfl, rfl, rfl⟩

end Carried

end EmvaultCore
