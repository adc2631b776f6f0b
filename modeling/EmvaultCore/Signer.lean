import EmvaultCore.Primitives

/-!
# Signers and their keys

A signer is known to the library by what its accessor methods answer. They are
taken as pure, so a signer is the record of those answers.
-/

namespace EmvaultCore

abbrev XOnlyPublicKey := Fin (2 ^ 256)

/-- A secp256k1 point: its x coordinate and the parity of its y coordinate. -/
structure SecpPublicKey where
  xOnly : XOnlyPublicKey
  odd : Bool
deriving DecidableEq, Repr

namespace SecpPublicKey

def sortKey (key : SecpPublicKey) : Bool ×ₗ XOnlyPublicKey := toLex (key.odd, key.xOnly)

theorem sort_key_injective : Function.Injective sortKey := by
  intro left right same
  cases left
  cases right
  simpa [sortKey, and_comm] using same

instance : LinearOrder SecpPublicKey := LinearOrder.lift' sortKey sort_key_injective

instance ordered : Std.TransOrd SecpPublicKey := inferInstance

end SecpPublicKey

/-- `bitcoin::PublicKey`, a point together with how it is serialized. -/
structure PublicKey where
  compressed : Bool
  inner : SecpPublicKey
deriving DecidableEq, Repr

namespace PublicKey

def sortKey (key : PublicKey) : Bool ×ₗ SecpPublicKey := toLex (key.compressed, key.inner)

theorem sort_key_injective : Function.Injective sortKey := by
  intro left right same
  cases left
  cases right
  simpa [sortKey] using same

instance : LinearOrder PublicKey := LinearOrder.lift' sortKey sort_key_injective

instance ordered : Std.TransOrd PublicKey := inferInstance

def new (inner : SecpPublicKey) : PublicKey := ⟨true, inner⟩

end PublicKey

abbrev Fingerprint := Fin (2 ^ 32)

inductive ChildNumber where
  | normal (index : Fin (2 ^ 31))
  | hardened (index : Fin (2 ^ 31))
deriving DecidableEq, Repr

abbrev DerivationPath := List ChildNumber

abbrev KeySource := Fingerprint × DerivationPath

inductive NetworkKind where
  | main
  | test
deriving DecidableEq, Repr

namespace NetworkKind

def ofNetwork : Network → NetworkKind
  | .bitcoin => .main
  | .testnet | .testnet4 | .signet | .regtest => .test

/-- The `Debug` form that error texts carry. -/
def debug : NetworkKind → String
  | .main => "Main"
  | .test => "Test"

end NetworkKind

abbrev ChainCode := Fin (2 ^ 256)

structure Xpub where
  network : NetworkKind
  depth : Fin 256
  parentFingerprint : Fingerprint
  childNumber : ChildNumber
  publicKey : SecpPublicKey
  chainCode : ChainCode
deriving DecidableEq, Repr

abbrev SignerId := String

inductive SignerType where
  | software
  | external
deriving DecidableEq, Repr

inductive TransportType where
  | usb
  | ble
  | qr
  | sdCard
  | nfc
  | pkcs11
deriving DecidableEq, Repr

structure SignerCapabilities where
  blindSigning : Bool
  taproot : Bool
  musig2 : Bool
  transports : List TransportType
deriving DecidableEq, Repr

/-- The answers of a `Signer`, one field for each accessor of the trait. -/
structure Signer where
  id : SignerId
  label : Option String
  xpub : Xpub
  fingerprint : Fingerprint
  derivationPath : DerivationPath
  signerType : SignerType
  supportedNetworks : List NetworkType
  capabilities : SignerCapabilities
deriving DecidableEq, Repr

end EmvaultCore
