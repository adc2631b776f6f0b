import EmvaultCore.Signer

/-!
# Errors of the modelled subsystems

The variants and payloads of the library's error enumerations, as far as a
modelled function raises them. Payloads that are printed texts stay texts.
-/

namespace EmvaultCore

inductive DescriptorError where
  | duplicateKey (key : String)
  | miniscript (cause : String)
  | parse (reason : String)
  | networkMismatch (expected actual : String)
  | keyConversion (reason : String)
  | unsupportedShape (shape : String)
  | policyMismatch (reasons : String)
deriving DecidableEq, Repr

inductive FederationError where
  | thresholdExceedsSignerCount (threshold signers : Nat)
  | zeroThreshold
  | insufficientSigners (signers : Nat)
  | duplicateSigner (id : SignerId)
  | signerNetworkMismatch (id : SignerId) (network : NetworkType)
  | signerNotFound (id : SignerId)
  | descriptor (cause : DescriptorError)
deriving DecidableEq, Repr

inductive PsbtError where
  | unexpectedSignatures (found : Nat)
  | descriptorMismatch (reason : String)
  | outputMismatch (divergence : String)
  | invalidSignature (id : SignerId) (reason : String)
  | unknownSigner (id : SignerId)
  | bdkSigner (reason : String)
  | bitcoin (reason : String)
deriving DecidableEq, Repr

inductive SnapshotError where
  | descriptorMismatch
  | invalidThreshold (reason : String)
  | json (reason : String)
  | parse (reason : String)
deriving DecidableEq, Repr

inductive RecoveryError where
  | checksumMismatch (expected actual : String)
  | invalidDescriptor (reason : String)
  | json (reason : String)
deriving DecidableEq, Repr

inductive MigrationError where
  | noUtxos
  | sweepFailed (reason : String)
  | networkMismatch (old new : NetworkType)
  | invalidConfig (reason : String)
  | insufficientFeeBalance (feeAccountIdx : UInt32) (available required : Amount)
deriving DecidableEq

inductive FederatedWalletError where
  | networkMismatch (existing incoming : NetworkType)
  | nonBitcoinNetwork
deriving DecidableEq, Repr

inductive EmVaultError where
  | federation (cause : FederationError)
  | descriptor (cause : DescriptorError)
  | snapshot (cause : SnapshotError)
deriving DecidableEq, Repr

end EmvaultCore
