import EmvaultCore.DescriptorBuilder

/-!
# Federations

An m-of-n group of signers together with the descriptor its constructor built.
The constructors check thresholds and signers first and answer with the first
failing check.
-/

namespace EmvaultCore

open Library (Text)

structure Federation where
  threshold : UInt32
  signers : List Signer
  descriptor : Option Descriptor
  descriptorString : Text
  network : NetworkType
  keyMode : KeyMode
  scriptType : ScriptType
deriving DecidableEq

namespace Federation

def validateSigners (network : NetworkType) :
    List SignerId → List Signer → Outcome FederationError Unit
  | _, [] => .ok ()
  | seen, signer :: signers =>
      if signer.id ∈ seen then .error (.error (.duplicateSigner signer.id))
      else if network ∉ signer.supportedNetworks then
        .error (.error (.signerNetworkMismatch signer.id network))
      else validateSigners network (signer.id :: seen) signers

def validateInputs (threshold : UInt32) (signers : List Signer) (network : NetworkType) :
    Outcome FederationError Unit :=
  if threshold = 0 then .error (.error .zeroThreshold)
  else if 2 ^ 32 ≤ signers.length then
    .error (.panic "federation member count fits u32")
  else if signers.length < 2 then .error (.error (.insufficientSigners signers.length))
  else if signers.length < threshold.toNat then
    .error (.error (.thresholdExceedsSignerCount threshold.toNat signers.length))
  else validateSigners network [] signers

variable (miniscript : Miniscript)

def buildDescriptor (threshold : UInt32) (signers : List Signer) (network : NetworkType)
    (keyMode : KeyMode) (scriptType : ScriptType) : Outcome FederationError Descriptor :=
  .ofResult .descriptor
    (DescriptorBuilder.buildFrom miniscript threshold network keyMode scriptType .rawNums signers)

def withConfig (threshold : UInt32) (signers : List Signer) (network : NetworkType)
    (keyMode : KeyMode) (scriptType : ScriptType) : Outcome FederationError Federation := do
  validateInputs threshold signers network
  if network.isBitcoin then
    let descriptor ← buildDescriptor miniscript threshold signers network keyMode scriptType
    return {
      threshold, signers, network, keyMode, scriptType
      descriptor := some descriptor
      descriptorString := descriptor.toText miniscript }
  else
    return {
      threshold, signers, network, keyMode, scriptType
      descriptor := none
      descriptorString := [] }

def withKeyMode (threshold : UInt32) (signers : List Signer) (network : NetworkType)
    (keyMode : KeyMode) : Outcome FederationError Federation :=
  withConfig miniscript threshold signers network keyMode .wsh

def new (threshold : UInt32) (signers : List Signer) (network : NetworkType) :
    Outcome FederationError Federation :=
  withKeyMode miniscript threshold signers network .fixed

def find (federation : Federation) (id : SignerId) : Option Signer :=
  federation.signers.find? (·.id = id)

def contains (federation : Federation) (id : SignerId) : Bool := (federation.find id).isSome

variable {miniscript} {threshold : UInt32} {signers : List Signer} {network : NetworkType}
  {keyMode : KeyMode} {scriptType : ScriptType}

theorem validate_signers_ok {seen : List SignerId} :
    validateSigners network seen signers = .ok () ↔
      (signers.map Signer.id).Nodup ∧
        ∀ signer ∈ signers, signer.id ∉ seen ∧ network ∈ signer.supportedNetworks := by
  induction signers generalizing seen with
  | nil => simp [validateSigners]
  | cons signer signers ih =>
      rw [validateSigners]
      by_cases repeated : signer.id ∈ seen
      · simp [repeated]
      · by_cases supported : network ∈ signer.supportedNetworks
        · simp only [repeated, supported, if_false, not_true_eq_false, ih, List.map_cons,
            List.nodup_cons, List.mem_map, List.mem_cons, forall_eq_or_imp, not_exists, not_and,
            not_or, not_false_eq_true, true_and]
          constructor
          · rintro ⟨distinct, fresh⟩
            exact ⟨⟨fun other member => (fresh other member).1.1, distinct⟩,
              fun other member => ⟨(fresh other member).1.2, (fresh other member).2⟩⟩
          · rintro ⟨⟨apart, distinct⟩, fresh⟩
            exact ⟨distinct, fun other member =>
              ⟨⟨apart other member, (fresh other member).1⟩, (fresh other member).2⟩⟩
        · simp [repeated, supported]

theorem validate_inputs_ok :
    validateInputs threshold signers network = .ok () ↔
      threshold ≠ 0 ∧ signers.length < 2 ^ 32 ∧ 2 ≤ signers.length ∧
        threshold.toNat ≤ signers.length ∧ (signers.map Signer.id).Nodup ∧
        ∀ signer ∈ signers, network ∈ signer.supportedNetworks := by
  unfold validateInputs
  split_ifs with zero many few exceeds
  · simp [zero]
  · refine iff_of_false (by simp) ?_
    omega
  · refine iff_of_false (by simp) ?_
    omega
  · refine iff_of_false (by simp) ?_
    omega
  · rw [validate_signers_ok]
    simp only [List.not_mem_nil, not_false_eq_true, true_and]
    constructor
    · rintro ⟨distinct, supported⟩
      exact ⟨zero, by omega, by omega, by omega, distinct, supported⟩
    · rintro ⟨-, -, -, -, distinct, supported⟩
      exact ⟨distinct, supported⟩

/-- A constructed federation passed the checks, and carries the descriptor of its
signers exactly on a Bitcoin network. -/
theorem with_config_eq_ok {federation : Federation} :
    withConfig miniscript threshold signers network keyMode scriptType = .ok federation ↔
      validateInputs threshold signers network = .ok () ∧
        ((network.isBitcoin = true ∧ ∃ descriptor,
            DescriptorBuilder.buildFrom miniscript threshold network keyMode scriptType .rawNums
              signers = .ok descriptor ∧
            federation = {
              threshold, signers, network, keyMode, scriptType
              descriptor := some descriptor
              descriptorString := descriptor.toText miniscript }) ∨
          network.isBitcoin = false ∧ federation = {
            threshold, signers, network, keyMode, scriptType
            descriptor := none
            descriptorString := [] }) := by
  rw [withConfig, check_bind_eq_ok]
  apply and_congr_right
  intro _
  cases network.isBitcoin with
  | true =>
      simp only [if_true, true_and, Bool.true_eq_false, false_and, or_false, buildDescriptor]
      cases DescriptorBuilder.buildFrom miniscript threshold network keyMode scriptType .rawNums
          signers with
      | error cause => simp [Outcome.ofResult, bind, Except.bind]
      | ok descriptor =>
          simp [Outcome.ofResult, bind, Except.bind, pure, Except.pure, eq_comm]
  | false => simp [pure, Except.pure, eq_comm]

end Federation

end EmvaultCore
