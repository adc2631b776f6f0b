import EmvaultCore.MockSigner

/-!
# Mutations of a federation

Each mutation builds a fresh federation from an edited signer list or threshold,
with the network, key mode and script type of the old one. All of them end in
`with_config`, so a federation is reachable only in a form in which building it
anew from its own fields gives it back.
-/

namespace EmvaultCore

namespace Federation

variable (miniscript : Miniscript)

def rotateSigner (federation : Federation) (old : SignerId) (new : Signer) :
    Outcome FederationError Federation :=
  if federation.contains old = false then .error (.error (.signerNotFound old))
  else if federation.contains new.id = true ∧ new.id ≠ old then
    .error (.error (.duplicateSigner new.id))
  else
    let signers := federation.signers.map fun signer => if signer.id = old then new else signer
    withConfig miniscript federation.threshold signers federation.network federation.keyMode
      federation.scriptType

def addSigner (federation : Federation) (new : Signer) : Outcome FederationError Federation :=
  if federation.contains new.id = true then .error (.error (.duplicateSigner new.id))
  else
    let signers := federation.signers ++ [new]
    withConfig miniscript federation.threshold signers federation.network federation.keyMode
      federation.scriptType

def removeSigner (federation : Federation) (id : SignerId) : Outcome FederationError Federation :=
  if federation.contains id = false then .error (.error (.signerNotFound id))
  else
    let signers := federation.signers.filter fun signer => signer.id ≠ id
    withConfig miniscript federation.threshold signers federation.network federation.keyMode
      federation.scriptType

def changeThreshold (federation : Federation) (newThreshold : UInt32) :
    Outcome FederationError Federation :=
  withConfig miniscript newThreshold federation.signers federation.network federation.keyMode
    federation.scriptType

end Federation

inductive Mutation where
  | rotate (old : SignerId) (new : Signer)
  | add (new : Signer)
  | remove (id : SignerId)
  | changeThreshold (newThreshold : UInt32)

namespace Mutation

def apply (miniscript : Miniscript) (federation : Federation) :
    Mutation → Outcome FederationError Federation
  | .rotate old new => federation.rotateSigner miniscript old new
  | .add new => federation.addSigner miniscript new
  | .remove id => federation.removeSigner miniscript id
  | .changeThreshold newThreshold => federation.changeThreshold miniscript newThreshold

/-- The named signers are there where they must be, and absent where they must
not be. -/
def Names (federation : Federation) : Mutation → Prop
  | .rotate old new => federation.contains old = true ∧
      (federation.contains new.id = true → new.id = old)
  | .add new => federation.contains new.id = false
  | .remove id => federation.contains id = true
  | .changeThreshold _ => True

def threshold (federation : Federation) : Mutation → UInt32
  | .changeThreshold newThreshold => newThreshold
  | .rotate _ _ | .add _ | .remove _ => federation.threshold

def signers (federation : Federation) : Mutation → List Signer
  | .rotate old new => federation.signers.map fun signer => if signer.id = old then new else signer
  | .add new => federation.signers ++ [new]
  | .remove id => federation.signers.filter fun signer => signer.id ≠ id
  | .changeThreshold _ => federation.signers

end Mutation

namespace Federation

/-- What `validate_inputs` makes sure of. -/
structure Sound (threshold : UInt32) (signers : List Signer) (network : NetworkType) : Prop where
  thresholdPositive : 1 ≤ threshold.toNat
  thresholdBounded : threshold.toNat ≤ signers.length
  twoSigners : 2 ≤ signers.length
  counted : signers.length < 2 ^ 32
  distinct : (signers.map Signer.id).Nodup
  supported : ∀ signer ∈ signers, network ∈ signer.supportedNetworks

def Buildable (miniscript : Miniscript) (threshold : UInt32) (signers : List Signer)
    (network : NetworkType) (keyMode : KeyMode) (scriptType : ScriptType) : Prop :=
  network.isBitcoin = true → ∃ descriptor, DescriptorBuilder.buildFrom miniscript threshold network
    keyMode scriptType .rawNums signers = .ok descriptor

structure Described (miniscript : Miniscript) (federation : Federation) : Prop where
  onBitcoin : federation.network.isBitcoin = true → ∃ descriptor,
    DescriptorBuilder.buildFrom miniscript federation.threshold federation.network
      federation.keyMode federation.scriptType .rawNums federation.signers = .ok descriptor ∧
    federation.descriptor = some descriptor ∧
    federation.descriptorString = descriptor.toText miniscript
  elsewhere : federation.network.isBitcoin = false →
    federation.descriptor = none ∧ federation.descriptorString = []

def WithConfig (miniscript : Miniscript) (federation : Federation) : Prop :=
  withConfig miniscript federation.threshold federation.signers federation.network
    federation.keyMode federation.scriptType = .ok federation

/-- Federations that a constructor and any number of mutations lead to. -/
inductive Reachable (miniscript : Miniscript) (origin : Federation) : Federation → Prop where
  | constructed (threshold : UInt32) (signers : List Signer) (network : NetworkType)
      (keyMode : KeyMode) (scriptType : ScriptType)
      (built : withConfig miniscript threshold signers network keyMode scriptType = .ok origin) :
      Reachable miniscript origin origin
  | mutated {federation next : Federation} (mutation : Mutation)
      (reached : Reachable miniscript origin federation)
      (applied : mutation.apply miniscript federation = .ok next) :
      Reachable miniscript origin next

variable {miniscript : Miniscript} {federation next origin : Federation}

theorem constructed_by_new {threshold : UInt32} {signers : List Signer} {network : NetworkType}
    (built : Federation.new miniscript threshold signers network = .ok federation) :
    Reachable miniscript federation federation :=
  .constructed threshold signers network .fixed .wsh built

theorem constructed_with_key_mode {threshold : UInt32} {signers : List Signer}
    {network : NetworkType} {keyMode : KeyMode}
    (built : withKeyMode miniscript threshold signers network keyMode = .ok federation) :
    Reachable miniscript federation federation :=
  .constructed threshold signers network keyMode .wsh built

theorem sound_iff {threshold : UInt32} {signers : List Signer} {network : NetworkType} :
    Sound threshold signers network ↔ validateInputs threshold signers network = .ok () := by
  rw [validate_inputs_ok]
  constructor
  · intro sound
    have positive := sound.thresholdPositive
    refine ⟨?_, sound.counted, sound.twoSigners, sound.thresholdBounded, sound.distinct,
      sound.supported⟩
    rintro rfl
    exact absurd positive (by decide)
  · rintro ⟨nonzero, counted, two, bounded, distinct, supported⟩
    refine ⟨?_, bounded, two, counted, distinct, supported⟩
    have positive : threshold.toNat ≠ 0 := fun zero => nonzero (UInt32.toNat_inj.mp zero)
    omega

theorem with_config_ok_iff {threshold : UInt32} {signers : List Signer} {network : NetworkType}
    {keyMode : KeyMode} {scriptType : ScriptType} :
    (∃ built, withConfig miniscript threshold signers network keyMode scriptType = .ok built) ↔
      Sound threshold signers network ∧
        Buildable miniscript threshold signers network keyMode scriptType := by
  constructor
  · rintro ⟨built, answer⟩
    rcases with_config_eq_ok.mp answer with ⟨valid, onBitcoin | elsewhere⟩
    · rcases onBitcoin with ⟨-, descriptor, assembled, -⟩
      exact ⟨sound_iff.mpr valid, fun _ => ⟨descriptor, assembled⟩⟩
    · refine ⟨sound_iff.mpr valid, fun isBitcoin => ?_⟩
      rw [elsewhere.1] at isBitcoin
      cases isBitcoin
  · rintro ⟨sound, buildable⟩
    cases kind : network.isBitcoin with
    | true =>
        rcases buildable kind with ⟨descriptor, assembled⟩
        exact ⟨_, with_config_eq_ok.mpr
          ⟨sound_iff.mp sound, .inl ⟨kind, descriptor, assembled, rfl⟩⟩⟩
    | false => exact ⟨_, with_config_eq_ok.mpr ⟨sound_iff.mp sound, .inr ⟨kind, rfl⟩⟩⟩

theorem with_config_fields {threshold : UInt32} {signers : List Signer} {network : NetworkType}
    {keyMode : KeyMode} {scriptType : ScriptType}
    (built : withConfig miniscript threshold signers network keyMode scriptType = .ok federation) :
    federation.threshold = threshold ∧ federation.signers = signers ∧
      federation.network = network ∧ federation.keyMode = keyMode ∧
      federation.scriptType = scriptType := by
  rcases with_config_eq_ok.mp built with ⟨-, ⟨-, descriptor, -, rfl⟩ | ⟨-, rfl⟩⟩
  · exact ⟨rfl, rfl, rfl, rfl, rfl⟩
  · exact ⟨rfl, rfl, rfl, rfl, rfl⟩

theorem with_config_of_built {threshold : UInt32} {signers : List Signer} {network : NetworkType}
    {keyMode : KeyMode} {scriptType : ScriptType}
    (built : withConfig miniscript threshold signers network keyMode scriptType = .ok federation) :
    federation.WithConfig miniscript := by
  rcases with_config_fields built with ⟨rfl, rfl, rfl, rfl, rfl⟩
  exact built

theorem sound_of_with_config (rebuilt : federation.WithConfig miniscript) :
    Sound federation.threshold federation.signers federation.network ∧
      federation.Described miniscript := by
  rcases with_config_eq_ok.mp rebuilt with ⟨valid, ⟨kind, descriptor, built, same⟩ | ⟨kind, same⟩⟩
  · refine ⟨sound_iff.mpr valid, fun _ => ?_, fun elsewhere => ?_⟩
    · exact ⟨descriptor, built, congrArg Federation.descriptor same,
        congrArg Federation.descriptorString same⟩
    · rw [kind] at elsewhere
      cases elsewhere
  · refine ⟨sound_iff.mpr valid, fun isBitcoin => ?_, fun _ => ?_⟩
    · rw [kind] at isBitcoin
      cases isBitcoin
    · exact ⟨congrArg Federation.descriptor same, congrArg Federation.descriptorString same⟩

theorem apply_eq_ok {mutation : Mutation} :
    mutation.apply miniscript federation = .ok next ↔
      mutation.Names federation ∧
        withConfig miniscript (mutation.threshold federation) (mutation.signers federation)
          federation.network federation.keyMode federation.scriptType = .ok next := by
  cases mutation with
  | rotate old new =>
      simp only [Mutation.apply, Mutation.Names, Mutation.threshold, Mutation.signers,
        rotateSigner]
      cases federation.contains old with
      | false => simp
      | true =>
          cases federation.contains new.id with
          | false => simp
          | true => by_cases same : new.id = old <;> simp [same]
  | add new =>
      simp only [Mutation.apply, Mutation.Names, Mutation.threshold, Mutation.signers, addSigner]
      cases federation.contains new.id <;> simp
  | remove id =>
      simp only [Mutation.apply, Mutation.Names, Mutation.threshold, Mutation.signers,
        removeSigner]
      cases federation.contains id <;> simp
  | changeThreshold newThreshold =>
      simp only [Mutation.apply, Mutation.Names, Mutation.threshold, Mutation.signers,
        changeThreshold, true_and]

theorem with_config_of_reachable (reached : Reachable miniscript origin federation) :
    federation.WithConfig miniscript := by
  induction reached with
  | constructed threshold signers network keyMode scriptType built =>
      exact with_config_of_built built
  | mutated mutation reached applied ih =>
      exact with_config_of_built (apply_eq_ok.mp applied).2

theorem sound_of_reachable (reached : Reachable miniscript origin federation) :
    Sound federation.threshold federation.signers federation.network :=
  (sound_of_with_config (with_config_of_reachable reached)).1

theorem built_of_reachable (reached : Reachable miniscript origin federation)
    (onBitcoin : federation.network.isBitcoin = true) :
    (federation.signers.map Signer.id).Nodup ∧
      ∃ descriptor, (DescriptorBuilder.ofSigners federation.threshold federation.network
          federation.keyMode federation.scriptType .rawNums federation.signers).build miniscript =
        .ok descriptor ∧ federation.descriptor = some descriptor ∧
          federation.descriptorString = descriptor.toText miniscript := by
  have described := (sound_of_with_config (with_config_of_reachable reached)).2
  rcases described.onBitcoin onBitcoin with ⟨descriptor, built, stored, text⟩
  rcases DescriptorBuilder.build_from_eq_ok.mp built with ⟨distinct, answer⟩
  exact ⟨distinct, descriptor, answer, stored, text⟩

theorem kind_of_reachable (reached : Reachable miniscript origin federation) :
    federation.network = origin.network ∧ federation.keyMode = origin.keyMode ∧
      federation.scriptType = origin.scriptType := by
  induction reached with
  | constructed => exact ⟨rfl, rfl, rfl⟩
  | mutated mutation reached applied ih =>
      rcases with_config_fields (apply_eq_ok.mp applied).2 with
        ⟨-, -, network, keyMode, scriptType⟩
      exact ⟨network.trans ih.1, keyMode.trans ih.2.1, scriptType.trans ih.2.2⟩

/-- A mutation fails exactly when a named signer is missing or present, the
result would not be sound, or the builder rejects it. -/
theorem apply_fails_iff (mutation : Mutation) :
    (∀ next, mutation.apply miniscript federation ≠ .ok next) ↔
      ¬ mutation.Names federation ∨
      ¬ Sound (mutation.threshold federation) (mutation.signers federation) federation.network ∨
      ¬ Buildable miniscript (mutation.threshold federation) (mutation.signers federation)
        federation.network federation.keyMode federation.scriptType := by
  have built := @with_config_ok_iff miniscript (mutation.threshold federation)
    (mutation.signers federation) federation.network federation.keyMode federation.scriptType
  rw [← not_exists]
  simp only [apply_eq_ok, exists_and_left, built]
  tauto

/-- The invariants of every reachable federation, and when its mutations fail. -/
theorem reachable_federation_valid (reached : Reachable miniscript origin federation) :
    Sound federation.threshold federation.signers federation.network ∧
    federation.Described miniscript ∧
    federation.network = origin.network ∧ federation.keyMode = origin.keyMode ∧
    federation.scriptType = origin.scriptType ∧
    ∀ mutation : Mutation, (∀ next, mutation.apply miniscript federation ≠ .ok next) ↔
      ¬ mutation.Names federation ∨
      ¬ Sound (mutation.threshold federation) (mutation.signers federation) federation.network ∨
      ¬ Buildable miniscript (mutation.threshold federation) (mutation.signers federation)
        federation.network federation.keyMode federation.scriptType := by
  have valid := sound_of_with_config (with_config_of_reachable reached)
  rcases kind_of_reachable reached with ⟨network, keyMode, scriptType⟩
  exact ⟨valid.1, valid.2, network, keyMode, scriptType, apply_fails_iff⟩

open MockSigner (federationOf)

theorem third_joins :
    (MockSigner.federation .wsh).addSigner MockSigner.miniscript MockSigner.third =
      .ok (federationOf 2 [MockSigner.first, MockSigner.second, MockSigner.third] .wsh) := by
  decide +kernel

/-- The test federation, after the third signer has been in it for a while. -/
theorem mock_federation_reachable :
    Reachable MockSigner.miniscript (MockSigner.federation .wsh) (MockSigner.federation .wsh) :=
  .mutated (.remove MockSigner.third.id)
    (.mutated (.add MockSigner.third) (constructed_by_new MockSigner.federation_made) third_joins)
    (by decide +kernel)

theorem successor_reachable :
    Reachable MockSigner.miniscript (MockSigner.federation .wsh)
      (federationOf 2 [MockSigner.second, MockSigner.third] .wsh) :=
  .mutated (.remove MockSigner.first.id)
    (.mutated (.add MockSigner.third) (constructed_by_new MockSigner.federation_made) third_joins)
    (by decide +kernel)

theorem mock_federation_valid :
    let successor := federationOf 2 [MockSigner.second, MockSigner.third] .wsh
    Sound successor.threshold successor.signers successor.network ∧
    successor.Described MockSigner.miniscript ∧
    successor.network = (MockSigner.federation .wsh).network ∧
    successor.keyMode = (MockSigner.federation .wsh).keyMode ∧
    successor.scriptType = (MockSigner.federation .wsh).scriptType ∧
    ∀ mutation : Mutation,
      (∀ next, mutation.apply MockSigner.miniscript successor ≠ .ok next) ↔
      ¬ mutation.Names successor ∨
      ¬ Sound (mutation.threshold successor) (mutation.signers successor) successor.network ∨
      ¬ Buildable MockSigner.miniscript (mutation.threshold successor)
        (mutation.signers successor) successor.network successor.keyMode successor.scriptType :=
  reachable_federation_valid successor_reachable

end Federation

end EmvaultCore
