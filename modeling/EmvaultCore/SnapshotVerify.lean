import EmvaultCore.DescriptorHistory
import EmvaultCore.DescriptorKeys
import EmvaultCore.FederatedWallet
import EmvaultCore.Snapshot
import Mathlib.Data.List.Infix

/-!
# Verifying a snapshot

`verify` compares the counts of a snapshot, lets `miniscript` parse its
descriptor and looks for each declared fingerprint in the text of it. Snapshots
of federations and of their stacks always pass, and there the descriptor is the
multisig of the declared signers. Of an edited snapshot the check says no more
than what it looked at.
-/

namespace EmvaultCore

open Library (Text)
open Library.Text

/-- `Descriptor::parse_descriptor`, as far as its result is used. -/
abbrev ParseDescriptor := Text → Except String Descriptor

def numberString (number : Nat) : String := String.ofList (decimal number)

def Network.debug : Network → String
  | .bitcoin => "Bitcoin"
  | .testnet => "Testnet"
  | .testnet4 => "Testnet4"
  | .signet => "Signet"
  | .regtest => "Regtest"

def ElementsNetworkId.debug : ElementsNetworkId → String
  | .liquid => "Liquid"
  | .liquidTestnet => "LiquidTestnet"
  | .elementsRegtest => "ElementsRegtest"

def NetworkType.debug : NetworkType → String
  | .bitcoin network => "Bitcoin(" ++ network.debug ++ ")"
  | .elements id => "Elements(" ++ id.debug ++ ")"

def SnapshotError.display : SnapshotError → String
  | .descriptorMismatch => "snapshot descriptor does not match signer set"
  | .invalidThreshold reason =>
      "snapshot has invalid threshold/signer combination: " ++ reason
  | .json reason => "snapshot JSON error: " ++ reason
  | .parse reason => "snapshot descriptor parse error: " ++ reason

namespace FederationSnapshot

def verifySigners (descriptor : Text) : List SignerSnapshot → Outcome SnapshotError Unit
  | [] => .ok ()
  | signer :: signers =>
      if signer.fingerprint <:+: descriptor then verifySigners descriptor signers
      else .error (.error .descriptorMismatch)

def verify (parse : ParseDescriptor) (snapshot : FederationSnapshot) :
    Outcome SnapshotError Unit :=
  if snapshot.threshold = 0 ∨ snapshot.totalSigners < snapshot.threshold.toNat then
    .error (.error (.invalidThreshold ("threshold=" ++ numberString snapshot.threshold.toNat ++
      " total=" ++ numberString snapshot.totalSigners)))
  else if 2 ^ 32 ≤ snapshot.signers.length then
    .error (.panic "federation member count fits u32")
  else if snapshot.signers.length ≠ snapshot.totalSigners then
    .error (.error (.invalidThreshold ("declared total_signers=" ++
      numberString snapshot.totalSigners ++ " but signer set has length " ++
      numberString snapshot.signers.length)))
  else do
    let _ ← Outcome.ofResult .parse (parse snapshot.descriptor)
    verifySigners snapshot.descriptor snapshot.signers

end FederationSnapshot

structure FederatedWalletSnapshot where
  federations : List FederationSnapshot
  network : NetworkType
  createdAt : Int

namespace FederatedWalletSnapshot

/-- `from_wallet`. The clock is read for each version and then once more. -/
def fromWallet {Wallet Error : Type} (printing : KeyPrinting) (clock : Nat → Int)
    (stack : BtcFederatedWallet Wallet) : Outcome Error FederatedWalletSnapshot := do
  let federations ← stack.federationWallets.zipIdx.mapM fun entry =>
    FederationSnapshot.fromFederation printing (clock entry.2) entry.1.federation
  return {
    federations
    network := stack.network
    createdAt := clock stack.federationWallets.length }

def verifyEach (parse : ParseDescriptor) (network : NetworkType) :
    Nat → List FederationSnapshot → Outcome SnapshotError Unit
  | _, [] => .ok ()
  | index, snapshot :: snapshots => do
      (snapshot.verify parse).mapCause fun cause =>
        .json ("federation[" ++ numberString index ++ "] verification failed: " ++ cause.display)
      if snapshot.network ≠ network then
        .error (.error (.json ("federation[" ++ numberString index ++ "] network " ++
          snapshot.network.debug ++ " does not match wallet network " ++ network.debug)))
      else verifyEach parse network (index + 1) snapshots

def verify (parse : ParseDescriptor) (snapshot : FederatedWalletSnapshot) :
    Outcome SnapshotError Unit :=
  if snapshot.federations.isEmpty then
    .error (.error (.invalidThreshold
      "FederatedWalletSnapshot must contain at least one federation"))
  else verifyEach parse snapshot.network 0 snapshot.federations

end FederatedWalletSnapshot

namespace SnapshotVerify

variable {parse : ParseDescriptor} {snapshot : FederationSnapshot}

/-- What `verify` has looked at. -/
structure Checked (parse : ParseDescriptor) (snapshot : FederationSnapshot) : Prop where
  thresholdPositive : 1 ≤ snapshot.threshold.toNat
  thresholdBounded : snapshot.threshold.toNat ≤ snapshot.totalSigners
  counted : snapshot.signers.length = snapshot.totalSigners
  parses : ∃ descriptor, parse snapshot.descriptor = .ok descriptor
  occurs : ∀ signer ∈ snapshot.signers, signer.fingerprint <:+: snapshot.descriptor

theorem verify_signers_eq_ok {descriptor : Text} {signers : List SignerSnapshot} :
    FederationSnapshot.verifySigners descriptor signers = .ok () ↔
      ∀ signer ∈ signers, signer.fingerprint <:+: descriptor := by
  induction signers with
  | nil => simp [FederationSnapshot.verifySigners]
  | cons signer signers ih =>
      rw [FederationSnapshot.verifySigners, List.forall_mem_cons]
      by_cases occurs : signer.fingerprint <:+: descriptor
      · rw [if_pos occurs, ih, and_iff_right occurs]
      · simp [occurs]

theorem verify_eq_ok :
    snapshot.verify parse = .ok () ↔
      Checked parse snapshot ∧ snapshot.signers.length < 2 ^ 32 := by
  unfold FederationSnapshot.verify
  constructor
  · intro verified
    split_ifs at verified with bounds huge miscounted
    obtain ⟨descriptor, parsed, found⟩ := bind_eq_ok.mp verified
    rw [not_or] at bounds
    have positive : snapshot.threshold.toNat ≠ 0 :=
      fun zero => bounds.1 (UInt32.toNat_inj.mp zero)
    constructor
    · constructor
      · omega
      · omega
      · exact not_not.mp miscounted
      · exact ⟨descriptor, Outcome.of_result_eq_ok.mp parsed⟩
      · exact verify_signers_eq_ok.mp found
    · omega
  · intro conditions
    obtain ⟨⟨positive, bounded, counted, ⟨descriptor, parsed⟩, occurs⟩, few⟩ := conditions
    have inRange : ¬ (snapshot.threshold = 0 ∨ snapshot.totalSigners < snapshot.threshold.toNat) := by
      rw [not_or]
      refine ⟨?_, by omega⟩
      intro zero
      rw [zero] at positive
      exact absurd positive (by decide)
    rw [if_neg inRange, if_neg (by omega), if_neg (not_not_intro counted), bind_eq_ok]
    exact ⟨descriptor, Outcome.of_result_eq_ok.mpr parsed, verify_signers_eq_ok.mpr occurs⟩

end SnapshotVerify

def DescriptorPublicKey.origin : DescriptorPublicKey → Option KeySource
  | .single key => key.origin
  | .xPub key => key.origin
  | .multiXPub key => key.origin

/-- The key is an extended key, or the point that it derives its children from. -/
def DescriptorPublicKey.IsOf (xpub : Xpub) : DescriptorPublicKey → Prop
  | .single ⟨_, .fullKey key⟩ => key = PublicKey.new xpub.publicKey
  | .single ⟨_, .xOnly key⟩ => key = xpub.publicKey.xOnly
  | .xPub key => key.xkey = xpub
  | .multiXPub key => key.xkey = xpub

def Descriptor.requiredKeys : Descriptor → Option Nat
  | .wsh (.sortedMulti k _) => some k
  | .tr _ (some (.multiA k _)) => some k
  | _ => none

namespace SnapshotVerify

/-- The key has the declared fingerprint in its origin and is that of the declared
extended key. -/
structure DeclaredKey (printing : KeyPrinting) (declared : SignerSnapshot)
    (key : DescriptorPublicKey) : Prop where
  origin : ∃ fingerprint path, key.origin = some (fingerprint, path) ∧
    declared.fingerprint = hex 8 fingerprint
  xpub : ∃ xpub, declared.xpub = printing.xpub xpub ∧ key.IsOf xpub

/-- The descriptor is the multisig of the declared threshold, total and signers. -/
structure Bound (printing : KeyPrinting) (snapshot : FederationSnapshot)
    (descriptor : Descriptor) : Prop where
  threshold : descriptor.requiredKeys = some snapshot.threshold.toNat
  total : descriptor.cosignerKeys.length = snapshot.totalSigners
  signers : ∃ keys, descriptor.cosignerKeys.Perm keys ∧
    List.Forall₂ (DeclaredKey printing) snapshot.signers keys

variable {miniscript : Miniscript} {federation origin : Federation}

theorem cosigner_origin (builder : DescriptorBuilder) (entry : KeyEntry) :
    (builder.cosigner entry).origin = some (entry.fingerprint, entry.derivationPath) := by
  unfold DescriptorBuilder.cosigner DescriptorBuilder.taprootCosigner
  cases builder.scriptType <;> cases builder.mode <;> rfl

theorem cosigner_is_of (builder : DescriptorBuilder) (entry : KeyEntry) :
    (builder.cosigner entry).IsOf entry.xpub := by
  unfold DescriptorBuilder.cosigner DescriptorBuilder.taprootCosigner
  cases builder.scriptType <;> cases builder.mode <;> rfl

theorem key_text_origin (printing : KeyPrinting) (key : DescriptorPublicKey) :
    ∃ rest, key.toText printing = originText key.origin ++ rest := by
  cases key with
  | single key => exact ⟨_, rfl⟩
  | xPub key =>
      simp only [DescriptorPublicKey.toText, List.append_assoc]
      exact ⟨_, rfl⟩
  | multiXPub key =>
      simp only [DescriptorPublicKey.toText, List.append_assoc]
      exact ⟨_, rfl⟩

theorem fingerprint_within {printing : KeyPrinting} {key : DescriptorPublicKey}
    {fingerprint : Fingerprint} {path : DerivationPath}
    (annotated : key.origin = some (fingerprint, path)) :
    hex 8 fingerprint <:+: key.toText printing := by
  obtain ⟨rest, text⟩ := key_text_origin printing key
  rw [text, annotated]
  exact ⟨['['], pathText path ++ [']'] ++ rest, by simp [originText]⟩

theorem keys_text_within {printing : KeyPrinting} {keys : List DescriptorPublicKey}
    {key : DescriptorPublicKey} (member : key ∈ keys) :
    key.toText printing <:+: keysText printing keys := by
  have part : ',' :: key.toText printing ∈ keys.map fun key => ',' :: key.toText printing :=
    List.mem_map_of_mem member
  exact (List.suffix_cons ',' _).isInfix.trans (List.infix_of_mem_flatten part)

theorem cosigner_text_within {descriptor : Descriptor} {key : DescriptorPublicKey}
    (cosigner : key ∈ descriptor.cosignerKeys) :
    key.toText miniscript.printing <:+: descriptor.toText miniscript := by
  have inBody : key.toText miniscript.printing <:+: descriptor.body miniscript.printing := by
    match descriptor, cosigner with
    | .wsh (.sortedMulti k pks), cosigner =>
        exact (keys_text_within cosigner).trans
          ⟨wshText ++ (sortedmultiText ++ decimal k), [')', ')'],
            by simp [Descriptor.body, WshInner.toText, Descriptor.cosignerKeys]⟩
    | .tr internalKey (some (.multiA k pks)), cosigner =>
        exact (keys_text_within cosigner).trans
          ⟨trText ++ internalKey.toText miniscript.printing ++ [','] ++ (multiAText ++ decimal k),
            [')', ')'], by simp [Descriptor.body, TapTree.toText, Descriptor.cosignerKeys]⟩
  exact inBody.trans (List.prefix_append _ _).isInfix

theorem recorded_signers_declared (builder : DescriptorBuilder) (printing : KeyPrinting)
    (now : Int) :
    List.Forall₂ (DeclaredKey printing)
      (FederationSnapshot.record printing now federation).signers
      (federation.signers.map fun signer => builder.cosigner (KeyEntry.ofSigner signer)) := by
  rw [FederationSnapshot.record, List.forall₂_map_left_iff, List.forall₂_map_right_iff,
    List.forall₂_same]
  intro signer _
  constructor
  · exact ⟨signer.fingerprint, signer.derivationPath, cosigner_origin builder _, rfl⟩
  · exact ⟨signer.xpub, rfl, cosigner_is_of builder _⟩

theorem assembled_required_keys (builder : DescriptorBuilder) (network : Network) :
    (builder.assembled network).requiredKeys = some builder.threshold.toNat := by
  unfold DescriptorBuilder.assembled
  cases builder.scriptType <;> rfl

theorem described_bound (faithful : miniscript.Faithful)
    (reached : Federation.Reachable miniscript origin federation)
    (isBitcoin : federation.network.isBitcoin = true) (now : Int) :
    ∃ descriptor, federation.descriptor = some descriptor ∧
      federation.descriptorString = descriptor.toText miniscript ∧
      Bound miniscript.printing (FederationSnapshot.record miniscript.printing now federation)
        descriptor := by
  obtain ⟨distinct, descriptor, answer, stored, text⟩ :=
    Federation.built_of_reachable reached isBitcoin
  refine ⟨descriptor, stored, text, ?_⟩
  let builder := DescriptorBuilder.ofSigners federation.threshold federation.network
    federation.keyMode federation.scriptType .rawNums federation.signers
  have values : builder.entries.valuesInOrder.Perm (federation.signers.map KeyEntry.ofSigner) :=
    DescriptorBuilder.insert_all_values_perm distinct
  have slots : descriptor.cosignerKeys.Perm
      (federation.signers.map fun signer => builder.cosigner (KeyEntry.ofSigner signer)) := by
    have keys := (DescriptorKeys.built_slots faithful answer).trans (values.map builder.cosigner)
    rw [List.map_map] at keys
    exact keys
  constructor
  · obtain ⟨network, -, assembled⟩ := DescriptorBuilder.build_is_assembled faithful answer
    rw [assembled, assembled_required_keys]
    rfl
  · rw [slots.length_eq, List.length_map]
    rfl
  · exact ⟨_, slots, recorded_signers_declared builder _ now⟩

def ParsesBack (parse : ParseDescriptor) (miniscript : Miniscript) (federation : Federation) :
    Prop :=
  ∀ descriptor, federation.descriptor = some descriptor →
    parse (descriptor.toText miniscript) = .ok descriptor

theorem recorded_verifies (faithful : miniscript.Faithful)
    (reached : Federation.Reachable miniscript origin federation)
    (isBitcoin : federation.network.isBitcoin = true)
    (parsesBack : ParsesBack parse miniscript federation) (now : Int) :
    (FederationSnapshot.record miniscript.printing now federation).verify parse = .ok () := by
  have sound := Federation.sound_of_reachable reached
  obtain ⟨descriptor, stored, text, bound⟩ := described_bound faithful reached isBitcoin now
  refine verify_eq_ok.mpr ⟨⟨sound.thresholdPositive, sound.thresholdBounded, ?_, ?_, ?_⟩, ?_⟩
  · exact List.length_map _
  · exact ⟨descriptor, (congrArg parse text).trans (parsesBack descriptor stored)⟩
  · intro declared listed
    obtain ⟨keys, slots, declares⟩ := bound.signers
    obtain ⟨key, member, isDeclared⟩ := Library.Traversal.partner_of_mem declares listed
    obtain ⟨fingerprint, path, annotated, declaredText⟩ := isDeclared.origin
    have inText : key.toText miniscript.printing <:+: federation.descriptorString := by
      rw [text]
      exact cosigner_text_within (slots.mem_iff.mpr member)
    rw [declaredText]
    exact (fingerprint_within annotated).trans inText
  · exact (List.length_map _).trans_lt sound.counted

theorem from_federation_ok {Error : Type} {printing : KeyPrinting} {now : Int}
    (counted : federation.signers.length < 2 ^ 32) :
    (FederationSnapshot.fromFederation printing now federation :
      Outcome Error FederationSnapshot) = .ok (FederationSnapshot.record printing now federation) :=
  if_neg (Nat.not_le.mpr counted)

/-! ### Stacks -/

/-- A Bitcoin federation as the library lets it be made, that prints readably. -/
structure Recordable (parse : ParseDescriptor) (miniscript : Miniscript)
    (federation : Federation) : Prop where
  reachable : ∃ origin, Federation.Reachable miniscript origin federation
  parsesBack : ParsesBack parse miniscript federation

def addAll {Wallet : Type} (stack : BtcFederatedWallet Wallet)
    (calls : List (Federation × Wallet)) :
    Except FederatedWalletError (BtcFederatedWallet Wallet) :=
  calls.foldlM (fun stack call => stack.withFederation call.1 call.2) stack

def recordAll (printing : KeyPrinting) (clock : Nat → Int) (reading : Nat)
    (federations : List Federation) : List FederationSnapshot :=
  (federations.zipIdx reading).map fun version =>
    FederationSnapshot.record printing (clock version.2) version.1

section Stacks

variable {Wallet : Type} {start stack : BtcFederatedWallet Wallet}
  {calls : List (Federation × Wallet)}

def versions (stack : BtcFederatedWallet Wallet) : List Federation :=
  stack.federationWallets.map FederationWallet.federation

theorem add_all_versions (added : addAll start calls = .ok stack) :
    versions stack = versions start ++ calls.map Prod.fst ∧ stack.network = start.network := by
  induction calls generalizing start with
  | nil =>
      cases added
      simp
  | cons call calls ih =>
      obtain ⟨next, first, rest⟩ := bind_eq_ok.mp added
      obtain ⟨-, -, rfl⟩ := BtcFederatedWallet.with_federation_eq_ok.mp first
      obtain ⟨listed, network⟩ := ih rest
      refine ⟨?_, network⟩
      rw [listed]
      simp [versions]

theorem add_all_stacked (stacked : start.Stacked) (added : addAll start calls = .ok stack) :
    stack.Stacked := by
  induction calls generalizing start with
  | nil =>
      cases added
      exact stacked
  | cons call calls ih =>
      obtain ⟨next, first, rest⟩ := bind_eq_ok.mp added
      exact ih (BtcFederatedWallet.stacked_with_federation stacked first) rest

theorem snapshots_made {Error : Type} {printing : KeyPrinting} {clock : Nat → Int}
    {entries : List (FederationWallet Wallet)} {reading : Nat}
    (counted : ∀ entry ∈ entries, entry.federation.signers.length < 2 ^ 32) :
    ((entries.zipIdx reading).mapM fun entry =>
        (FederationSnapshot.fromFederation printing (clock entry.2) entry.1.federation :
          Outcome Error FederationSnapshot)) =
      .ok (recordAll printing clock reading (entries.map FederationWallet.federation)) := by
  induction entries generalizing reading with
  | nil => rfl
  | cons entry entries ih =>
      rw [List.forall_mem_cons] at counted
      rw [List.zipIdx_cons, List.mapM_cons, from_federation_ok counted.1, ok_bind,
        ih counted.2, ok_bind]
      rfl

theorem verify_each_ok (faithful : miniscript.Faithful) {network : NetworkType}
    (isBitcoin : network.isBitcoin = true) {clock : Nat → Int} {federations : List Federation}
    (recordable : ∀ federation ∈ federations, Recordable parse miniscript federation ∧
      federation.network = network) (index reading : Nat) :
    FederatedWalletSnapshot.verifyEach parse network index
      (recordAll miniscript.printing clock reading federations) = .ok () := by
  induction federations generalizing index reading with
  | nil => rfl
  | cons federation federations ih =>
      rw [List.forall_mem_cons] at recordable
      obtain ⟨⟨valid, sameNetwork⟩, rest⟩ := recordable
      obtain ⟨origin, reached⟩ := valid.reachable
      have passed := recorded_verifies faithful reached (sameNetwork ▸ isBitcoin)
        valid.parsesBack (clock reading)
      have matching : ¬ (FederationSnapshot.record miniscript.printing (clock reading)
          federation).network ≠ network := not_not_intro sameNetwork
      rw [recordAll, List.zipIdx_cons, List.map_cons, ← recordAll,
        FederatedWalletSnapshot.verifyEach, passed, Outcome.mapCause, ok_bind, if_neg matching]
      exact ih rest (index + 1) (reading + 1)

theorem stack_snapshot_verifies (faithful : miniscript.Faithful) {first : Federation × Wallet}
    (created : BtcFederatedWallet.new first.1 first.2 = .ok start)
    (added : addAll start calls = .ok stack)
    (recordable : ∀ federation ∈ (first :: calls).map Prod.fst,
      Recordable parse miniscript federation) (clock : Nat → Int) :
    ∃ snapshot, (FederatedWalletSnapshot.fromWallet miniscript.printing clock stack :
        Outcome SnapshotError FederatedWalletSnapshot) = .ok snapshot ∧
      snapshot.verify parse = .ok () ∧
      snapshot.federations =
        recordAll miniscript.printing clock 0 ((first :: calls).map Prod.fst) := by
  have stacked := add_all_stacked (BtcFederatedWallet.stacked_new created) added
  have listed : versions stack = (first :: calls).map Prod.fst := by
    obtain ⟨-, rfl⟩ := BtcFederatedWallet.new_eq_ok.mp created
    exact (add_all_versions added).1
  rw [← listed] at recordable ⊢
  have each : ∀ federation ∈ versions stack, Recordable parse miniscript federation ∧
      federation.network = stack.network := by
    intro federation member
    obtain ⟨entry, among, rfl⟩ := List.mem_map.mp member
    exact ⟨recordable _ member, stacked.network entry among⟩
  have counted : ∀ entry ∈ stack.federationWallets, entry.federation.signers.length < 2 ^ 32 := by
    intro entry among
    obtain ⟨origin, reached⟩ := (recordable _ (List.mem_map_of_mem among)).reachable
    exact (Federation.sound_of_reachable reached).counted
  refine ⟨_, bind_eq_ok.mpr ⟨_, snapshots_made counted, rfl⟩, ?_, rfl⟩
  have someVersion : ¬ (recordAll miniscript.printing clock 0 (versions stack)).isEmpty = true := by
    cases entries : stack.federationWallets with
    | nil => exact absurd entries stacked.nonempty
    | cons entry later => simp [versions, recordAll, entries]
  rw [FederatedWalletSnapshot.verify]
  exact (if_neg someVersion).trans (verify_each_ok faithful stacked.isBitcoin each 0 0)

end Stacks

/-! ### Both kinds of snapshots -/

/-- Snapshots of federations and of stacks that the library can make pass. -/
theorem snapshots_verify (faithful : miniscript.Faithful) :
    (∀ (federation : Federation) (now : Int), Recordable parse miniscript federation →
      federation.network.isBitcoin = true →
      ∃ snapshot, (FederationSnapshot.fromFederation miniscript.printing now federation :
          Outcome SnapshotError FederationSnapshot) = .ok snapshot ∧
        snapshot.verify parse = .ok ()) ∧
    ∀ (Wallet : Type) (first : Federation × Wallet) (calls : List (Federation × Wallet))
      (start stack : BtcFederatedWallet Wallet) (clock : Nat → Int),
      BtcFederatedWallet.new first.1 first.2 = .ok start → addAll start calls = .ok stack →
      (∀ federation ∈ (first :: calls).map Prod.fst, Recordable parse miniscript federation) →
      ∃ snapshot, (FederatedWalletSnapshot.fromWallet miniscript.printing clock stack :
          Outcome SnapshotError FederatedWalletSnapshot) = .ok snapshot ∧
        snapshot.verify parse = .ok () ∧
        snapshot.federations =
          recordAll miniscript.printing clock 0 ((first :: calls).map Prod.fst) := by
  constructor
  · intro federation now recordable isBitcoin
    obtain ⟨origin, reached⟩ := recordable.reachable
    have sound := Federation.sound_of_reachable reached
    exact ⟨_, from_federation_ok sound.counted,
      recorded_verifies faithful reached isBitcoin recordable.parsesBack now⟩
  · intro Wallet first calls start stack clock created added recordable
    exact stack_snapshot_verifies faithful created added recordable clock

def mockParse : ParseDescriptor := fun text =>
  if text = (MockSigner.descriptor .fixed).toText MockSigner.miniscript then
    .ok (MockSigner.descriptor .fixed)
  else .error "unexpected descriptor"

theorem mock_recordable :
    Recordable mockParse MockSigner.miniscript (MockSigner.federation .wsh) := by
  constructor
  · exact ⟨_, Federation.constructed_by_new MockSigner.federation_made⟩
  · intro descriptor stored
    have same : (MockSigner.federation .wsh).descriptor = some (MockSigner.descriptor .fixed) := by
      decide +kernel
    rw [same] at stored
    cases stored
    exact if_pos rfl

/-- A stack of two versions. -/
theorem two_version_snapshot_verifies :
    ∃ snapshot, (FederatedWalletSnapshot.fromWallet MockSigner.miniscript.printing (fun _ => 0)
        { network := .bitcoin .testnet
          federationWallets :=
            [⟨MockSigner.federation .wsh, (), 0⟩, ⟨MockSigner.federation .wsh, (), 1⟩] } :
          Outcome SnapshotError FederatedWalletSnapshot) = .ok snapshot ∧
      snapshot.verify mockParse = .ok () ∧
      snapshot.federations = recordAll MockSigner.miniscript.printing (fun _ => 0) 0
        [MockSigner.federation .wsh, MockSigner.federation .wsh] := by
  have both : ∀ federation ∈ [MockSigner.federation .wsh, MockSigner.federation .wsh],
      Recordable mockParse MockSigner.miniscript federation := by
    intro federation member
    have same : federation = MockSigner.federation .wsh := by simpa using member
    exact same ▸ mock_recordable
  exact (snapshots_verify MockSigner.miniscript_faithful).2 Unit (MockSigner.federation .wsh, ())
    [(MockSigner.federation .wsh, ())] _ _ (fun _ => 0)
    (BtcFederatedWallet.new_eq_ok.mpr ⟨rfl, rfl⟩) rfl both

/-- What a verified snapshot is known to be, and what it is when it was taken of a
federation. -/
theorem verified_snapshots (faithful : miniscript.Faithful) :
    (∀ snapshot : FederationSnapshot, snapshot.verify parse = .ok () → Checked parse snapshot) ∧
    ∀ (federation : Federation) (now : Int) (snapshot : FederationSnapshot),
      Recordable parse miniscript federation → federation.network.isBitcoin = true →
      (FederationSnapshot.fromFederation miniscript.printing now federation :
        Outcome SnapshotError FederationSnapshot) = .ok snapshot →
      ∃ descriptor, parse snapshot.descriptor = .ok descriptor ∧
        Bound miniscript.printing snapshot descriptor := by
  constructor
  · intro snapshot verified
    exact (verify_eq_ok.mp verified).1
  · intro federation now snapshot recordable isBitcoin taken
    obtain ⟨origin, reached⟩ := recordable.reachable
    have sound := Federation.sound_of_reachable reached
    rw [from_federation_ok sound.counted] at taken
    cases taken
    obtain ⟨descriptor, stored, text, bound⟩ := described_bound faithful reached isBitcoin now
    exact ⟨descriptor, (congrArg parse text).trans (recordable.parsesBack descriptor stored), bound⟩

theorem mock_snapshot_bound :
    ∃ descriptor, mockParse (FederationSnapshot.record MockSigner.miniscript.printing 0
        (MockSigner.federation .wsh)).descriptor = .ok descriptor ∧
      Bound MockSigner.miniscript.printing (FederationSnapshot.record MockSigner.miniscript.printing
        0 (MockSigner.federation .wsh)) descriptor := by
  have counted : (MockSigner.federation .wsh).signers.length < 2 ^ 32 := by decide
  exact (verified_snapshots MockSigner.miniscript_faithful).2 (MockSigner.federation .wsh) 0 _
    mock_recordable rfl (from_federation_ok counted)

def lowered : FederationSnapshot :=
  { FederationSnapshot.record MockSigner.printing 0 (MockSigner.federation .wsh) with
    threshold := 1 }

/-- It still verifies, and declares less than the descriptor asks for. -/
theorem lowered_threshold_verifies :
    lowered.verify mockParse = .ok () ∧
      ∀ descriptor, mockParse lowered.descriptor = .ok descriptor →
        ¬ Bound MockSigner.printing lowered descriptor := by
  constructor
  · decide +kernel
  · intro descriptor parsed bound
    have same : mockParse lowered.descriptor = .ok (MockSigner.descriptor .fixed) := by
      decide +kernel
    rw [same] at parsed
    cases parsed
    exact absurd bound.threshold (by decide)

end SnapshotVerify

end EmvaultCore
