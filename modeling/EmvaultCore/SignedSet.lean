import EmvaultCore.Library.Runs
import EmvaultCore.MockSigner
import EmvaultCore.SigningCoordinator

/-!
# Who is counted as a signer

A member should be counted only while the PSBT holds a signature of its own: an
ECDSA signature under a key that the derivation map gives to its fingerprint, or
a script-path signature under a key that the taproot origins give to it. The two
attribution routines of the coordinator keep this under conditions on what the
wallet and the devices hand in, which are stated here and carried over runs.
-/

namespace EmvaultCore.SignedSet

open Library.Runs

inductive OwnOn (input : PsbtInput) (fingerprint : Fingerprint) : Prop where
  | ecdsa (key : PublicKey) (member : key ∈ input.partialSigs)
      (label : input.bip32Label key.inner = some fingerprint)
  | taproot (key : XOnlyPublicKey ×ₗ TapLeafHash) (member : key ∈ input.tapScriptSigs)
      (label : input.tapLabel (ofLex key).1 = some fingerprint)

def OwnSignature (psbt : Psbt) (fingerprint : Fingerprint) : Prop :=
  ∃ (index : Nat) (input : PsbtInput), psbt.inputs[index]? = some input ∧ OwnOn input fingerprint

/-- Every counted id is that of a member with a signature of its own. -/
def Honest (coordinator : SigningCoordinator) : Prop :=
  ∀ id ∈ coordinator.signed, ∃ signer ∈ coordinator.federation.signers,
    signer.id = id ∧ OwnSignature coordinator.psbt signer.fingerprint

/-- What signing in place may do to an input: add, and relabel nothing. -/
structure Extends (before after : PsbtInput) : Prop where
  partialSigs : ∀ key ∈ before.partialSigs, key ∈ after.partialSigs
  tapScriptSigs : ∀ key ∈ before.tapScriptSigs, key ∈ after.tapScriptSigs
  bip32Label : ∀ key label, before.bip32Label key = some label →
    after.bip32Label key = some label
  tapLabel : ∀ key label, before.tapLabel key = some label → after.tapLabel key = some label

/-- `Wallet::sign` only adds signatures, also when it fails. -/
def OnlyAddsSignatures (sign : WalletSign) : Prop :=
  ∀ (psbt : Psbt) (index : Nat) (before : PsbtInput), psbt.inputs[index]? = some before →
    ∃ after, (sign psbt).1.inputs[index]? = some after ∧ Extends before after

theorem own_on_extends {before after : PsbtInput} {fingerprint : Fingerprint}
    (extended : Extends before after) (own : OwnOn before fingerprint) :
    OwnOn after fingerprint := by
  cases own with
  | ecdsa key member label =>
      exact .ecdsa key (extended.partialSigs key member) (extended.bip32Label _ _ label)
  | taproot key member label =>
      exact .taproot key (extended.tapScriptSigs key member) (extended.tapLabel _ _ label)

theorem own_signature_signed {sign : WalletSign} (addsOnly : OnlyAddsSignatures sign)
    {psbt : Psbt} {fingerprint : Fingerprint} (own : OwnSignature psbt fingerprint) :
    OwnSignature (sign psbt).1 fingerprint := by
  rcases own with ⟨index, input, given, own⟩
  rcases addsOnly psbt index input given with ⟨after, present, extended⟩
  exact ⟨index, after, present, own_on_extends extended own⟩

/-- Every member that a taproot signature makes the coordinator count has signed. -/
def CreditDeserved (federation : Federation) (psbt : Psbt) : Prop :=
  ∀ input ∈ psbt.inputs, (input.tapScriptSigs.isEmpty = false ∨ input.tapKeySig.isSome = true) →
    ∀ signer ∈ federation.signers, (∃ key, input.tapLabel key = some signer.fingerprint) →
      OwnSignature psbt signer.fingerprint

def mergedLabel (label : PsbtInput → PublicKey → Option Fingerprint)
    (session returned : PsbtInput) (key : PublicKey) : Option Fingerprint :=
  (label returned key).or (label session key)

def byDerivation (input : PsbtInput) (key : PublicKey) : Option Fingerprint :=
  input.bip32Label key.inner

def byTapOrigin (input : PsbtInput) (key : PublicKey) : Option Fingerprint :=
  input.tapLabel key.inner.xOnly

theorem fp_matches_merge (input other : PsbtInput) (key : PublicKey) {fingerprint : Fingerprint} :
    (input.merge other).fpMatches fingerprint key = true ↔
      mergedLabel byDerivation input other key = some fingerprint ∨
        mergedLabel byTapOrigin input other key = some fingerprint := by
  simp only [PsbtInput.fpMatches, PsbtInput.bip32_label_merge, PsbtInput.tap_label_merge,
    Bool.or_eq_true, decide_eq_true_eq, mergedLabel, byDerivation, byTapOrigin]

def AddsUnder (label : PsbtInput → PublicKey → Option Fingerprint) (session returned : Psbt)
    (fingerprint : Fingerprint) : Prop :=
  ∃ (index : Nat) (input other : PsbtInput) (key : PublicKey),
    session.inputs[index]? = some input ∧ returned.inputs[index]? = some other ∧
      key ∈ other.partialSigs ∧ key ∉ input.partialSigs ∧
      mergedLabel label input other key = some fingerprint

/-- The returned PSBT leaves the label of one own signature alone. -/
inductive KeptOn (input : PsbtInput) (returned : Option PsbtInput) (fingerprint : Fingerprint) :
    Prop where
  | ecdsa (key : PublicKey) (member : key ∈ input.partialSigs)
      (label : input.bip32Label key.inner = some fingerprint)
      (undisturbed : ∀ other ∈ returned, ∀ relabel, other.bip32Label key.inner = some relabel →
        relabel = fingerprint)
  | taproot (key : XOnlyPublicKey ×ₗ TapLeafHash) (member : key ∈ input.tapScriptSigs)
      (label : input.tapLabel (ofLex key).1 = some fingerprint)
      (undisturbed : ∀ other ∈ returned, ∀ relabel, other.tapLabel (ofLex key).1 = some relabel →
        relabel = fingerprint)

def KeepsOwnSignature (session returned : Psbt) (fingerprint : Fingerprint) : Prop :=
  ∃ (index : Nat) (input : PsbtInput), session.inputs[index]? = some input ∧
    KeptOn input (returned.inputs[index]?) fingerprint

/-- A returned PSBT that adds a signature attributed to `id` leaves an own
signature of every counted member labelled as it was, and its signature is
attributed by the derivation map, unless `id` keeps one anyway. -/
def HonestReturn (ops : PsbtOps) (coordinator : SigningCoordinator) (id : SignerId)
    (returned : Psbt) : Prop :=
  ∀ signer merged, coordinator.federation.find id = some signer →
    ops.computeTxid returned.unsignedTx = ops.computeTxid coordinator.psbt.unsignedTx →
    ops.combine coordinator.psbt returned = .ok merged →
    (AddsUnder byDerivation coordinator.psbt returned signer.fingerprint ∨
      AddsUnder byTapOrigin coordinator.psbt returned signer.fingerprint) →
    (∀ member ∈ coordinator.federation.signers, member.id ∈ coordinator.signed →
      KeepsOwnSignature coordinator.psbt returned member.fingerprint) ∧
    (AddsUnder byDerivation coordinator.psbt returned signer.fingerprint ∨
      KeepsOwnSignature coordinator.psbt returned signer.fingerprint)

def HonestCall (ops : PsbtOps) (coordinator : SigningCoordinator) :
    SigningCoordinator.Call → Prop
  | .request sign => ∀ answer, (sign coordinator.psbt).2 = .ok answer →
      CreditDeserved coordinator.federation (sign coordinator.psbt).1
  | .receive id returned => HonestReturn ops coordinator id returned

section Merging

variable {ops : PsbtOps} (keyWise : ops.MergesKeyWise) {session returned merged : Psbt}
  (combined : ops.combine session returned = .ok merged) {fingerprint : Fingerprint}

include keyWise combined

theorem merged_input {index : Nat} {input : PsbtInput}
    (given : session.inputs[index]? = some input) :
    merged.inputs[index]? = some (match returned.inputs[index]? with
      | some other => input.merge other
      | none => input) := by
  rw [keyWise.inputs combined, Psbt.merge_inputs_get, given]
  rfl

theorem kept_own_signature (kept : KeepsOwnSignature session returned fingerprint) :
    OwnSignature merged fingerprint := by
  rcases kept with ⟨index, input, given, own⟩
  have present := merged_input keyWise combined given
  refine ⟨index, _, present, ?_⟩
  cases returnedInput : returned.inputs[index]? with
  | none =>
      cases own with
      | ecdsa key member label => exact .ecdsa key member label
      | taproot key member label => exact .taproot key member label
  | some other =>
      rw [returnedInput] at own
      cases own with
      | ecdsa key member label undisturbed =>
          refine .ecdsa key ((input.mem_partial_sigs_merge other key).mpr (Or.inl member)) ?_
          rw [PsbtInput.bip32_label_merge, label]
          cases relabel : other.bip32Label key.inner with
          | none => rfl
          | some found => rw [undisturbed other rfl found relabel, Option.some_or]
      | taproot key member label undisturbed =>
          refine .taproot key ((input.mem_tap_script_sigs_merge other key).mpr (Or.inl member)) ?_
          rw [PsbtInput.tap_label_merge, label]
          cases relabel : other.tapLabel (ofLex key).1 with
          | none => rfl
          | some found => rw [undisturbed other rfl found relabel, Option.some_or]

theorem added_own_signature (adds : AddsUnder byDerivation session returned fingerprint) :
    OwnSignature merged fingerprint := by
  rcases adds with ⟨index, input, other, key, given, returnedInput, member, -, label⟩
  have present := merged_input keyWise combined given
  rw [returnedInput] at present
  refine ⟨index, _, present, .ecdsa key ?_ ?_⟩
  · exact (input.mem_partial_sigs_merge other key).mpr (Or.inr member)
  · rw [PsbtInput.bip32_label_merge]
    exact label

theorem found_new_of_adds {label : PsbtInput → PublicKey → Option Fingerprint}
    (adds : AddsUnder label session returned fingerprint)
    (owning : ∀ input other key, mergedLabel label input other key = some fingerprint →
      (input.merge other).fpMatches fingerprint key = true) :
    foundNew session merged fingerprint = true := by
  rcases adds with ⟨index, base, other, key, sessionInput, returnedInput, added, absent, owned⟩
  have present := merged_input keyWise combined sessionInput
  rw [returnedInput] at present
  apply found_new_iff.mpr
  refine ⟨index, _, present, key, (base.mem_partial_sigs_merge other key).mpr (Or.inr added),
    owning base other key owned, ?_⟩
  intro previous given
  rw [sessionInput] at given
  exact Option.some.inj given ▸ absent

theorem adds_of_found_new (found : foundNew session merged fingerprint = true) :
    AddsUnder byDerivation session returned fingerprint ∨
      AddsUnder byTapOrigin session returned fingerprint := by
  rcases found_new_iff.mp found with ⟨index, input, given, key, member, owned, fresh⟩
  cases sessionInput : session.inputs[index]? with
  | none =>
      rw [keyWise.inputs combined, Psbt.merge_inputs_get, sessionInput] at given
      cases given
  | some base =>
      have absent := fresh base sessionInput
      rw [merged_input keyWise combined sessionInput] at given
      cases returnedInput : returned.inputs[index]? with
      | none =>
          rw [returnedInput] at given
          rw [← Option.some.inj given] at member
          exact absurd member absent
      | some other =>
          rw [returnedInput] at given
          rw [← Option.some.inj given] at member owned
          have added := ((base.mem_partial_sigs_merge other key).mp member).resolve_left absent
          rcases (fp_matches_merge base other key).mp owned with derived | tap
          · exact Or.inl ⟨index, base, other, key, sessionInput, returnedInput, added, absent,
              derived⟩
          · exact Or.inr ⟨index, base, other, key, sessionInput, returnedInput, added, absent, tap⟩

theorem found_new_adds :
    foundNew session merged fingerprint = true ↔
      AddsUnder byDerivation session returned fingerprint ∨
        AddsUnder byTapOrigin session returned fingerprint := by
  constructor
  · exact adds_of_found_new keyWise combined
  · intro adds
    rcases adds with derived | tap
    · exact found_new_of_adds keyWise combined derived fun input other key label =>
        (fp_matches_merge input other key).mpr (Or.inl label)
    · exact found_new_of_adds keyWise combined tap fun input other key label =>
        (fp_matches_merge input other key).mpr (Or.inr label)

end Merging

theorem credited_signed {federation : Federation} {psbt : Psbt}
    (deserved : CreditDeserved federation psbt) {id : SignerId}
    (counted : id ∈ signersWithSigs psbt federation) :
    ∃ signer ∈ federation.signers, signer.id = id ∧ OwnSignature psbt signer.fingerprint := by
  rw [signersWithSigs, List.mem_toFinset, List.mem_flatMap] at counted
  rcases counted with ⟨input, member, credited⟩
  rcases List.mem_append.mp credited with ecdsa | taproot
  · rcases List.mem_filterMap.mp ecdsa with ⟨source, -, answer⟩
    split at answer
    · next signed =>
        rcases fp_to_id_eq_some answer with ⟨signer, among, sameId, sameFingerprint⟩
        rcases List.any_eq_true.mp signed with ⟨key, keys, label⟩
        rcases List.mem_iff_getElem?.mp member with ⟨index, given⟩
        refine ⟨signer, among, sameId, index, input, given, .ecdsa key ?_ ?_⟩
        · exact Std.ExtTreeMap.mem_keys.mp keys
        · rw [sameFingerprint]
          exact of_decide_eq_true label
    · cases answer
  · rcases List.mem_filterMap.mp taproot with ⟨origin, listed, answer⟩
    split at answer
    · next signed =>
        rcases fp_to_id_eq_some answer with ⟨signer, among, sameId, sameFingerprint⟩
        rcases BTreeMap.mem_values_in_order.mp listed with ⟨key, found⟩
        have some : input.tapScriptSigs.isEmpty = false ∨ input.tapKeySig.isSome = true := by
          simpa using signed
        have label : input.tapLabel key = .some signer.fingerprint := by
          rw [PsbtInput.tapLabel, found, sameFingerprint]
          rfl
        exact ⟨signer, among, sameId, deserved input member some signer among ⟨key, label⟩⟩
    · cases answer

/-- One call under the conditions keeps every counted member honest. -/
theorem honest_step {ops : PsbtOps} (keyWise : ops.MergesKeyWise)
    {coordinator : SigningCoordinator} {call : SigningCoordinator.Call}
    (addsOnly : ∀ sign, call = .request sign → OnlyAddsSignatures sign)
    (allowed : HonestCall ops coordinator call) (honest : Honest coordinator) :
    Honest (coordinator.step ops call) := by
  cases call with
  | request sign =>
      have kept : ∀ id ∈ coordinator.signed, ∃ signer ∈ coordinator.federation.signers,
          signer.id = id ∧ OwnSignature (sign coordinator.psbt).1 signer.fingerprint := by
        intro id counted
        rcases honest id counted with ⟨signer, among, sameId, own⟩
        exact ⟨signer, among, sameId, own_signature_signed (addsOnly sign rfl) own⟩
      simp only [SigningCoordinator.step, SigningCoordinator.requestSignatures]
      cases answered : sign coordinator.psbt with
      | mk psbt answer =>
          rw [answered] at kept
          cases answer with
          | error reason => exact kept
          | ok done =>
              have deserved := allowed done (by rw [answered])
              rw [answered] at deserved
              intro id counted
              rcases Finset.mem_union.mp counted with before | credited
              · exact kept id before
              · exact credited_signed deserved credited
  | receive id returned =>
      rcases coordinator.receive_signature_cases ops id returned with ⟨next, answer⟩ | ⟨cause, answer⟩
      · rw [SigningCoordinator.step, answer]
        rcases SigningCoordinator.receive_signature_ok.mp answer with
          ⟨signer, merged, member, txid, combined, found, rfl⟩
        have adds := (found_new_adds keyWise combined).mp found
        rcases allowed signer merged member txid combined adds with ⟨kept, attributed⟩
        have own : OwnSignature merged signer.fingerprint := by
          rcases attributed with derived | keeps
          · exact added_own_signature keyWise combined derived
          · exact kept_own_signature keyWise combined keeps
        intro counted among
        rcases Finset.mem_insert.mp among with rfl | before
        · rcases find_eq_some member with ⟨listed, sameId⟩
          exact ⟨signer, listed, sameId, own⟩
        · rcases honest counted before with ⟨other, listed, rfl, -⟩
          exact ⟨other, listed, rfl, kept_own_signature keyWise combined (kept other listed before)⟩
      · rw [SigningCoordinator.step, answer]
        exact honest

/-- In every run whose calls meet the condition every counted member has signed,
and a complete session has signatures of at least `threshold` members. -/
theorem counted_members_signed {ops : PsbtOps} (keyWise : ops.MergesKeyWise)
    {federation : Federation} {psbt : UnsignedPsbt} {calls : List SigningCoordinator.Call}
    (addsOnly : ∀ sign, .request sign ∈ calls → OnlyAddsSignatures sign)
    (along : Along (SigningCoordinator.step ops) (HonestCall ops)
      (SigningCoordinator.new federation psbt) calls) (moment : Nat) :
    let reached := stateAt (SigningCoordinator.step ops) (SigningCoordinator.new federation psbt)
      calls moment
    (∀ id ∈ reached.signed, ∃ signer ∈ federation.signers,
      signer.id = id ∧ OwnSignature reached.psbt signer.fingerprint) ∧
    (reached.isComplete = .ok true →
      ∃ members : Finset SignerId, federation.threshold.toNat ≤ members.card ∧
        ∀ id ∈ members, ∃ signer ∈ federation.signers,
          signer.id = id ∧ OwnSignature reached.psbt signer.fingerprint) := by
  intro reached
  have each : ∀ call ∈ calls, ∀ sign, call = .request sign → OnlyAddsSignatures sign := by
    intro call member sign same
    exact addsOnly sign (same ▸ member)
  have preserved : ∀ coordinator call,
      (HonestCall ops coordinator call ∧
        ∀ sign, call = .request sign → OnlyAddsSignatures sign) →
      coordinator.federation = federation ∧ Honest coordinator →
      (coordinator.step ops call).federation = federation ∧
        Honest (coordinator.step ops call) := by
    intro coordinator call allowed kept
    rcases kept with ⟨sameFederation, honest⟩
    exact ⟨(SigningCoordinator.step_federation call).trans sameFederation,
      honest_step keyWise allowed.2 allowed.1 honest⟩
  have initially : Honest (SigningCoordinator.new federation psbt) := by
    intro id counted
    exact absurd counted (Finset.notMem_empty id)
  have invariant : reached.federation = federation ∧ Honest reached :=
    state_at_invariant preserved ⟨rfl, initially⟩ (along_and along each) moment
  rcases invariant with ⟨sameFederation, honest⟩
  rw [Honest, sameFederation] at honest
  refine ⟨honest, ?_⟩
  intro complete
  refine ⟨reached.signed, ?_, honest⟩
  rw [SigningCoordinator.isComplete] at complete
  split at complete
  · have enough := of_decide_eq_true (Except.ok.inj complete)
    rw [← sameFederation]
    exact enough
  · cases complete

/-! A session over one input, with its real transaction id. -/

def sessionTx : Transaction where
  version := 2
  lockTime := 0
  input := [⟨0x1111111111111111111111111111111111111111111111111111111111111111, 0⟩]
  output := [⟨.fromSat 90000, 0x00 :: 0x14 :: List.replicate 20 0x22⟩]

def mockOps : PsbtOps :=
  PsbtOps.keyWise fun transaction =>
    if transaction = sessionTx then
      0x8daedf4374b780a9a425ce1b574ee5625a692b4c7067835f1ead837fe7d8480d
    else 0

def keySource (signer : Signer) : KeySource := (signer.fingerprint, signer.derivationPath)

def wshInput : PsbtInput :=
  { PsbtInput.empty with
    bip32Derivation :=
      ((∅ : BTreeMap SecpPublicKey KeySource).insert MockSigner.first.xpub.publicKey
        (keySource MockSigner.first)).insert MockSigner.second.xpub.publicKey
        (keySource MockSigner.second) }

def tapInput : PsbtInput :=
  { PsbtInput.empty with
    tapKeyOrigins :=
      ((∅ : BTreeMap XOnlyPublicKey (List TapLeafHash × KeySource)).insert
        MockSigner.first.xpub.publicKey.xOnly ([7], keySource MockSigner.first)).insert
        MockSigner.second.xpub.publicKey.xOnly ([7], keySource MockSigner.second) }

def sessionOf (input : PsbtInput) : Psbt := ⟨sessionTx, [input]⟩

def signedBy (signers : List Signer) : PsbtInput :=
  { wshInput with
    partialSigs := signers.foldl
      (fun sigs signer => sigs.insert (PublicKey.new signer.xpub.publicKey) [0x30, 0x01]) ∅ }

def wshSession : UnsignedPsbt := ⟨sessionOf wshInput, by decide⟩

def tapSession : UnsignedPsbt := ⟨sessionOf tapInput, by decide⟩

def scriptKey (signer : Signer) : XOnlyPublicKey ×ₗ TapLeafHash :=
  toLex (signer.xpub.publicKey.xOnly, 7)

def withScriptSignature (signer : Signer) (input : PsbtInput) : PsbtInput :=
  { input with tapScriptSigs := input.tapScriptSigs.insert (scriptKey signer) [0x01] }

theorem script_signature_extends (signer : Signer) (input : PsbtInput) :
    Extends input (withScriptSignature signer input) := by
  constructor
  · intro key member
    exact member
  · intro key member
    exact Std.ExtTreeMap.mem_insert.mpr (Or.inr member)
  · intro key label labelled
    exact labelled
  · intro key label labelled
    exact labelled

theorem extends_trans {first middle last : PsbtInput} (earlier : Extends first middle)
    (later : Extends middle last) : Extends first last := by
  constructor
  · exact fun key member => later.partialSigs key (earlier.partialSigs key member)
  · exact fun key member => later.tapScriptSigs key (earlier.tapScriptSigs key member)
  · exact fun key label given => later.bip32Label key label (earlier.bip32Label key label given)
  · exact fun key label given => later.tapLabel key label (earlier.tapLabel key label given)

def signEach (edit : PsbtInput → PsbtInput) : WalletSign := fun psbt =>
  ({ psbt with inputs := psbt.inputs.map edit }, .ok false)

theorem sign_each_only_adds {edit : PsbtInput → PsbtInput}
    (extended : ∀ input, Extends input (edit input)) : OnlyAddsSignatures (signEach edit) := by
  intro psbt index before given
  refine ⟨edit before, ?_, extended before⟩
  simp [signEach, given]

/-! A 3-of-3 taproot session: the wallet holds the first two keys and signs the script
path with both, then the second device adds an ECDSA signature under its x-only key
and the third one under its key of the derivation map. -/

def jointInput : PsbtInput :=
  { tapInput with
    bip32Derivation := (∅ : BTreeMap SecpPublicKey KeySource).insert
      MockSigner.third.xpub.publicKey (keySource MockSigner.third) }

def signBoth : WalletSign :=
  signEach fun input =>
    withScriptSignature MockSigner.second (withScriptSignature MockSigner.first input)

def returnedInput (signer : Signer) : PsbtInput :=
  { jointInput with
    partialSigs := (∅ : BTreeMap PublicKey Signature).insert
      (PublicKey.new signer.xpub.publicKey) [0x30, 0x01] }

def returnedBy (signer : Signer) : Psbt := sessionOf (returnedInput signer)

def jointSession : UnsignedPsbt := ⟨sessionOf jointInput, by decide⟩

def jointStart : SigningCoordinator :=
  SigningCoordinator.new
    (MockSigner.federationOf 3 [MockSigner.first, MockSigner.second, MockSigner.third] .tr)
    jointSession

def jointCalls : List SigningCoordinator.Call :=
  [.request signBoth, .receive MockSigner.second.id (returnedBy MockSigner.second),
    .receive MockSigner.third.id (returnedBy MockSigner.third)]

theorem sign_both_only_adds : OnlyAddsSignatures signBoth :=
  sign_each_only_adds fun input =>
    extends_trans (script_signature_extends MockSigner.first input)
      (script_signature_extends MockSigner.second _)

def jointSigned : PsbtInput :=
  withScriptSignature MockSigner.second (withScriptSignature MockSigner.first jointInput)

def jointRequested : SigningCoordinator := jointStart.step mockOps (.request signBoth)

theorem joint_request_honest : HonestCall mockOps jointStart (.request signBoth) := by
  intro answer done input among some signer member listed
  obtain rfl : input = jointSigned := List.mem_singleton.mp among
  have members : signer ∈ [MockSigner.first, MockSigner.second, MockSigner.third] := member
  simp only [List.mem_cons, List.not_mem_nil, or_false] at members
  rcases members with rfl | rfl | rfl
  · exact ⟨0, jointSigned, rfl, .taproot (scriptKey MockSigner.first) (by decide +kernel)
      (by decide +kernel)⟩
  · exact ⟨0, jointSigned, rfl, .taproot (scriptKey MockSigner.second) (by decide +kernel)
      (by decide +kernel)⟩
  · -- no tap key origin carries the third fingerprint
    obtain ⟨key, label⟩ := listed
    obtain ⟨origin, found, fingerprint⟩ := Option.map_eq_some_iff.mp label
    have among := BTreeMap.mem_values_in_order.mpr ⟨key, found⟩
    have none : ∀ origin ∈ jointSigned.tapKeyOrigins.valuesInOrder,
        origin.2.1 ≠ MockSigner.third.fingerprint := by
      decide +kernel
    exact absurd fingerprint (none origin among)

/-- A device that repeats the taproot origin leaves the script-path signature alone. -/
theorem keeps_script_signature {input other : PsbtInput} {signer : Signer}
    (member : scriptKey signer ∈ input.tapScriptSigs)
    (label : input.tapLabel signer.xpub.publicKey.xOnly = some signer.fingerprint)
    (again : other.tapLabel signer.xpub.publicKey.xOnly = some signer.fingerprint) :
    KeepsOwnSignature (sessionOf input) (sessionOf other) signer.fingerprint := by
  refine ⟨0, input, rfl, .taproot (scriptKey signer) member label ?_⟩
  intro present given relabel found
  cases given
  exact Option.some.inj (found.symm.trans again)

theorem joint_members_kept {coordinator : SigningCoordinator} {input other : PsbtInput}
    (federation : coordinator.federation = jointStart.federation)
    (uncounted : MockSigner.third.id ∉ coordinator.signed)
    (kept : ∀ signer ∈ [MockSigner.first, MockSigner.second],
      KeepsOwnSignature (sessionOf input) (sessionOf other) signer.fingerprint) :
    ∀ member ∈ coordinator.federation.signers, member.id ∈ coordinator.signed →
      KeepsOwnSignature (sessionOf input) (sessionOf other) member.fingerprint := by
  rw [federation]
  intro member listed counted
  have members : member ∈ [MockSigner.first, MockSigner.second] ++ [MockSigner.third] := listed
  cases List.mem_append.mp members with
  | inl early => exact kept member early
  | inr last =>
      rw [List.mem_singleton.mp last] at counted
      exact absurd counted uncounted

theorem joint_second_honest :
    HonestCall mockOps jointRequested
      (.receive MockSigner.second.id (returnedBy MockSigner.second)) := by
  intro signer merged found txid combined adds
  have isSecond : jointRequested.federation.find MockSigner.second.id = some MockSigner.second := by
    decide +kernel
  obtain rfl : MockSigner.second = signer := Option.some.inj (isSecond.symm.trans found)
  have kept : ∀ signer ∈ [MockSigner.first, MockSigner.second],
      KeepsOwnSignature (sessionOf jointSigned) (returnedBy MockSigner.second)
        signer.fingerprint := by
    intro signer listed
    rcases List.mem_pair.mp listed with rfl | rfl
    · exact keeps_script_signature (by decide +kernel) (by decide +kernel) (by decide +kernel)
    · exact keeps_script_signature (by decide +kernel) (by decide +kernel) (by decide +kernel)
  constructor
  · exact joint_members_kept rfl (by decide +kernel) kept
  · exact Or.inr (kept MockSigner.second (by decide))

def jointMerged : PsbtInput := jointSigned.merge (returnedInput MockSigner.second)

def jointReceived : SigningCoordinator :=
  { jointRequested with
    psbt := sessionOf jointMerged
    signed := insert MockSigner.second.id jointRequested.signed }

theorem joint_second_accepted :
    jointRequested.receiveSignature mockOps MockSigner.second.id (returnedBy MockSigner.second) =
      (jointReceived, .ok ()) := by
  apply SigningCoordinator.receive_signature_ok.mpr
  refine ⟨MockSigner.second, sessionOf jointMerged, by decide +kernel, rfl, ?_, by decide +kernel,
    rfl⟩
  have sameTx : jointRequested.psbt.unsignedTx = (returnedBy MockSigner.second).unsignedTx := rfl
  simp only [mockOps, PsbtOps.keyWise, if_pos sameTx]
  rfl

theorem joint_third_honest :
    HonestCall mockOps jointReceived
      (.receive MockSigner.third.id (returnedBy MockSigner.third)) := by
  intro signer merged found txid combined adds
  have isThird : jointReceived.federation.find MockSigner.third.id = some MockSigner.third := by
    decide +kernel
  obtain rfl : MockSigner.third = signer := Option.some.inj (isThird.symm.trans found)
  have kept : ∀ signer ∈ [MockSigner.first, MockSigner.second],
      KeepsOwnSignature (sessionOf jointMerged) (returnedBy MockSigner.third)
        signer.fingerprint := by
    intro signer listed
    rcases List.mem_pair.mp listed with rfl | rfl
    · exact keeps_script_signature (by decide +kernel) (by decide +kernel) (by decide +kernel)
    · exact keeps_script_signature (by decide +kernel) (by decide +kernel) (by decide +kernel)
  constructor
  · exact joint_members_kept rfl (by decide +kernel) kept
  · exact Or.inl ⟨0, jointMerged, _, PublicKey.new MockSigner.third.xpub.publicKey, rfl, rfl,
      by decide +kernel, by decide +kernel, by decide +kernel⟩

theorem joint_calls_honest :
    Along (SigningCoordinator.step mockOps) (HonestCall mockOps) jointStart jointCalls := by
  refine ⟨joint_request_honest, joint_second_honest, ?_, trivial⟩
  have received : jointRequested.step mockOps
      (.receive MockSigner.second.id (returnedBy MockSigner.second)) = jointReceived :=
    congrArg Prod.fst joint_second_accepted
  rw [← jointRequested, received]
  exact joint_third_honest

theorem counted_members_signed_mock :
    let reached := stateAt (SigningCoordinator.step mockOps) jointStart jointCalls 3
    reached.isComplete = .ok true ∧
    (∀ id ∈ reached.signed, ∃ signer ∈ jointStart.federation.signers,
      signer.id = id ∧ OwnSignature reached.psbt signer.fingerprint) ∧
    ∃ members : Finset SignerId, 3 ≤ members.card ∧
      ∀ id ∈ members, ∃ signer ∈ jointStart.federation.signers,
        signer.id = id ∧ OwnSignature reached.psbt signer.fingerprint := by
  intro reached
  have addsOnly : ∀ sign : WalletSign, SigningCoordinator.Call.request sign ∈ jointCalls →
      OnlyAddsSignatures sign := by
    intro sign member
    cases List.mem_cons.mp member with
    | inl same =>
        cases same
        exact sign_both_only_adds
    | inr later => simp at later
  have complete : reached.isComplete = .ok true := by decide +kernel
  obtain ⟨honest, enough⟩ := counted_members_signed (PsbtOps.key_wise_merges _) addsOnly
    joint_calls_honest 3
  exact ⟨complete, honest, enough complete⟩

def withFirstSignature : PsbtInput → PsbtInput := withScriptSignature MockSigner.first

def signFirst : WalletSign := signEach withFirstSignature

theorem sign_first_only_adds : OnlyAddsSignatures signFirst :=
  sign_each_only_adds (script_signature_extends MockSigner.first)

theorem second_has_not_signed :
    ¬ OwnSignature (signFirst (sessionOf tapInput)).1 MockSigner.second.fingerprint := by
  intro signature
  rcases signature with ⟨index, input, given, own⟩
  have only : input = withFirstSignature tapInput := by
    cases index with
    | zero => exact (Option.some.inj given).symm
    | succ index => cases given
  rw [only] at own
  cases own with
  | ecdsa key member label => exact absurd member Std.ExtTreeMap.not_mem_empty
  | taproot key member label =>
      rcases Std.ExtTreeMap.mem_insert.mp member with same | before
      · have isFirst := compare_eq_iff_eq.mp same
        rw [← isFirst] at label
        exact absurd label (by decide +kernel)
      · exact absurd before Std.ExtTreeMap.not_mem_empty

/-- One software signer signs a taproot session, and both members are counted. -/
theorem taproot_signature_credits_both :
    OnlyAddsSignatures signFirst ∧ MockSigner.first.fingerprint ≠ MockSigner.second.fingerprint ∧
      let reached := SigningCoordinator.step mockOps
        (SigningCoordinator.new (MockSigner.federation .tr) tapSession) (.request signFirst)
      reached.isComplete = .ok true ∧ ¬ Honest reached := by
  refine ⟨sign_first_only_adds, by decide, by decide +kernel, ?_⟩
  intro honest
  have counted : MockSigner.second.id ∈ (SigningCoordinator.step mockOps
      (SigningCoordinator.new (MockSigner.federation .tr) tapSession) (.request signFirst)).signed := by
    decide +kernel
  rcases honest _ counted with ⟨signer, listed, sameId, own⟩
  have members : signer ∈ [MockSigner.first, MockSigner.second] := listed
  rcases List.mem_pair.mp members with rfl | rfl
  · exact absurd sameId (by decide +kernel)
  · exact second_has_not_signed own

end EmvaultCore.SignedSet
