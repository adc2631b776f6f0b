import EmvaultCore.MergeFrame

/-!
# Signatures of each input

A complete session counts members that have signed, and a member is counted for
a signature on any input. Where every accepted PSBT signs one input, that input
has the signatures of as many members as are counted.
-/

namespace EmvaultCore.InputSignatures

open Library.Runs SignedSet MergeFrame

/-- A PSBT of a P2WSH wallet: each input lists the keys of all members. -/
structure WshSession (federation : Federation) (psbt : Psbt) : Prop where
  wsh : federation.scriptType = .wsh
  listed : ∀ input ∈ psbt.inputs, ∀ signer ∈ federation.signers,
    ∃ key, input.bip32Label key = some signer.fingerprint
  noTaproot : ∀ input ∈ psbt.inputs, input.tapKeyOrigins = ∅

def AddsNoDerivation (session returned : Psbt) : Prop :=
  ∀ (index : Nat) (input other : PsbtInput), session.inputs[index]? = some input →
    returned.inputs[index]? = some other →
      (∀ (key : SecpPublicKey) source, other.bip32Derivation[key]? = some source →
        input.bip32Derivation[key]? = some source) ∧
      ∀ (key : XOnlyPublicKey) origin, other.tapKeyOrigins[key]? = some origin →
        input.tapKeyOrigins[key]? = some origin

def SignedOn (psbt : Psbt) (index : Nat) (fingerprint : Fingerprint) : Prop :=
  ∃ input : PsbtInput, psbt.inputs[index]? = some input ∧
    ∃ key ∈ input.partialSigs, input.bip32Label key.inner = some fingerprint

/-- At least `threshold` members, each with what `signs` asks of its fingerprint. -/
def ThresholdSigned (federation : Federation) (signs : Fingerprint → Prop) : Prop :=
  ∃ members : Finset SignerId, federation.threshold.toNat ≤ members.card ∧
    ∀ id ∈ members, ∃ signer ∈ federation.signers, signer.id = id ∧ signs signer.fingerprint

/-- The call, when it is accepted, brings a signature of its signer on the input,
under a key that the session lists for it. -/
def SignsInput (ops : PsbtOps) (index : Nat) (coordinator : SigningCoordinator)
    (call : SignerId × Psbt) : Prop :=
  (coordinator.receiveSignature ops call.1 call.2).2 = .ok () →
    ∃ signer, coordinator.federation.find call.1 = some signer ∧
      ∃ (input other : PsbtInput), coordinator.psbt.inputs[index]? = some input ∧
        call.2.inputs[index]? = some other ∧
          ∃ key ∈ other.partialSigs, input.bip32Label key.inner = some signer.fingerprint

def NoTapLabels (psbt : Psbt) : Prop :=
  ∀ (index : Nat) (input : PsbtInput), psbt.inputs[index]? = some input →
    ∀ key, input.tapLabel key = none

section Merging

variable {ops : PsbtOps} (keyWise : ops.MergesKeyWise) {session returned merged : Psbt}
  (combined : ops.combine session returned = .ok merged)
  (noNew : AddsNoDerivation session returned) {index : Nat} {fingerprint : Fingerprint}

include keyWise combined noNew

theorem merged_entries {input : PsbtInput} (given : session.inputs[index]? = some input) :
    ∃ after : PsbtInput, merged.inputs[index]? = some after ∧
      (∀ key : SecpPublicKey, after.bip32Derivation[key]? = input.bip32Derivation[key]?) ∧
      (∀ key : XOnlyPublicKey, after.tapKeyOrigins[key]? = input.tapKeyOrigins[key]?) ∧
      (∀ key ∈ input.partialSigs, key ∈ after.partialSigs) ∧
      ∀ other : PsbtInput, returned.inputs[index]? = some other →
        ∀ key ∈ other.partialSigs, key ∈ after.partialSigs := by
  have present := merged_input keyWise combined given
  cases returnedInput : returned.inputs[index]? with
  | none =>
      rw [returnedInput] at present
      exact ⟨input, present, fun _ => rfl, fun _ => rfl, fun _ member => member, by simp⟩
  | some other =>
      rw [returnedInput] at present
      have old := noNew index input other given returnedInput
      refine ⟨_, present, ?_, ?_, ?_, ?_⟩
      · intro key
        simp only [PsbtInput.merge, Std.ExtTreeMap.getElem?_union]
        cases entry : other.bip32Derivation[key]? with
        | none => rfl
        | some source => exact (old.1 key source entry).symm
      · intro key
        simp only [PsbtInput.merge, Std.ExtTreeMap.getElem?_union]
        cases entry : other.tapKeyOrigins[key]? with
        | none => rfl
        | some origin => exact (old.2 key origin entry).symm
      · exact fun key member => (input.mem_partial_sigs_merge other key).mpr (.inl member)
      · intro found same key member
        rw [← Option.some.inj same] at member
        exact (input.mem_partial_sigs_merge other key).mpr (.inr member)

theorem adds_no_derivation_merged {later : Psbt} (noLater : AddsNoDerivation session later) :
    AddsNoDerivation merged later := by
  intro index after other present returnedInput
  cases given : session.inputs[index]? with
  | none =>
      rw [keyWise.inputs combined, Psbt.merge_inputs_get, given] at present
      cases present
  | some input =>
      rcases merged_entries keyWise combined noNew given with ⟨found, same, derived, tap, -, -⟩
      obtain rfl : found = after := Option.some.inj (same.symm.trans present)
      have old := noLater index input other given returnedInput
      exact ⟨fun key source entry => (derived key).trans (old.1 key source entry),
        fun key origin entry => (tap key).trans (old.2 key origin entry)⟩

theorem signed_on_merged (signed : SignedOn session index fingerprint) :
    SignedOn merged index fingerprint := by
  rcases signed with ⟨input, given, key, member, label⟩
  rcases merged_entries keyWise combined noNew given with ⟨after, present, derived, -, kept, -⟩
  refine ⟨after, present, key, kept key member, ?_⟩
  rw [PsbtInput.bip32Label, derived]
  exact label

theorem signed_on_brought {input other : PsbtInput} (given : session.inputs[index]? = some input)
    (returnedInput : returned.inputs[index]? = some other) {key : PublicKey}
    (member : key ∈ other.partialSigs) (label : input.bip32Label key.inner = some fingerprint) :
    SignedOn merged index fingerprint := by
  rcases merged_entries keyWise combined noNew given with ⟨after, present, derived, -, -, brought⟩
  refine ⟨after, present, key, brought other returnedInput key member, ?_⟩
  rw [PsbtInput.bip32Label, derived]
  exact label

theorem no_tap_labels_merged (none : NoTapLabels session) : NoTapLabels merged := by
  intro index after present key
  cases given : session.inputs[index]? with
  | none =>
      rw [keyWise.inputs combined, Psbt.merge_inputs_get, given] at present
      cases present
  | some input =>
      rcases merged_entries keyWise combined noNew given with ⟨found, same, -, tap, -, -⟩
      obtain rfl : found = after := Option.some.inj (same.symm.trans present)
      rw [PsbtInput.tapLabel, tap]
      exact none index input given key

theorem signed_somewhere (none : NoTapLabels session)
    (found : foundNew session merged fingerprint = true) :
    ∃ index, SignedOn merged index fingerprint := by
  rcases found_new_iff.mp found with ⟨index, after, present, key, member, owned, -⟩
  have unlabelled := no_tap_labels_merged keyWise combined noNew none index after present
  rw [PsbtInput.fpMatches, unlabelled, Bool.or_eq_true] at owned
  have label := owned.resolve_right (by simp)
  exact ⟨index, after, present, key, member, of_decide_eq_true label⟩

end Merging

/-! ### Runs -/

/-- Every counted id is that of a member with what `signs` asks of it. -/
structure Counts (federation : Federation) (signs : Psbt → Fingerprint → Prop)
    (coordinator : SigningCoordinator) : Prop where
  sameFederation : coordinator.federation = federation
  noTapLabels : NoTapLabels coordinator.psbt
  signed : ∀ id ∈ coordinator.signed, ∃ signer ∈ federation.signers,
    signer.id = id ∧ signs coordinator.psbt signer.fingerprint

theorem counts_step {ops : PsbtOps} (keyWise : ops.MergesKeyWise) {federation : Federation}
    {signs : Psbt → Fingerprint → Prop}
    (kept : ∀ {session returned merged : Psbt}, ops.combine session returned = .ok merged →
      AddsNoDerivation session returned →
        ∀ fingerprint, signs session fingerprint → signs merged fingerprint)
    {coordinator : SigningCoordinator} {call : SignerId × Psbt}
    (noNew : AddsNoDerivation coordinator.psbt call.2)
    (brings : ∀ signer next, coordinator.federation.find call.1 = some signer →
      coordinator.receiveSignature ops call.1 call.2 = (next, .ok ()) →
        signs next.psbt signer.fingerprint)
    (counts : Counts federation signs coordinator) :
    Counts federation signs (receive ops coordinator call) := by
  rcases coordinator.receive_signature_cases ops call.1 call.2 with ⟨next, answer⟩ | ⟨cause, answer⟩
  · rw [receive, answer]
    rcases SigningCoordinator.receive_signature_ok.mp answer with
      ⟨signer, merged, found, -, combined, -, rfl⟩
    constructor
    · exact counts.sameFederation
    · exact no_tap_labels_merged keyWise combined noNew counts.noTapLabels
    · intro id counted
      rcases Finset.mem_insert.mp counted with rfl | before
      · rcases find_eq_some found with ⟨listed, sameId⟩
        rw [counts.sameFederation] at listed
        exact ⟨signer, listed, sameId, brings signer _ found answer⟩
      · rcases counts.signed id before with ⟨other, listed, sameId, signs⟩
        exact ⟨other, listed, sameId, kept combined noNew _ signs⟩
  · rw [receive, answer]
    exact counts

theorem counts_new {federation : Federation} {signs : Psbt → Fingerprint → Prop}
    {psbt : UnsignedPsbt} (session : WshSession federation psbt.asPsbt) :
    Counts federation signs (SigningCoordinator.new federation psbt) := by
  constructor
  · rfl
  · intro index input given key
    have none := session.noTaproot input (List.mem_of_getElem? given)
    rw [PsbtInput.tapLabel, none]
    rfl
  · exact fun id counted => absurd counted (Finset.notMem_empty id)

theorem threshold_of_complete {federation : Federation} {signs : Psbt → Fingerprint → Prop}
    {coordinator : SigningCoordinator} (counts : Counts federation signs coordinator)
    (complete : coordinator.isComplete = .ok true) :
    ThresholdSigned federation (signs coordinator.psbt) := by
  rw [SigningCoordinator.isComplete] at complete
  split at complete
  · have enough := of_decide_eq_true (Except.ok.inj complete)
    rw [counts.sameFederation] at enough
    exact ⟨coordinator.signed, enough, counts.signed⟩
  · cases complete

/-- A complete session has a signature of at least `threshold` members, and has
them on every input that all accepted PSBTs sign. -/
theorem complete_session_signed {ops : PsbtOps} (keyWise : ops.MergesKeyWise)
    {federation : Federation} {psbt : UnsignedPsbt} {calls : List (SignerId × Psbt)}
    (session : WshSession federation psbt.asPsbt)
    (noNew : Along (receive ops) (fun coordinator call => AddsNoDerivation coordinator.psbt call.2)
      (SigningCoordinator.new federation psbt) calls)
    (complete : (run (receive ops) (SigningCoordinator.new federation psbt) calls).isComplete =
      .ok true) :
    let reached := run (receive ops) (SigningCoordinator.new federation psbt) calls
    ThresholdSigned federation (fun fingerprint =>
      ∃ index, SignedOn reached.psbt index fingerprint) ∧
    ∀ index, Along (receive ops) (SignsInput ops index) (SigningCoordinator.new federation psbt)
        calls →
      ThresholdSigned federation (SignedOn reached.psbt index) := by
  intro reached
  constructor
  · have preserved : ∀ coordinator call, AddsNoDerivation coordinator.psbt call.2 →
        Counts federation (fun psbt fingerprint => ∃ index, SignedOn psbt index fingerprint)
          coordinator →
        Counts federation (fun psbt fingerprint => ∃ index, SignedOn psbt index fingerprint)
          (receive ops coordinator call) := by
      intro coordinator call noNew counts
      apply counts_step keyWise _ noNew _ counts
      · rintro session returned merged combined noNew fingerprint ⟨index, signed⟩
        exact ⟨index, signed_on_merged keyWise combined noNew signed⟩
      · intro signer next found answer
        rcases SigningCoordinator.receive_signature_ok.mp answer with
          ⟨other, merged, sameSigner, -, combined, isNew, rfl⟩
        obtain rfl : signer = other := Option.some.inj (found.symm.trans sameSigner)
        exact signed_somewhere keyWise combined noNew counts.noTapLabels isNew
    exact threshold_of_complete (run_invariant preserved (counts_new session) noNew) complete
  · intro index signs
    have preserved : ∀ coordinator call, (AddsNoDerivation coordinator.psbt call.2 ∧
        SignsInput ops index coordinator call) →
        Counts federation (fun psbt => SignedOn psbt index) coordinator →
        Counts federation (fun psbt => SignedOn psbt index) (receive ops coordinator call) := by
      rintro coordinator call ⟨noNew, brings⟩ counts
      apply counts_step keyWise _ noNew _ counts
      · intro session returned merged combined noNew fingerprint signed
        exact signed_on_merged keyWise combined noNew signed
      · intro signer next found answer
        rcases brings (congrArg Prod.snd answer) with
          ⟨other, sameSigner, input, returnedInput, given, present, key, member, label⟩
        obtain rfl : signer = other := Option.some.inj (found.symm.trans sameSigner)
        rcases SigningCoordinator.receive_signature_ok.mp answer with
          ⟨_, merged, -, -, combined, -, rfl⟩
        exact signed_on_brought keyWise combined noNew given present member label
    exact threshold_of_complete
      (run_invariant preserved (counts_new session) (along_both noNew signs)) complete

/-! ### A session over two inputs -/

def twoInputTx : Transaction :=
  { sessionTx with
    input := sessionTx.input ++
      [⟨0x3333333333333333333333333333333333333333333333333333333333333333, 0⟩] }

def twoInputOps : PsbtOps :=
  PsbtOps.keyWise fun transaction =>
    if transaction = twoInputTx then
      0x9429cee90cf16dcde58347549caf111bd7c38c1dda8f15bfadb29063090f78e7
    else 0

def twoInputs (onFirst onSecond : List Signer) : Psbt :=
  ⟨twoInputTx, [signedBy onFirst, signedBy onSecond]⟩

def twoInputSession : UnsignedPsbt := ⟨twoInputs [] [], by decide +kernel⟩

theorem two_input_session : WshSession (MockSigner.federation .wsh) twoInputSession.asPsbt := by
  have labels : wshInput.bip32Label MockSigner.first.xpub.publicKey =
      some MockSigner.first.fingerprint ∧
      wshInput.bip32Label MockSigner.second.xpub.publicKey =
        some MockSigner.second.fingerprint := by decide +kernel
  constructor
  · rfl
  · intro input member signer among
    have among : signer ∈ [MockSigner.first, MockSigner.second] := among
    obtain rfl : input = signedBy [] := by
      rcases List.mem_pair.mp member with rfl | rfl <;> rfl
    rcases List.mem_pair.mp among with rfl | rfl
    · exact ⟨_, labels.1⟩
    · exact ⟨_, labels.2⟩
  · intro input member
    rcases List.mem_pair.mp member with rfl | rfl <;> rfl

theorem two_inputs_add_no_derivation (onFirst onSecond : List Signer) :
    AddsNoDerivation twoInputSession.asPsbt (twoInputs onFirst onSecond) := by
  intro index input other given returned
  match index with
  | 0 =>
      obtain rfl := Option.some.inj given
      obtain rfl := Option.some.inj returned
      exact ⟨fun _ _ entry => entry, fun _ _ entry => entry⟩
  | 1 =>
      obtain rfl := Option.some.inj given
      obtain rfl := Option.some.inj returned
      exact ⟨fun _ _ entry => entry, fun _ _ entry => entry⟩
  | index + 2 => cases given

theorem adds_no_derivation_received {ops : PsbtOps} (keyWise : ops.MergesKeyWise)
    {coordinator : SigningCoordinator} {call : SignerId × Psbt} {later : Psbt}
    (noNew : AddsNoDerivation coordinator.psbt call.2)
    (noLater : AddsNoDerivation coordinator.psbt later) :
    AddsNoDerivation (receive ops coordinator call).psbt later := by
  rcases coordinator.receive_signature_cases ops call.1 call.2 with ⟨next, answer⟩ | ⟨cause, answer⟩
  · rw [receive, answer]
    rcases SigningCoordinator.receive_signature_ok.mp answer with ⟨_, merged, -, -, combined, -, rfl⟩
    exact adds_no_derivation_merged keyWise combined noNew noLater
  · rw [receive, answer]
    exact noLater

/-- The first member signs the first input, the second member the second. -/
def splitCalls : List (SignerId × Psbt) :=
  [(MockSigner.first.id, twoInputs [MockSigner.first] []),
    (MockSigner.second.id, twoInputs [] [MockSigner.second])]

theorem split_calls_add_no_derivation :
    Along (receive twoInputOps) (fun coordinator call => AddsNoDerivation coordinator.psbt call.2)
      (SigningCoordinator.new (MockSigner.federation .wsh) twoInputSession) splitCalls := by
  have first := two_inputs_add_no_derivation [MockSigner.first] []
  have second := two_inputs_add_no_derivation [] [MockSigner.second]
  exact ⟨first, adds_no_derivation_received (PsbtOps.key_wise_merges _) first second, trivial⟩

theorem complete_session_signed_split :
    let reached := run (receive twoInputOps)
      (SigningCoordinator.new (MockSigner.federation .wsh) twoInputSession) splitCalls
    ThresholdSigned (MockSigner.federation .wsh) (fun fingerprint =>
      ∃ index, SignedOn reached.psbt index fingerprint) ∧
    ∀ index, Along (receive twoInputOps) (SignsInput twoInputOps index)
        (SigningCoordinator.new (MockSigner.federation .wsh) twoInputSession) splitCalls →
      ThresholdSigned (MockSigner.federation .wsh) (SignedOn reached.psbt index) :=
  complete_session_signed (PsbtOps.key_wise_merges _) two_input_session
    split_calls_add_no_derivation (by decide +kernel)

def unsignedOn (psbt : Psbt) (index : Nat) (fingerprint : Fingerprint) : Bool :=
  (psbt.inputs[index]?).all fun input =>
    input.partialSigs.keys.all fun key => decide (input.bip32Label key.inner ≠ some fingerprint)

theorem not_signed_on {psbt : Psbt} {index : Nat} {fingerprint : Fingerprint}
    (none : unsignedOn psbt index fingerprint = true) : ¬ SignedOn psbt index fingerprint := by
  rintro ⟨input, given, key, member, label⟩
  rw [unsignedOn, given, Option.all_some, List.all_eq_true] at none
  exact of_decide_eq_true (none key (Std.ExtTreeMap.mem_keys.mpr member)) label

/-- The session is complete, and each input lacks the signature of a member. -/
theorem split_session_lacks_signatures :
    WshSession (MockSigner.federation .wsh) twoInputSession.asPsbt ∧
    Along (receive twoInputOps) (fun coordinator call => AddsNoDerivation coordinator.psbt call.2)
      (SigningCoordinator.new (MockSigner.federation .wsh) twoInputSession) splitCalls ∧
    let reached := run (receive twoInputOps)
      (SigningCoordinator.new (MockSigner.federation .wsh) twoInputSession) splitCalls
    reached.isComplete = .ok true ∧
      ¬ ThresholdSigned (MockSigner.federation .wsh) (SignedOn reached.psbt 0) := by
  refine ⟨two_input_session, split_calls_add_no_derivation, by decide +kernel, ?_⟩
  rintro ⟨members, enough, signed⟩
  have unsigned : ¬ SignedOn (run (receive twoInputOps)
      (SigningCoordinator.new (MockSigner.federation .wsh) twoInputSession) splitCalls).psbt 0
        MockSigner.second.fingerprint := not_signed_on (by decide +kernel)
  have only : members ⊆ {MockSigner.first.id} := by
    intro id member
    rcases signed id member with ⟨signer, listed, rfl, signs⟩
    have among : signer ∈ [MockSigner.first, MockSigner.second] := listed
    rcases List.mem_pair.mp among with rfl | rfl
    · exact Finset.mem_singleton_self _
    · exact absurd signs unsigned
  have few := Finset.card_le_card only
  rw [Finset.card_singleton] at few
  exact absurd (enough.trans few) (by decide)

end EmvaultCore.InputSignatures
