import EmvaultCore.SignedSet

/-!
# A session that starts unsigned

`UnsignedPsbt::new` is the entry check of a signing session: the coordinator made
from its answer counts nobody. It looks at the partial signatures of each input
only, so it lets through the other slots of a signature, which are those that
taproot and finalized inputs use. What the check rules out, and what is counted
then, is stated here.
-/

namespace EmvaultCore.UnsignedSession

open SignedSet

structure Unsigned (input : PsbtInput) : Prop where
  partialSigs : ∀ key, key ∉ input.partialSigs
  tapKeySig : input.tapKeySig = none
  tapScriptSigs : ∀ key, key ∉ input.tapScriptSigs
  finalScriptSig : input.finalScriptSig = none
  finalScriptWitness : input.finalScriptWitness = none

/-- A slot that `UnsignedPsbt::new` does not look at holds a signature. -/
inductive SignedElsewhere (input : PsbtInput) : Prop where
  | keyPath (held : input.tapKeySig ≠ none)
  | scriptPath (key : XOnlyPublicKey ×ₗ TapLeafHash) (held : key ∈ input.tapScriptSigs)
  | scriptSig (held : input.finalScriptSig ≠ none)
  | witness (held : input.finalScriptWitness ≠ none)

def PartiallySigned (psbt : Psbt) : Prop :=
  ∃ input ∈ psbt.inputs, ∃ key, key ∈ input.partialSigs

open Classical in
noncomputable def signedMembers (federation : Federation) (psbt : Psbt) : Finset SignerId :=
  ((federation.signers.filter fun signer => OwnSignature psbt signer.fingerprint).map
    Signer.id).toFinset

/-- What the newtype promises of a PSBT, and the session of a federation over it. -/
structure StartsUnsigned (federation : Federation) (psbt : Psbt) : Prop where
  unsigned : ∀ wrapped, UnsignedPsbt.new psbt = .ok wrapped →
    ∀ input ∈ wrapped.asPsbt.inputs, Unsigned input
  counted : ∀ wrapped, UnsignedPsbt.new psbt = .ok wrapped →
    (SigningCoordinator.new federation wrapped).signaturesCollected = 0 ∧
      (SigningCoordinator.new federation wrapped).signaturesCollected =
        (signedMembers federation (SigningCoordinator.new federation wrapped).psbt).card

variable {federation : Federation} {psbt : Psbt} {input : PsbtInput} {wrapped : UnsignedPsbt}

/-! ### What the check looks at -/

theorem no_partial_sigs : input.partialSigs.size = 0 ↔ ∀ key, key ∉ input.partialSigs := by
  rw [← Std.ExtTreeMap.eq_empty_iff_size_eq_zero, Std.ExtTreeMap.eq_empty_iff_forall_not_mem]

theorem total_sigs_eq_zero :
    (psbt.inputs.map fun input => input.partialSigs.size).sum = 0 ↔ ¬ PartiallySigned psbt := by
  rw [List.sum_eq_zero_iff_forall_eq_nat, List.forall_mem_map, PartiallySigned]
  constructor
  · intro none signed
    obtain ⟨input, member, key, held⟩ := signed
    exact no_partial_sigs.mp (none input member) key held
  · intro unsigned input member
    apply no_partial_sigs.mpr
    intro key held
    exact unsigned ⟨input, member, key, held⟩

theorem new_eq_ok :
    UnsignedPsbt.new psbt = .ok wrapped ↔ wrapped.asPsbt = psbt ∧ ¬ PartiallySigned psbt := by
  simp only [UnsignedPsbt.new]
  split
  · rename_i none
    have unsigned := total_sigs_eq_zero.mp none
    cases wrapped
    simp [unsigned, eq_comm]
  · rename_i some
    have signed : ¬ ¬ PartiallySigned psbt := fun unsigned => some (total_sigs_eq_zero.mpr unsigned)
    simp [signed]

theorem unsigned_iff (bare : ∀ key, key ∉ input.partialSigs) :
    Unsigned input ↔ ¬ SignedElsewhere input := by
  constructor
  · intro unsigned signed
    cases signed with
    | keyPath held => exact held unsigned.tapKeySig
    | scriptPath key held => exact unsigned.tapScriptSigs key held
    | scriptSig held => exact held unsigned.finalScriptSig
    | witness held => exact held unsigned.finalScriptWitness
  · intro clean
    constructor
    · exact bare
    · exact not_not.mp fun held => clean (.keyPath held)
    · exact fun key held => clean (.scriptPath key held)
    · exact not_not.mp fun held => clean (.scriptSig held)
    · exact not_not.mp fun held => clean (.witness held)

/-! ### Who is counted at the start -/

theorem mem_signed_members {id : SignerId} :
    id ∈ signedMembers federation psbt ↔
      ∃ signer ∈ federation.signers, signer.id = id ∧ OwnSignature psbt signer.fingerprint := by
  simp only [signedMembers, List.mem_toFinset, List.mem_map, List.mem_filter, decide_eq_true_eq]
  constructor
  · intro listed
    obtain ⟨signer, ⟨member, own⟩, same⟩ := listed
    exact ⟨signer, member, same, own⟩
  · intro signed
    obtain ⟨signer, member, same, own⟩ := signed
    exact ⟨signer, ⟨member, own⟩, same⟩

/-- A session over an accepted PSBT counts those who have signed exactly when no
script-path signature is under a key that the origins give to a member. -/
theorem counted_iff (accepted : UnsignedPsbt.new psbt = .ok wrapped) :
    (SigningCoordinator.new federation wrapped).signaturesCollected =
        (signedMembers federation (SigningCoordinator.new federation wrapped).psbt).card ↔
      ∀ input ∈ psbt.inputs, ∀ key ∈ input.tapScriptSigs, ∀ signer ∈ federation.signers,
        input.tapLabel (ofLex key).1 ≠ some signer.fingerprint := by
  obtain ⟨rfl, bare⟩ := new_eq_ok.mp accepted
  change 0 = (signedMembers federation wrapped.asPsbt).card ↔ _
  rw [eq_comm, Finset.card_eq_zero, Finset.eq_empty_iff_forall_notMem]
  constructor
  · intro nobody input member key held signer listed label
    obtain ⟨index, given⟩ := List.mem_iff_getElem?.mp member
    exact nobody signer.id (mem_signed_members.mpr
      ⟨signer, listed, rfl, index, input, given, .taproot key held label⟩)
  · intro strangers id signed
    obtain ⟨signer, listed, _, index, input, given, own⟩ := mem_signed_members.mp signed
    have member := List.mem_of_getElem? given
    cases own with
    | ecdsa key held label => exact bare ⟨input, member, key, held⟩
    | taproot key held label => exact strangers input member key held signer listed label

theorem found_new_at_start {merged : Psbt} {fingerprint : Fingerprint}
    (accepted : UnsignedPsbt.new psbt = .ok wrapped) :
    foundNew (SigningCoordinator.new federation wrapped).psbt merged fingerprint = true ↔
      ∃ input ∈ merged.inputs, ∃ key ∈ input.partialSigs,
        input.fpMatches fingerprint key = true := by
  obtain ⟨rfl, bare⟩ := new_eq_ok.mp accepted
  rw [found_new_iff]
  constructor
  · intro found
    obtain ⟨index, input, given, key, held, owned, _⟩ := found
    exact ⟨input, List.mem_of_getElem? given, key, held, owned⟩
  · intro signed
    obtain ⟨input, member, key, held, owned⟩ := signed
    obtain ⟨index, given⟩ := List.mem_iff_getElem?.mp member
    refine ⟨index, input, given, key, held, owned, ?_⟩
    intro previous started present
    exact bare ⟨previous, List.mem_of_getElem? started, key, present⟩

/-- A session starts unsigned exactly when a partial signature has the PSBT refused
or no input holds a signature in another slot. -/
theorem starts_unsigned_iff :
    StartsUnsigned federation psbt ↔
      PartiallySigned psbt ∨ ∀ input ∈ psbt.inputs, ¬ SignedElsewhere input := by
  constructor
  · intro starts
    by_cases signed : PartiallySigned psbt
    · exact .inl signed
    · right
      have none := total_sigs_eq_zero.mpr signed
      have accepted : UnsignedPsbt.new psbt = .ok ⟨psbt, none⟩ := new_eq_ok.mpr ⟨rfl, signed⟩
      intro input member
      have unsigned := starts.unsigned _ accepted input member
      exact (unsigned_iff unsigned.partialSigs).mp unsigned
  · intro condition
    have clean : ∀ wrapped, UnsignedPsbt.new psbt = .ok wrapped →
        ∀ input ∈ psbt.inputs, Unsigned input := by
      intro wrapped accepted input member
      have bare := (new_eq_ok.mp accepted).2
      exact (unsigned_iff fun key held => bare ⟨input, member, key, held⟩).mpr
        (condition.resolve_left bare input member)
    constructor
    · intro wrapped accepted
      rw [(new_eq_ok.mp accepted).1]
      exact clean wrapped accepted
    · intro wrapped accepted
      refine ⟨rfl, (counted_iff accepted).mpr ?_⟩
      intro input member key held
      exact absurd held ((clean wrapped accepted input member).tapScriptSigs key)

/-- A taproot PSBT that the first member has signed passes for unsigned. -/
theorem signed_taproot_starts :
    ¬ ∀ (federation : Federation) (psbt : Psbt), StartsUnsigned federation psbt := by
  intro always
  let signed := withFirstSignature tapInput
  have accepted : UnsignedPsbt.new (sessionOf signed) = .ok ⟨sessionOf signed, by decide⟩ := rfl
  have starts := always (MockSigner.federation .tr) (sessionOf signed)
  have clean := starts.unsigned _ accepted signed (List.mem_singleton.mpr rfl)
  exact clean.tapScriptSigs _ Std.ExtTreeMap.mem_insert_self

end EmvaultCore.UnsignedSession
