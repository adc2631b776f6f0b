import EmvaultCore.SignedSet

/-!
# Whose signature a returned PSBT brings

`receive_signature` looks for a new signature of the sender after it has merged
the returned PSBT into the session, so it reads whose key is whose from maps that
the sender may have written. It looks among the ECDSA signatures only, although a
taproot session is signed in the script-path slots. Both tests are compared here
with what the session's own maps say.
-/

namespace EmvaultCore.Attribution

open SignedSet

section Added

variable {Key : Type}

/-- A PSBT has a signature, on some input, that the session lacks there, under a
key that the two inputs give to the signer. -/
def Adds (signed : PsbtInput → Key → Prop) (owned : PsbtInput → PsbtInput → Key → Prop)
    (session other : Psbt) : Prop :=
  ∃ (index : Nat) (input otherInput : PsbtInput) (key : Key),
    session.inputs[index]? = some input ∧ other.inputs[index]? = some otherInput ∧
      signed otherInput key ∧ ¬ signed input key ∧ owned input otherInput key

theorem Adds.imp {signed : PsbtInput → Key → Prop}
    {owned owned' : PsbtInput → PsbtInput → Key → Prop} {session other : Psbt}
    (weaker : ∀ input otherInput key, owned input otherInput key → owned' input otherInput key)
    (adds : Adds signed owned session other) : Adds signed owned' session other := by
  obtain ⟨index, input, otherInput, key, given, present, added, absent, owns⟩ := adds
  exact ⟨index, input, otherInput, key, given, present, added, absent, weaker _ _ _ owns⟩

theorem adds_merged {ops : PsbtOps} (keyWise : ops.MergesKeyWise) {session returned merged : Psbt}
    (combined : ops.combine session returned = .ok merged) {signed : PsbtInput → Key → Prop}
    (union : ∀ base other key, signed (base.merge other) key ↔ signed base key ∨ signed other key)
    (owned : PsbtInput → Key → Prop) :
    Adds signed (fun input _ => owned input) session merged ↔
      Adds signed (fun input _ => owned input) session returned := by
  constructor
  · intro adds
    obtain ⟨index, input, mergedInput, key, given, present, added, absent, owns⟩ := adds
    rw [merged_input keyWise combined given] at present
    cases returnedInput : returned.inputs[index]? with
    | none =>
        rw [returnedInput] at present
        cases present
        exact absurd added absent
    | some other =>
        rw [returnedInput] at present
        cases present
        have brought := ((union input other key).mp added).resolve_left absent
        exact ⟨index, input, other, key, given, returnedInput, brought, absent, owns⟩
  · intro adds
    obtain ⟨index, input, other, key, given, returnedInput, brought, absent, owns⟩ := adds
    have present := merged_input keyWise combined given
    rw [returnedInput] at present
    exact ⟨index, input, _, key, given, present, (union input other key).mpr (.inr brought),
      absent, owns⟩

end Added

def EcdsaSigned (input : PsbtInput) (key : PublicKey) : Prop := key ∈ input.partialSigs

def ScriptSigned (input : PsbtInput) (key : XOnlyPublicKey ×ₗ TapLeafHash) : Prop :=
  key ∈ input.tapScriptSigs

/-- An ECDSA signature under a key that the session lists with the fingerprint. -/
def AddsListedSig (session other : Psbt) (fingerprint : Fingerprint) : Prop :=
  Adds EcdsaSigned (fun input _ key => input.fpMatches fingerprint key = true) session other

/-- An ECDSA signature under a key that the other PSBT lists with the fingerprint. -/
def AddsVouchedSig (session other : Psbt) (fingerprint : Fingerprint) : Prop :=
  Adds EcdsaSigned (fun _ otherInput key => otherInput.fpMatches fingerprint key = true)
    session other

/-- An ECDSA signature under a key that the merged maps list with the fingerprint. -/
def AddsAttributedSig (session other : Psbt) (fingerprint : Fingerprint) : Prop :=
  Adds EcdsaSigned (fun input otherInput key =>
    (input.merge otherInput).fpMatches fingerprint key = true) session other

def AddsScriptSig (session other : Psbt) (fingerprint : Fingerprint) : Prop :=
  Adds ScriptSigned (fun input _ key => input.tapLabel (ofLex key).1 = some fingerprint)
    session other

theorem vouched_matches_merge (input other : PsbtInput) (key : PublicKey)
    (fingerprint : Fingerprint) (vouched : other.fpMatches fingerprint key = true) :
    (input.merge other).fpMatches fingerprint key = true := by
  apply (fp_matches_merge input other key).mpr
  simp only [PsbtInput.fpMatches, Bool.or_eq_true, decide_eq_true_eq] at vouched
  cases vouched with
  | inl derived => exact .inl (by simp [mergedLabel, byDerivation, derived])
  | inr tap => exact .inr (by simp [mergedLabel, byTapOrigin, tap])

theorem merged_matches (input other : PsbtInput) (key : PublicKey) (fingerprint : Fingerprint)
    (owned : (input.merge other).fpMatches fingerprint key = true) :
    other.fpMatches fingerprint key = true ∨ input.fpMatches fingerprint key = true := by
  simp only [PsbtInput.fpMatches, Bool.or_eq_true, decide_eq_true_eq]
  cases (fp_matches_merge input other key).mp owned with
  | inl derived =>
      cases Option.or_eq_some_iff.mp derived with
      | inl vouched => exact .inl (.inl vouched)
      | inr listed => exact .inr (.inl listed.2)
  | inr tap =>
      cases Option.or_eq_some_iff.mp tap with
      | inl vouched => exact .inl (.inr vouched)
      | inr listed => exact .inr (.inr listed.2)

section Received

variable {ops : PsbtOps} (keyWise : ops.MergesKeyWise) {session returned merged : Psbt}
  (combined : ops.combine session returned = .ok merged) {fingerprint : Fingerprint}

include keyWise combined

theorem found_new_attributed :
    foundNew session merged fingerprint = true ↔ AddsAttributedSig session returned fingerprint := by
  rw [found_new_adds keyWise combined]
  constructor
  · intro adds
    cases adds with
    | inl derived =>
        exact Adds.imp (fun input other key label =>
          (fp_matches_merge input other key).mpr (.inl label)) derived
    | inr tap =>
        exact Adds.imp (fun input other key label =>
          (fp_matches_merge input other key).mpr (.inr label)) tap
  · intro adds
    obtain ⟨index, input, other, key, given, present, added, absent, owned⟩ := adds
    cases (fp_matches_merge input other key).mp owned with
    | inl derived => exact .inl ⟨index, input, other, key, given, present, added, absent, derived⟩
    | inr tap => exact .inr ⟨index, input, other, key, given, present, added, absent, tap⟩

theorem listed_merged :
    AddsListedSig session merged fingerprint ↔ AddsListedSig session returned fingerprint :=
  adds_merged keyWise combined (fun base other key => base.mem_partial_sigs_merge other key) _

theorem script_merged :
    AddsScriptSig session merged fingerprint ↔ AddsScriptSig session returned fingerprint :=
  adds_merged keyWise combined (fun base other key => base.mem_tap_script_sigs_merge other key) _

omit keyWise combined in
theorem attributed_of_vouched (vouched : AddsVouchedSig session returned fingerprint) :
    AddsAttributedSig session returned fingerprint :=
  Adds.imp (fun input other key => vouched_matches_merge input other key fingerprint) vouched

omit keyWise combined in
theorem vouched_or_listed (attributed : AddsAttributedSig session returned fingerprint) :
    AddsVouchedSig session returned fingerprint ∨ AddsListedSig session returned fingerprint := by
  obtain ⟨index, input, other, key, given, present, added, absent, owned⟩ := attributed
  cases merged_matches input other key fingerprint owned with
  | inl vouched => exact .inl ⟨index, input, other, key, given, present, added, absent, vouched⟩
  | inr listed => exact .inr ⟨index, input, other, key, given, present, added, absent, listed⟩

end Received

/-! ### Labels of the sender -/

def GivenThroughout (before after : PsbtInput) (fingerprint : Fingerprint) (key : PublicKey) :
    Prop :=
  (byDerivation before key = some fingerprint ∧ byDerivation after key = some fingerprint) ∨
    (byTapOrigin before key = some fingerprint ∧ byTapOrigin after key = some fingerprint)

/-- A signature counts when it is new and the merged maps give its key to the
fingerprint. None counts through an entry that the session did not have. -/
def CountsUntouched (session merged : Psbt) (fingerprint : Fingerprint) : Prop :=
  ∀ (index : Nat) (input mergedInput : PsbtInput) (key : PublicKey),
    session.inputs[index]? = some input → merged.inputs[index]? = some mergedInput →
    EcdsaSigned mergedInput key → ¬ EcdsaSigned input key →
    mergedInput.fpMatches fingerprint key = true →
    GivenThroughout input mergedInput fingerprint key

/-- Some signature is under a key that the session, before the call, listed with the
sender's fingerprint, and none counts through an entry of the returned PSBT. -/
structure ListedOnly (session merged : Psbt) (fingerprint : Fingerprint) : Prop where
  listed : AddsListedSig session merged fingerprint
  untouched : CountsUntouched session merged fingerprint

def CountsListedOnly (ops : PsbtOps) (coordinator : SigningCoordinator) (id : SignerId)
    (returned : Psbt) : Prop :=
  ∀ next, coordinator.receiveSignature ops id returned = (next, .ok ()) →
    ∃ signer, coordinator.federation.find id = some signer ∧
      ListedOnly coordinator.psbt next.psbt signer.fingerprint

def LeftAlone (input other : PsbtInput) (fingerprint : Fingerprint) (key : PublicKey) : Prop :=
  (byDerivation input key = some fingerprint ∧
      ∀ label, byDerivation other key = some label → label = fingerprint) ∨
    (byTapOrigin input key = some fingerprint ∧
      ∀ label, byTapOrigin other key = some label → label = fingerprint)

/-- Whatever key the sender signs with and lists with the fingerprint is one that
the session lists so, in a map where the sender leaves it alone. -/
def VouchesForListed (session returned : Psbt) (fingerprint : Fingerprint) : Prop :=
  ∀ (index : Nat) (input other : PsbtInput) (key : PublicKey),
    session.inputs[index]? = some input → returned.inputs[index]? = some other →
    EcdsaSigned other key → ¬ EcdsaSigned input key → other.fpMatches fingerprint key = true →
    LeftAlone input other fingerprint key

/-- The condition matters if the call gets as far as looking for signatures. -/
def VouchesTruly (ops : PsbtOps) (coordinator : SigningCoordinator) (id : SignerId)
    (returned : Psbt) : Prop :=
  ∀ signer merged, coordinator.federation.find id = some signer →
    ops.computeTxid returned.unsignedTx = ops.computeTxid coordinator.psbt.unsignedTx →
    ops.combine coordinator.psbt returned = .ok merged →
    VouchesForListed coordinator.psbt returned signer.fingerprint

theorem merged_label_kept (label : PsbtInput → PublicKey → Option Fingerprint)
    (input other : PsbtInput) (key : PublicKey) (fingerprint : Fingerprint) :
    label input key = some fingerprint ∧ mergedLabel label input other key = some fingerprint ↔
      label input key = some fingerprint ∧
        ∀ relabel, label other key = some relabel → relabel = fingerprint := by
  apply and_congr_right
  intro listed
  rw [mergedLabel, listed]
  cases label other key with
  | none => simp
  | some relabel => simp

theorem given_throughout_merge (input other : PsbtInput) (key : PublicKey)
    (fingerprint : Fingerprint) :
    GivenThroughout input (input.merge other) fingerprint key ↔
      LeftAlone input other fingerprint key := by
  have derivation : byDerivation (input.merge other) key =
      mergedLabel byDerivation input other key := input.bip32_label_merge other key.inner
  have tap : byTapOrigin (input.merge other) key = mergedLabel byTapOrigin input other key :=
    input.tap_label_merge other key.inner.xOnly
  rw [GivenThroughout, derivation, tap, merged_label_kept, merged_label_kept]
  rfl

theorem left_alone_of_not_vouched {input other : PsbtInput} {key : PublicKey}
    {fingerprint : Fingerprint} (owned : (input.merge other).fpMatches fingerprint key = true)
    (unvouched : ¬ other.fpMatches fingerprint key = true) :
    LeftAlone input other fingerprint key := by
  simp only [PsbtInput.fpMatches, Bool.or_eq_true, decide_eq_true_eq, not_or] at unvouched
  cases (fp_matches_merge input other key).mp owned with
  | inl derived =>
      cases Option.or_eq_some_iff.mp derived with
      | inl vouched => exact absurd vouched unvouched.1
      | inr listed =>
          refine .inl ⟨listed.2, ?_⟩
          intro label found
          rw [listed.1] at found
          cases found
  | inr tap =>
      cases Option.or_eq_some_iff.mp tap with
      | inl vouched => exact absurd vouched unvouched.2
      | inr listed =>
          refine .inr ⟨listed.2, ?_⟩
          intro label found
          rw [listed.1] at found
          cases found

theorem fp_matches_of_given {before after : PsbtInput} {key : PublicKey}
    {fingerprint : Fingerprint} (given : GivenThroughout before after fingerprint key) :
    before.fpMatches fingerprint key = true := by
  rw [PsbtInput.fpMatches, Bool.or_eq_true, decide_eq_true_eq, decide_eq_true_eq]
  cases given with
  | inl derived => exact .inl derived.1
  | inr tap => exact .inr tap.1

section Vouched

variable {ops : PsbtOps} (keyWise : ops.MergesKeyWise) {session returned merged : Psbt}
  (combined : ops.combine session returned = .ok merged) {fingerprint : Fingerprint}

include keyWise combined

theorem counts_untouched_iff :
    CountsUntouched session merged fingerprint ↔
      VouchesForListed session returned fingerprint := by
  constructor
  · intro untouched index input other key given present added absent vouched
    have mergedInput := merged_input keyWise combined given
    rw [present] at mergedInput
    apply (given_throughout_merge input other key fingerprint).mp
    exact untouched index input _ key given mergedInput
      ((input.mem_partial_sigs_merge other key).mpr (.inr added)) absent
      (vouched_matches_merge input other key fingerprint vouched)
  · intro truly index input mergedInput key given present added absent owned
    rw [merged_input keyWise combined given] at present
    cases returnedInput : returned.inputs[index]? with
    | none =>
        rw [returnedInput] at present
        cases present
        exact absurd added absent
    | some other =>
        rw [returnedInput] at present
        cases present
        have brought := ((input.mem_partial_sigs_merge other key).mp added).resolve_left absent
        apply (given_throughout_merge input other key fingerprint).mpr
        by_cases vouched : other.fpMatches fingerprint key = true
        · exact truly index input other key given returnedInput brought absent vouched
        · exact left_alone_of_not_vouched owned vouched

/-- The signature that is found is one of those that count. -/
theorem listed_of_untouched (untouched : CountsUntouched session merged fingerprint)
    (found : foundNew session merged fingerprint = true) :
    AddsListedSig session merged fingerprint := by
  obtain ⟨index, input, other, key, given, present, added, absent, owned⟩ :=
    (found_new_attributed keyWise combined).mp found
  have mergedInput := merged_input keyWise combined given
  rw [present] at mergedInput
  have brought := (input.mem_partial_sigs_merge other key).mpr (.inr added)
  have kept := untouched index input _ key given mergedInput brought absent owned
  exact ⟨index, input, _, key, given, mergedInput, brought, absent, fp_matches_of_given kept⟩

end Vouched

theorem counts_listed_only_iff {ops : PsbtOps} (keyWise : ops.MergesKeyWise)
    (coordinator : SigningCoordinator) (id : SignerId) (returned : Psbt) :
    CountsListedOnly ops coordinator id returned ↔ VouchesTruly ops coordinator id returned := by
  constructor
  · intro counts signer merged member txid combined index input other key given present added
      absent vouched
    have found := (found_new_attributed keyWise combined).mpr
      (attributed_of_vouched ⟨index, input, other, key, given, present, added, absent, vouched⟩)
    obtain ⟨same, sameMember, only⟩ := counts _ (SigningCoordinator.receive_signature_ok.mpr
      ⟨signer, merged, member, txid, combined, found, rfl⟩)
    rw [member] at sameMember
    cases sameMember
    exact (counts_untouched_iff keyWise combined).mp only.untouched index input other key given
      present added absent vouched
  · intro truly next accepted
    obtain ⟨signer, merged, member, txid, combined, found, rfl⟩ :=
      SigningCoordinator.receive_signature_ok.mp accepted
    have untouched := (counts_untouched_iff keyWise combined).mpr
      (truly signer merged member txid combined)
    exact ⟨signer, member, listed_of_untouched keyWise combined untouched found, untouched⟩

theorem counts_listed_only_own :
    CountsListedOnly mockOps (SigningCoordinator.new (MockSigner.federation .wsh) wshSession)
        MockSigner.second.id (sessionOf (signedBy [MockSigner.second])) ↔
      VouchesTruly mockOps (SigningCoordinator.new (MockSigner.federation .wsh) wshSession)
        MockSigner.second.id (sessionOf (signedBy [MockSigner.second])) :=
  counts_listed_only_iff (PsbtOps.key_wise_merges _) _ _ _

/-- A signature under a key of a stranger, listed with the second member's
fingerprint. -/
def vouchedInput : PsbtInput :=
  { wshInput with
    bip32Derivation := wshInput.bip32Derivation.insert MockSigner.third.xpub.publicKey
      (keySource MockSigner.second)
    partialSigs := (∅ : BTreeMap PublicKey Signature).insert
      (PublicKey.new MockSigner.third.xpub.publicKey) [0x30, 0x01] }

theorem stranger_not_listed :
    ¬ AddsListedSig (sessionOf wshInput) (sessionOf vouchedInput) MockSigner.second.fingerprint := by
  intro adds
  obtain ⟨index, input, other, key, given, present, added, -, owned⟩ := adds
  cases index with
  | succ index => cases given
  | zero =>
      cases given
      cases present
      cases Std.ExtTreeMap.mem_insert.mp added with
      | inl same =>
          rw [← compare_eq_iff_eq.mp same] at owned
          exact absurd owned (by decide +kernel)
      | inr none => exact absurd none Std.ExtTreeMap.not_mem_empty

/-- The stranger's signature is accepted as the second member's. -/
theorem stranger_signature_counts :
    let session := SigningCoordinator.new (MockSigner.federation .wsh) wshSession
    (session.receiveSignature mockOps MockSigner.second.id (sessionOf vouchedInput)).2.toBool =
        true ∧
      ¬ CountsListedOnly mockOps session MockSigner.second.id (sessionOf vouchedInput) := by
  intro session
  have accepted : (session.receiveSignature mockOps MockSigner.second.id
      (sessionOf vouchedInput)).2.toBool = true := by
    decide +kernel
  refine ⟨accepted, ?_⟩
  intro counts
  cases session.receive_signature_cases mockOps MockSigner.second.id (sessionOf vouchedInput) with
  | inr refused =>
      obtain ⟨cause, answer⟩ := refused
      rw [answer] at accepted
      cases accepted
  | inl succeeded =>
      obtain ⟨next, answer⟩ := succeeded
      obtain ⟨signer, member, only⟩ := counts next answer
      obtain ⟨-, merged, -, -, combined, -, rfl⟩ :=
        SigningCoordinator.receive_signature_ok.mp answer
      have isSecond : session.federation.find MockSigner.second.id = some MockSigner.second := by
        decide +kernel
      rw [isSecond] at member
      cases member
      exact stranger_not_listed
        ((listed_merged (PsbtOps.key_wise_merges _) combined).mp only.listed)

/-! ### Script-path signatures -/

def nothingNew (id : SignerId) : PsbtError :=
  .invalidSignature id
    "no new partial signature attributable to this signer was present in the returned PSBT"

/-- A script-path signature under a listed key makes the sender count, and no
signature under a listed key is an invalid one. A key-path signature is nobody's:
it is under the internal key. -/
structure RecognisesTaproot (ops : PsbtOps) (coordinator : SigningCoordinator) (id : SignerId)
    (returned merged : Psbt) (fingerprint : Fingerprint) : Prop where
  recognised : AddsScriptSig coordinator.psbt merged fingerprint →
    ∃ next, coordinator.receiveSignature ops id returned = (next, .ok ()) ∧ id ∈ next.signed
  refused : ¬ AddsScriptSig coordinator.psbt merged fingerprint →
    ¬ AddsListedSig coordinator.psbt merged fingerprint →
    coordinator.receiveSignature ops id returned = (coordinator, .error (nothingNew id))

/-- With a script-path signature comes an ECDSA one that the merged maps give to
the sender; without, the ECDSA signatures vouched for are under listed keys. -/
structure EcdsaDecides (session returned : Psbt) (fingerprint : Fingerprint) : Prop where
  accompanied : AddsScriptSig session returned fingerprint →
    AddsAttributedSig session returned fingerprint
  vouched : ¬ AddsScriptSig session returned fingerprint →
    AddsVouchedSig session returned fingerprint → AddsListedSig session returned fingerprint

theorem receive_signature_member {ops : PsbtOps} {coordinator : SigningCoordinator} {id : SignerId}
    {signer : Signer} {returned merged : Psbt}
    (member : coordinator.federation.find id = some signer)
    (sameTx : returned.unsignedTx = coordinator.psbt.unsignedTx)
    (combined : ops.combine coordinator.psbt returned = .ok merged) :
    coordinator.receiveSignature ops id returned =
      if foundNew coordinator.psbt merged signer.fingerprint then
        ({ coordinator with psbt := merged, signed := insert id coordinator.signed }, .ok ())
      else (coordinator, .error (nothingNew id)) := by
  simp only [SigningCoordinator.receiveSignature, member, sameTx, combined, ne_eq,
    not_true_eq_false, if_false, nothingNew]

theorem recognises_taproot_iff {ops : PsbtOps} (keyWise : ops.MergesKeyWise)
    {coordinator : SigningCoordinator} {id : SignerId} {signer : Signer} {returned merged : Psbt}
    (member : coordinator.federation.find id = some signer)
    (sameTx : returned.unsignedTx = coordinator.psbt.unsignedTx)
    (combined : ops.combine coordinator.psbt returned = .ok merged) :
    RecognisesTaproot ops coordinator id returned merged signer.fingerprint ↔
      EcdsaDecides coordinator.psbt returned signer.fingerprint := by
  have answer := receive_signature_member member sameTx combined
  have attributed := @found_new_attributed ops keyWise coordinator.psbt returned merged combined
    signer.fingerprint
  have script := @script_merged ops keyWise coordinator.psbt returned merged combined
    signer.fingerprint
  have listed := @listed_merged ops keyWise coordinator.psbt returned merged combined
    signer.fingerprint
  constructor
  · intro recognises
    constructor
    · intro brings
      obtain ⟨next, accepted, -⟩ := recognises.recognised (script.mpr brings)
      apply attributed.mp
      by_contra missing
      rw [answer, if_neg missing] at accepted
      cases accepted
    · intro none vouched
      by_contra unlisted
      have refused := recognises.refused (fun brings => none (script.mp brings))
        (fun adds => unlisted (listed.mp adds))
      have found := attributed.mpr (attributed_of_vouched vouched)
      rw [answer, if_pos found] at refused
      cases congrArg Prod.snd refused
  · intro decides
    constructor
    · intro brings
      have found := attributed.mpr (decides.accompanied (script.mp brings))
      rw [answer, if_pos found]
      exact ⟨_, rfl, Finset.mem_insert_self _ _⟩
    · intro none unlisted
      have missing : ¬ foundNew coordinator.psbt merged signer.fingerprint = true := by
        intro found
        apply unlisted
        apply listed.mpr
        cases vouched_or_listed (attributed.mp found) with
        | inl vouched => exact decides.vouched (fun brings => none (script.mpr brings)) vouched
        | inr own => exact own
      rw [answer, if_neg missing]

def tapCoordinator : SigningCoordinator :=
  SigningCoordinator.new (MockSigner.federation .tr) tapSession

def scriptSigned : Psbt := sessionOf (withFirstSignature tapInput)

def scriptMerged : Psbt := sessionOf (tapInput.merge (withFirstSignature tapInput))

theorem script_signed_combines :
    mockOps.combine tapCoordinator.psbt scriptSigned = .ok scriptMerged := by
  have sameTx : tapCoordinator.psbt.unsignedTx = scriptSigned.unsignedTx := rfl
  simp only [mockOps, PsbtOps.keyWise, if_pos sameTx]
  rfl

theorem tap_coordinator_first :
    tapCoordinator.federation.find MockSigner.first.id = some MockSigner.first := by
  decide +kernel

theorem script_signed_adds :
    AddsScriptSig tapCoordinator.psbt scriptSigned MockSigner.first.fingerprint := by
  refine ⟨0, tapInput, withFirstSignature tapInput,
    toLex (MockSigner.first.xpub.publicKey.xOnly, 7), rfl, rfl, ?_, ?_, ?_⟩
  · exact Std.ExtTreeMap.mem_insert_self
  · exact Std.ExtTreeMap.not_mem_empty
  · decide +kernel

theorem recognises_taproot_first :
    RecognisesTaproot mockOps tapCoordinator MockSigner.first.id scriptSigned scriptMerged
        MockSigner.first.fingerprint ↔
      EcdsaDecides tapCoordinator.psbt scriptSigned MockSigner.first.fingerprint :=
  recognises_taproot_iff (PsbtOps.key_wise_merges _) tap_coordinator_first rfl
    script_signed_combines

/-- The signature is merged in a trial copy, not seen, and dropped. -/
theorem script_signature_refused :
    tapCoordinator.federation.scriptType = .tr ∧
      (∀ member ∈ tapCoordinator.federation.signers,
        tapInput.tapLabel member.xpub.publicKey.xOnly = some member.fingerprint) ∧
      AddsScriptSig tapCoordinator.psbt scriptMerged MockSigner.first.fingerprint ∧
      tapCoordinator.receiveSignature mockOps MockSigner.first.id scriptSigned =
        (tapCoordinator, .error (nothingNew MockSigner.first.id)) ∧
      ¬ RecognisesTaproot mockOps tapCoordinator MockSigner.first.id scriptSigned scriptMerged
        MockSigner.first.fingerprint := by
  have adds : AddsScriptSig tapCoordinator.psbt scriptMerged MockSigner.first.fingerprint :=
    (script_merged (PsbtOps.key_wise_merges _) script_signed_combines).mpr script_signed_adds
  have missing : foundNew tapCoordinator.psbt scriptMerged MockSigner.first.fingerprint = false := by
    decide +kernel
  have answer : tapCoordinator.receiveSignature mockOps MockSigner.first.id scriptSigned =
      (tapCoordinator, .error (nothingNew MockSigner.first.id)) := by
    have sameTx : scriptSigned.unsignedTx = tapCoordinator.psbt.unsignedTx := rfl
    rw [receive_signature_member tap_coordinator_first sameTx script_signed_combines, missing]
    rfl
  refine ⟨rfl, by decide +kernel, adds, answer, ?_⟩
  intro recognises
  obtain ⟨next, accepted, -⟩ := recognises.recognised adds
  rw [answer] at accepted
  cases congrArg Prod.snd accepted

end EmvaultCore.Attribution
