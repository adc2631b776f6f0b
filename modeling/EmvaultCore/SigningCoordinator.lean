import Mathlib.Data.Finset.Card
import EmvaultCore.Federation
import EmvaultCore.Psbt

/-!
# Collecting signatures

The coordinator owns one PSBT and the set of members counted as signers. It is
fed by `request_signatures`, which lets the wallet sign in place, and by
`receive_signature`, which merges a PSBT returned by a device. `Wallet::sign`
comes with each call as what it does to the PSBT and what it answers.
-/

namespace EmvaultCore

abbrev WalletSign := Psbt → Psbt × Except String Bool

structure SigningRequest where
  signerId : SignerId
  fingerprint : Fingerprint
  psbt : Psbt

structure ExternalSigning where
  request : SigningRequest
  instructions : Option String

inductive SigningAction where
  | direct
  | external (payload : ExternalSigning)

structure SigningCoordinator where
  federation : Federation
  psbt : Psbt
  signed : Finset SignerId

namespace PsbtInput

/-- The test of `receive_signature` for whose key a partial signature is under. -/
def fpMatches (input : PsbtInput) (fingerprint : Fingerprint) (key : PublicKey) : Bool :=
  decide (input.bip32Label key.inner = some fingerprint) ||
    decide (input.tapLabel key.inner.xOnly = some fingerprint)

end PsbtInput

/-- `fp_to_id`: of two members with one fingerprint the later one is kept. -/
def fpToId (federation : Federation) (fingerprint : Fingerprint) : Option SignerId :=
  (federation.signers.reverse.find? (·.fingerprint = fingerprint)).map Signer.id

/-- The ids that one input makes `signers_with_sigs` insert. -/
def creditedIds (federation : Federation) (input : PsbtInput) : List SignerId :=
  let ecdsa := input.bip32Derivation.valuesInOrder.filterMap fun source =>
    if input.partialSigs.keys.any fun key =>
        decide (input.bip32Label key.inner = some source.1) then
      fpToId federation source.1
    else none
  -- any taproot signature on the input credits every key that the input lists
  let taproot := input.tapKeyOrigins.valuesInOrder.filterMap fun origin =>
    if !input.tapScriptSigs.isEmpty || input.tapKeySig.isSome then
      fpToId federation origin.2.1
    else none
  ecdsa ++ taproot

def signersWithSigs (psbt : Psbt) (federation : Federation) : Finset SignerId :=
  (psbt.inputs.flatMap (creditedIds federation)).toFinset

/-- The search for a signature of `fingerprint` that merging has added. -/
def foundNew (session merged : Psbt) (fingerprint : Fingerprint) : Bool :=
  merged.inputs.zipIdx.any fun (input, index) =>
    input.partialSigs.keys.any fun key =>
      input.fpMatches fingerprint key &&
        !(session.inputs[index]?).any fun previous => previous.partialSigs.contains key

namespace SigningCoordinator

def new (federation : Federation) (psbt : UnsignedPsbt) : SigningCoordinator where
  federation := federation
  psbt := psbt.asPsbt
  signed := ∅

def signaturesCollected (coordinator : SigningCoordinator) : Nat := coordinator.signed.card

def isComplete (coordinator : SigningCoordinator) : Outcome PsbtError Bool :=
  if coordinator.signaturesCollected < 2 ^ 32 then
    .ok (decide (coordinator.federation.threshold.toNat ≤ coordinator.signaturesCollected))
  else .error (.panic "signature count fits u32")

def actionFor (psbt : Psbt) (signer : Signer) : SigningAction :=
  match signer.signerType with
  | .software => .direct
  | .external => .external {
      request := { signerId := signer.id, fingerprint := signer.fingerprint, psbt }
      instructions := signer.label.map fun label =>
        "Hand the PSBT to " ++ label ++ " for signing on the connected hardware wallet." }

/-- `request_signatures`. The wallet may have changed the PSBT when it fails. -/
def requestSignatures (coordinator : SigningCoordinator) (sign : WalletSign) :
    SigningCoordinator × Except PsbtError (List (SignerId × SigningAction)) :=
  match sign coordinator.psbt with
  | (psbt, .error reason) => ({ coordinator with psbt }, .error (.bdkSigner reason))
  | (psbt, .ok _) =>
      ({ coordinator with
          psbt
          signed := coordinator.signed ∪ signersWithSigs psbt coordinator.federation },
        .ok (coordinator.federation.signers.map fun signer =>
          (signer.id, actionFor psbt signer)))

def receiveSignature (ops : PsbtOps) (coordinator : SigningCoordinator) (id : SignerId)
    (signedPsbt : Psbt) : SigningCoordinator × Except PsbtError Unit :=
  match coordinator.federation.find id with
  | none => (coordinator, .error (.unknownSigner id))
  | some signer =>
      if ops.computeTxid signedPsbt.unsignedTx ≠ ops.computeTxid coordinator.psbt.unsignedTx then
        (coordinator, .error (.descriptorMismatch
          "returned PSBT does not match this signing session's unsigned transaction"))
      else
        match ops.combine coordinator.psbt signedPsbt with
        | .error reason => (coordinator, .error (.bitcoin reason))
        | .ok merged =>
            if foundNew coordinator.psbt merged signer.fingerprint then
              ({ coordinator with psbt := merged, signed := insert id coordinator.signed }, .ok ())
            else (coordinator, .error (.invalidSignature id
              "no new partial signature attributable to this signer was present in the returned PSBT"))

inductive Call where
  | request (sign : WalletSign)
  | receive (id : SignerId) (signedPsbt : Psbt)

def step (ops : PsbtOps) (coordinator : SigningCoordinator) : Call → SigningCoordinator
  | .request sign => (coordinator.requestSignatures sign).1
  | .receive id signedPsbt => (coordinator.receiveSignature ops id signedPsbt).1

variable {ops : PsbtOps} {coordinator : SigningCoordinator}

@[simp] theorem step_federation (call : Call) :
    (coordinator.step ops call).federation = coordinator.federation := by
  cases call with
  | request sign =>
      simp only [step, requestSignatures]
      split <;> rfl
  | receive id signedPsbt =>
      simp only [step, receiveSignature]
      split
      · rfl
      · split
        · rfl
        · split
          · rfl
          · split <;> rfl

theorem receive_signature_ok {id : SignerId} {signedPsbt : Psbt} {next : SigningCoordinator} :
    coordinator.receiveSignature ops id signedPsbt = (next, .ok ()) ↔
      ∃ signer merged, coordinator.federation.find id = some signer ∧
        ops.computeTxid signedPsbt.unsignedTx = ops.computeTxid coordinator.psbt.unsignedTx ∧
        ops.combine coordinator.psbt signedPsbt = .ok merged ∧
        foundNew coordinator.psbt merged signer.fingerprint = true ∧
        next = { coordinator with psbt := merged, signed := insert id coordinator.signed } := by
  constructor
  · intro answer
    unfold receiveSignature at answer
    split at answer
    · cases answer
    · next signer member =>
        split at answer
        · cases answer
        · next txid =>
            split at answer
            · cases answer
            · next merged combined =>
                split at answer
                · next found =>
                    have same := (Prod.mk.inj answer).1
                    exact ⟨signer, merged, member, not_not.mp txid, combined, found, same.symm⟩
                · cases answer
  · intro conditions
    rcases conditions with ⟨signer, merged, member, txid, combined, found, rfl⟩
    simp only [receiveSignature, member, txid, combined, found, ne_eq, not_true_eq_false,
      if_false, if_true]

theorem receive_signature_cases (ops : PsbtOps) (coordinator : SigningCoordinator)
    (id : SignerId) (signedPsbt : Psbt) :
    (∃ next, coordinator.receiveSignature ops id signedPsbt = (next, .ok ())) ∨
      ∃ cause, coordinator.receiveSignature ops id signedPsbt = (coordinator, .error cause) := by
  unfold receiveSignature
  split
  · exact Or.inr ⟨_, rfl⟩
  · split
    · exact Or.inr ⟨_, rfl⟩
    · split
      · exact Or.inr ⟨_, rfl⟩
      · split
        · exact Or.inl ⟨_, rfl⟩
        · exact Or.inr ⟨_, rfl⟩

end SigningCoordinator

theorem fp_to_id_eq_some {federation : Federation} {fingerprint : Fingerprint} {id : SignerId}
    (found : fpToId federation fingerprint = some id) :
    ∃ signer ∈ federation.signers, signer.id = id ∧ signer.fingerprint = fingerprint := by
  rcases Option.map_eq_some_iff.mp found with ⟨signer, first, rfl⟩
  have member := List.mem_of_find?_eq_some first
  have matching := List.find?_some first
  exact ⟨signer, List.mem_reverse.mp member, rfl, of_decide_eq_true matching⟩

theorem find_eq_some {federation : Federation} {id : SignerId} {signer : Signer}
    (found : federation.find id = some signer) : signer ∈ federation.signers ∧ signer.id = id := by
  have member := List.mem_of_find?_eq_some found
  have matching := List.find?_some found
  exact ⟨member, of_decide_eq_true matching⟩

theorem found_new_iff {session merged : Psbt} {fingerprint : Fingerprint} :
    foundNew session merged fingerprint = true ↔
      ∃ (index : Nat) (input : PsbtInput), merged.inputs[index]? = some input ∧
        ∃ key ∈ input.partialSigs, input.fpMatches fingerprint key = true ∧
          ∀ previous : PsbtInput, session.inputs[index]? = some previous →
            key ∉ previous.partialSigs := by
  have fresh (index : Nat) (key : PublicKey) :
      (!(session.inputs[index]?).any fun previous => previous.partialSigs.contains key) = true ↔
        ∀ previous : PsbtInput, session.inputs[index]? = some previous →
          key ∉ previous.partialSigs := by
    cases session.inputs[index]? <;> simp [← Std.ExtTreeMap.contains_iff_mem]
  simp only [foundNew, List.any_eq_true, Prod.exists, List.mem_zipIdx_iff_getElem?,
    Bool.and_eq_true, fresh]
  constructor
  · intro found
    rcases found with ⟨input, index, given, key, member, owned, isNew⟩
    exact ⟨index, input, given, key, Std.ExtTreeMap.mem_keys.mp member, owned, isNew⟩
  · intro found
    rcases found with ⟨index, input, given, key, member, owned, isNew⟩
    exact ⟨input, index, given, key, Std.ExtTreeMap.mem_keys.mpr member, owned, isNew⟩

end EmvaultCore
