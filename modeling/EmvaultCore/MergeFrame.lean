import EmvaultCore.SignatureOrder

/-!
# What receiving a PSBT leaves alone

A refused PSBT leaves the coordinator as it was. An accepted one keeps the
unsigned transaction and every place that is signed, and counts its sender. It
does not keep the signatures themselves: `combine` lets the entries of the
returned PSBT replace those of the session.
-/

namespace EmvaultCore.MergeFrame

open Library.Runs SignedSet SignatureOrder

def receive (ops : PsbtOps) (coordinator : SigningCoordinator) (call : SignerId × Psbt) :
    SigningCoordinator :=
  (coordinator.receiveSignature ops call.1 call.2).1

structure Keeps (before after : SigningCoordinator) : Prop where
  federation : after.federation = before.federation
  unsignedTx : after.psbt.unsignedTx = before.psbt.unsignedTx
  partialSigs : ∀ index key, SignedAt before.psbt index key → SignedAt after.psbt index key
  signed : before.signed ⊆ after.signed
  members : ∀ id ∈ after.signed, id ∈ before.signed ∨ before.federation.contains id = true

structure Accepts (before after : SigningCoordinator) (id : SignerId) : Prop where
  unsignedTx : after.psbt.unsignedTx = before.psbt.unsignedTx
  partialSigs : ∀ index key, SignedAt before.psbt index key → SignedAt after.psbt index key
  signed : after.signed = insert id before.signed
  member : before.federation.contains id = true

theorem keeps_refl (coordinator : SigningCoordinator) : Keeps coordinator coordinator :=
  ⟨rfl, rfl, fun _ _ held => held, Finset.Subset.refl _, fun _ counted => .inl counted⟩

theorem keeps_trans {first middle last : SigningCoordinator} (earlier : Keeps first middle)
    (later : Keeps middle last) : Keeps first last := by
  constructor
  · exact later.federation.trans earlier.federation
  · exact later.unsignedTx.trans earlier.unsignedTx
  · exact fun index key held => later.partialSigs index key (earlier.partialSigs index key held)
  · exact earlier.signed.trans later.signed
  · intro id counted
    rcases later.members id counted with before | member
    · exact earlier.members id before
    · rw [earlier.federation] at member
      exact .inr member

section Frame

variable {ops : PsbtOps} (keyWise : ops.MergesKeyWise) {coordinator : SigningCoordinator}

include keyWise

theorem accepted_frame {id : SignerId} {returned : Psbt} {next : SigningCoordinator}
    (answer : coordinator.receiveSignature ops id returned = (next, .ok ())) :
    Accepts coordinator next id := by
  rcases SigningCoordinator.receive_signature_ok.mp answer with
    ⟨signer, merged, found, -, combined, -, rfl⟩
  constructor
  · exact keyWise.transaction combined
  · intro index key held
    exact (signed_at_merged keyWise combined index key).mpr (.inl held)
  · rfl
  · rw [Federation.contains, found]
    rfl

theorem receive_keeps (call : SignerId × Psbt) :
    Keeps coordinator (receive ops coordinator call) := by
  rcases coordinator.receive_signature_cases ops call.1 call.2 with ⟨next, answer⟩ | ⟨cause, answer⟩
  · have accepted := accepted_frame keyWise answer
    have federation : next.federation = coordinator.federation := by
      rcases SigningCoordinator.receive_signature_ok.mp answer with ⟨_, _, -, -, -, -, rfl⟩
      rfl
    rw [receive, answer]
    constructor
    · exact federation
    · exact accepted.unsignedTx
    · exact accepted.partialSigs
    · rw [accepted.signed]
      exact Finset.subset_insert _ _
    · intro other counted
      rw [accepted.signed, Finset.mem_insert] at counted
      rcases counted with rfl | before
      · exact .inr accepted.member
      · exact .inl before
  · rw [receive, answer]
    exact keeps_refl coordinator

/-- Over every sequence of calls, good and bad. -/
theorem receive_signature_frame (start : SigningCoordinator) (calls : List (SignerId × Psbt)) :
    (∀ moment id returned, calls[moment]? = some (id, returned) →
      let before := stateAt (receive ops) start calls moment
      let after := stateAt (receive ops) start calls (moment + 1)
      (∀ cause, (before.receiveSignature ops id returned).2 = .error cause → after = before) ∧
        ((before.receiveSignature ops id returned).2 = .ok () → Accepts before after id)) ∧
    ∀ earlier later, earlier ≤ later →
      Keeps (stateAt (receive ops) start calls earlier)
        (stateAt (receive ops) start calls later) := by
  constructor
  · intro moment id returned given before after
    have stepped : after = receive ops before (id, returned) := state_at_succ given
    rcases before.receive_signature_cases ops id returned with ⟨next, answer⟩ | ⟨cause, answer⟩
    · rw [stepped, receive, answer]
      exact ⟨fun cause failed => by simp at failed, fun _ => accepted_frame keyWise answer⟩
    · rw [stepped, receive, answer]
      exact ⟨fun _ _ => rfl, fun ok => by simp at ok⟩
  · intro earlier later before
    exact state_at_related keeps_refl keeps_trans
      (fun coordinator call => receive_keeps keyWise call) start calls before

end Frame

theorem receive_signature_frame_mock :
    (∀ moment id returned, separate[moment]? = some (id, returned) →
      let before := stateAt (receive mockOps) mockCoordinator separate moment
      let after := stateAt (receive mockOps) mockCoordinator separate (moment + 1)
      (∀ cause, (before.receiveSignature mockOps id returned).2 = .error cause →
        after = before) ∧
        ((before.receiveSignature mockOps id returned).2 = .ok () → Accepts before after id)) ∧
    ∀ earlier later, earlier ≤ later →
      Keeps (stateAt (receive mockOps) mockCoordinator separate earlier)
        (stateAt (receive mockOps) mockCoordinator separate later) :=
  receive_signature_frame (PsbtOps.key_wise_merges _) mockCoordinator separate

/-! ### The signatures themselves -/

def signatureAt (psbt : Psbt) (index : Nat) (key : PublicKey) : Option Signature :=
  (psbt.inputs[index]?).bind fun input => input.partialSigs[key]?

theorem signature_at_merged {ops : PsbtOps} (keyWise : ops.MergesKeyWise)
    {session returned merged : Psbt} (combined : ops.combine session returned = .ok merged)
    {index : Nat} {key : PublicKey} {held : Signature}
    (holds : signatureAt session index key = some held) :
    signatureAt merged index key = some ((signatureAt returned index key).getD held) := by
  rcases Option.bind_eq_some_iff.mp holds with ⟨input, given, entry⟩
  rw [signatureAt, merged_input keyWise combined given, signatureAt]
  cases returnedInput : returned.inputs[index]? with
  | none => exact entry
  | some other =>
      simp only [Option.bind_some, PsbtInput.merge, Std.ExtTreeMap.getElem?_union, entry]
      cases other.partialSigs[key]? <;> rfl

/-- An accepted PSBT keeps every signature exactly when it brings no other one
in a place that is signed. -/
theorem signatures_kept_iff {ops : PsbtOps} (keyWise : ops.MergesKeyWise)
    {coordinator next : SigningCoordinator} {id : SignerId} {returned : Psbt}
    (answer : coordinator.receiveSignature ops id returned = (next, .ok ())) :
    (∀ index key held, signatureAt coordinator.psbt index key = some held →
      signatureAt next.psbt index key = some held) ↔
    ∀ index key held brought, signatureAt coordinator.psbt index key = some held →
      signatureAt returned index key = some brought → brought = held := by
  rcases SigningCoordinator.receive_signature_ok.mp answer with
    ⟨signer, merged, -, -, combined, -, rfl⟩
  constructor
  · intro kept index key held brought holds brings
    have after := signature_at_merged keyWise combined holds
    rw [brings] at after
    exact Option.some.inj (after.symm.trans (kept index key held holds))
  · intro same index key held holds
    have after := signature_at_merged keyWise combined holds
    cases brings : signatureAt returned index key with
    | none =>
        rw [brings] at after
        exact after
    | some brought =>
        rw [brings] at after
        rw [after, same index key held brought holds brings]
        rfl

def firstReceived : SigningCoordinator :=
  receive mockOps mockCoordinator (MockSigner.first.id, sessionOf (signedBy [MockSigner.first]))

/-- The second member's own signature, and other bytes under the first's key. -/
def forged : Psbt :=
  sessionOf { wshInput with
    partialSigs := (signedBy [MockSigner.second]).partialSigs.insert
      (PublicKey.new MockSigner.first.xpub.publicKey) [0x00] }

theorem accepted_of_ok {ops : PsbtOps} {coordinator : SigningCoordinator} {id : SignerId}
    {returned : Psbt} (ok : (coordinator.receiveSignature ops id returned).2.toBool = true) :
    coordinator.receiveSignature ops id returned =
      (receive ops coordinator (id, returned), .ok ()) := by
  rw [receive]
  rcases coordinator.receive_signature_cases ops id returned with ⟨next, answer⟩ | ⟨cause, answer⟩
  · rw [answer]
  · rw [answer] at ok
    cases ok

theorem signatures_kept_mock :
    (∀ index key held, signatureAt firstReceived.psbt index key = some held →
      signatureAt (receive mockOps firstReceived
        (MockSigner.second.id, sessionOf (signedBy [MockSigner.second]))).psbt index key =
          some held) ↔
    ∀ index key held brought, signatureAt firstReceived.psbt index key = some held →
      signatureAt (sessionOf (signedBy [MockSigner.second])) index key = some brought →
        brought = held :=
  signatures_kept_iff (PsbtOps.key_wise_merges _) (accepted_of_ok (by decide +kernel))

/-- The first member's signature is replaced, and the call returns `Ok`. -/
theorem forged_signature_replaces :
    firstReceived.receiveSignature mockOps MockSigner.second.id forged =
        (receive mockOps firstReceived (MockSigner.second.id, forged), .ok ()) ∧
      signatureAt firstReceived.psbt 0 (PublicKey.new MockSigner.first.xpub.publicKey) =
        some [0x30, 0x01] ∧
      signatureAt (receive mockOps firstReceived (MockSigner.second.id, forged)).psbt 0
        (PublicKey.new MockSigner.first.xpub.publicKey) = some [0x00] := by
  refine ⟨accepted_of_ok ?_, ?_, ?_⟩
  · decide +kernel
  · decide +kernel
  · decide +kernel

end EmvaultCore.MergeFrame
