import EmvaultCore.SignedSet

/-!
# The order in which signed PSBTs arrive

`receive_signature` accepts a PSBT for the signatures of its signer that merging
adds. A device that signed on top of another's signatures brings those along, so
the other's own PSBT can come too late. Where every PSBT brings one signature of
its signer that no other brings, all arrival orders are accepted and end alike.
-/

namespace EmvaultCore.SignatureOrder

open SignedSet

def receiveAll (ops : PsbtOps) :
    SigningCoordinator → List (SignerId × Psbt) → Option SigningCoordinator
  | coordinator, [] => some coordinator
  | coordinator, (id, returned) :: rest =>
      match coordinator.receiveSignature ops id returned with
      | (next, .ok ()) => receiveAll ops next rest
      | (_, .error _) => none

def SignedAt (psbt : Psbt) (index : Nat) (key : PublicKey) : Prop :=
  ∃ input : PsbtInput, psbt.inputs[index]? = some input ∧ key ∈ input.partialSigs

theorem signed_at_input {psbt : Psbt} {index : Nat} {input : PsbtInput} {key : PublicKey}
    (given : psbt.inputs[index]? = some input) :
    SignedAt psbt index key ↔ key ∈ input.partialSigs := by
  constructor
  · intro signed
    rcases signed with ⟨other, present, member⟩
    rw [given] at present
    exact Option.some.inj present ▸ member
  · intro member
    exact ⟨input, given, member⟩

theorem not_signed_at_absent {psbt : Psbt} {index : Nat} {key : PublicKey}
    (absent : psbt.inputs[index]? = none) : ¬ SignedAt psbt index key := by
  intro signed
  rcases signed with ⟨input, present, -⟩
  rw [absent] at present
  cases present

/-- The entry brings a signature under a key that the session gives to
`fingerprint`, that no other entry brings and that no entry relabels. -/
def BringsOwn (session : Psbt) (entries : List (SignerId × Psbt)) (entry : SignerId × Psbt)
    (fingerprint : Fingerprint) : Prop :=
  ∃ (index : Nat) (input : PsbtInput) (key : PublicKey),
    session.inputs[index]? = some input ∧ input.bip32Label key.inner = some fingerprint ∧
      key ∉ input.partialSigs ∧ SignedAt entry.2 index key ∧
      ∀ other ∈ entries, (other.1 ≠ entry.1 → ¬ SignedAt other.2 index key) ∧
        ∀ otherInput : PsbtInput, other.2.inputs[index]? = some otherInput →
          ∀ relabel, otherInput.bip32Label key.inner = some relabel → relabel = fingerprint

/-- Every entry is a member's PSBT over the session's transaction that brings a
signature of its own. -/
def Ready (coordinator : SigningCoordinator) (entries : List (SignerId × Psbt)) : Prop :=
  ∀ entry ∈ entries, entry.2.unsignedTx = coordinator.psbt.unsignedTx ∧
    ∃ signer, coordinator.federation.find entry.1 = some signer ∧
      BringsOwn coordinator.psbt entries entry signer.fingerprint

/-- `combine` answers for PSBTs over one transaction. -/
def CombinesEqual (ops : PsbtOps) : Prop :=
  ∀ base other : Psbt, base.unsignedTx = other.unsignedTx →
    ∃ merged, ops.combine base other = .ok merged

theorem ready_perm {coordinator : SigningCoordinator} {left right : List (SignerId × Psbt)}
    (same : left.Perm right) (ready : Ready coordinator left) : Ready coordinator right := by
  intro entry member
  rcases ready entry (same.mem_iff.mpr member) with ⟨transaction, signer, found, index, input, key,
    given, label, fresh, signed, others⟩
  refine ⟨transaction, signer, found, index, input, key, given, label, fresh, signed, ?_⟩
  intro other among
  exact others other (same.mem_iff.mpr among)

section Merging

variable {ops : PsbtOps} (keyWise : ops.MergesKeyWise)

include keyWise

theorem signed_at_merged {session returned merged : Psbt}
    (combined : ops.combine session returned = .ok merged) (index : Nat) (key : PublicKey) :
    SignedAt merged index key ↔
      SignedAt session index key ∨
        (index < session.inputs.length ∧ SignedAt returned index key) := by
  cases given : session.inputs[index]? with
  | none =>
      have absent : merged.inputs[index]? = none := by
        rw [keyWise.inputs combined, Psbt.merge_inputs_get, given]
        rfl
      have outside : ¬ index < session.inputs.length := by
        simpa using given
      exact iff_of_false (not_signed_at_absent absent)
        (not_or.mpr ⟨not_signed_at_absent given, fun added => outside added.1⟩)
  | some input =>
      have inside : index < session.inputs.length := (List.getElem?_eq_some_iff.mp given).1
      have present := merged_input keyWise combined given
      rw [signed_at_input present, signed_at_input given]
      cases returnedInput : returned.inputs[index]? with
      | none => simp [not_signed_at_absent returnedInput]
      | some other => simp [signed_at_input returnedInput, inside]

theorem brings_own_accepted (combines : CombinesEqual ops) {coordinator : SigningCoordinator}
    {entries : List (SignerId × Psbt)} {entry : SignerId × Psbt} (member : entry ∈ entries)
    (ready : Ready coordinator entries) :
    ∃ merged, ops.combine coordinator.psbt entry.2 = .ok merged ∧
      coordinator.receiveSignature ops entry.1 entry.2 =
        ({ coordinator with psbt := merged, signed := insert entry.1 coordinator.signed },
          .ok ()) := by
  rcases ready entry member with ⟨transaction, signer, found, index, input, key, given, label,
    fresh, ⟨otherInput, returnedInput, signed⟩, others⟩
  rcases combines coordinator.psbt entry.2 transaction.symm with ⟨merged, combined⟩
  refine ⟨merged, combined, ?_⟩
  have adds : AddsUnder byDerivation coordinator.psbt entry.2 signer.fingerprint := by
    refine ⟨index, input, otherInput, key, given, returnedInput, signed, fresh, ?_⟩
    have undisturbed := (others entry member).2 otherInput returnedInput
    rw [mergedLabel, byDerivation, byDerivation, label]
    cases relabel : otherInput.bip32Label key.inner with
    | none => rfl
    | some other => rw [undisturbed other relabel, Option.some_or]
  have accepted := (found_new_adds keyWise combined).mpr (Or.inl adds)
  have sameTxid : ops.computeTxid entry.2.unsignedTx =
      ops.computeTxid coordinator.psbt.unsignedTx := by rw [transaction]
  exact SigningCoordinator.receive_signature_ok.mpr
    ⟨signer, merged, found, sameTxid, combined, accepted, rfl⟩

theorem ready_after_merge {coordinator : SigningCoordinator} {entry : SignerId × Psbt}
    {rest : List (SignerId × Psbt)} (distinct : ((entry :: rest).map Prod.fst).Nodup)
    (ready : Ready coordinator (entry :: rest)) {merged : Psbt}
    (combined : ops.combine coordinator.psbt entry.2 = .ok merged) (signed : Finset SignerId) :
    Ready { coordinator with psbt := merged, signed := signed } rest := by
  intro later member
  rcases ready later (List.mem_cons_of_mem _ member) with ⟨transaction, signer, found, index, input,
    key, given, label, fresh, signedLater, others⟩
  have apart : entry.1 ≠ later.1 := by
    rw [List.map_cons, List.nodup_cons] at distinct
    intro same
    exact distinct.1 (List.mem_map.mpr ⟨later, member, same.symm⟩)
  have mine := others entry List.mem_cons_self
  refine ⟨transaction.trans (keyWise.transaction combined).symm, signer, found, index, _, key,
    merged_input keyWise combined given, ?_, ?_, signedLater, ?_⟩
  · cases returnedInput : entry.2.inputs[index]? with
    | none => exact label
    | some other =>
        show (input.merge other).bip32Label key.inner = some signer.fingerprint
        rw [PsbtInput.bip32_label_merge, label]
        cases relabel : other.bip32Label key.inner with
        | none => rfl
        | some name => rw [mine.2 other returnedInput name relabel, Option.some_or]
  · cases returnedInput : entry.2.inputs[index]? with
    | none => exact fresh
    | some other =>
        show key ∉ (input.merge other).partialSigs
        intro held
        rcases (input.mem_partial_sigs_merge other key).mp held with before | brought
        · exact fresh before
        · exact mine.1 apart ⟨other, returnedInput, brought⟩
  · intro other among
    exact others other (List.mem_cons_of_mem _ among)

theorem receive_all_accepts (combines : CombinesEqual ops) {coordinator : SigningCoordinator}
    {entries : List (SignerId × Psbt)} (distinct : (entries.map Prod.fst).Nodup)
    (ready : Ready coordinator entries) : ∃ final, receiveAll ops coordinator entries = some final := by
  induction entries generalizing coordinator with
  | nil => exact ⟨coordinator, rfl⟩
  | cons entry rest ih =>
      rcases brings_own_accepted keyWise combines List.mem_cons_self ready with
        ⟨merged, combined, accepted⟩
      have later := ready_after_merge keyWise distinct ready combined
        (insert entry.1 coordinator.signed)
      rw [List.map_cons, List.nodup_cons] at distinct
      rcases ih distinct.2 later with ⟨final, received⟩
      refine ⟨final, ?_⟩
      rw [receiveAll, accepted]
      exact received

theorem receive_all_contents {coordinator final : SigningCoordinator}
    {entries : List (SignerId × Psbt)} (received : receiveAll ops coordinator entries = some final) :
    final.psbt.inputs.length = coordinator.psbt.inputs.length ∧
      (∀ id, id ∈ final.signed ↔ id ∈ coordinator.signed ∨ id ∈ entries.map Prod.fst) ∧
      ∀ index key, SignedAt final.psbt index key ↔
        SignedAt coordinator.psbt index key ∨
          (index < coordinator.psbt.inputs.length ∧
            ∃ entry ∈ entries, SignedAt entry.2 index key) := by
  induction entries generalizing coordinator with
  | nil =>
      obtain rfl := Option.some.inj received
      simp
  | cons entry rest ih =>
      rw [receiveAll] at received
      split at received
      · next next answer =>
          rcases SigningCoordinator.receive_signature_ok.mp answer with
            ⟨signer, merged, -, -, combined, -, rfl⟩
          rcases ih received with ⟨length, ids, places⟩
          have size : merged.inputs.length = coordinator.psbt.inputs.length := by
            rw [keyWise.inputs combined, Psbt.merge_inputs_length]
          refine ⟨length.trans size, ?_, ?_⟩
          · intro id
            rw [ids id, List.map_cons, List.mem_cons, Finset.mem_insert]
            tauto
          · intro index key
            rw [places index key, signed_at_merged keyWise combined, size]
            simp only [List.exists_mem_cons_iff]
            tauto
      · cases received

/-- Whoever is accepted last brought a signature that none before brought. -/
theorem last_brings_own {coordinator final : SigningCoordinator}
    {earlier : List (SignerId × Psbt)} {entry : SignerId × Psbt}
    (received : receiveAll ops coordinator (earlier ++ [entry]) = some final) :
    ∃ index key, SignedAt entry.2 index key ∧ ¬ SignedAt coordinator.psbt index key ∧
      ∀ other ∈ earlier, ¬ SignedAt other.2 index key := by
  have split : ∃ middle, receiveAll ops coordinator earlier = some middle ∧
      receiveAll ops middle [entry] = some final := by
    clear keyWise
    induction earlier generalizing coordinator with
    | nil => exact ⟨coordinator, rfl, received⟩
    | cons first rest ih =>
        rw [List.cons_append, receiveAll] at received
        rw [receiveAll]
        cases answer : coordinator.receiveSignature ops first.1 first.2 with
        | mk next outcome =>
            rw [answer] at received
            cases outcome with
            | error cause => cases received
            | ok done => exact ih received
  rcases split with ⟨middle, before, last⟩
  rcases receive_all_contents keyWise before with ⟨size, -, places⟩
  rw [receiveAll] at last
  split at last
  · next next answer =>
      rcases SigningCoordinator.receive_signature_ok.mp answer with
        ⟨signer, merged, -, -, combined, found, -⟩
      have adds := (found_new_adds keyWise combined).mp found
      have fresh : ∃ index key, SignedAt entry.2 index key ∧ ¬ SignedAt middle.psbt index key ∧
          index < middle.psbt.inputs.length := by
        rcases adds with derived | tap
        · rcases derived with ⟨index, input, other, key, given, returned, signed, absent, -⟩
          exact ⟨index, key, ⟨other, returned, signed⟩, mt (signed_at_input given).mp absent,
            (List.getElem?_eq_some_iff.mp given).1⟩
        · rcases tap with ⟨index, input, other, key, given, returned, signed, absent, -⟩
          exact ⟨index, key, ⟨other, returned, signed⟩, mt (signed_at_input given).mp absent,
            (List.getElem?_eq_some_iff.mp given).1⟩
      rcases fresh with ⟨index, key, signed, absent, inside⟩
      rw [places index key, ← size, not_or] at absent
      refine ⟨index, key, signed, absent.1, ?_⟩
      intro other member brought
      exact absent.2 ⟨inside, other, member, brought⟩
  · cases last

/-- Every order of a ready collection is accepted, and all orders end with the
same counted members and the same signed places. -/
theorem receipts_commute (combines : CombinesEqual ops) {coordinator : SigningCoordinator}
    {entries left right : List (SignerId × Psbt)} (distinct : (entries.map Prod.fst).Nodup)
    (ready : Ready coordinator entries) (leftOrder : left.Perm entries)
    (rightOrder : right.Perm entries) :
    ∃ leftFinal rightFinal, receiveAll ops coordinator left = some leftFinal ∧
      receiveAll ops coordinator right = some rightFinal ∧
      leftFinal.signed = rightFinal.signed ∧
      (∀ entry ∈ entries, entry.1 ∈ leftFinal.signed) ∧
      ∀ index key, SignedAt leftFinal.psbt index key ↔ SignedAt rightFinal.psbt index key := by
  have accepted {order : List (SignerId × Psbt)} (same : order.Perm entries) :
      ∃ final, receiveAll ops coordinator order = some final := by
    apply receive_all_accepts keyWise combines
    · exact (same.map Prod.fst).nodup_iff.mpr distinct
    · exact ready_perm same.symm ready
  rcases accepted leftOrder with ⟨leftFinal, leftReceived⟩
  rcases accepted rightOrder with ⟨rightFinal, rightReceived⟩
  rcases receive_all_contents keyWise leftReceived with ⟨-, leftIds, leftPlaces⟩
  rcases receive_all_contents keyWise rightReceived with ⟨-, rightIds, rightPlaces⟩
  have both := leftOrder.trans rightOrder.symm
  refine ⟨leftFinal, rightFinal, leftReceived, rightReceived, ?_, ?_, ?_⟩
  · ext id
    rw [leftIds, rightIds, (both.map Prod.fst).mem_iff]
  · intro entry member
    rw [leftIds]
    exact Or.inr (List.mem_map.mpr ⟨entry, leftOrder.mem_iff.mpr member, rfl⟩)
  · intro index key
    rw [leftPlaces, rightPlaces]
    simp only [both.mem_iff]

end Merging

/-- The second device signed on top of the first one's signature. -/
def overlapping : List (SignerId × Psbt) :=
  [(MockSigner.first.id, sessionOf (signedBy [MockSigner.first])),
    (MockSigner.second.id, sessionOf (signedBy [MockSigner.first, MockSigner.second]))]

def separate : List (SignerId × Psbt) :=
  [(MockSigner.first.id, sessionOf (signedBy [MockSigner.first])),
    (MockSigner.second.id, sessionOf (signedBy [MockSigner.second]))]

def mockCoordinator : SigningCoordinator :=
  SigningCoordinator.new (MockSigner.federation .wsh) wshSession

theorem mock_combines : CombinesEqual mockOps := by
  intro base other same
  exact ⟨_, if_pos same⟩

theorem mock_brings_own {mine theirs : Signer} {entries : List (SignerId × Psbt)}
    (label : wshInput.bip32Label mine.xpub.publicKey = some mine.fingerprint)
    (signed : PublicKey.new mine.xpub.publicKey ∈ (signedBy [mine]).partialSigs)
    (absent : PublicKey.new mine.xpub.publicKey ∉ (signedBy [theirs]).partialSigs)
    (either : ∀ other ∈ entries, other = (mine.id, sessionOf (signedBy [mine])) ∨
      other = (theirs.id, sessionOf (signedBy [theirs]))) :
    BringsOwn (sessionOf wshInput) entries (mine.id, sessionOf (signedBy [mine]))
      mine.fingerprint := by
  refine ⟨0, wshInput, PublicKey.new mine.xpub.publicKey, rfl, label,
    Std.ExtTreeMap.not_mem_empty, (signed_at_input rfl).mpr signed, ?_⟩
  intro other member
  rcases either other member with rfl | rfl
  · refine ⟨fun different => absurd rfl different, ?_⟩
    intro input given relabel found
    rw [← Option.some.inj given] at found
    exact Option.some.inj (found.symm.trans label)
  · refine ⟨fun _ held => absent ((signed_at_input rfl).mp held), ?_⟩
    intro input given relabel found
    rw [← Option.some.inj given] at found
    exact Option.some.inj (found.symm.trans label)

theorem mock_ready : Ready mockCoordinator separate := by
  have firstOnly : PublicKey.new MockSigner.first.xpub.publicKey ∉
      (signedBy [MockSigner.second]).partialSigs := by decide +kernel
  have secondOnly : PublicKey.new MockSigner.second.xpub.publicKey ∉
      (signedBy [MockSigner.first]).partialSigs := by decide +kernel
  intro entry member
  rcases List.mem_pair.mp member with rfl | rfl
  · refine ⟨rfl, MockSigner.first, by decide +kernel, ?_⟩
    exact mock_brings_own (by decide +kernel) (by decide +kernel) firstOnly
      fun other among => List.mem_pair.mp among
  · refine ⟨rfl, MockSigner.second, by decide +kernel, ?_⟩
    exact mock_brings_own (by decide +kernel) (by decide +kernel) secondOnly
      fun other among => (List.mem_pair.mp among).symm

theorem receipts_commute_mock :
    ∃ leftFinal rightFinal, receiveAll mockOps mockCoordinator separate = some leftFinal ∧
      receiveAll mockOps mockCoordinator separate.reverse = some rightFinal ∧
      leftFinal.signed = rightFinal.signed ∧
      (∀ entry ∈ separate, entry.1 ∈ leftFinal.signed) ∧
      ∀ index key, SignedAt leftFinal.psbt index key ↔ SignedAt rightFinal.psbt index key :=
  receipts_commute (PsbtOps.key_wise_merges _) mock_combines (by decide +kernel) mock_ready
    (List.Perm.refl _) (List.reverse_perm _)

/-- The second device's PSBT first, and the first device's PSBT adds nothing. -/
theorem overlapping_order_refused :
    (∀ key, ¬ SignedAt mockCoordinator.psbt 0 key) ∧
    (∀ entry ∈ overlapping, ∃ signer ∈ mockCoordinator.federation.signers, signer.id = entry.1 ∧
      wshInput.bip32Label signer.xpub.publicKey = some signer.fingerprint ∧
      SignedAt entry.2 0 (PublicKey.new signer.xpub.publicKey)) ∧
    (receiveAll mockOps mockCoordinator overlapping).isSome = true ∧
      receiveAll mockOps mockCoordinator overlapping.reverse = none := by
  refine ⟨?_, ?_, by decide +kernel, ?_⟩
  · intro key held
    exact absurd ((signed_at_input rfl).mp held) Std.ExtTreeMap.not_mem_empty
  · intro entry member
    rcases List.mem_pair.mp member with rfl | rfl
    · refine ⟨MockSigner.first, List.mem_cons_self, rfl, by decide +kernel, ?_⟩
      exact (signed_at_input rfl).mpr (by decide +kernel)
    · refine ⟨MockSigner.second, List.mem_cons_of_mem _ List.mem_cons_self, rfl,
        by decide +kernel, ?_⟩
      exact (signed_at_input rfl).mpr (by decide +kernel)
  · rw [← Option.isNone_iff_eq_none]
    decide +kernel

end EmvaultCore.SignatureOrder
