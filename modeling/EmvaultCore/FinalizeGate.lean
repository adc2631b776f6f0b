import EmvaultCore.SpendPipeline

/-!
# What the coordinator asks before it finalizes

`finalize` refuses while fewer members are counted than the threshold asks for.
Who is counted is read off the calls of the run. Past that gate the coordinator
finalizes what the stand-alone functions make of the PSBTs it accepted.
-/

namespace EmvaultCore.FinalizeGate

open Library.Runs SigningCoordinator Deliveries SpendPipeline SignedSet SignatureOrder

def contribution (ops : PsbtOps) (coordinator : SigningCoordinator) : Call → Finset SignerId
  | .request sign =>
      if (sign coordinator.psbt).2.toBool then
        signersWithSigs (sign coordinator.psbt).1 coordinator.federation
      else ∅
  | .receive id returned =>
      if (coordinator.receiveSignature ops id returned).2.toBool then {id} else ∅

/-- `combine_psbt` over the PSBTs of several cosigners. -/
def combineAll (ops : PsbtOps) (base : Psbt) (partials : List Psbt) : Except PsbtError Psbt :=
  partials.foldlM (combinePsbt ops) base

def receipt (entry : SignerId × Psbt) : Call := .receive entry.1 entry.2

variable {ops : PsbtOps} {extract : ExtractOps} {coordinator start : SigningCoordinator}
  {finalizePsbt : WalletFinalize}

theorem step_signed_eq (call : Call) :
    (coordinator.step ops call).signed =
      coordinator.signed ∪ contribution ops coordinator call := by
  cases call with
  | request sign =>
      simp only [step, requestSignatures, contribution]
      cases sign coordinator.psbt with
      | mk psbt answer =>
          cases answer with
          | error reason => exact (Finset.union_empty _).symm
          | ok done => rfl
  | receive id returned =>
      rw [contribution]
      cases coordinator.receive_signature_cases ops id returned with
      | inl accepted =>
          obtain ⟨next, answer⟩ := accepted
          rw [step, answer]
          obtain ⟨signer, merged, -, -, -, -, rfl⟩ := receive_signature_ok.mp answer
          exact Finset.insert_eq id coordinator.signed |>.trans (Finset.union_comm _ _)
      | inr refused =>
          obtain ⟨cause, answer⟩ := refused
          rw [step, answer]
          exact (Finset.union_empty _).symm

theorem counted_iff (calls : List Call) (id : SignerId) :
    id ∈ (run (step ops) start calls).signed ↔ id ∈ start.signed ∨
      ∃ (moment : Nat) (call : Call), calls[moment]? = some call ∧
        id ∈ contribution ops (stateAt (step ops) start calls moment) call := by
  induction calls generalizing start with
  | nil => simp
  | cons call rest ih =>
      rw [run_cons, ih, step_signed_eq, Finset.mem_union, or_assoc]
      apply or_congr_right
      constructor
      · intro counted
        cases counted with
        | inl here => exact ⟨0, call, rfl, here⟩
        | inr later =>
            obtain ⟨moment, other, given, counts⟩ := later
            exact ⟨moment + 1, other, given, counts⟩
      · intro counted
        obtain ⟨moment, other, given, counts⟩ := counted
        cases moment with
        | zero =>
            cases given
            exact .inl counts
        | succ moment => exact .inr ⟨moment, other, given, counts⟩

theorem run_counted_subset (calls : List Call) :
    start.signed ⊆ (run (step ops) start calls).signed := by
  intro id counted
  exact (counted_iff calls id).mpr (.inl counted)

theorem run_members (ops : PsbtOps) (federation : Federation) (session : UnsignedPsbt)
    (calls : List Call) :
    let reached := run (step ops) (SigningCoordinator.new federation session) calls
    reached.federation = federation ∧ ∀ id ∈ reached.signed, federation.contains id = true := by
  have preserved (coordinator : SigningCoordinator) (call : Call)
      (kept : coordinator.federation = federation ∧
        ∀ id ∈ coordinator.signed, federation.contains id = true) :
      (coordinator.step ops call).federation = federation ∧
        ∀ id ∈ (coordinator.step ops call).signed, federation.contains id = true := by
    constructor
    · exact (step_federation call).trans kept.1
    · intro id counted
      cases (step_signed call).2 id counted with
      | inl before => exact kept.2 id before
      | inr member =>
          rw [kept.1] at member
          exact member
  apply run_preserved preserved
  exact ⟨rfl, fun id counted => absurd counted (Finset.notMem_empty id)⟩

theorem members_card {federation : Federation} {members : Finset SignerId}
    (listed : ∀ id ∈ members, federation.contains id = true) :
    members.card ≤ federation.signers.length := by
  have within : members ⊆ (federation.signers.map Signer.id).toFinset := by
    intro id member
    obtain ⟨signer, among, same⟩ := Federation.contains_iff.mp (listed id member)
    exact List.mem_toFinset.mpr (List.mem_map.mpr ⟨signer, among, same⟩)
  calc members.card ≤ (federation.signers.map Signer.id).toFinset.card :=
        Finset.card_le_card within
    _ ≤ (federation.signers.map Signer.id).length := List.toFinset_card_le _
    _ = federation.signers.length := List.length_map _

/-- What `finalize` makes of the members counted so far. -/
structure Gate (ops : PsbtOps) (federation : Federation) (session : UnsignedPsbt)
    (calls : List Call) (reached : SigningCoordinator) : Prop where
  counted : ∀ id, id ∈ reached.signed ↔
    ∃ (moment : Nat) (call : Call), calls[moment]? = some call ∧ id ∈ contribution ops
      (stateAt (step ops) (SigningCoordinator.new federation session) calls moment) call
  bounded : reached.signed.card ≤ federation.signers.length
  refused : ∀ extract finalizePsbt collected needed,
    reached.finalize extract finalizePsbt =
        .error (.error (.insufficientSignatures collected needed)) ↔
      collected = reached.signed.card ∧ needed = federation.threshold.toNat ∧ collected < needed
  returns : ∀ extract finalizePsbt, (reached.finalize extract finalizePsbt).Returns
  /-- No later call, failing or not, closes the gate again. -/
  stays : ∀ later, reached.isComplete = .ok true →
    (run (step ops) reached later).isComplete = .ok true

/-- Over every run of a session of a federation that the library lets be made,
`finalize` refuses exactly while fewer members are counted than it needs. -/
theorem refused_exactly_short {miniscript : Miniscript} {origin federation : Federation}
    (reachable : Federation.Reachable miniscript origin federation) (session : UnsignedPsbt)
    (calls : List Call) :
    Gate ops federation session calls
      (run (step ops) (SigningCoordinator.new federation session) calls) := by
  have sound := Federation.sound_of_reachable reachable
  have fits {members : Finset SignerId}
      (listed : ∀ id ∈ members, federation.contains id = true) : members.card < 2 ^ 32 :=
    Nat.lt_of_le_of_lt (members_card listed) sound.counted
  obtain ⟨same, members⟩ := run_members ops federation session calls
  generalize atEnd : run (step ops) (SigningCoordinator.new federation session) calls = reached
    at same members
  constructor
  · intro id
    rw [← atEnd, counted_iff]
    exact or_iff_right (Finset.notMem_empty id)
  · exact members_card members
  · intro extract finalizePsbt collected needed
    rw [finalize_insufficient, is_complete_eq_ok, same]
    have counted := fits members
    constructor
    · intro short
      obtain ⟨⟨-, incomplete⟩, rfl, rfl⟩ := short
      refine ⟨rfl, rfl, ?_⟩
      by_contra enough
      exact absurd (incomplete.mpr (not_lt.mp enough)) (by decide)
    · intro short
      obtain ⟨rfl, rfl, few⟩ := short
      refine ⟨⟨counted, ?_⟩, rfl, rfl⟩
      exact iff_of_false (by decide) (not_le.mpr few)
  · exact fun extract finalizePsbt => finalize_returns (fits members)
  · intro later complete
    obtain ⟨sameLater, membersLater⟩ :=
      run_members ops federation session (calls ++ later)
    rw [run_append, atEnd] at sameLater membersLater
    have enough := (is_complete_eq_ok.mp complete).2.mp rfl
    refine is_complete_eq_ok.mpr ⟨fits membersLater, iff_of_true rfl ?_⟩
    rw [sameLater, ← same]
    exact enough.trans (Finset.card_le_card (run_counted_subset later))

theorem refused_exactly_short_mock :
    Gate mockOps (MockSigner.federation .wsh) wshSession mockCalls
      (run (step mockOps)
        (SigningCoordinator.new (MockSigner.federation .wsh) wshSession) mockCalls) :=
  refused_exactly_short Federation.mock_federation_reachable wshSession mockCalls

/-! ### The stand-alone functions -/

theorem combine_all_cons {base partialPsbt merged : Psbt} {partials : List Psbt}
    (combined : ops.combine base partialPsbt = .ok merged) :
    combineAll ops base (partialPsbt :: partials) = combineAll ops merged partials := by
  rw [combineAll, List.foldlM_cons, combine_psbt_eq_ok.mpr combined, ok_bind]
  rfl

theorem combined_returns (receipts : List (SignerId × Psbt)) :
    combineAll ops start.psbt
        ((returns (effective ops start (receipts.map receipt))).map Prod.snd) =
      .ok (run (step ops) start (receipts.map receipt)).psbt := by
  induction receipts generalizing start with
  | nil => rfl
  | cons entry rest ih =>
      rw [List.map_cons, run_cons, receipt, effective]
      cases start.receive_signature_cases ops entry.1 entry.2 with
      | inl accepted =>
          obtain ⟨next, answer⟩ := accepted
          have stepped : start.step ops (.receive entry.1 entry.2) = next := by rw [step, answer]
          have taken : (start.receiveSignature ops entry.1 entry.2).2.toBool = true := by
            rw [answer]
            rfl
          obtain ⟨signer, merged, -, -, combined, -, same⟩ := receive_signature_ok.mp answer
          have held : next.psbt = merged := congrArg SigningCoordinator.psbt same
          rw [stepped]
          simp only [taken, if_true, returns, List.map_cons]
          rw [combine_all_cons combined, ← held]
          exact ih
      | inr refused =>
          obtain ⟨cause, answer⟩ := refused
          have stepped : start.step ops (.receive entry.1 entry.2) = start := by rw [step, answer]
          have left : (start.receiveSignature ops entry.1 entry.2).2.toBool = false := by
            rw [answer]
            rfl
          rw [stepped]
          simp only [left, Bool.false_eq_true, if_false]
          exact ih

/-- Past its gate the coordinator finalizes exactly what the stand-alone functions
finalize of the PSBTs it accepted, to the same transaction and id. -/
theorem coordinator_matches_primitives (start : SigningCoordinator)
    (receipts : List (SignerId × Psbt)) (extract : ExtractOps) (finalizePsbt : WalletFinalize)
    (transaction : SignedTransaction) (txid : Txid) :
    let reached := run (step ops) start (receipts.map receipt)
    let taken := (returns (effective ops start (receipts.map receipt))).map Prod.snd
    (∃ finalized, reached.finalize extract finalizePsbt = .ok finalized ∧
        finalized.transaction = transaction ∧ finalized.txid extract = txid) ↔
      reached.isComplete = .ok true ∧ ∃ merged, combineAll ops start.psbt taken = .ok merged ∧
        finalizeAndExtract extract finalizePsbt merged = .ok (transaction, txid) := by
  intro reached taken
  have combined : combineAll ops start.psbt taken = .ok reached.psbt := combined_returns receipts
  constructor
  · intro finalizes
    obtain ⟨finalized, done, rfl, rfl⟩ := finalizes
    obtain ⟨complete, answer, extracted⟩ := finalize_eq_ok.mp done
    exact ⟨complete, reached.psbt, combined,
      finalize_and_extract_eq_ok.mpr ⟨finalized.psbt, answer, extracted, rfl⟩⟩
  · intro finalizes
    obtain ⟨complete, merged, combines, answer⟩ := finalizes
    rw [combined] at combines
    cases combines
    obtain ⟨done, finished, extracted, rfl⟩ := finalize_and_extract_eq_ok.mp answer
    exact ⟨⟨done, transaction⟩, finalize_eq_ok.mpr ⟨complete, finished, extracted⟩, rfl, rfl⟩

end EmvaultCore.FinalizeGate
