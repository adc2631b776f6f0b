import EmvaultCore.Deliveries
import EmvaultCore.DescriptorHistory
import EmvaultCore.Finalization
import EmvaultCore.UnsignedSession
import EmvaultCore.VerifyOutputs

/-!
# From an approved PSBT to what is broadcast

`verify_psbt_outputs` looks at a PSBT before anyone signs it. Neither signing, in
whatever order and with whatever failures, nor finalizing changes what it looked
at, so the payments approved are those of the transaction that comes out, and
nothing else leaves the federation.
-/

namespace EmvaultCore.SpendPipeline

open Library.Runs Library.GreedyMatching SigningCoordinator SignedSet VerifyOutputs

def fillInputs : List OutPoint → List PsbtInput → List TxIn
  | [], _ => []
  | outpoint :: outpoints, [] => ⟨outpoint, [], []⟩ :: fillInputs outpoints []
  | outpoint :: outpoints, input :: inputs =>
      ⟨outpoint, input.finalScriptSig.getD [], input.finalScriptWitness.getD []⟩ ::
        fillInputs outpoints inputs

def fillIn (psbt : Psbt) : SignedTransaction where
  version := psbt.unsignedTx.version
  lockTime := psbt.unsignedTx.lockTime
  input := fillInputs psbt.unsignedTx.input psbt.inputs
  output := psbt.unsignedTx.output

/-- `extract_tx` refuses, or fills in what the PSBT has. -/
def FillsIn (extract : ExtractOps) : Prop :=
  ∀ psbt transaction, extract.extractTx psbt = .ok transaction → transaction = fillIn psbt

def KeepsTransaction (change : Psbt → Psbt × Except String Bool) : Prop :=
  ∀ psbt, (change psbt).1.unsignedTx = psbt.unsignedTx

def StaysOnTransaction : Call → Prop
  | .request sign => KeepsTransaction sign
  | .receive _ _ => True

theorem fill_inputs_outpoints (outpoints : List OutPoint) (inputs : List PsbtInput) :
    (fillInputs outpoints inputs).map (·.previousOutput) = outpoints := by
  induction outpoints generalizing inputs with
  | nil => rfl
  | cons outpoint outpoints ih =>
      cases inputs with
      | nil => rw [fillInputs, List.map_cons, ih]
      | cons input inputs => rw [fillInputs, List.map_cons, ih]

theorem fill_in_unsigned (psbt : Psbt) : (fillIn psbt).unsigned = psbt.unsignedTx := by
  rw [SignedTransaction.unsigned, fillIn, fill_inputs_outpoints]

def foreign (isOwnedChange : ScriptBuf → Bool) (payments : Multiset Payment) : Multiset Payment :=
  payments.filter fun payment => isOwnedChange payment.1 = false

/-- Where the leftovers of the approved payments are own change, the payments to
others are the approved ones. -/
theorem foreign_of_settled {isOwnedChange : ScriptBuf → Bool} {paid approved : Multiset Payment}
    (contained : approved ≤ paid)
    (owned : ∀ payment ∈ paid - approved, isOwnedChange payment.1 = true) :
    foreign isOwnedChange paid = foreign isOwnedChange approved := by
  have split : paid = paid - approved + approved := (Multiset.add_sub_cancel contained).symm
  have rest : foreign isOwnedChange (paid - approved) = 0 := by
    rw [foreign, Multiset.filter_eq_nil]
    intro payment member
    rw [owned payment member]
    decide
  rw [foreign, split, Multiset.filter_add, ← foreign, ← foreign, rest, Multiset.zero_add]

/-! ### Sessions -/

theorem credited_is_member {federation : Federation} {psbt : Psbt} {id : SignerId}
    (credited : id ∈ signersWithSigs psbt federation) : federation.contains id = true := by
  rw [signersWithSigs, List.mem_toFinset, List.mem_flatMap] at credited
  obtain ⟨input, -, named⟩ := credited
  have found : ∃ fingerprint, fpToId federation fingerprint = some id := by
    cases List.mem_append.mp named with
    | inl ecdsa =>
        obtain ⟨source, -, answer⟩ := List.mem_filterMap.mp ecdsa
        split at answer
        · exact ⟨_, answer⟩
        · cases answer
    | inr taproot =>
        obtain ⟨origin, -, answer⟩ := List.mem_filterMap.mp taproot
        split at answer
        · exact ⟨_, answer⟩
        · cases answer
  obtain ⟨fingerprint, answer⟩ := found
  obtain ⟨signer, among, same, -⟩ := fp_to_id_eq_some answer
  exact Federation.contains_iff.mpr ⟨signer, among, same⟩

section Session

variable {ops : PsbtOps} (keyWise : ops.MergesKeyWise) {coordinator : SigningCoordinator}

include keyWise

theorem step_unsigned_tx {call : Call} (stays : StaysOnTransaction call) :
    (coordinator.step ops call).psbt.unsignedTx = coordinator.psbt.unsignedTx := by
  cases call with
  | request sign =>
      have kept := stays coordinator.psbt
      simp only [step, requestSignatures]
      cases answered : sign coordinator.psbt with
      | mk psbt answer =>
          rw [answered] at kept
          cases answer with
          | error reason => exact kept
          | ok done => exact kept
  | receive id returned => exact (MergeFrame.receive_keeps keyWise (id, returned)).unsignedTx

omit keyWise in
theorem step_signed (call : Call) :
    coordinator.signed ⊆ (coordinator.step ops call).signed ∧
      ∀ id ∈ (coordinator.step ops call).signed,
        id ∈ coordinator.signed ∨ coordinator.federation.contains id = true := by
  cases call with
  | request sign =>
      simp only [step, requestSignatures]
      cases sign coordinator.psbt with
      | mk psbt answer =>
          cases answer with
          | error reason => exact ⟨Finset.Subset.refl _, fun id counted => .inl counted⟩
          | ok done =>
              refine ⟨Finset.subset_union_left, ?_⟩
              intro id counted
              exact (Finset.mem_union.mp counted).imp_right credited_is_member
  | receive id returned =>
      cases coordinator.receive_signature_cases ops id returned with
      | inl accepted =>
          obtain ⟨next, answer⟩ := accepted
          rw [step, answer]
          obtain ⟨signer, merged, found, -, -, -, rfl⟩ := receive_signature_ok.mp answer
          refine ⟨Finset.subset_insert _ _, ?_⟩
          intro other counted
          cases Finset.mem_insert.mp counted with
          | inl here =>
              rw [here, Federation.contains, found]
              exact .inr rfl
          | inr before => exact .inl before
      | inr refused =>
          obtain ⟨cause, answer⟩ := refused
          rw [step, answer]
          exact ⟨Finset.Subset.refl _, fun id counted => .inl counted⟩

structure InSession (federation : Federation) (psbt : Psbt) (coordinator : SigningCoordinator) :
    Prop where
  sameFederation : coordinator.federation = federation
  unsignedTx : coordinator.psbt.unsignedTx = psbt.unsignedTx
  members : ∀ id ∈ coordinator.signed, federation.contains id = true

omit keyWise in
theorem in_session_new (federation : Federation) (session : UnsignedPsbt) :
    InSession federation session.asPsbt (SigningCoordinator.new federation session) :=
  ⟨rfl, rfl, fun id counted => absurd counted (Finset.notMem_empty id)⟩

theorem step_in_session {federation : Federation} {psbt : Psbt} (call : Call)
    (stays : StaysOnTransaction call)
    (inSession : InSession federation psbt coordinator) :
    InSession federation psbt (coordinator.step ops call) := by
  constructor
  · exact (step_federation call).trans inSession.sameFederation
  · exact (step_unsigned_tx keyWise stays).trans inSession.unsignedTx
  · intro id counted
    cases (step_signed call).2 id counted with
    | inl before => exact inSession.members id before
    | inr member =>
        rw [inSession.sameFederation] at member
        exact member

theorem run_in_session {federation : Federation} {session : UnsignedPsbt} {calls : List Call}
    (stays : ∀ call ∈ calls, StaysOnTransaction call) :
    InSession federation session.asPsbt
      (run (step ops) (SigningCoordinator.new federation session) calls) :=
  run_each (fun _ => step_in_session keyWise) (in_session_new federation session) stays

end Session

/-! ### What is broadcast -/

/-- The transaction pays what was approved and no other foreign script, spends the
coins of the approved PSBT and has the consent of a quorum. -/
structure Settles (federation : Federation) (psbt : Psbt) (approved : List ExpectedOutput)
    (isOwnedChange : ScriptBuf → Bool) (counted : Finset SignerId)
    (transaction : SignedTransaction) : Prop where
  unsigned : transaction.unsigned = psbt.unsignedTx
  paid : (approved.map ExpectedOutput.payment : Multiset Payment) ≤
    (transaction.output.map txOutPayment : Multiset Payment)
  foreign : foreign isOwnedChange (transaction.output.map txOutPayment) =
    foreign isOwnedChange (approved.map ExpectedOutput.payment)
  quorum : federation.threshold.toNat ≤ counted.card
  members : ∀ id ∈ counted, federation.contains id = true

variable {ops : PsbtOps} {extract : ExtractOps} {printing : Printing} {federation : Federation}
  {psbt : Psbt} {session : UnsignedPsbt} {approved : List ExpectedOutput}
  {isOwnedChange : ScriptBuf → Bool} {calls : List Call} {finalizePsbt : WalletFinalize}
  {finalized : FinalizedPsbt}

theorem finalized_unsigned (fills : FillsIn extract)
    (finalizeStays : KeepsTransaction finalizePsbt) {coordinator : SigningCoordinator}
    (done : coordinator.finalize extract finalizePsbt = .ok finalized) :
    finalized.transaction.unsigned = coordinator.psbt.unsignedTx := by
  obtain ⟨-, answer, extracted⟩ := finalize_eq_ok.mp done
  have kept := finalizeStays coordinator.psbt
  rw [answer] at kept
  rw [fills _ _ extracted, fill_in_unsigned]
  exact kept

theorem session_unsigned (keyWise : ops.MergesKeyWise) (fills : FillsIn extract)
    (stays : ∀ call ∈ calls, StaysOnTransaction call)
    (finalizeStays : KeepsTransaction finalizePsbt)
    (done : (run (step ops) (SigningCoordinator.new federation session) calls).finalize extract
      finalizePsbt = .ok finalized) :
    finalized.transaction.unsigned = session.asPsbt.unsignedTx :=
  (finalized_unsigned fills finalizeStays done).trans (run_in_session keyWise stays).unsignedTx

theorem settled_of_verified
    (verified : verifyPsbtOutputs printing psbt approved isOwnedChange = .ok ()) :
    Settled (fun payment => isOwnedChange payment.1) (psbt.unsignedTx.output.map txOutPayment)
      (approved.map ExpectedOutput.payment : Multiset Payment) :=
  (settle_eq_zero_iff _ _ _).mp
    ((verify_ok_iff_settles printing psbt approved isOwnedChange).mp verified)

/-- Whatever calls the session went through, what it finalizes settles what was
approved before it began. -/
theorem approved_payments_settle (keyWise : ops.MergesKeyWise) (fills : FillsIn extract)
    (wrapped : UnsignedPsbt.new psbt = .ok session)
    (verified : verifyPsbtOutputs printing psbt approved isOwnedChange = .ok ())
    (stays : ∀ call ∈ calls, StaysOnTransaction call)
    (finalizeStays : KeepsTransaction finalizePsbt)
    (done : (run (step ops) (SigningCoordinator.new federation session) calls).finalize extract
      finalizePsbt = .ok finalized) :
    Settles federation psbt approved isOwnedChange
      (run (step ops) (SigningCoordinator.new federation session) calls).signed
      finalized.transaction := by
  obtain ⟨same, -⟩ := UnsignedSession.new_eq_ok.mp wrapped
  have inSession : InSession federation psbt
      (run (step ops) (SigningCoordinator.new federation session) calls) :=
    same ▸ run_in_session keyWise stays
  have unsigned : finalized.transaction.unsigned = psbt.unsignedTx :=
    same ▸ session_unsigned keyWise fills stays finalizeStays done
  have outputs : finalized.transaction.output = psbt.unsignedTx.output :=
    congrArg Transaction.output unsigned
  obtain ⟨contained, owned⟩ := settled_of_verified verified
  obtain ⟨complete, -, -⟩ := finalize_eq_ok.mp done
  constructor
  · exact unsigned
  · rw [outputs]
    exact contained
  · rw [outputs]
    exact foreign_of_settled contained owned
  · have enough := (is_complete_eq_ok.mp complete).2.mp rfl
    rw [inSession.sameFederation] at enough
    exact enough
  · exact inSession.members

/-! A session of the first two test signers, up to its transaction. -/

def bigEndian : Nat → Nat → List UInt8
  | 0, _ => []
  | count + 1, value => bigEndian count (value / 256) ++ [UInt8.ofNat (value % 256)]

def pushKey (key : SecpPublicKey) : ScriptBuf :=
  0x21 :: (if key.odd then 0x03 else 0x02) :: bigEndian 32 key.xOnly.val

/-- The script of the 2-of-2, with the keys in the order of their encodings. -/
def witnessScript : ScriptBuf :=
  0x52 :: pushKey MockSigner.first.xpub.publicKey ++ pushKey MockSigner.second.xpub.publicKey ++
    [0x52, 0xae]

def witnessed (input : PsbtInput) : PsbtInput :=
  { PsbtInput.empty with
    finalScriptWitness := some ([] :: input.partialSigs.valuesInOrder ++ [witnessScript]) }

def mockFinalize : WalletFinalize := fun psbt =>
  if psbt.inputs.all fun input => input.partialSigs.size == 2 then
    ({ psbt with inputs := psbt.inputs.map witnessed }, .ok true)
  else (psbt, .ok false)

def mockExtract : ExtractOps where
  extractTx psbt := .ok (fillIn psbt)
  computeTxid transaction := mockOps.computeTxid transaction.unsigned

def mockCalls : List Call :=
  [.receive MockSigner.first.id (sessionOf (signedBy [MockSigner.first])),
    .receive MockSigner.second.id (sessionOf (signedBy [MockSigner.second]))]

def mockRecipient : ScriptBuf := 0x00 :: 0x14 :: List.replicate 20 0x22

def mockApproved : List ExpectedOutput :=
  [⟨mockRecipient, .fromSat 90000⟩]

def mockPrinting : Printing := ⟨fun _ => "", fun amount => toString amount.sat⟩

theorem mock_fills_in : FillsIn mockExtract := by
  intro psbt transaction extracted
  exact (Except.ok.inj extracted).symm

theorem mock_finalize_stays : KeepsTransaction mockFinalize := by
  intro psbt
  unfold mockFinalize
  split <;> rfl

theorem mock_calls_stay : ∀ call ∈ mockCalls, StaysOnTransaction call := by
  simp [mockCalls, StaysOnTransaction]

theorem mock_session_finalizes : ∃ finalized,
    (run (step mockOps)
      (SigningCoordinator.new (MockSigner.federation .wsh) wshSession) mockCalls).finalize
        mockExtract mockFinalize = .ok finalized := by
  have answered : ((run (step mockOps)
      (SigningCoordinator.new (MockSigner.federation .wsh) wshSession) mockCalls).finalize
        mockExtract mockFinalize).toBool = true := by decide +kernel
  cases outcome : (run (step mockOps)
      (SigningCoordinator.new (MockSigner.federation .wsh) wshSession) mockCalls).finalize
        mockExtract mockFinalize with
  | error stop =>
      rw [outcome] at answered
      cases answered
  | ok finalized => exact ⟨finalized, rfl⟩

theorem approved_payments_settle_mock : ∃ finalized,
    Settles (MockSigner.federation .wsh) (sessionOf wshInput) mockApproved
      (fun _ => false)
      (run (step mockOps)
        (SigningCoordinator.new (MockSigner.federation .wsh) wshSession)
        mockCalls).signed
      finalized := by
  obtain ⟨finalized, done⟩ := mock_session_finalizes
  refine ⟨finalized.transaction, ?_⟩
  have verified : verifyPsbtOutputs mockPrinting (sessionOf wshInput)
      mockApproved (fun _ => false) = .ok () := by decide +kernel
  exact approved_payments_settle (PsbtOps.key_wise_merges _) mock_fills_in
    (UnsignedSession.new_eq_ok.mpr ⟨rfl, by
      rw [← UnsignedSession.total_sigs_eq_zero]
      exact wshSession.unsigned⟩)
    verified mock_calls_stay mock_finalize_stays done

/-! ### The transaction id -/

def NoScriptSig (psbt : Psbt) : Prop := ∀ input ∈ psbt.inputs, input.finalScriptSig = none

/-- Native segwit inputs are signed and finalized without a `script_sig`. -/
def KeepsScriptSigs (change : Psbt → Psbt × Except String Bool) : Prop :=
  ∀ psbt, NoScriptSig psbt → NoScriptSig (change psbt).1

def BringsNoScriptSig : Call → Prop
  | .request sign => KeepsScriptSigs sign
  | .receive _ returned => NoScriptSig returned

def IgnoresWitness (ops : PsbtOps) (extract : ExtractOps) : Prop :=
  ∀ transaction : SignedTransaction, (∀ input ∈ transaction.input, input.scriptSig = []) →
    extract.computeTxid transaction = ops.computeTxid transaction.unsigned

theorem fill_inputs_script_sigs {outpoints : List OutPoint} {inputs : List PsbtInput}
    (none : ∀ input ∈ inputs, input.finalScriptSig = none) :
    ∀ input ∈ fillInputs outpoints inputs, input.scriptSig = [] := by
  induction outpoints generalizing inputs with
  | nil =>
      intro input member
      cases member
  | cons outpoint outpoints ih =>
      cases inputs with
      | nil =>
          rw [fillInputs, List.forall_mem_cons]
          exact ⟨rfl, ih none⟩
      | cons input inputs =>
          rw [List.forall_mem_cons] at none
          rw [fillInputs, List.forall_mem_cons, none.1]
          exact ⟨rfl, ih none.2⟩

theorem merge_inputs_script_sigs {bases others : List PsbtInput}
    (base : ∀ input ∈ bases, input.finalScriptSig = none)
    (other : ∀ input ∈ others, input.finalScriptSig = none) :
    ∀ input ∈ Psbt.mergeInputs bases others, input.finalScriptSig = none := by
  induction bases generalizing others with
  | nil => cases others <;> simp [Psbt.mergeInputs]
  | cons first bases ih =>
      cases others with
      | nil => exact base
      | cons second others =>
          rw [List.forall_mem_cons] at base other
          rw [Psbt.mergeInputs, List.forall_mem_cons]
          refine ⟨?_, ih base.2 other.2⟩
          rw [PsbtInput.merge, base.1, other.1]
          rfl

theorem step_script_sigs (keyWise : ops.MergesKeyWise) {coordinator : SigningCoordinator}
    {call : Call} (brings : BringsNoScriptSig call)
    (none : NoScriptSig coordinator.psbt) : NoScriptSig (coordinator.step ops call).psbt := by
  cases call with
  | request sign =>
      have kept := brings coordinator.psbt none
      simp only [step, requestSignatures]
      cases answered : sign coordinator.psbt with
      | mk psbt answer =>
          rw [answered] at kept
          cases answer with
          | error reason => exact kept
          | ok done => exact kept
  | receive id returned =>
      cases coordinator.receive_signature_cases ops id returned with
      | inl accepted =>
          obtain ⟨next, answer⟩ := accepted
          rw [step, answer]
          obtain ⟨signer, merged, -, -, combined, -, rfl⟩ := receive_signature_ok.mp answer
          rw [NoScriptSig, keyWise.inputs combined]
          exact merge_inputs_script_sigs none brings
      | inr refused =>
          obtain ⟨cause, answer⟩ := refused
          rw [step, answer]
          exact none

/-- The id of the transaction is known before anyone signs, as long as no device
hands in a `script_sig`. -/
theorem txid_known_in_advance (keyWise : ops.MergesKeyWise) (fills : FillsIn extract)
    (ignores : IgnoresWitness ops extract) (bare : NoScriptSig session.asPsbt)
    (stays : ∀ call ∈ calls, StaysOnTransaction call)
    (brings : ∀ call ∈ calls, BringsNoScriptSig call)
    (finalizeStays : KeepsTransaction finalizePsbt) (finalizeBare : KeepsScriptSigs finalizePsbt)
    (done : (run (step ops) (SigningCoordinator.new federation session) calls).finalize extract
      finalizePsbt = .ok finalized) :
    finalized.txid extract = ops.computeTxid session.asPsbt.unsignedTx := by
  have preserved (coordinator : SigningCoordinator) (call : Call) (bare : BringsNoScriptSig call)
      (before : NoScriptSig coordinator.psbt) : NoScriptSig (coordinator.step ops call).psbt :=
    step_script_sigs keyWise bare before
  have none : NoScriptSig
      (run (step ops) (SigningCoordinator.new federation session) calls).psbt :=
    run_each preserved bare brings
  obtain ⟨-, answer, extracted⟩ := finalize_eq_ok.mp done
  have finalNone := finalizeBare _ none
  rw [answer] at finalNone
  rw [FinalizedPsbt.txid, ignores, session_unsigned keyWise fills stays finalizeStays done]
  rw [fills _ _ extracted]
  exact fill_inputs_script_sigs finalNone

theorem mock_finalize_bare : KeepsScriptSigs mockFinalize := by
  intro psbt bare
  unfold mockFinalize
  split
  · intro input member
    obtain ⟨before, -, rfl⟩ := List.mem_map.mp member
    rfl
  · exact bare

theorem mock_calls_bare : ∀ call ∈ mockCalls, BringsNoScriptSig call := by
  simp [mockCalls, BringsNoScriptSig, NoScriptSig, sessionOf, signedBy,
    wshInput, PsbtInput.empty]

theorem txid_known_in_advance_mock : ∃ finalized : FinalizedPsbt,
    finalized.txid mockExtract =
      mockOps.computeTxid wshSession.asPsbt.unsignedTx := by
  obtain ⟨finalized, done⟩ := mock_session_finalizes
  refine ⟨finalized, ?_⟩
  have bare : NoScriptSig wshSession.asPsbt := by
    intro input member
    rw [List.mem_singleton.mp member]
    rfl
  exact txid_known_in_advance (PsbtOps.key_wise_merges _) mock_fills_in (fun _ _ => rfl) bare
    mock_calls_stay mock_calls_bare mock_finalize_stays mock_finalize_bare done

/-! ### Spends that the wallet builds -/

/-- The wallet builds an unsigned PSBT that pays the recipient, and what else it
pays goes to scripts it holds afterwards. -/
structure BuildsSpends {Wallet : Type} (build : WalletBuild Wallet)
    (isMine : Wallet → ScriptBuf → Bool) : Prop where
  outputs : ∀ {wallet after recipientSpk amount feeRate psbt},
    build wallet recipientSpk amount feeRate = (after, .ok psbt) → ∃ change : List TxOut,
      psbt.unsignedTx.output.Perm (⟨amount, recipientSpk⟩ :: change) ∧
        ∀ txout ∈ change, isMine after txout.scriptPubkey = true
  unsigned : ∀ {wallet after recipientSpk amount feeRate psbt},
    build wallet recipientSpk amount feeRate = (after, .ok psbt) →
      ¬ UnsignedSession.PartiallySigned psbt

theorem built_spend_verified {Wallet : Type} {build : WalletBuild Wallet}
    {isMine : Wallet → ScriptBuf → Bool} (builds : BuildsSpends build isMine)
    {wallet after : Wallet} {recipientSpk : ScriptBuf} {amount : Amount} {feeRate : FeeRate}
    (built : buildSpend build wallet recipientSpk amount feeRate = (after, .ok psbt)) :
    verifyPsbtOutputs printing psbt [⟨recipientSpk, amount⟩] (isMine after) = .ok () := by
  obtain ⟨change, outputs, owned⟩ := builds.outputs (build_spend_eq_ok.mp built)
  have paid : (psbt.unsignedTx.output.map txOutPayment : Multiset Payment) =
      (recipientSpk, amount) ::ₘ (change.map txOutPayment : Multiset Payment) :=
    Multiset.coe_eq_coe.mpr (outputs.map txOutPayment)
  rw [verify_ok_iff_settles, settle_eq_zero_iff, Settled, paid]
  constructor
  · exact Multiset.cons_le_cons _ (Multiset.zero_le _)
  · intro payment left
    have rest : ((recipientSpk, amount) ::ₘ (change.map txOutPayment : Multiset Payment)) -
        ([(⟨recipientSpk, amount⟩ : ExpectedOutput)].map ExpectedOutput.payment :
          Multiset Payment) = (change.map txOutPayment : Multiset Payment) := by
      show _ - {(recipientSpk, amount)} = _
      rw [Multiset.sub_singleton, Multiset.erase_cons_head]
    rw [rest] at left
    obtain ⟨txout, member, rfl⟩ := List.mem_map.mp left
    exact owned txout member

/-- A spend that the wallet builds passes both entry checks, and whatever session
signs it, what is broadcast pays the recipient and nobody else. -/
theorem built_spend_settles {Wallet : Type} {build : WalletBuild Wallet}
    {isMine : Wallet → ScriptBuf → Bool} (builds : BuildsSpends build isMine)
    (keyWise : ops.MergesKeyWise) (fills : FillsIn extract)
    {wallet after : Wallet} {recipientSpk : ScriptBuf} {amount : Amount} {feeRate : FeeRate}
    (built : buildSpend build wallet recipientSpk amount feeRate = (after, .ok psbt))
    (foreignRecipient : isMine after recipientSpk = false) :
    ∃ session, UnsignedPsbt.new psbt = .ok session ∧
      verifyPsbtOutputs printing psbt [⟨recipientSpk, amount⟩] (isMine after) = .ok () ∧
      ∀ (federation : Federation) (calls : List Call) (finalizePsbt : WalletFinalize)
        (finalized : FinalizedPsbt),
        (∀ call ∈ calls, StaysOnTransaction call) → KeepsTransaction finalizePsbt →
        (run (step ops) (SigningCoordinator.new federation session) calls).finalize extract
          finalizePsbt = .ok finalized →
        foreign (isMine after) (finalized.transaction.output.map txOutPayment) =
          {(recipientSpk, amount)} := by
  have verified : verifyPsbtOutputs printing psbt [⟨recipientSpk, amount⟩] (isMine after) =
      .ok () := built_spend_verified builds built
  have unsigned := builds.unsigned (build_spend_eq_ok.mp built)
  have wrapped : UnsignedPsbt.new psbt =
      .ok ⟨psbt, UnsignedSession.total_sigs_eq_zero.mpr unsigned⟩ :=
    UnsignedSession.new_eq_ok.mpr ⟨rfl, unsigned⟩
  refine ⟨_, wrapped, verified, ?_⟩
  intro federation calls finalizePsbt finalized stays finalizeStays done
  have outputs := congrArg Transaction.output
    (session_unsigned keyWise fills stays finalizeStays done)
  obtain ⟨contained, owned⟩ := settled_of_verified verified
  have paid := foreign_of_settled contained owned
  rw [← outputs] at paid
  apply paid.trans
  simp [foreign, ExpectedOutput.payment, foreignRecipient]

def changeScript : ScriptBuf := 0x00 :: 0x20 :: List.replicate 32 0x33

/-- A wallet of one coin of 100000 satoshi, which pays 1000 in fees. -/
def mockBuild : WalletBuild Unit := fun wallet recipientSpk amount _ =>
  if amount.sat + 1000 ≤ 100000 then
    (wallet, .ok (⟨{ sessionTx with
      output := [⟨amount, recipientSpk⟩,
        ⟨.fromSat (UInt64.ofNat (99000 - amount.sat)), changeScript⟩] }, [wshInput]⟩))
  else (wallet, .error "Insufficient funds")

def mockIsMine : Unit → ScriptBuf → Bool := fun _ script => script == changeScript

theorem mock_builds_spends : BuildsSpends mockBuild mockIsMine := by
  constructor
  · intro wallet after recipientSpk amount feeRate psbt built
    unfold mockBuild at built
    split at built
    · cases built
      refine ⟨_, List.Perm.refl _, ?_⟩
      intro txout member
      rw [List.mem_singleton.mp member]
      exact beq_self_eq_true changeScript
    · cases built
  · intro wallet after recipientSpk amount feeRate psbt built
    unfold mockBuild at built
    split at built
    · cases built
      exact UnsignedSession.total_sigs_eq_zero.mp wshSession.unsigned
    · cases built

def mockSpend : Psbt :=
  ⟨{ sessionTx with
    output := [⟨.fromSat 90000, mockRecipient⟩, ⟨.fromSat 9000, changeScript⟩] }, [wshInput]⟩

theorem mock_spend_built :
    buildSpend mockBuild () mockRecipient (.fromSat 90000) 250 = ((), .ok mockSpend) := by
  apply build_spend_eq_ok.mpr
  rw [mockBuild, if_pos (by decide)]
  rfl

theorem built_spend_settles_mock :
    ∃ session, UnsignedPsbt.new mockSpend = .ok session ∧
      verifyPsbtOutputs mockPrinting mockSpend [⟨mockRecipient, .fromSat 90000⟩]
        (mockIsMine ()) = .ok () ∧
      ∀ (federation : Federation) (calls : List Call) (finalizePsbt : WalletFinalize)
        (finalized : FinalizedPsbt),
        (∀ call ∈ calls, StaysOnTransaction call) → KeepsTransaction finalizePsbt →
        (run (step mockOps) (SigningCoordinator.new federation session) calls).finalize mockExtract
          finalizePsbt = .ok finalized →
        foreign (mockIsMine ()) (finalized.transaction.output.map txOutPayment) =
          {(mockRecipient, .fromSat 90000)} :=
  built_spend_settles mock_builds_spends (PsbtOps.key_wise_merges _) mock_fills_in
    mock_spend_built (by decide)

end EmvaultCore.SpendPipeline
