import EmvaultCore.MergeFrame

/-!
# Returned PSBTs that arrive twice or astray

The devices answer over a channel that the library does not control. A PSBT that
was accepted once is never accepted again, under any id, and neither repeated
PSBTs nor those of other transactions or of strangers leave a trace in a session.
-/

namespace EmvaultCore.Deliveries

open Library.Runs SigningCoordinator SignedSet SignatureOrder

/-- Signing this PSBT in place stays on the transaction and takes no partial
signature away, also when it fails. A wallet that finalizes an input takes its
partial signatures away, so it keeps them only as long as it can finalize none. -/
structure KeepsSignatures (sign : WalletSign) (psbt : Psbt) : Prop where
  unsignedTx : (sign psbt).1.unsignedTx = psbt.unsignedTx
  inputs : (sign psbt).1.inputs.length = psbt.inputs.length
  signed : ∀ index key, SignedAt psbt index key → SignedAt (sign psbt).1 index key

structure Grows (before after : SigningCoordinator) : Prop where
  federation : after.federation = before.federation
  unsignedTx : after.psbt.unsignedTx = before.psbt.unsignedTx
  inputs : after.psbt.inputs.length = before.psbt.inputs.length
  signed : ∀ index key, SignedAt before.psbt index key → SignedAt after.psbt index key

/-- The calls that change the session: every request, and the PSBTs it accepts. -/
def effective (ops : PsbtOps) : SigningCoordinator → List Call → List Call
  | _, [] => []
  | coordinator, .request sign :: rest =>
      .request sign :: effective ops (coordinator.step ops (.request sign)) rest
  | coordinator, .receive id returned :: rest =>
      let later := effective ops (coordinator.step ops (.receive id returned)) rest
      if (coordinator.receiveSignature ops id returned).2.toBool then
        .receive id returned :: later
      else later

def returns : List Call → List (SignerId × Psbt)
  | [] => []
  | .request _ :: rest => returns rest
  | .receive id returned :: rest => (id, returned) :: returns rest

def Covered (session returned : Psbt) : Prop :=
  ∀ index key, index < session.inputs.length → SignedAt returned index key →
    SignedAt session index key

def Adds (session returned : Psbt) : Prop :=
  ∃ index key, index < session.inputs.length ∧ SignedAt returned index key ∧
    ¬ SignedAt session index key

def KeepsSigned (coordinator : SigningCoordinator) : Call → Prop
  | .request sign => KeepsSignatures sign coordinator.psbt
  | .receive _ _ => True

def EachBringsNew (entries : List (SignerId × Psbt)) : Prop :=
  ∀ (number : Nat) (entry : SignerId × Psbt), entries[number]? = some entry →
    ∃ index key, SignedAt entry.2 index key ∧
      ∀ earlier ∈ entries.take number, ¬ SignedAt earlier.2 index key

theorem Grows.refl (coordinator : SigningCoordinator) : Grows coordinator coordinator :=
  ⟨rfl, rfl, rfl, fun _ _ held => held⟩

theorem Grows.trans {first middle last : SigningCoordinator} (earlier : Grows first middle)
    (later : Grows middle last) : Grows first last := by
  constructor
  · exact later.federation.trans earlier.federation
  · exact later.unsignedTx.trans earlier.unsignedTx
  · exact later.inputs.trans earlier.inputs
  · exact fun index key held => later.signed index key (earlier.signed index key held)

theorem Covered.grows {before after : SigningCoordinator} {returned : Psbt}
    (covered : Covered before.psbt returned) (grows : Grows before after) :
    Covered after.psbt returned := by
  intro index key inside brought
  rw [grows.inputs] at inside
  exact grows.signed index key (covered index key inside brought)

theorem nodup_of_each_new {entries : List (SignerId × Psbt)} (fresh : EachBringsNew entries) :
    (entries.map Prod.snd).Nodup := by
  rw [List.nodup_iff_getElem?_ne_getElem?]
  intro earlier later before bound same
  rw [List.length_map] at bound
  have first : entries[earlier]? = some entries[earlier] :=
    List.getElem?_eq_getElem (before.trans bound)
  have second : entries[later]? = some entries[later] := List.getElem?_eq_getElem bound
  rw [List.getElem?_map, List.getElem?_map, first, second] at same
  obtain ⟨index, key, brought, absent⟩ := fresh later _ second
  have among : entries[earlier] ∈ entries.take later :=
    List.mem_take_iff_getElem.mpr ⟨earlier, by omega, rfl⟩
  apply absent _ among
  rw [Option.some.inj same]
  exact brought

section Effective

variable {ops : PsbtOps} {coordinator : SigningCoordinator}

theorem run_effective (calls : List Call) :
    run (step ops) coordinator (effective ops coordinator calls) =
      run (step ops) coordinator calls := by
  induction calls generalizing coordinator with
  | nil => rfl
  | cons call rest ih =>
      cases call with
      | request sign => exact ih
      | receive id returned =>
          rw [effective]
          split
          · exact ih
          · next refused =>
              have unchanged : coordinator.step ops (.receive id returned) = coordinator := by
                cases coordinator.receive_signature_cases ops id returned with
                | inl accepted =>
                    obtain ⟨next, answer⟩ := accepted
                    rw [answer] at refused
                    exact absurd rfl refused
                | inr failed =>
                    obtain ⟨cause, answer⟩ := failed
                    rw [step, answer]
              rw [run_cons, unchanged]
              exact ih

theorem effective_sublist (calls : List Call) :
    (effective ops coordinator calls).Sublist calls := by
  induction calls generalizing coordinator with
  | nil => exact .slnil
  | cons call rest ih =>
      cases call with
      | request sign => exact ih.cons_cons _
      | receive id returned =>
          rw [effective]
          split
          · exact ih.cons_cons _
          · exact ih.cons _

end Effective

section Sessions

variable {ops : PsbtOps} (keyWise : ops.MergesKeyWise) {coordinator next : SigningCoordinator}
  {id : SignerId} {returned : Psbt}

include keyWise

theorem accepted_adds (answer : coordinator.receiveSignature ops id returned = (next, .ok ())) :
    Adds coordinator.psbt returned := by
  obtain ⟨signer, merged, -, -, combined, found, -⟩ := receive_signature_ok.mp answer
  cases (found_new_adds keyWise combined).mp found with
  | inl derived =>
      obtain ⟨index, input, other, key, given, present, brought, absent, -⟩ := derived
      exact ⟨index, key, (List.getElem?_eq_some_iff.mp given).1, ⟨other, present, brought⟩,
        mt (signed_at_input given).mp absent⟩
  | inr tap =>
      obtain ⟨index, input, other, key, given, present, brought, absent, -⟩ := tap
      exact ⟨index, key, (List.getElem?_eq_some_iff.mp given).1, ⟨other, present, brought⟩,
        mt (signed_at_input given).mp absent⟩

theorem accepted_covers (answer : coordinator.receiveSignature ops id returned = (next, .ok ())) :
    Covered next.psbt returned := by
  obtain ⟨signer, merged, -, -, combined, -, rfl⟩ := receive_signature_ok.mp answer
  intro index key inside brought
  have size : merged.inputs.length = coordinator.psbt.inputs.length := by
    rw [keyWise.inputs combined, Psbt.merge_inputs_length]
  exact (signed_at_merged keyWise combined index key).mpr (.inr ⟨size ▸ inside, brought⟩)

theorem covered_refused (id : SignerId) (covered : Covered coordinator.psbt returned) :
    coordinator.step ops (.receive id returned) = coordinator := by
  cases coordinator.receive_signature_cases ops id returned with
  | inl accepted =>
      obtain ⟨next, answer⟩ := accepted
      obtain ⟨index, key, inside, brought, fresh⟩ := accepted_adds keyWise answer
      exact absurd (covered index key inside brought) fresh
  | inr refused =>
      obtain ⟨cause, answer⟩ := refused
      rw [step, answer]

theorem step_grows {call : Call} (keeps : KeepsSigned coordinator call) :
    Grows coordinator (coordinator.step ops call) := by
  cases call with
  | request sign =>
      obtain ⟨sameTx, sameInputs, sameSigned⟩ := keeps
      simp only [step, requestSignatures]
      cases answered : sign coordinator.psbt with
      | mk psbt answer =>
          rw [answered] at sameTx sameInputs sameSigned
          cases answer with
          | error reason => exact ⟨rfl, sameTx, sameInputs, sameSigned⟩
          | ok done => exact ⟨rfl, sameTx, sameInputs, sameSigned⟩
  | receive id returned =>
      cases coordinator.receive_signature_cases ops id returned with
      | inl accepted =>
          obtain ⟨next, answer⟩ := accepted
          rw [step, answer]
          obtain ⟨signer, merged, -, -, combined, -, rfl⟩ := receive_signature_ok.mp answer
          constructor
          · rfl
          · exact keyWise.transaction combined
          · rw [keyWise.inputs combined, Psbt.merge_inputs_length]
          · intro index key held
            exact (signed_at_merged keyWise combined index key).mpr (.inl held)
      | inr refused =>
          obtain ⟨cause, answer⟩ := refused
          rw [step, answer]
          exact .refl coordinator

/-- Each accepted PSBT has a signature that neither the session as it is now nor the
PSBTs accepted before it have. -/
theorem effective_adds {calls : List Call} (keeping : Along (step ops) KeepsSigned coordinator calls)
    {number : Nat} {entry : SignerId × Psbt}
    (accepted : (returns (effective ops coordinator calls))[number]? = some entry) :
    ∃ index key, index < coordinator.psbt.inputs.length ∧ SignedAt entry.2 index key ∧
      ¬ SignedAt coordinator.psbt index key ∧
      ∀ earlier ∈ (returns (effective ops coordinator calls)).take number,
        ¬ SignedAt earlier.2 index key := by
  induction calls generalizing coordinator number with
  | nil => simp [effective, returns] at accepted
  | cons call rest ih =>
      obtain ⟨keeps, later⟩ := keeping
      have grows : Grows coordinator (coordinator.step ops call) := step_grows keyWise keeps
      -- what is new later is new now
      have now {number : Nat} (found : (returns (effective ops (coordinator.step ops call)
          rest))[number]? = some entry) :
          ∃ index key, index < coordinator.psbt.inputs.length ∧ SignedAt entry.2 index key ∧
            ¬ SignedAt (coordinator.step ops call).psbt index key ∧
            ¬ SignedAt coordinator.psbt index key ∧
            ∀ earlier ∈ (returns (effective ops (coordinator.step ops call) rest)).take number,
              ¬ SignedAt earlier.2 index key := by
        obtain ⟨index, key, inside, brought, fresh, before⟩ := ih later found
        rw [grows.inputs] at inside
        exact ⟨index, key, inside, brought, fresh, fun held => fresh (grows.signed index key held),
          before⟩
      cases call with
      | request sign =>
          obtain ⟨index, key, inside, brought, -, fresh, before⟩ := now accepted
          exact ⟨index, key, inside, brought, fresh, before⟩
      | receive id returned =>
          rw [effective] at accepted ⊢
          split
          · next taken =>
              have answer := MergeFrame.accepted_of_ok taken
              rw [if_pos taken] at accepted
              cases number with
              | zero =>
                  cases accepted
                  obtain ⟨index, key, inside, brought, fresh⟩ := accepted_adds keyWise answer
                  exact ⟨index, key, inside, brought, fresh, by simp⟩
              | succ number =>
                  obtain ⟨index, key, inside, brought, fresh, held, before⟩ := now accepted
                  refine ⟨index, key, inside, brought, held, ?_⟩
                  intro earlier member
                  cases List.mem_cons.mp member with
                  | inl here =>
                      rw [here]
                      exact fun signed => fresh (accepted_covers keyWise answer index key
                        (grows.inputs ▸ inside) signed)
                  | inr beyond => exact before earlier beyond
          · next refused =>
              rw [if_neg refused] at accepted
              obtain ⟨index, key, inside, brought, -, fresh, before⟩ := now accepted
              exact ⟨index, key, inside, brought, fresh, before⟩

theorem effective_brings_new {calls : List Call}
    (keeping : Along (step ops) KeepsSigned coordinator calls) :
    EachBringsNew (returns (effective ops coordinator calls)) := by
  intro number entry accepted
  obtain ⟨index, key, -, brought, -, before⟩ := effective_adds keyWise keeping accepted
  exact ⟨index, key, brought, before⟩

theorem effective_addressed {calls : List Call}
    (keeping : Along (step ops) KeepsSigned coordinator calls) :
    ∀ entry ∈ returns (effective ops coordinator calls),
      ops.computeTxid entry.2.unsignedTx = ops.computeTxid coordinator.psbt.unsignedTx ∧
        coordinator.federation.contains entry.1 = true := by
  induction calls generalizing coordinator with
  | nil =>
      intro entry member
      cases member
  | cons call rest ih =>
      obtain ⟨keeps, later⟩ := keeping
      have grows : Grows coordinator (coordinator.step ops call) := step_grows keyWise keeps
      have rest := @ih (coordinator.step ops call) later
      rw [grows.unsignedTx, grows.federation] at rest
      cases call with
      | request sign => exact rest
      | receive id returned =>
          rw [effective]
          split
          · next accepted =>
              obtain ⟨signer, merged, found, txid, -, -, -⟩ :=
                receive_signature_ok.mp (MergeFrame.accepted_of_ok accepted)
              intro entry member
              cases List.mem_cons.mp member with
              | inl here =>
                  rw [here, Federation.contains, found]
                  exact ⟨txid, rfl⟩
              | inr beyond => exact rest entry beyond
          · exact rest

/-- Over every run, a session is what its requests and the accepted PSBTs make of
it, and each PSBT is accepted at most once, whatever id it comes with. -/
theorem at_most_once (start : SigningCoordinator) {calls : List Call}
    (keeping : Along (step ops) KeepsSigned start calls) :
    (effective ops start calls).Sublist calls ∧
      run (step ops) start (effective ops start calls) = run (step ops) start calls ∧
      (∀ entry ∈ returns (effective ops start calls),
        ops.computeTxid entry.2.unsignedTx = ops.computeTxid start.psbt.unsignedTx ∧
          start.federation.contains entry.1 = true) ∧
      EachBringsNew (returns (effective ops start calls)) ∧
      ((returns (effective ops start calls)).map Prod.snd).Nodup := by
  have fresh : EachBringsNew (returns (effective ops start calls)) :=
    effective_brings_new keyWise keeping
  refine ⟨effective_sublist calls, run_effective calls, effective_addressed keyWise keeping, fresh,
    nodup_of_each_new fresh⟩

end Sessions

/-! ### Noise -/

/-- A delivery that should not matter: a PSBT accepted before, one over another
transaction, or one in a stranger's name. -/
inductive Noise (ops : PsbtOps) (session : SigningCoordinator) (accepted : List Psbt) :
    Call → Prop where
  | repeated (id : SignerId) (returned : Psbt) (before : returned ∈ accepted) :
      Noise ops session accepted (.receive id returned)
  | misrouted (id : SignerId) (returned : Psbt)
      (other : ops.computeTxid returned.unsignedTx ≠ ops.computeTxid session.psbt.unsignedTx) :
      Noise ops session accepted (.receive id returned)
  | stranger (id : SignerId) (returned : Psbt) (unknown : session.federation.contains id = false) :
      Noise ops session accepted (.receive id returned)

def acceptedAfter (ops : PsbtOps) (session : SigningCoordinator) (accepted : List Psbt) :
    Call → List Psbt
  | .request _ => accepted
  | .receive id returned =>
      if (session.receiveSignature ops id returned).2.toBool then returned :: accepted
      else accepted

/-- The calls with any amount of noise in between. -/
inductive Overheard (ops : PsbtOps) :
    SigningCoordinator → List Psbt → List Call → List Call → Prop where
  | done (session : SigningCoordinator) (accepted : List Psbt) :
      Overheard ops session accepted [] []
  | heard {session : SigningCoordinator} {accepted : List Psbt} {calls noisy : List Call}
      (call : Call)
      (rest : Overheard ops (session.step ops call) (acceptedAfter ops session accepted call)
        calls noisy) :
      Overheard ops session accepted (call :: calls) (call :: noisy)
  | noise {session : SigningCoordinator} {accepted : List Psbt} {calls noisy : List Call}
      {call : Call} (stray : Noise ops session accepted call)
      (rest : Overheard ops session accepted calls noisy) :
      Overheard ops session accepted calls (call :: noisy)

section Absorbed

variable {ops : PsbtOps} (keyWise : ops.MergesKeyWise) {session : SigningCoordinator}
  {accepted : List Psbt} {call : Call}

include keyWise

theorem noise_unchanged (covered : ∀ returned ∈ accepted, Covered session.psbt returned)
    (stray : Noise ops session accepted call) : session.step ops call = session := by
  cases stray with
  | repeated id returned before => exact covered_refused keyWise id (covered returned before)
  | misrouted id returned other =>
      rw [step, receiveSignature]
      split
      · rfl
      · rw [if_pos other]
  | stranger id returned unknown =>
      rw [Federation.contains, Option.isSome_eq_false_iff, Option.isNone_iff_eq_none] at unknown
      rw [step, receiveSignature, unknown]

theorem accepted_after_covered (keeps : KeepsSigned session call)
    (covered : ∀ returned ∈ accepted, Covered session.psbt returned) :
    ∀ returned ∈ acceptedAfter ops session accepted call,
      Covered (session.step ops call).psbt returned := by
  have grows : Grows session (session.step ops call) := step_grows keyWise keeps
  intro returned member
  cases call with
  | request sign => exact (covered returned member).grows grows
  | receive id brought =>
      rw [acceptedAfter] at member
      split at member
      · next accepted =>
          cases List.mem_cons.mp member with
          | inl here =>
              rw [here]
              exact accepted_covers keyWise (MergeFrame.accepted_of_ok accepted)
          | inr before => exact (covered returned before).grows grows
      · exact (covered returned member).grows grows

theorem overheard_absorbed {calls noisy : List Call}
    (overheard : Overheard ops session accepted calls noisy)
    (keeping : Along (step ops) KeepsSigned session calls)
    (covered : ∀ returned ∈ accepted, Covered session.psbt returned) :
    run (step ops) session noisy = run (step ops) session calls := by
  induction overheard with
  | done session accepted => rfl
  | heard call rest ih =>
      exact ih keeping.2 (accepted_after_covered keyWise keeping.1 covered)
  | noise stray rest ih =>
      rw [run_cons, noise_unchanged keyWise covered stray]
      exact ih keeping covered

/-- Repeated, misrouted and foreign deliveries leave no trace. -/
theorem noise_absorbed {calls noisy : List Call}
    (keeping : Along (step ops) KeepsSigned session calls)
    (overheard : Overheard ops session [] calls noisy) :
    run (step ops) session noisy = run (step ops) session calls :=
  overheard_absorbed keyWise overheard keeping fun _ none => absurd none List.not_mem_nil

end Absorbed

/-! A request that fails, one whose wallet signs for the second member, and the first
member's PSBT; and with them noise of all three kinds. -/

def firstReturn : Psbt := sessionOf (signedBy [MockSigner.first])

def otherTx : Psbt := ⟨{ sessionTx with lockTime := 1 }, [signedBy [MockSigner.first]]⟩

def failing : WalletSign := fun psbt => (psbt, .error "no key")

def withSecondSignature (input : PsbtInput) : PsbtInput :=
  { input with
    partialSigs := input.partialSigs.insert (PublicKey.new MockSigner.second.xpub.publicKey)
      [0x30, 0x02] }

def signSecond : WalletSign := signEach withSecondSignature

def mockRun : List Call :=
  [.request failing, .request signSecond, .receive MockSigner.first.id firstReturn]

def noisyCalls : List Call :=
  [.receive MockSigner.first.id otherTx, .request failing, .request signSecond,
    .receive MockSigner.third.id firstReturn, .receive MockSigner.first.id firstReturn,
    .receive MockSigner.second.id firstReturn, .receive MockSigner.first.id firstReturn]

theorem failing_keeps (psbt : Psbt) : KeepsSignatures failing psbt :=
  ⟨rfl, rfl, fun _ _ held => held⟩

theorem sign_second_keeps (psbt : Psbt) : KeepsSignatures signSecond psbt := by
  constructor
  · rfl
  · exact List.length_map _
  · intro index key held
    obtain ⟨input, given, member⟩ := held
    refine ⟨withSecondSignature input, ?_, Std.ExtTreeMap.mem_insert.mpr (.inr member)⟩
    simp [signSecond, signEach, given]

theorem noisy_calls_keeping : Along (step mockOps) KeepsSigned mockCoordinator noisyCalls :=
  ⟨trivial, failing_keeps _, sign_second_keeps _, trivial, trivial, trivial, trivial, trivial⟩

theorem mock_run_keeping : Along (step mockOps) KeepsSigned mockCoordinator mockRun :=
  ⟨failing_keeps _, sign_second_keeps _, trivial, trivial⟩

theorem noisy_calls_overheard :
    Overheard mockOps mockCoordinator [] mockRun noisyCalls := by
  apply Overheard.noise (.misrouted _ _ (by decide +kernel))
  apply Overheard.heard
  apply Overheard.heard
  apply Overheard.noise (.stranger _ _ (by decide +kernel))
  apply Overheard.heard
  have accepted : firstReturn ∈ acceptedAfter mockOps
      ((mockCoordinator.step mockOps (.request failing)).step mockOps (.request signSecond))
      [] (.receive MockSigner.first.id firstReturn) := by
    rw [acceptedAfter, if_pos (by decide +kernel)]
    exact List.mem_cons_self
  apply Overheard.noise (.repeated _ _ accepted)
  apply Overheard.noise (.repeated _ _ accepted)
  exact .done _ _

theorem noise_absorbed_mock :
    run (step mockOps) mockCoordinator noisyCalls = run (step mockOps) mockCoordinator mockRun :=
  noise_absorbed (PsbtOps.key_wise_merges _) mock_run_keeping noisy_calls_overheard

theorem at_most_once_mock :
    (effective mockOps mockCoordinator noisyCalls).Sublist noisyCalls ∧
      run (step mockOps) mockCoordinator (effective mockOps mockCoordinator noisyCalls) =
        run (step mockOps) mockCoordinator noisyCalls ∧
      (∀ entry ∈ returns (effective mockOps mockCoordinator noisyCalls),
        mockOps.computeTxid entry.2.unsignedTx =
          mockOps.computeTxid mockCoordinator.psbt.unsignedTx ∧
          mockCoordinator.federation.contains entry.1 = true) ∧
      EachBringsNew (returns (effective mockOps mockCoordinator noisyCalls)) ∧
      ((returns (effective mockOps mockCoordinator noisyCalls)).map Prod.snd).Nodup :=
  at_most_once (PsbtOps.key_wise_merges _) mockCoordinator noisy_calls_keeping

end EmvaultCore.Deliveries
