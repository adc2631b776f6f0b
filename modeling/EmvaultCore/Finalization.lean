import EmvaultCore.Migration
import EmvaultCore.SigningCoordinator

/-!
# From a signed PSBT to a transaction

The end of the pipeline: the combine and finalize functions that the apps call on
their own, and `SigningCoordinator::finalize`, which asks for enough counted
members first. The wallet and `extract_tx` belong to other libraries: a call is
given with what it does to the PSBT and what it answers.
-/

namespace EmvaultCore

/-- `PsbtError` with the variants that construction and finalization raise. -/
inductive FinalizeError where
  | psbt (cause : PsbtError)
  | insufficientSignatures (collected needed : Nat)
  | finalizationFailed (reason : String)
  | buildFailed (reason : String)
  | thresholdNotMet
  | extractFailed (reason : String)
deriving DecidableEq

structure TxIn where
  previousOutput : OutPoint
  scriptSig : ScriptBuf
  witness : List (List UInt8)
deriving DecidableEq

structure SignedTransaction where
  version : Int
  lockTime : Nat
  input : List TxIn
  output : List TxOut
deriving DecidableEq

def SignedTransaction.unsigned (transaction : SignedTransaction) : Transaction where
  version := transaction.version
  lockTime := transaction.lockTime
  input := transaction.input.map (·.previousOutput)
  output := transaction.output

abbrev WalletFinalize := Psbt → Psbt × Except String Bool

/-- `Psbt::extract_tx` and `Transaction::compute_txid`. -/
structure ExtractOps where
  extractTx : Psbt → Except String SignedTransaction
  computeTxid : SignedTransaction → Txid

structure FinalizedPsbt where
  psbt : Psbt
  transaction : SignedTransaction

def FinalizedPsbt.txid (extract : ExtractOps) (finalized : FinalizedPsbt) : Txid :=
  extract.computeTxid finalized.transaction

/-- `Wallet::build_tx` for one recipient and a fee rate, up to `finish`. -/
abbrev WalletBuild (Wallet : Type) :=
  Wallet → ScriptBuf → Amount → FeeRate → Wallet × Except String Psbt

def buildSpend {Wallet : Type} (build : WalletBuild Wallet) (wallet : Wallet)
    (recipientSpk : ScriptBuf) (amount : Amount) (feeRate : FeeRate) :
    Wallet × Except FinalizeError Psbt :=
  match build wallet recipientSpk amount feeRate with
  | (wallet, .error reason) => (wallet, .error (.buildFailed reason))
  | (wallet, .ok psbt) => (wallet, .ok psbt)

def combinePsbt (ops : PsbtOps) (base partialPsbt : Psbt) : Except PsbtError Psbt :=
  match ops.combine base partialPsbt with
  | .error reason => .error (.bitcoin reason)
  | .ok merged => .ok merged

/-- The wallet is given by what it does with the default options. -/
def finalizeAndExtract (extract : ExtractOps) (finalizePsbt : WalletFinalize) (psbt : Psbt) :
    Except FinalizeError (SignedTransaction × Txid) :=
  match finalizePsbt psbt with
  | (_, .error reason) => .error (.finalizationFailed reason)
  | (_, .ok false) => .error .thresholdNotMet
  | (psbt, .ok true) =>
      match extract.extractTx psbt with
      | .error reason => .error (.extractFailed reason)
      | .ok transaction => .ok (transaction, extract.computeTxid transaction)

namespace SigningCoordinator

/-- The coordinator is consumed, also by a call that fails. -/
def finalize (extract : ExtractOps) (coordinator : SigningCoordinator)
    (finalizePsbt : WalletFinalize) : Outcome FinalizeError FinalizedPsbt := do
  let complete ← coordinator.isComplete.mapCause .psbt
  if complete = false then
    .error (.error (.insufficientSignatures coordinator.signaturesCollected
      coordinator.federation.threshold.toNat))
  else
    match finalizePsbt coordinator.psbt with
    | (_, .error reason) => .error (.error (.finalizationFailed reason))
    | (_, .ok false) => .error (.error (.finalizationFailed
        "BDK reported the PSBT could not be finalized"))
    | (psbt, .ok true) =>
        match extract.extractTx psbt with
        | .error reason => .error (.error (.finalizationFailed reason))
        | .ok transaction => .ok { psbt, transaction }

section Specification

variable {extract : ExtractOps} {coordinator : SigningCoordinator}
  {finalizePsbt : WalletFinalize} {finalized : FinalizedPsbt}

theorem is_complete_eq_ok {complete : Bool} :
    coordinator.isComplete = .ok complete ↔ coordinator.signed.card < 2 ^ 32 ∧
      (complete = true ↔ coordinator.federation.threshold.toNat ≤ coordinator.signed.card) := by
  unfold isComplete signaturesCollected
  by_cases counted : coordinator.signed.card < 2 ^ 32
  · rw [if_pos counted, Except.ok.injEq, eq_comm, Bool.eq_iff_iff, decide_eq_true_iff,
      and_iff_right counted]
  · rw [if_neg counted]
    exact iff_of_false (by simp) fun both => counted both.1

theorem finalize_eq_ok :
    coordinator.finalize extract finalizePsbt = .ok finalized ↔
      coordinator.isComplete = .ok true ∧
        finalizePsbt coordinator.psbt = (finalized.psbt, .ok true) ∧
        extract.extractTx finalized.psbt = .ok finalized.transaction := by
  rw [finalize, bind_eq_ok]
  constructor
  · intro answer
    obtain ⟨complete, counted, rest⟩ := answer
    rw [Outcome.map_cause_eq_ok] at counted
    cases complete with
    | false => cases rest
    | true =>
        rw [if_neg (by decide)] at rest
        split at rest
        · cases rest
        · cases rest
        · next psbt done =>
            split at rest
            · cases rest
            · next transaction extracted =>
                cases rest
                exact ⟨counted, done, extracted⟩
  · intro conditions
    obtain ⟨counted, done, extracted⟩ := conditions
    refine ⟨true, Outcome.map_cause_eq_ok.mpr counted, ?_⟩
    rw [if_neg (by decide), done]
    simp only [extracted]

theorem finalize_insufficient {collected needed : Nat} :
    coordinator.finalize extract finalizePsbt =
        .error (.error (.insufficientSignatures collected needed)) ↔
      coordinator.isComplete = .ok false ∧ collected = coordinator.signed.card ∧
        needed = coordinator.federation.threshold.toNat := by
  rw [finalize]
  cases counted : coordinator.isComplete with
  | error stop =>
      cases stop <;> simp [Outcome.mapCause, bind, Except.bind]
  | ok complete =>
      cases complete with
      | false =>
          simp only [Outcome.mapCause, bind, Except.bind, if_true, Except.error.injEq,
            Stop.error.injEq, FinalizeError.insufficientSignatures.injEq, true_and,
            signaturesCollected]
          exact and_congr eq_comm eq_comm
      | true =>
          simp only [Outcome.mapCause, bind, Except.bind, Bool.true_eq_false, if_false]
          split
          · simp
          · simp
          · split <;> simp

theorem finalize_returns (counted : coordinator.signed.card < 2 ^ 32) :
    (coordinator.finalize extract finalizePsbt).Returns := by
  have answered : coordinator.isComplete =
      .ok (decide (coordinator.federation.threshold.toNat ≤ coordinator.signed.card)) :=
    is_complete_eq_ok.mpr ⟨counted, decide_eq_true_iff⟩
  intro message
  rw [finalize, answered]
  simp only [Outcome.mapCause, bind, Except.bind]
  split
  · simp
  · split
    · simp
    · simp
    · split <;> simp

end Specification

end SigningCoordinator

section Primitives

variable {ops : PsbtOps} {extract : ExtractOps} {finalizePsbt : WalletFinalize}

theorem combine_psbt_eq_ok {base partialPsbt merged : Psbt} :
    combinePsbt ops base partialPsbt = .ok merged ↔ ops.combine base partialPsbt = .ok merged := by
  unfold combinePsbt
  cases ops.combine base partialPsbt <;> simp

theorem finalize_and_extract_eq_ok {psbt : Psbt} {transaction : SignedTransaction} {txid : Txid} :
    finalizeAndExtract extract finalizePsbt psbt = .ok (transaction, txid) ↔
      ∃ done, finalizePsbt psbt = (done, .ok true) ∧ extract.extractTx done = .ok transaction ∧
        txid = extract.computeTxid transaction := by
  unfold finalizeAndExtract
  constructor
  · intro answer
    split at answer
    · cases answer
    · cases answer
    · next done finished =>
        split at answer
        · cases answer
        · next extracted =>
            cases answer
            exact ⟨done, finished, extracted, rfl⟩
  · intro conditions
    obtain ⟨done, finished, extracted, rfl⟩ := conditions
    rw [finished]
    simp only [extracted]

theorem build_spend_eq_ok {Wallet : Type} {build : WalletBuild Wallet} {wallet after : Wallet}
    {recipientSpk : ScriptBuf} {amount : Amount} {feeRate : FeeRate} {psbt : Psbt} :
    buildSpend build wallet recipientSpk amount feeRate = (after, .ok psbt) ↔
      build wallet recipientSpk amount feeRate = (after, .ok psbt) := by
  unfold buildSpend
  split <;> simp [*]

end Primitives

end EmvaultCore
