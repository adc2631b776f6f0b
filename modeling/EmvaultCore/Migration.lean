import EmvaultCore.Psbt
import Mathlib.Data.List.Basic
import Mathlib.Algebra.BigOperators.Group.List.Basic

/-!
# Sweep plans

Plans that move the coins of an old federation's accounts to a new federation.
One account pays all fees: in a single transaction, or along a chain in which
each transaction spends the fee change of the one before it.
-/

namespace EmvaultCore

structure Address where
  network : Network
  scriptPubkey : ScriptBuf
deriving DecidableEq

/-- The fields of `bdk_wallet::LocalOutput` that a sweep reads. -/
structure LocalOutput where
  outpoint : OutPoint
  txout : TxOut
deriving DecidableEq

/-- Satoshi per 1000 weight units. -/
abbrev FeeRate := Fin (2 ^ 64)

abbrev Weight := Fin (2 ^ 64)

/-- `Weight::from_vb` and `FeeRate::fee_wu` of the `bitcoin` crate; `none` is an
overflow. -/
structure FeeArithmetic where
  weightFromVb : Nat → Option Weight
  feeWu : FeeRate → Weight → Option Amount

def FeeArithmetic.checked : FeeArithmetic where
  weightFromVb vb := if fits : vb * 4 < 2 ^ 64 then some ⟨vb * 4, fits⟩ else none
  feeWu feeRate weight :=
    if fits : feeRate.val * weight.val + 999 < 2 ^ 64 then
      some ⟨(feeRate.val * weight.val + 999) / 1000,
        Nat.lt_of_le_of_lt (Nat.div_le_self _ _) fits⟩
    else none

namespace Migration

structure AccountUtxoSet where
  accountIdx : UInt32
  utxos : List LocalOutput
  destinationAddress : Address
deriving DecidableEq

inductive SweepOutput where
  | customer (accountIdx : UInt32) (address : Address) (amount : Amount)
  | feeChange (accountIdx : UInt32) (amount : Amount)
deriving DecidableEq

structure SweepTransaction where
  sourceUtxos : List OutPoint
  outputs : List SweepOutput
  isFeeFinal : Bool
  psbt : Option Psbt

structure MigrationPlan where
  sweepTransactions : List SweepTransaction
  totalFees : Amount
  utxoCount : Nat

namespace SweepOutput

def accountIdx : SweepOutput → UInt32
  | .customer accountIdx _ _ => accountIdx
  | .feeChange accountIdx _ => accountIdx

def amount : SweepOutput → Amount
  | .customer _ _ amount => amount
  | .feeChange _ amount => amount

end SweepOutput

namespace AccountUtxoSet

def outpoints (set : AccountUtxoSet) : List OutPoint := set.utxos.map (·.outpoint)

def totalValue (set : AccountUtxoSet) : Outcome Empty Amount :=
  (set.utxos.map (·.txout.value)).foldlM Amount.add Amount.zero

def customer (set : AccountUtxoSet) : Outcome Empty SweepOutput := do
  let amount ← set.totalValue
  return .customer set.accountIdx set.destinationAddress amount

end AccountUtxoSet

def ensureSameNetwork (old new : NetworkType) : Outcome MigrationError Unit :=
  if old ≠ new then .error (.error (.networkMismatch old new)) else .ok ()

def fundedSets (utxos : List AccountUtxoSet) : List AccountUtxoSet :=
  utxos.filter (fun set => !set.utxos.isEmpty)

def ensureFunded (funded : List AccountUtxoSet) : Outcome MigrationError Unit :=
  if funded.isEmpty then .error (.error .noUtxos) else .ok ()

def ensureFeeBalance (feeAccountIdx : UInt32) (available required : Amount) :
    Outcome MigrationError Unit :=
  if available.sat < required.sat then
    .error (.error (.insufficientFeeBalance feeAccountIdx available required))
  else .ok ()

def findFeeAccount (feeAccountIdx : UInt32) (funded : List AccountUtxoSet) :
    Outcome MigrationError AccountUtxoSet :=
  match funded.find? (·.accountIdx = feeAccountIdx) with
  | some feeAccount => .ok feeAccount
  | none => .error (.error (.invalidConfig ("fee account index " ++ toString feeAccountIdx.toNat ++
      " not found in input set or has no UTXOs")))

def inputCount (sets : List AccountUtxoSet) : Nat := (sets.map (·.utxos.length)).sum

/-- `slice[0]`. -/
def head {Value : Type} : List Value → Outcome Empty Value
  | [] => .error (.panic "index out of bounds: the len is 0 but the index is 0")
  | first :: _ => .ok first

/-- Names the change of an earlier transaction of the plan by its index. -/
def syntheticChangeOutpoint (precedingTxIndex : Nat) : OutPoint :=
  ⟨0, Fin.ofNat (2 ^ 32) precedingTxIndex⟩

section Code

variable (fees : FeeArithmetic)

/-- The vbyte count cannot overflow: the inputs and outputs are elements of
lists in memory. -/
def estimateFee (inputCount outputCount : Nat) (feeRate : FeeRate) : Amount :=
  let totalVb := 10 + inputCount * 105 + outputCount * 32
  let weight := (fees.weightFromVb totalVb).getD 0
  (fees.feeWu feeRate weight).getD Amount.zero

/-- `AccountForAccountSweep::plan`. -/
def planSweep (feeAccountIdx : UInt32) (utxos : List AccountUtxoSet) (old new : NetworkType)
    (feeRate : FeeRate) : Outcome MigrationError MigrationPlan := do
  ensureSameNetwork old new
  let funded := fundedSets utxos
  ensureFunded funded
  let feeAccount ← findFeeAccount feeAccountIdx funded
  let totalInputs := inputCount funded
  let fee := estimateFee fees totalInputs funded.length feeRate
  let feeAccountValue ← feeAccount.totalValue.lift
  ensureFeeBalance feeAccountIdx feeAccountValue fee
  let sourceUtxos := funded.flatMap AccountUtxoSet.outpoints
  let outputs ← Outcome.lift (funded.mapM fun set =>
    if set.accountIdx = feeAccountIdx then do
      let total ← set.totalValue
      let rest ← total.sub fee
      return .feeChange set.accountIdx rest
    else set.customer)
  return {
    utxoCount := totalInputs
    totalFees := fee
    sweepTransactions := [{ sourceUtxos, outputs, isFeeFinal := true, psbt := none }] }

structure BatchedPlanState where
  sweepTransactions : List SweepTransaction
  totalUtxoCount : Nat
  cumulativeFee : Amount

section Builders

variable (feeUtxos : List OutPoint) (initialFeeUtxoValue : Amount) (feeAccountIdx : UInt32)
  (feeRate : FeeRate)

/-- The coin that funds the fees of a transaction: the first fee UTXO, then the
change of the transaction before. -/
def feeSource (precedingTxCount : Nat) : Outcome Empty OutPoint :=
  if precedingTxCount = 0 then head feeUtxos
  else .ok (syntheticChangeOutpoint (precedingTxCount - 1))

def feeInputValue (state : BatchedPlanState) (precedingTxCount : Nat) : Outcome Empty Amount :=
  if precedingTxCount = 0 then .ok initialFeeUtxoValue
  else initialFeeUtxoValue.sub state.cumulativeFee

def planLargeAccount (state : BatchedPlanState) (acct : AccountUtxoSet) (txIdx : Nat) :
    Outcome Empty BatchedPlanState := do
  let acctInputs := acct.utxos.length
  let txFee := estimateFee fees (acctInputs + 1) 2 feeRate
  let source ← feeSource feeUtxos txIdx
  let inputValue ← feeInputValue initialFeeUtxoValue state txIdx
  let cumulativeFee ← state.cumulativeFee.add txFee
  let paid ← acct.customer
  let change ← inputValue.sub txFee
  return {
    cumulativeFee
    totalUtxoCount := state.totalUtxoCount + (acctInputs + 1)
    sweepTransactions := state.sweepTransactions ++ [{
      sourceUtxos := acct.outpoints ++ [source]
      outputs := [paid, .feeChange feeAccountIdx change]
      isFeeFinal := false
      psbt := none }] }

def planLargeAccounts (state : BatchedPlanState) (large : List AccountUtxoSet) :
    Outcome Empty BatchedPlanState :=
  large.zipIdx.foldlM (fun state entry =>
    planLargeAccount fees feeUtxos initialFeeUtxoValue feeAccountIdx feeRate state
      entry.1 entry.2) state

def planSmallBundle (state : BatchedPlanState) (small : List AccountUtxoSet)
    (precedingTxCount : Nat) : Outcome Empty BatchedPlanState := do
  let smallInputs := inputCount small
  let txFee := estimateFee fees (smallInputs + 1) (small.length + 1) feeRate
  let source ← feeSource feeUtxos precedingTxCount
  let inputValue ← feeInputValue initialFeeUtxoValue state precedingTxCount
  let cumulativeFee ← state.cumulativeFee.add txFee
  let paid ← small.mapM AccountUtxoSet.customer
  let change ← inputValue.sub txFee
  return {
    cumulativeFee
    totalUtxoCount := state.totalUtxoCount + (smallInputs + 1)
    sweepTransactions := state.sweepTransactions ++ [{
      sourceUtxos := small.flatMap AccountUtxoSet.outpoints ++ [source]
      outputs := paid ++ [.feeChange feeAccountIdx change]
      isFeeFinal := false
      psbt := none }] }

end Builders

/-- The `partition` by total value: accounts at or above the threshold first. -/
def partitionByTotal (smallAccountThreshold : Amount) :
    List AccountUtxoSet → Outcome Empty (List AccountUtxoSet × List AccountUtxoSet)
  | [] => .ok ([], [])
  | set :: sets => do
      let total ← set.totalValue
      let (large, small) ← partitionByTotal smallAccountThreshold sets
      if smallAccountThreshold.sat ≤ total.sat then return (set :: large, small)
      else return (large, set :: small)

def batchedEstimateTotalFees (large small : List AccountUtxoSet) (feeAccountUtxoCount : Nat)
    (feeRate : FeeRate) : Outcome Empty Amount := do
  let total ← large.foldlM (fun (total : Amount) (acct : AccountUtxoSet) =>
    total.add (estimateFee fees (acct.utxos.length + 1) 2 feeRate)) Amount.zero
  let total ← if small.isEmpty then .ok total
    else total.add (estimateFee fees (inputCount small + 1) (small.length + 1) feeRate)
  total.add (estimateFee fees feeAccountUtxoCount 1 feeRate)

def planIntermediate (feeUtxos : List OutPoint) (initialFeeUtxoValue : Amount)
    (feeAccountIdx : UInt32) (feeRate : FeeRate) (large small : List AccountUtxoSet) :
    Outcome Empty BatchedPlanState := do
  let state ← planLargeAccounts fees feeUtxos initialFeeUtxoValue feeAccountIdx feeRate
    ⟨[], 0, Amount.zero⟩ large
  if small.isEmpty then return state
  else
    planSmallBundle fees feeUtxos initialFeeUtxoValue feeAccountIdx feeRate state small
      large.length

/-- The fee account migrates last and takes the change of the chain with it. -/
def planFeeAccount (feeUtxos : List OutPoint) (feeAccountTotal : Amount) (feeAccountIdx : UInt32)
    (feeRate : FeeRate) (state : BatchedPlanState) : Outcome Empty MigrationPlan := do
  let feeMigrationFee := estimateFee fees feeUtxos.length 1 feeRate
  let cumulativeFee ← state.cumulativeFee.add feeMigrationFee
  let feeSource :=
    if state.sweepTransactions.isEmpty then feeUtxos
    else feeUtxos.tail ++ [syntheticChangeOutpoint (state.sweepTransactions.length - 1)]
  let feeAccountRemaining ← feeAccountTotal.sub cumulativeFee
  return {
    sweepTransactions := state.sweepTransactions ++ [{
      sourceUtxos := feeSource
      outputs := [.feeChange feeAccountIdx feeAccountRemaining]
      isFeeFinal := true
      psbt := none }]
    totalFees := cumulativeFee
    utxoCount := state.totalUtxoCount + feeSource.length }

/-- `AccountForAccountBatchedSweep::plan`. -/
def planBatchedSweep (feeAccountIdx : UInt32) (smallAccountThreshold : Amount)
    (utxos : List AccountUtxoSet) (old new : NetworkType) (feeRate : FeeRate) :
    Outcome MigrationError MigrationPlan := do
  ensureSameNetwork old new
  let funded := fundedSets utxos
  ensureFunded funded
  let feeAccount ← findFeeAccount feeAccountIdx funded
  let feeAccountTotal ← feeAccount.totalValue.lift
  let initialFeeUtxoValue ← (head (feeAccount.utxos.map (·.txout.value))).lift
  let nonFee := funded.filter (·.accountIdx ≠ feeAccountIdx)
  let (large, small) ← (partitionByTotal smallAccountThreshold nonFee).lift
  let plannedFees ←
    (batchedEstimateTotalFees fees large small feeAccount.utxos.length feeRate).lift
  ensureFeeBalance feeAccountIdx feeAccountTotal plannedFees
  let feeUtxos := feeAccount.outpoints
  let state ← (planIntermediate fees feeUtxos initialFeeUtxoValue feeAccountIdx feeRate
    large small).lift
  (planFeeAccount fees feeUtxos feeAccountTotal feeAccountIdx feeRate state).lift

end Code

end Migration

end EmvaultCore
