import EmvaultCore.SweepChain
import Mathlib.Data.Multiset.AddSub
import Mathlib.Data.List.Perm.Basic

/-!
# What a sweep moves

The two sweep algorithms shape their transactions differently, so their plans
are compared by what they move: the coins they spend, what the customers get and
what is left to the fee account. Both serve the same customers, and both take
their fees from the fee account alone.
-/

namespace EmvaultCore.SweepAgreement

open Migration Library SweepChain

def placeholders (plan : MigrationPlan) : List OutPoint :=
  (List.range (plan.sweepTransactions.length - 1)).map syntheticChangeOutpoint

def spentCoins (plan : MigrationPlan) : Multiset OutPoint :=
  (plan.sweepTransactions.flatMap (·.sourceUtxos) : Multiset OutPoint) - placeholders plan

def customerOutputs (plan : MigrationPlan) : Multiset SweepOutput :=
  (plan.sweepTransactions.flatMap (·.outputs)).filter fun output => !isFeeChange output

def finalFeeChanges (plan : MigrationPlan) : List SweepOutput :=
  ((plan.sweepTransactions.filter (·.isFeeFinal)).flatMap (·.outputs)).filter isFeeChange

def feeSets (feeAccountIdx : UInt32) (accounts : List AccountUtxoSet) : List AccountUtxoSet :=
  (fundedSets accounts).filter (·.accountIdx = feeAccountIdx)

def sweepFee (fees : FeeArithmetic) (accounts : List AccountUtxoSet) (feeRate : FeeRate) :
    Amount :=
  estimateFee fees (inputCount (fundedSets accounts)) (fundedSets accounts).length feeRate

variable {fees : FeeArithmetic} {feeAccountIdx : UInt32} {smallAccountThreshold fee : Amount}
  {accounts sets : List AccountUtxoSet} {old new : NetworkType} {feeRate : FeeRate}
  {feeAccount : AccountUtxoSet} {plan : MigrationPlan} {outputs : List SweepOutput}

/-! ### A sweep in one transaction -/

/-- What the single transaction pays to a set: a set with the fee account's index
pays the fee, whether or not another set pays it too. -/
def sweepOutput (feeAccountIdx : UInt32) (fee : Amount) (set : AccountUtxoSet) :
    Outcome Empty SweepOutput :=
  if set.accountIdx = feeAccountIdx then do
    let total ← set.totalValue
    let rest ← total.sub fee
    return .feeChange set.accountIdx rest
  else set.customer

def PaysFee (fee : Amount) (set : AccountUtxoSet) (output : SweepOutput) : Prop :=
  ∃ total rest : Amount, set.value = total.sat ∧ total.sat = rest.sat + fee.sat ∧
    output = .feeChange set.accountIdx rest

theorem sweep_output_fee {set : AccountUtxoSet} {output : SweepOutput}
    (index : set.accountIdx = feeAccountIdx) :
    sweepOutput feeAccountIdx fee set = .ok output ↔ PaysFee fee set output := by
  rw [sweepOutput, if_pos index]
  simp only [bind_eq_ok, total_value_eq_ok, Amount.sub_eq_ok, pure, Except.pure,
    Except.ok.injEq, PaysFee, eq_comm (a := SweepOutput.feeChange _ _), exists_and_left]

theorem sweep_output_customer {set : AccountUtxoSet} {output : SweepOutput}
    (index : set.accountIdx ≠ feeAccountIdx) :
    sweepOutput feeAccountIdx fee set = .ok output ↔ PaidInFull set output := by
  rw [sweepOutput, if_neg index, customer_eq_ok]

def sweepTransaction (accounts : List AccountUtxoSet) (outputs : List SweepOutput) :
    SweepTransaction where
  sourceUtxos := (fundedSets accounts).flatMap AccountUtxoSet.outpoints
  outputs := outputs
  isFeeFinal := true
  psbt := none

/-- The planner, with what it does to each set under a name. -/
theorem plan_sweep_stages :
    planSweep fees feeAccountIdx accounts old new feeRate = (do
      ensureSameNetwork old new
      ensureFunded (fundedSets accounts)
      let feeAccount ← findFeeAccount feeAccountIdx (fundedSets accounts)
      let feeAccountValue ← feeAccount.totalValue.lift
      ensureFeeBalance feeAccountIdx feeAccountValue (sweepFee fees accounts feeRate)
      let outputs ← Outcome.lift ((fundedSets accounts).mapM
        (sweepOutput feeAccountIdx (sweepFee fees accounts feeRate)))
      return {
        utxoCount := inputCount (fundedSets accounts)
        totalFees := sweepFee fees accounts feeRate
        sweepTransactions := [sweepTransaction accounts outputs] }) := rfl

theorem plan_sweep_eq_ok :
    planSweep fees feeAccountIdx accounts old new feeRate = .ok plan ↔
      old = new ∧ ∃ feeAccount,
        (fundedSets accounts).find? (·.accountIdx = feeAccountIdx) = some feeAccount ∧
        feeAccount.value < 2 ^ 64 ∧ (sweepFee fees accounts feeRate).sat ≤ feeAccount.value ∧
        ∃ outputs, List.Forall₂ (fun set output => sweepOutput feeAccountIdx
            (sweepFee fees accounts feeRate) set = .ok output) (fundedSets accounts) outputs ∧
          plan = {
            utxoCount := inputCount (fundedSets accounts)
            totalFees := sweepFee fees accounts feeRate
            sweepTransactions := [sweepTransaction accounts outputs] } := by
  rw [plan_sweep_stages]
  simp only [bind_eq_ok, ensure_same_network_eq_ok, ensure_funded_eq_ok, find_fee_account_eq_ok,
    Outcome.lift_eq_ok, total_value_eq_ok, ensure_fee_balance_eq_ok, Traversal.map_m_eq_ok, pure,
    Except.pure, Except.ok.injEq]
  constructor
  · intro accepted
    obtain ⟨_, same, _, _, feeAccount, found, total, value, _, covered, outputs, all, shape⟩ :=
      accepted
    exact ⟨same, feeAccount, found, value ▸ total.fits, value ▸ covered, outputs, all, shape.symm⟩
  · intro accepted
    obtain ⟨same, feeAccount, found, fits, covered, outputs, all, shape⟩ := accepted
    exact ⟨(), same, (), funded_of_found found, feeAccount, found, ⟨_, fits⟩, rfl, (), covered,
      outputs, all, shape.symm⟩

theorem is_fee_change_of_pays {set : AccountUtxoSet} {output : SweepOutput}
    (pays : PaysFee fee set output) : isFeeChange output = true := by
  obtain ⟨total, rest, _, _, rfl⟩ := pays
  rfl

theorem sweep_outputs_split
    (all : List.Forall₂ (fun set output => sweepOutput feeAccountIdx fee set = .ok output) sets
      outputs) :
    List.Forall₂ PaidInFull (sets.filter (·.accountIdx ≠ feeAccountIdx))
        (outputs.filter fun output => !isFeeChange output) ∧
      List.Forall₂ (PaysFee fee) (sets.filter (·.accountIdx = feeAccountIdx))
        (outputs.filter isFeeChange) := by
  induction all with
  | nil => exact ⟨.nil, .nil⟩
  | @cons set output sets outputs here rest ih =>
      by_cases index : set.accountIdx = feeAccountIdx
      · have pays := (sweep_output_fee index).mp here
        have change := is_fee_change_of_pays pays
        simp only [List.filter_cons, index, change, ne_eq, not_true_eq_false, decide_false,
          decide_true, if_true, Bool.not_true, Bool.false_eq_true, if_false]
        exact ⟨ih.1, .cons pays ih.2⟩
      · have paid := (sweep_output_customer index).mp here
        have customer := not_fee_change_of_paid paid
        simp only [List.filter_cons, index, customer, ne_eq, not_false_eq_true, decide_true,
          decide_false, if_true, Bool.not_false, Bool.false_eq_true, if_false]
        exact ⟨.cons paid ih.1, ih.2⟩

/-- A plan of a sweep in one transaction spends every coin, pays every customer
and takes the fee from each set with the fee account's index. -/
theorem sweep_moves
    (accepted : planSweep fees feeAccountIdx accounts old new feeRate = .ok plan) :
    spentCoins plan = accounts.flatMap AccountUtxoSet.outpoints ∧
      (∃ paid, List.Forall₂ PaidInFull (nonFeeSets feeAccountIdx accounts) paid ∧
        customerOutputs plan = paid) ∧
      List.Forall₂ (PaysFee plan.totalFees) (feeSets feeAccountIdx accounts)
        (finalFeeChanges plan) := by
  obtain ⟨_, _, _, _, _, outputs, all, rfl⟩ := plan_sweep_eq_ok.mp accepted
  have split := sweep_outputs_split all
  refine ⟨?_, ⟨_, split.1, ?_⟩, ?_⟩
  · simp [spentCoins, placeholders, sweepTransaction, funded_outpoints]
  · simp [customerOutputs, sweepTransaction]
  · simpa [finalFeeChanges, sweepTransaction, feeSets] using split.2

/-! ### A batched sweep -/

section Batched

variable {first : OutPoint} {index : Nat} {purse rest remaining : Amount}
  {jobs : List (List AccountUtxoSet)} {txs : List SweepTransaction} {firstUtxo : LocalOutput}

theorem final_fee_changes_of_plan
    (relay : Relay (ServesGroup fees first feeAccountIdx feeRate) index purse jobs txs rest)
    (all : plan.sweepTransactions = txs ++ [finalTransaction feeAccount.outpoints txs.length
      feeAccountIdx remaining]) :
    finalFeeChanges plan = [.feeChange feeAccountIdx remaining] := by
  have flags := relay.map_eq (·.isFeeFinal) (fun _ => false) fun _ _ _ _ _ served => by
    obtain ⟨_, _, _, rfl⟩ := served
    rfl
  have none : txs.filter (·.isFeeFinal) = [] := by
    apply List.filter_eq_nil_iff.mpr
    intro tx member
    have flag : tx.isFeeFinal ∈ jobs.map fun _ => false := flags ▸ List.mem_map_of_mem member
    obtain ⟨_, _, same⟩ := List.mem_map.mp flag
    rw [← same]
    exact Bool.false_ne_true
  rw [finalFeeChanges, all, List.filter_append, none]
  rfl

/-- A batched plan spends the coins of the customers and of the account that
pays the fees, pays every customer and leaves the rest to that account. -/
theorem batched_moves
    (accepted : planBatchedSweep fees feeAccountIdx smallAccountThreshold accounts old new
      feeRate = .ok plan) :
    ∃ feeAccount, (fundedSets accounts).find? (·.accountIdx = feeAccountIdx) = some feeAccount ∧
      spentCoins plan = (nonFeeSets feeAccountIdx accounts).flatMap AccountUtxoSet.outpoints ++
        feeAccount.outpoints ∧
      (∃ paid, List.Forall₂ PaidInFull (nonFeeSets feeAccountIdx accounts) paid ∧
        customerOutputs plan = paid) ∧
      ∃ remaining : Amount, finalFeeChanges plan = [.feeChange feeAccountIdx remaining] ∧
        feeAccount.value = remaining.sat + plan.totalFees.sat := by
  obtain ⟨_, feeAccount, firstUtxo, paysFees, _, txs, rest, remaining, relay, _, left, all, _⟩ :=
    plan_batched_eq_ok.mp accepted
  have groups := (@plan_groups_perm feeAccountIdx smallAccountThreshold accounts)
  have paid : List.Forall₂ PaidInFull
      (planGroups feeAccountIdx smallAccountThreshold accounts).flatten
      ((plan.sweepTransactions.flatMap (·.outputs)).filter fun output => !isFeeChange output) := by
    rw [all, List.flatMap_append, List.filter_append]
    simpa [finalTransaction, isFeeChange] using paid_of_relay relay
  refine ⟨feeAccount, paysFees.1, ?_, ?_, remaining, final_fee_changes_of_plan relay all, left⟩
  · have count : plan.sweepTransactions.length - 1 = txs.length := by
      rw [all, List.length_append, List.length_singleton, Nat.add_sub_cancel]
    have sources := Multiset.coe_eq_coe.mpr (sources_of_plan remaining paysFees.2 relay)
    have coins := Multiset.coe_eq_coe.mpr
      ((groups.flatMap_right AccountUtxoSet.outpoints).append_right feeAccount.outpoints)
    rw [spentCoins, placeholders, count, all, sources, ← Multiset.coe_add, coins]
    exact Multiset.add_sub_cancel_right
  · obtain ⟨outputs, ordered, same⟩ := List.perm_comp_forall₂ groups.symm paid
    exact ⟨outputs, ordered, (Multiset.coe_eq_coe.mpr same).symm⟩

end Batched

/-! ### Agreement -/

/-- What two plans for the same accounts have in common: the coins, what the
customers get, and an account that keeps what its plan's fees leave of it. -/
structure SweepsAgree (feeAccountIdx : UInt32) (accounts : List AccountUtxoSet)
    (sweep batched : MigrationPlan) : Prop where
  coins : spentCoins sweep = spentCoins batched
  customers : customerOutputs sweep = customerOutputs batched
  feeAccount : ∃ feeAccount ∈ accounts, feeAccount.accountIdx = feeAccountIdx ∧
    ∀ plan ∈ [sweep, batched], ∃ change : Amount,
      finalFeeChanges plan = [.feeChange feeAccountIdx change] ∧
        change.sat + plan.totalFees.sat = feeAccount.value

theorem paid_right_unique : Relator.RightUnique PaidInFull := by
  intro set output other paid also
  obtain ⟨amount, value, rfl⟩ := paid
  obtain ⟨total, same, rfl⟩ := also
  rw [Amount.ext (value.symm.trans same)]

theorem find_fee_account_head
    (found : (fundedSets accounts).find? (·.accountIdx = feeAccountIdx) = some feeAccount) :
    ∃ others, feeSets feeAccountIdx accounts = feeAccount :: others := by
  have head := List.head?_filter (l := fundedSets accounts)
    (p := fun set => decide (set.accountIdx = feeAccountIdx))
  rw [found] at head
  exact List.head?_eq_some_iff.mp head

/-- Plans of the two algorithms for accounts with distinct indices agree. -/
theorem accepted_sweeps_agree {sweep batched : MigrationPlan}
    (distinct : (accounts.map (·.accountIdx)).Nodup)
    (swept : planSweep fees feeAccountIdx accounts old new feeRate = .ok sweep)
    (batch : planBatchedSweep fees feeAccountIdx smallAccountThreshold accounts old new
      feeRate = .ok batched) :
    SweepsAgree feeAccountIdx accounts sweep batched := by
  obtain ⟨sweptCoins, ⟨sweptOutputs, sweptPaid, sweptCustomers⟩, changes⟩ := sweep_moves swept
  obtain ⟨feeAccount, found, coins, ⟨outputs, paid, customers⟩, remaining, change, left⟩ :=
    batched_moves batch
  have one := one_fee_set distinct found
  have listed := mem_funded_sets.mp (List.mem_of_find?_eq_some found)
  constructor
  · rw [sweptCoins, coins]
    exact Multiset.coe_eq_coe.mpr (coins_of_one_fee_set one).symm
  · rw [sweptCustomers, customers, List.right_unique_forall₂' paid_right_unique sweptPaid paid]
  · have index : feeAccount.accountIdx = feeAccountIdx := by simpa using List.find?_some found
    refine ⟨feeAccount, listed.1, index, ?_⟩
    intro plan member
    cases List.mem_cons.mp member with
    | inl same =>
        subst same
        rw [feeSets, one] at changes
        obtain ⟨_, _, ⟨total, rest, value, paysFee, rfl⟩, none, keeps⟩ :=
          List.forall₂_cons_left_iff.mp changes
        cases none
        exact ⟨rest, by rw [keeps, index], by omega⟩
    | inr same =>
        rw [List.mem_singleton.mp same]
        exact ⟨remaining, change, left.symm⟩

open MigrationSafety (bundleThreshold testnet testRate testAddress)

def mixedSweep : MigrationPlan where
  sweepTransactions := [{
      sourceUtxos := [testOutpoint 1, testOutpoint 2, testOutpoint 3, testOutpoint 4,
        testOutpoint 5, testOutpoint 6]
      outputs := [.feeChange 0 (.fromSat 498964), .customer 1 testAddress (.fromSat 100000),
        .customer 2 testAddress (.fromSat 20000), .customer 3 testAddress (.fromSat 3000)]
      isFeeFinal := true
      psbt := none }]
  totalFees := .fromSat 1536
  utxoCount := 6

theorem mixed_sweeps_agree : SweepsAgree 0 mixedAccounts mixedSweep mixedPlan := by
  have swept : planSweep .checked 0 mixedAccounts testnet testnet testRate = .ok mixedSweep := rfl
  have batch : planBatchedSweep .checked 0 bundleThreshold mixedAccounts testnet testnet
      testRate = .ok mixedPlan := rfl
  exact accepted_sweeps_agree (by decide) swept batch

end EmvaultCore.SweepAgreement
