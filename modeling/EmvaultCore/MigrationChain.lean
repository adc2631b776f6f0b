import EmvaultCore.Migration
import EmvaultCore.Library.Keyed
import EmvaultCore.Library.Relay
import EmvaultCore.Library.Traversal

/-!
# The chain of a batched sweep

Every transaction before the last serves a group of accounts, one large account
or all the small ones, and takes its fee from a purse: the first fee UTXO, then
the change of the transaction before. So the builders hand one purse along the
groups, and the last transaction collects what is left of it.
-/

namespace EmvaultCore.Migration

open Library

/-- What the UTXOs of an account are worth, whether or not an `Amount` holds it. -/
def AccountUtxoSet.value (set : AccountUtxoSet) : Nat :=
  (set.utxos.map (·.txout.value.sat)).sum

theorem total_value_eq_ok {set : AccountUtxoSet} {total : Amount} :
    set.totalValue = .ok total ↔ set.value = total.sat := by
  rw [AccountUtxoSet.totalValue, Amount.fold_add_eq_ok, List.map_map, Amount.zero_sat, Nat.zero_add]
  rfl

def PaidInFull (set : AccountUtxoSet) (output : SweepOutput) : Prop :=
  ∃ amount : Amount, set.value = amount.sat ∧
    output = .customer set.accountIdx set.destinationAddress amount

theorem customer_eq_ok {set : AccountUtxoSet} {output : SweepOutput} :
    set.customer = .ok output ↔ PaidInFull set output := by
  simp only [AccountUtxoSet.customer, bind_eq_ok, total_value_eq_ok, pure, Except.pure,
    Except.ok.injEq, PaidInFull, eq_comm (b := output)]

theorem map_customer_eq_ok {sets : List AccountUtxoSet} {outputs : List SweepOutput} :
    (sets.mapM AccountUtxoSet.customer = .ok outputs) ↔
      List.Forall₂ PaidInFull sets outputs := by
  simp only [Traversal.map_m_eq_ok, customer_eq_ok]

def IsLarge (smallAccountThreshold : Amount) (set : AccountUtxoSet) : Prop :=
  smallAccountThreshold.sat ≤ set.value

instance {threshold : Amount} {set : AccountUtxoSet} : Decidable (IsLarge threshold set) :=
  inferInstanceAs (Decidable (_ ≤ _))

theorem partition_by_total_eq_ok {threshold : Amount} {sets large small : List AccountUtxoSet} :
    partitionByTotal threshold sets = .ok (large, small) ↔
      (∀ set ∈ sets, set.value < 2 ^ 64) ∧
        large = sets.filter (IsLarge threshold) ∧
        small = sets.filter (fun set => ¬ IsLarge threshold set) := by
  induction sets generalizing large small with
  | nil => simp [partitionByTotal, eq_comm]
  | cons set sets ih =>
      rw [partitionByTotal]
      simp only [bind_eq_ok, total_value_eq_ok, Prod.exists, List.forall_mem_cons]
      constructor
      · rintro ⟨total, value, large, small, parts, answer⟩
        rcases ih.mp parts with ⟨fits, rfl, rfl⟩
        have fit : set.value < 2 ^ 64 := value ▸ total.fits
        refine ⟨⟨fit, fits⟩, ?_⟩
        by_cases isLarge : IsLarge threshold set
        · have reached : threshold.sat ≤ total.sat := value ▸ isLarge
          simp only [reached, if_true, pure, Except.pure, Except.ok.injEq, Prod.mk.injEq] at answer
          simp [isLarge, ← answer.1, ← answer.2]
        · have missed : ¬ threshold.sat ≤ total.sat := value ▸ isLarge
          simp only [missed, if_false, pure, Except.pure, Except.ok.injEq, Prod.mk.injEq] at answer
          simp [isLarge, ← answer.1, ← answer.2]
      · rintro ⟨⟨fit, fits⟩, rfl, rfl⟩
        refine ⟨⟨set.value, fit⟩, rfl, _, _, ih.mpr ⟨fits, rfl, rfl⟩, ?_⟩
        by_cases isLarge : threshold.sat ≤ set.value
        · simp [IsLarge, isLarge, pure, Except.pure]
        · have isSmall : set.value < threshold.sat := by omega
          rw [if_neg isLarge]
          simp [IsLarge, isLarge, isSmall, pure, Except.pure]

def groups (large small : List AccountUtxoSet) : List (List AccountUtxoSet) :=
  large.map ([·]) ++ if small.isEmpty then [] else [small]

theorem flatten_groups (large small : List AccountUtxoSet) :
    (groups large small).flatten = large ++ small := by
  have singles : (large.map ([·])).flatten = large := by
    induction large with
    | nil => rfl
    | cons set large ih => simpa using ih
  cases small with
  | nil => simp [groups, singles]
  | cons set small => simp [groups, singles]

section Chain

variable (fees : FeeArithmetic) (first : OutPoint) (feeAccountIdx : UInt32) (feeRate : FeeRate)

/-- The fee of the transaction that serves a group: its coins and the purse in,
its accounts and the change out. -/
def groupFee (group : List AccountUtxoSet) : Amount :=
  estimateFee fees (inputCount group + 1) (group.length + 1) feeRate

def purseCoin (index : Nat) : OutPoint :=
  if index = 0 then first else syntheticChangeOutpoint (index - 1)

/-- One transaction of the chain: it pays its group in full, and what the fee
leaves of the purse is its change. -/
def ServesGroup (index : Nat) (purse : Amount) (group : List AccountUtxoSet)
    (tx : SweepTransaction) (change : Amount) : Prop :=
  purse.sat = change.sat + (groupFee fees feeRate group).sat ∧
    ∃ paid, List.Forall₂ PaidInFull group paid ∧
      tx = {
        sourceUtxos := group.flatMap AccountUtxoSet.outpoints ++ [purseCoin first index]
        outputs := paid ++ [.feeChange feeAccountIdx change]
        isFeeFinal := false
        psbt := none }

/-- The purse of a builder state: what the fees so far have left of the first
fee UTXO. -/
def HoldsPurse (initialFeeUtxoValue : Amount) (state : BatchedPlanState) (index : Nat)
    (purse : Amount) : Prop :=
  initialFeeUtxoValue.sat = purse.sat + state.cumulativeFee.sat ∧
    (index = 0 → state.cumulativeFee.sat = 0)

variable {fees first feeAccountIdx feeRate} {feeUtxos : List OutPoint}
  {initialFeeUtxoValue purse : Amount} {state next : BatchedPlanState} {index : Nat}

theorem plan_large_account_eq_bundle (acct : AccountUtxoSet) :
    planLargeAccount fees feeUtxos initialFeeUtxoValue feeAccountIdx feeRate state acct index =
      planSmallBundle fees feeUtxos initialFeeUtxoValue feeAccountIdx feeRate state [acct]
        index := by
  simp only [planLargeAccount, planSmallBundle, inputCount, List.map_cons, List.map_nil,
    List.sum_cons, List.sum_nil, Nat.add_zero, List.length_cons, List.length_nil, Nat.zero_add,
    List.flatMap_cons, List.flatMap_nil, List.append_nil, List.mapM_cons, List.mapM_nil,
    bind_assoc, pure_bind, List.cons_append, List.nil_append]

/-- The builders before the last transaction serve one group after the other. -/
theorem plan_intermediate_eq_fold (large small : List AccountUtxoSet) :
    planIntermediate fees feeUtxos initialFeeUtxoValue feeAccountIdx feeRate large small =
      (groups large small).zipIdx.foldlM (fun state entry =>
        planSmallBundle fees feeUtxos initialFeeUtxoValue feeAccountIdx feeRate state
          entry.1 entry.2) ⟨[], 0, Amount.zero⟩ := by
  have singles : ∀ state, planLargeAccounts fees feeUtxos initialFeeUtxoValue feeAccountIdx feeRate
      state large = (large.map ([·])).zipIdx.foldlM (fun state entry =>
        planSmallBundle fees feeUtxos initialFeeUtxoValue feeAccountIdx feeRate state
          entry.1 entry.2) state := by
    intro state
    simp only [planLargeAccounts, plan_large_account_eq_bundle, List.zipIdx_map, List.foldlM_map,
      Prod.map_fst, Prod.map_snd, id_eq]
  rw [planIntermediate, singles, groups, List.zipIdx_append, List.foldlM_append]
  cases small with
  | nil => simp
  | cons set small => simp

theorem fee_input_value_eq_ok (holds : HoldsPurse initialFeeUtxoValue state index purse)
    {value : Amount} :
    feeInputValue initialFeeUtxoValue state index = .ok value ↔ value = purse := by
  rw [feeInputValue]
  split
  · have unspent := holds.2 (by assumption)
    have whole := holds.1
    rw [Except.ok.injEq, Amount.ext_iff, Amount.ext_iff]
    omega
  · have whole := holds.1
    rw [Amount.sub_eq_ok, Amount.ext_iff]
    omega

theorem fee_source_eq (others : List OutPoint) :
    feeSource (first :: others) index = .ok (purseCoin first index) := by
  rw [feeSource, purseCoin]
  split <;> rfl

/-- A builder succeeds exactly when the purse covers its fee, and then leaves
the change as the next purse. -/
theorem plan_small_bundle_eq_ok {group : List AccountUtxoSet} {others : List OutPoint}
    (holds : HoldsPurse initialFeeUtxoValue state index purse) :
    planSmallBundle fees (first :: others) initialFeeUtxoValue feeAccountIdx feeRate state group
        index = .ok next ↔
      ∃ tx change, ServesGroup fees first feeAccountIdx feeRate index purse group tx change ∧
        next.sweepTransactions = state.sweepTransactions ++ [tx] ∧
        next.totalUtxoCount = state.totalUtxoCount + (inputCount group + 1) ∧
        next.cumulativeFee.sat =
          state.cumulativeFee.sat + (groupFee fees feeRate group).sat := by
  simp only [planSmallBundle, bind_eq_ok, fee_source_eq, fee_input_value_eq_ok holds,
    Amount.add_eq_ok, Amount.sub_eq_ok, map_customer_eq_ok, pure, Except.pure, Except.ok.injEq]
  constructor
  · rintro ⟨_, rfl, _, rfl, total, sum, paid, full, change, rest, rfl⟩
    exact ⟨_, change, ⟨rest, paid, full, rfl⟩, rfl, rfl, sum.symm⟩
  · rintro ⟨_, change, ⟨rest, paid, full, rfl⟩, transactions, count, sum⟩
    refine ⟨_, rfl, _, rfl, next.cumulativeFee, sum.symm, paid, full, change, rest, ?_⟩
    cases next
    simp_all

theorem holds_purse_next {group : List AccountUtxoSet} {tx : SweepTransaction} {change : Amount}
    (holds : HoldsPurse initialFeeUtxoValue state index purse)
    (served : ServesGroup fees first feeAccountIdx feeRate index purse group tx change)
    (sum : next.cumulativeFee.sat =
      state.cumulativeFee.sat + (groupFee fees feeRate group).sat) :
    HoldsPurse initialFeeUtxoValue next (index + 1) change := by
  have whole := holds.1
  have fee := served.1
  exact ⟨by omega, by omega⟩

/-- The loop over the groups is a relay of the purse. -/
theorem plan_groups_eq_ok {jobs : List (List AccountUtxoSet)} {others : List OutPoint}
    (holds : HoldsPurse initialFeeUtxoValue state index purse) :
    (jobs.zipIdx index).foldlM (fun state entry =>
        planSmallBundle fees (first :: others) initialFeeUtxoValue feeAccountIdx feeRate state
          entry.1 entry.2) state = .ok next ↔
      ∃ txs rest, Relay (ServesGroup fees first feeAccountIdx feeRate) index purse jobs txs rest ∧
        next.sweepTransactions = state.sweepTransactions ++ txs ∧
        next.totalUtxoCount =
          state.totalUtxoCount + (jobs.map fun group => inputCount group + 1).sum ∧
        next.cumulativeFee.sat = state.cumulativeFee.sat +
          (jobs.map fun group => (groupFee fees feeRate group).sat).sum := by
  induction jobs generalizing state index purse with
  | nil =>
      simp only [List.zipIdx_nil, List.foldlM_nil, pure, Except.pure, Except.ok.injEq,
        List.map_nil, List.sum_nil, Nat.add_zero]
      constructor
      · rintro rfl
        exact ⟨[], purse, .nil, by simp⟩
      · rintro ⟨txs, rest, relay, transactions, count, sum⟩
        cases relay
        have same := Amount.ext sum
        cases next
        cases state
        simp_all
  | cons group jobs ih =>
      rw [List.zipIdx_cons, List.foldlM_cons, bind_eq_ok]
      simp only [List.map_cons, List.sum_cons]
      constructor
      · rintro ⟨middle, step, loop⟩
        rcases (plan_small_bundle_eq_ok holds).mp step with
          ⟨tx, change, served, transactions, count, sum⟩
        rcases (ih (holds_purse_next holds served sum)).mp loop with
          ⟨txs, rest, relay, transactions', count', sum'⟩
        refine ⟨tx :: txs, rest, .cons served relay, ?_, by omega, by omega⟩
        rw [transactions', transactions, List.append_assoc, List.singleton_append]
      · rintro ⟨_, rest, relay, transactions, count, sum⟩
        cases relay with
        | @cons _ _ change _ _ tx _ txs served relay =>
            have fits := next.cumulativeFee.fits
            refine ⟨{
              sweepTransactions := state.sweepTransactions ++ [tx]
              totalUtxoCount := state.totalUtxoCount + (inputCount group + 1)
              cumulativeFee := ⟨state.cumulativeFee.sat + (groupFee fees feeRate group).sat,
                by omega⟩ },
              (plan_small_bundle_eq_ok holds).mpr ⟨tx, change, served, rfl, rfl, rfl⟩, ?_⟩
            refine (ih (holds_purse_next holds served rfl)).mpr
              ⟨txs, rest, relay, ?_, by dsimp only; omega, by dsimp only; omega⟩
            rw [transactions, List.append_assoc, List.singleton_append]

variable (fees feeRate)

def chainFees (large small : List AccountUtxoSet) : Nat :=
  ((groups large small).map fun group => (groupFee fees feeRate group).sat).sum

def plannedFees (large small : List AccountUtxoSet) (feeAccountUtxoCount : Nat) : Nat :=
  chainFees fees feeRate large small + (estimateFee fees feeAccountUtxoCount 1 feeRate).sat

variable {fees feeRate}

theorem group_fee_singleton (acct : AccountUtxoSet) :
    groupFee fees feeRate [acct] = estimateFee fees (acct.utxos.length + 1) 2 feeRate := by
  simp [groupFee, inputCount]

theorem batched_estimate_eq_ok {large small : List AccountUtxoSet} {count : Nat}
    {total : Amount} :
    batchedEstimateTotalFees fees large small count feeRate = .ok total ↔
      plannedFees fees feeRate large small count = total.sat := by
  have largeFees : ∀ sum : Amount, large.foldlM (fun (total : Amount) (acct : AccountUtxoSet) =>
      (total.add (estimateFee fees (acct.utxos.length + 1) 2 feeRate) : Outcome Empty Amount))
        Amount.zero = .ok sum ↔
      (large.map fun acct => (groupFee fees feeRate [acct]).sat).sum = sum.sat := by
    intro sum
    have fold := @Amount.fold_add_eq_ok Empty (large.map fun acct => groupFee fees feeRate [acct])
      Amount.zero sum
    rw [List.foldlM_map, List.map_map, Amount.zero_sat, Nat.zero_add] at fold
    simpa only [group_fee_singleton, Function.comp_def] using fold
  have last := (estimateFee fees count 1 feeRate).fits
  simp only [batchedEstimateTotalFees, bind_eq_ok, largeFees, plannedFees, chainFees, groups,
    List.map_append, List.map_map, Function.comp_def, List.sum_append]
  generalize (large.map fun acct => (groupFee fees feeRate [acct]).sat).sum = larges
  have fits := total.fits
  cases small with
  | nil =>
      simp only [List.isEmpty_nil, if_true, bind_eq_ok, Amount.add_eq_ok, Except.ok.injEq,
        List.map_nil, List.sum_nil]
      constructor
      · rintro ⟨sum, rfl, _, rfl, rest⟩
        omega
      · intro sum
        exact ⟨⟨larges, by omega⟩, rfl, _, rfl, by dsimp only; omega⟩
  | cons set small =>
      have bundle : (groupFee fees feeRate (set :: small)).sat = (estimateFee fees
        (inputCount (set :: small) + 1) ((set :: small).length + 1) feeRate).sat := rfl
      simp only [List.isEmpty_cons, Bool.false_eq_true, if_false, bind_eq_ok, Amount.add_eq_ok,
        List.map_cons, List.map_nil, List.sum_cons, List.sum_nil, bundle]
      constructor
      · rintro ⟨sum, rfl, all, added, rest⟩
        omega
      · intro sum
        exact ⟨⟨larges, by omega⟩, rfl, ⟨larges + _, by omega⟩, rfl, by dsimp only; omega⟩

/-- The last transaction spends the other fee UTXOs and the purse that is left,
or all fee UTXOs when no transaction came before it. -/
def finalTransaction (feeUtxos : List OutPoint) (preceding : Nat) (feeAccountIdx : UInt32)
    (remaining : Amount) : SweepTransaction where
  sourceUtxos :=
    if preceding = 0 then feeUtxos
    else feeUtxos.tail ++ [syntheticChangeOutpoint (preceding - 1)]
  outputs := [.feeChange feeAccountIdx remaining]
  isFeeFinal := true
  psbt := none

theorem plan_fee_account_eq_ok {total : Amount} {plan : MigrationPlan} :
    planFeeAccount fees feeUtxos total feeAccountIdx feeRate state = .ok plan ↔
      plan.totalFees.sat =
        state.cumulativeFee.sat + (estimateFee fees feeUtxos.length 1 feeRate).sat ∧
      ∃ remaining : Amount, total.sat = remaining.sat + plan.totalFees.sat ∧
        plan.sweepTransactions = state.sweepTransactions ++
          [finalTransaction feeUtxos state.sweepTransactions.length feeAccountIdx remaining] ∧
        plan.utxoCount = state.totalUtxoCount + (finalTransaction feeUtxos
          state.sweepTransactions.length feeAccountIdx remaining).sourceUtxos.length := by
  simp only [planFeeAccount, bind_eq_ok, Amount.add_eq_ok, Amount.sub_eq_ok, pure, Except.pure,
    Except.ok.injEq, finalTransaction, List.length_eq_zero_iff, List.isEmpty_iff]
  constructor
  · rintro ⟨cumulative, sum, remaining, rest, rfl⟩
    exact ⟨sum.symm, remaining, rest, rfl, rfl⟩
  · rintro ⟨sum, remaining, rest, transactions, count⟩
    refine ⟨plan.totalFees, sum.symm, remaining, rest, ?_⟩
    cases plan
    simp_all

end Chain

section Plan

variable (feeAccountIdx : UInt32) (smallAccountThreshold : Amount) (utxos : List AccountUtxoSet)

def nonFeeSets : List AccountUtxoSet :=
  (fundedSets utxos).filter (·.accountIdx ≠ feeAccountIdx)

def largeSets : List AccountUtxoSet :=
  (nonFeeSets feeAccountIdx utxos).filter (IsLarge smallAccountThreshold)

def smallSets : List AccountUtxoSet :=
  (nonFeeSets feeAccountIdx utxos).filter (fun set => ¬ IsLarge smallAccountThreshold set)

def planGroups : List (List AccountUtxoSet) :=
  groups (largeSets feeAccountIdx smallAccountThreshold utxos)
    (smallSets feeAccountIdx smallAccountThreshold utxos)

/-- The first funded set with the fee account's index, and its first UTXO. -/
def PaysFees (feeAccount : AccountUtxoSet) (firstUtxo : LocalOutput) : Prop :=
  (fundedSets utxos).find? (·.accountIdx = feeAccountIdx) = some feeAccount ∧
    feeAccount.utxos.head? = some firstUtxo

def ValuesFit (feeAccount : AccountUtxoSet) : Prop :=
  feeAccount.value < 2 ^ 64 ∧ ∀ set ∈ nonFeeSets feeAccountIdx utxos, set.value < 2 ^ 64

variable (fees : FeeArithmetic) (feeRate : FeeRate)

def planFees (feeAccount : AccountUtxoSet) : Nat :=
  plannedFees fees feeRate (largeSets feeAccountIdx smallAccountThreshold utxos)
    (smallSets feeAccountIdx smallAccountThreshold utxos) feeAccount.utxos.length

/-- The plan that the builders make: the relay of the purse, then the fee
account with what all fees leave of it. -/
def BuiltPlan (feeAccount : AccountUtxoSet) (firstUtxo : LocalOutput) (plan : MigrationPlan) :
    Prop :=
  ∃ txs rest remaining,
    Relay (ServesGroup fees firstUtxo.outpoint feeAccountIdx feeRate) 0 firstUtxo.txout.value
      (planGroups feeAccountIdx smallAccountThreshold utxos) txs rest ∧
    plan.totalFees.sat = planFees feeAccountIdx smallAccountThreshold utxos fees feeRate
      feeAccount ∧
    feeAccount.value = remaining.sat + plan.totalFees.sat ∧
    plan.sweepTransactions =
      txs ++ [finalTransaction feeAccount.outpoints txs.length feeAccountIdx remaining] ∧
    plan.utxoCount = ((planGroups feeAccountIdx smallAccountThreshold utxos).map
      fun group => inputCount group + 1).sum +
        (finalTransaction feeAccount.outpoints txs.length feeAccountIdx
          remaining).sourceUtxos.length

variable {feeAccountIdx smallAccountThreshold utxos fees feeRate} {old new : NetworkType}
  {feeAccount : AccountUtxoSet} {firstUtxo : LocalOutput}

theorem find_fee_account_eq_ok {funded : List AccountUtxoSet} :
    findFeeAccount feeAccountIdx funded = .ok feeAccount ↔
      funded.find? (·.accountIdx = feeAccountIdx) = some feeAccount := by
  unfold findFeeAccount
  cases funded.find? (·.accountIdx = feeAccountIdx) with
  | none => simp
  | some found => simp

theorem ensure_same_network_eq_ok {passed : Unit} :
    ensureSameNetwork old new = .ok passed ↔ old = new := by
  unfold ensureSameNetwork
  by_cases same : old = new
  · simp [same]
  · simp [same]

theorem ensure_funded_eq_ok {funded : List AccountUtxoSet} {passed : Unit} :
    ensureFunded funded = .ok passed ↔ funded ≠ [] := by
  cases funded with
  | nil => simp [ensureFunded]
  | cons set funded => simp [ensureFunded]

theorem funded_of_found
    (found : (fundedSets utxos).find? (·.accountIdx = feeAccountIdx) = some feeAccount) :
    fundedSets utxos ≠ [] := by
  intro empty
  rw [empty] at found
  cases found

theorem ensure_fee_balance_eq_ok {available required : Amount} {passed : Unit} :
    ensureFeeBalance feeAccountIdx available required = .ok passed ↔
      required.sat ≤ available.sat := by
  unfold ensureFeeBalance
  by_cases short : available.sat < required.sat
  · simp [short]
  · simpa [short] using Nat.le_of_not_lt short

theorem head_eq_ok {Value : Type} {values : List Value} {first : Value} :
    head values = .ok first ↔ values.head? = some first := by
  cases values <;> simp [head]

theorem mem_funded_sets {set : AccountUtxoSet} :
    set ∈ fundedSets utxos ↔ set ∈ utxos ∧ set.utxos ≠ [] := by
  simp [fundedSets]

theorem pays_fees_iff (distinct : (utxos.map (·.accountIdx)).Nodup) :
    PaysFees feeAccountIdx utxos feeAccount firstUtxo ↔
      feeAccount ∈ utxos ∧ feeAccount.accountIdx = feeAccountIdx ∧
        feeAccount.utxos.head? = some firstUtxo := by
  have fundedDistinct : ((fundedSets utxos).map (·.accountIdx)).Nodup :=
    distinct.sublist ((List.filter_sublist).map _)
  constructor
  · rintro ⟨found, head⟩
    have index := List.find?_some found
    exact ⟨(mem_funded_sets.mp (List.mem_of_find?_eq_some found)).1, of_decide_eq_true index, head⟩
  · rintro ⟨member, index, head⟩
    have funded : feeAccount ∈ fundedSets utxos := by
      apply mem_funded_sets.mpr
      exact ⟨member, fun empty => by simp [empty] at head⟩
    have found := Keyed.find_of_nodup_map fundedDistinct funded
    rw [index] at found
    exact ⟨found, head⟩

theorem mem_of_plan_groups {group : List AccountUtxoSet}
    (member : group ∈ planGroups feeAccountIdx smallAccountThreshold utxos)
    {set : AccountUtxoSet} (among : set ∈ group) : set ∈ nonFeeSets feeAccountIdx utxos := by
  have flat := List.mem_flatten.mpr ⟨group, member, among⟩
  rw [planGroups, flatten_groups, List.mem_append] at flat
  rcases flat with large | small
  · exact List.mem_of_mem_filter large
  · exact List.mem_of_mem_filter small

theorem outpoints_of_head (head : feeAccount.utxos.head? = some firstUtxo) :
    feeAccount.outpoints = firstUtxo.outpoint :: feeAccount.outpoints.tail := by
  rcases List.head?_eq_some_iff.mp head with ⟨others, split⟩
  simp [AccountUtxoSet.outpoints, split]

theorem build_plan_eq_ok {total : Amount} {plan : MigrationPlan}
    (head : feeAccount.utxos.head? = some firstUtxo) (value : feeAccount.value = total.sat) :
    (∃ state, planIntermediate fees feeAccount.outpoints firstUtxo.txout.value feeAccountIdx
        feeRate (largeSets feeAccountIdx smallAccountThreshold utxos)
        (smallSets feeAccountIdx smallAccountThreshold utxos) = .ok state ∧
      planFeeAccount fees feeAccount.outpoints total feeAccountIdx feeRate state = .ok plan) ↔
      BuiltPlan feeAccountIdx smallAccountThreshold utxos fees feeRate feeAccount firstUtxo
        plan := by
  have holds : HoldsPurse firstUtxo.txout.value ⟨[], 0, Amount.zero⟩ 0 firstUtxo.txout.value :=
    ⟨rfl, fun _ => rfl⟩
  have count : feeAccount.outpoints.length = feeAccount.utxos.length := List.length_map _
  rw [outpoints_of_head head]
  simp only [plan_intermediate_eq_fold, plan_groups_eq_ok holds, plan_fee_account_eq_ok,
    BuiltPlan, planFees, plannedFees, chainFees, planGroups]
  rw [← outpoints_of_head head]
  constructor
  · rintro ⟨state, ⟨txs, rest, relay, transactions, inputs, fee⟩, sum, remaining, left, all,
      inputs'⟩
    simp only [List.nil_append, Nat.zero_add, Amount.zero_sat] at transactions inputs fee
    rw [transactions] at all inputs'
    exact ⟨txs, rest, remaining, relay, by rw [sum, fee, count], by omega, all, by omega⟩
  · rintro ⟨txs, rest, remaining, relay, sum, left, all, inputs⟩
    have fits := plan.totalFees.fits
    have bound : ((groups (largeSets feeAccountIdx smallAccountThreshold utxos)
        (smallSets feeAccountIdx smallAccountThreshold utxos)).map
          fun group => (groupFee fees feeRate group).sat).sum < 2 ^ 64 := by omega
    exact ⟨⟨txs, _, ⟨_, bound⟩⟩, ⟨txs, rest, relay, (List.nil_append _).symm,
      (Nat.zero_add _).symm, (Nat.zero_add _).symm⟩, by rw [sum, count], remaining, by omega, all,
      inputs⟩

theorem plan_batched_eq_ok {plan : MigrationPlan} :
    planBatchedSweep fees feeAccountIdx smallAccountThreshold utxos old new feeRate = .ok plan ↔
      old = new ∧ ∃ feeAccount firstUtxo, PaysFees feeAccountIdx utxos feeAccount firstUtxo ∧
        ValuesFit feeAccountIdx utxos feeAccount ∧
        BuiltPlan feeAccountIdx smallAccountThreshold utxos fees feeRate feeAccount firstUtxo
          plan := by
  unfold planBatchedSweep
  simp only [bind_eq_ok, ensure_same_network_eq_ok, ensure_funded_eq_ok, find_fee_account_eq_ok,
    Outcome.lift_eq_ok, total_value_eq_ok, head_eq_ok, Prod.exists, partition_by_total_eq_ok,
    batched_estimate_eq_ok, ensure_fee_balance_eq_ok, List.head?_map, Option.map_eq_some_iff]
  constructor
  · rintro ⟨-, same, -, -, feeAccount, found, total, value, _, ⟨firstUtxo, head, rfl⟩, large,
      small, ⟨fits, rfl, rfl⟩, planned, -, -, -, state, built, last⟩
    have fit : feeAccount.value < 2 ^ 64 := value ▸ total.fits
    exact ⟨same, feeAccount, firstUtxo, ⟨found, head⟩, ⟨fit, fits⟩,
      (build_plan_eq_ok head value).mp ⟨state, built, last⟩⟩
  · rintro ⟨same, feeAccount, firstUtxo, ⟨found, head⟩, ⟨fit, fits⟩, built⟩
    have funded := funded_of_found found
    have ⟨total, value⟩ : ∃ total : Amount, feeAccount.value = total.sat := ⟨⟨_, fit⟩, rfl⟩
    rcases (build_plan_eq_ok head value).mpr built with ⟨state, chain, last⟩
    rcases built with ⟨-, -, remaining, -, sum, left, -, -⟩
    exact ⟨(), same, (), funded, feeAccount, found, total, value, _, ⟨firstUtxo, head, rfl⟩, _, _,
      ⟨fits, rfl, rfl⟩, plan.totalFees, sum.symm, (), by omega, state, chain, last⟩

theorem plan_batched_opens (paysFees : PaysFees feeAccountIdx utxos feeAccount firstUtxo) :
    planBatchedSweep fees feeAccountIdx smallAccountThreshold utxos old old feeRate = (do
      let total ← feeAccount.totalValue.lift
      let groups ← (partitionByTotal smallAccountThreshold (nonFeeSets feeAccountIdx utxos)).lift
      let planned ← (batchedEstimateTotalFees fees groups.1 groups.2 feeAccount.utxos.length
        feeRate).lift
      ensureFeeBalance feeAccountIdx total planned
      Outcome.lift (do
        let state ← planIntermediate fees feeAccount.outpoints firstUtxo.txout.value feeAccountIdx
          feeRate groups.1 groups.2
        planFeeAccount fees feeAccount.outpoints total feeAccountIdx feeRate state)) := by
  have same : ensureSameNetwork old old = .ok () := ensure_same_network_eq_ok.mpr rfl
  have funded : ensureFunded (fundedSets utxos) = .ok () :=
    ensure_funded_eq_ok.mpr (funded_of_found paysFees.1)
  have first : head (feeAccount.utxos.map (·.txout.value)) = .ok firstUtxo.txout.value := by
    rw [head_eq_ok, List.head?_map, paysFees.2, Option.map_some]
  simp only [planBatchedSweep, same, funded, find_fee_account_eq_ok.mpr paysFees.1, first,
    Outcome.lift_ok, ok_bind, Outcome.lift_bind, nonFeeSets]

theorem plan_batched_stages (paysFees : PaysFees feeAccountIdx utxos feeAccount firstUtxo)
    {large small : List AccountUtxoSet} {total planned : Amount}
    (value : feeAccount.totalValue = .ok total)
    (split : partitionByTotal smallAccountThreshold (nonFeeSets feeAccountIdx utxos) =
      .ok (large, small))
    (estimate : batchedEstimateTotalFees fees large small feeAccount.utxos.length feeRate =
      .ok planned) :
    planBatchedSweep fees feeAccountIdx smallAccountThreshold utxos old old feeRate = (do
      ensureFeeBalance feeAccountIdx total planned
      Outcome.lift (do
        let state ← planIntermediate fees feeAccount.outpoints firstUtxo.txout.value feeAccountIdx
          feeRate large small
        planFeeAccount fees feeAccount.outpoints total feeAccountIdx feeRate state)) := by
  rw [plan_batched_opens paysFees]
  simp only [value, split, estimate, Outcome.lift_ok, ok_bind]

end Plan

end EmvaultCore.Migration
