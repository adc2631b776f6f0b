import EmvaultCore.AccountOrder
import EmvaultCore.FeeOverflow
import Mathlib.Algebra.Order.BigOperators.Group.List

/-!
# What a sweep costs

Two transactions cost no less than one that does the work of both: it has one
header, one fee input and one fee output fewer, and rounds up once. So the sweep in
one transaction is never dearer than the chain, and a threshold that bundles more
accounts never makes the chain dearer, longer or impossible.
-/

namespace EmvaultCore.SweepCosts

open Migration MigrationSafety SweepChain SweepAgreement AccountOrder RepeatedAccounts FeeEstimate
open FeeOverflow

/-- The inputs and outputs that a group brings into its transaction. -/
def size (group : List AccountUtxoSet) : Nat × Nat := (inputCount group, group.length)

/-- The fee of a transaction that serves so many inputs and outputs, with those of
the fee account. -/
def cost (feeRate : FeeRate) (size : Nat × Nat) : Nat :=
  computedFee feeRate (size.1 + 1) (size.2 + 1)

variable {feeAccountIdx : UInt32} {smallAccountThreshold lower higher : Amount}
  {accounts : List AccountUtxoSet} {old new : NetworkType} {feeRate : FeeRate}
  {feeAccount : AccountUtxoSet} {firstUtxo : LocalOutput} {plan : MigrationPlan}
  {jobs : List (List AccountUtxoSet)} {sets : List AccountUtxoSet}

/-- The fee of one transaction is no more than those of two. If it cannot be
computed it is nothing, and if it can be so can both others. -/
theorem cost_subadditive (feeRate : FeeRate) (left right : Nat × Nat) :
    cost feeRate (left + right) ≤ cost feeRate left + cost feeRate right := by
  have lighter : shapeWeight ((left + right).1 + 1) ((left + right).2 + 1) ≤
      shapeWeight (left.1 + 1) (left.2 + 1) + shapeWeight (right.1 + 1) (right.2 + 1) := by
    simp only [shapeWeight, Prod.fst_add, Prod.snd_add]
    omega
  have heavierLeft : shapeWeight (left.1 + 1) (left.2 + 1) ≤
      shapeWeight ((left + right).1 + 1) ((left + right).2 + 1) := by
    simp only [shapeWeight, Prod.fst_add, Prod.snd_add]
    omega
  have heavierRight : shapeWeight (right.1 + 1) (right.2 + 1) ≤
      shapeWeight ((left + right).1 + 1) ((left + right).2 + 1) := by
    simp only [shapeWeight, Prod.fst_add, Prod.snd_add]
    omega
  have both := Nat.mul_le_mul_left feeRate.val lighter
  have first := Nat.mul_le_mul_left feeRate.val heavierLeft
  have second := Nat.mul_le_mul_left feeRate.val heavierRight
  rw [Nat.mul_add] at both
  rw [cost, computedFee]
  by_cases fits : Computable feeRate ((left + right).1 + 1) ((left + right).2 + 1)
  · rw [if_pos fits]
    have whole : feeRate.val * shapeWeight ((left + right).1 + 1) ((left + right).2 + 1) + 999 <
        2 ^ 64 := fits
    have leftFits : Computable feeRate (left.1 + 1) (left.2 + 1) :=
      Nat.lt_of_le_of_lt (Nat.add_le_add_right first 999) whole
    have rightFits : Computable feeRate (right.1 + 1) (right.2 + 1) :=
      Nat.lt_of_le_of_lt (Nat.add_le_add_right second 999) whole
    rw [cost, cost, computedFee, computedFee, if_pos leftFits, if_pos rightFits]
    simp only [exactFee]
    omega
  · rw [if_neg fits]
    exact Nat.zero_le _

theorem size_append (left right : List AccountUtxoSet) :
    size (left ++ right) = size left + size right := by
  simp [size, inputCount]

theorem size_flatten (jobs : List (List AccountUtxoSet)) :
    size jobs.flatten = (jobs.map size).sum := by
  induction jobs with
  | nil => rfl
  | cons group jobs ih => rw [List.flatten_cons, size_append, ih, List.map_cons, List.sum_cons]

theorem size_perm {others : List AccountUtxoSet} (same : sets.Perm others) :
    size sets = size others := by
  rw [size, size, input_count_eq same, same.length_eq]

def chainCost (feeRate : FeeRate) (jobs : List (List AccountUtxoSet)) : Nat :=
  ((jobs.map size).map (cost feeRate)).sum

theorem chain_cost_append (feeRate : FeeRate) (left right : List (List AccountUtxoSet)) :
    chainCost feeRate (left ++ right) = chainCost feeRate left + chainCost feeRate right := by
  simp [chainCost]

theorem chain_cost_perm {others : List (List AccountUtxoSet)} (same : jobs.Perm others) :
    chainCost feeRate jobs = chainCost feeRate others :=
  ((same.map _).map _).sum_eq

theorem chain_fees_eq_cost :
    chainFees .checked feeRate (largeSets feeAccountIdx smallAccountThreshold accounts)
        (smallSets feeAccountIdx smallAccountThreshold accounts) =
      chainCost feeRate (planGroups feeAccountIdx smallAccountThreshold accounts) := by
  rw [chain_fees_checked, chainCost, List.map_map]
  simp only [Function.comp_def, cost, size]

theorem bundle_cost_le (same : sets.Perm jobs.flatten) :
    chainCost feeRate (groups [] sets) ≤ chainCost feeRate jobs := by
  cases sets with
  | nil => exact Nat.zero_le _
  | cons set sets =>
      have some : jobs.map size ≠ [] := by
        intro none
        rw [List.map_eq_nil_iff.mp none] at same
        exact absurd same.eq_nil (List.cons_ne_nil _ _)
      calc chainCost feeRate (groups [] (set :: sets))
          = cost feeRate (jobs.map size).sum := by
            rw [← size_flatten, ← size_perm same]
            simp [chainCost, groups]
        _ ≤ chainCost feeRate jobs :=
            List.le_sum_nonempty_of_subadditive _ (cost_subadditive feeRate) _ some

/-! ### One transaction -/

/-- A transaction of all accounts has as many inputs and outputs as the groups and
the fee account together. -/
theorem one_transaction_cost_le (count : Nat) :
    computedFee feeRate (inputCount jobs.flatten + (count + 1)) (jobs.flatten.length + 1) ≤
      chainCost feeRate jobs + computedFee feeRate (count + 1) 1 := by
  have some : jobs.map size ++ [(count, 0)] ≠ [] := List.append_ne_nil_of_right_ne_nil _ (by simp)
  have whole : (jobs.map size ++ [(count, 0)]).sum = size jobs.flatten + (count, 0) := by
    rw [List.sum_append, List.sum_singleton, size_flatten]
  have merged := List.le_sum_nonempty_of_subadditive _ (cost_subadditive feeRate) _ some
  have own : cost feeRate (count, 0) = computedFee feeRate (count + 1) 1 := by
    rw [cost, Nat.zero_add]
  have total : cost feeRate (size jobs.flatten + (count, 0)) =
      computedFee feeRate (inputCount jobs.flatten + (count + 1)) (jobs.flatten.length + 1) := by
    simp only [cost, size, Prod.fst_add, Prod.snd_add, Nat.add_assoc, Nat.zero_add]
  rw [whole, total, List.map_append, List.sum_append, List.map_singleton, List.sum_singleton,
    own] at merged
  exact merged

theorem sweep_fee_le (distinct : (accounts.map (·.accountIdx)).Nodup)
    (paysFees : PaysFees feeAccountIdx accounts feeAccount firstUtxo) :
    (sweepFee .checked accounts feeRate).sat ≤
      planFees feeAccountIdx smallAccountThreshold accounts .checked feeRate feeAccount := by
  have one := one_fee_set distinct paysFees.1
  have all : (fundedSets accounts).Perm
      ((planGroups feeAccountIdx smallAccountThreshold accounts).flatten ++ [feeAccount]) := by
    have parts := @customers_and_fee_perm feeAccountIdx accounts
    rw [one] at parts
    exact parts.symm.trans (plan_groups_perm.symm.append_right _)
  obtain ⟨count, counted⟩ : ∃ count, feeAccount.utxos.length = count + 1 := by
    obtain ⟨others, split⟩ := List.head?_eq_some_iff.mp paysFees.2
    exact ⟨others.length, by rw [split, List.length_cons]⟩
  have sizes := size_perm all
  rw [size_append] at sizes
  have inputs := congrArg Prod.fst sizes
  have outputs := congrArg Prod.snd sizes
  simp only [size, Prod.fst_add, Prod.snd_add, List.length_singleton] at inputs outputs
  have own : inputCount [feeAccount] = count + 1 := by simp [inputCount, counted]
  rw [sweepFee, estimate_fee_checked, inputs, outputs, own, planFees, plannedFees,
    chain_fees_eq_cost, estimate_fee_checked, counted]
  exact one_transaction_cost_le count

/-- Where the chain can be planned the single transaction can be, at the same price
or less. -/
theorem single_sweep_never_dearer (distinct : (accounts.map (·.accountIdx)).Nodup)
    (accepted : planBatchedSweep .checked feeAccountIdx smallAccountThreshold accounts old new
      feeRate = .ok plan) :
    ∃ sweep, planSweep .checked feeAccountIdx accounts old new feeRate = .ok sweep ∧
      sweep.totalFees.sat ≤ plan.totalFees.sat := by
  obtain ⟨rfl, feeAccount, firstUtxo, paysFees, fits, built⟩ := plan_batched_eq_ok.mp accepted
  obtain ⟨_, _, remaining, _, total, left, _⟩ := built
  have cheaper : (sweepFee .checked accounts feeRate).sat ≤ plan.totalFees.sat := by
    rw [total]
    exact sweep_fee_le distinct paysFees
  have one := one_fee_set distinct paysFees.1
  have values : ∀ set ∈ fundedSets accounts, set.value < 2 ^ 64 ∧
      (set.accountIdx = feeAccountIdx → set = feeAccount) := by
    intro set member
    by_cases pays : set.accountIdx = feeAccountIdx
    · have same : set ∈ [feeAccount] := by
        rw [← one]
        exact List.mem_filter.mpr ⟨member, decide_eq_true pays⟩
      have equal := List.mem_singleton.mp same
      exact ⟨equal ▸ fits.1, fun _ => equal⟩
    · exact ⟨fits.2 set (List.mem_filter.mpr ⟨member, decide_eq_true pays⟩),
        fun index => absurd index pays⟩
  obtain ⟨sweep, planned⟩ := @sweep_planned .checked feeAccountIdx accounts old feeRate feeAccount
    paysFees.1 (fun set member => (values set member).1) (by
      intro set member pays
      rw [(values set member).2 pays]
      omega)
  refine ⟨sweep, planned, ?_⟩
  obtain ⟨_, _, _, _, _, _, _, rfl⟩ := plan_sweep_eq_ok.mp planned
  exact cheaper

/-! ### The threshold -/

theorem is_large_of_higher (raised : lower.sat ≤ higher.sat) {set : AccountUtxoSet}
    (large : IsLarge higher set) : IsLarge lower set :=
  Nat.le_trans raised large

def movedSets (feeAccountIdx : UInt32) (lower higher : Amount) (accounts : List AccountUtxoSet) :
    List AccountUtxoSet :=
  (largeSets feeAccountIdx lower accounts).filter fun set => ¬ IsLarge higher set

theorem large_sets_perm (raised : lower.sat ≤ higher.sat) :
    (largeSets feeAccountIdx higher accounts ++ movedSets feeAccountIdx lower higher accounts).Perm
      (largeSets feeAccountIdx lower accounts) := by
  have parts := List.filter_append_perm (fun set => decide (IsLarge higher set))
    (largeSets feeAccountIdx lower accounts)
  have kept : (largeSets feeAccountIdx lower accounts).filter
      (fun set => decide (IsLarge higher set)) = largeSets feeAccountIdx higher accounts := by
    rw [largeSets, largeSets, List.filter_filter]
    apply List.filter_congr
    intro set _
    by_cases large : IsLarge higher set
    · simp [large, is_large_of_higher raised large]
    · simp [large]
  rw [kept] at parts
  simpa only [movedSets, decide_not] using parts

theorem small_sets_perm (raised : lower.sat ≤ higher.sat) :
    (smallSets feeAccountIdx higher accounts).Perm
      (groups (movedSets feeAccountIdx lower higher accounts)
        (smallSets feeAccountIdx lower accounts)).flatten := by
  have bySmall := @plan_groups_perm feeAccountIdx higher accounts
  have byLarge := @plan_groups_perm feeAccountIdx lower accounts
  rw [planGroups, flatten_groups] at bySmall byLarge
  have moved := @large_sets_perm feeAccountIdx lower higher accounts raised
  rw [flatten_groups]
  apply (List.perm_append_left_iff (largeSets feeAccountIdx higher accounts)).mp
  rw [← List.append_assoc]
  exact bySmall.trans (byLarge.symm.trans (moved.symm.append_right _))

theorem groups_append (first second small : List AccountUtxoSet) :
    groups (first ++ second) small = groups first [] ++ groups second small := by
  simp [groups]

theorem groups_perm {others : List AccountUtxoSet} (same : sets.Perm others)
    (small : List AccountUtxoSet) : (groups sets small).Perm (groups others small) :=
  (same.map _).append_right _

/-- Both chains serve the accounts that are large either way, one by one. -/
theorem plan_groups_split (raised : lower.sat ≤ higher.sat) :
    planGroups feeAccountIdx higher accounts =
        groups (largeSets feeAccountIdx higher accounts) [] ++
          groups [] (smallSets feeAccountIdx higher accounts) ∧
      (planGroups feeAccountIdx lower accounts).Perm
        (groups (largeSets feeAccountIdx higher accounts) [] ++
          groups (movedSets feeAccountIdx lower higher accounts)
            (smallSets feeAccountIdx lower accounts)) := by
  constructor
  · rw [planGroups, ← groups_append, List.append_nil]
  · rw [planGroups, ← groups_append]
    exact groups_perm (large_sets_perm raised).symm _

theorem chain_cost_anti (raised : lower.sat ≤ higher.sat) :
    chainCost feeRate (planGroups feeAccountIdx higher accounts) ≤
      chainCost feeRate (planGroups feeAccountIdx lower accounts) := by
  obtain ⟨split, same⟩ := @plan_groups_split feeAccountIdx lower higher accounts raised
  rw [split, chain_cost_perm same, chain_cost_append, chain_cost_append]
  exact Nat.add_le_add_left (bundle_cost_le (small_sets_perm raised)) _

theorem group_count_anti (raised : lower.sat ≤ higher.sat) :
    (planGroups feeAccountIdx higher accounts).length ≤
      (planGroups feeAccountIdx lower accounts).length := by
  obtain ⟨split, same⟩ := @plan_groups_split feeAccountIdx lower higher accounts raised
  rw [split, same.length_eq, List.length_append, List.length_append]
  apply Nat.add_le_add_left
  cases bundled : smallSets feeAccountIdx higher accounts with
  | nil => exact Nat.zero_le _
  | cons set sets =>
      have bundle := @small_sets_perm feeAccountIdx lower higher accounts raised
      rw [bundled] at bundle
      apply List.length_pos_of_ne_nil
      intro none
      rw [none] at bundle
      exact absurd bundle.eq_nil (List.cons_ne_nil _ _)

/-- A higher threshold never turns a plan away, and its plan is no dearer and no
longer. -/
theorem higher_threshold_never_dearer (raised : lower.sat ≤ higher.sat)
    (accepted : planBatchedSweep .checked feeAccountIdx lower accounts old new feeRate =
      .ok plan) :
    ∃ bundled, planBatchedSweep .checked feeAccountIdx higher accounts old new feeRate =
        .ok bundled ∧ bundled.totalFees.sat ≤ plan.totalFees.sat ∧
      bundled.sweepTransactions.length ≤ plan.sweepTransactions.length := by
  obtain ⟨same, feeAccount, firstUtxo, paysFees, fits, built⟩ := plan_batched_eq_ok.mp accepted
  have covered := (built_plan_exists fits).mp ⟨plan, built⟩
  have cheaper := @chain_cost_anti feeAccountIdx lower higher accounts feeRate raised
  have fewer := @group_count_anti feeAccountIdx lower higher accounts raised
  have lowerFees : planFees feeAccountIdx higher accounts .checked feeRate feeAccount ≤
      planFees feeAccountIdx lower accounts .checked feeRate feeAccount := by
    rw [planFees, planFees, plannedFees, plannedFees, chain_fees_eq_cost, chain_fees_eq_cost]
    exact Nat.add_le_add_right cheaper _
  rw [← chain_fees_eq_cost, ← chain_fees_eq_cost] at cheaper
  obtain ⟨bundled, rebuilt⟩ := (built_plan_exists fits).mpr
    ⟨Nat.le_trans cheaper covered.1, Nat.le_trans lowerFees covered.2⟩
  refine ⟨bundled, plan_batched_eq_ok.mpr ⟨same, feeAccount, firstUtxo, paysFees, fits, rebuilt⟩,
    ?_, ?_⟩
  · obtain ⟨_, _, _, _, total, _⟩ := built
    obtain ⟨_, _, _, _, bundledTotal, _⟩ := rebuilt
    rw [total, bundledTotal]
    exact lowerFees
  · obtain ⟨_, _, _, relay, _, _, all, _⟩ := built
    obtain ⟨_, _, _, bundledRelay, _, _, bundledAll, _⟩ := rebuilt
    rw [all, bundledAll, List.length_append, List.length_append, relay.length_eq,
      bundledRelay.length_eq]
    exact Nat.add_le_add_right fewer _

open MigrationSafety (bundleThreshold testnet testRate)

theorem mixed_accounts_planned :
    planBatchedSweep .checked 0 bundleThreshold mixedAccounts testnet testnet testRate =
      .ok mixedPlan := rfl

theorem mixed_single_sweep_cheaper :
    ∃ sweep, planSweep .checked 0 mixedAccounts testnet testnet testRate = .ok sweep ∧
      sweep.totalFees.sat ≤ mixedPlan.totalFees.sat :=
  single_sweep_never_dearer (by decide) mixed_accounts_planned

/-- All three customers in one bundle. -/
theorem mixed_bundle_cheaper :
    ∃ bundled, planBatchedSweep .checked 0 (.fromSat 200000) mixedAccounts testnet testnet
        testRate = .ok bundled ∧ bundled.totalFees.sat ≤ mixedPlan.totalFees.sat ∧
      bundled.sweepTransactions.length ≤ mixedPlan.sweepTransactions.length :=
  higher_threshold_never_dearer (by decide) mixed_accounts_planned

end EmvaultCore.SweepCosts
