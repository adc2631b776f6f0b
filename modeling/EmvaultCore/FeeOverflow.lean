import EmvaultCore.FeeEstimate
import EmvaultCore.RepeatedAccounts

/-!
# Fees that cannot be computed

`estimate_fee` multiplies in checked 64-bit words and answers zero where a product
overflows. The balance check then passes for any fee account, so a plan is exact
just where no product of its transactions overflows.
-/

namespace EmvaultCore.FeeOverflow

open Migration MigrationSafety Library SweepChain SweepAgreement RepeatedAccounts FeeEstimate

def shapeWeight (inputs outputs : Nat) : Nat := 4 * (10 + 105 * inputs + 32 * outputs)

/-- The fee in unbounded integers, rounded up. -/
def exactFee (feeRate : FeeRate) (inputs outputs : Nat) : Nat :=
  (feeRate.val * shapeWeight inputs outputs + 999) / 1000

/-- No step of the computation leaves the 64-bit words. -/
def Computable (feeRate : FeeRate) (inputs outputs : Nat) : Prop :=
  feeRate.val * shapeWeight inputs outputs + 999 < 2 ^ 64

instance {feeRate : FeeRate} {inputs outputs : Nat} :
    Decidable (Computable feeRate inputs outputs) :=
  inferInstanceAs (Decidable (_ < _))

def computedFee (feeRate : FeeRate) (inputs outputs : Nat) : Nat :=
  if Computable feeRate inputs outputs then exactFee feeRate inputs outputs else 0

def exactFees (feeRate : FeeRate) (plan : MigrationPlan) : Nat :=
  ((shapes plan).map fun shape => exactFee feeRate shape.1 shape.2).sum

/-- The plan charges what its transactions cost, and the fee account has it. -/
structure ChargesFully (feeRate : FeeRate) (feeAccountIdx : UInt32)
    (accounts : List AccountUtxoSet) (plan : MigrationPlan) : Prop where
  charged : exactFees feeRate plan ≤ plan.totalFees.sat
  covered : ∀ feeAccount,
    (fundedSets accounts).find? (·.accountIdx = feeAccountIdx) = some feeAccount →
      plan.totalFees.sat ≤ feeAccount.value

structure FeesNeverVanish (feeAccountIdx : UInt32) (smallAccountThreshold : Amount)
    (accounts : List AccountUtxoSet) (old new : NetworkType) (feeRate : FeeRate) : Prop where
  sweep : ∀ plan, planSweep .checked feeAccountIdx accounts old new feeRate = .ok plan →
    ChargesFully feeRate feeAccountIdx accounts plan
  batched : ∀ plan, planBatchedSweep .checked feeAccountIdx smallAccountThreshold accounts old new
    feeRate = .ok plan → ChargesFully feeRate feeAccountIdx accounts plan

/-- A larger transaction or a higher rate never costs less. -/
def EstimatesGrow (feeRate : FeeRate) (inputs outputs : Nat) : Prop :=
  ∀ fewer ≤ inputs, ∀ less ≤ outputs, ∀ lower ≤ feeRate,
    (estimateFee .checked fewer less lower).sat ≤ (estimateFee .checked inputs outputs feeRate).sat

/-- A sweep in one transaction whose fee is nothing is planned. -/
def SweepReached (feeAccountIdx : UInt32) (accounts : List AccountUtxoSet)
    (old new : NetworkType) : Prop :=
  old = new ∧
    (∃ feeAccount,
      (fundedSets accounts).find? (·.accountIdx = feeAccountIdx) = some feeAccount) ∧
    ∀ set ∈ fundedSets accounts, set.value < 2 ^ 64

/-- A batched sweep is planned as far as the fees that can be computed allow. -/
def BatchReached (feeAccountIdx : UInt32) (smallAccountThreshold : Amount)
    (accounts : List AccountUtxoSet) (old new : NetworkType) (feeRate : FeeRate) : Prop :=
  old = new ∧ ∃ feeAccount firstUtxo, PaysFees feeAccountIdx accounts feeAccount firstUtxo ∧
    ValuesFit feeAccountIdx accounts feeAccount ∧
    ((planGroups feeAccountIdx smallAccountThreshold accounts).map fun group =>
      computedFee feeRate (inputCount group + 1) (group.length + 1)).sum ≤
        firstUtxo.txout.value.sat ∧
    ((batchShapes feeAccountIdx smallAccountThreshold accounts feeAccount).map fun shape =>
      computedFee feeRate shape.1 shape.2).sum ≤ feeAccount.value

def BatchComputable (feeAccountIdx : UInt32) (smallAccountThreshold : Amount)
    (accounts : List AccountUtxoSet) (feeRate : FeeRate) : Prop :=
  ∀ feeAccount,
    (fundedSets accounts).find? (·.accountIdx = feeAccountIdx) = some feeAccount →
      ∀ shape ∈ batchShapes feeAccountIdx smallAccountThreshold accounts feeAccount,
        Computable feeRate shape.1 shape.2

variable {feeAccountIdx : UInt32} {smallAccountThreshold : Amount}
  {accounts : List AccountUtxoSet} {old new : NetworkType} {feeRate : FeeRate}
  {feeAccount : AccountUtxoSet} {firstUtxo : LocalOutput} {plan : MigrationPlan}
  {inputs outputs : Nat}

/-! ### The estimate -/

theorem estimate_fee_checked :
    (estimateFee .checked inputs outputs feeRate).sat = computedFee feeRate inputs outputs := by
  have weight : (10 + inputs * 105 + outputs * 32) * 4 = shapeWeight inputs outputs := by
    rw [shapeWeight]
    omega
  simp only [estimateFee, FeeArithmetic.checked, weight]
  by_cases fits : Computable feeRate inputs outputs
  · have product : feeRate.val * shapeWeight inputs outputs + 999 < 2 ^ 64 := fits
    rw [computedFee, if_pos fits]
    by_cases heavy : shapeWeight inputs outputs < 2 ^ 64
    · rw [dif_pos heavy, Option.getD_some, dif_pos product]
      rfl
    · -- A weight that overflows keeps the product small only at rate zero.
      have free : feeRate.val = 0 := by
        by_contra charged
        have large := Nat.mul_le_mul (Nat.pos_of_ne_zero charged) (Nat.le_of_not_lt heavy)
        omega
      rw [dif_neg heavy]
      simp [exactFee, free]
  · have product : ¬ feeRate.val * shapeWeight inputs outputs + 999 < 2 ^ 64 := fits
    rw [computedFee, if_neg fits]
    by_cases heavy : shapeWeight inputs outputs < 2 ^ 64
    · rw [dif_pos heavy, Option.getD_some, dif_neg product]
      rfl
    · rw [dif_neg heavy]
      simp

theorem computed_fee_le : computedFee feeRate inputs outputs ≤ exactFee feeRate inputs outputs := by
  rw [computedFee]
  split
  · exact Nat.le_refl _
  · exact Nat.zero_le _

theorem computed_fee_exact_iff :
    exactFee feeRate inputs outputs ≤ computedFee feeRate inputs outputs ↔
      Computable feeRate inputs outputs := by
  rw [computedFee]
  by_cases fits : Computable feeRate inputs outputs
  · simp [fits]
  · rw [if_neg fits]
    rw [Computable] at fits
    simp only [Computable, fits, iff_false, exactFee]
    omega

theorem exact_fee_mono {fewer less : Nat} {lower : FeeRate} (inputsGrow : fewer ≤ inputs)
    (outputsGrow : less ≤ outputs) (rateGrows : lower ≤ feeRate) :
    lower.val * shapeWeight fewer less ≤ feeRate.val * shapeWeight inputs outputs := by
  apply Nat.mul_le_mul rateGrows
  rw [shapeWeight, shapeWeight]
  omega

theorem estimates_grow_iff :
    EstimatesGrow feeRate inputs outputs ↔ Computable feeRate inputs outputs := by
  constructor
  · intro grow
    by_contra overflow
    have rate : 0 < feeRate.val := by
      apply Nat.pos_of_ne_zero
      intro free
      simp [Computable, free] at overflow
    have one : (1 : FeeRate) ≤ feeRate := by
      rw [Fin.le_def]
      exact rate
    have least := grow 0 (Nat.zero_le _) 0 (Nat.zero_le _) 1 one
    rw [@estimate_fee_checked feeRate, computedFee, if_neg overflow] at least
    exact absurd least (by decide)
  · intro fits fewer inputsGrow less outputsGrow lower rateGrows
    have product := exact_fee_mono inputsGrow outputsGrow rateGrows
    have lowerFits : Computable lower fewer less :=
      Nat.lt_of_le_of_lt (Nat.add_le_add_right product 999) fits
    rw [estimate_fee_checked, estimate_fee_checked, computedFee, computedFee, if_pos fits,
      if_pos lowerFits, exactFee, exactFee]
    omega

theorem computed_sum_iff (listed : List (Nat × Nat)) :
    (listed.map fun shape => exactFee feeRate shape.1 shape.2).sum ≤
        (listed.map fun shape => computedFee feeRate shape.1 shape.2).sum ↔
      ∀ shape ∈ listed, Computable feeRate shape.1 shape.2 := by
  induction listed with
  | nil => simp
  | cons shape listed ih =>
      have here := @computed_fee_le feeRate shape.1 shape.2
      have later : (listed.map fun shape => computedFee feeRate shape.1 shape.2).sum ≤
          (listed.map fun shape => exactFee feeRate shape.1 shape.2).sum :=
        List.sum_le_sum fun _ _ => computed_fee_le
      rw [List.forall_mem_cons, ← ih, ← computed_fee_exact_iff, List.map_cons, List.map_cons,
        List.sum_cons, List.sum_cons]
      omega

/-! ### The planners -/

theorem sweep_plan_fees
    (accepted : planSweep .checked feeAccountIdx accounts old new feeRate = .ok plan) :
    exactFees feeRate plan =
        exactFee feeRate (inputCount (fundedSets accounts)) (fundedSets accounts).length ∧
      plan.totalFees.sat =
        computedFee feeRate (inputCount (fundedSets accounts)) (fundedSets accounts).length := by
  obtain ⟨_, _, _, _, _, outputs, all, rfl⟩ := plan_sweep_eq_ok.mp accepted
  constructor
  · simp only [exactFees, shapes, sweepTransaction, List.map_singleton, List.sum_singleton,
      count_outpoints, all.length_eq]
  · dsimp only
    rw [sweepFee, estimate_fee_checked]

theorem sweep_charges_iff :
    (∀ plan, planSweep .checked feeAccountIdx accounts old new feeRate = .ok plan →
      ChargesFully feeRate feeAccountIdx accounts plan) ↔
      Computable feeRate (inputCount (fundedSets accounts)) (fundedSets accounts).length ∨
        ¬ SweepReached feeAccountIdx accounts old new := by
  constructor
  · intro charges
    apply or_iff_not_imp_right.mpr
    intro reached
    obtain ⟨rfl, ⟨feeAccount, found⟩, fits⟩ := not_not.mp reached
    by_contra overflow
    have free : (sweepFee .checked accounts feeRate).sat = 0 := by
      rw [sweepFee, estimate_fee_checked, computedFee, if_neg overflow]
    obtain ⟨plan, accepted⟩ := @sweep_planned .checked feeAccountIdx accounts old feeRate feeAccount
      found fits fun set _ _ => by omega
    have spent := sweep_plan_fees accepted
    have charged := (charges plan accepted).charged
    rw [spent.1, spent.2] at charged
    exact overflow (computed_fee_exact_iff.mp charged)
  · intro condition plan accepted
    have spent := sweep_plan_fees accepted
    have fits := values_fit_of_accepted accepted
    obtain ⟨same, feeAccount, found, _, covered, _, _, rfl⟩ := plan_sweep_eq_ok.mp accepted
    cases condition with
    | inr stopped => exact absurd ⟨same, ⟨feeAccount, found⟩, fits⟩ stopped
    | inl computable =>
        constructor
        · rw [spent.1, spent.2]
          exact computed_fee_exact_iff.mpr computable
        · intro other also
          obtain rfl := Option.some.inj (found.symm.trans also)
          exact covered

theorem chain_fees_checked :
    chainFees .checked feeRate (largeSets feeAccountIdx smallAccountThreshold accounts)
        (smallSets feeAccountIdx smallAccountThreshold accounts) =
      ((planGroups feeAccountIdx smallAccountThreshold accounts).map fun group =>
        computedFee feeRate (inputCount group + 1) (group.length + 1)).sum := by
  simp only [chainFees, planGroups, groupFee, estimate_fee_checked]

theorem plan_fees_checked :
    planFees feeAccountIdx smallAccountThreshold accounts .checked feeRate feeAccount =
      ((batchShapes feeAccountIdx smallAccountThreshold accounts feeAccount).map fun shape =>
        computedFee feeRate shape.1 shape.2).sum := by
  rw [planFees, plannedFees, chain_fees_checked, estimate_fee_checked, batchShapes, List.map_append,
    List.sum_append, List.map_map, List.map_singleton, List.sum_singleton, Function.comp_def]

theorem covers_batch_iff :
    CoversBatch .checked feeAccountIdx smallAccountThreshold accounts old new feeRate ↔
      BatchReached feeAccountIdx smallAccountThreshold accounts old new feeRate := by
  simp only [CoversBatch, BatchReached, chain_fees_checked, plan_fees_checked]

theorem batched_charges_iff :
    (∀ plan, planBatchedSweep .checked feeAccountIdx smallAccountThreshold accounts old new
        feeRate = .ok plan → ChargesFully feeRate feeAccountIdx accounts plan) ↔
      BatchComputable feeAccountIdx smallAccountThreshold accounts feeRate ∨
        ¬ BatchReached feeAccountIdx smallAccountThreshold accounts old new feeRate := by
  have spent : ∀ plan, planBatchedSweep .checked feeAccountIdx smallAccountThreshold accounts old
      new feeRate = .ok plan → ∃ feeAccount,
        (fundedSets accounts).find? (·.accountIdx = feeAccountIdx) = some feeAccount ∧
        plan.totalFees.sat ≤ feeAccount.value ∧
        (exactFees feeRate plan ≤ plan.totalFees.sat ↔
          ∀ shape ∈ batchShapes feeAccountIdx smallAccountThreshold accounts feeAccount,
            Computable feeRate shape.1 shape.2) := by
    intro plan accepted
    obtain ⟨_, feeAccount, firstUtxo, paysFees, _, built⟩ := plan_batched_eq_ok.mp accepted
    have total := (accepted_plan_fees paysFees accepted).1
    refine ⟨feeAccount, paysFees.1, ?_, ?_⟩
    · obtain ⟨_, _, remaining, _, _, left, _⟩ := built
      omega
    · rw [total, plan_fees_checked, exactFees, built_plan_shapes paysFees.2 built]
      exact computed_sum_iff _
  constructor
  · intro charges
    apply or_iff_not_imp_right.mpr
    intro reached feeAccount found
    obtain ⟨plan, accepted⟩ := batched_accepted_iff.mpr (covers_batch_iff.mpr (not_not.mp reached))
    obtain ⟨payer, paying, _, exact⟩ := spent plan accepted
    obtain rfl := Option.some.inj (paying.symm.trans found)
    exact exact.mp (charges plan accepted).charged
  · intro condition plan accepted
    obtain ⟨payer, paying, covered, exact⟩ := spent plan accepted
    cases condition with
    | inr stopped =>
        exact absurd (covers_batch_iff.mp (batched_accepted_iff.mp ⟨plan, accepted⟩)) stopped
    | inl computable =>
        constructor
        · exact exact.mpr (computable payer paying)
        · intro other found
          obtain rfl := Option.some.inj (paying.symm.trans found)
          exact covered

/-- Neither planner undercharges exactly when no fee overflows, or the planner does
not get as far as the plan; and the estimate grows with the transaction and the
rate exactly up to where it overflows. -/
theorem fees_never_vanish_iff :
    (FeesNeverVanish feeAccountIdx smallAccountThreshold accounts old new feeRate ↔
      (Computable feeRate (inputCount (fundedSets accounts)) (fundedSets accounts).length ∨
          ¬ SweepReached feeAccountIdx accounts old new) ∧
        (BatchComputable feeAccountIdx smallAccountThreshold accounts feeRate ∨
          ¬ BatchReached feeAccountIdx smallAccountThreshold accounts old new feeRate)) ∧
      ∀ inputs outputs, EstimatesGrow feeRate inputs outputs ↔
        Computable feeRate inputs outputs := by
  constructor
  · rw [← sweep_charges_iff, ← batched_charges_iff]
    constructor
    · intro never
      exact ⟨never.sweep, never.batched⟩
    · intro both
      exact ⟨both.1, both.2⟩
  · intro inputs outputs
    exact estimates_grow_iff

def maxRate : FeeRate := ⟨2 ^ 64 - 1, by decide⟩

def poorAccounts : List AccountUtxoSet :=
  [⟨0, [testUtxo 1 (.fromSat 1000)], testAddress⟩, ⟨1, [testUtxo 2 (.fromSat 100000)], testAddress⟩]

/-- At the highest rate both planners sweep for nothing. -/
theorem highest_rate_is_free :
    (∃ plan, planSweep .checked 0 poorAccounts testnet testnet maxRate = .ok plan ∧
        plan.totalFees = Amount.zero ∧ 0 < exactFees maxRate plan) ∧
      (∃ plan, planBatchedSweep .checked 0 bundleThreshold poorAccounts testnet testnet maxRate =
        .ok plan ∧ plan.totalFees = Amount.zero ∧ 0 < exactFees maxRate plan) ∧
      ¬ FeesNeverVanish 0 bundleThreshold poorAccounts testnet testnet maxRate ∧
      ¬ EstimatesGrow maxRate 2 2 := by
  have undercharged : ¬ FeesNeverVanish 0 bundleThreshold poorAccounts testnet testnet maxRate := by
    intro never
    exact absurd (never.sweep _ rfl).charged (by decide)
  refine ⟨⟨_, rfl, by decide, by decide⟩, ⟨_, rfl, by decide, by decide⟩, undercharged, ?_⟩
  intro grows
  exact absurd (grows 0 (by decide) 0 (by decide) 1 (by decide)) (by decide)

end EmvaultCore.FeeOverflow
