import EmvaultCore.FeeEstimate
import EmvaultCore.SweepAgreement

/-!
# The order of the accounts

A planner reads its accounts as a list. With distinct indices the order decides
only which customer comes when: the outcome, what is spent, what is paid and what
is left are those of any other order.
-/

namespace EmvaultCore.AccountOrder

open Migration MigrationSafety Library SweepChain SweepAgreement FeeEstimate

/-- Two calls end alike: with related values, with the same error or with a panic. -/
inductive Alike {Error Value Other : Type} (related : Value → Other → Prop) :
    Outcome Error Value → Outcome Error Other → Prop
  | ok {value : Value} {other : Other} (relates : related value other) :
      Alike related (.ok value) (.ok other)
  | error (cause : Error) : Alike related (.error (.error cause)) (.error (.error cause))
  | panic (message other : String) :
      Alike related (.error (.panic message)) (.error (.panic other))

/-- What the order of the accounts leaves as it is in a plan. -/
structure SameMoves (plan other : MigrationPlan) : Prop where
  fees : plan.totalFees = other.totalFees
  utxoCount : plan.utxoCount = other.utxoCount
  transactions : plan.sweepTransactions.length = other.sweepTransactions.length
  coins : spentCoins plan = spentCoins other
  customers : customerOutputs plan = customerOutputs other
  change : finalFeeChanges plan = finalFeeChanges other

section Alike

variable {Error Value Other Next Later : Type} {related : Value → Other → Prop}
  {follows : Next → Later → Prop}

theorem alike_bind {first : Outcome Error Value} {second : Outcome Error Other}
    {next : Value → Outcome Error Next} {later : Other → Outcome Error Later}
    (starts : Alike related first second)
    (rest : ∀ value other, first = .ok value → second = .ok other → related value other →
      Alike follows (next value) (later other)) :
    Alike follows (first >>= next) (second >>= later) := by
  cases starts with
  | ok relates => exact rest _ _ rfl rfl relates
  | error cause => exact .error cause
  | panic message other => exact .panic message other

theorem alike_bind_same (first : Outcome Error Value) {next : Value → Outcome Error Next}
    {later : Value → Outcome Error Later}
    (rest : ∀ value, first = .ok value → Alike follows (next value) (later value)) :
    Alike follows (first >>= next) (first >>= later) := by
  cases answer : first with
  | error stop =>
      cases stop with
      | panic message => exact .panic message message
      | error cause => exact .error cause
  | ok value => exact rest value answer

theorem alike_of_ok {first : Outcome Empty Value} {second : Outcome Empty Other}
    (forth : ∀ value, first = .ok value → ∃ other, second = .ok other)
    (back : ∀ other, second = .ok other → ∃ value, first = .ok value)
    (relates : ∀ value other, first = .ok value → second = .ok other → related value other) :
    Alike related (first.lift : Outcome Error Value) (second.lift : Outcome Error Other) := by
  cases one : first with
  | ok value =>
      obtain ⟨other, two⟩ := forth value one
      rw [two]
      exact .ok (relates value other one two)
  | error stop =>
      cases two : second with
      | ok other =>
          obtain ⟨value, also⟩ := back other two
          rw [one] at also
          cases also
      | error stop' =>
          cases stop with
          | error cause => cases cause
          | panic message =>
              cases stop' with
              | error cause => cases cause
              | panic other => exact .panic message other

theorem alike_of_values {first : Outcome Error Value} {second : Outcome Error Other}
    (ends : Alike (fun _ _ => True) first second)
    (relates : ∀ value other, first = .ok value → second = .ok other → related value other) :
    Alike related first second := by
  cases ends with
  | ok _ => exact .ok (relates _ _ rfl rfl)
  | error cause => exact .error cause
  | panic message other => exact .panic message other

end Alike

variable {fees : FeeArithmetic} {feeAccountIdx : UInt32} {smallAccountThreshold fee : Amount}
  {accounts others : List AccountUtxoSet} {old new : NetworkType} {feeRate : FeeRate}
  {feeAccount : AccountUtxoSet} {firstUtxo : LocalOutput} {plan other : MigrationPlan}

/-! ### What the order leaves alone -/

section Permuted

variable (permuted : accounts.Perm others)
include permuted

theorem funded_perm : (fundedSets accounts).Perm (fundedSets others) := permuted.filter _

theorem non_fee_perm :
    (nonFeeSets feeAccountIdx accounts).Perm (nonFeeSets feeAccountIdx others) :=
  (funded_perm permuted).filter _

theorem ensure_funded_eq :
    ensureFunded (fundedSets accounts) = ensureFunded (fundedSets others) := by
  rw [ensureFunded, ensureFunded, (funded_perm permuted).isEmpty_eq]

theorem input_count_eq : inputCount accounts = inputCount others :=
  (permuted.map _).sum_eq

theorem find_fee_account_perm (distinct : (accounts.map (·.accountIdx)).Nodup) :
    (fundedSets accounts).find? (·.accountIdx = feeAccountIdx) =
      (fundedSets others).find? (·.accountIdx = feeAccountIdx) := by
  have funded := funded_perm permuted
  have fundedDistinct : ((fundedSets others).map (·.accountIdx)).Nodup :=
    ((permuted.map _).nodup_iff.mp distinct).sublist ((List.filter_sublist).map _)
  cases found : (fundedSets accounts).find? (·.accountIdx = feeAccountIdx) with
  | none =>
      rw [eq_comm, List.find?_eq_none]
      intro set member
      exact List.find?_eq_none.mp found set (funded.mem_iff.mpr member)
  | some feeAccount =>
      have index : feeAccount.accountIdx = feeAccountIdx := by simpa using List.find?_some found
      have member := funded.mem_iff.mp (List.mem_of_find?_eq_some found)
      have also := Keyed.find_of_nodup_map fundedDistinct member
      rw [index] at also
      exact also.symm

theorem large_perm :
    (largeSets feeAccountIdx smallAccountThreshold accounts).Perm
      (largeSets feeAccountIdx smallAccountThreshold others) :=
  (non_fee_perm permuted).filter _

theorem small_perm :
    (smallSets feeAccountIdx smallAccountThreshold accounts).Perm
      (smallSets feeAccountIdx smallAccountThreshold others) :=
  (non_fee_perm permuted).filter _

theorem group_sum_eq (count : List AccountUtxoSet → Nat)
    (anyOrder : ∀ group group', group.Perm group' → count group = count group') :
    ((planGroups feeAccountIdx smallAccountThreshold accounts).map count).sum =
      ((planGroups feeAccountIdx smallAccountThreshold others).map count).sum := by
  have large := @large_perm feeAccountIdx smallAccountThreshold _ _ permuted
  have small := @small_perm feeAccountIdx smallAccountThreshold _ _ permuted
  have singles := ((large.map ([·])).map count).sum_eq
  rw [planGroups, planGroups, groups, groups, List.map_append, List.map_append, List.sum_append,
    List.sum_append, singles, small.isEmpty_eq]
  split
  · rfl
  · simp only [List.map_singleton, List.sum_singleton, anyOrder _ _ small]

theorem chain_fees_eq :
    chainFees fees feeRate (largeSets feeAccountIdx smallAccountThreshold accounts)
        (smallSets feeAccountIdx smallAccountThreshold accounts) =
      chainFees fees feeRate (largeSets feeAccountIdx smallAccountThreshold others)
        (smallSets feeAccountIdx smallAccountThreshold others) := by
  apply group_sum_eq permuted
  intro group group' same
  rw [groupFee, groupFee, input_count_eq same, same.length_eq]

theorem plan_fees_eq :
    planFees feeAccountIdx smallAccountThreshold accounts fees feeRate feeAccount =
      planFees feeAccountIdx smallAccountThreshold others fees feeRate feeAccount := by
  rw [planFees, planFees, plannedFees, plannedFees, chain_fees_eq permuted]

theorem sweep_fee_eq : sweepFee fees accounts feeRate = sweepFee fees others feeRate := by
  have funded := funded_perm permuted
  rw [sweepFee, sweepFee, input_count_eq funded, funded.length_eq]

theorem group_count_eq :
    (planGroups feeAccountIdx smallAccountThreshold accounts).length =
      (planGroups feeAccountIdx smallAccountThreshold others).length := by
  have ones := @group_sum_eq feeAccountIdx smallAccountThreshold _ _ permuted (fun _ => 1)
    fun _ _ _ => rfl
  simpa using ones

end Permuted

theorem paid_perm {sets sets' : List AccountUtxoSet} {paid paid' : List SweepOutput}
    (same : sets.Perm sets') (full : List.Forall₂ PaidInFull sets paid)
    (full' : List.Forall₂ PaidInFull sets' paid') : paid.Perm paid' := by
  obtain ⟨reordered, each, moved⟩ := List.perm_comp_forall₂ same.symm full
  rw [List.right_unique_forall₂' paid_right_unique full' each]
  exact moved.symm

/-! ### The sweep in one transaction -/

theorem sweep_moves_same (distinct : (accounts.map (·.accountIdx)).Nodup)
    (permuted : accounts.Perm others)
    (accepted : planSweep fees feeAccountIdx accounts old new feeRate = .ok plan)
    (also : planSweep fees feeAccountIdx others old new feeRate = .ok other) :
    SameMoves plan other := by
  have distinct' : (others.map (·.accountIdx)).Nodup := (permuted.map _).nodup_iff.mp distinct
  obtain ⟨coins, ⟨paid, full, customers⟩, changes⟩ := sweep_moves accepted
  obtain ⟨coins', ⟨paid', full', customers'⟩, changes'⟩ := sweep_moves also
  obtain ⟨_, feeAccount, found, _, _, _, _, rfl⟩ := plan_sweep_eq_ok.mp accepted
  obtain ⟨_, _, found', _, _, _, _, rfl⟩ := plan_sweep_eq_ok.mp also
  obtain rfl := Option.some.inj
    (found.symm.trans ((find_fee_account_perm permuted distinct).trans found'))
  constructor
  · exact sweep_fee_eq permuted
  · exact input_count_eq (funded_perm permuted)
  · rfl
  · rw [coins, coins']
    exact Multiset.coe_eq_coe.mpr (permuted.flatMap_right _)
  · rw [customers, customers']
    exact Multiset.coe_eq_coe.mpr (paid_perm (non_fee_perm permuted) full full')
  · rw [feeSets, one_fee_set distinct found] at changes
    rw [feeSets, one_fee_set distinct' found'] at changes'
    obtain ⟨_, _, ⟨total, rest, value, spent, rfl⟩, none, keeps⟩ :=
      List.forall₂_cons_left_iff.mp changes
    obtain ⟨_, _, ⟨total', rest', value', spent', rfl⟩, none', keeps'⟩ :=
      List.forall₂_cons_left_iff.mp changes'
    cases none
    cases none'
    have fee := congrArg Amount.sat (@sweep_fee_eq fees _ _ feeRate permuted)
    dsimp only at spent spent'
    rw [keeps, keeps', Amount.ext (show rest.sat = rest'.sat by omega)]

theorem outputs_exist (permuted : accounts.Perm others) {outputs : List SweepOutput}
    (answer : (fundedSets accounts).mapM (sweepOutput feeAccountIdx fee) = .ok outputs) :
    ∃ outputs, (fundedSets others).mapM (sweepOutput feeAccountIdx fee) = .ok outputs := by
  obtain ⟨reordered, each, _⟩ := List.perm_comp_forall₂ (funded_perm permuted).symm
    (Traversal.map_m_eq_ok.mp answer)
  exact ⟨reordered, Traversal.map_m_eq_ok.mpr each⟩

theorem sweep_alike (distinct : (accounts.map (·.accountIdx)).Nodup)
    (permuted : accounts.Perm others) :
    Alike SameMoves (planSweep fees feeAccountIdx accounts old new feeRate)
      (planSweep fees feeAccountIdx others old new feeRate) := by
  have outputs : @Alike MigrationError _ _ (fun _ _ => True)
      ((fundedSets accounts).mapM (sweepOutput feeAccountIdx (sweepFee fees others feeRate))).lift
      ((fundedSets others).mapM (sweepOutput feeAccountIdx (sweepFee fees others feeRate))).lift :=
    alike_of_ok (fun _ answer => outputs_exist permuted answer)
      (fun _ answer => outputs_exist permuted.symm answer) fun _ _ _ _ => trivial
  apply alike_of_values
  · rw [plan_sweep_stages, plan_sweep_stages, ensure_funded_eq permuted, findFeeAccount,
      find_fee_account_perm permuted distinct, ← findFeeAccount, sweep_fee_eq permuted]
    apply alike_bind_same
    intro _ _
    apply alike_bind_same
    intro _ _
    apply alike_bind_same
    intro feeAccount _
    apply alike_bind_same
    intro total _
    apply alike_bind_same
    intro _ _
    apply alike_bind outputs
    intro _ _ _ _ _
    exact .ok trivial
  · intro plan other accepted also
    exact sweep_moves_same distinct permuted accepted also

/-! ### The batched sweep -/

theorem batched_counts (paysFees : PaysFees feeAccountIdx accounts feeAccount firstUtxo)
    (accepted : planBatchedSweep fees feeAccountIdx smallAccountThreshold accounts old new
      feeRate = .ok plan) :
    plan.totalFees.sat =
        planFees feeAccountIdx smallAccountThreshold accounts fees feeRate feeAccount ∧
      plan.sweepTransactions.length =
        (planGroups feeAccountIdx smallAccountThreshold accounts).length + 1 ∧
      plan.utxoCount = ((planGroups feeAccountIdx smallAccountThreshold accounts).map
        fun group => inputCount group + 1).sum + feeAccount.utxos.length := by
  obtain ⟨_, found, first, paysFound, _, built⟩ := plan_batched_eq_ok.mp accepted
  obtain rfl := Option.some.inj (paysFees.1.symm.trans paysFound.1)
  have shape := congrArg List.length (built_plan_shapes paysFound.2 built)
  obtain ⟨txs, _, remaining, _, _, _, _, count⟩ := built
  refine ⟨(accepted_plan_fees paysFees accepted).1, ?_, ?_⟩
  · simpa [shapes, batchShapes] using shape
  · rw [count, final_shape paysFees.2]

theorem batched_moves_same (distinct : (accounts.map (·.accountIdx)).Nodup)
    (permuted : accounts.Perm others)
    (accepted : planBatchedSweep fees feeAccountIdx smallAccountThreshold accounts old new
      feeRate = .ok plan)
    (also : planBatchedSweep fees feeAccountIdx smallAccountThreshold others old new feeRate =
      .ok other) : SameMoves plan other := by
  obtain ⟨_, payer, first, paysFees, _, _⟩ := plan_batched_eq_ok.mp accepted
  have same := @find_fee_account_perm feeAccountIdx _ _ permuted distinct
  have paysFees' : PaysFees feeAccountIdx others payer first :=
    ⟨same.symm.trans paysFees.1, paysFees.2⟩
  obtain ⟨fees, transactions, count⟩ := batched_counts paysFees accepted
  obtain ⟨fees', transactions', count'⟩ := batched_counts paysFees' also
  obtain ⟨one, found, coins, ⟨paid, full, customers⟩, remaining, change, left⟩ :=
    batched_moves accepted
  obtain ⟨two, found', coins', ⟨paid', full', customers'⟩, remaining', change', left'⟩ :=
    batched_moves also
  obtain rfl := Option.some.inj (found.symm.trans (same.trans found'))
  have total : plan.totalFees.sat = other.totalFees.sat := by
    rw [fees, fees', plan_fees_eq permuted]
  constructor
  · exact Amount.ext total
  · rw [count, count', group_sum_eq permuted]
    intro group group' reordered
    rw [input_count_eq reordered]
  · rw [transactions, transactions', group_count_eq permuted]
  · rw [coins, coins']
    exact Multiset.coe_eq_coe.mpr
      (((non_fee_perm permuted).flatMap_right _).append_right _)
  · rw [customers, customers']
    exact Multiset.coe_eq_coe.mpr (paid_perm (non_fee_perm permuted) full full')
  · rw [change, change', Amount.ext (show remaining.sat = remaining'.sat by omega)]

theorem partition_exists (permuted : accounts.Perm others)
    {parts : List AccountUtxoSet × List AccountUtxoSet}
    (answer : partitionByTotal smallAccountThreshold (nonFeeSets feeAccountIdx accounts) =
      .ok parts) :
    ∃ parts, partitionByTotal smallAccountThreshold (nonFeeSets feeAccountIdx others) =
      .ok parts := by
  obtain ⟨large, small⟩ := parts
  have fits := (partition_by_total_eq_ok.mp answer).1
  refine ⟨(_, _), partition_by_total_eq_ok.mpr ⟨?_, rfl, rfl⟩⟩
  intro set member
  exact fits set ((non_fee_perm permuted).mem_iff.mpr member)

theorem estimate_perm (permuted : accounts.Perm others) {count : Nat} {planned : Amount} :
    batchedEstimateTotalFees fees (largeSets feeAccountIdx smallAccountThreshold accounts)
        (smallSets feeAccountIdx smallAccountThreshold accounts) count feeRate = .ok planned ↔
      batchedEstimateTotalFees fees (largeSets feeAccountIdx smallAccountThreshold others)
        (smallSets feeAccountIdx smallAccountThreshold others) count feeRate = .ok planned := by
  rw [batched_estimate_eq_ok, batched_estimate_eq_ok, plannedFees, plannedFees,
    chain_fees_eq permuted]

theorem built_exists (permuted : accounts.Perm others)
    (head : feeAccount.utxos.head? = some firstUtxo) {total : Amount}
    (value : feeAccount.value = total.sat)
    (fits : ∀ set ∈ nonFeeSets feeAccountIdx accounts, set.value < 2 ^ 64)
    (answer : (do
      let state ← planIntermediate fees feeAccount.outpoints firstUtxo.txout.value feeAccountIdx
        feeRate (largeSets feeAccountIdx smallAccountThreshold accounts)
        (smallSets feeAccountIdx smallAccountThreshold accounts)
      planFeeAccount fees feeAccount.outpoints total feeAccountIdx feeRate state) = .ok plan) :
    ∃ plan, (do
      let state ← planIntermediate fees feeAccount.outpoints firstUtxo.txout.value feeAccountIdx
        feeRate (largeSets feeAccountIdx smallAccountThreshold others)
        (smallSets feeAccountIdx smallAccountThreshold others)
      planFeeAccount fees feeAccount.outpoints total feeAccountIdx feeRate state) = .ok plan := by
  have valueFits : feeAccount.value < 2 ^ 64 := value ▸ total.fits
  have built := (build_plan_eq_ok head value).mp (bind_eq_ok.mp answer)
  have covers := (built_plan_exists ⟨valueFits, fits⟩).mp ⟨plan, built⟩
  rw [chain_fees_eq permuted, plan_fees_eq permuted] at covers
  have fitsOthers : ValuesFit feeAccountIdx others feeAccount :=
    ⟨valueFits, fun set member => fits set ((non_fee_perm permuted).mem_iff.mpr member)⟩
  obtain ⟨other, also⟩ := (built_plan_exists fitsOthers).mpr covers
  exact ⟨other, bind_eq_ok.mpr ((build_plan_eq_ok head value).mpr also)⟩

theorem batched_alike (distinct : (accounts.map (·.accountIdx)).Nodup)
    (permuted : accounts.Perm others) :
    Alike SameMoves
      (planBatchedSweep fees feeAccountIdx smallAccountThreshold accounts old new feeRate)
      (planBatchedSweep fees feeAccountIdx smallAccountThreshold others old new feeRate) := by
  apply alike_of_values
  · simp only [planBatchedSweep, ensure_funded_eq permuted, findFeeAccount,
      find_fee_account_perm permuted distinct]
    apply alike_bind_same
    intro _ _
    apply alike_bind_same
    intro _ _
    apply alike_bind_same
    intro payer found
    apply alike_bind_same
    intro total value
    apply alike_bind_same
    intro firstValue first
    have parts : @Alike MigrationError _ _ (fun _ _ => True)
        (partitionByTotal smallAccountThreshold (nonFeeSets feeAccountIdx accounts)).lift
        (partitionByTotal smallAccountThreshold (nonFeeSets feeAccountIdx others)).lift :=
      alike_of_ok (fun _ answer => partition_exists permuted answer)
        (fun _ answer => partition_exists permuted.symm answer) fun _ _ _ _ => trivial
    apply alike_bind parts
    intro groups groups' split split' _
    obtain ⟨large, small⟩ := groups
    obtain ⟨large', small'⟩ := groups'
    obtain ⟨fits, rfl, rfl⟩ := partition_by_total_eq_ok.mp (Outcome.lift_eq_ok.mp split)
    obtain ⟨fits', rfl, rfl⟩ := partition_by_total_eq_ok.mp (Outcome.lift_eq_ok.mp split')
    have estimates : @Alike MigrationError _ _ (· = ·)
        (batchedEstimateTotalFees fees (largeSets feeAccountIdx smallAccountThreshold accounts)
          (smallSets feeAccountIdx smallAccountThreshold accounts) payer.utxos.length feeRate).lift
        (batchedEstimateTotalFees fees (largeSets feeAccountIdx smallAccountThreshold others)
          (smallSets feeAccountIdx smallAccountThreshold others) payer.utxos.length feeRate).lift :=
      alike_of_ok (fun _ answer => ⟨_, (estimate_perm permuted).mp answer⟩)
        (fun _ answer => ⟨_, (estimate_perm permuted).mpr answer⟩) fun _ _ one two =>
          Except.ok.inj (((estimate_perm permuted).mp one).symm.trans two)
    apply alike_bind estimates
    intro planned _ _ _ same
    subst same
    apply alike_bind_same
    intro _ _
    have value := total_value_eq_ok.mp (Outcome.lift_eq_ok.mp value)
    have first := head_eq_ok.mp (Outcome.lift_eq_ok.mp first)
    rw [List.head?_map, Option.map_eq_some_iff] at first
    obtain ⟨firstUtxo, head, rfl⟩ := first
    rw [← Outcome.lift_bind, ← Outcome.lift_bind]
    exact alike_of_ok (fun _ answer => built_exists permuted head value fits answer)
      (fun _ answer => built_exists permuted.symm head value fits' answer) fun _ _ _ _ => trivial
  · intro plan other accepted also
    exact batched_moves_same distinct permuted accepted also

/-- Neither planner depends on the order in which the accounts are listed. -/
theorem plans_ignore_order (distinct : (accounts.map (·.accountIdx)).Nodup)
    (permuted : accounts.Perm others) :
    Alike SameMoves (planSweep fees feeAccountIdx accounts old new feeRate)
        (planSweep fees feeAccountIdx others old new feeRate) ∧
      Alike SameMoves
        (planBatchedSweep fees feeAccountIdx smallAccountThreshold accounts old new feeRate)
        (planBatchedSweep fees feeAccountIdx smallAccountThreshold others old new feeRate) :=
  ⟨sweep_alike distinct permuted, batched_alike distinct permuted⟩

/-- The accounts of the chain example, the last first. -/
theorem mixed_plans_ignore_order :
    Alike SameMoves (planSweep .checked 0 mixedAccounts testnet testnet testRate)
        (planSweep .checked 0 mixedAccounts.reverse testnet testnet testRate) ∧
      Alike SameMoves (planBatchedSweep .checked 0 bundleThreshold mixedAccounts testnet testnet
          testRate)
        (planBatchedSweep .checked 0 bundleThreshold mixedAccounts.reverse testnet testnet
          testRate) :=
  plans_ignore_order (by decide) (List.reverse_perm _).symm

end EmvaultCore.AccountOrder
