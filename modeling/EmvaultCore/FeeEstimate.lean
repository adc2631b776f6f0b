import EmvaultCore.SweepChain

/-!
# The estimate before a batched sweep

The planner adds up the fees twice: once before it builds anything, from the sizes
of the groups, and once along the way, from the transactions themselves. What is
refused for its fees is compared here with the plan that a richer fee account
would get.
-/

namespace EmvaultCore.FeeEstimate

open Migration MigrationSafety Library SweepChain

def shapes (plan : MigrationPlan) : List (Nat × Nat) :=
  plan.sweepTransactions.map fun tx => (tx.sourceUtxos.length, tx.outputs.length)

def shapeFees (fees : FeeArithmetic) (feeRate : FeeRate) (plan : MigrationPlan) : Nat :=
  ((shapes plan).map fun shape => (estimateFee fees shape.1 shape.2 feeRate).sat).sum

structure SameCoins (set other : AccountUtxoSet) : Prop where
  index : other.accountIdx = set.accountIdx
  address : other.destinationAddress = set.destinationAddress
  coins : other.outpoints = set.outpoints

/-- A set that pays no fees is the same, one that does has the same coins. -/
def SameButFees (feeAccountIdx : UInt32) (set other : AccountUtxoSet) : Prop :=
  SameCoins set other ∧ (set.accountIdx ≠ feeAccountIdx → other = set)

def Refunded (feeAccountIdx : UInt32) : List AccountUtxoSet → List AccountUtxoSet → Prop :=
  List.Forall₂ (SameButFees feeAccountIdx)

/-- The pre-flight amount is what the transactions cost, it is what the refusal
asks for, and a fee account that has it can pay for its own transaction. -/
structure PreflightExact (fees : FeeArithmetic) (feeAccountIdx : UInt32)
    (smallAccountThreshold : Amount) (accounts : List AccountUtxoSet) (network : NetworkType)
    (feeRate : FeeRate) (feeAccount : AccountUtxoSet) (large small : List AccountUtxoSet)
    (total planned : Amount) : Prop where
  value : feeAccount.totalValue = .ok total
  split : partitionByTotal smallAccountThreshold (nonFeeSets feeAccountIdx accounts) =
    .ok (large, small)
  estimate : batchedEstimateTotalFees fees large small feeAccount.utxos.length feeRate =
    .ok planned
  /-- Some balance gets a plan. -/
  built : ∃ others plan, Refunded feeAccountIdx accounts others ∧
    planBatchedSweep fees feeAccountIdx smallAccountThreshold others network network feeRate =
      .ok plan
  /-- Whatever the balance, the plan costs the same. -/
  exact : ∀ others plan, Refunded feeAccountIdx accounts others →
    planBatchedSweep fees feeAccountIdx smallAccountThreshold others network network feeRate =
      .ok plan → planned.sat = shapeFees fees feeRate plan ∧ plan.totalFees = planned
  refused : ∀ index available required,
    planBatchedSweep fees feeAccountIdx smallAccountThreshold accounts network network feeRate =
        .error (.error (.insufficientFeeBalance index available required)) ↔
      total.sat < planned.sat ∧ index = feeAccountIdx ∧ available = total ∧ required = planned
  /-- After the builders, the balance covers the fees added up. -/
  remains : planned.sat ≤ total.sat → ∀ firstUtxo state,
    PaysFees feeAccountIdx accounts feeAccount firstUtxo →
    planIntermediate fees feeAccount.outpoints firstUtxo.txout.value feeAccountIdx feeRate large
      small = .ok state →
    ∃ plan, planFeeAccount fees feeAccount.outpoints total feeAccountIdx feeRate state = .ok plan

variable {fees : FeeArithmetic} {feeAccountIdx : UInt32} {smallAccountThreshold : Amount}
  {accounts others : List AccountUtxoSet} {network old new : NetworkType} {feeRate : FeeRate}
  {feeAccount : AccountUtxoSet} {firstUtxo : LocalOutput} {plan : MigrationPlan}

/-! ### The fees of a plan -/

def batchShapes (feeAccountIdx : UInt32) (smallAccountThreshold : Amount)
    (accounts : List AccountUtxoSet) (feeAccount : AccountUtxoSet) : List (Nat × Nat) :=
  (planGroups feeAccountIdx smallAccountThreshold accounts).map (fun group =>
    (inputCount group + 1, group.length + 1)) ++ [(feeAccount.utxos.length, 1)]

theorem built_plan_shapes (head : feeAccount.utxos.head? = some firstUtxo)
    (built : BuiltPlan feeAccountIdx smallAccountThreshold accounts fees feeRate feeAccount
      firstUtxo plan) :
    shapes plan = batchShapes feeAccountIdx smallAccountThreshold accounts feeAccount := by
  obtain ⟨txs, rest, remaining, relay, _, _, all, _⟩ := built
  have each := relay.map_eq (fun tx => (tx.sourceUtxos.length, tx.outputs.length))
    (fun group => (inputCount group + 1, group.length + 1))
    fun _ _ _ _ _ served => shape_of_serves served
  rw [shapes, all, List.map_append, each, List.map_singleton, final_shape head]
  rfl

theorem built_plan_shape_fees (head : feeAccount.utxos.head? = some firstUtxo)
    (built : BuiltPlan feeAccountIdx smallAccountThreshold accounts fees feeRate feeAccount
      firstUtxo plan) :
    shapeFees fees feeRate plan =
      planFees feeAccountIdx smallAccountThreshold accounts fees feeRate feeAccount := by
  rw [shapeFees, built_plan_shapes head built, batchShapes, List.map_append, List.sum_append,
    List.map_map, List.map_singleton, List.sum_singleton]
  rfl

theorem accepted_plan_fees
    (paysFees : PaysFees feeAccountIdx accounts feeAccount firstUtxo)
    (accepted : planBatchedSweep fees feeAccountIdx smallAccountThreshold accounts old new
      feeRate = .ok plan) :
    plan.totalFees.sat =
        planFees feeAccountIdx smallAccountThreshold accounts fees feeRate feeAccount ∧
      plan.totalFees.sat = shapeFees fees feeRate plan := by
  obtain ⟨_, found, first, paysFound, _, built⟩ := plan_batched_eq_ok.mp accepted
  have same : found = feeAccount := Option.some.inj (paysFound.1.symm.trans paysFees.1)
  subst same
  have sum := built_plan_shape_fees paysFound.2 built
  obtain ⟨_, _, _, _, total, _⟩ := built
  exact ⟨total, total.trans sum.symm⟩

/-! ### Another balance -/

theorem SameCoins.count {set other : AccountUtxoSet} (same : SameCoins set other) :
    other.utxos.length = set.utxos.length := by
  have lengths := congrArg List.length same.coins
  rwa [AccountUtxoSet.outpoints, AccountUtxoSet.outpoints, List.length_map, List.length_map]
    at lengths

theorem refunded_funded (refunded : Refunded feeAccountIdx accounts others) :
    Refunded feeAccountIdx (fundedSets accounts) (fundedSets others) := by
  induction refunded with
  | nil => exact .nil
  | @cons set other _ _ same rest ih =>
      have count := same.1.count
      by_cases empty : set.utxos = []
      · have none : other.utxos = [] := by
          rw [empty] at count
          exact List.length_eq_zero_iff.mp count
        simpa [fundedSets, empty, none] using ih
      · have some : other.utxos ≠ [] := by
          intro none
          rw [none] at count
          exact empty (List.length_eq_zero_iff.mp count.symm)
        rw [fundedSets, fundedSets, List.filter_cons_of_pos (by simpa using empty),
          List.filter_cons_of_pos (by simpa using some)]
        exact .cons same ih

theorem refunded_non_fee (refunded : Refunded feeAccountIdx accounts others) :
    nonFeeSets feeAccountIdx others = nonFeeSets feeAccountIdx accounts := by
  have funded := refunded_funded refunded
  rw [nonFeeSets, nonFeeSets]
  generalize fundedSets accounts = sets at funded
  generalize fundedSets others = fresh at funded
  induction funded with
  | nil => rfl
  | @cons set other _ _ same rest ih =>
      have index := same.1.index
      by_cases paying : set.accountIdx = feeAccountIdx
      · rw [List.filter_cons_of_neg (by simpa [index] using paying),
          List.filter_cons_of_neg (by simpa using paying), ih]
      · have equal := same.2 paying
        subst equal
        rw [List.filter_cons_of_pos (by simpa using paying),
          List.filter_cons_of_pos (by simpa using paying), ih]

theorem refunded_found (refunded : Refunded feeAccountIdx accounts others)
    (found : (fundedSets accounts).find? (·.accountIdx = feeAccountIdx) = some feeAccount) :
    ∃ other, (fundedSets others).find? (·.accountIdx = feeAccountIdx) = some other ∧
      SameCoins feeAccount other := by
  have funded := refunded_funded refunded
  generalize fundedSets accounts = sets at funded found
  generalize fundedSets others = fresh at funded
  induction funded with
  | nil => cases found
  | @cons set other _ _ same rest ih =>
      have index := same.1.index
      by_cases paying : set.accountIdx = feeAccountIdx
      · rw [List.find?_cons_of_pos (by simpa using paying)] at found
        cases found
        exact ⟨other, List.find?_cons_of_pos (by simpa [index] using paying), same.1⟩
      · rw [List.find?_cons_of_neg (by simpa using paying)] at found
        rw [List.find?_cons_of_neg (by simpa [index] using paying)]
        exact ih found

theorem refunded_fees (refunded : Refunded feeAccountIdx accounts others)
    {other : AccountUtxoSet} (same : SameCoins feeAccount other) :
    planFees feeAccountIdx smallAccountThreshold others fees feeRate other =
      planFees feeAccountIdx smallAccountThreshold accounts fees feeRate feeAccount := by
  rw [planFees, planFees, largeSets, largeSets, smallSets, smallSets, refunded_non_fee refunded,
    same.count]

def coinsWorth (balance : Amount) : List LocalOutput → List LocalOutput
  | [] => []
  | first :: rest =>
      { first with txout := { first.txout with value := balance } } ::
        rest.map fun utxo => { utxo with txout := { utxo.txout with value := Amount.zero } }

def withBalance (feeAccountIdx : UInt32) (balance : Amount) (set : AccountUtxoSet) :
    AccountUtxoSet :=
  if set.accountIdx = feeAccountIdx then { set with utxos := coinsWorth balance set.utxos }
  else set

theorem coins_worth_outpoints (balance : Amount) (utxos : List LocalOutput) :
    (coinsWorth balance utxos).map (·.outpoint) = utxos.map (·.outpoint) := by
  cases utxos with
  | nil => rfl
  | cons first rest =>
      rw [coinsWorth, List.map_cons, List.map_map]
      rfl

theorem refunded_with_balance (balance : Amount) (accounts : List AccountUtxoSet) :
    Refunded feeAccountIdx accounts (accounts.map (withBalance feeAccountIdx balance)) := by
  induction accounts with
  | nil => exact .nil
  | cons set accounts ih =>
      apply List.Forall₂.cons _ ih
      by_cases paying : set.accountIdx = feeAccountIdx
      · rw [withBalance, if_pos paying]
        exact ⟨⟨rfl, rfl, coins_worth_outpoints _ _⟩, fun other => absurd paying other⟩
      · rw [withBalance, if_neg paying]
        exact ⟨⟨rfl, rfl, rfl⟩, fun _ => rfl⟩

theorem balance_of_found {balance : Amount}
    (paysFees : PaysFees feeAccountIdx (accounts.map (withBalance feeAccountIdx balance))
      feeAccount firstUtxo) :
    feeAccount.value = balance.sat ∧ firstUtxo.txout.value = balance := by
  have member := (mem_funded_sets.mp (List.mem_of_find?_eq_some paysFees.1)).1
  have index : feeAccount.accountIdx = feeAccountIdx := by simpa using List.find?_some paysFees.1
  obtain ⟨set, _, shape⟩ := List.mem_map.mp member
  have paying : set.accountIdx = feeAccountIdx := by
    by_contra other
    rw [withBalance, if_neg other] at shape
    exact other (shape ▸ index)
  rw [withBalance, if_pos paying] at shape
  subst shape
  have first := paysFees.2
  cases coins : set.utxos with
  | nil => simp [coins, coinsWorth] at first
  | cons utxo rest =>
      simp only [coins, coinsWorth, List.head?_cons, Option.some.injEq] at first
      subst first
      constructor
      · simp [AccountUtxoSet.value, coinsWorth, Function.comp_def]
      · rfl

theorem plan_with_balance {planned : Amount}
    (paysFees : PaysFees feeAccountIdx accounts feeAccount firstUtxo)
    (fits : ValuesFit feeAccountIdx accounts feeAccount)
    (sum : planFees feeAccountIdx smallAccountThreshold accounts fees feeRate feeAccount =
      planned.sat) :
    ∃ plan, planBatchedSweep fees feeAccountIdx smallAccountThreshold
      (accounts.map (withBalance feeAccountIdx planned)) network network feeRate = .ok plan := by
  have refunded := @refunded_with_balance feeAccountIdx planned accounts
  obtain ⟨other, found, same⟩ := refunded_found refunded paysFees.1
  have funded := (mem_funded_sets.mp (List.mem_of_find?_eq_some found)).2
  obtain ⟨first, rest, coins⟩ := List.exists_cons_of_ne_nil funded
  have paysOther : PaysFees feeAccountIdx (accounts.map (withBalance feeAccountIdx planned))
      other first := ⟨found, by rw [coins, List.head?_cons]⟩
  obtain ⟨value, firstValue⟩ := balance_of_found paysOther
  have fees := (@refunded_fees fees _ smallAccountThreshold _ _ feeRate _ refunded _ same).trans sum
  have fitsOther : ValuesFit feeAccountIdx (accounts.map (withBalance feeAccountIdx planned))
      other := ⟨value ▸ planned.fits, by rw [refunded_non_fee refunded]; exact fits.2⟩
  have enough := (@built_plan_exists _ _ smallAccountThreshold _ feeRate _ first fitsOther).mpr
    ⟨by rw [firstValue, ← fees]; exact Nat.le_add_right _ _, by rw [value, fees]⟩
  obtain ⟨plan, built⟩ := enough
  exact ⟨plan, plan_batched_eq_ok.mpr ⟨rfl, other, first, paysOther, fitsOther, built⟩⟩

/-! ### The refusal and the last subtraction -/

theorem intermediate_fees {large small : List AccountUtxoSet} {state : BatchedPlanState}
    (head : feeAccount.utxos.head? = some firstUtxo)
    (built : planIntermediate fees feeAccount.outpoints firstUtxo.txout.value feeAccountIdx
      feeRate large small = .ok state) :
    state.cumulativeFee.sat = chainFees fees feeRate large small := by
  have holds : HoldsPurse firstUtxo.txout.value ⟨[], 0, Amount.zero⟩ 0 firstUtxo.txout.value :=
    ⟨rfl, fun _ => rfl⟩
  rw [outpoints_of_head head, plan_intermediate_eq_fold] at built
  obtain ⟨_, _, _, _, _, sum⟩ := (plan_groups_eq_ok holds).mp built
  rw [sum, Amount.zero_sat, Nat.zero_add, chainFees]

theorem fee_account_planned {large small : List AccountUtxoSet} {state : BatchedPlanState}
    {total planned : Amount} (covered : planned.sat ≤ total.sat)
    (estimate : plannedFees fees feeRate large small feeAccount.utxos.length = planned.sat)
    (sum : state.cumulativeFee.sat = chainFees fees feeRate large small) :
    ∃ plan, planFeeAccount fees feeAccount.outpoints total feeAccountIdx feeRate state =
      .ok plan := by
  have count : feeAccount.outpoints.length = feeAccount.utxos.length := List.length_map _
  have whole := total.fits
  apply Exists.imp fun _ => plan_fee_account_eq_ok.mpr
  refine ⟨⟨_, planned, _⟩, ?_, ⟨total.sat - planned.sat, by omega⟩, ?_, rfl, rfl⟩
  · rw [sum, count, ← estimate, plannedFees]
  · dsimp only
    omega

theorem refused_iff {total planned : Amount} {rest : Outcome Empty MigrationPlan} {index : UInt32}
    {available required : Amount} :
    (ensureFeeBalance feeAccountIdx total planned >>= fun _ => rest.lift) =
        .error (.error (.insufficientFeeBalance index available required)) ↔
      total.sat < planned.sat ∧ index = feeAccountIdx ∧ available = total ∧
        required = planned := by
  by_cases short : total.sat < planned.sat
  · simp [ensureFeeBalance, short, bind, Except.bind, eq_comm]
  · rw [ensureFeeBalance, if_neg short, ok_bind]
    simp only [short, false_and, iff_false]
    exact Outcome.lift_ne_error

/-- The pre-flight estimate of a batched sweep is exact. -/
theorem fee_preflight_exact (distinct : (accounts.map (·.accountIdx)).Nodup)
    (listed : feeAccount ∈ accounts) (index : feeAccount.accountIdx = feeAccountIdx)
    (funded : feeAccount.utxos ≠ [])
    (valuesFit : (accounts.map AccountUtxoSet.value).sum < 2 ^ 64)
    (feesFit : planFees feeAccountIdx smallAccountThreshold accounts fees feeRate feeAccount <
      2 ^ 64) :
    ∃ large small total planned, PreflightExact fees feeAccountIdx smallAccountThreshold accounts
      network feeRate feeAccount large small total planned := by
  have each : ∀ set ∈ accounts, set.value < 2 ^ 64 := by
    intro set member
    have bound := List.single_le_sum (fun _ _ => Nat.zero_le _) set.value
      (List.mem_map_of_mem member)
    omega
  obtain ⟨firstUtxo, rest, coins⟩ := List.exists_cons_of_ne_nil funded
  have paysFees : PaysFees feeAccountIdx accounts feeAccount firstUtxo :=
    (pays_fees_iff distinct).mpr ⟨listed, index, by rw [coins, List.head?_cons]⟩
  have fits : ValuesFit feeAccountIdx accounts feeAccount :=
    ⟨each feeAccount listed, fun set member =>
      each set (mem_funded_sets.mp (List.mem_of_mem_filter member)).1⟩
  obtain ⟨total, value⟩ : ∃ total : Amount, feeAccount.value = total.sat := ⟨⟨_, fits.1⟩, rfl⟩
  obtain ⟨planned, sum⟩ : ∃ planned : Amount, planFees feeAccountIdx smallAccountThreshold accounts
      fees feeRate feeAccount = planned.sat := ⟨⟨_, feesFit⟩, rfl⟩
  have totalValue := total_value_eq_ok.mpr value
  have split := (@partition_by_total_eq_ok smallAccountThreshold _ _ _).mpr ⟨fits.2, rfl, rfl⟩
  have estimate := batched_estimate_eq_ok.mpr sum
  refine ⟨largeSets feeAccountIdx smallAccountThreshold accounts,
    smallSets feeAccountIdx smallAccountThreshold accounts, total, planned, ?_⟩
  constructor
  · exact totalValue
  · exact split
  · exact estimate
  · obtain ⟨plan, accepted⟩ := plan_with_balance paysFees fits sum
    exact ⟨_, plan, refunded_with_balance planned accounts, accepted⟩
  · intro others plan refunded accepted
    obtain ⟨other, found, same⟩ := refunded_found refunded paysFees.1
    obtain ⟨_, _, first, paysFound, _⟩ := plan_batched_eq_ok.mp accepted
    obtain rfl := Option.some.inj (paysFound.1.symm.trans found)
    have spent := accepted_plan_fees paysFound accepted
    have total := spent.1.trans ((refunded_fees refunded same).trans sum)
    exact ⟨total.symm.trans spent.2, Amount.ext total⟩
  · intro index available required
    rw [plan_batched_stages paysFees totalValue split estimate]
    exact refused_iff
  · intro covered first state paysFirst built
    exact fee_account_planned covered sum (intermediate_fees paysFirst.2 built)

theorem mixed_preflight_exact :
    ∃ large small total planned, PreflightExact .checked 0 bundleThreshold mixedAccounts testnet
      testRate ⟨0, [testUtxo 1 (.fromSat 500000), testUtxo 2 (.fromSat 500)], testAddress⟩ large
      small total planned :=
  fee_preflight_exact (by decide) (by decide) rfl (by decide) (by decide) (by decide)

end EmvaultCore.FeeEstimate
