import EmvaultCore.SweepAgreement
import Mathlib.Algebra.BigOperators.Group.Multiset.Basic
import Mathlib.Data.List.TakeWhile

/-!
# Accounts that share an index

Both planners look the fee account up by its index, and nothing keeps two sets
from sharing one. Customers that share an index are still served one by one. Sets
that share the fee account's index are not: in a single transaction each of them
pays the whole fee, and a batched sweep leaves all but the first where they are.
-/

namespace EmvaultCore.RepeatedAccounts

open Migration MigrationSafety Library SweepChain SweepAgreement

/-- Every coin is spent once, and what the coins are worth goes to the customers,
to the fee account or to fees. -/
structure Conserves (accounts : List AccountUtxoSet) (plan : MigrationPlan) : Prop where
  spendsOnce : ∀ set ∈ fundedSets accounts, ∀ outpoint ∈ set.outpoints,
    (spentCoins plan).count outpoint = 1
  balances : ((fundedSets accounts).map AccountUtxoSet.value).sum =
    ((customerOutputs plan).map (·.amount.sat)).sum +
      ((finalFeeChanges plan).map (·.amount.sat)).sum + plan.totalFees.sat

def underflow : Stop MigrationError := .panic "Amount subtraction error"

/-- Accepted plans conserve value, and no fee is subtracted from an amount that
does not cover it. The one subtraction that distinct indices do not cover either
is that of a chain from a first UTXO too small for it. -/
structure ConservesValue (fees : FeeArithmetic) (feeAccountIdx : UInt32)
    (smallAccountThreshold : Amount) (accounts : List AccountUtxoSet) (old new : NetworkType)
    (feeRate : FeeRate) : Prop where
  sweep : ∀ plan, planSweep fees feeAccountIdx accounts old new feeRate = .ok plan →
    Conserves accounts plan
  batched : ∀ plan, planBatchedSweep fees feeAccountIdx smallAccountThreshold accounts old new
    feeRate = .ok plan → Conserves accounts plan
  sweepCovered : planSweep fees feeAccountIdx accounts old new feeRate ≠ .error underflow
  batchedCovered : ∀ feeAccount firstUtxo,
    PaysFees feeAccountIdx accounts feeAccount firstUtxo →
    chainFees fees feeRate (largeSets feeAccountIdx smallAccountThreshold accounts)
      (smallSets feeAccountIdx smallAccountThreshold accounts) ≤ firstUtxo.txout.value.sat →
    planBatchedSweep fees feeAccountIdx smallAccountThreshold accounts old new feeRate ≠
      .error underflow

/-- The sets that a sweep in one transaction adds up before it meets one whose
value no amount holds. -/
def reachedSets (accounts : List AccountUtxoSet) : List AccountUtxoSet :=
  (fundedSets accounts).takeWhile fun set => set.value < 2 ^ 64

/-- The first fee account covers a fee that is charged to every set with its
index, and the sets are added up as far as the last or as one of these that does
not cover the fee. -/
structure ChargesEachFeeSet (fees : FeeArithmetic) (feeAccountIdx : UInt32)
    (accounts : List AccountUtxoSet) (old new : NetworkType) (feeRate : FeeRate) : Prop where
  network : old = new
  charged : 0 < (sweepFee fees accounts feeRate).sat
  covered : ∃ feeAccount,
    (fundedSets accounts).find? (·.accountIdx = feeAccountIdx) = some feeAccount ∧
      feeAccount.value < 2 ^ 64 ∧ (sweepFee fees accounts feeRate).sat ≤ feeAccount.value
  reached : (∀ set ∈ fundedSets accounts, set.value < 2 ^ 64) ∨
    ∃ set ∈ reachedSets accounts, set.accountIdx = feeAccountIdx ∧
      set.value < (sweepFee fees accounts feeRate).sat

def CoversBatch (fees : FeeArithmetic) (feeAccountIdx : UInt32) (smallAccountThreshold : Amount)
    (accounts : List AccountUtxoSet) (old new : NetworkType) (feeRate : FeeRate) : Prop :=
  old = new ∧ ∃ feeAccount firstUtxo, PaysFees feeAccountIdx accounts feeAccount firstUtxo ∧
    ValuesFit feeAccountIdx accounts feeAccount ∧
    chainFees fees feeRate (largeSets feeAccountIdx smallAccountThreshold accounts)
      (smallSets feeAccountIdx smallAccountThreshold accounts) ≤ firstUtxo.txout.value.sat ∧
    planFees feeAccountIdx smallAccountThreshold accounts fees feeRate feeAccount ≤
      feeAccount.value

variable {fees : FeeArithmetic} {feeAccountIdx : UInt32} {smallAccountThreshold fee : Amount}
  {accounts sets : List AccountUtxoSet} {old new : NetworkType} {feeRate : FeeRate}
  {feeAccount : AccountUtxoSet} {firstUtxo : LocalOutput} {plan : MigrationPlan}
  {outputs : List SweepOutput}

/-! ### Panics of the additions -/

section Overflow

variable {Error Value Next : Type}

def OnlyOverflows (outcome : Outcome Error Value) : Prop :=
  ∀ stop, outcome = .error stop → stop = .panic "Amount addition error"

theorem only_overflows_ok (value : Value) :
    OnlyOverflows (.ok value : Outcome Error Value) := by
  intro stop failed
  cases failed

theorem only_overflows_bind {first : Outcome Error Value} {next : Value → Outcome Error Next}
    (start : OnlyOverflows first) (rest : ∀ value, OnlyOverflows (next value)) :
    OnlyOverflows (first >>= next) := by
  intro stop failed
  cases answer : first with
  | error cause =>
      rw [answer] at failed
      cases failed
      exact start stop answer
  | ok value =>
      rw [answer] at failed
      exact rest value stop failed

theorem only_overflows_add (left right : Amount) :
    OnlyOverflows (left.add right : Outcome Error Amount) := by
  intro stop failed
  unfold Amount.add at failed
  split at failed
  · cases failed
  · cases failed
    rfl

theorem only_overflows_fold {Item : Type} (amount : Item → Amount) (items : List Item)
    (start : Amount) :
    OnlyOverflows (items.foldlM (fun total item => total.add (amount item)) start :
      Outcome Error Amount) := by
  induction items generalizing start with
  | nil => exact only_overflows_ok start
  | cons item items ih =>
      rw [List.foldlM_cons]
      exact only_overflows_bind (only_overflows_add _ _) ih

theorem total_value_only_overflows (set : AccountUtxoSet) : OnlyOverflows set.totalValue :=
  only_overflows_fold id _ _

theorem partition_only_overflows (sets : List AccountUtxoSet) :
    OnlyOverflows (partitionByTotal smallAccountThreshold sets) := by
  induction sets with
  | nil => exact only_overflows_ok _
  | cons set sets ih =>
      rw [partitionByTotal]
      apply only_overflows_bind (total_value_only_overflows set)
      intro total
      apply only_overflows_bind ih
      intro parts
      dsimp only
      by_cases isLarge : smallAccountThreshold.sat ≤ total.sat
      · rw [if_pos isLarge]
        exact only_overflows_ok _
      · rw [if_neg isLarge]
        exact only_overflows_ok _

theorem estimate_only_overflows (large small : List AccountUtxoSet) (count : Nat) :
    OnlyOverflows (batchedEstimateTotalFees fees large small count feeRate) := by
  unfold batchedEstimateTotalFees
  apply only_overflows_bind (only_overflows_fold _ _ _)
  intro total
  dsimp only
  by_cases none : small.isEmpty = true
  · rw [if_pos none]
    exact only_overflows_add _ _
  · rw [if_neg none]
    apply only_overflows_bind (only_overflows_add _ _)
    intro sum
    exact only_overflows_add _ _

/-- A stage that only overflows does not underflow, so neither does a call whose
later stages do not. -/
theorem lift_bind_ne_underflow {outcome : Outcome Empty Value}
    {next : Value → Outcome MigrationError Next} (overflows : OnlyOverflows outcome)
    (rest : ∀ value, outcome = .ok value → next value ≠ .error underflow) :
    (outcome.lift >>= next) ≠ .error underflow := by
  cases answer : outcome with
  | error stop =>
      rw [overflows stop answer]
      simp [Outcome.lift, Outcome.mapCause, bind, Except.bind, underflow]
  | ok value => exact rest value answer

end Overflow

/-! ### The batched sweep -/

theorem batched_covered (paysFees : PaysFees feeAccountIdx accounts feeAccount firstUtxo)
    (covered : chainFees fees feeRate (largeSets feeAccountIdx smallAccountThreshold accounts)
      (smallSets feeAccountIdx smallAccountThreshold accounts) ≤ firstUtxo.txout.value.sat) :
    planBatchedSweep fees feeAccountIdx smallAccountThreshold accounts old new feeRate ≠
      .error underflow := by
  by_cases same : old = new
  · subst same
    by_cases fits : ValuesFit feeAccountIdx accounts feeAccount ∧
        planFees feeAccountIdx smallAccountThreshold accounts fees feeRate feeAccount < 2 ^ 64
    · exact (plan_returns_iff paysFees fits.1).mpr ⟨fits.2, .inr covered⟩ _
    · rw [plan_batched_opens paysFees]
      apply lift_bind_ne_underflow (total_value_only_overflows feeAccount)
      intro total value
      apply lift_bind_ne_underflow (partition_only_overflows _)
      intro parts split
      obtain ⟨large, small⟩ := parts
      obtain ⟨fit, rfl, rfl⟩ := partition_by_total_eq_ok.mp split
      apply lift_bind_ne_underflow (estimate_only_overflows _ _ _)
      intro planned estimate
      have sum : planFees feeAccountIdx smallAccountThreshold accounts fees feeRate feeAccount =
        planned.sat := batched_estimate_eq_ok.mp estimate
      exact absurd ⟨⟨total_value_eq_ok.mp value ▸ total.fits, fit⟩, sum ▸ planned.fits⟩ fits
  · exact returns_of_networks_differ same _

theorem coin_listed_once (distinct : ((accounts.flatMap (·.utxos)).map (·.outpoint)).Nodup) :
    (accounts.flatMap AccountUtxoSet.outpoints).Nodup := by
  rwa [List.map_flatMap] at distinct

theorem funded_coin {set : AccountUtxoSet} (funded : set ∈ fundedSets accounts)
    {outpoint : OutPoint} (member : outpoint ∈ set.outpoints) :
    outpoint ∈ accounts.flatMap AccountUtxoSet.outpoints :=
  List.mem_flatMap.mpr ⟨set, (mem_funded_sets.mp funded).1, member⟩

theorem funded_value :
    ((fundedSets accounts).map AccountUtxoSet.value).sum =
      ((nonFeeSets feeAccountIdx accounts).map AccountUtxoSet.value).sum +
        ((feeSets feeAccountIdx accounts).map AccountUtxoSet.value).sum := by
  have parts := (@customers_and_fee_perm feeAccountIdx accounts).map AccountUtxoSet.value
  rw [← parts.sum_eq, List.map_append, List.sum_append, feeSets]

theorem customers_value {paid : List SweepOutput}
    (full : List.Forall₂ PaidInFull (nonFeeSets feeAccountIdx accounts) paid)
    (customers : customerOutputs plan = paid) :
    ((customerOutputs plan).map (·.amount.sat)).sum =
      ((nonFeeSets feeAccountIdx accounts).map AccountUtxoSet.value).sum := by
  rw [customers, Multiset.map_coe, Multiset.sum_coe, sum_paid full]

theorem second_fee_set_left (distinct : ((accounts.flatMap (·.utxos)).map (·.outpoint)).Nodup)
    {second : AccountUtxoSet} {others : List AccountUtxoSet}
    (repeated : feeSets feeAccountIdx accounts = feeAccount :: second :: others) :
    ∃ outpoint ∈ second.outpoints, outpoint ∉
      (nonFeeSets feeAccountIdx accounts).flatMap AccountUtxoSet.outpoints ++
        feeAccount.outpoints := by
  have member : second ∈ feeSets feeAccountIdx accounts := by simp [repeated]
  have funded := (mem_funded_sets.mp (List.mem_of_mem_filter member)).2
  obtain ⟨utxo, rest, split⟩ := List.exists_cons_of_ne_nil funded
  have owned : utxo.outpoint ∈ second.outpoints := by simp [AccountUtxoSet.outpoints, split]
  have sets := (@customers_and_fee_perm feeAccountIdx accounts).flatMap_right
    AccountUtxoSet.outpoints
  have listed := coin_listed_once distinct
  rw [← funded_outpoints, ← sets.nodup_iff, ← feeSets, repeated, List.flatMap_append,
    List.flatMap_cons, List.flatMap_cons, ← List.append_assoc, ← List.append_assoc] at listed
  have apart := (List.nodup_append.mp (List.nodup_append.mp listed).1).2.2
  exact ⟨utxo.outpoint, owned, fun spent => apart _ spent _ owned rfl⟩

/-- An accepted batched plan conserves value exactly when one set has the fee
account's index. -/
theorem batched_conserves_iff
    (distinct : ((accounts.flatMap (·.utxos)).map (·.outpoint)).Nodup)
    (accepted : planBatchedSweep fees feeAccountIdx smallAccountThreshold accounts old new
      feeRate = .ok plan) :
    Conserves accounts plan ↔ (feeSets feeAccountIdx accounts).length ≤ 1 := by
  obtain ⟨feeAccount, found, coins, ⟨paid, full, customers⟩, remaining, change, left⟩ :=
    batched_moves accepted
  obtain ⟨others, fee⟩ := find_fee_account_head found
  constructor
  · intro conserves
    cases others with
    | nil => simp [fee]
    | cons second others =>
        obtain ⟨outpoint, owned, unspent⟩ := second_fee_set_left distinct fee
        have among : second ∈ feeSets feeAccountIdx accounts := by simp [fee]
        have funded := List.mem_of_mem_filter among
        have once := conserves.spendsOnce second funded outpoint owned
        rw [coins, Multiset.coe_count, List.count_eq_zero_of_not_mem unspent] at once
        cases once
  · intro one
    rw [fee, List.length_cons] at one
    obtain rfl := List.length_eq_zero_iff.mp (show others.length = 0 by omega)
    constructor
    · intro set funded outpoint owned
      rw [coins, Multiset.coe_count, (coins_of_one_fee_set fee).count_eq]
      exact List.count_eq_one_of_mem (coin_listed_once distinct) (funded_coin funded owned)
    · rw [@funded_value feeAccountIdx, customers_value full customers, fee, change]
      simp only [List.map_cons, List.map_nil, List.sum_cons, List.sum_nil, SweepOutput.amount]
      omega

/-! ### The sweep in one transaction -/

theorem paid_fees (each : List.Forall₂ (PaysFee fee) sets outputs) :
    (sets.map AccountUtxoSet.value).sum =
      (outputs.map (·.amount.sat)).sum + sets.length * fee.sat := by
  induction each with
  | nil => simp
  | cons pays rest ih =>
      obtain ⟨total, left, value, split, rfl⟩ := pays
      rw [List.map_cons, List.map_cons, List.sum_cons, List.sum_cons, ih, List.length_cons,
        value, split, Nat.succ_mul]
      simp only [SweepOutput.amount]
      omega

/-- An accepted plan in one transaction reports the fee once, so it conserves
value exactly when the fee is charged once or is nothing. -/
theorem sweep_conserves_iff
    (distinct : ((accounts.flatMap (·.utxos)).map (·.outpoint)).Nodup)
    (accepted : planSweep fees feeAccountIdx accounts old new feeRate = .ok plan) :
    Conserves accounts plan ↔
      (feeSets feeAccountIdx accounts).length * plan.totalFees.sat = plan.totalFees.sat := by
  obtain ⟨coins, ⟨paid, full, customers⟩, changes⟩ := sweep_moves accepted
  have charged := paid_fees changes
  have value := @funded_value feeAccountIdx accounts
  have paidOut := customers_value full customers
  constructor
  · intro conserves
    have balance := conserves.balances
    omega
  · intro once
    constructor
    · intro set funded outpoint owned
      rw [coins, Multiset.coe_count]
      exact List.count_eq_one_of_mem (coin_listed_once distinct) (funded_coin funded owned)
    · omega

theorem total_value_overflows {set : AccountUtxoSet} (large : ¬ set.value < 2 ^ 64) :
    set.totalValue = .error (.panic "Amount addition error") := by
  cases value : set.totalValue with
  | error stop => rw [total_value_only_overflows set stop value]
  | ok total => exact absurd (total_value_eq_ok.mp value ▸ total.fits) large

theorem sweep_output_overflows {set : AccountUtxoSet} (large : ¬ set.value < 2 ^ 64) :
    sweepOutput feeAccountIdx fee set = .error (.panic "Amount addition error") := by
  unfold sweepOutput AccountUtxoSet.customer
  rw [total_value_overflows large]
  split
  · rfl
  · rfl

theorem sweep_output_underflows {set : AccountUtxoSet} (fits : set.value < 2 ^ 64)
    (index : set.accountIdx = feeAccountIdx) (short : set.value < fee.sat) :
    sweepOutput feeAccountIdx fee set = .error (.panic "Amount subtraction error") := by
  have value : set.totalValue = .ok ⟨set.value, fits⟩ := total_value_eq_ok.mpr rfl
  simp only [sweepOutput, index, if_true, value, ok_bind, Amount.sub, Nat.not_le.mpr short,
    if_false]
  rfl

theorem sweep_output_exists {set : AccountUtxoSet} (fits : set.value < 2 ^ 64)
    (covers : set.accountIdx = feeAccountIdx → fee.sat ≤ set.value) :
    ∃ output, sweepOutput feeAccountIdx fee set = .ok output := by
  by_cases index : set.accountIdx = feeAccountIdx
  · have enough := covers index
    exact ⟨_, (sweep_output_fee index).mpr ⟨⟨set.value, fits⟩, ⟨set.value - fee.sat, by omega⟩, rfl,
      by dsimp only; omega, rfl⟩⟩
  · exact ⟨_, (sweep_output_customer index).mpr ⟨⟨set.value, fits⟩, rfl, rfl⟩⟩

theorem sweep_outputs_underflow :
    sets.mapM (sweepOutput feeAccountIdx fee) = .error (.panic "Amount subtraction error") ↔
      ∃ set ∈ sets.takeWhile fun set => set.value < 2 ^ 64,
        set.accountIdx = feeAccountIdx ∧ set.value < fee.sat := by
  induction sets with
  | nil => simp [pure, Except.pure]
  | cons set sets ih =>
      rw [List.mapM_cons]
      by_cases fits : set.value < 2 ^ 64
      · rw [List.takeWhile_cons_of_pos (by simpa using fits), List.exists_mem_cons_iff]
        by_cases short : set.accountIdx = feeAccountIdx ∧ set.value < fee.sat
        · rw [sweep_output_underflows fits short.1 short.2]
          simp [short, bind, Except.bind]
        · have covers : set.accountIdx = feeAccountIdx → fee.sat ≤ set.value := by
            intro index
            exact Nat.le_of_not_lt fun less => short ⟨index, less⟩
          obtain ⟨output, here⟩ := sweep_output_exists fits covers
          rw [here, ok_bind, or_iff_right short, ← ih]
          cases sets.mapM (sweepOutput feeAccountIdx fee) with
          | error stop => simp [bind, Except.bind]
          | ok outputs => simp [bind, Except.bind, pure, Except.pure]
      · rw [sweep_output_overflows fits, List.takeWhile_cons_of_neg (by simpa using fits)]
        simp [bind, Except.bind]

/-- A sweep in one transaction underflows exactly when the fee account covers the
fee and another set with its index, reached before an overflow, does not. -/
theorem sweep_underflows_iff :
    planSweep fees feeAccountIdx accounts old new feeRate = .error underflow ↔
      old = new ∧ ∃ feeAccount,
        (fundedSets accounts).find? (·.accountIdx = feeAccountIdx) = some feeAccount ∧
        feeAccount.value < 2 ^ 64 ∧ (sweepFee fees accounts feeRate).sat ≤ feeAccount.value ∧
        ∃ set ∈ reachedSets accounts, set.accountIdx = feeAccountIdx ∧
          set.value < (sweepFee fees accounts feeRate).sat := by
  rw [plan_sweep_stages, reachedSets, ← sweep_outputs_underflow]
  by_cases same : old = new
  · have network : ensureSameNetwork old new = .ok () := ensure_same_network_eq_ok.mpr same
    rw [network, ok_bind]
    cases found : (fundedSets accounts).find? (·.accountIdx = feeAccountIdx) with
    | none =>
        by_cases empty : (fundedSets accounts).isEmpty
        · simp [ensureFunded, empty, bind, Except.bind, underflow]
        · simp [ensureFunded, empty, findFeeAccount, found, bind, Except.bind, underflow]
    | some feeAccount =>
        have funded : ensureFunded (fundedSets accounts) = .ok () :=
          ensure_funded_eq_ok.mpr (funded_of_found found)
        simp only [funded, find_fee_account_eq_ok.mpr found, ok_bind, same, true_and,
          Option.some.injEq, exists_eq_left']
        by_cases fits : feeAccount.value < 2 ^ 64
        · have value : feeAccount.totalValue = .ok ⟨feeAccount.value, fits⟩ :=
            total_value_eq_ok.mpr rfl
          simp only [value, Outcome.lift, Outcome.mapCause, ok_bind, ensureFeeBalance, fits,
            true_and]
          by_cases covered : feeAccount.value < (sweepFee fees accounts feeRate).sat
          · simp [covered, bind, Except.bind, underflow]
          · rw [if_neg covered, ok_bind]
            simp only [Nat.le_of_not_lt covered, true_and]
            cases (fundedSets accounts).mapM
                (sweepOutput feeAccountIdx (sweepFee fees accounts feeRate)) with
            | error stop =>
                cases stop with
                | panic message => simp [bind, Except.bind, underflow]
                | error cause => cases cause
            | ok outputs => simp [bind, Except.bind, pure, Except.pure]
        · simp only [total_value_overflows fits, fits, false_and, iff_false]
          simp [Outcome.lift, Outcome.mapCause, bind, Except.bind, underflow]
  · simp [ensureSameNetwork, same, bind, Except.bind, underflow]

theorem sweep_planned
    (found : (fundedSets accounts).find? (·.accountIdx = feeAccountIdx) = some feeAccount)
    (fits : ∀ set ∈ fundedSets accounts, set.value < 2 ^ 64)
    (covers : ∀ set ∈ fundedSets accounts, set.accountIdx = feeAccountIdx →
      (sweepFee fees accounts feeRate).sat ≤ set.value) :
    ∃ plan, planSweep fees feeAccountIdx accounts old old feeRate = .ok plan := by
  have funded := List.mem_of_find?_eq_some found
  have index : feeAccount.accountIdx = feeAccountIdx := by simpa using List.find?_some found
  cases Traversal.map_m_cases (sweepOutput feeAccountIdx (sweepFee fees accounts feeRate))
      (fundedSets accounts) with
  | inl passed =>
      obtain ⟨outputs, _, each⟩ := passed
      exact ⟨_, plan_sweep_eq_ok.mpr ⟨rfl, feeAccount, found, fits feeAccount funded,
        covers feeAccount funded index, outputs, each, rfl⟩⟩
  | inr failed =>
      obtain ⟨cause, _, before, set, after, split, _, fails⟩ := failed
      have member : set ∈ fundedSets accounts := by simp [split]
      obtain ⟨output, answer⟩ := sweep_output_exists (fits set member) (covers set member)
      rw [answer] at fails
      cases fails

/-! ### When value is conserved -/

theorem fee_sets_repeat
    (found : (fundedSets accounts).find? (·.accountIdx = feeAccountIdx) = some feeAccount)
    (covered : fee.sat ≤ feeAccount.value) {set : AccountUtxoSet}
    (reached : set ∈ reachedSets accounts) (index : set.accountIdx = feeAccountIdx)
    (short : set.value < fee.sat) : 1 < (feeSets feeAccountIdx accounts).length := by
  obtain ⟨others, split⟩ := find_fee_account_head found
  have funded : set ∈ fundedSets accounts := (List.takeWhile_sublist _).subset reached
  have member : set ∈ feeSets feeAccountIdx accounts :=
    List.mem_filter.mpr ⟨funded, decide_eq_true index⟩
  rw [split] at member ⊢
  cases List.mem_cons.mp member with
  | inl same =>
      subst same
      omega
  | inr other =>
      have some := List.length_pos_of_mem other
      rw [List.length_cons]
      omega

theorem sweep_loses (distinct : ((accounts.flatMap (·.utxos)).map (·.outpoint)).Nodup)
    (repeated : 1 < (feeSets feeAccountIdx accounts).length)
    (charges : ChargesEachFeeSet fees feeAccountIdx accounts old new feeRate)
    (conserves : ∀ plan, planSweep fees feeAccountIdx accounts old new feeRate = .ok plan →
      Conserves accounts plan) :
    planSweep fees feeAccountIdx accounts old new feeRate = .error underflow := by
  obtain ⟨rfl, charged, ⟨feeAccount, found, fits, covered⟩, reached⟩ := charges
  apply sweep_underflows_iff.mpr
  refine ⟨rfl, feeAccount, found, fits, covered, ?_⟩
  cases reached with
  | inr short => exact short
  | inl all =>
      have complete : reachedSets accounts = fundedSets accounts :=
        List.takeWhile_eq_self_iff.mpr fun set member => decide_eq_true (all set member)
      rw [complete]
      apply by_contra
      intro none
      have covers : ∀ set ∈ fundedSets accounts, set.accountIdx = feeAccountIdx →
          (sweepFee fees accounts feeRate).sat ≤ set.value := by
        intro set member index
        exact Nat.le_of_not_lt fun short => none ⟨set, member, index, short⟩
      obtain ⟨plan, accepted⟩ := sweep_planned found all covers
      have once := (sweep_conserves_iff distinct accepted).mp (conserves plan accepted)
      have fee : plan.totalFees = sweepFee fees accounts feeRate := by
        obtain ⟨_, _, _, _, _, _, _, rfl⟩ := plan_sweep_eq_ok.mp accepted
        rfl
      rw [fee] at once
      have twice := Nat.mul_lt_mul_of_pos_right repeated charged
      omega

theorem batched_accepted_iff :
    (∃ plan, planBatchedSweep fees feeAccountIdx smallAccountThreshold accounts old new feeRate =
      .ok plan) ↔
      CoversBatch fees feeAccountIdx smallAccountThreshold accounts old new feeRate := by
  constructor
  · intro accepted
    obtain ⟨plan, accepted⟩ := accepted
    obtain ⟨same, feeAccount, firstUtxo, paysFees, fits, built⟩ := plan_batched_eq_ok.mp accepted
    exact ⟨same, feeAccount, firstUtxo, paysFees, fits, (built_plan_exists fits).mp ⟨plan, built⟩⟩
  · intro covers
    obtain ⟨same, feeAccount, firstUtxo, paysFees, fits, covered⟩ := covers
    obtain ⟨plan, built⟩ := (built_plan_exists fits).mpr covered
    exact ⟨plan, plan_batched_eq_ok.mpr ⟨same, feeAccount, firstUtxo, paysFees, fits, built⟩⟩

theorem values_fit_of_accepted
    (accepted : planSweep fees feeAccountIdx accounts old new feeRate = .ok plan) :
    ∀ set ∈ fundedSets accounts, set.value < 2 ^ 64 := by
  obtain ⟨_, _, _, _, _, outputs, all, _⟩ := plan_sweep_eq_ok.mp accepted
  intro set member
  obtain ⟨output, _, paid⟩ := Traversal.partner_of_mem all member
  apply by_contra
  intro large
  rw [sweep_output_overflows large] at paid
  cases paid

theorem charges_of_accepted
    (accepted : planSweep fees feeAccountIdx accounts old new feeRate = .ok plan)
    (charged : 0 < plan.totalFees.sat) :
    ChargesEachFeeSet fees feeAccountIdx accounts old new feeRate := by
  have valuesFit := values_fit_of_accepted accepted
  obtain ⟨same, feeAccount, found, fits, covered, outputs, all, rfl⟩ :=
    plan_sweep_eq_ok.mp accepted
  exact ⟨same, charged, ⟨feeAccount, found, fits, covered⟩, .inl valuesFit⟩

/-- Both planners conserve value exactly when at most one funded set has the fee
account's index, or neither gets as far as treating such sets differently. -/
theorem conserves_value_iff
    (distinct : ((accounts.flatMap (·.utxos)).map (·.outpoint)).Nodup) :
    ConservesValue fees feeAccountIdx smallAccountThreshold accounts old new feeRate ↔
      (feeSets feeAccountIdx accounts).length ≤ 1 ∨
        ¬ ChargesEachFeeSet fees feeAccountIdx accounts old new feeRate ∧
          ¬ CoversBatch fees feeAccountIdx smallAccountThreshold accounts old new feeRate := by
  constructor
  · intro conserves
    by_cases one : (feeSets feeAccountIdx accounts).length ≤ 1
    · exact .inl one
    · apply Or.inr
      constructor
      · intro charges
        have loses := sweep_loses distinct (Nat.lt_of_not_le one) charges conserves.sweep
        exact conserves.sweepCovered loses
      · intro covers
        obtain ⟨plan, accepted⟩ := batched_accepted_iff.mpr covers
        exact one ((batched_conserves_iff distinct accepted).mp (conserves.batched plan accepted))
  · intro condition
    constructor
    · intro plan accepted
      apply (sweep_conserves_iff distinct accepted).mpr
      cases condition with
      | inl one =>
          obtain ⟨_, feeAccount, found, _⟩ := plan_sweep_eq_ok.mp accepted
          obtain ⟨others, split⟩ := find_fee_account_head found
          rw [split, List.length_cons] at one ⊢
          rw [show others.length + 1 = 1 by omega, Nat.one_mul]
      | inr neither =>
          have nothing : ¬ 0 < plan.totalFees.sat := fun charged =>
            neither.1 (charges_of_accepted accepted charged)
          rw [Nat.eq_zero_of_not_pos nothing, Nat.mul_zero]
    · intro plan accepted
      apply (batched_conserves_iff distinct accepted).mpr
      cases condition with
      | inl one => exact one
      | inr neither => exact absurd (batched_accepted_iff.mp ⟨plan, accepted⟩) neither.2
    · intro underflows
      obtain ⟨same, feeAccount, found, fits, covered, set, reached, index, short⟩ :=
        sweep_underflows_iff.mp underflows
      cases condition with
      | inl one =>
          have twice := fee_sets_repeat found covered reached index short
          omega
      | inr neither =>
          exact neither.1 ⟨same, by omega, ⟨feeAccount, found, fits, covered⟩,
            .inr ⟨set, reached, index, short⟩⟩
    · intro feeAccount firstUtxo paysFees covered
      exact batched_covered paysFees covered

def splitFeeSets (second : Amount) : List AccountUtxoSet :=
  [⟨0, [testUtxo 1 (.fromSat 500000)], testAddress⟩, ⟨0, [testUtxo 2 second], testAddress⟩,
    ⟨1, [testUtxo 3 (.fromSat 100000)], testAddress⟩]

theorem split_fee_sets_conserved_iff :
    ConservesValue .checked 0 bundleThreshold (splitFeeSets (.fromSat 300000)) testnet testnet
        testRate ↔
      (feeSets 0 (splitFeeSets (.fromSat 300000))).length ≤ 1 ∨
        ¬ ChargesEachFeeSet .checked 0 (splitFeeSets (.fromSat 300000)) testnet testnet testRate ∧
          ¬ CoversBatch .checked 0 bundleThreshold (splitFeeSets (.fromSat 300000)) testnet testnet
            testRate :=
  conserves_value_iff (by decide)

/-- The fee of 842 sat is taken twice and reported once. -/
def doubleFeeSweep : MigrationPlan where
  sweepTransactions := [{
      sourceUtxos := [testOutpoint 1, testOutpoint 2, testOutpoint 3]
      outputs := [.feeChange 0 (.fromSat 499158), .feeChange 0 (.fromSat 299158),
        .customer 1 testAddress (.fromSat 100000)]
      isFeeFinal := true
      psbt := none }]
  totalFees := .fromSat 842
  utxoCount := 3

/-- The 300000 sat of the second set stay behind. -/
def forgetfulBatch : MigrationPlan where
  sweepTransactions := [{
      sourceUtxos := [testOutpoint 3, testOutpoint 1]
      outputs := [.customer 1 testAddress (.fromSat 100000), .feeChange 0 (.fromSat 499432)]
      isFeeFinal := false
      psbt := none }, {
      sourceUtxos := [syntheticChangeOutpoint 0]
      outputs := [.feeChange 0 (.fromSat 499138)]
      isFeeFinal := true
      psbt := none }]
  totalFees := .fromSat 862
  utxoCount := 3

/-- Both planners accept a fee account listed in two sets, and neither plan
conserves its value; a second set too small for the fee underflows. -/
theorem split_fee_sets_lose_value :
    (((splitFeeSets (.fromSat 300000)).flatMap (·.utxos)).map (·.outpoint)).Nodup ∧
      planSweep .checked 0 (splitFeeSets (.fromSat 300000)) testnet testnet testRate =
        .ok doubleFeeSweep ∧
      planBatchedSweep .checked 0 bundleThreshold (splitFeeSets (.fromSat 300000)) testnet testnet
        testRate = .ok forgetfulBatch ∧
      ¬ Conserves (splitFeeSets (.fromSat 300000)) doubleFeeSweep ∧
      ¬ Conserves (splitFeeSets (.fromSat 300000)) forgetfulBatch ∧
      planSweep .checked 0 (splitFeeSets (.fromSat 300)) testnet testnet testRate =
        .error underflow ∧
      ¬ ConservesValue .checked 0 bundleThreshold (splitFeeSets (.fromSat 300000)) testnet testnet
        testRate := by
  have swept : planSweep .checked 0 (splitFeeSets (.fromSat 300000)) testnet testnet testRate =
    .ok doubleFeeSweep := rfl
  have unbalanced : ¬ Conserves (splitFeeSets (.fromSat 300000)) doubleFeeSweep := by
    intro conserves
    exact absurd conserves.balances (by decide)
  have unspent : ¬ Conserves (splitFeeSets (.fromSat 300000)) forgetfulBatch := by
    intro conserves
    exact absurd (conserves.spendsOnce ⟨0, [testUtxo 2 (.fromSat 300000)], testAddress⟩ (by decide)
      (testOutpoint 2) (by decide)) (by decide)
  refine ⟨by decide, swept, rfl, unbalanced, unspent, rfl, ?_⟩
  intro conserved
  exact unbalanced (conserved.sweep _ swept)

end EmvaultCore.RepeatedAccounts
