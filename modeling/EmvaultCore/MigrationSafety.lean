import EmvaultCore.MigrationChain
import Mathlib.Algebra.Order.BigOperators.Group.List

/-!
# When a batched sweep can be planned

The pre-flight check compares the estimated fees with everything the fee account
holds, but the transactions before the last draw on its first UTXO alone. The
planner underflows exactly when that UTXO does not cover them.
-/

namespace EmvaultCore.MigrationSafety

open Migration Library

variable {fees : FeeArithmetic} {feeAccountIdx : UInt32} {smallAccountThreshold : Amount}
  {utxos : List AccountUtxoSet} {old new : NetworkType} {feeRate : FeeRate}
  {feeAccount : AccountUtxoSet} {firstUtxo : LocalOutput}

def Covers (fees : FeeArithmetic) (feeRate : FeeRate) (purse : Amount)
    (jobs : List (List AccountUtxoSet)) : Prop :=
  (∀ group ∈ jobs, ∀ set ∈ group, set.value < 2 ^ 64) ∧
    (jobs.map fun group => (groupFee fees feeRate group).sat).sum ≤ purse.sat

theorem paid_exists {group : List AccountUtxoSet} (fits : ∀ set ∈ group, set.value < 2 ^ 64) :
    ∃ outputs, List.Forall₂ PaidInFull group outputs := by
  induction group with
  | nil => exact ⟨[], .nil⟩
  | cons set group ih =>
      rcases ih fun other member => fits other (List.mem_cons_of_mem _ member) with ⟨outputs, paid⟩
      exact ⟨_, .cons ⟨⟨set.value, fits set List.mem_cons_self⟩, rfl, rfl⟩ paid⟩

theorem relay_exists {first : OutPoint} {jobs : List (List AccountUtxoSet)} {purse : Amount}
    {index : Nat} (covers : Covers fees feeRate purse jobs) :
    ∃ txs rest,
      Relay (ServesGroup fees first feeAccountIdx feeRate) index purse jobs txs rest := by
  apply Relay.exists_of_enough _ covers
  rintro place before group rest ⟨fits, cost⟩
  rw [List.map_cons, List.sum_cons] at cost
  rcases paid_exists (fits group List.mem_cons_self) with ⟨outputs, paid⟩
  have bounded := before.fits
  refine ⟨_, ⟨before.sat - (groupFee fees feeRate group).sat, by omega⟩,
    ⟨by dsimp only; omega, outputs, paid, rfl⟩, ?_, by dsimp only; omega⟩
  exact fun other member => fits other (List.mem_cons_of_mem _ member)

theorem built_plan_exists (fits : ValuesFit feeAccountIdx utxos feeAccount) :
    (∃ plan, BuiltPlan feeAccountIdx smallAccountThreshold utxos fees feeRate feeAccount firstUtxo
      plan) ↔
      chainFees fees feeRate (largeSets feeAccountIdx smallAccountThreshold utxos)
          (smallSets feeAccountIdx smallAccountThreshold utxos) ≤ firstUtxo.txout.value.sat ∧
        planFees feeAccountIdx smallAccountThreshold utxos fees feeRate feeAccount ≤
          feeAccount.value := by
  constructor
  · rintro ⟨plan, txs, rest, remaining, relay, sum, left, -, -⟩
    have spent := relay.spent Amount.sat (fun group => (groupFee fees feeRate group).sat)
      fun _ _ _ _ _ served => served.1
    simp only [chainFees, planGroups] at spent ⊢
    omega
  · rintro ⟨chain, whole⟩
    have covers : Covers fees feeRate firstUtxo.txout.value
        (planGroups feeAccountIdx smallAccountThreshold utxos) :=
      ⟨fun group member set among => fits.2 set (mem_of_plan_groups member among), chain⟩
    rcases @relay_exists _ feeAccountIdx _ firstUtxo.outpoint _ _ 0 covers with ⟨txs, rest, relay⟩
    have fit := fits.1
    have planned_fits : planFees feeAccountIdx smallAccountThreshold utxos fees feeRate
        feeAccount < 2 ^ 64 := by omega
    obtain ⟨planned, sum⟩ : ∃ planned : Amount, planFees feeAccountIdx smallAccountThreshold utxos
        fees feeRate feeAccount = planned.sat := ⟨⟨_, planned_fits⟩, rfl⟩
    obtain ⟨remaining, left⟩ : ∃ remaining : Amount,
        feeAccount.value = remaining.sat + planned.sat :=
      ⟨⟨feeAccount.value - planned.sat, by omega⟩, by dsimp only; omega⟩
    exact ⟨⟨_, planned, _⟩, txs, rest, remaining, relay, sum.symm, left, rfl, rfl⟩

theorem returns_ensure_fee_balance {Value : Type} {available required : Amount}
    {next : Unit → Outcome MigrationError Value} :
    (ensureFeeBalance feeAccountIdx available required >>= next).Returns ↔
      available.sat < required.sat ∨ (next ()).Returns := by
  unfold ensureFeeBalance
  by_cases short : available.sat < required.sat
  · simp [short, Outcome.Returns, bind, Except.bind]
  · simp [short, bind, Except.bind]

/-- With a fee account found and values that fit, the planner returns exactly
when the fees fit and are either too many or payable along the chain. -/
theorem plan_returns_iff (paysFees : PaysFees feeAccountIdx utxos feeAccount firstUtxo)
    (fits : ValuesFit feeAccountIdx utxos feeAccount) :
    (planBatchedSweep fees feeAccountIdx smallAccountThreshold utxos old old feeRate).Returns ↔
      planFees feeAccountIdx smallAccountThreshold utxos fees feeRate feeAccount < 2 ^ 64 ∧
        (feeAccount.value <
            planFees feeAccountIdx smallAccountThreshold utxos fees feeRate feeAccount ∨
          chainFees fees feeRate (largeSets feeAccountIdx smallAccountThreshold utxos)
            (smallSets feeAccountIdx smallAccountThreshold utxos) ≤
              firstUtxo.txout.value.sat) := by
  have head := paysFees.2
  have ⟨total, value⟩ : ∃ total : Amount, feeAccount.value = total.sat := ⟨⟨_, fits.1⟩, rfl⟩
  simp only [plan_batched_opens paysFees, Outcome.returns_lift_bind, total_value_eq_ok,
    Prod.exists, partition_by_total_eq_ok, batched_estimate_eq_ok, returns_ensure_fee_balance,
    Outcome.returns_lift, bind_eq_ok]
  constructor
  · rintro ⟨total, value, _, _, ⟨-, rfl, rfl⟩, planned, sum, outcome⟩
    have planFit : planFees feeAccountIdx smallAccountThreshold utxos fees feeRate
        feeAccount = planned.sat := sum
    refine ⟨planFit ▸ planned.fits, ?_⟩
    rcases outcome with short | ⟨plan, state, built, last⟩
    · exact .inl (by omega)
    · have plans := (build_plan_eq_ok head value).mp ⟨state, built, last⟩
      exact .inr ((built_plan_exists fits).mp ⟨plan, plans⟩).1
  · rintro ⟨planFit, enough⟩
    refine ⟨total, value, _, _, ⟨fits.2, rfl, rfl⟩, ⟨_, planFit⟩, rfl, ?_⟩
    rw [← value]
    by_cases short : feeAccount.value <
        planFees feeAccountIdx smallAccountThreshold utxos fees feeRate feeAccount
    · exact .inl short
    · have chain := enough.resolve_left short
      rcases (built_plan_exists fits).mpr ⟨chain, Nat.le_of_not_lt short⟩ with ⟨plan, built⟩
      rcases (build_plan_eq_ok head value).mpr built with ⟨state, intermediate, last⟩
      exact .inr ⟨plan, state, intermediate, last⟩

/-- The planner answers whatever it is given, and a fee account that covers the
estimated fees gets a plan. -/
def PlansSafely (fees : FeeArithmetic) (feeAccountIdx : UInt32) (smallAccountThreshold : Amount)
    (utxos : List AccountUtxoSet) (old new : NetworkType) (feeRate : FeeRate) : Prop :=
  (planBatchedSweep fees feeAccountIdx smallAccountThreshold utxos old new feeRate).Returns ∧
    (old = new → ∀ feeAccount ∈ utxos, feeAccount.accountIdx = feeAccountIdx →
      feeAccount.utxos ≠ [] → ∀ estimated,
      batchedEstimateTotalFees fees (largeSets feeAccountIdx smallAccountThreshold utxos)
        (smallSets feeAccountIdx smallAccountThreshold utxos) feeAccount.utxos.length feeRate =
          .ok estimated →
      estimated.sat ≤ feeAccount.value →
      ∃ plan, planBatchedSweep fees feeAccountIdx smallAccountThreshold utxos old new feeRate =
        .ok plan)

/-- The estimated fees fit an amount, and either the fee account cannot pay them
at all or its first UTXO pays for every transaction before the last. -/
def FirstUtxoCarriesChain (fees : FeeArithmetic) (feeAccountIdx : UInt32)
    (smallAccountThreshold : Amount) (utxos : List AccountUtxoSet) (feeRate : FeeRate) : Prop :=
  ∀ feeAccount ∈ utxos, feeAccount.accountIdx = feeAccountIdx →
    ∀ firstUtxo, feeAccount.utxos.head? = some firstUtxo →
      planFees feeAccountIdx smallAccountThreshold utxos fees feeRate feeAccount < 2 ^ 64 ∧
        (feeAccount.value <
            planFees feeAccountIdx smallAccountThreshold utxos fees feeRate feeAccount ∨
          chainFees fees feeRate (largeSets feeAccountIdx smallAccountThreshold utxos)
            (smallSets feeAccountIdx smallAccountThreshold utxos) ≤ firstUtxo.txout.value.sat)

/-- 21,000,000 BTC. -/
def maxSupply : Nat := 2100000000000000

theorem values_fit (supply : (utxos.map AccountUtxoSet.value).sum ≤ maxSupply)
    (member : feeAccount ∈ utxos) : ValuesFit feeAccountIdx utxos feeAccount := by
  have each : ∀ set ∈ utxos, set.value < 2 ^ 64 := by
    intro set among
    have bound := List.single_le_sum (fun _ _ => Nat.zero_le _) set.value
      (List.mem_map_of_mem among)
    unfold maxSupply at supply
    omega
  refine ⟨each feeAccount member, ?_⟩
  intro set among
  exact each set (mem_funded_sets.mp (List.mem_of_mem_filter among)).1

theorem returns_of_networks_differ (differ : old ≠ new) :
    (planBatchedSweep fees feeAccountIdx smallAccountThreshold utxos old new feeRate).Returns := by
  simp [planBatchedSweep, ensureSameNetwork, differ, Outcome.Returns, bind, Except.bind]

theorem returns_of_no_fee_account
    (missing : (fundedSets utxos).find? (·.accountIdx = feeAccountIdx) = none) :
    (planBatchedSweep fees feeAccountIdx smallAccountThreshold utxos old old feeRate).Returns := by
  have same : ensureSameNetwork old old = .ok () := ensure_same_network_eq_ok.mpr rfl
  simp only [planBatchedSweep, same, ok_bind, findFeeAccount, missing, ensureFunded]
  by_cases empty : (fundedSets utxos).isEmpty
  · simp [empty, Outcome.Returns, bind, Except.bind]
  · simp [empty, Outcome.Returns, bind, Except.bind]

/-- The planner keeps its promise exactly when, between equal networks, the fees
fit and the first UTXO of the fee account carries the chain. -/
theorem plans_safely_iff (distinct : (utxos.map (·.accountIdx)).Nodup)
    (supply : (utxos.map AccountUtxoSet.value).sum ≤ maxSupply) :
    PlansSafely fees feeAccountIdx smallAccountThreshold utxos old new feeRate ↔
      (old = new →
        FirstUtxoCarriesChain fees feeAccountIdx smallAccountThreshold utxos feeRate) := by
  constructor
  · rintro ⟨returns, -⟩ rfl feeAccount member index firstUtxo head
    have paysFees := (pays_fees_iff distinct).mpr ⟨member, index, head⟩
    exact (plan_returns_iff paysFees (values_fit supply member)).mp returns
  · intro carries
    by_cases same : old = new
    · subst same
      constructor
      · cases found : (fundedSets utxos).find? (·.accountIdx = feeAccountIdx) with
        | none => exact returns_of_no_fee_account found
        | some feeAccount =>
            have funded := mem_funded_sets.mp (List.mem_of_find?_eq_some found)
            rcases List.exists_cons_of_ne_nil funded.2 with ⟨firstUtxo, others, split⟩
            have paysFees : PaysFees feeAccountIdx utxos feeAccount firstUtxo :=
              ⟨found, by rw [split, List.head?_cons]⟩
            have listed := (pays_fees_iff distinct).mp paysFees
            exact (plan_returns_iff paysFees (values_fit supply listed.1)).mpr
              (carries rfl feeAccount listed.1 listed.2.1 firstUtxo listed.2.2)
      · intro _ feeAccount member index funded estimated estimate covered
        rcases List.exists_cons_of_ne_nil funded with ⟨firstUtxo, others, split⟩
        have head : feeAccount.utxos.head? = some firstUtxo := by rw [split, List.head?_cons]
        have required : planFees feeAccountIdx smallAccountThreshold utxos fees feeRate
            feeAccount = estimated.sat := batched_estimate_eq_ok.mp estimate
        have chain := (carries rfl feeAccount member index firstUtxo head).2.resolve_left (by omega)
        have fits : ValuesFit feeAccountIdx utxos feeAccount := values_fit supply member
        rcases (built_plan_exists fits).mpr ⟨chain, by omega⟩ with ⟨plan, built⟩
        exact ⟨plan, plan_batched_eq_ok.mpr ⟨rfl, feeAccount, firstUtxo,
          (pays_fees_iff distinct).mpr ⟨member, index, head⟩, fits, built⟩⟩
    · exact ⟨returns_of_networks_differ same, fun equal => absurd equal same⟩

def testUtxo (byte : Fin 256) (amount : Amount) : LocalOutput where
  outpoint := ⟨Fin.ofNat (2 ^ 256) (byte.val * ((2 ^ 256 - 1) / 255)), 0⟩
  txout := ⟨amount, []⟩

def testAddress : Address := ⟨.testnet, []⟩

def splitFeeAccount : List AccountUtxoSet :=
  [⟨0, [testUtxo 1 (.fromSat 500), testUtxo 2 (.fromSat 500000)], testAddress⟩,
    ⟨1, [testUtxo 3 (.fromSat 100000)], testAddress⟩]

def bundleThreshold : Amount := .fromSat 50000

def testnet : NetworkType := .bitcoin .testnet

def testRate : FeeRate := 500

theorem plans_safely_split :
    PlansSafely .checked 0 bundleThreshold splitFeeAccount testnet testnet testRate ↔
      (testnet = testnet →
        FirstUtxoCarriesChain .checked 0 bundleThreshold splitFeeAccount testRate) :=
  plans_safely_iff (by decide) (by decide)

/-- The fee account covers every fee a hundred times over, yet its first UTXO
does not pay for the customer's transaction. -/
theorem split_fee_account_underflows :
    (splitFeeAccount.map (·.accountIdx)).Nodup ∧
      (splitFeeAccount.map AccountUtxoSet.value).sum ≤ maxSupply ∧
      planBatchedSweep .checked 0 bundleThreshold splitFeeAccount testnet testnet testRate =
        .error (.panic "Amount subtraction error") ∧
      ¬ PlansSafely .checked 0 bundleThreshold splitFeeAccount testnet testnet testRate := by
  have panics : planBatchedSweep .checked 0 bundleThreshold splitFeeAccount testnet testnet
      testRate = .error (.panic "Amount subtraction error") := rfl
  refine ⟨by decide, by decide, panics, ?_⟩
  rintro ⟨returns, -⟩
  exact returns _ panics

end EmvaultCore.MigrationSafety
