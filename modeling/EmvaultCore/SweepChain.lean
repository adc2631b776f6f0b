import EmvaultCore.MigrationSafety

/-!
# Batched plans are linear chains

What a plan must be so that its transactions can be signed and broadcast one
after the other: every coin is spent once, each transaction is funded by the
change of the one before, customers are paid in full and each transaction pays
exactly its estimated fee.
-/

namespace EmvaultCore.SweepChain

open Migration Library

/-- The number of the transaction whose change an outpoint stands for; outpoints
of existing transactions stand for none. -/
def precedingTx (source : OutPoint) : Option Nat :=
  if source.txid = 0 then some source.vout.val else none

def isFeeChange : SweepOutput → Bool
  | .customer _ _ _ => false
  | .feeChange _ _ => true

def isCustomerOf (accountIdx : UInt32) : SweepOutput → Bool
  | .customer index _ _ => index = accountIdx
  | .feeChange _ _ => false

def feeChangeAmount (tx : SweepTransaction) : Option Nat :=
  (tx.outputs.find? isFeeChange).map (·.amount.sat)

def sourceValue (accounts : List AccountUtxoSet) (txs : List SweepTransaction)
    (source : OutPoint) : Option Nat :=
  match precedingTx source with
  | some preceding => (txs[preceding]?).bind feeChangeAmount
  | none => ((accounts.flatMap (·.utxos)).find? (·.outpoint = source)).map (·.txout.value.sat)

def inputTotal (accounts : List AccountUtxoSet) (txs : List SweepTransaction)
    (tx : SweepTransaction) : Option Nat :=
  (tx.sourceUtxos.mapM (sourceValue accounts txs)).map List.sum

def outputTotal (tx : SweepTransaction) : Nat := (tx.outputs.map (·.amount.sat)).sum

def txFee (fees : FeeArithmetic) (feeRate : FeeRate) (tx : SweepTransaction) : Nat :=
  (estimateFee fees tx.sourceUtxos.length tx.outputs.length feeRate).sat

structure LinearChain (fees : FeeArithmetic) (feeRate : FeeRate) (feeAccountIdx : UInt32)
    (accounts : List AccountUtxoSet) (plan : MigrationPlan) : Prop where
  /-- Every coin is a source of exactly one transaction. -/
  spendsEachOnce : ∀ set ∈ accounts, ∀ utxo ∈ set.utxos,
    (plan.sweepTransactions.flatMap (·.sourceUtxos)).count utxo.outpoint = 1
  spendsNoOther : ∀ tx ∈ plan.sweepTransactions, ∀ source ∈ tx.sourceUtxos,
    precedingTx source = none → ∃ set ∈ accounts, ∃ utxo ∈ set.utxos, utxo.outpoint = source
  /-- Each transaction spends the change of the one before and no other change. -/
  linked : ∀ index tx, plan.sweepTransactions[index]? = some tx →
    tx.sourceUtxos.filterMap precedingTx = if index = 0 then [] else [index - 1]
  /-- A customer account has one output, in the transaction that spends its coins. -/
  paysCustomers : ∀ set ∈ accounts, set.utxos ≠ [] → set.accountIdx ≠ feeAccountIdx →
    ∃ amount : Amount, amount.sat = set.value ∧
      (plan.sweepTransactions.flatMap (·.outputs)).filter (isCustomerOf set.accountIdx) =
        [.customer set.accountIdx set.destinationAddress amount] ∧
      ∃ tx ∈ plan.sweepTransactions,
        .customer set.accountIdx set.destinationAddress amount ∈ tx.outputs ∧
          ∀ utxo ∈ set.utxos, utxo.outpoint ∈ tx.sourceUtxos
  /-- Each transaction has one fee change; only the last is final. -/
  oneFeeChange : ∀ index tx, plan.sweepTransactions[index]? = some tx →
    (∃ change, tx.outputs.filter isFeeChange = [.feeChange feeAccountIdx change]) ∧
      (tx.isFeeFinal = true ↔ index + 1 = plan.sweepTransactions.length)
  /-- Sources pay for outputs and fee. -/
  conserves : ∀ tx ∈ plan.sweepTransactions,
    inputTotal accounts plan.sweepTransactions tx = some (outputTotal tx + txFee fees feeRate tx)
  addsUpFees : plan.totalFees.sat = (plan.sweepTransactions.map (txFee fees feeRate)).sum

variable {fees : FeeArithmetic} {feeRate : FeeRate} {feeAccountIdx : UInt32}
  {smallAccountThreshold : Amount} {accounts : List AccountUtxoSet} {feeAccount : AccountUtxoSet}
  {firstUtxo : LocalOutput} {first : OutPoint} {index : Nat} {purse change rest : Amount}
  {group : List AccountUtxoSet} {tx : SweepTransaction} {jobs : List (List AccountUtxoSet)}
  {txs : List SweepTransaction}

theorem count_outpoints (sets : List AccountUtxoSet) :
    (sets.flatMap AccountUtxoSet.outpoints).length = inputCount sets := by
  simp only [List.length_flatMap, AccountUtxoSet.outpoints, List.length_map, inputCount]

theorem shape_of_serves
    (served : ServesGroup fees first feeAccountIdx feeRate index purse group tx change) :
    (tx.sourceUtxos.length, tx.outputs.length) = (inputCount group + 1, group.length + 1) := by
  rcases served with ⟨-, paid, full, rfl⟩
  rw [List.length_append, List.length_append, count_outpoints, full.length_eq]
  rfl

theorem tx_fee_of_serves
    (served : ServesGroup fees first feeAccountIdx feeRate index purse group tx change) :
    txFee fees feeRate tx = (groupFee fees feeRate group).sat := by
  have shape := shape_of_serves served
  rw [Prod.mk.injEq] at shape
  rw [txFee, groupFee, shape.1, shape.2]

theorem not_fee_change_of_paid {set : AccountUtxoSet} {output : SweepOutput}
    (paid : PaidInFull set output) : isFeeChange output = false := by
  rcases paid with ⟨amount, -, rfl⟩
  rfl

theorem paid_not_fee_change {outputs : List SweepOutput}
    (full : List.Forall₂ PaidInFull group outputs) :
    ∀ output ∈ outputs, isFeeChange output = false := by
  induction full with
  | nil => simp
  | cons paid rest ih => exact List.forall_mem_cons.mpr ⟨not_fee_change_of_paid paid, ih⟩

theorem fee_change_of_serves
    (served : ServesGroup fees first feeAccountIdx feeRate index purse group tx change) :
    tx.outputs.filter isFeeChange = [.feeChange feeAccountIdx change] ∧
      feeChangeAmount tx = some change.sat := by
  rcases served with ⟨-, paid, full, rfl⟩
  have none : ∀ output ∈ paid, ¬ isFeeChange output = true := by
    simpa using paid_not_fee_change full
  constructor
  · rw [List.filter_append, List.filter_eq_nil_iff.mpr none]
    rfl
  · rw [feeChangeAmount, List.find?_append, List.find?_eq_none.mpr none]
    rfl

/-! ### Coins and the change that stands for none -/

/-- The accounts list each coin once, and each coin is of an existing transaction. -/
structure ExistingCoins (accounts : List AccountUtxoSet) : Prop where
  distinct : ((accounts.flatMap (·.utxos)).map (·.outpoint)).Nodup
  exist : ∀ set ∈ accounts, ∀ utxo ∈ set.utxos, utxo.outpoint.txid ≠ 0

theorem preceding_tx_of_coin (coins : ExistingCoins accounts) {set : AccountUtxoSet}
    (listed : set ∈ accounts) {outpoint : OutPoint} (member : outpoint ∈ set.outpoints) :
    precedingTx outpoint = none := by
  rcases List.mem_map.mp member with ⟨utxo, among, rfl⟩
  exact if_neg (coins.exist set listed utxo among)

theorem preceding_tx_synthetic {preceding : Nat} (few : preceding < 2 ^ 32) :
    precedingTx (syntheticChangeOutpoint preceding) = some preceding := by
  simpa [precedingTx, syntheticChangeOutpoint] using few

theorem preceding_tx_purse_coin (firstExists : precedingTx first = none)
    (few : index < 2 ^ 32) :
    precedingTx (purseCoin first index) = if index = 0 then none else some (index - 1) := by
  unfold purseCoin
  split
  · exact firstExists
  · exact preceding_tx_synthetic (by omega)

theorem source_value_of_coin (coins : ExistingCoins accounts) {set : AccountUtxoSet}
    (listed : set ∈ accounts) {utxo : LocalOutput} (member : utxo ∈ set.utxos) :
    sourceValue accounts txs utxo.outpoint = some utxo.txout.value.sat := by
  have real := preceding_tx_of_coin coins listed (List.mem_map_of_mem member)
  have among : utxo ∈ accounts.flatMap (·.utxos) := List.mem_flatMap.mpr ⟨set, listed, member⟩
  have found := Keyed.find_of_nodup_map coins.distinct among
  simp only [sourceValue, real, found, Option.map_some]

theorem coin_values (coins : ExistingCoins accounts) (sets : List AccountUtxoSet)
    (listed : ∀ set ∈ sets, set ∈ accounts) :
    (sets.flatMap AccountUtxoSet.outpoints).map (sourceValue accounts txs) =
      (sets.flatMap (·.utxos)).map fun utxo => some utxo.txout.value.sat := by
  induction sets with
  | nil => rfl
  | cons set sets ih =>
      rw [List.flatMap_cons, List.map_append, ih fun other member =>
        listed other (List.mem_cons_of_mem _ member), List.flatMap_cons, List.map_append]
      congr 1
      rw [AccountUtxoSet.outpoints, List.map_map]
      apply List.map_congr_left
      intro utxo member
      exact source_value_of_coin coins (listed set List.mem_cons_self) member

theorem sum_coin_values (sets : List AccountUtxoSet) :
    ((sets.flatMap (·.utxos)).map (·.txout.value.sat)).sum =
      (sets.map AccountUtxoSet.value).sum := by
  induction sets with
  | nil => rfl
  | cons set sets ih =>
      rw [List.flatMap_cons, List.map_append, List.sum_append, ih, List.map_cons, List.sum_cons,
        AccountUtxoSet.value]

theorem input_total_eq {values : List Nat}
    (resolved : tx.sourceUtxos.map (sourceValue accounts txs) = values.map some) :
    inputTotal accounts txs tx = some values.sum := by
  have all : ∀ (sources : List OutPoint) (values : List Nat),
      sources.map (sourceValue accounts txs) = values.map some →
        sources.mapM (sourceValue accounts txs) = some values := by
    intro sources
    induction sources with
    | nil =>
        intro values same
        obtain rfl : values = [] := by simpa using same.symm
        rfl
    | cons source sources ih =>
        intro values same
        cases values with
        | nil => simp at same
        | cons value values =>
            rw [List.map_cons, List.map_cons, List.cons.injEq] at same
            rw [List.mapM_cons, same.1, ih values same.2]
            rfl
  rw [inputTotal, all _ _ resolved, Option.map_some]

theorem sum_paid {outputs : List SweepOutput} (full : List.Forall₂ PaidInFull group outputs) :
    (outputs.map (·.amount.sat)).sum = (group.map AccountUtxoSet.value).sum := by
  induction full with
  | nil => rfl
  | cons paid rest ih =>
      rcases paid with ⟨amount, value, rfl⟩
      rw [List.map_cons, List.map_cons, List.sum_cons, List.sum_cons, ih, value]
      rfl

theorem output_total_of_serves
    (served : ServesGroup fees first feeAccountIdx feeRate index purse group tx change) :
    outputTotal tx = (group.map AccountUtxoSet.value).sum + change.sat := by
  rcases served with ⟨-, paid, full, rfl⟩
  rw [outputTotal, List.map_append, List.sum_append, sum_paid full]
  rfl

/-- A transaction whose purse coin is worth the purse pays for itself. -/
theorem serves_conserves (coins : ExistingCoins accounts)
    (listed : ∀ set ∈ group, set ∈ accounts)
    (served : ServesGroup fees first feeAccountIdx feeRate index purse group tx change)
    (worth : sourceValue accounts txs (purseCoin first index) = some purse.sat) :
    inputTotal accounts txs tx = some (outputTotal tx + txFee fees feeRate tx) := by
  have resolved : tx.sourceUtxos.map (sourceValue accounts txs) =
      ((group.flatMap (·.utxos)).map (·.txout.value.sat) ++ [purse.sat]).map some := by
    rcases served with ⟨-, paid, full, rfl⟩
    rw [List.map_append, coin_values coins group listed, List.map_append, List.map_map,
      List.map_singleton, List.map_singleton, worth]
    rfl
  rw [input_total_eq resolved, output_total_of_serves served, tx_fee_of_serves served,
    List.sum_append, sum_coin_values, List.sum_singleton, served.1, Nat.add_assoc]

/-! ### The chain and its last transaction -/

theorem sources_of_serves
    (served : ServesGroup fees first feeAccountIdx feeRate index purse group tx change) :
    tx.sourceUtxos = group.flatMap AccountUtxoSet.outpoints ++ [purseCoin first index] := by
  rcases served with ⟨-, paid, full, rfl⟩
  rfl

theorem no_change_among_coins (coins : ExistingCoins accounts)
    (listed : ∀ set ∈ group, set ∈ accounts) :
    (group.flatMap AccountUtxoSet.outpoints).filterMap precedingTx = [] := by
  rw [List.filterMap_eq_nil_iff]
  intro outpoint member
  rcases List.mem_flatMap.mp member with ⟨set, among, coin⟩
  exact preceding_tx_of_coin coins (listed set among) coin

theorem serves_linked (coins : ExistingCoins accounts) (listed : ∀ set ∈ group, set ∈ accounts)
    (firstExists : precedingTx first = none) (few : index < 2 ^ 32)
    (served : ServesGroup fees first feeAccountIdx feeRate index purse group tx change) :
    tx.sourceUtxos.filterMap precedingTx = if index = 0 then [] else [index - 1] := by
  rw [sources_of_serves served, List.filterMap_append, no_change_among_coins coins listed,
    List.nil_append, List.filterMap_cons, preceding_tx_purse_coin firstExists few]
  split <;> simp_all

def coinSources (txs : List SweepTransaction) : List OutPoint :=
  (txs.flatMap (·.sourceUtxos)).filter fun source => precedingTx source = none

theorem coins_kept (coins : ExistingCoins accounts) (listed : ∀ set ∈ group, set ∈ accounts) :
    (group.flatMap AccountUtxoSet.outpoints).filter (fun source => precedingTx source = none) =
      group.flatMap AccountUtxoSet.outpoints := by
  rw [List.filter_eq_self]
  intro outpoint member
  rcases List.mem_flatMap.mp member with ⟨set, among, coin⟩
  exact decide_eq_true (preceding_tx_of_coin coins (listed set among) coin)

theorem no_coin_among_synthetic {count : Nat} (few : count ≤ 2 ^ 32) :
    ((List.range count).map syntheticChangeOutpoint).filter
      (fun source => precedingTx source = none) = [] := by
  apply List.filter_eq_nil_iff.mpr
  intro source member
  obtain ⟨place, bound, rfl⟩ := List.mem_map.mp member
  have before := List.mem_range.mp bound
  simp [preceding_tx_synthetic (show place < 2 ^ 32 by omega)]

theorem final_sources {remaining : Amount} {count : Nat} :
    (finalTransaction feeAccount.outpoints count feeAccountIdx remaining).sourceUtxos =
      if count = 0 then feeAccount.outpoints
      else feeAccount.outpoints.tail ++ [purseCoin first count] := by
  rw [finalTransaction, purseCoin]
  split <;> rfl

theorem sources_of_relay
    (relay : Relay (ServesGroup fees first feeAccountIdx feeRate) index purse jobs txs rest) :
    (txs.flatMap (·.sourceUtxos)).Perm (jobs.flatten.flatMap AccountUtxoSet.outpoints ++
      (List.range' index txs.length).map (purseCoin first)) := by
  induction relay with
  | nil => exact .refl _
  | @cons index purse next last group tx jobs txs served relay ih =>
      rw [List.flatMap_cons, sources_of_serves served, List.flatten_cons, List.flatMap_append,
        List.length_cons, List.range'_succ, List.map_cons, List.append_assoc, List.append_assoc]
      apply List.Perm.append_left
      exact (ih.cons _).trans List.perm_middle.symm

theorem range_coins (count : Nat) :
    (List.range' 0 (count + 1)).map (purseCoin first) =
      first :: (List.range count).map syntheticChangeOutpoint := by
  rw [List.range'_succ, List.map_cons, List.range'_eq_map_range, List.map_map]
  congr 1
  apply List.map_congr_left
  intro place _
  rw [Function.comp_apply, Nat.add_comm]
  rfl

/-- A batched plan spends the coins of its groups, those of the fee account and
its placeholders. -/
theorem sources_of_plan (remaining : Amount) (head : feeAccount.utxos.head? = some firstUtxo)
    (relay : Relay (ServesGroup fees firstUtxo.outpoint feeAccountIdx feeRate) 0 purse jobs txs
      rest) :
    ((txs ++ [finalTransaction feeAccount.outpoints txs.length feeAccountIdx
      remaining]).flatMap (·.sourceUtxos)).Perm
        (jobs.flatten.flatMap AccountUtxoSet.outpoints ++ feeAccount.outpoints ++
          (List.range txs.length).map syntheticChangeOutpoint) := by
  have chain := sources_of_relay relay
  rw [List.flatMap_append, List.flatMap_singleton, @final_sources _ _ firstUtxo.outpoint]
  cases count : txs.length with
  | zero =>
      rw [count] at chain
      simpa using chain.append_right _
  | succ count =>
      rw [count, range_coins] at chain
      rw [if_neg (Nat.succ_ne_zero _), List.range_succ, List.map_append, List.map_singleton]
      refine (chain.append_right _).trans ?_
      rw [List.append_assoc, List.append_assoc]
      apply List.Perm.append_left
      rw [outpoints_of_head head]
      simp only [List.cons_append, List.tail_cons]
      apply List.Perm.cons
      rw [← List.append_assoc, ← List.append_assoc]
      exact List.perm_append_comm.append_right _

theorem plan_groups_listed :
    ∀ group ∈ planGroups feeAccountIdx smallAccountThreshold accounts,
      ∀ set ∈ group, set ∈ accounts := by
  intro group member set among
  have nonFee := mem_of_plan_groups member among
  exact (mem_funded_sets.mp (List.mem_of_mem_filter nonFee)).1

theorem plan_groups_perm :
    (planGroups feeAccountIdx smallAccountThreshold accounts).flatten.Perm
      (nonFeeSets feeAccountIdx accounts) := by
  rw [planGroups, flatten_groups, largeSets, smallSets]
  have parts := List.filter_append_perm (fun set => decide (IsLarge smallAccountThreshold set))
    (nonFeeSets feeAccountIdx accounts)
  simpa only [decide_not] using parts

theorem customers_and_fee_perm :
    (nonFeeSets feeAccountIdx accounts ++
      (fundedSets accounts).filter (·.accountIdx = feeAccountIdx)).Perm (fundedSets accounts) := by
  have parts := List.filter_append_perm (fun set => decide (set.accountIdx ≠ feeAccountIdx))
    (fundedSets accounts)
  simpa only [nonFeeSets, ne_eq, decide_not, Bool.not_not] using parts

theorem one_fee_set (distinct : (accounts.map (·.accountIdx)).Nodup)
    (found : (fundedSets accounts).find? (·.accountIdx = feeAccountIdx) = some feeAccount) :
    (fundedSets accounts).filter (·.accountIdx = feeAccountIdx) = [feeAccount] := by
  have fundedDistinct : ((fundedSets accounts).map (·.accountIdx)).Nodup :=
    distinct.sublist ((List.filter_sublist).map _)
  have kept := Keyed.filter_of_nodup_map fundedDistinct (List.mem_of_find?_eq_some found)
  have index : feeAccount.accountIdx = feeAccountIdx := by simpa using List.find?_some found
  rwa [index] at kept

theorem funded_outpoints :
    (fundedSets accounts).flatMap AccountUtxoSet.outpoints =
      accounts.flatMap AccountUtxoSet.outpoints := by
  induction accounts with
  | nil => rfl
  | cons set accounts ih =>
      by_cases empty : set.utxos = []
      · have none : set.outpoints = [] := by rw [AccountUtxoSet.outpoints, empty, List.map_nil]
        rw [List.flatMap_cons, none, List.nil_append, ← ih]
        simp [fundedSets, empty]
      · rw [List.flatMap_cons, ← ih]
        simp [fundedSets, empty]

theorem coins_of_one_fee_set
    (one : (fundedSets accounts).filter (·.accountIdx = feeAccountIdx) = [feeAccount]) :
    ((nonFeeSets feeAccountIdx accounts).flatMap AccountUtxoSet.outpoints ++
      feeAccount.outpoints).Perm (accounts.flatMap AccountUtxoSet.outpoints) := by
  have sets := (@customers_and_fee_perm feeAccountIdx accounts).flatMap_right
    AccountUtxoSet.outpoints
  rwa [one, List.flatMap_append, List.flatMap_singleton, funded_outpoints] at sets

/-! ### Customers -/

theorem paid_of_relay
    (relay : Relay (ServesGroup fees first feeAccountIdx feeRate) index purse jobs txs rest) :
    List.Forall₂ PaidInFull jobs.flatten
      ((txs.flatMap (·.outputs)).filter fun output => !isFeeChange output) := by
  induction relay with
  | nil => exact .nil
  | cons served relay ih =>
      rcases served with ⟨-, paid, full, rfl⟩
      have kept : ∀ output ∈ paid, (!isFeeChange output) = true := by
        simpa using paid_not_fee_change full
      rw [List.flatten_cons, List.flatMap_cons, List.filter_append, List.filter_append,
        List.filter_eq_self.mpr kept]
      apply List.rel_append _ ih
      simpa [isFeeChange] using full

theorem is_customer_of_eq (accountIdx : UInt32) (output : SweepOutput) :
    isCustomerOf accountIdx output =
      (decide (output.accountIdx = accountIdx) && !isFeeChange output) := by
  cases output with
  | customer index address amount => exact (Bool.and_true _).symm
  | feeChange index amount => exact (Bool.and_false _).symm

theorem paid_account_idx {sets : List AccountUtxoSet} {outputs : List SweepOutput}
    (full : List.Forall₂ PaidInFull sets outputs) :
    outputs.map (·.accountIdx) = sets.map (·.accountIdx) := by
  induction full with
  | nil => rfl
  | cons paid rest ih =>
      rcases paid with ⟨amount, -, rfl⟩
      rw [List.map_cons, List.map_cons, ih]
      rfl

theorem paid_once {sets : List AccountUtxoSet} {outputs : List SweepOutput}
    (full : List.Forall₂ PaidInFull sets (outputs.filter fun output => !isFeeChange output))
    (distinct : (sets.map (·.accountIdx)).Nodup) {set : AccountUtxoSet} (member : set ∈ sets)
    {amount : Amount} (value : amount.sat = set.value) :
    outputs.filter (isCustomerOf set.accountIdx) =
      [.customer set.accountIdx set.destinationAddress amount] := by
  rcases Traversal.partner_of_mem full member with ⟨_, among, other, total, rfl⟩
  obtain rfl : amount = other := Amount.ext (value.trans total)
  have once := Keyed.filter_of_nodup_map (paid_account_idx full ▸ distinct) among
  rw [List.filter_filter] at once
  rw [← once]
  apply List.filter_congr
  intro output _
  exact is_customer_of_eq set.accountIdx output

/-! ### Accepted plans -/

theorem first_listed (paysFees : PaysFees feeAccountIdx accounts feeAccount firstUtxo) :
    feeAccount ∈ accounts ∧ firstUtxo ∈ feeAccount.utxos :=
  ⟨(mem_funded_sets.mp (List.mem_of_find?_eq_some paysFees.1)).1,
    List.mem_of_mem_head? paysFees.2⟩

theorem plan_coins_perm (distinct : (accounts.map (·.accountIdx)).Nodup)
    (coins : ExistingCoins accounts)
    (paysFees : PaysFees feeAccountIdx accounts feeAccount firstUtxo)
    {remaining : Amount} (few : txs.length < 2 ^ 32)
    (relay : Relay (ServesGroup fees firstUtxo.outpoint feeAccountIdx feeRate) 0 purse
      (planGroups feeAccountIdx smallAccountThreshold accounts) txs rest) :
    (coinSources (txs ++ [finalTransaction feeAccount.outpoints txs.length feeAccountIdx
      remaining])).Perm (accounts.flatMap AccountUtxoSet.outpoints) := by
  have feeCoins := coins_kept coins (List.forall_mem_singleton.mpr (first_listed paysFees).1)
  rw [List.flatMap_singleton] at feeCoins
  have listed : ∀ set ∈ (planGroups feeAccountIdx smallAccountThreshold accounts).flatten,
      set ∈ accounts := by
    intro set among
    obtain ⟨group, member, within⟩ := List.mem_flatten.mp among
    exact plan_groups_listed group member set within
  -- Of the sources only the placeholders stand for a preceding transaction.
  have kept := (sources_of_plan remaining paysFees.2 relay).filter
    fun source => precedingTx source = none
  rw [List.filter_append, List.filter_append, coins_kept coins listed, feeCoins,
    no_coin_among_synthetic (Nat.le_of_lt few), List.append_nil] at kept
  have groups := (@plan_groups_perm feeAccountIdx smallAccountThreshold accounts).flatMap_right
    AccountUtxoSet.outpoints
  have whole := coins_of_one_fee_set (one_fee_set distinct paysFees.1)
  exact kept.trans ((groups.append_right _).trans whole)

/-- Along a relay every purse coin is worth the purse it holds. -/
theorem purse_coin_worth (coins : ExistingCoins accounts)
    (paysFees : PaysFees feeAccountIdx accounts feeAccount firstUtxo) {last : SweepTransaction}
    (few : txs.length < 2 ^ 32) {held : Nat → Amount} (start : held 0 = firstUtxo.txout.value)
    (handed : ∀ place work, txs[place]? = some work → ∃ job ∈ jobs,
      ServesGroup fees firstUtxo.outpoint feeAccountIdx feeRate (0 + place) (held place) job work
        (held (place + 1)))
    {place : Nat} (bound : place ≤ txs.length) :
    sourceValue accounts (txs ++ [last]) (purseCoin firstUtxo.outpoint place) =
      some (held place).sat := by
  have listed := first_listed paysFees
  cases place with
  | zero =>
      rw [start]
      exact source_value_of_coin coins listed.1 listed.2
  | succ place =>
      have found : txs[place]? = some txs[place] := List.getElem?_eq_getElem bound
      rcases handed place _ found with ⟨job, -, served⟩
      have coin : purseCoin firstUtxo.outpoint (place + 1) = syntheticChangeOutpoint place := rfl
      simp only [coin, sourceValue, preceding_tx_synthetic (show place < 2 ^ 32 by omega),
        List.getElem?_append_left bound, found, Option.bind_some,
        (fee_change_of_serves served).2]

theorem final_shape (head : feeAccount.utxos.head? = some firstUtxo) {count : Nat}
    {remaining : Amount} :
    (finalTransaction feeAccount.outpoints count feeAccountIdx remaining).sourceUtxos.length =
      feeAccount.utxos.length := by
  have lengths : feeAccount.outpoints.length = feeAccount.outpoints.tail.length + 1 :=
    congrArg List.length (outpoints_of_head head)
  have coins : feeAccount.outpoints.length = feeAccount.utxos.length := List.length_map _
  rw [@final_sources _ _ firstUtxo.outpoint]
  split
  · exact coins
  · rw [List.length_append, List.length_singleton, ← lengths, coins]

theorem final_tx_fee (head : feeAccount.utxos.head? = some firstUtxo) {count : Nat}
    {remaining : Amount} :
    txFee fees feeRate (finalTransaction feeAccount.outpoints count feeAccountIdx remaining) =
      (estimateFee fees feeAccount.utxos.length 1 feeRate).sat := by
  rw [txFee, final_shape head]
  rfl

theorem final_conserves (coins : ExistingCoins accounts)
    (paysFees : PaysFees feeAccountIdx accounts feeAccount firstUtxo) {remaining : Amount}
    {count spent : Nat} {all : List SweepTransaction}
    (worth : sourceValue accounts all (purseCoin firstUtxo.outpoint count) = some rest.sat)
    (left : firstUtxo.txout.value.sat = rest.sat + spent) (unspent : count = 0 → spent = 0)
    (balance : feeAccount.value = remaining.sat +
      (spent + (estimateFee fees feeAccount.utxos.length 1 feeRate).sat)) :
    inputTotal accounts all
        (finalTransaction feeAccount.outpoints count feeAccountIdx remaining) =
      some (outputTotal (finalTransaction feeAccount.outpoints count feeAccountIdx remaining) +
        txFee fees feeRate
          (finalTransaction feeAccount.outpoints count feeAccountIdx remaining)) := by
  have listed := (first_listed paysFees).1
  rcases List.head?_eq_some_iff.mp paysFees.2 with ⟨others, split⟩
  have coinValue : ∀ utxo ∈ feeAccount.utxos,
      sourceValue accounts all utxo.outpoint = some utxo.txout.value.sat :=
    fun utxo member => source_value_of_coin coins listed member
  have value : feeAccount.value =
      firstUtxo.txout.value.sat + (others.map (·.txout.value.sat)).sum := by
    rw [AccountUtxoSet.value, split, List.map_cons, List.sum_cons]
  have outputs : outputTotal
      (finalTransaction feeAccount.outpoints count feeAccountIdx remaining) = remaining.sat := rfl
  rw [final_tx_fee paysFees.2, outputs]
  by_cases start : count = 0
  · have resolved : (finalTransaction feeAccount.outpoints count feeAccountIdx
        remaining).sourceUtxos.map (sourceValue accounts all) =
        (feeAccount.utxos.map (·.txout.value.sat)).map some := by
      simp only [finalTransaction, start, if_true, AccountUtxoSet.outpoints, List.map_map]
      exact List.map_congr_left coinValue
    rw [input_total_eq resolved]
    have none := unspent start
    have sum : (feeAccount.utxos.map (·.txout.value.sat)).sum = feeAccount.value := rfl
    rw [sum]
    congr 1
    omega
  · have resolved : (finalTransaction feeAccount.outpoints count feeAccountIdx
        remaining).sourceUtxos.map (sourceValue accounts all) =
        (others.map (·.txout.value.sat) ++ [rest.sat]).map some := by
      rw [@final_sources _ _ firstUtxo.outpoint, if_neg start, List.map_append, List.map_singleton,
        worth, List.map_append, List.map_singleton]
      congr 1
      simp only [AccountUtxoSet.outpoints, split, List.map_cons, List.tail_cons, List.map_map]
      apply List.map_congr_left
      intro utxo member
      exact coinValue utxo (by rw [split]; exact List.mem_cons_of_mem _ member)
    rw [input_total_eq resolved, List.sum_append, List.sum_singleton]
    congr 1
    omega

theorem chain_or_last {last : SweepTransaction} (found : (txs ++ [last])[index]? = some tx) :
    (index < txs.length ∧ txs[index]? = some tx) ∨ (index = txs.length ∧ tx = last) := by
  by_cases early : index < txs.length
  · rw [List.getElem?_append_left early] at found
    exact .inl ⟨early, found⟩
  · rw [List.getElem?_append_right (by omega)] at found
    have place : index - txs.length = 0 := by
      have bound := (List.getElem?_eq_some_iff.mp found).1
      simp only [List.length_singleton] at bound
      omega
    rw [place, List.getElem?_cons_zero, Option.some.injEq] at found
    exact .inr ⟨by omega, found.symm⟩

theorem final_linked (coins : ExistingCoins accounts) (listed : feeAccount ∈ accounts)
    {remaining : Amount} {count : Nat} (few : count < 2 ^ 32) :
    (finalTransaction feeAccount.outpoints count feeAccountIdx remaining).sourceUtxos.filterMap
      precedingTx = if count = 0 then [] else [count - 1] := by
  have none : ∀ outpoint ∈ feeAccount.outpoints, precedingTx outpoint = none :=
    fun outpoint member => preceding_tx_of_coin coins listed member
  rw [finalTransaction]
  by_cases start : count = 0
  · simp only [start, if_true]
    exact List.filterMap_eq_nil_iff.mpr none
  · have tail := List.filterMap_eq_nil_iff.mpr fun outpoint member =>
      none outpoint (List.mem_of_mem_tail member)
    simp only [start, if_false, List.filterMap_append, tail, List.nil_append,
      List.filterMap_cons, preceding_tx_synthetic (show count - 1 < 2 ^ 32 by omega),
      List.filterMap_nil]

/-- Everyone who is not the fee account is paid in full, once. -/
theorem plan_pays_customers (distinct : (accounts.map (·.accountIdx)).Nodup)
    {remaining : Amount} {count : Nat}
    (relay : Relay (ServesGroup fees first feeAccountIdx feeRate) index purse
      (planGroups feeAccountIdx smallAccountThreshold accounts) txs rest)
    {set : AccountUtxoSet} (customer : set ∈ nonFeeSets feeAccountIdx accounts) :
    ∃ amount : Amount, amount.sat = set.value ∧
      ((txs ++ [finalTransaction feeAccount.outpoints count feeAccountIdx remaining]).flatMap
        (·.outputs)).filter (isCustomerOf set.accountIdx) =
          [.customer set.accountIdx set.destinationAddress amount] ∧
      ∃ tx ∈ txs, .customer set.accountIdx set.destinationAddress amount ∈ tx.outputs ∧
        ∀ utxo ∈ set.utxos, utxo.outpoint ∈ tx.sourceUtxos := by
  have grouped := (@plan_groups_perm feeAccountIdx smallAccountThreshold accounts)
  have flat := grouped.mem_iff.mpr customer
  have once : ((planGroups feeAccountIdx smallAccountThreshold accounts).flatten.map
      (·.accountIdx)).Nodup := by
    rw [(grouped.map _).nodup_iff]
    exact distinct.sublist ((List.filter_sublist.trans List.filter_sublist).map _)
  have full : List.Forall₂ PaidInFull
      (planGroups feeAccountIdx smallAccountThreshold accounts).flatten
      (((txs ++ [finalTransaction feeAccount.outpoints count feeAccountIdx remaining]).flatMap
        (·.outputs)).filter fun output => !isFeeChange output) := by
    rw [List.flatMap_append, List.filter_append]
    simpa [finalTransaction, isFeeChange] using paid_of_relay relay
  rcases List.mem_flatten.mp flat with ⟨group, member, among⟩
  rcases relay.of_job member with ⟨_, _, tx, _, done, served⟩
  have sources := sources_of_serves served
  rcases served with ⟨-, paid, all, shape⟩
  rcases Traversal.partner_of_mem all among with ⟨_, output, amount, value, rfl⟩
  refine ⟨amount, value.symm, paid_once full once flat value.symm, tx, done, ?_, ?_⟩
  · rw [shape]
    exact List.mem_append_left _ output
  · intro utxo owned
    rw [sources]
    exact List.mem_append_left _ (List.mem_flatMap.mpr ⟨set, among, List.mem_map_of_mem owned⟩)

theorem coins_spent (coins : ExistingCoins accounts)
    (spent : (coinSources txs).Perm (accounts.flatMap AccountUtxoSet.outpoints)) :
    (∀ set ∈ accounts, ∀ utxo ∈ set.utxos,
      (txs.flatMap (·.sourceUtxos)).count utxo.outpoint = 1) ∧
    ∀ tx ∈ txs, ∀ source ∈ tx.sourceUtxos, precedingTx source = none →
      ∃ set ∈ accounts, ∃ utxo ∈ set.utxos, utxo.outpoint = source := by
  constructor
  · intro set member utxo among
    have coin : utxo.outpoint ∈ set.outpoints := List.mem_map_of_mem among
    have real := preceding_tx_of_coin coins member coin
    have nodup : (accounts.flatMap AccountUtxoSet.outpoints).Nodup := by
      have flat := coins.distinct
      rwa [List.map_flatMap] at flat
    have once := List.count_eq_one_of_mem nodup (List.mem_flatMap.mpr ⟨set, member, coin⟩)
    rw [← spent.count_eq, coinSources, List.count_filter (by simpa using real)] at once
    exact once
  · intro tx member source among real
    have listed : source ∈ coinSources txs :=
      List.mem_filter.mpr ⟨List.mem_flatMap.mpr ⟨tx, member, among⟩, decide_eq_true real⟩
    rcases List.mem_flatMap.mp (spent.mem_iff.mp listed) with ⟨set, owner, coin⟩
    rcases List.mem_map.mp coin with ⟨utxo, owned, same⟩
    exact ⟨set, owner, utxo, owned, same⟩

theorem plan_conserves (coins : ExistingCoins accounts)
    (paysFees : PaysFees feeAccountIdx accounts feeAccount firstUtxo) {remaining : Amount}
    (few : txs.length < 2 ^ 32)
    (relay : Relay (ServesGroup fees firstUtxo.outpoint feeAccountIdx feeRate) 0
      firstUtxo.txout.value (planGroups feeAccountIdx smallAccountThreshold accounts) txs rest)
    (left : feeAccount.value = remaining.sat +
      (((planGroups feeAccountIdx smallAccountThreshold accounts).map
        fun group => (groupFee fees feeRate group).sat).sum +
        (estimateFee fees feeAccount.utxos.length 1 feeRate).sat)) :
    ∀ tx ∈ txs ++ [finalTransaction feeAccount.outpoints txs.length feeAccountIdx remaining],
      inputTotal accounts
        (txs ++ [finalTransaction feeAccount.outpoints txs.length feeAccountIdx remaining]) tx =
          some (outputTotal tx + txFee fees feeRate tx) := by
  rcases relay.tokens with ⟨held, start, final, handed⟩
  have spent := relay.spent Amount.sat (fun group => (groupFee fees feeRate group).sat)
    fun _ _ _ _ _ served => served.1
  intro tx member
  rcases List.mem_append.mp member with early | last
  · rcases List.mem_iff_getElem?.mp early with ⟨place, here⟩
    have bound := (List.getElem?_eq_some_iff.mp here).1
    rcases handed place tx here with ⟨job, among, served⟩
    rw [Nat.zero_add] at served
    exact serves_conserves coins (plan_groups_listed job among) served
      (purse_coin_worth coins paysFees few start handed (Nat.le_of_lt bound))
  · obtain rfl := List.mem_singleton.mp last
    have worth : sourceValue accounts (txs ++ [finalTransaction feeAccount.outpoints txs.length
        feeAccountIdx remaining]) (purseCoin firstUtxo.outpoint txs.length) =
          some (held txs.length).sat :=
      purse_coin_worth coins paysFees few start handed (Nat.le_refl _)
    rw [final] at worth
    apply final_conserves coins paysFees worth spent _ left
    intro none
    have empty : planGroups feeAccountIdx smallAccountThreshold accounts = [] :=
      List.length_eq_zero_iff.mp (relay.length_eq ▸ none)
    rw [empty]
    rfl

/-- Every accepted batched plan is a linear chain. -/
theorem batched_plan_is_linear_chain {old new : NetworkType} {plan : MigrationPlan}
    (distinct : (accounts.map (·.accountIdx)).Nodup) (coins : ExistingCoins accounts)
    (accepted : planBatchedSweep fees feeAccountIdx smallAccountThreshold accounts old new
      feeRate = .ok plan)
    (few : plan.sweepTransactions.length < 2 ^ 32) :
    LinearChain fees feeRate feeAccountIdx accounts plan := by
  rcases plan_batched_eq_ok.mp accepted with
    ⟨-, feeAccount, firstUtxo, paysFees, -, txs, rest, remaining, relay, sum, left, all, -⟩
  rcases relay.tokens with ⟨held, -, -, handed⟩
  have listed := first_listed paysFees
  have firstExists := preceding_tx_of_coin coins listed.1 (List.mem_map_of_mem listed.2)
  have short : txs.length < 2 ^ 32 := by
    rw [all, List.length_append, List.length_singleton] at few
    omega
  have coinsSpent := @plan_coins_perm _ _ _ _ _ _ _ _ _ _ distinct coins paysFees remaining short
    relay
  rw [← all] at coinsSpent
  constructor
  · exact (coins_spent coins coinsSpent).1
  · exact (coins_spent coins coinsSpent).2
  · intro index tx found
    rw [all] at found
    rcases chain_or_last found with ⟨early, here⟩ | ⟨rfl, rfl⟩
    · rcases handed index tx here with ⟨job, member, served⟩
      rw [Nat.zero_add] at served
      exact serves_linked coins (plan_groups_listed job member) firstExists (by omega) served
    · exact final_linked coins listed.1 short
  · intro set member funded customer
    have nonFee : set ∈ nonFeeSets feeAccountIdx accounts :=
      List.mem_filter.mpr ⟨mem_funded_sets.mpr ⟨member, funded⟩, decide_eq_true customer⟩
    rcases plan_pays_customers distinct relay nonFee with
      ⟨amount, value, once, tx, among, output, sources⟩
    rw [all]
    exact ⟨amount, value, once, tx, List.mem_append_left _ among, output, sources⟩
  · intro index tx found
    rw [all] at found
    rw [all, List.length_append, List.length_singleton]
    rcases chain_or_last found with ⟨early, here⟩ | ⟨rfl, rfl⟩
    · rcases handed index tx here with ⟨job, member, served⟩
      refine ⟨⟨_, (fee_change_of_serves served).1⟩, ?_⟩
      rcases served with ⟨-, paid, full, rfl⟩
      simp only [Bool.false_eq_true, false_iff]
      omega
    · exact ⟨⟨remaining, rfl⟩, by simp [finalTransaction]⟩
  · rw [all]
    apply plan_conserves coins paysFees short relay
    rw [left, sum]
    rfl
  · have chain := relay.map_eq (txFee fees feeRate) (fun group => (groupFee fees feeRate group).sat)
      fun _ _ _ _ _ served => tx_fee_of_serves served
    rw [all, List.map_append, List.sum_append, chain, List.map_singleton, List.sum_singleton,
      final_tx_fee paysFees.2, sum]
    rfl

open MigrationSafety (testUtxo testAddress bundleThreshold testnet testRate)

/-- A fee account with two coins, one large customer and two small ones. -/
def mixedAccounts : List AccountUtxoSet :=
  [⟨0, [testUtxo 1 (.fromSat 500000), testUtxo 2 (.fromSat 500)], testAddress⟩,
    ⟨1, [testUtxo 3 (.fromSat 100000)], testAddress⟩,
    ⟨2, [testUtxo 4 (.fromSat 20000)], testAddress⟩,
    ⟨3, [testUtxo 5 (.fromSat 1000), testUtxo 6 (.fromSat 2000)], testAddress⟩]

def testOutpoint (byte : Fin 256) : OutPoint := (testUtxo byte Amount.zero).outpoint

def mixedPlan : MigrationPlan where
  sweepTransactions := [{
      sourceUtxos := [testOutpoint 3, testOutpoint 1]
      outputs := [.customer 1 testAddress (.fromSat 100000), .feeChange 0 (.fromSat 499432)]
      isFeeFinal := false
      psbt := none }, {
      sourceUtxos := [testOutpoint 4, testOutpoint 5, testOutpoint 6, syntheticChangeOutpoint 0]
      outputs := [.customer 2 testAddress (.fromSat 20000),
        .customer 3 testAddress (.fromSat 3000), .feeChange 0 (.fromSat 498380)]
      isFeeFinal := false
      psbt := none }, {
      sourceUtxos := [testOutpoint 2, syntheticChangeOutpoint 1]
      outputs := [.feeChange 0 (.fromSat 498376)]
      isFeeFinal := true
      psbt := none }]
  totalFees := .fromSat 2124
  utxoCount := 8

theorem mixed_plan_is_linear_chain : LinearChain .checked testRate 0 mixedAccounts mixedPlan := by
  have accepted : planBatchedSweep .checked 0 bundleThreshold mixedAccounts testnet testnet
      testRate = .ok mixedPlan := rfl
  exact batched_plan_is_linear_chain (by decide) ⟨by decide, by decide⟩ accepted (by decide)

end EmvaultCore.SweepChain
