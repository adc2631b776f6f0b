import EmvaultCore.Library.Coins
import EmvaultCore.SweepChain

/-!
# Broadcasting a batched plan

The transactions of a plan are broadcast one after the other, and the next one
may wait for days or never come. A broadcast takes the coins that a transaction
names from the old federation: the change of the fee account goes back to it until
the final transaction, all else goes to the new federation. Wherever the migration
stops, no customer is moved in part.
-/

namespace EmvaultCore.SweepBroadcast

open Migration SweepChain Library

structure Progress where
  /-- What the old federation holds, the change of the chain under its synthetic name. -/
  coins : List (OutPoint × Nat)
  /-- What the new federation has been paid. -/
  arrived : List SweepOutput
  fees : Nat

/-- The fee change of an intermediate transaction stays in the old federation. -/
def staying (tx : SweepTransaction) : List SweepOutput :=
  if tx.isFeeFinal then [] else tx.outputs.filter isFeeChange

def leaving (tx : SweepTransaction) : List SweepOutput :=
  if tx.isFeeFinal then tx.outputs else tx.outputs.filter fun output => !isFeeChange output

/-- A transaction is refused when one of its sources is not there, or is named
twice, and when it pays more than its sources are worth. -/
def broadcast (index : Nat) (progress : Progress) (tx : SweepTransaction) : Option Progress :=
  (Coins.take tx.sourceUtxos progress.coins).bind fun taken =>
    if outputTotal tx ≤ taken.1 then
      some {
        coins := (staying tx).map (fun change =>
          (syntheticChangeOutpoint index, change.amount.sat)) ++ taken.2
        arrived := progress.arrived ++ leaving tx
        fees := progress.fees + (taken.1 - outputTotal tx) }
    else none

/-- The transactions in execution order, the first of them number `index`. -/
def broadcastFrom : Nat → Progress → List SweepTransaction → Option Progress
  | _, progress, [] => some progress
  | index, progress, tx :: txs =>
      (broadcast index progress tx).bind fun next => broadcastFrom (index + 1) next txs

def coinsOf (set : AccountUtxoSet) : List (OutPoint × Nat) :=
  set.utxos.map fun utxo => (utxo.outpoint, utxo.txout.value.sat)

def notStarted (accounts : List AccountUtxoSet) : Progress where
  coins := accounts.flatMap coinsOf
  arrived := []
  fees := 0

def Progress.total (progress : Progress) : Nat :=
  Coins.worth progress.coins + (progress.arrived.map (·.amount.sat)).sum + progress.fees

structure Waiting (progress : Progress) (set : AccountUtxoSet) : Prop where
  there : coinsOf set ⊆ progress.coins
  nothing : progress.arrived.filter (isCustomerOf set.accountIdx) = []

/-- The customer's coins are gone, and all they were worth has arrived, in one output. -/
structure Moved (progress : Progress) (set : AccountUtxoSet) : Prop where
  gone : ∀ utxo ∈ set.utxos, utxo.outpoint ∉ progress.coins.map Prod.fst
  paid : ∃ amount : Amount, amount.sat = set.value ∧
    progress.arrived.filter (isCustomerOf set.accountIdx) =
      [.customer set.accountIdx set.destinationAddress amount]

variable {fees : FeeArithmetic} {feeRate : FeeRate} {feeAccountIdx : UInt32}
  {smallAccountThreshold : Amount} {accounts moved waiting group : List AccountUtxoSet}
  {feeAccount : AccountUtxoSet} {firstUtxo : LocalOutput} {first : OutPoint} {index : Nat}
  {purse change rest : Amount} {tx : SweepTransaction} {jobs : List (List AccountUtxoSet)}
  {txs : List SweepTransaction} {progress next : Progress} {others : List (OutPoint × Nat)}

theorem broadcast_of_take {value : Nat} {left : List (OutPoint × Nat)}
    (taken : Coins.take tx.sourceUtxos progress.coins = some (value, left))
    (pays : outputTotal tx ≤ value) :
    broadcast index progress tx = some {
      coins := (staying tx).map (fun change =>
        (syntheticChangeOutpoint index, change.amount.sat)) ++ left
      arrived := progress.arrived ++ leaving tx
      fees := progress.fees + (value - outputTotal tx) } := by
  rw [broadcast, taken, Option.bind_some, if_pos pays]

/-! ### Nothing is lost -/

theorem staying_and_leaving (tx : SweepTransaction) :
    ((staying tx).map (·.amount.sat)).sum + ((leaving tx).map (·.amount.sat)).sum =
      outputTotal tx := by
  have parts := (List.filter_append_perm isFeeChange tx.outputs).map (·.amount.sat)
  rw [staying, leaving, outputTotal]
  by_cases final : tx.isFeeFinal = true
  · simp [final]
  · rw [if_neg final, if_neg final, ← parts.sum_eq, List.map_append, List.sum_append]

theorem broadcast_keeps_total (sent : broadcast index progress tx = some next) :
    next.total = progress.total := by
  rw [broadcast, Option.bind_eq_some_iff] at sent
  obtain ⟨⟨value, left⟩, taken, made⟩ := sent
  by_cases pays : outputTotal tx ≤ value
  · rw [if_pos pays] at made
    obtain rfl := Option.some.inj made
    have split := Coins.worth_of_take taken
    have outputs := staying_and_leaving tx
    have change : Coins.worth ((staying tx).map fun change =>
        (syntheticChangeOutpoint index, change.amount.sat)) =
          ((staying tx).map (·.amount.sat)).sum := by
      rw [Coins.worth, List.map_map]
      rfl
    simp only [Progress.total, Coins.worth_append, change, List.map_append, List.sum_append]
    omega
  · rw [if_neg pays] at made
    cases made

theorem broadcast_from_keeps_total (sent : broadcastFrom index progress txs = some next) :
    next.total = progress.total := by
  induction txs generalizing index progress with
  | nil => rw [Option.some.inj sent]
  | cons tx txs ih =>
      obtain ⟨middle, one, later⟩ := Option.bind_eq_some_iff.mp sent
      rw [ih later, broadcast_keeps_total one]

theorem broadcast_from_append {more : List SweepTransaction}
    (sent : broadcastFrom index progress txs = some next) :
    broadcastFrom index progress (txs ++ more) =
      broadcastFrom (index + txs.length) next more := by
  induction txs generalizing index progress with
  | nil => rw [← Option.some.inj sent]; rfl
  | cons tx txs ih =>
      obtain ⟨middle, one, later⟩ := Option.bind_eq_some_iff.mp sent
      rw [List.cons_append, broadcastFrom, one, Option.bind_some, ih later, List.length_cons,
        Nat.add_right_comm, Nat.add_assoc]

/-! ### One transaction of the chain -/

theorem coin_names (set : AccountUtxoSet) : (coinsOf set).map Prod.fst = set.outpoints := by
  rw [coinsOf, List.map_map]
  rfl

theorem coin_names_of (sets : List AccountUtxoSet) :
    (sets.flatMap coinsOf).map Prod.fst = sets.flatMap AccountUtxoSet.outpoints := by
  rw [List.map_flatMap]
  exact List.flatMap_congr fun set _ => coin_names set

theorem worth_of_set (set : AccountUtxoSet) : Coins.worth (coinsOf set) = set.value := by
  rw [Coins.worth, coinsOf, List.map_map]
  rfl

theorem worth_of_coins (sets : List AccountUtxoSet) :
    Coins.worth (sets.flatMap coinsOf) = (sets.map AccountUtxoSet.value).sum := by
  induction sets with
  | nil => rfl
  | cons set sets ih =>
      rw [List.flatMap_cons, Coins.worth_append, ih, worth_of_set, List.map_cons, List.sum_cons]

def otherFeeCoins (feeAccount : AccountUtxoSet) : List (OutPoint × Nat) :=
  feeAccount.utxos.tail.map fun utxo => (utxo.outpoint, utxo.txout.value.sat)

theorem fee_account_coins (head : feeAccount.utxos.head? = some firstUtxo) :
    coinsOf feeAccount =
      (firstUtxo.outpoint, firstUtxo.txout.value.sat) :: otherFeeCoins feeAccount := by
  obtain ⟨others, split⟩ := List.head?_eq_some_iff.mp head
  rw [coinsOf, otherFeeCoins, split]
  rfl

theorem other_fee_coin_names :
    (otherFeeCoins feeAccount).map Prod.fst = feeAccount.outpoints.tail := by
  rw [otherFeeCoins, AccountUtxoSet.outpoints, List.map_map, ← List.map_tail]
  rfl

theorem fee_account_outpoints (head : feeAccount.utxos.head? = some firstUtxo) :
    feeAccount.outpoints = firstUtxo.outpoint :: feeAccount.outpoints.tail := by
  rw [← other_fee_coin_names, ← coin_names, fee_account_coins head]
  rfl

/-- A transaction of the chain takes the coins of its group and the purse, and it
leaves the next purse. -/
theorem serves_broadcasts
    (served : ServesGroup fees first feeAccountIdx feeRate index purse group tx change)
    (held : progress.coins.Perm
      (group.flatMap coinsOf ++ (purseCoin first index, purse.sat) :: others))
    (distinct : (progress.coins.map Prod.fst).Nodup) :
    ∃ next paid, broadcast index progress tx = some next ∧
      next.coins.Perm ((purseCoin first (index + 1), change.sat) :: others) ∧
      List.Forall₂ PaidInFull group paid ∧ next.arrived = progress.arrived ++ paid ∧
      next.fees = progress.fees + txFee fees feeRate tx := by
  have total := output_total_of_serves served
  have fee := tx_fee_of_serves served
  obtain ⟨spent, paid, full, rfl⟩ := served
  have regrouped : progress.coins.Perm
      ((group.flatMap coinsOf ++ [(purseCoin first index, purse.sat)]) ++ others) := by
    rw [List.append_assoc]
    exact held
  obtain ⟨left, taken, kept⟩ := Coins.take_of_perm regrouped distinct
  rw [List.map_append, coin_names_of, Coins.worth_append, worth_of_coins] at taken
  have purseWorth : Coins.worth [(purseCoin first index, purse.sat)] = purse.sat := by
    simp [Coins.worth]
  rw [purseWorth] at taken
  have customers : ∀ output ∈ paid, isFeeChange output = false := paid_not_fee_change full
  have stays : paid.filter isFeeChange = [] := by
    rw [List.filter_eq_nil_iff]
    intro output member
    rw [customers output member]
    exact Bool.false_ne_true
  have leaves : (paid.filter fun output => !isFeeChange output) = paid := by
    rw [List.filter_eq_self]
    intro output member
    rw [customers output member]
    rfl
  refine ⟨_, paid, broadcast_of_take taken (by omega), ?_, full, ?_, ?_⟩
  · simp only [staying, Bool.false_eq_true, if_false, List.filter_append, stays]
    exact kept.cons _
  · simp only [leaving, Bool.false_eq_true, if_false, List.filter_append, leaves]
    exact congrArg _ (List.append_nil paid)
  · dsimp only
    omega

/-! ### The chain -/

/-- Coins that stand for no change, and the purse beside them. -/
structure Named (purse : OutPoint) (coins : List (OutPoint × Nat)) : Prop where
  real : ∀ coin ∈ coins, precedingTx coin.1 = none
  distinct : (purse :: coins.map Prod.fst).Nodup

theorem named_next {coins fewer : List (OutPoint × Nat)} (few : index < 2 ^ 32)
    (named : Named (purseCoin first index) coins) (kept : fewer.Sublist coins) :
    Named (purseCoin first (index + 1)) fewer := by
  have real : ∀ coin ∈ fewer, precedingTx coin.1 = none :=
    fun coin member => named.real coin (kept.subset member)
  refine ⟨real, List.nodup_cons.mpr ⟨?_, ?_⟩⟩
  · intro member
    obtain ⟨coin, among, same⟩ := List.mem_map.mp member
    have none := real coin among
    rw [same, purseCoin, if_neg (Nat.succ_ne_zero index), Nat.add_sub_cancel,
      preceding_tx_synthetic few] at none
    cases none
  · exact (List.nodup_cons.mp named.distinct).2.sublist (kept.map Prod.fst)

theorem relay_broadcasts
    (relay : Relay (ServesGroup fees first feeAccountIdx feeRate) index purse jobs txs rest)
    (held : progress.coins.Perm
      ((purseCoin first index, purse.sat) :: (jobs.flatten.flatMap coinsOf ++ others)))
    (named : Named (purseCoin first index) (jobs.flatten.flatMap coinsOf ++ others))
    (few : index + txs.length ≤ 2 ^ 32) :
    ∃ next paid, broadcastFrom index progress txs = some next ∧
      next.coins.Perm ((purseCoin first (index + txs.length), rest.sat) :: others) ∧
      List.Forall₂ PaidInFull jobs.flatten paid ∧ next.arrived = progress.arrived ++ paid ∧
      next.fees = progress.fees + (txs.map (txFee fees feeRate)).sum := by
  induction relay generalizing progress with
  | nil => exact ⟨progress, [], rfl, held, .nil, (List.append_nil _).symm, rfl⟩
  | @cons index purse change rest group tx jobs txs served relay ih =>
      rw [List.flatten_cons, List.flatMap_append, List.append_assoc] at held named
      rw [List.length_cons] at few
      have distinct : (progress.coins.map Prod.fst).Nodup :=
        (held.map Prod.fst).nodup_iff.mpr named.distinct
      obtain ⟨middle, now, sent, left, full, arrived, paid⟩ :=
        serves_broadcasts served (held.trans List.perm_middle.symm) distinct
      have behind : Named (purseCoin first (index + 1)) (jobs.flatten.flatMap coinsOf ++ others) :=
        named_next (by omega) named (List.sublist_append_right _ _)
      obtain ⟨next, later, done, last, fullLater, arrivedLater, paidLater⟩ :=
        ih left behind (by omega)
      refine ⟨next, now ++ later, ?_, ?_, ?_, ?_, ?_⟩
      · rw [broadcastFrom, sent, Option.bind_some, done]
      · rw [List.length_cons, Nat.add_comm txs.length, ← Nat.add_assoc]
        exact last
      · rw [List.flatten_cons]
        exact List.rel_append full fullLater
      · rw [arrivedLater, arrived, List.append_assoc]
      · rw [paidLater, paid, List.map_cons, List.sum_cons, Nat.add_assoc]

theorem final_broadcasts (head : feeAccount.utxos.head? = some firstUtxo) {remaining : Amount}
    {count : Nat}
    (held : progress.coins.Perm
      ((purseCoin firstUtxo.outpoint count, rest.sat) :: otherFeeCoins feeAccount))
    (distinct : (progress.coins.map Prod.fst).Nodup)
    (balance : feeAccount.value + rest.sat = firstUtxo.txout.value.sat + (remaining.sat +
      (estimateFee fees feeAccount.utxos.length 1 feeRate).sat)) :
    ∃ next, broadcast count progress
        (finalTransaction feeAccount.outpoints count feeAccountIdx remaining) = some next ∧
      next.coins = [] ∧ next.arrived = progress.arrived ++ [.feeChange feeAccountIdx remaining] ∧
      next.fees = progress.fees + txFee fees feeRate
        (finalTransaction feeAccount.outpoints count feeAccountIdx remaining) := by
  have sources : ∃ spent : List (OutPoint × Nat), spent.map Prod.fst =
      (finalTransaction feeAccount.outpoints count feeAccountIdx remaining).sourceUtxos ∧
      spent.Perm ((purseCoin firstUtxo.outpoint count, rest.sat) :: otherFeeCoins feeAccount) := by
    rw [@final_sources _ _ firstUtxo.outpoint]
    by_cases start : count = 0
    · refine ⟨_, ?_, .refl _⟩
      rw [if_pos start, fee_account_outpoints head, List.map_cons, other_fee_coin_names, purseCoin,
        if_pos start]
    · refine ⟨_, ?_, List.perm_append_singleton _ _⟩
      rw [if_neg start, List.map_append, other_fee_coin_names]
      rfl
  obtain ⟨spent, named, same⟩ := sources
  have whole : progress.coins.Perm (spent ++ []) := by
    rw [List.append_nil]
    exact held.trans same.symm
  obtain ⟨left, taken, empty⟩ := Coins.take_of_perm whole distinct
  have value : Coins.worth spent = remaining.sat +
      (estimateFee fees feeAccount.utxos.length 1 feeRate).sat := by
    have all := worth_of_set feeAccount
    rw [fee_account_coins head, Coins.worth_cons] at all
    rw [Coins.worth_perm same, Coins.worth_cons]
    omega
  have outputs : outputTotal
      (finalTransaction feeAccount.outpoints count feeAccountIdx remaining) = remaining.sat := rfl
  rw [named, value] at taken
  refine ⟨_, broadcast_of_take taken (by omega), ?_, rfl, ?_⟩
  · exact List.append_eq_nil_iff.mpr ⟨rfl, List.perm_nil.mp empty⟩
  · rw [final_tx_fee head, outputs]
    dsimp only
    omega

/-! ### Customers -/

/-- The customers that a migration is past, and those that it has not come to. -/
structure Stage (moved waiting : List AccountUtxoSet) (progress : Progress) : Prop where
  full : List.Forall₂ PaidInFull moved
    (progress.arrived.filter fun output => !isFeeChange output)
  there : waiting.flatMap coinsOf ⊆ progress.coins
  gone : ∀ coin ∈ moved.flatMap coinsOf, coin.1 ∉ progress.coins.map Prod.fst

theorem stage_waiting (stage : Stage moved waiting progress)
    (distinct : ((moved ++ waiting).map (·.accountIdx)).Nodup) {set : AccountUtxoSet}
    (member : set ∈ waiting) : Waiting progress set := by
  constructor
  · intro coin among
    exact stage.there (List.mem_flatMap.mpr ⟨set, member, among⟩)
  · have customers : progress.arrived.filter (isCustomerOf set.accountIdx) =
        (progress.arrived.filter fun output => !isFeeChange output).filter
          fun output => output.accountIdx = set.accountIdx := by
      rw [List.filter_filter]
      exact List.filter_congr fun output _ => is_customer_of_eq set.accountIdx output
    rw [customers, List.filter_eq_nil_iff]
    intro output arrived same
    have among : output.accountIdx ∈ moved.map (·.accountIdx) := by
      rw [← paid_account_idx stage.full]
      exact List.mem_map_of_mem arrived
    rw [List.map_append, List.nodup_append] at distinct
    exact distinct.2.2 _ among _ (List.mem_map_of_mem member) (of_decide_eq_true same)

theorem stage_moved (stage : Stage moved waiting progress)
    (distinct : ((moved ++ waiting).map (·.accountIdx)).Nodup) {set : AccountUtxoSet}
    (member : set ∈ moved) : Moved progress set := by
  constructor
  · intro utxo owned
    exact stage.gone _ (List.mem_flatMap.mpr ⟨set, member, List.mem_map_of_mem owned⟩)
  · obtain ⟨output, -, amount, value, -⟩ := Traversal.partner_of_mem stage.full member
    rw [List.map_append] at distinct
    exact ⟨amount, value.symm,
      paid_once stage.full (List.nodup_append.mp distinct).1 member value.symm⟩

/-! ### Interrupted migrations -/

theorem named_at {coins : List (OutPoint × Nat)} (named : Named (purseCoin first 0) coins)
    {count : Nat} (few : count ≤ 2 ^ 32) : Named (purseCoin first count) coins := by
  induction count with
  | zero => exact named
  | succ count ih => exact named_next few (ih (Nat.le_of_succ_le few)) (List.Sublist.refl _)

theorem funded_coins : (fundedSets accounts).flatMap coinsOf = accounts.flatMap coinsOf := by
  induction accounts with
  | nil => rfl
  | cons set accounts ih =>
      by_cases empty : set.utxos = []
      · have none : coinsOf set = [] := by rw [coinsOf, empty, List.map_nil]
        rw [List.flatMap_cons, none, List.nil_append, ← ih]
        simp [fundedSets, empty]
      · rw [List.flatMap_cons, ← ih]
        simp [fundedSets, empty]

/-- A migration starts with the first coin of the fee account for a purse. -/
theorem start_perm (distinct : (accounts.map (·.accountIdx)).Nodup)
    (paysFees : PaysFees feeAccountIdx accounts feeAccount firstUtxo) :
    (notStarted accounts).coins.Perm ((firstUtxo.outpoint, firstUtxo.txout.value.sat) ::
      ((planGroups feeAccountIdx smallAccountThreshold accounts).flatten.flatMap coinsOf ++
        otherFeeCoins feeAccount)) := by
  have sets := (@customers_and_fee_perm feeAccountIdx accounts).flatMap_right coinsOf
  rw [one_fee_set distinct paysFees.1, List.flatMap_append, List.flatMap_singleton, funded_coins,
    fee_account_coins paysFees.2] at sets
  have groups := (@plan_groups_perm feeAccountIdx smallAccountThreshold accounts).flatMap_right
    coinsOf
  exact (sets.symm.trans (groups.symm.append_right _)).trans List.perm_middle

theorem start_named (distinct : (accounts.map (·.accountIdx)).Nodup)
    (coins : ExistingCoins accounts)
    (paysFees : PaysFees feeAccountIdx accounts feeAccount firstUtxo) :
    Named (purseCoin firstUtxo.outpoint 0)
      ((planGroups feeAccountIdx smallAccountThreshold accounts).flatten.flatMap coinsOf ++
        otherFeeCoins feeAccount) := by
  have perm := @start_perm feeAccountIdx smallAccountThreshold _ _ _ distinct paysFees
  constructor
  · intro coin member
    have among : coin ∈ accounts.flatMap coinsOf :=
      perm.mem_iff.mpr (List.mem_cons_of_mem _ member)
    obtain ⟨set, listed, owned⟩ := List.mem_flatMap.mp among
    have name := List.mem_map_of_mem (f := Prod.fst) owned
    rw [coin_names] at name
    exact preceding_tx_of_coin coins listed name
  · have names : ((notStarted accounts).coins.map Prod.fst).Nodup := by
      rw [notStarted, coin_names_of]
      have all := coins.distinct
      rw [List.map_flatMap] at all
      exact all
    exact (perm.map Prod.fst).nodup_iff.mp names

theorem chain_stage (distinct : (accounts.map (·.accountIdx)).Nodup)
    (coins : ExistingCoins accounts)
    (paysFees : PaysFees feeAccountIdx accounts feeAccount firstUtxo)
    (relay : Relay (ServesGroup fees firstUtxo.outpoint feeAccountIdx feeRate) 0
      firstUtxo.txout.value (planGroups feeAccountIdx smallAccountThreshold accounts) txs rest)
    {count : Nat} (within : count ≤ txs.length) (few : txs.length < 2 ^ 32) :
    ∃ next middle, broadcastFrom 0 (notStarted accounts) (txs.take count) = some next ∧
      Relay (ServesGroup fees firstUtxo.outpoint feeAccountIdx feeRate) 0 firstUtxo.txout.value
        ((planGroups feeAccountIdx smallAccountThreshold accounts).take count) (txs.take count)
          middle ∧
      next.coins.Perm ((purseCoin firstUtxo.outpoint count, middle.sat) ::
        (((planGroups feeAccountIdx smallAccountThreshold accounts).drop count).flatten.flatMap
          coinsOf ++ otherFeeCoins feeAccount)) ∧
      (next.coins.map Prod.fst).Nodup ∧
      Stage ((planGroups feeAccountIdx smallAccountThreshold accounts).take count).flatten
        ((planGroups feeAccountIdx smallAccountThreshold accounts).drop count).flatten next ∧
      next.fees = ((txs.take count).map (txFee fees feeRate)).sum := by
  have held := @start_perm feeAccountIdx smallAccountThreshold _ _ _ distinct paysFees
  have named := @start_named feeAccountIdx smallAccountThreshold _ _ _ distinct coins paysFees
  have cut := List.take_append_drop count (planGroups feeAccountIdx smallAccountThreshold accounts)
  rw [← cut, List.flatten_append, List.flatMap_append, List.append_assoc] at held named
  obtain ⟨middle, part⟩ := relay.first_jobs count
  have length : (txs.take count).length = count := List.length_take_of_le within
  obtain ⟨next, paid, sent, left, full, arrived, fee⟩ :=
    relay_broadcasts part held named (by omega)
  rw [length, Nat.zero_add] at left
  have arrivals : next.arrived = paid := arrived
  have now := (named_at named (show count ≤ 2 ^ 32 by omega)).distinct
  rw [List.map_append, List.nodup_cons] at now
  have customers : (next.arrived.filter fun output => !isFeeChange output) = paid := by
    rw [arrivals, List.filter_eq_self]
    intro output member
    rw [paid_not_fee_change full output member]
    rfl
  refine ⟨next, middle, sent, part, left, ?_, ⟨?_, ?_, ?_⟩, ?_⟩
  · rw [(left.map Prod.fst).nodup_iff, List.map_cons, List.nodup_cons]
    exact ⟨fun among => now.1 (List.mem_append_right _ among), now.2.of_append_right⟩
  · rw [customers]
    exact full
  · intro coin member
    exact left.mem_iff.mpr (List.mem_cons_of_mem _ (List.mem_append_left _ member))
  · intro coin member present
    have name := List.mem_map_of_mem (f := Prod.fst) member
    rw [(left.map Prod.fst).mem_iff, List.map_cons, List.mem_cons] at present
    cases present with
    | inl purse =>
        rw [purse] at name
        exact now.1 (List.mem_append_left _ name)
    | inr later => exact List.disjoint_of_nodup_append now.2 name later
  · rw [fee]
    exact Nat.zero_add _

theorem final_stage (distinct : (accounts.map (·.accountIdx)).Nodup)
    (coins : ExistingCoins accounts)
    (paysFees : PaysFees feeAccountIdx accounts feeAccount firstUtxo)
    (relay : Relay (ServesGroup fees firstUtxo.outpoint feeAccountIdx feeRate) 0
      firstUtxo.txout.value (planGroups feeAccountIdx smallAccountThreshold accounts) txs rest)
    (few : txs.length < 2 ^ 32) {remaining : Amount}
    (balance : feeAccount.value = remaining.sat +
      (((planGroups feeAccountIdx smallAccountThreshold accounts).map
        fun group => (groupFee fees feeRate group).sat).sum +
        (estimateFee fees feeAccount.utxos.length 1 feeRate).sat)) :
    ∃ next, broadcastFrom 0 (notStarted accounts)
        (txs ++ [finalTransaction feeAccount.outpoints txs.length feeAccountIdx remaining]) =
          some next ∧
      next.coins = [] ∧
      Stage (planGroups feeAccountIdx smallAccountThreshold accounts).flatten [] next ∧
      next.fees = ((txs ++ [finalTransaction feeAccount.outpoints txs.length feeAccountIdx
        remaining]).map (txFee fees feeRate)).sum := by
  obtain ⟨chained, middle, sent, part, left, names, stage, fee⟩ :=
    chain_stage distinct coins paysFees relay (Nat.le_refl _) few
  have all : (planGroups feeAccountIdx smallAccountThreshold accounts).take txs.length =
      planGroups feeAccountIdx smallAccountThreshold accounts := by
    rw [relay.length_eq, List.take_length]
  have none : (planGroups feeAccountIdx smallAccountThreshold accounts).drop txs.length = [] := by
    rw [relay.length_eq, List.drop_length]
  rw [List.take_length] at sent part fee
  rw [all] at part stage
  rw [none] at left stage
  have spent := part.spent Amount.sat (fun group => (groupFee fees feeRate group).sat)
    fun _ _ _ _ _ served => served.1
  obtain ⟨next, last, empty, arrived, paid⟩ := @final_broadcasts fees feeRate feeAccountIdx
    feeAccount firstUtxo middle chained paysFees.2 remaining txs.length left names (by omega)
  refine ⟨next, ?_, empty, ⟨?_, ?_, ?_⟩, ?_⟩
  · rw [broadcast_from_append sent, broadcastFrom, Nat.zero_add, last]
    rfl
  · rw [arrived, List.filter_append]
    exact (List.append_nil (chained.arrived.filter _)).symm ▸ stage.full
  · simp
  · simp [empty]
  · rw [paid, fee, List.map_append, List.sum_append, List.map_singleton, List.sum_singleton]

/-- However many transactions of a plan have been broadcast, none was refused, each
customer has not been touched or has been paid in full, and what is not in either
federation went into the estimated fees; at the end nothing is left behind. -/
theorem interrupted_migration_is_whole {old new : NetworkType} {plan : MigrationPlan}
    (distinct : (accounts.map (·.accountIdx)).Nodup) (coins : ExistingCoins accounts)
    (accepted : planBatchedSweep fees feeAccountIdx smallAccountThreshold accounts old new
      feeRate = .ok plan)
    (few : plan.sweepTransactions.length < 2 ^ 32) {count : Nat}
    (within : count ≤ plan.sweepTransactions.length) :
    ∃ progress, broadcastFrom 0 (notStarted accounts) (plan.sweepTransactions.take count) =
        some progress ∧
      (∀ set ∈ accounts, set.utxos ≠ [] → set.accountIdx ≠ feeAccountIdx →
        Waiting progress set ∨ Moved progress set) ∧
      progress.total = (accounts.map AccountUtxoSet.value).sum ∧
      progress.fees = ((plan.sweepTransactions.take count).map (txFee fees feeRate)).sum ∧
      (count = plan.sweepTransactions.length → progress.coins = []) := by
  obtain ⟨-, feeAccount, firstUtxo, paysFees, -, txs, rest, remaining, relay, sum, left, all, -⟩ :=
    plan_batched_eq_ok.mp accepted
  have length : plan.sweepTransactions.length = txs.length + 1 := by
    rw [all, List.length_append, List.length_singleton]
  have total : (notStarted accounts).total = (accounts.map AccountUtxoSet.value).sum := by
    rw [← worth_of_coins]
    rfl
  have grouped := @plan_groups_perm feeAccountIdx smallAccountThreshold accounts
  have indices : ((planGroups feeAccountIdx smallAccountThreshold accounts).flatten.map
      (·.accountIdx)).Nodup := by
    rw [(grouped.map _).nodup_iff]
    exact distinct.sublist ((List.filter_sublist.trans List.filter_sublist).map _)
  have customer : ∀ set ∈ accounts, set.utxos ≠ [] → set.accountIdx ≠ feeAccountIdx →
      set ∈ (planGroups feeAccountIdx smallAccountThreshold accounts).flatten := by
    intro set member funded other
    rw [grouped.mem_iff]
    exact List.mem_filter.mpr ⟨mem_funded_sets.mpr ⟨member, funded⟩, decide_eq_true other⟩
  rw [all]
  by_cases chain : count ≤ txs.length
  · obtain ⟨next, middle, sent, -, -, -, stage, fee⟩ :=
      chain_stage distinct coins paysFees relay chain (by omega)
    rw [List.take_append_of_le_length chain]
    have cut := List.take_append_drop count
      (planGroups feeAccountIdx smallAccountThreshold accounts)
    refine ⟨next, sent, ?_, (broadcast_from_keeps_total sent).trans total, fee, ?_⟩
    · intro set member funded other
      have listed := customer set member funded other
      rw [← cut, List.flatten_append] at listed indices
      cases List.mem_append.mp listed with
      | inl early => exact .inr (stage_moved stage indices early)
      | inr late => exact .inl (stage_waiting stage indices late)
    · intro finished
      rw [← all] at finished
      omega
  · have finished : count = txs.length + 1 := by omega
    obtain ⟨next, sent, empty, stage, fee⟩ := @final_stage fees feeRate feeAccountIdx
      smallAccountThreshold accounts feeAccount firstUtxo rest txs distinct coins paysFees relay
      (by omega) remaining (by rw [left, sum]; rfl)
    have whole : (txs ++ [finalTransaction feeAccount.outpoints txs.length feeAccountIdx
        remaining]).take count = txs ++ [finalTransaction feeAccount.outpoints txs.length
          feeAccountIdx remaining] := by
      apply List.take_of_length_le
      rw [List.length_append, List.length_singleton, finished]
    rw [whole]
    refine ⟨next, sent, ?_, (broadcast_from_keeps_total sent).trans total, fee, fun _ => empty⟩
    intro set member funded other
    rw [← List.append_nil (planGroups feeAccountIdx smallAccountThreshold accounts).flatten]
      at indices
    exact .inr (stage_moved stage indices (customer set member funded other))

open MigrationSafety (bundleThreshold testnet testRate)

/-- The large customer has been moved, the two small ones are still to come. -/
theorem mixed_migration_interrupted :
    ∃ progress, broadcastFrom 0 (notStarted mixedAccounts)
        (mixedPlan.sweepTransactions.take 1) = some progress ∧
      (∀ set ∈ mixedAccounts, set.utxos ≠ [] → set.accountIdx ≠ 0 →
        Waiting progress set ∨ Moved progress set) ∧
      progress.total = (mixedAccounts.map AccountUtxoSet.value).sum ∧
      progress.fees = ((mixedPlan.sweepTransactions.take 1).map (txFee .checked testRate)).sum ∧
      (1 = mixedPlan.sweepTransactions.length → progress.coins = []) := by
  have accepted : planBatchedSweep .checked 0 bundleThreshold mixedAccounts testnet testnet
      testRate = .ok mixedPlan := rfl
  exact interrupted_migration_is_whole (by decide) ⟨by decide, by decide⟩ accepted (by decide)
    (by decide)

end EmvaultCore.SweepBroadcast
