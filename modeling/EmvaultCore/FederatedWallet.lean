import EmvaultCore.FederationMutation
import EmvaultCore.Library.Runs
import EmvaultCore.Library.Traversal
import EmvaultCore.Migration

/-!
# The stack of federation versions

A federated wallet pairs each version of a federation with a wallet of its own,
oldest first, and is only ever replaced by one with a version more. Its accessors
find a version by its position, its results name a version by the index stored
with it, so that the two agree is what everything here rests on.
-/

namespace EmvaultCore

open Library.Runs Library.Traversal

/-- A federation and its wallet. The position in the stack counts from the oldest. -/
structure FederationWallet (Wallet : Type) where
  federation : Federation
  wallet : Wallet
  index : Nat

structure BtcFederatedWallet (Wallet : Type) where
  federationWallets : List (FederationWallet Wallet)
  network : NetworkType

/-- What the stack asks a `bdk_wallet::Wallet`: `balance().total()` and
`list_unspent()`. -/
structure WalletOps (Wallet Utxo : Type) where
  total : Wallet → Amount
  listUnspent : Wallet → List Utxo

/-- `SweepAlgorithm::plan`: the outputs, the old and the new network, the fee rate. -/
abbrev SweepPlan (Utxo Plan : Type) :=
  List Utxo → NetworkType → NetworkType → FeeRate → Outcome MigrationError Plan

namespace BtcFederatedWallet

variable {Wallet Utxo Plan : Type}

def new (federation : Federation) (wallet : Wallet) :
    Except FederatedWalletError (BtcFederatedWallet Wallet) :=
  if federation.network.isBitcoin = false then .error .nonBitcoinNetwork
  else .ok {
    network := federation.network
    federationWallets := [{ federation, wallet, index := 0 }] }

def withFederation (stack : BtcFederatedWallet Wallet) (federation : Federation)
    (wallet : Wallet) : Except FederatedWalletError (BtcFederatedWallet Wallet) :=
  if federation.network.isBitcoin = false then .error .nonBitcoinNetwork
  else if federation.network ≠ stack.network then
    .error (.networkMismatch stack.network federation.network)
  else
    let newIndex := stack.federationWallets.length
    .ok {
      federationWallets := stack.federationWallets ++ [{ federation, wallet, index := newIndex }]
      network := stack.network }

def federationCount (stack : BtcFederatedWallet Wallet) : Nat := stack.federationWallets.length

section Accessors

variable (ops : WalletOps Wallet Utxo) (stack : BtcFederatedWallet Wallet)

/-- The sum panics where it leaves the range of an amount. -/
def totalBalance {Error : Type} : Outcome Error Amount :=
  (stack.federationWallets.map fun entry => ops.total entry.wallet).foldlM Amount.add .zero

def balanceAt (index : Nat) : Option Amount :=
  (stack.federationWallets[index]?).map fun entry => ops.total entry.wallet

def allUtxos : List (Nat × Utxo) :=
  stack.federationWallets.flatMap fun entry =>
    (ops.listUnspent entry.wallet).map fun utxo => (entry.index, utxo)

def utxosAt (index : Nat) : Option (List Utxo) :=
  (stack.federationWallets[index]?).map fun entry => ops.listUnspent entry.wallet

end Accessors

section Planning

variable (ops : WalletOps Wallet Utxo) (sweep : SweepPlan Utxo Plan) (feeRate : FeeRate)

def planEach (current : FederationWallet Wallet) :
    List (Nat × Plan) → List (FederationWallet Wallet) →
      Outcome MigrationError (List (Nat × Plan))
  | plans, [] => .ok plans
  | plans, entry :: entries =>
      if entry.index = current.index then planEach current plans entries
      else
        let utxos := ops.listUnspent entry.wallet
        if utxos.isEmpty then planEach current plans entries
        else do
          let plan ← sweep utxos entry.federation.network current.federation.network feeRate
          planEach current (plans ++ [(entry.index, plan)]) entries

def planMigrations (stack : BtcFederatedWallet Wallet) :
    Outcome MigrationError (List (Nat × Plan)) :=
  match stack.federationWallets.getLast? with
  | none => .error (.panic "BtcFederatedWallet always has at least one federation")
  | some current => planEach ops sweep feeRate current [] stack.federationWallets

end Planning

structure Stacked (stack : BtcFederatedWallet Wallet) : Prop where
  nonempty : stack.federationWallets ≠ []
  indexed : ∀ (index : Nat) (entry : FederationWallet Wallet),
    stack.federationWallets[index]? = some entry → entry.index = index
  network : ∀ entry ∈ stack.federationWallets, entry.federation.network = stack.network
  isBitcoin : stack.network.isBitcoin = true

/-- A `with_federation` call; the caller keeps the old stack when it fails. -/
def attempt (stack : BtcFederatedWallet Wallet) (call : Federation × Wallet) :
    BtcFederatedWallet Wallet :=
  match stack.withFederation call.1 call.2 with
  | .ok next => next
  | .error _ => stack

variable {ops : WalletOps Wallet Utxo} {sweep : SweepPlan Utxo Plan} {feeRate : FeeRate}
  {stack start next : BtcFederatedWallet Wallet} {federation : Federation} {wallet : Wallet}

theorem new_eq_ok :
    new federation wallet = .ok stack ↔ federation.network.isBitcoin = true ∧
      stack = {
        network := federation.network
        federationWallets := [{ federation, wallet, index := 0 }] } := by
  unfold new
  cases federation.network.isBitcoin with
  | false => simp
  | true => simp [eq_comm]

theorem with_federation_eq_ok :
    stack.withFederation federation wallet = .ok next ↔
      federation.network.isBitcoin = true ∧ federation.network = stack.network ∧
        next = {
          federationWallets := stack.federationWallets ++
            [{ federation, wallet, index := stack.federationWallets.length }]
          network := stack.network } := by
  unfold withFederation
  cases federation.network.isBitcoin with
  | false => simp
  | true => by_cases same : federation.network = stack.network <;> simp [same, eq_comm]

theorem stacked_new (created : new federation wallet = .ok stack) : Stacked stack := by
  obtain ⟨isBitcoin, rfl⟩ := new_eq_ok.mp created
  constructor
  · exact List.cons_ne_nil _ _
  · intro index entry given
    cases index with
    | zero => exact (Option.some.inj given) ▸ rfl
    | succ index => cases given
  · intro entry member
    rw [List.mem_singleton.mp member]
  · exact isBitcoin

theorem stacked_with_federation (stacked : Stacked stack)
    (added : stack.withFederation federation wallet = .ok next) : Stacked next := by
  obtain ⟨isBitcoin, same, rfl⟩ := with_federation_eq_ok.mp added
  constructor
  · exact List.append_ne_nil_of_right_ne_nil _ (List.cons_ne_nil _ _)
  · intro index entry given
    rw [List.getElem?_append] at given
    split at given
    next earlier => exact stacked.indexed index entry given
    next later =>
      cases offset : index - stack.federationWallets.length with
      | zero =>
          rw [offset] at given
          cases given
          show stack.federationWallets.length = index
          omega
      | succ beyond =>
          rw [offset] at given
          cases given
  · intro entry member
    cases List.mem_append.mp member with
    | inl earlier => exact stacked.network entry earlier
    | inr new => rw [List.mem_singleton.mp new, same]
  · exact stacked.isBitcoin

theorem stacked_attempt (call : Federation × Wallet) (stacked : Stacked stack) :
    Stacked (stack.attempt call) := by
  unfold attempt
  cases added : stack.withFederation call.1 call.2 with
  | error cause => exact stacked
  | ok next => exact stacked_with_federation stacked added

theorem stacked_at (created : new federation wallet = .ok start)
    (calls : List (Federation × Wallet)) (moment : Nat) :
    Stacked (stateAt attempt start calls moment) :=
  run_preserved (fun _ call => stacked_attempt call) (stacked_new created) _

theorem Stacked.get_index (stacked : Stacked stack) {entry : FederationWallet Wallet}
    (member : entry ∈ stack.federationWallets) :
    stack.federationWallets[entry.index]? = some entry := by
  obtain ⟨index, given⟩ := List.mem_iff_getElem?.mp member
  rw [stacked.indexed index entry given, given]

theorem Stacked.indices (stacked : Stacked stack) :
    stack.federationWallets.map FederationWallet.index = List.range stack.federationCount := by
  apply List.ext_getElem?
  intro index
  rw [List.getElem?_map]
  cases given : stack.federationWallets[index]? with
  | none =>
      have outside := List.getElem?_eq_none_iff.mp given
      rw [Option.map_none, eq_comm, List.getElem?_eq_none_iff, List.length_range]
      exact outside
  | some entry =>
      have inside := (List.getElem?_eq_some_iff.mp given).1
      rw [Option.map_some, stacked.indexed index entry given, federationCount,
        List.getElem?_range inside]

/-! ### Balances and outputs -/

def balances (ops : WalletOps Wallet Utxo) (stack : BtcFederatedWallet Wallet) : List Amount :=
  stack.federationWallets.map fun entry => ops.total entry.wallet

theorem balance_at_eq (index : Nat) : stack.balanceAt ops index = (stack.balances ops)[index]? := by
  rw [balanceAt, balances, List.getElem?_map]

theorem total_balance_eq_ok {Error : Type} {total : Amount} :
    (stack.totalBalance ops : Outcome Error Amount) = .ok total ↔
      total.sat = ((stack.balances ops).map Amount.sat).sum := by
  rw [totalBalance, Amount.fold_add_eq_ok, Amount.zero_sat, Nat.zero_add, balances, eq_comm]

theorem tagged_utxos {entries : List (FederationWallet Wallet)} {index : Nat}
    (distinct : (entries.map FederationWallet.index).Nodup) :
    ((entries.flatMap fun entry => (ops.listUnspent entry.wallet).map fun utxo =>
        (entry.index, utxo)).filter (·.1 = index)).map Prod.snd =
      ((entries.find? (·.index = index)).map fun entry => ops.listUnspent entry.wallet).getD [] := by
  induction entries with
  | nil => rfl
  | cons entry entries ih =>
      rw [List.map_cons, List.nodup_cons] at distinct
      rw [List.flatMap_cons, List.filter_append, List.map_append, ih distinct.2]
      by_cases here : entry.index = index
      · have noLater : entries.find? (·.index = index) = none := by
          rw [List.find?_eq_none]
          intro other member same
          have sameIndex : other.index = entry.index := by simpa [here] using same
          exact distinct.1 (sameIndex ▸ List.mem_map_of_mem member)
        simp [here, noLater, List.filter_map, Function.comp_def]
      · simp [here, List.filter_map, Function.comp_def]

theorem Stacked.find_index (stacked : Stacked stack) (index : Nat) :
    stack.federationWallets.find? (·.index = index) = stack.federationWallets[index]? := by
  cases given : stack.federationWallets[index]? with
  | none =>
      rw [List.find?_eq_none]
      intro entry member same
      have found := stacked.get_index member
      rw [of_decide_eq_true same, given] at found
      cases found
  | some entry =>
      have listed : entry ∈ stack.federationWallets := List.mem_of_getElem? given
      cases found : stack.federationWallets.find? (·.index = index) with
      | none =>
          have missed := List.find?_eq_none.mp found entry listed
          exact absurd (decide_eq_true (stacked.indexed index entry given)) missed
      | some other =>
          have sameIndex : other.index = index := by simpa using List.find?_some found
          have again := stacked.get_index (List.mem_of_find?_eq_some found)
          rw [sameIndex, given] at again
          exact again.symm

theorem Stacked.utxos_tagged (stacked : Stacked stack) (index : Nat) :
    ((stack.allUtxos ops).filter (·.1 = index)).map Prod.snd =
      (stack.utxosAt ops index).getD [] := by
  have distinct : (stack.federationWallets.map FederationWallet.index).Nodup := by
    rw [stacked.indices]
    exact List.nodup_range
  rw [allUtxos, tagged_utxos distinct, stacked.find_index, utxosAt]

/-! ### Migration planning -/

/-- The versions to migrate: all but the current one that hold an output. -/
def due (ops : WalletOps Wallet Utxo) (stack : BtcFederatedWallet Wallet) : List Nat :=
  (List.range (stack.federationCount - 1)).filter fun index =>
    (stack.utxosAt ops index).any fun utxos => !utxos.isEmpty

def planAt (ops : WalletOps Wallet Utxo) (sweep : SweepPlan Utxo Plan) (feeRate : FeeRate)
    (stack : BtcFederatedWallet Wallet) (index : Nat) : Outcome MigrationError (Nat × Plan) := do
  let plan ← sweep ((stack.utxosAt ops index).getD []) stack.network stack.network feeRate
  return (index, plan)

theorem plan_each_eq {current : FederationWallet Wallet} (stacked : Stacked stack)
    (isCurrent : current ∈ stack.federationWallets) {entries : List (FederationWallet Wallet)}
    (within : ∀ entry ∈ entries, entry ∈ stack.federationWallets) (plans : List (Nat × Plan)) :
    planEach ops sweep feeRate current plans entries =
      (((entries.map FederationWallet.index).filter fun index => index ≠ current.index &&
        (stack.utxosAt ops index).any fun utxos => !utxos.isEmpty).mapM
          (stack.planAt ops sweep feeRate)).map (plans ++ ·) := by
  induction entries generalizing plans with
  | nil => simp [planEach, pure, Except.pure, Except.map]
  | cons entry entries ih =>
      have listed := within entry List.mem_cons_self
      have later := fun plans => ih (fun other member => within other (List.mem_cons_of_mem _ member))
        plans
      have unspent : stack.utxosAt ops entry.index = some (ops.listUnspent entry.wallet) := by
        rw [utxosAt, stacked.get_index listed]
        rfl
      rw [planEach, List.map_cons, List.filter_cons]
      by_cases newest : entry.index = current.index
      · simp [newest, later]
      · cases empty : (ops.listUnspent entry.wallet).isEmpty with
        | true => simp [newest, unspent, empty, later]
        | false =>
            have planned : stack.planAt ops sweep feeRate entry.index =
                (sweep (ops.listUnspent entry.wallet) entry.federation.network
                  current.federation.network feeRate).map fun plan => (entry.index, plan) := by
              rw [planAt, unspent, stacked.network entry listed, stacked.network current isCurrent]
              rfl
            have kept : (decide (entry.index ≠ current.index) &&
                (stack.utxosAt ops entry.index).any fun utxos => !utxos.isEmpty) = true := by
              simp [newest, unspent, empty]
            rw [if_neg newest, if_pos kept, List.mapM_cons, planned]
            simp only [empty, Bool.false_eq_true, if_false]
            cases sweep (ops.listUnspent entry.wallet) entry.federation.network
                current.federation.network feeRate with
            | error cause => rfl
            | ok plan =>
                rw [ok_bind, later]
                simp only [Except.map, ok_bind]
                cases List.mapM (stack.planAt ops sweep feeRate) _ <;>
                  simp [bind, Except.bind, pure, Except.pure]

theorem Stacked.current_index (stacked : Stacked stack) {current : FederationWallet Wallet}
    (newest : stack.federationWallets.getLast? = some current) :
    current.index + 1 = stack.federationCount := by
  rw [List.getLast?_eq_getElem?] at newest
  have inside := (List.getElem?_eq_some_iff.mp newest).1
  rw [stacked.indexed _ _ newest, federationCount]
  omega

theorem Stacked.plan_migrations_eq (stacked : Stacked stack) :
    stack.planMigrations ops sweep feeRate =
      (stack.due ops).mapM (stack.planAt ops sweep feeRate) := by
  unfold planMigrations
  cases newest : stack.federationWallets.getLast? with
  | none => exact absurd (List.getLast?_eq_none_iff.mp newest) stacked.nonempty
  | some current =>
      have listed : current ∈ stack.federationWallets := List.mem_of_getLast? newest
      have last := stacked.current_index newest
      simp only
      have older : (List.range current.index).filter (fun index => index ≠ current.index &&
          (stack.utxosAt ops index).any fun utxos => !utxos.isEmpty) = stack.due ops := by
        rw [due, ← last, Nat.add_sub_cancel]
        apply List.filter_congr
        intro index inside
        have before := List.mem_range.mp inside
        simp [Nat.ne_of_lt before]
      have excluded : [current.index].filter (fun index => index ≠ current.index &&
          (stack.utxosAt ops index).any fun utxos => !utxos.isEmpty) = [] := by
        simp
      rw [plan_each_eq stacked listed (fun _ member => member), stacked.indices, ← last,
        List.range_succ, List.filter_append, older, excluded, List.append_nil]
      cases (stack.due ops).mapM (stack.planAt ops sweep feeRate) <;> simp [Except.map]

/-- Either a plan for each version that is due, in the order of the indices, or
the error of the first such version that the algorithm rejects. -/
def PlansOrRejects (ops : WalletOps Wallet Utxo) (sweep : SweepPlan Utxo Plan)
    (feeRate : FeeRate) (stack : BtcFederatedWallet Wallet) : Prop :=
  let answer := fun index =>
    sweep ((stack.utxosAt ops index).getD []) stack.network stack.network feeRate
  (∃ plans, stack.planMigrations ops sweep feeRate = .ok plans ∧
      plans.map Prod.fst = stack.due ops ∧ ∀ entry ∈ plans, answer entry.1 = .ok entry.2) ∨
    ∃ cause, stack.planMigrations ops sweep feeRate = .error cause ∧
      FailsFirst answer (stack.due ops) cause

theorem plan_at_eq_ok {index : Nat} {entry : Nat × Plan} :
    stack.planAt ops sweep feeRate index = .ok entry ↔ entry.1 = index ∧
      sweep ((stack.utxosAt ops index).getD []) stack.network stack.network feeRate =
        .ok entry.2 := by
  obtain ⟨tag, plan⟩ := entry
  rw [planAt, bind_eq_ok]
  simp only [pure, Except.pure, Except.ok.injEq, Prod.mk.injEq]
  constructor
  · intro planned
    obtain ⟨other, answer, rfl, rfl⟩ := planned
    exact ⟨rfl, answer⟩
  · intro planned
    exact ⟨plan, planned.2, planned.1.symm, rfl⟩

theorem plan_at_eq_error {index : Nat} {cause : Stop MigrationError} :
    stack.planAt ops sweep feeRate index = .error cause ↔
      sweep ((stack.utxosAt ops index).getD []) stack.network stack.network feeRate =
        .error cause := by
  rw [planAt]
  cases sweep ((stack.utxosAt ops index).getD []) stack.network stack.network feeRate <;>
    simp [bind, Except.bind, pure, Except.pure]

theorem planned_entries {indices : List Nat} {plans : List (Nat × Plan)}
    (each : List.Forall₂ (fun index entry => stack.planAt ops sweep feeRate index = .ok entry)
      indices plans) :
    plans.map Prod.fst = indices ∧ ∀ entry ∈ plans,
      sweep ((stack.utxosAt ops entry.1).getD []) stack.network stack.network feeRate =
        .ok entry.2 := by
  induction each with
  | nil => exact ⟨rfl, by simp⟩
  | cons planned rest ih =>
      obtain ⟨tag, answer⟩ := plan_at_eq_ok.mp planned
      rw [List.map_cons, tag, ih.1, List.forall_mem_cons, tag]
      exact ⟨rfl, answer, ih.2⟩

theorem Stacked.plans_or_rejects (stacked : Stacked stack) :
    stack.PlansOrRejects ops sweep feeRate := by
  rw [PlansOrRejects, stacked.plan_migrations_eq]
  cases map_m_cases (stack.planAt ops sweep feeRate) (stack.due ops) with
  | inl planned =>
      obtain ⟨plans, answer, each⟩ := planned
      exact .inl ⟨plans, answer, planned_entries each⟩
  | inr failed =>
      obtain ⟨cause, answer, before, index, after, shape, passed, rejected⟩ := failed
      refine .inr ⟨cause, answer, before, index, after, shape, ?_, plan_at_eq_error.mp rejected⟩
      intro earlier member
      obtain ⟨entry, planned⟩ := passed earlier member
      exact ⟨entry.2, (plan_at_eq_ok.mp planned).2⟩

/-- The accessors and the planning of a stack agree with its positions, and adding
to it only appends. -/
structure Consistent (Plan : Type) (ops : WalletOps Wallet Utxo)
    (stack : BtcFederatedWallet Wallet) : Prop where
  stacked : Stacked stack
  appends : ∀ federation wallet next, stack.withFederation federation wallet = .ok next →
    next.network = stack.network ∧ next.federationWallets = stack.federationWallets ++
      [{ federation, wallet, index := stack.federationCount }]
  tagged : ∀ index, ((stack.allUtxos ops).filter (·.1 = index)).map Prod.snd =
    (stack.utxosAt ops index).getD []
  -- a sum outside the range of an amount is no amount, and the addition panics
  totalled : ∃ balances : List Amount,
    (∀ index : Nat, stack.balanceAt ops index = balances[index]?) ∧
      ∀ total, (stack.totalBalance ops : Outcome Empty Amount) = .ok total ↔
        total.sat = (balances.map Amount.sat).sum
  planned : ∀ (sweep : SweepPlan Utxo Plan) (feeRate : FeeRate),
    stack.PlansOrRejects ops sweep feeRate

/-- Every stack that a run of `with_federation` calls leads to, failing ones
included, is consistent. -/
theorem reachable_stack_consistent (created : new federation wallet = .ok start)
    (calls : List (Federation × Wallet)) (moment : Nat) (ops : WalletOps Wallet Utxo) :
    Consistent Plan ops (stateAt attempt start calls moment) := by
  have stacked := stacked_at created calls moment
  constructor
  · exact stacked
  · intro federation wallet next added
    obtain ⟨-, -, rfl⟩ := with_federation_eq_ok.mp added
    exact ⟨rfl, rfl⟩
  · exact stacked.utxos_tagged
  · exact ⟨_, fun index => balance_at_eq index, fun total => total_balance_eq_ok⟩
  · exact fun sweep feeRate => stacked.plans_or_rejects

end BtcFederatedWallet

namespace MockSigner

def unspentOps : WalletOps (List LocalOutput) LocalOutput where
  total utxos :=
    match (utxos.foldlM (fun sum utxo => Amount.add sum utxo.txout.value) .zero :
      Outcome Empty Amount) with
    | .ok total => total
    | .error _ => .zero
  listUnspent utxos := utxos

def deposit (txid : Txid) (sat : UInt64) : LocalOutput where
  outpoint := ⟨txid, 0⟩
  txout := ⟨.fromSat sat, []⟩

/-- The test federation and then its successor, with a call for an Elements
federation that fails in between. -/
theorem three_calls_consistent :
    BtcFederatedWallet.Consistent (List LocalOutput) unspentOps
      (stateAt BtcFederatedWallet.attempt
        { network := .bitcoin .testnet
          federationWallets := [⟨federation .wsh, [deposit 1 70000, deposit 2 30000], 0⟩] }
        [({ federation .wsh with network := .elements .liquid }, []),
          (federation .tr, [deposit 3 5000])] 2) :=
  BtcFederatedWallet.reachable_stack_consistent
    (BtcFederatedWallet.new_eq_ok.mpr ⟨rfl, rfl⟩) _ 2 unspentOps

end MockSigner

end EmvaultCore
