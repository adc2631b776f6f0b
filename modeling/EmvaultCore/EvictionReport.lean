import EmvaultCore.CheckpointWallet
import EmvaultCore.Library.Runs

/-!
# Reported evictions

A successful sync reports the transactions that were confirmed before it and are
gone after it. What was confirmed is read from the wallet when a pass starts, so
over a run an eviction is reported by the last pass that finds the transaction
confirmed, unless that pass fails or keeps the transaction without its
confirmation. The wallet library only has to keep confirmed transactions when it
takes in the mempool or hands out a changeset.
-/

namespace EmvaultCore.EvictionReport

open ChainSync Library

section Reports

variable {Wallet ChangeSet Descriptor Block Tx : Type}
  {lib : WalletLibrary Wallet ChangeSet Descriptor Block Tx}

/-- Unconfirmed transactions take no confirmation away, and handing out the
staged changeset leaves the transactions as they are. -/
structure KeepsConfirmed (lib : WalletLibrary Wallet ChangeSet Descriptor Block Tx) : Prop where
  unconfirmed : ∀ wallet update txid, txid ∈ confirmedTxids lib wallet →
    txid ∈ confirmedTxids lib (lib.applyUnconfirmedTxs wallet update)
  staged : ∀ wallet, lib.transactions (lib.takeStaged wallet).2 = lib.transactions wallet

def afterSync (lib : WalletLibrary Wallet ChangeSet Descriptor Block Tx) (wallet : Wallet)
    (rpc : Rpc Block Tx) : Wallet :=
  (emitterSync lib rpc wallet).1

/-- The wallet when pass number `moment` starts. -/
def walletAt (lib : WalletLibrary Wallet ChangeSet Descriptor Block Tx) (start : Wallet)
    (passes : List (Rpc Block Tx)) (moment : Nat) : Wallet :=
  Runs.stateAt (afterSync lib) start passes moment

def SucceedsAt (lib : WalletLibrary Wallet ChangeSet Descriptor Block Tx) (start : Wallet)
    (passes : List (Rpc Block Tx)) (moment : Nat) (result : SyncResult ChangeSet) : Prop :=
  ∃ rpc, passes[moment]? = some rpc ∧
    (emitterSync lib rpc (walletAt lib start passes moment)).2 = .ok result

/-- A successful pass leaves the transaction confirmed, and a later one leaves it
out of the canonical transactions. -/
structure Evicted (lib : WalletLibrary Wallet ChangeSet Descriptor Block Tx) (start : Wallet)
    (passes : List (Rpc Block Tx)) (txid : Txid) (earlier later : Nat) : Prop where
  before : earlier < later
  synced : ∃ result, SucceedsAt lib start passes earlier result
  confirmed : txid ∈ confirmedTxids lib (walletAt lib start passes (earlier + 1))
  resynced : ∃ result, SucceedsAt lib start passes later result
  gone : txid ∉ canonicalTxids lib (walletAt lib start passes (later + 1))

def ReportsEvictions (lib : WalletLibrary Wallet ChangeSet Descriptor Block Tx) (start : Wallet)
    (passes : List (Rpc Block Tx)) : Prop :=
  ∀ txid earlier later, Evicted lib start passes txid earlier later →
    ∃ moment result, earlier < moment ∧ moment ≤ later ∧
      SucceedsAt lib start passes moment result ∧ txid ∈ result.evictedTxids

theorem canonical_of_confirmed {wallet : Wallet} {txid : Txid}
    (confirmed : txid ∈ confirmedTxids lib wallet) : txid ∈ canonicalTxids lib wallet := by
  rw [confirmedTxids, Std.ExtTreeSet.mem_ofList, List.contains_iff_mem] at confirmed
  rw [canonicalTxids, Std.ExtTreeSet.mem_ofList, List.contains_iff_mem]
  rcases List.mem_map.mp confirmed with ⟨entry, kept, same⟩
  exact List.mem_map.mpr ⟨entry, (List.mem_filter.mp kept).1, same⟩

theorem mem_evicted_of_rebuild (keeps : KeepsConfirmed lib) {rpc : Rpc Block Tx}
    {wallet rebuilt : Wallet} {before : TxidSet} {result : SyncResult ChangeSet} {txid : Txid}
    (ok : rebuildOnReorg lib rpc wallet before = .ok (rebuilt, result)) :
    txid ∈ result.evictedTxids ↔ txid ∈ before ∧ txid ∉ canonicalTxids lib rebuilt := by
  simp only [rebuildOnReorg, bind_eq_ok, map_error_eq_ok] at ok
  rcases ok with ⟨fresh, -, ⟨driven, total⟩, -, ⟨⟩, -, update, -, answer⟩
  obtain ⟨rfl, rfl⟩ := Prod.mk.inj (Except.ok.inj answer)
  have same : canonicalTxids lib (lib.takeStaged (lib.applyUnconfirmedTxs driven update)).2 =
      canonicalTxids lib (lib.applyUnconfirmedTxs driven update) := by
    simp only [canonicalTxids, keeps.staged]
  rw [same]
  simp only [List.mem_mergeSort, List.mem_filter, Std.ExtTreeSet.mem_toList, decide_eq_true_eq]

def Answers (lib : WalletLibrary Wallet ChangeSet Descriptor Block Tx) (rpc : Rpc Block Tx)
    (before : TxidSet) (answer : Wallet × Except ChainSyncError (SyncResult ChangeSet)) : Prop :=
  ∀ result, answer.2 = .ok result →
    (∃ driven, rebuildOnReorg lib rpc driven before = .ok (answer.1, result)) ∨
    ∃ driven update, (∀ txid ∈ before, txid ∈ confirmedTxids lib driven) ∧
      answer.1 = (lib.takeStaged (lib.applyUnconfirmedTxs driven update)).2 ∧
      result.evictedTxids = []

theorem sync_answers (rpc : Rpc Block Tx) (wallet : Wallet) :
    Answers lib rpc (confirmedTxids lib wallet) (emitterSync lib rpc wallet) := by
  intro result ok
  rcases sync_ok ok with ⟨driven, blocksSynced, update, forward⟩ | ⟨found, signal⟩
  · right
    rw [sync_forward forward] at ok ⊢
    obtain rfl := Except.ok.inj ok
    exact ⟨driven, update, forward.settled.confirmed, rfl, rfl⟩
  · left
    rw [sync_signal signal] at ok ⊢
    exact ⟨found, ok_of_replace ok⟩

theorem mem_evicted_iff (keeps : KeepsConfirmed lib) {rpc : Rpc Block Tx} {wallet : Wallet}
    {result : SyncResult ChangeSet} {txid : Txid}
    (ok : (emitterSync lib rpc wallet).2 = .ok result) :
    txid ∈ result.evictedTxids ↔ txid ∈ confirmedTxids lib wallet ∧
      txid ∉ canonicalTxids lib (afterSync lib wallet rpc) := by
  rcases sync_answers rpc wallet result ok with
    ⟨driven, rebuilt⟩ | ⟨driven, update, kept, after, none⟩
  · exact mem_evicted_of_rebuild keeps rebuilt
  · rw [none, afterSync, after, canonicalTxids, keeps.staged]
    constructor
    · exact fun listed => absurd listed List.not_mem_nil
    · rintro ⟨confirmed, gone⟩
      exact absurd (canonical_of_confirmed (keeps.unconfirmed driven update txid
        (kept txid confirmed))) gone

theorem strictly_sorted {txids : List Txid} (distinct : txids.Nodup) :
    (txids.mergeSort (· ≤ ·)).Pairwise (· < ·) := by
  have sorted : (txids.mergeSort (· ≤ ·)).Pairwise fun left right => decide (left ≤ right) := by
    apply List.pairwise_mergeSort
    · intro left middle right below above
      exact decide_eq_true (le_trans (of_decide_eq_true below) (of_decide_eq_true above))
    · intro left right
      simpa using le_total left right
  have apart : (txids.mergeSort (· ≤ ·)).Nodup := (List.mergeSort_perm _ _).nodup_iff.mpr distinct
  apply (sorted.and apart).imp
  intro left right placed
  exact lt_of_le_of_ne (of_decide_eq_true placed.1) placed.2

theorem rebuild_report_sorted {rpc : Rpc Block Tx} {wallet rebuilt : Wallet} {before : TxidSet}
    {result : SyncResult ChangeSet}
    (ok : rebuildOnReorg lib rpc wallet before = .ok (rebuilt, result)) :
    result.evictedTxids.Pairwise (· < ·) := by
  simp only [rebuildOnReorg, bind_eq_ok, map_error_eq_ok] at ok
  rcases ok with ⟨fresh, -, ⟨driven, total⟩, -, ⟨⟩, -, update, -, answer⟩
  obtain ⟨-, rfl⟩ := Prod.mk.inj (Except.ok.inj answer)
  apply strictly_sorted
  have listed : before.toList.Nodup := by
    apply Std.ExtTreeSet.distinct_toList.imp
    intro left right apart same
    exact apart (same ▸ Std.ReflCmp.compare_self)
  exact listed.filter _

/-- The report of a pass that succeeds is strictly sorted and lists exactly what
was confirmed when the pass began and is not canonical when it returns, whether
the pass went forward or one of the signs of a reorg made it rebuild. -/
theorem eviction_report_exact (keeps : KeepsConfirmed lib) {rpc : Rpc Block Tx} {wallet : Wallet}
    {result : SyncResult ChangeSet} (ok : (emitterSync lib rpc wallet).2 = .ok result) :
    result.evictedTxids.Pairwise (· < ·) ∧
      (∀ txid, txid ∈ result.evictedTxids ↔ txid ∈ confirmedTxids lib wallet ∧
        txid ∉ canonicalTxids lib (afterSync lib wallet rpc)) ∧
      (result.reorgRebuilt = false ∧ result.evictedTxids = [] ∧
          (∃ driven blocksSynced update, Forward lib rpc wallet driven blocksSynced update) ∨
        result.reorgRebuilt = true ∧ ∃ found, Signal lib rpc wallet found) := by
  have listed (txid : Txid) := @mem_evicted_iff _ _ _ _ _ lib keeps rpc wallet result txid ok
  rcases sync_ok ok with ⟨driven, blocksSynced, update, forward⟩ | ⟨found, signal⟩
  · rw [sync_forward forward] at ok
    obtain rfl := Except.ok.inj ok
    refine ⟨List.Pairwise.nil, listed, ?_⟩
    exact Or.inl ⟨rfl, rfl, driven, blocksSynced, update, forward⟩
  · rw [sync_signal signal] at ok
    have rebuilt := ok_of_replace ok
    obtain ⟨-, -, -, -, -, -, -, -, flagged⟩ := rebuild_ok rebuilt
    exact ⟨rebuild_report_sorted rebuilt, listed, Or.inr ⟨flagged, found, signal⟩⟩

/-- When a transaction confirmed by one successful sync is gone after a later one,
the last sync that finds it confirmed reports it, provided that this sync succeeds
and leaves the transaction out of the canonical ones. -/
theorem last_confirming_sync_reports (keeps : KeepsConfirmed lib) {start : Wallet}
    {passes : List (Rpc Block Tx)} {txid : Txid} {earlier later : Nat}
    (evicted : Evicted lib start passes txid earlier later) :
    ∃ moment, earlier < moment ∧ moment ≤ later ∧
      txid ∈ confirmedTxids lib (walletAt lib start passes moment) ∧
      (∀ after, moment < after → after ≤ later →
        txid ∉ confirmedTxids lib (walletAt lib start passes after)) ∧
      ∀ result, SucceedsAt lib start passes moment result →
        txid ∉ canonicalTxids lib (walletAt lib start passes (moment + 1)) →
          txid ∈ result.evictedTxids := by
  have lost : ¬ txid ∈ confirmedTxids lib (walletAt lib start passes (later + 1)) :=
    fun still => evicted.gone (canonical_of_confirmed still)
  rcases @Runs.last_held (fun moment => txid ∈ confirmedTxids lib (walletAt lib start passes moment))
    (earlier + 1) (later + 1) (Nat.succ_le_succ (Nat.le_of_lt evicted.before)) evicted.confirmed lost
    with ⟨moment, first, below, held, none⟩
  refine ⟨moment, first, Nat.le_of_lt_succ below, held, ?_, ?_⟩
  · exact fun after above bound => none after above (Nat.le_succ_of_le bound)
  · rintro result ⟨rpc, given, ok⟩ gone
    have next : walletAt lib start passes (moment + 1) =
        afterSync lib (walletAt lib start passes moment) rpc := Runs.state_at_succ given
    rw [next] at gone
    exact (mem_evicted_iff keeps ok).mpr ⟨held, gone⟩

end Reports

/-! ### The wallet of checkpoints -/

/-- The wallet of checkpoints keeps confirmed transactions, when what it floats
does not depend on what is staged. -/
theorem checkpoint_wallets_keep_confirmed {env : Environment}
    (floats : ∀ wallet : Wallet, env.floating wallet.takeStaged.2 = env.floating wallet) :
    KeepsConfirmed (checkpointWallets env) := by
  constructor
  · intro wallet update txid confirmed
    rcases mem_confirmed_txids.mp confirmed with ⟨entry, member, same, onChain⟩
    exact mem_confirmed_txids.mpr ⟨entry, member, same, onChain⟩
  · intro wallet
    change Wallet.transactions env wallet.takeStaged.2 = Wallet.transactions env wallet
    simp only [Wallet.transactions, floats]
    rfl

theorem fork_wallets_keep_confirmed : KeepsConfirmed (checkpointWallets forkEnvironment) :=
  checkpoint_wallets_keep_confirmed fun _ => rfl

def forkPasses (passes : List Pass) : List (Rpc BlockHash Txid) :=
  passes.map (Pass.rpc forkLedger)

def depositWallet : Wallet :=
  afterSync (checkpointWallets forkEnvironment) newWallet (Pass.rpc forkLedger (passAt 1 3 []))

theorem eviction_report_exact_fork :
    ∃ result, (emitterSync (checkpointWallets forkEnvironment)
        (Pass.rpc forkLedger (passAt 2 2 [])) depositWallet).2 = .ok result ∧
      result.evictedTxids.Pairwise (· < ·) ∧
      (∀ txid, txid ∈ result.evictedTxids ↔
        txid ∈ confirmedTxids (checkpointWallets forkEnvironment) depositWallet ∧
          txid ∉ canonicalTxids (checkpointWallets forkEnvironment)
            (afterSync (checkpointWallets forkEnvironment) depositWallet
              (Pass.rpc forkLedger (passAt 2 2 [])))) ∧
      (result.reorgRebuilt = false ∧ result.evictedTxids = [] ∧
          (∃ driven blocksSynced update, Forward (checkpointWallets forkEnvironment)
            (Pass.rpc forkLedger (passAt 2 2 [])) depositWallet driven blocksSynced update) ∨
        result.reorgRebuilt = true ∧ ∃ found, Signal (checkpointWallets forkEnvironment)
          (Pass.rpc forkLedger (passAt 2 2 [])) depositWallet found) :=
  ⟨_, rfl, eviction_report_exact fork_wallets_keep_confirmed rfl⟩

/-- The deposit is reorged out by the second pass, which reports it. -/
theorem dropped_deposit_reported :
    ∃ moment, 0 < moment ∧ moment ≤ 1 ∧
      9 ∈ confirmedTxids (checkpointWallets forkEnvironment)
        (walletAt (checkpointWallets forkEnvironment) newWallet
          (forkPasses [passAt 1 3 [], passAt 2 2 []]) moment) ∧
      (∀ after, moment < after → after ≤ 1 →
        9 ∉ confirmedTxids (checkpointWallets forkEnvironment)
          (walletAt (checkpointWallets forkEnvironment) newWallet
            (forkPasses [passAt 1 3 [], passAt 2 2 []]) after)) ∧
      ∀ result, SucceedsAt (checkpointWallets forkEnvironment) newWallet
          (forkPasses [passAt 1 3 [], passAt 2 2 []]) moment result →
        9 ∉ canonicalTxids (checkpointWallets forkEnvironment)
          (walletAt (checkpointWallets forkEnvironment) newWallet
            (forkPasses [passAt 1 3 [], passAt 2 2 []]) (moment + 1)) →
          9 ∈ result.evictedTxids := by
  apply last_confirming_sync_reports fork_wallets_keep_confirmed
  refine ⟨by decide, ⟨_, _, rfl, rfl⟩, ?_, ⟨_, _, rfl, rfl⟩, ?_⟩
  · decide +kernel
  · decide +kernel

/-- The reorg puts the deposit back into the mempool, which then drops it. -/
def requeuedPasses : List (Rpc BlockHash Txid) :=
  forkPasses [passAt 1 3 [], passAt 2 2 [(9, 0)], passAt 2 2 []]

/-- The pass that applies the reorg loses the connection while it rebuilds. -/
def brokenPasses : List (Rpc BlockHash Txid) :=
  forkPasses [passAt 1 3 [], { passAt 2 2 [] with rebuildFailsAt := some 0 }, passAt 2 2 []]

/-- The deposit is evicted by the two passes after the first, and neither reports it. -/
theorem deposit_unreported {passes : List (Rpc BlockHash Txid)}
    (evicted : Evicted (checkpointWallets forkEnvironment) newWallet passes 9 0 2)
    (silent : ∀ result, SucceedsAt (checkpointWallets forkEnvironment) newWallet passes 1 result →
      9 ∉ result.evictedTxids)
    (later : ∀ result, SucceedsAt (checkpointWallets forkEnvironment) newWallet passes 2 result →
      9 ∉ result.evictedTxids) :
    ¬ ReportsEvictions (checkpointWallets forkEnvironment) newWallet passes := by
  intro reports
  rcases reports 9 0 2 evicted with ⟨moment, result, first, last, succeeds, listed⟩
  obtain rfl | rfl : moment = 1 ∨ moment = 2 := by omega
  · exact silent result succeeds listed
  · exact later result succeeds listed

theorem evictions_go_unreported :
    ¬ ReportsEvictions (checkpointWallets forkEnvironment) newWallet requeuedPasses ∧
      ¬ ReportsEvictions (checkpointWallets forkEnvironment) newWallet brokenPasses := by
  constructor
  · apply deposit_unreported
    · refine ⟨by decide, ⟨_, _, rfl, rfl⟩, ?_, ⟨_, _, rfl, rfl⟩, ?_⟩
      · decide +kernel
      · decide +kernel
    · rintro result ⟨rpc, given, ok⟩
      obtain rfl := Option.some.inj given
      obtain rfl := Except.ok.inj ok
      decide +kernel
    · rintro result ⟨rpc, given, ok⟩
      obtain rfl := Option.some.inj given
      obtain rfl := Except.ok.inj ok
      decide +kernel
  · apply deposit_unreported
    · refine ⟨by decide, ⟨_, _, rfl, rfl⟩, ?_, ⟨_, _, rfl, rfl⟩, ?_⟩
      · decide +kernel
      · decide +kernel
    · rintro result ⟨rpc, given, ok⟩
      obtain rfl := Option.some.inj given
      cases ok
    · rintro result ⟨rpc, given, ok⟩
      obtain rfl := Option.some.inj given
      obtain rfl := Except.ok.inj ok
      decide +kernel

end EmvaultCore.EvictionReport
