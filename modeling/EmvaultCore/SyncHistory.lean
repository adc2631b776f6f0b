import EmvaultCore.EvictionReport
import EmvaultCore.GroundTruth

/-!
# The last pass decides

A pass goes on from the blocks that the wallet has or rebuilds it, so a wallet can
come to the tip of a node in many ways: block by block, over failed passes and over
reorgs. What it confirms in the end is the same as after one pass from the genesis
block, and what a pass reports as evicted is what sets the two best chains apart.
-/

namespace EmvaultCore.SyncHistory

open ChainSync EvictionReport GroundTruth Library

variable {env : Environment} {watched : List ScriptBuf} {genesis : BlockHash}
  {wallet start : Wallet} {tip : BlockId} {pass : Pass} {passes : List Pass}
  {result : SyncResult (List Change)}

def OnChain (ledger : Ledger) (watched : List ScriptBuf) (node : Node) (txid : Txid) : Prop :=
  concernsWatched ledger watched txid = true ∧ ∃ height, 0 < height ∧ height ≤ node.tip.height ∧
    txid ∈ (ledger.block (node.bestChain ledger height)).txdata

/-- The wallet has every block of the best chain, and it has an anchor for each of
their transactions that concerns its scripts and none besides. -/
structure Mirrors (env : Environment) (watched : List ScriptBuf) (wallet : Wallet)
    (node : Node) : Prop where
  chain : wallet.localChain.blocks =
    Located.branch env.ledger.prev node.tip.height node.tip.hash
  anchors : ∀ txid block, (txid, block) ∈ wallet.anchors ↔
    0 < block.height ∧ Located.OnBranch env.ledger.prev block node.tip ∧
      txid ∈ (env.ledger.block block.hash).txdata ∧
        concernsWatched env.ledger watched txid = true

/-! ### One pass -/

theorem mirrors_of_tracks {node : Node}
    (tracks : Tracks env watched genesis wallet
      ⟨node.tip.height, node.bestChain env.ledger node.tip.height⟩)
    (orphanless : NoOrphans wallet) : Mirrors env watched wallet node := by
  have chain : wallet.localChain.blocks =
      Located.branch env.ledger.prev node.tip.height node.tip.hash := by
    rw [tracks.chain, best_chain_tip]
  have listed : ∀ block : BlockId, block ∈ wallet.localChain.blocks ↔
      Located.OnBranch env.ledger.prev block node.tip := by
    intro block
    rw [chain, Located.mem_branch]
  refine ⟨chain, ?_⟩
  intro txid block
  constructor
  · intro member
    have anchored := tracks.anchored (txid, block) member
    exact ⟨anchored.1, (listed block).mp (orphanless (txid, block) member), anchored.2⟩
  · intro placed
    obtain ⟨positive, on, included, concerns⟩ := placed
    have covered := tracks.covered block (by rw [best_chain_tip]; exact on) positive
    -- an anchor on no chain with the block would be orphaned
    cases covered with
    | inl apart =>
        obtain ⟨entry, member, conflict⟩ := apart
        have onTip := (listed entry.2).mp (orphanless entry member)
        exact absurd (Located.compatible_of_on_branch on (.inl onTip)) conflict
    | inr all => exact all txid included concerns

theorem signal_tracked {driven found : Wallet} {outcome : Drive}
    (drives : DrivesTo (checkpointWallets env) (pass.rpc env.ledger) wallet driven outcome)
    (tracks : Tracks env watched genesis driven tip)
    (signal : Signal (checkpointWallets env) (pass.rpc env.ledger) wallet found) :
    Tracks env watched genesis found tip := by
  have reached : ∀ {other : Wallet} {ending : Drive},
      DrivesTo (checkpointWallets env) (pass.rpc env.ledger) wallet other ending →
        driven = other := by
    intro other ending again
    exact congrArg Prod.fst (drives.symm.trans again)
  cases signal with
  | cannotConnect again => exact reached again ▸ tracks
  | demoted again before after => exact reached again ▸ tracks
  | orphaned again anchored => exact reached again ▸ tracks
  | stale again settled mempool stale =>
      have same := reached again
      subst same
      exact tracks_unconfirmed tracks _

theorem pass_mirrors (valid : ValidNode env.ledger genesis pass.node)
    (tracks : Tracks env watched genesis wallet tip) (careful : Careful env watched wallet pass)
    (ok : (syncPass env wallet pass).2 = .ok result) :
    Mirrors env watched (afterPass env wallet pass) pass.node := by
  obtain ⟨driven, outcome, loop, ⟨reached, tracked⟩, done⟩ := drive_tracks valid tracks careful
  have top : wallet.localChain.blocks.head? = some tip := by
    rw [tracks.chain, Located.head_branch]
  have drives : DrivesTo (checkpointWallets env) (pass.rpc env.ledger) wallet driven outcome := by
    rw [DrivesTo, pass_emitter top]
    exact loop
  rw [afterPass]
  rw [syncPass] at ok ⊢
  cases sync_ok ok with
  | inl forward =>
      obtain ⟨next, blocksSynced, update, forward⟩ := forward
      obtain ⟨rfl, rfl⟩ := Prod.mk.inj (drives.symm.trans forward.drives)
      have orphanless := orphanless_of_signal forward.settled.anchored
      rw [sync_forward forward]
      exact mirrors_of_tracks (tracks_staged (tracks_unconfirmed (done _ rfl) update)) orphanless
  | inr signal =>
      obtain ⟨found, signal⟩ := signal
      rw [sync_signal signal] at ok ⊢
      have rebuilt := rebuild_tracks valid (signal_tracked drives tracked signal)
        (ok_of_replace ok)
      exact mirrors_of_tracks rebuilt.1 rebuilt.2

/-! ### What a mirror shows -/

section Mirror

variable {node : Node}

theorem mirrored_position (mirrors : Mirrors env watched wallet node) {txid : Txid}
    {anchor : BlockId} :
    (txid, .confirmed anchor) ∈ wallet.transactions env ↔
      0 < anchor.height ∧ Located.OnBranch env.ledger.prev anchor node.tip ∧
        txid ∈ (env.ledger.block anchor.hash).txdata ∧
          concernsWatched env.ledger watched txid = true := by
  rw [confirmed_listed, mirrors.anchors, mirrors.chain, Located.mem_branch]
  constructor
  · exact And.left
  · intro placed
    exact ⟨placed, placed.2.1⟩

theorem mirrored_confirmed (mirrors : Mirrors env watched wallet node) {txid : Txid} :
    txid ∈ confirmedTxids (checkpointWallets env) wallet ↔
      OnChain env.ledger watched node txid := by
  rw [mem_confirmed_txids]
  constructor
  · intro confirmed
    obtain ⟨entry, member, same, onChain⟩ := confirmed
    obtain ⟨positive, on, included, concerns⟩ := (mirrors.anchors entry.1 entry.2).mp member
    rw [same] at included concerns
    refine ⟨concerns, entry.2.height, positive, on.1, ?_⟩
    rw [Node.bestChain, on.2]
    exact included
  · intro shown
    obtain ⟨concerns, height, positive, within, included⟩ := shown
    have on : Located.OnBranch env.ledger.prev
        (⟨height, node.bestChain env.ledger height⟩ : BlockId) node.tip :=
      Located.on_branch_ancestor within
    refine ⟨(txid, ⟨height, node.bestChain env.ledger height⟩), ?_, rfl, ?_⟩
    · exact (mirrors.anchors _ _).mpr ⟨positive, on, included, concerns⟩
    · rw [mirrors.chain, Located.mem_branch]
      exact on

/-- The transactions a mirror lists are those on the chain and those it floats. -/
theorem mirrored_canonical (mirrors : Mirrors env watched wallet node) {txid : Txid} :
    txid ∈ canonicalTxids (checkpointWallets env) wallet ↔
      OnChain env.ledger watched node txid ∨ txid ∈ env.floating wallet := by
  rw [← mirrored_confirmed mirrors, mem_confirmed_txids, canonicalTxids,
    Std.ExtTreeSet.mem_ofList, List.contains_iff_mem, List.mem_map]
  change (∃ entry ∈ wallet.transactions env, entry.1 = txid) ↔ wallet.Confirmed txid ∨ _
  constructor
  · intro canonical
    obtain ⟨⟨found, position⟩, listed, same⟩ := canonical
    obtain rfl : found = txid := same
    cases position with
    | confirmed anchor =>
        have anchored := confirmed_listed.mp listed
        exact .inl ⟨(found, anchor), anchored.1, rfl, anchored.2⟩
    | unconfirmed => exact .inr (unconfirmed_listed.mp listed).1
  · intro shown
    by_cases confirmed : wallet.Confirmed txid
    · obtain ⟨entry, member, rfl, onChain⟩ := confirmed
      exact ⟨_, confirmed_listed.mpr ⟨member, onChain⟩, rfl⟩
    · have floats := shown.resolve_left confirmed
      exact ⟨_, unconfirmed_listed.mpr ⟨floats, confirmed⟩, rfl⟩

end Mirror

/-! ### Runs -/

/-- A new wallet goes through passes, of which some may fail, and then one succeeds. -/
structure SyncedRun (env : Environment) (start : Wallet) (passes : List Pass) (pass : Pass)
    (result : SyncResult (List Change)) : Prop where
  unsynced : Unsynced env start
  valid : ∀ other ∈ pass :: passes, ValidNode env.ledger (env.genesis start.network) other.node
  careful : Runs.Along (afterPass env) (Careful env (start.watched env)) start passes
  last : Careful env (start.watched env) (Runs.run (afterPass env) start passes) pass
  ok : (syncPass env (Runs.run (afterPass env) start passes) pass).2 = .ok result

def afterRun (env : Environment) (start : Wallet) (passes : List Pass) (pass : Pass) : Wallet :=
  afterPass env (Runs.run (afterPass env) start passes) pass

theorem run_tracks (unsynced : Unsynced env start)
    (valid : ∀ other ∈ passes, ValidNode env.ledger (env.genesis start.network) other.node)
    (careful : Runs.Along (afterPass env) (Careful env (start.watched env)) start passes) :
    ∃ tip, Tracks env (start.watched env) (env.genesis start.network)
      (Runs.run (afterPass env) start passes) tip := by
  have initially := (tracks_unsynced unsynced rfl rfl).1
  have preserved : ∀ wallet pass, Careful env (start.watched env) wallet pass ∧
      ValidNode env.ledger (env.genesis start.network) pass.node →
      (∃ tip, Tracks env (start.watched env) (env.genesis start.network) wallet tip) →
      ∃ tip, Tracks env (start.watched env) (env.genesis start.network)
        (afterPass env wallet pass) tip := by
    intro wallet pass allowed tracked
    obtain ⟨tip, tracks⟩ := tracked
    exact (sync_pass_synced allowed.2 tracks allowed.1).1
  exact Runs.run_invariant preserved ⟨_, initially⟩ (Runs.along_and careful valid)

theorem run_mirrors (synced : SyncedRun env start passes pass result) :
    Mirrors env (start.watched env) (afterRun env start passes pass) pass.node := by
  have valid := List.forall_mem_cons.mp synced.valid
  obtain ⟨tip, tracks⟩ := run_tracks synced.unsynced valid.2 synced.careful
  exact pass_mirrors valid.1 tracks synced.last synced.ok

/-! ### On the small ledger -/

theorem careful_fork {wallet : Wallet} {pass : Pass}
    (whole : skippedBlock forkLedger wallet pass.node = none) :
    Careful forkEnvironment (newWallet.watched forkEnvironment) wallet pass := by
  right
  intro block skipped
  exact absurd (whole.symm.trans skipped) (by simp)

theorem direct_fork_run :
    ∃ result, SyncedRun forkEnvironment newWallet [] (passAt 3 5 []) result := by
  refine ⟨_, new_wallet_unsynced, ?_, trivial, careful_fork rfl, rfl⟩
  exact List.forall_mem_singleton.mpr (valid_fork_node rfl)

/-- The wallet syncs the empty chain first, and the pass that meets the reorg loses
the connection after one block. -/
theorem troubled_fork_run :
    ∃ result, SyncedRun forkEnvironment newWallet
      [passAt 1 1 [], { passAt 3 5 [] with failsAt := some 1 }] (passAt 3 5 []) result := by
  refine ⟨_, new_wallet_unsynced, ?_, ?_, careful_fork rfl, rfl⟩
  · intro pass member
    simp only [List.mem_cons, List.not_mem_nil, or_false] at member
    obtain rfl | rfl | rfl := member
    · exact valid_fork_node rfl
    · exact valid_fork_node rfl
    · exact valid_fork_node rfl
  · exact ⟨careful_fork rfl, careful_fork rfl, trivial⟩

/-- Two wallets of the same scripts come to one tip, each in its own way: they end
with the same chain, the same transactions confirmed in the same blocks, and the
same set of confirmed transactions. -/
theorem last_pass_decides {left right : Wallet} {leftPasses rightPasses : List Pass}
    {leftPass rightPass : Pass} {leftResult rightResult : SyncResult (List Change)}
    (leftRun : SyncedRun env left leftPasses leftPass leftResult)
    (rightRun : SyncedRun env right rightPasses rightPass rightResult)
    (scripts : left.watched env = right.watched env)
    (tips : leftPass.node.tip = rightPass.node.tip) :
    (afterRun env left leftPasses leftPass).localChain =
        (afterRun env right rightPasses rightPass).localChain ∧
      (∀ txid anchor,
        (txid, .confirmed anchor) ∈ (afterRun env left leftPasses leftPass).transactions env ↔
          (txid, .confirmed anchor) ∈
            (afterRun env right rightPasses rightPass).transactions env) ∧
      confirmedTxids (checkpointWallets env) (afterRun env left leftPasses leftPass) =
        confirmedTxids (checkpointWallets env) (afterRun env right rightPasses rightPass) := by
  have first := run_mirrors leftRun
  have second := run_mirrors rightRun
  have chains : ∀ height, leftPass.node.bestChain env.ledger height =
      rightPass.node.bestChain env.ledger height := by
    intro height
    rw [Node.bestChain, Node.bestChain, tips]
  refine ⟨CheckPoint.ext ?_, ?_, ?_⟩
  · rw [first.chain, second.chain, tips]
  · intro txid anchor
    rw [mirrored_position first, mirrored_position second, scripts, tips]
  · apply Std.ExtTreeSet.ext_mem
    intro txid
    rw [mirrored_confirmed first, mirrored_confirmed second, OnChain, OnChain, scripts, tips]
    simp only [chains]

theorem last_pass_decides_fork :
    (afterRun forkEnvironment newWallet [] (passAt 3 5 [])).localChain =
        (afterRun forkEnvironment newWallet
          [passAt 1 1 [], { passAt 3 5 [] with failsAt := some 1 }] (passAt 3 5 [])).localChain ∧
      (∀ txid anchor,
        (txid, .confirmed anchor) ∈
            (afterRun forkEnvironment newWallet [] (passAt 3 5 [])).transactions forkEnvironment ↔
          (txid, .confirmed anchor) ∈ (afterRun forkEnvironment newWallet
            [passAt 1 1 [], { passAt 3 5 [] with failsAt := some 1 }]
              (passAt 3 5 [])).transactions forkEnvironment) ∧
      confirmedTxids (checkpointWallets forkEnvironment)
          (afterRun forkEnvironment newWallet [] (passAt 3 5 [])) =
        confirmedTxids (checkpointWallets forkEnvironment) (afterRun forkEnvironment newWallet
          [passAt 1 1 [], { passAt 3 5 [] with failsAt := some 1 }] (passAt 3 5 [])) :=
  last_pass_decides direct_fork_run.choose_spec troubled_fork_run.choose_spec rfl rfl

/-- When two passes in a row succeed, the second reports what the first one's chain
has and its own has not, save what the wallet holds as unconfirmed. -/
theorem report_sets_chains_apart {earlier later : Pass}
    {first second : SyncResult (List Change)}
    (floats : ∀ wallet : Wallet, env.floating wallet.takeStaged.2 = env.floating wallet)
    (before : SyncedRun env start passes earlier first)
    (after : SyncedRun env start (passes ++ [earlier]) later second) (txid : Txid) :
    txid ∈ second.evictedTxids ↔
      OnChain env.ledger (start.watched env) earlier.node txid ∧
        ¬ OnChain env.ledger (start.watched env) later.node txid ∧
          txid ∉ env.floating (afterRun env start (passes ++ [earlier]) later) := by
  have reached : Runs.run (afterPass env) start (passes ++ [earlier]) =
      afterRun env start passes earlier := by
    rw [Runs.run_append]
    rfl
  have final : afterSync (checkpointWallets env)
      (Runs.run (afterPass env) start (passes ++ [earlier])) (later.rpc env.ledger) =
        afterRun env start (passes ++ [earlier]) later := rfl
  rw [mem_evicted_iff (checkpoint_wallets_keep_confirmed floats) after.ok, final,
    mirrored_canonical (run_mirrors after), not_or, reached,
    mirrored_confirmed (run_mirrors before)]

theorem deposit_run : ∃ first, SyncedRun forkEnvironment newWallet [] (passAt 1 3 []) first := by
  refine ⟨_, new_wallet_unsynced, ?_, trivial, careful_fork rfl, rfl⟩
  exact List.forall_mem_singleton.mpr (valid_fork_node rfl)

theorem reorg_run :
    ∃ second, SyncedRun forkEnvironment newWallet [passAt 1 3 []] (passAt 2 2 []) second := by
  refine ⟨_, new_wallet_unsynced, ?_, ⟨careful_fork rfl, trivial⟩, careful_fork rfl, rfl⟩
  intro pass member
  obtain rfl | rfl := List.mem_pair.mp member
  · exact valid_fork_node rfl
  · exact valid_fork_node rfl

/-- The deposit is confirmed, and the next pass meets a reorg that drops it. -/
theorem dropped_deposit_sets_chains_apart :
    ∃ second, (syncPass forkEnvironment
        (Runs.run (afterPass forkEnvironment) newWallet [passAt 1 3 []]) (passAt 2 2 [])).2 =
          .ok second ∧ 9 ∈ second.evictedTxids := by
  obtain ⟨first, before⟩ := deposit_run
  obtain ⟨second, after⟩ := reorg_run
  refine ⟨second, after.ok, (report_sets_chains_apart (fun _ => rfl) before after 9).mpr ?_⟩
  refine ⟨⟨rfl, 1, by decide, by decide, List.mem_cons_self⟩, ?_, by decide +kernel⟩
  intro dropped
  obtain ⟨-, height, positive, within, included⟩ := dropped
  have level : height = 1 ∨ height = 2 := by
    change height ≤ 2 at within
    omega
  obtain rfl | rfl := level
  · exact absurd included List.not_mem_nil
  · exact absurd included List.not_mem_nil

end EmvaultCore.SyncHistory
