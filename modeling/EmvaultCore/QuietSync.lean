import EmvaultCore.SoundWallet
import Mathlib.Logic.Relation

/-!
# No rebuild without a reorg

After a successful sync the wallet agrees with the node: its tip is on the best
chain, every anchor is a checkpoint, and every unconfirmed transaction is in the
mempool. While the node only extends its chain and mines what leaves its
mempool, each sign of a reorg stays quiet, however often a pass fails on the way.
-/

namespace EmvaultCore.QuietSync

open ChainSync GroundTruth Library

/-! ### What a node holds -/

section Held

variable {ledger : Ledger} {node : Node} {left right : Txid}

def InMempool (node : Node) (txid : Txid) : Prop := txid ∈ node.mempool.map Prod.fst

def MinedAbove (ledger : Ledger) (node : Node) (level : Nat) (txid : Txid) : Prop :=
  ∃ height, level < height ∧ height ≤ node.tip.height ∧
    txid ∈ (ledger.block (node.bestChain ledger height)).txdata

def Held (ledger : Ledger) (node : Node) (txid : Txid) : Prop :=
  InMempool node txid ∨ ∃ height, height ≤ node.tip.height ∧
    txid ∈ (ledger.block (node.bestChain ledger height)).txdata

/-- What a node holds spends outputs it holds, and spends no output twice. -/
structure Consistent (ledger : Ledger) (node : Node) : Prop where
  funded : ∀ txid, Held ledger node txid → ∀ input ∈ (ledger.tx txid).inputs,
    Held ledger node input.txid
  single : ∀ left right, Held ledger node left → Held ledger node right →
    ∀ outpoint ∈ (ledger.tx left).inputs, outpoint ∈ (ledger.tx right).inputs → left = right

/-- The best chain grows, and what leaves the mempool is mined. -/
structure Extends (ledger : Ledger) (node next : Node) : Prop where
  chain : Located.OnBranch ledger.prev node.tip next.tip
  mempool : ∀ txid, InMempool node txid →
    InMempool next txid ∨ MinedAbove ledger next node.tip.height txid

def Spends (ledger : Ledger) (txid earlier : Txid) : Prop :=
  ∃ input ∈ (ledger.tx txid).inputs, input.txid = earlier

def Conflicts (ledger : Ledger) (left right : Txid) : Prop :=
  ∃ first second, Relation.ReflTransGen (Spends ledger) left first ∧
    Relation.ReflTransGen (Spends ledger) right second ∧ first ≠ second ∧
      ∃ outpoint ∈ (ledger.tx first).inputs, outpoint ∈ (ledger.tx second).inputs

theorem held_of_spends (consistent : Consistent ledger node) (held : Held ledger node left)
    (spends : Relation.ReflTransGen (Spends ledger) left right) : Held ledger node right := by
  induction spends with
  | refl => exact held
  | tail before step ih =>
      rcases step with ⟨input, spent, rfl⟩
      exact consistent.funded _ ih input spent

theorem no_conflict (consistent : Consistent ledger node) (first : Held ledger node left)
    (second : Held ledger node right) : ¬ Conflicts ledger left right := by
  rintro ⟨one, other, fromLeft, fromRight, different, outpoint, spent, again⟩
  apply different
  exact consistent.single one other (held_of_spends consistent first fromLeft)
    (held_of_spends consistent second fromRight) outpoint spent again

theorem held_of_mined {level : Nat} (mined : MinedAbove ledger node level left) :
    Held ledger node left := by
  rcases mined with ⟨height, -, within, listed⟩
  exact .inr ⟨height, within, listed⟩

theorem best_chain_of_on_branch {next : Node} (on : Located.OnBranch ledger.prev node.tip next.tip)
    {height : Nat} (within : height ≤ node.tip.height) :
    next.bestChain ledger height = node.bestChain ledger height :=
  Located.ancestor_of_on_branch on within

end Held

/-! ### What is canonical -/

section Canonical

variable {env : Environment} {wallet : Wallet} {txid : Txid}

def Canonical (env : Environment) (wallet : Wallet) (txid : Txid) : Prop :=
  wallet.Confirmed txid ∨ txid ∈ env.floating wallet

def InGraph (wallet : Wallet) (txid : Txid) : Prop :=
  txid ∈ wallet.seen.map Prod.fst ∨ txid ∈ wallet.anchors.map Prod.fst

/-- How the wallet library decides what is canonical: it chooses among the
transactions of its graph, a transaction of a conflict loses to what is canonical
already, and new transactions that conflict with none take nothing away. -/
structure Canonicalizes (env : Environment) : Prop where
  graph : ∀ wallet txid, txid ∈ env.floating wallet → InGraph wallet txid
  staged : ∀ wallet, env.floating wallet.takeStaged.2 = env.floating wallet
  revealed : ∀ wallet keychain index,
    env.floating (wallet.revealAddressesTo keychain index) = env.floating wallet
  block : ∀ wallet block height connectedTo next, NoOrphans wallet →
    wallet.applyBlockConnectedTo env block height connectedTo = .ok next →
    wallet.localChain.blocks ⊆ next.localChain.blocks →
    (∀ txid, Canonical env wallet txid → ∀ other ∈ (env.ledger.block block).txdata,
      ¬ Conflicts env.ledger txid other) →
    ∀ txid, Canonical env next txid →
      Canonical env wallet txid ∨ txid ∈ (env.ledger.block block).txdata
  unconfirmed : ∀ wallet update,
    (∀ txid, Canonical env wallet txid → ∀ other ∈ update.map Prod.fst,
      ¬ Conflicts env.ledger txid other) →
    ∀ txid, Canonical env (wallet.applyUnconfirmedTxs env update) txid →
      Canonical env wallet txid ∨ (txid ∈ update.map Prod.fst ∧ ¬ InGraph wallet txid)
  kept : ∀ wallet update,
    (∀ txid, Canonical env wallet txid → ∀ other ∈ update.map Prod.fst,
      ¬ Conflicts env.ledger txid other) →
    ∀ txid, Canonical env wallet txid → Canonical env (wallet.applyUnconfirmedTxs env update) txid

end Canonical

/-! ### Quiet wallets -/

section Quiet

variable {env : Environment} {node : Node} {wallet next : Wallet} {tip : BlockId} {txid : Txid}

/-- The wallet agrees with the node up to the wallet's tip. -/
structure Quiet (env : Environment) (node : Node) (wallet : Wallet) (tip : BlockId) : Prop where
  sound : Sound env wallet
  top : wallet.localChain.blocks.head? = some tip
  onBest : Located.OnBranch env.ledger.prev tip node.tip
  orphanless : NoOrphans wallet
  pending : ∀ txid ∈ env.floating wallet, ¬ wallet.Confirmed txid →
    InMempool node txid ∨ MinedAbove env.ledger node tip.height txid

theorem held_of_canonical (quiet : Quiet env node wallet tip)
    (canonical : Canonical env wallet txid) : Held env.ledger node txid := by
  by_cases confirmed : wallet.Confirmed txid
  · rcases confirmed with ⟨entry, member, rfl, onChain⟩
    have below := Located.below_of_sparse quiet.sound.chain quiet.top onChain
    have on := Located.on_branch_trans below quiet.onBest
    have best : node.bestChain env.ledger entry.2.height = entry.2.hash := on.2
    refine .inr ⟨entry.2.height, on.1, ?_⟩
    rw [best]
    exact quiet.sound.anchored entry member
  · rcases quiet.pending txid (canonical.resolve_left confirmed) confirmed with waiting | mined
    · exact .inl waiting
    · exact held_of_mined mined

theorem quiet_of_extends {grown : Node} (quiet : Quiet env node wallet tip)
    (extending : Extends env.ledger node grown) : Quiet env grown wallet tip := by
  refine ⟨quiet.sound, quiet.top, Located.on_branch_trans quiet.onBest extending.chain,
    quiet.orphanless, ?_⟩
  intro txid floats unconfirmed
  rcases quiet.pending txid floats unconfirmed with waiting | ⟨height, above, within, listed⟩
  · rcases extending.mempool txid waiting with still | ⟨height, above, within, listed⟩
    · exact .inl still
    · exact .inr ⟨height, Nat.lt_of_le_of_lt quiet.onBest.1 above, within, listed⟩
  · refine .inr ⟨height, above, within.trans extending.chain.1, ?_⟩
    rw [best_chain_of_on_branch extending.chain within]
    exact listed

theorem quiet_staged (laws : Canonicalizes env) (quiet : Quiet env node wallet tip) :
    Quiet env node wallet.takeStaged.2 tip := by
  refine ⟨(sound_keeps env).staged wallet quiet.sound, quiet.top, quiet.onBest, quiet.orphanless,
    ?_⟩
  rw [laws.staged]
  exact quiet.pending

theorem quiet_revealed (laws : Canonicalizes env) (quiet : Quiet env node wallet tip)
    {keychain : KeychainKind} {index : UInt32}
    (watching : wallet.watched env ⊆ (wallet.revealAddressesTo keychain index).watched env) :
    Quiet env node (wallet.revealAddressesTo keychain index) tip := by
  have sound := sound_revealed quiet.sound watching
  have pending := quiet.pending
  rw [← laws.revealed wallet keychain index] at pending
  cases keychain with
  | external => exact ⟨sound, quiet.top, quiet.onBest, quiet.orphanless, pending⟩
  | internal => exact ⟨sound, quiet.top, quiet.onBest, quiet.orphanless, pending⟩

/-- What enters the mempool of a consistent node takes nothing canonical away. -/
theorem quiet_unconfirmed (laws : Canonicalizes env) (consistent : Consistent env.ledger node)
    (quiet : Quiet env node wallet tip) :
    Quiet env node (wallet.applyUnconfirmedTxs env node.mempool) tip := by
  refine ⟨sound_unconfirmed quiet.sound _, quiet.top, quiet.onBest, quiet.orphanless, ?_⟩
  intro txid floats unconfirmed
  have apart : ∀ txid, Canonical env wallet txid → ∀ other ∈ node.mempool.map Prod.fst,
      ¬ Conflicts env.ledger txid other := by
    intro txid canonical other waiting
    exact no_conflict consistent (held_of_canonical quiet canonical) (.inl waiting)
  rcases laws.unconfirmed wallet node.mempool apart txid (.inr floats) with before | ⟨waiting, -⟩
  · exact quiet.pending txid (before.resolve_left unconfirmed) unconfirmed
  · exact .inl waiting

theorem quiet_block (laws : Canonicalizes env) (consistent : Consistent env.ledger node)
    {height : Nat} (within : height + 1 ≤ node.tip.height)
    (quiet : Quiet env node wallet ⟨height, node.bestChain env.ledger height⟩) :
    ∃ next, wallet.applyBlockConnectedTo env (node.bestChain env.ledger (height + 1)) (height + 1)
        ⟨height, node.bestChain env.ledger height⟩ = .ok next ∧ Grows wallet next ∧
      Quiet env node next ⟨height + 1, node.bestChain env.ledger (height + 1)⟩ := by
  rcases next_block within quiet.sound quiet.top with ⟨next, applied, sound, blocks⟩
  have applies := applies_block applied
  have grows := grows_block applies blocks
  have orphanless := orphanless_block applies blocks quiet.orphanless
  refine ⟨next, applied, grows, sound, by rw [blocks]; rfl,
    Located.on_branch_ancestor within, orphanless, ?_⟩
  intro txid floats unconfirmed
  have apart : ∀ txid, Canonical env wallet txid →
      ∀ other ∈ (env.ledger.block (node.bestChain env.ledger (height + 1))).txdata,
        ¬ Conflicts env.ledger txid other := by
    intro txid canonical other listed
    exact no_conflict consistent (held_of_canonical quiet canonical)
      (.inr ⟨height + 1, within, listed⟩)
  -- A transaction of the block that the graph knows was relevant, so it is anchored.
  have mined : txid ∉ (env.ledger.block (node.bestChain env.ledger (height + 1))).txdata := by
    intro listed
    apply unconfirmed
    rcases laws.graph next txid floats with seen | anchored
    · rw [applies.seen] at seen
      rcases List.mem_map.mp seen with ⟨entry, member, rfl⟩
      refine ⟨(entry.1, ⟨height + 1, node.bestChain env.ledger (height + 1)⟩), ?_, rfl, ?_⟩
      · rw [applies.anchors]
        exact anchored_of_relevant listed (quiet.sound.relevant entry member)
      · rw [blocks]
        exact List.mem_cons_self
    · rcases List.mem_map.mp anchored with ⟨entry, member, same⟩
      exact ⟨entry, member, same, orphanless entry member⟩
  have canonical := (laws.block wallet _ _ _ next quiet.orphanless applied grows.chain apart txid
    (.inr floats)).resolve_right mined
  have before : ¬ wallet.Confirmed txid := fun old => unconfirmed (confirmed_of_grows grows old)
  rcases quiet.pending txid (canonical.resolve_left before) before with
    waiting | ⟨level, above, bound, listed⟩
  · exact .inl waiting
  · right
    rcases Nat.lt_or_eq_of_le (Nat.succ_le_of_lt above) with higher | rfl
    · exact ⟨level, higher, bound, listed⟩
    · exact absurd listed mined

theorem quiet_advances (laws : Canonicalizes env) (consistent : Consistent env.ledger node)
    (start : Wallet) :
    Advances env node fun height wallet => Grows start wallet ∧
      Quiet env node wallet ⟨height, node.bestChain env.ledger height⟩ := by
  rintro height wallet within ⟨grown, quiet⟩
  rcases quiet_block laws consistent within quiet with ⟨next, applied, grows, kept⟩
  refine ⟨next, applied, ⟨?_, ?_⟩, kept⟩
  · exact List.Subset.trans grown.chain grows.chain
  · exact List.Subset.trans grown.anchors grows.anchors

/-! ### The signs of a reorg -/

theorem anchored_of_quiet (quiet : Quiet env node wallet tip) :
    hasOrphanedAnchor (checkpointWallets env) wallet = false := by
  rw [hasOrphanedAnchor, List.any_eq_false]
  intro entry member
  have onChain := quiet.orphanless entry member
  have found : wallet.localChain.get entry.2.height = some entry.2 := by
    cases search : wallet.localChain.get entry.2.height with
    | none =>
        have missing := List.find?_eq_none.mp search entry.2 onChain
        simp at missing
    | some block =>
        have level : block.height = entry.2.height := by simpa using List.find?_some search
        rw [Located.eq_of_sparse quiet.sound.chain (List.mem_of_find?_eq_some search) onChain level]
  have latest : (checkpointWallets env).latestCheckpoint wallet = wallet.localChain := rfl
  simp [latest, found]

theorem settled_of_quiet (grows : Grows wallet next) (quiet : Quiet env node next tip) :
    Settled (checkpointWallets env) wallet next := by
  refine ⟨?_, anchored_of_quiet quiet⟩
  intro txid confirmed
  exact mem_confirmed_txids.mpr (confirmed_of_grows grows (mem_confirmed_txids.mp confirmed))

theorem current_of_quiet (laws : Canonicalizes env) (consistent : Consistent env.ledger node)
    (quiet : Quiet env node wallet node.tip) :
    staleAfter (checkpointWallets env) wallet node.mempool = false := by
  have seen := quiet_unconfirmed laws consistent quiet
  rw [staleAfter, hasStaleUnconfirmed, List.any_eq_false]
  rintro ⟨txid, position⟩ listed
  cases position with
  | confirmed anchor => simp [ChainPosition.isConfirmed]
  | unconfirmed =>
      rcases unconfirmed_listed.mp listed with ⟨floats, unconfirmed⟩
      have waiting : InMempool node txid := by
        rcases seen.pending txid floats unconfirmed with waiting | ⟨height, above, within, -⟩
        · exact waiting
        · omega
      have known : txid ∈ (.ofList (node.mempool.map
          fun entry => (checkpointWallets env).computeTxid entry.1) : TxidSet) := by
        rw [Std.ExtTreeSet.mem_ofList, List.contains_iff_mem]
        exact waiting
      rw [Bool.and_eq_true, decide_eq_true_eq]
      exact fun missing => missing.2 known

end Quiet

/-! ### Passes of a node that only grows -/

section Passes

variable {env : Environment} {node : Node} {wallet : Wallet} {tip : BlockId} {pass : Pass}

/-- The block loop fails with a request, or it goes through to the node's tip. -/
theorem drive_quiet (laws : Canonicalizes env) (consistent : Consistent env.ledger pass.node)
    (quiet : Quiet env pass.node wallet tip) :
    ∃ next, Grows wallet next ∧
      ((∃ cause reached, DrivesTo (checkpointWallets env) (pass.rpc env.ledger) wallet next
          (.failed cause) ∧ Quiet env pass.node next reached ∧ pass.failsAt ≠ none) ∨
        ∃ total, DrivesTo (checkpointWallets env) (pass.rpc env.ledger) wallet next
          (.finished total) ∧ Quiet env pass.node next pass.node.tip ∧
          (tip = pass.node.tip → next = wallet ∧ total = 0)) := by
  have emitter := @pass_emitter env pass wallet tip quiet.top
  have emits := emitter_from_top quiet.top quiet.onBest
  rcases @failing_blocks _ _ _ _ _ _ pass.failsAt _ emits with ⟨kept, blocks, bounded, whole, -⟩
  have best : tip = ⟨tip.height, pass.node.bestChain env.ledger tip.height⟩ :=
    Located.ext rfl quiet.onBest.2.symm
  have begins := quiet
  rw [best] at begins blocks
  have bound := quiet.onBest.1
  rcases @drive_advances env pass.node wallet _ (quiet_advances laws consistent wallet)
    (passEmitter (checkpointWallets env) (pass.rpc env.ledger) wallet).ended tip.height kept 0
    (by omega) ⟨⟨List.Subset.refl _, List.Subset.refl _⟩, begins⟩ with
    ⟨next, total, driven, grows, reached⟩
  rw [← blocks, ← emitter] at driven
  refine ⟨next, grows, ?_⟩
  rw [← emitter] at whole blocks
  cases ended : (passEmitter (checkpointWallets env) (pass.rpc env.ledger) wallet).ended with
  | error cause =>
      rw [ended] at driven
      refine .inl ⟨.rpc cause, _, by rw [DrivesTo, ended]; exact driven, reached, ?_⟩
      intro never
      rw [emitter, never, emits] at ended
      simp [Emitter.failingAt] at ended
  | ok done =>
      rw [ended] at driven
      have all := whole ended
      have drives : DrivesTo (checkpointWallets env) (pass.rpc env.ledger) wallet next
          (.finished total) := by
        rw [DrivesTo, ended]
        exact driven
      rw [all, Nat.add_sub_cancel' bound, best_chain_tip] at reached
      refine .inr ⟨total, drives, reached, ?_⟩
      rintro rfl
      rw [all, Nat.sub_self] at blocks
      rw [blocks] at driven
      obtain ⟨rfl, finished⟩ := Prod.mk.inj driven
      exact ⟨rfl, (Drive.finished.inj finished).symm⟩

/-- What a pass leaves of a quiet wallet, and how it succeeds. -/
structure StaysQuiet (env : Environment) (wallet : Wallet) (pass : Pass) : Prop where
  after : ∃ reached, Quiet env pass.node (afterPass env wallet pass) reached
  succeeds : pass.failsAt = none → ∃ result, (syncPass env wallet pass).2 = .ok result
  forward : ∀ result, (syncPass env wallet pass).2 = .ok result →
    result.reorgRebuilt = false ∧ result.evictedTxids = []

theorem stays_quiet_of_failure {cause : ChainSyncError} {reached : BlockId} {next : Wallet}
    (fails : pass.failsAt ≠ none) (quiet : Quiet env pass.node next reached)
    (failed : syncPass env wallet pass = (next, .error cause)) : StaysQuiet env wallet pass := by
  refine ⟨⟨reached, ?_⟩, fun never => absurd never fails, ?_⟩
  · rw [afterPass, failed]
    exact quiet
  · intro result ok
    rw [failed] at ok
    simp at ok

theorem finish_quiet (laws : Canonicalizes env) (consistent : Consistent env.ledger pass.node)
    {next : Wallet} {total : Nat} (grows : Grows wallet next)
    (drives : DrivesTo (checkpointWallets env) (pass.rpc env.ledger) wallet next (.finished total))
    (quiet : Quiet env pass.node next pass.node.tip) :
    (pass.failsAt ≠ none ∧ ∃ cause, syncPass env wallet pass = (next, .error (.rpc cause))) ∨
      Forward (checkpointWallets env) (pass.rpc env.ledger) wallet next total
        pass.node.mempool := by
  have settled := settled_of_quiet grows quiet
  cases mempool : (passEmitter (checkpointWallets env) (pass.rpc env.ledger) wallet).mempool with
  | error cause =>
      left
      constructor
      · intro never
        have answered : (passEmitter (checkpointWallets env) (pass.rpc env.ledger)
            wallet).mempool = .ok pass.node.mempool := by
          rw [passEmitter, Pass.rpc, never]
          exact node_mempool _ _ _ _
        rw [answered] at mempool
        simp at mempool
      · refine ⟨cause, ?_⟩
        rw [syncPass, emitter_sync_of_drives drives]
        dsimp only
        rw [finish_of_settled _ settled, mempool]
  | ok update =>
      obtain rfl : update = pass.node.mempool := mempool_of_node mempool
      exact .inr ⟨drives, settled, mempool, current_of_quiet laws consistent quiet⟩

theorem quiet_pass (laws : Canonicalizes env) (consistent : Consistent env.ledger pass.node)
    (quiet : Quiet env pass.node wallet tip) : StaysQuiet env wallet pass := by
  rcases drive_quiet laws consistent quiet with
    ⟨next, grows, ⟨cause, reached, drives, still, fails⟩ | ⟨total, drives, still, -⟩⟩
  · exact stays_quiet_of_failure fails still (emitter_sync_of_drives drives)
  · rcases finish_quiet laws consistent grows drives still with ⟨fails, cause, failed⟩ | forward
    · exact stays_quiet_of_failure fails still failed
    · have synced := sync_forward forward
      refine ⟨⟨pass.node.tip, ?_⟩, fun _ => ⟨_, congrArg Prod.snd synced⟩, ?_⟩
      · rw [afterPass, syncPass, synced]
        exact quiet_staged laws (quiet_unconfirmed laws consistent still)
      · intro result ok
        rw [syncPass, synced] at ok
        obtain rfl := Except.ok.inj ok
        exact ⟨rfl, rfl⟩

/-! ### What a successful pass leaves -/

structure Ingested (env : Environment) (node : Node) (wallet : Wallet) : Prop where
  indexed : ∀ txid, InMempool node txid →
    watchedOutputs env.ledger (wallet.watched env) txid ⊆ wallet.index
  seen : ∀ txid, InMempool node txid →
    isTxRelevant env.ledger (wallet.watched env) wallet.index txid = true →
      txid ∈ wallet.seen.map Prod.fst

theorem ingested_unconfirmed (env : Environment) (node : Node) (wallet : Wallet) :
    Ingested env node (wallet.applyUnconfirmedTxs env node.mempool) := by
  constructor
  · intro txid waiting outpoint paid
    rcases List.mem_map.mp waiting with ⟨entry, member, rfl⟩
    exact List.mem_append_left _ (List.mem_flatMap.mpr ⟨entry, member, paid⟩)
  · intro txid waiting relevant
    rcases List.mem_map.mp waiting with ⟨entry, member, rfl⟩
    apply List.mem_map_of_mem
    exact List.mem_append_left _ (List.mem_filter.mpr ⟨member, relevant⟩)

structure Level (env : Environment) (node : Node) (wallet : Wallet) : Prop where
  quiet : Quiet env node wallet node.tip
  ingested : Ingested env node wallet

theorem level_of_pending (laws : Canonicalizes env) (onTop : OnTop env node node.tip.height wallet)
    (orphanless : NoOrphans wallet)
    (pending : ∀ txid ∈ env.floating (wallet.applyUnconfirmedTxs env node.mempool),
      ¬ wallet.Confirmed txid → InMempool node txid) :
    Level env node (wallet.applyUnconfirmedTxs env node.mempool).takeStaged.2 := by
  have top := onTop.top
  rw [best_chain_tip] at top
  constructor
  · apply quiet_staged laws
    refine ⟨sound_unconfirmed onTop.sound _, top, Located.on_branch_refl _, orphanless, ?_⟩
    intro txid floats unconfirmed
    exact .inl (pending txid floats unconfirmed)
  · have ingested := ingested_unconfirmed env node wallet
    exact ⟨ingested.indexed, ingested.seen⟩

theorem level_of_forward (laws : Canonicalizes env) (sound : Sound env wallet) {driven : Wallet}
    {blocksSynced : Nat} {update : List (Txid × UInt64)}
    (forward : Forward (checkpointWallets env) (pass.rpc env.ledger) wallet driven blocksSynced
      update) : Level env pass.node (afterPass env wallet pass) := by
  obtain rfl : update = pass.node.mempool := mempool_of_node forward.mempool
  rw [afterPass, syncPass, sync_forward forward]
  apply level_of_pending laws (drive_arrives sound forward.drives)
    (orphanless_of_signal forward.settled.anchored)
  intro txid floats unconfirmed
  have current := forward.current
  rw [staleAfter, hasStaleUnconfirmed, List.any_eq_false] at current
  have listed : (txid, .unconfirmed) ∈
      (driven.applyUnconfirmedTxs env pass.node.mempool).transactions env :=
    unconfirmed_listed.mpr ⟨floats, unconfirmed⟩
  have known := current _ listed
  simp only [ChainPosition.isConfirmed, Bool.not_false, Bool.true_and, decide_eq_true_eq,
    not_not, Std.ExtTreeSet.mem_ofList, List.contains_iff_mem] at known
  exact known

theorem level_of_rebuild (laws : Canonicalizes env) {before : TxidSet} {rebuilt : Wallet}
    {result : SyncResult (List Change)}
    (ok : rebuildOnReorg (checkpointWallets env) (pass.rpc env.ledger) wallet before =
      .ok (rebuilt, result)) : Level env pass.node rebuilt := by
  rcases clean_of_rebuild ok with ⟨driven, clean, rfl⟩
  apply level_of_pending laws clean.onTop clean.orphanless
  intro txid floats unconfirmed
  rcases laws.graph _ txid floats with seen | anchored
  · rcases List.mem_map.mp seen with ⟨entry, member, rfl⟩
    rcases List.mem_append.mp member with new | old
    · exact List.mem_map_of_mem (List.mem_filter.mp new).1
    · rw [clean.unseen] at old
      exact absurd old List.not_mem_nil
  · rcases List.mem_map.mp anchored with ⟨entry, member, same⟩
    exact absurd ⟨entry, member, same, clean.orphanless entry member⟩ unconfirmed

/-- Forward or by a rebuild, a pass that succeeds leaves a quiet wallet. -/
theorem level_of_success (laws : Canonicalizes env) (history : History env wallet)
    {result : SyncResult (List Change)} (ok : (syncPass env wallet pass).2 = .ok result) :
    Level env pass.node (afterPass env wallet pass) := by
  rcases sync_ok ok with ⟨driven, blocksSynced, update, forward⟩ | ⟨found, signal⟩
  · exact level_of_forward laws (sound_of_history history) forward
  · rw [syncPass, sync_signal signal] at ok
    rw [afterPass, syncPass, sync_signal signal]
    exact level_of_rebuild laws (ok_of_replace ok)

/-! ### A node that does not change -/

/-- The same tip and the same transactions in the mempool; the times at which
these are reported may differ. -/
structure Unchanged (node next : Node) : Prop where
  tip : next.tip = node.tip
  mempool : next.mempool.map Prod.fst = node.mempool.map Prod.fst

theorem extends_of_unchanged {ledger : Ledger} {next : Node} (unchanged : Unchanged node next) :
    Extends ledger node next := by
  constructor
  · rw [unchanged.tip]
    exact Located.on_branch_refl _
  · intro txid waiting
    left
    rw [InMempool, unchanged.mempool]
    exact waiting

theorem graph_of_ingested {next : Node} (ingested : Ingested env node wallet)
    (same : next.mempool.map Prod.fst = node.mempool.map Prod.fst) {txid : Txid}
    (known : InGraph (wallet.applyUnconfirmedTxs env next.mempool) txid) : InGraph wallet txid := by
  have waited : ∀ entry ∈ next.mempool, InMempool node entry.1 := by
    intro entry waiting
    rw [InMempool, ← same]
    exact List.mem_map_of_mem waiting
  have indexed : wallet.index ⊇
      (next.mempool.flatMap fun entry => watchedOutputs env.ledger (wallet.watched env) entry.1) ++
        wallet.index := by
    intro outpoint member
    rcases List.mem_append.mp member with new | old
    · rcases List.mem_flatMap.mp new with ⟨entry, waiting, paid⟩
      exact ingested.indexed entry.1 (waited entry waiting) paid
    · exact old
  rcases known with seen | anchored
  · rcases List.mem_map.mp seen with ⟨entry, member, rfl⟩
    rcases List.mem_append.mp member with new | old
    · rcases List.mem_filter.mp new with ⟨waiting, relevant⟩
      exact .inl (ingested.seen entry.1 (waited entry waiting)
        (relevant_mono (List.Subset.refl _) indexed relevant))
    · exact .inl (List.mem_map_of_mem old)
  · exact .inr anchored

theorem transactions_of_ingested (laws : Canonicalizes env) {next : Node}
    (consistent : Consistent env.ledger next) (quiet : Quiet env next wallet tip)
    (ingested : Ingested env node wallet) (same : next.mempool.map Prod.fst =
      node.mempool.map Prod.fst) (entry : Txid × ChainPosition) :
    entry ∈ (wallet.applyUnconfirmedTxs env next.mempool).takeStaged.2.transactions env ↔
      entry ∈ wallet.transactions env := by
  have apart : ∀ txid, Canonical env wallet txid → ∀ other ∈ next.mempool.map Prod.fst,
      ¬ Conflicts env.ledger txid other := by
    intro txid canonical other waiting
    exact no_conflict consistent (held_of_canonical quiet canonical) (.inl waiting)
  rcases entry with ⟨txid, position⟩
  cases position with
  | confirmed anchor => rw [confirmed_listed, confirmed_listed]; rfl
  | unconfirmed =>
      rw [unconfirmed_listed, unconfirmed_listed, laws.staged]
      apply and_congr_left
      intro unconfirmed
      constructor
      · intro floats
        rcases laws.unconfirmed wallet next.mempool apart txid (.inr floats) with
          before | ⟨-, unknown⟩
        · exact before.resolve_left unconfirmed
        · exact absurd (graph_of_ingested ingested same (laws.graph _ txid floats)) unknown
      · intro floats
        exact (laws.kept wallet next.mempool apart txid (.inr floats)).resolve_left unconfirmed

/-- What the next pass does when nothing has changed. -/
structure Idle (env : Environment) (wallet : Wallet) (pass : Pass)
    (result : SyncResult (List Change)) : Prop where
  blocks : result.blocksSynced = 0
  chain : (afterPass env wallet pass).localChain = wallet.localChain
  anchors : (afterPass env wallet pass).anchors = wallet.anchors
  transactions : ∀ entry, entry ∈ (afterPass env wallet pass).transactions env ↔
    entry ∈ wallet.transactions env

theorem idle_of_unchanged (laws : Canonicalizes env) (level : Level env node wallet)
    (unchanged : Unchanged node pass.node) (consistent : Consistent env.ledger pass.node)
    {result : SyncResult (List Change)} (ok : (syncPass env wallet pass).2 = .ok result) :
    Idle env wallet pass result := by
  have quiet := quiet_of_extends level.quiet (extends_of_unchanged unchanged)
  rcases drive_quiet laws consistent quiet with
    ⟨next, grows, ⟨cause, reached, drives, -, -⟩ | ⟨total, drives, still, stands⟩⟩
  · rw [syncPass, emitter_sync_of_drives drives] at ok
    simp at ok
  · obtain ⟨rfl, rfl⟩ := stands unchanged.tip.symm
    rcases finish_quiet laws consistent grows drives still with ⟨-, cause, failed⟩ | forward
    · rw [failed] at ok
      simp at ok
    · have synced := sync_forward forward
      have after : afterPass env next pass =
          (next.applyUnconfirmedTxs env pass.node.mempool).takeStaged.2 := by
        rw [afterPass, syncPass, synced]
        rfl
      rw [syncPass, synced] at ok
      obtain rfl := Except.ok.inj ok
      refine ⟨rfl, by rw [after]; rfl, by rw [after]; rfl, ?_⟩
      intro entry
      rw [after]
      exact transactions_of_ingested laws consistent still level.ingested unchanged.mempool entry

/-- What can follow: passes with a node that only grows, failed ones among them,
and addresses handed out. -/
inductive Onward (env : Environment) (node : Node) (wallet : Wallet) : Node → Wallet → Prop where
  | here : Onward env node wallet node wallet
  | synced {latest : Node} {later : Wallet} {pass : Pass}
      (before : Onward env node wallet latest later)
      (extending : Extends env.ledger latest pass.node)
      (consistent : Consistent env.ledger pass.node) :
      Onward env node wallet pass.node (afterPass env later pass)
  | revealed {latest : Node} {later : Wallet} {keychain : KeychainKind} {index : UInt32}
      (before : Onward env node wallet latest later)
      (watching : later.watched env ⊆ (later.revealAddressesTo keychain index).watched env) :
      Onward env node wallet latest (later.revealAddressesTo keychain index)

theorem quiet_of_onward (laws : Canonicalizes env) (level : Level env node wallet) {latest : Node}
    {later : Wallet} (onward : Onward env node wallet latest later) :
    ∃ tip, Quiet env latest later tip := by
  induction onward with
  | here => exact ⟨node.tip, level.quiet⟩
  | synced before extending consistent quiet =>
      rcases quiet with ⟨tip, quiet⟩
      exact (quiet_pass laws consistent (quiet_of_extends quiet extending)).after
  | revealed before watching quiet =>
      rcases quiet with ⟨tip, quiet⟩
      exact ⟨tip, quiet_revealed laws quiet watching⟩

/-- After a successful sync no later one rebuilds or reports an eviction while the
node only grows, and a pass with an unchanged node changes nothing. -/
theorem later_syncs_stay_quiet (laws : Canonicalizes env) (history : History env wallet)
    {result : SyncResult (List Change)} (ok : (syncPass env wallet pass).2 = .ok result) :
    (∀ latest later next, Onward env pass.node (afterPass env wallet pass) latest later →
      Extends env.ledger latest next.node → Consistent env.ledger next.node →
      (next.failsAt = none → ∃ result, (syncPass env later next).2 = .ok result) ∧
      ∀ result, (syncPass env later next).2 = .ok result →
        result.reorgRebuilt = false ∧ result.evictedTxids = []) ∧
    ∀ next result, Unchanged pass.node next.node → Consistent env.ledger next.node →
      (syncPass env (afterPass env wallet pass) next).2 = .ok result →
        Idle env (afterPass env wallet pass) next result := by
  have level := level_of_success laws history ok
  constructor
  · intro latest later next onward extending consistent
    rcases quiet_of_onward laws level onward with ⟨tip, quiet⟩
    have stays := quiet_pass laws consistent (quiet_of_extends quiet extending)
    exact ⟨stays.succeeds, stays.forward⟩
  · intro next result unchanged consistent synced
    exact idle_of_unchanged laws level unchanged consistent synced

end Passes

/-! ### A deposit that waits in the mempool -/

/-- A wallet library for which all of the graph is canonical, as it is while
nothing conflicts. -/
theorem canonicalizes_of_graph {env : Environment}
    (floats : ∀ wallet txid, txid ∈ env.floating wallet ↔ InGraph wallet txid)
    (staged : ∀ wallet, env.floating wallet.takeStaged.2 = env.floating wallet)
    (revealed : ∀ wallet keychain index,
      env.floating (wallet.revealAddressesTo keychain index) = env.floating wallet) :
    Canonicalizes env := by
  have canonical : ∀ wallet txid, Canonical env wallet txid ↔ InGraph wallet txid := by
    intro wallet txid
    rw [Canonical, floats]
    constructor
    · rintro (⟨entry, member, rfl, -⟩ | known)
      · exact .inr (List.mem_map_of_mem member)
      · exact known
    · exact .inr
  have seen : ∀ (wallet : Wallet) update txid,
      InGraph (wallet.applyUnconfirmedTxs env update) txid →
        InGraph wallet txid ∨ txid ∈ update.map Prod.fst := by
    rintro wallet update txid (seen | anchored)
    · rcases List.mem_map.mp seen with ⟨entry, member, rfl⟩
      rcases List.mem_append.mp member with new | old
      · exact .inr (List.mem_map_of_mem (List.mem_filter.mp new).1)
      · exact .inl (.inl (List.mem_map_of_mem old))
    · exact .inl (.inr anchored)
  refine ⟨fun wallet txid => (floats wallet txid).mp, staged, revealed, ?_, ?_, ?_⟩
  · intro wallet block height connectedTo next _ applied _ _ txid known
    rw [canonical] at known ⊢
    have applies := applies_block applied
    rcases known with old | anchored
    · rw [applies.seen] at old
      exact .inl (.inl old)
    · rcases List.mem_map.mp anchored with ⟨entry, member, rfl⟩
      rw [applies.anchors] at member
      rcases anchors_of_block member with old | ⟨-, listed⟩
      · exact .inl (.inr (List.mem_map_of_mem old))
      · exact .inr listed
  · intro wallet update _ txid known
    rw [canonical] at known ⊢
    by_cases before : InGraph wallet txid
    · exact .inl before
    · exact .inr ⟨(seen wallet update txid known).resolve_left before, before⟩
  · intro wallet update _ txid known
    rw [canonical] at known ⊢
    rcases known with old | anchored
    · rcases List.mem_map.mp old with ⟨entry, member, rfl⟩
      exact .inl (List.mem_map_of_mem (List.mem_append_right _ member))
    · exact .inr anchored

theorem fork_canonicalizes : Canonicalizes forkEnvironment := by
  apply canonicalizes_of_graph
  · intro wallet txid
    exact List.mem_append
  · intro wallet
    rfl
  · intro wallet keychain index
    cases keychain <;> rfl

theorem fork_consistent (node : Node) : Consistent forkLedger node := by
  constructor
  · intro txid _ input spent
    exact absurd spent List.not_mem_nil
  · intro left right _ _ outpoint spent
    exact absurd spent List.not_mem_nil

/-- The first pass confirms a deposit and finds another one waiting, which the
next two passes, with two more blocks, leave there. -/
theorem waiting_deposit_stays_quiet :
    (∃ result, (syncPass forkEnvironment (afterPass forkEnvironment
        (afterPass forkEnvironment newWallet (passAt 1 3 [(8, 0)])) (passAt 2 4 [(8, 1)]))
        (passAt 3 5 [(8, 2)])).2 = .ok result ∧
      result.reorgRebuilt = false ∧ result.evictedTxids = []) ∧
    ∃ result, (syncPass forkEnvironment (afterPass forkEnvironment newWallet (passAt 1 3 [(8, 0)]))
        (passAt 1 3 [(8, 1)])).2 = .ok result ∧
      Idle forkEnvironment (afterPass forkEnvironment newWallet (passAt 1 3 [(8, 0)]))
        (passAt 1 3 [(8, 1)]) result := by
  have history : History forkEnvironment newWallet := .created new_wallet_unsynced rfl
  have grows : ∀ {height higher : Nat} {hash tip : BlockHash} {time later : UInt64},
      Located.OnBranch forkLedger.prev (⟨height, hash⟩ : BlockId) ⟨higher, tip⟩ →
      Extends forkLedger (passAt height hash [(8, time)]).node
        (passAt higher tip [(8, later)]).node :=
    fun on => ⟨on, fun txid waiting => .inl waiting⟩
  rcases @later_syncs_stay_quiet forkEnvironment newWallet (passAt 1 3 [(8, 0)]) fork_canonicalizes
    history _ rfl with ⟨quiet, idle⟩
  have onward : Onward forkEnvironment (passAt 1 3 [(8, 0)]).node
      (afterPass forkEnvironment newWallet (passAt 1 3 [(8, 0)])) (passAt 2 4 [(8, 1)]).node _ :=
    .synced .here (grows (by decide)) (fork_consistent _)
  rcases quiet _ _ (passAt 3 5 [(8, 2)]) onward (grows (by decide)) (fork_consistent _) with
    ⟨succeeds, forward⟩
  rcases succeeds rfl with ⟨result, ok⟩
  rcases quiet _ _ (passAt 1 3 [(8, 1)]) .here (grows (by decide)) (fork_consistent _) with
    ⟨again, -⟩
  rcases again rfl with ⟨same, synced⟩
  exact ⟨⟨result, ok, forward result ok⟩, same, synced,
    idle _ same ⟨rfl, rfl⟩ (fork_consistent _) synced⟩

end EmvaultCore.QuietSync
