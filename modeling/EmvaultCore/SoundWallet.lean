import EmvaultCore.GroundTruth

/-!
# Sound wallets

What holds of a wallet however it came about: its checkpoints lie on one branch,
its anchors name blocks that hold the transaction, and what it took from a
mempool is relevant to it. Handing out addresses, broadcasting and any sync,
failed or not, leave it that way.
-/

namespace EmvaultCore.ChainSync

open Library GroundTruth

structure Sound (env : Environment) (wallet : Wallet) : Prop where
  chain : Located.Sparse env.ledger.prev wallet.localChain.blocks
  anchored : ∀ entry ∈ wallet.anchors, entry.1 ∈ (env.ledger.block entry.2.hash).txdata
  relevant : ∀ entry ∈ wallet.seen,
    isTxRelevant env.ledger (wallet.watched env) wallet.index entry.1 = true

/-- The block goes on from what it is said to be connected to. -/
def Honest (ledger : Ledger) (event : BlockEvent BlockHash) : Prop :=
  Located.OnBranch ledger.prev event.connectedTo ⟨event.blockHeight, event.block⟩

/-! ### The local chain -/

section Header

variable {ledger : Ledger} {original joined : CheckPoint} {block : BlockHash} {height : Nat}
  {connectedTo : BlockId} {update : List BlockId}

theorem sparse_merge (ok : mergeCheckpoints original update = .ok joined)
    (upper : Located.Sparse ledger.prev update)
    (lower : Located.Sparse ledger.prev original.blocks) :
    Located.Sparse ledger.prev joined.blocks := by
  rcases merge_blocks ok with ⟨agreement, found, ⟨-, rfl⟩ | blocks⟩
  · exact lower
  · rw [blocks]
    apply Located.sparse_join upper lower (List.mem_of_find?_eq_some found)
    simpa using List.find?_some found

theorem header_merges
    (ok : applyHeaderConnectedTo ledger original block height connectedTo = .ok joined)
    (honest : Located.OnBranch ledger.prev connectedTo ⟨height, block⟩) :
    ∃ lower, Located.Sparse ledger.prev (⟨height, block⟩ :: lower) ∧
      mergeCheckpoints original (⟨height, block⟩ :: lower) = .ok joined := by
  simp only [applyHeaderConnectedTo] at ok
  cases height with
  | zero =>
      simp only [if_true, List.not_mem_nil, or_false, Nat.zero_sub, Nat.zero_le] at ok
      split at ok
      · exact ⟨[], Located.sparse_singleton _, ok⟩
      · simp at ok
  | succ height =>
      have next := @Located.on_branch_prev _ ledger.prev height block
      simp only [Nat.succ_ne_zero, if_false, Nat.add_sub_cancel] at ok
      split at ok
      · refine ⟨_, ?_, ok⟩
        exact Located.sparse_cons (Nat.lt_succ_self height) next (Located.sparse_singleton _)
      · split at ok
        · simp at ok
        · rename_i below
          have deeper : connectedTo.height < height := Nat.lt_of_not_le below
          have under : Located.OnBranch ledger.prev connectedTo ⟨height, ledger.prev block⟩ :=
            Located.on_branch_of_le honest next (Nat.le_of_lt deeper)
          refine ⟨_, ?_, ok⟩
          apply Located.sparse_cons (Nat.lt_succ_self height) next
          exact Located.sparse_cons deeper under (Located.sparse_singleton _)

theorem top_of_header
    (ok : applyHeaderConnectedTo ledger original block height connectedTo = .ok joined)
    (honest : Located.OnBranch ledger.prev connectedTo ⟨height, block⟩)
    (outside : ⟨height, block⟩ ∉ original.blocks) :
    joined.blocks.head? = some ⟨height, block⟩ := by
  rcases header_merges ok honest with ⟨lower, sparse, merged⟩
  rcases merge_blocks merged with ⟨agreement, found, outcome⟩
  rw [List.find?_cons_of_neg (by simpa using outside)] at found
  have below := (List.rel_of_pairwise_cons sparse (List.mem_of_find?_eq_some found)).1
  rw [List.filter_cons_of_pos (by simpa using below)] at outcome
  rcases outcome with ⟨none, -⟩ | blocks
  · simp at none
  · rw [blocks]
    rfl

end Header

/-! ### The calls on a wallet -/

section Calls

variable {ledger : Ledger} {watched more : List ScriptBuf} {index grown : List OutPoint}
  {anchors : List (Txid × BlockId)} {block : BlockId} {txids : List Txid} {txid : Txid}
  {env : Environment} {wallet next : Wallet}

theorem relevant_mono (watching : watched ⊆ more) (known : index ⊆ grown)
    (relevant : isTxRelevant ledger watched index txid = true) :
    isTxRelevant ledger more grown txid = true := by
  simp only [isTxRelevant, paysWatched, Bool.or_eq_true, List.any_eq_true, decide_eq_true_eq]
    at relevant ⊢
  rcases relevant with ⟨script, paid, among⟩ | ⟨input, spent, among⟩
  · exact .inl ⟨script, paid, watching among⟩
  · exact .inr ⟨input, spent, known among⟩

theorem anchors_of_block {entry : Txid × BlockId}
    (member : entry ∈ (applyBlockRelevant ledger watched block txids index anchors).2) :
    entry ∈ anchors ∨ (entry.2 = block ∧ entry.1 ∈ txids) := by
  induction txids generalizing index anchors with
  | nil => exact .inl member
  | cons head txids ih =>
      rcases @apply_block_relevant_cons watched ledger block txids index anchors head with
        ⟨next, step, -, added, -⟩
      rw [step] at member
      rcases ih member with old | ⟨place, listed⟩
      · rcases added entry old with older | ⟨rfl, -⟩
        · exact .inl older
        · exact .inr ⟨rfl, List.mem_cons_self⟩
      · exact .inr ⟨place, List.mem_cons_of_mem _ listed⟩

theorem anchored_of_relevant (listed : txid ∈ txids)
    (relevant : isTxRelevant ledger watched index txid = true) :
    (txid, block) ∈ (applyBlockRelevant ledger watched block txids index anchors).2 := by
  induction txids generalizing index anchors with
  | nil => simp at listed
  | cons head txids ih =>
      have still : isTxRelevant ledger watched (watchedOutputs ledger watched head ++ index)
          txid = true :=
        relevant_mono (List.Subset.refl _) (List.subset_append_right _ _) relevant
      rcases @apply_block_relevant_cons watched ledger block txids index anchors head with
        ⟨next, step, -, -, anchored⟩
      rw [step]
      rcases List.mem_cons.mp listed with rfl | later
      · exact apply_block_relevant_applied.keepsAnchors (anchored still)
      · exact ih later still

theorem sound_block {event : BlockEvent BlockHash} (sound : Sound env wallet)
    (honest : Honest env.ledger event)
    (applies : AppliesBlock env wallet event.block event.blockHeight event.connectedTo next) :
    Sound env next := by
  constructor
  · rcases header_merges applies.header honest with ⟨lower, sparse, merged⟩
    exact sparse_merge merged sparse sound.chain
  · intro entry member
    rw [applies.anchors] at member
    rcases anchors_of_block member with old | ⟨place, listed⟩
    · exact sound.anchored entry old
    · rw [place]
      exact listed
  · intro entry member
    rw [applies.seen] at member
    rw [applies.watches]
    apply relevant_mono (List.Subset.refl _) _ (sound.relevant entry member)
    rw [applies.index]
    exact apply_block_relevant_applied.keepsIndex

theorem sound_unconfirmed (sound : Sound env wallet) (update : List (Txid × UInt64)) :
    Sound env (wallet.applyUnconfirmedTxs env update) := by
  refine ⟨sound.chain, sound.anchored, ?_⟩
  intro entry member
  rcases List.mem_append.mp member with new | old
  · exact (List.mem_filter.mp new).2
  · exact relevant_mono (List.Subset.refl _) (List.subset_append_right _ _)
      (sound.relevant entry old)

theorem sound_renewed (env : Environment) (wallet : Wallet) : Sound env (wallet.renewed env) :=
  ⟨Located.sparse_singleton _, by simp [Wallet.renewed], by simp [Wallet.renewed]⟩

theorem sound_keeps (env : Environment) :
    Keeps (checkpointWallets env) (Honest env.ledger) (Sound env) := by
  constructor
  · intro wallet event next sound honest applied
    exact sound_block sound honest (applies_block applied)
  · intro wallet update sound
    exact sound_unconfirmed sound update
  · intro wallet sound
    exact ⟨sound.chain, sound.anchored, sound.relevant⟩
  · intro wallet fresh sound created
    obtain ⟨-, rfl⟩ := fresh_wallet_eq_ok.mp created
    exact sound_renewed env wallet

end Calls

/-! ### Histories of a wallet -/

section History

variable {env : Environment} {wallet : Wallet} {node : Node} {pass : Pass}

/-- The wallets that come about: created, synced with any node that sends honest
blocks, given more addresses or shown what the app broadcasts. -/
inductive History (env : Environment) : Wallet → Prop where
  | created {wallet : Wallet} (unsynced : Unsynced env wallet) (unseen : wallet.seen = []) :
      History env wallet
  | synced {wallet : Wallet} {rpc : Rpc BlockHash Txid} (before : History env wallet)
      (emits : Emits rpc (Honest env.ledger)) :
      History env (emitterSync (checkpointWallets env) rpc wallet).1
  | revealed {wallet : Wallet} {keychain : KeychainKind} {index : UInt32}
      (before : History env wallet)
      (watching : wallet.watched env ⊆ (wallet.revealAddressesTo keychain index).watched env) :
      History env (wallet.revealAddressesTo keychain index)
  | broadcast {wallet : Wallet} {update : List (Txid × UInt64)} (before : History env wallet) :
      History env (wallet.applyUnconfirmedTxs env update)

theorem sound_unsynced (unsynced : Unsynced env wallet) (unseen : wallet.seen = []) :
    Sound env wallet := by
  refine ⟨?_, by simp [unsynced.anchors], by simp [unseen]⟩
  rw [unsynced.chain]
  exact Located.sparse_singleton _

theorem sound_revealed (sound : Sound env wallet) {keychain : KeychainKind} {index : UInt32}
    (watching : wallet.watched env ⊆ (wallet.revealAddressesTo keychain index).watched env) :
    Sound env (wallet.revealAddressesTo keychain index) := by
  have relevant : ∀ entry ∈ wallet.seen, isTxRelevant env.ledger
      ((wallet.revealAddressesTo keychain index).watched env) wallet.index entry.1 = true :=
    fun entry member => relevant_mono watching (List.Subset.refl _) (sound.relevant entry member)
  cases keychain with
  | external => exact ⟨sound.chain, sound.anchored, relevant⟩
  | internal => exact ⟨sound.chain, sound.anchored, relevant⟩

theorem sound_of_history (history : History env wallet) : Sound env wallet := by
  induction history with
  | created unsynced unseen => exact sound_unsynced unsynced unseen
  | synced before emits sound => exact sync_keeps (sound_keeps env) emits sound
  | revealed before watching sound => exact sound_revealed sound watching
  | broadcast before sound => exact sound_unconfirmed sound _

/-! ### A node is honest -/

theorem blocks_from_honest {ledger : Ledger} {count height : Nat} {connectedTo : BlockId}
    (within : height + count ≤ node.tip.height + 1)
    (connected : 0 < count →
      Located.OnBranch ledger.prev connectedTo ⟨height, node.bestChain ledger height⟩) :
    ∀ event ∈ node.blocksFrom ledger count height connectedTo, Honest ledger event := by
  induction count generalizing height connectedTo with
  | zero => simp [Node.blocksFrom]
  | succ count ih =>
      intro event member
      rcases List.mem_cons.mp member with rfl | later
      · exact connected (Nat.succ_pos count)
      · apply ih (by omega) _ event later
        intro more
        exact Located.on_branch_of_le (Located.on_branch_ancestor (by omega))
          (Located.on_branch_ancestor (by omega)) (Nat.le_succ height)

theorem emitter_honest (ledger : Ledger) (node : Node) (cp : CheckPoint) (startHeight : Nat) :
    ∀ event ∈ (node.emitter ledger cp startHeight).blocks, Honest ledger event := by
  rw [Node.emitter]
  split
  · simp
  · rename_i agreement found
    have on : Located.OnBranch ledger.prev agreement node.tip := by
      simpa using List.find?_some found
    have bound := on.1
    generalize above : (if agreement.height < startHeight then startHeight
      else agreement.height + 1) = next
    have higher : agreement.height < next := by
      split at above <;> omega
    dsimp only
    split
    · simp
    · apply blocks_from_honest (by split at above <;> omega)
      intro emitted
      have within : next ≤ node.tip.height := by omega
      exact Located.on_branch_of_le on (Located.on_branch_ancestor within) (Nat.le_of_lt higher)

theorem pass_honest (ledger : Ledger) (pass : Pass) :
    Emits (pass.rpc ledger) (Honest ledger) := by
  have fewer : ∀ (emitter : Emitter BlockHash Txid) failsAt,
      (emitter.failingAt failsAt).blocks ⊆ emitter.blocks := by
    intro emitter failsAt
    cases failsAt with
    | none => exact List.Subset.refl _
    | some request =>
        rw [Emitter.failingAt]
        split
        · exact List.take_subset _ _
        · exact List.Subset.refl _
  constructor
  · intro cp height event member
    exact emitter_honest ledger pass.node cp height event (fewer _ _ member)
  · intro cp height event member
    exact emitter_honest ledger pass.node cp height event (fewer _ _ member)

end History

/-! ### Sound wallets follow a best chain -/

section Follow

variable {env : Environment} {wallet next : Wallet} {node : Node} {tip : BlockId} {txid : Txid}

theorem next_block {height : Nat} (within : height + 1 ≤ node.tip.height)
    (sound : Sound env wallet)
    (top : wallet.localChain.blocks.head? = some ⟨height, node.bestChain env.ledger height⟩) :
    ∃ next, wallet.applyBlockConnectedTo env (node.bestChain env.ledger (height + 1)) (height + 1)
        ⟨height, node.bestChain env.ledger height⟩ = .ok next ∧ Sound env next ∧
      next.localChain.blocks =
        ⟨height + 1, node.bestChain env.ledger (height + 1)⟩ :: wallet.localChain.blocks := by
  have highest : ∀ block ∈ wallet.localChain.blocks, block.height ≤ height :=
    fun block member => (Located.below_of_sparse sound.chain top member).1
  rcases header_on_top within top highest with ⟨longer, header, blocks⟩
  rcases block_of_header header with ⟨next, applied, rfl⟩
  refine ⟨next, applied, ?_, blocks⟩
  have honest : Honest env.ledger ⟨node.bestChain env.ledger (height + 1), height + 1,
      ⟨height, node.bestChain env.ledger height⟩⟩ :=
    Located.on_branch_of_le (Located.on_branch_ancestor (by omega))
      (Located.on_branch_ancestor (by omega)) (Nat.le_succ height)
  exact (sound_keeps env).block wallet _ next sound honest applied

structure Grows (wallet next : Wallet) : Prop where
  chain : wallet.localChain.blocks ⊆ next.localChain.blocks
  anchors : wallet.anchors ⊆ next.anchors

theorem confirmed_of_grows (grows : Grows wallet next) (confirmed : wallet.Confirmed txid) :
    next.Confirmed txid := by
  rcases confirmed with ⟨entry, member, same, onChain⟩
  exact ⟨entry, grows.anchors member, same, grows.chain onChain⟩

section Growth

variable {block : BlockHash} {height : Nat} {connectedTo : BlockId}
  (applies : AppliesBlock env wallet block height connectedTo next)
  (blocks : next.localChain.blocks = ⟨height, block⟩ :: wallet.localChain.blocks)

include applies blocks

theorem grows_block : Grows wallet next := by
  constructor
  · rw [blocks]
    exact List.subset_cons_self _ _
  · rw [applies.anchors]
    exact apply_block_relevant_applied.keepsAnchors

theorem orphanless_block (orphanless : NoOrphans wallet) : NoOrphans next := by
  intro entry member
  rw [applies.anchors] at member
  rw [blocks]
  rcases anchors_of_block member with old | ⟨place, -⟩
  · exact List.mem_cons_of_mem _ (orphanless entry old)
  · rw [place]
    exact List.mem_cons_self

end Growth

/-- The wallet is sound and has this block of the best chain on top. -/
structure OnTop (env : Environment) (node : Node) (height : Nat) (wallet : Wallet) : Prop where
  sound : Sound env wallet
  top : wallet.localChain.blocks.head? = some ⟨height, node.bestChain env.ledger height⟩

theorem on_top_advances (env : Environment) (node : Node) :
    Advances env node (OnTop env node) := by
  rintro height wallet within ⟨sound, top⟩
  rcases next_block within sound top with ⟨next, applied, kept, blocks⟩
  exact ⟨next, applied, kept, by rw [blocks]; rfl⟩

/-- Where all blocks above a checkpoint of the best chain arrive, the tip does. -/
theorem on_top_arrives {node : Node} {height count total : Nat} {driven : Wallet}
    (within : height ≤ node.tip.height) (begins : OnTop env node height wallet)
    (drives : driveEmitter (checkpointWallets env) (.ok ()) wallet count
      (node.blocksFrom env.ledger (node.tip.height - height) (height + 1)
        ⟨height, node.bestChain env.ledger height⟩) = (driven, .finished total)) :
    OnTop env node node.tip.height driven := by
  rcases @drive_advances env node wallet _ (on_top_advances env node) (.ok ()) height
    (node.tip.height - height) count (by omega) begins with ⟨last, synced, answer, arrives⟩
  rw [answer] at drives
  obtain ⟨rfl, -⟩ := Prod.mk.inj drives
  rwa [Nat.add_sub_cancel' within] at arrives

theorem fork_arrives {node : Node} {tip agreement : BlockId} {total : Nat} {driven : Wallet}
    (sound : Sound env wallet) (top : wallet.localChain.blocks.head? = some tip)
    (off : ¬ Located.OnBranch env.ledger.prev tip node.tip) (within : tip.height ≤ node.tip.height)
    (shared : Located.OnBranch env.ledger.prev agreement node.tip)
    (below : agreement.height < tip.height)
    (drives : driveEmitter (checkpointWallets env) (.ok ()) wallet 0
      (node.blocksFrom env.ledger (node.tip.height - tip.height + 1) tip.height agreement) =
        (driven, .finished total)) :
    OnTop env node node.tip.height driven := by
  have outside : (⟨tip.height, node.bestChain env.ledger tip.height⟩ : BlockId) ∉
      wallet.localChain.blocks := by
    intro member
    have same := Located.eq_of_sparse sound.chain member (List.mem_of_head? top) rfl
    apply off
    rw [← same]
    exact Located.on_branch_ancestor within
  have honest : Honest env.ledger ⟨node.bestChain env.ledger tip.height, tip.height, agreement⟩ :=
    Located.on_branch_of_le shared (Located.on_branch_ancestor within) (Nat.le_of_lt below)
  rw [Node.blocksFrom, driveEmitter] at drives
  split at drives
  · rename_i first applied
    have kept := (sound_keeps env).block wallet _ first sound honest applied
    have begins := top_of_header (applies_block applied).header honest outside
    exact on_top_arrives within ⟨kept, begins⟩ drives
  · simp at drives
  · simp at drives

theorem drive_arrives {pass : Pass} {driven : Wallet} {blocksSynced : Nat}
    (sound : Sound env wallet)
    (drives : DrivesTo (checkpointWallets env) (pass.rpc env.ledger) wallet driven
      (.finished blocksSynced)) : OnTop env pass.node pass.node.tip.height driven := by
  cases top : wallet.localChain.blocks.head? with
  | none => exact absurd (List.head?_eq_none_iff.mp top) wallet.localChain.nonempty
  | some tip =>
      have ended := ended_of_finished drives
      rw [DrivesTo] at drives
      rw [pass_emitter top] at drives ended
      rcases @node_emits env.ledger pass.node _ _ sound.chain top with
        ⟨cause, silent⟩ | ⟨on, follows⟩ | ⟨off, within, agreement, found, below, forks⟩
      · rcases @failing_silent _ _ pass.failsAt _ silent with ⟨-, reason, failed⟩
        rw [failed] at ended
        simp at ended
      · rcases @failing_blocks _ _ _ _ _ _ pass.failsAt _ follows with ⟨kept, blocks, -, whole, -⟩
        have best : tip = ⟨tip.height, pass.node.bestChain env.ledger tip.height⟩ :=
          Located.ext rfl on.2.symm
        rw [blocks, whole ended, ended, best] at drives
        rw [best] at top
        exact on_top_arrives on.1 ⟨sound, top⟩ drives
      · rcases @failing_blocks _ _ _ _ _ _ pass.failsAt _ forks with ⟨kept, blocks, -, whole, -⟩
        have count : kept = (pass.node.tip.height - tip.height) + 1 := by
          have all := whole ended
          omega
        have shared : Located.OnBranch env.ledger.prev agreement pass.node.tip := by
          simpa using List.find?_some found
        rw [blocks, ended, count] at drives
        exact fork_arrives sound top off within shared below drives

/-! ### Sound wallets after a rebuild -/

/-- All that a rebuilt wallet knows comes from the best chain. -/
structure Clean (env : Environment) (node : Node) (height : Nat) (wallet : Wallet) : Prop where
  onTop : OnTop env node height wallet
  orphanless : NoOrphans wallet
  unseen : wallet.seen = []

theorem clean_advances (env : Environment) (node : Node) : Advances env node (Clean env node) := by
  rintro height wallet within ⟨⟨sound, top⟩, orphanless, unseen⟩
  rcases next_block within sound top with ⟨next, applied, kept, blocks⟩
  have applies := applies_block applied
  refine ⟨next, applied, ⟨kept, by rw [blocks]; rfl⟩,
    orphanless_block applies blocks orphanless, ?_⟩
  rw [applies.seen]
  exact unseen

theorem clean_renewed (wallet : Wallet)
    (on : Located.OnBranch env.ledger.prev (⟨0, env.genesis wallet.network⟩ : BlockId) node.tip) :
    Clean env node 0 (wallet.renewed env) := by
  have best : node.bestChain env.ledger 0 = env.genesis wallet.network := on.2
  refine ⟨⟨sound_renewed env wallet, ?_⟩, by simp [NoOrphans, Wallet.renewed], rfl⟩
  rw [best]
  rfl

theorem clean_of_rebuild {pass : Pass} {before : TxidSet} {rebuilt : Wallet}
    {result : SyncResult (List Change)}
    (ok : rebuildOnReorg (checkpointWallets env) (pass.rpc env.ledger) wallet before =
      .ok (rebuilt, result)) :
    ∃ driven, Clean env pass.node pass.node.tip.height driven ∧
      rebuilt = (driven.applyUnconfirmedTxs env pass.node.mempool).takeStaged.2 := by
  rcases rebuild_ok ok with ⟨fresh, driven, update, created, applied, ended, mempool, rfl, -⟩
  obtain ⟨-, rfl⟩ := fresh_wallet_eq_ok.mp created
  obtain rfl : update = pass.node.mempool := mempool_of_node mempool
  refine ⟨driven, ?_, rfl⟩
  have sparse : Located.Sparse env.ledger.prev (wallet.renewed env).localChain.blocks :=
    Located.sparse_singleton _
  rcases @node_emits env.ledger pass.node _ ⟨0, env.genesis wallet.network⟩ sparse rfl with
    ⟨cause, silent⟩ | ⟨on, follows⟩ | ⟨-, -, agreement, -, below, -⟩
  · rcases @failing_silent _ _ pass.rebuildFailsAt _ silent with ⟨-, reason, failed⟩
    have answered := ended.symm.trans failed
    simp at answered
  · rcases @failing_blocks _ _ _ _ _ _ pass.rebuildFailsAt _ follows with
      ⟨kept, blocks, -, whole, -⟩
    rw [whole ended] at blocks
    rcases @fresh_advances env pass.node (wallet.renewed env) _ (clean_advances env pass.node) 0
      (pass.node.tip.height - 0) 0 (by omega) (clean_renewed wallet on) with
      ⟨last, total, driven, arrives⟩
    have best : pass.node.bestChain env.ledger 0 = env.genesis wallet.network := on.2
    rw [best] at driven
    have reached := applied.symm.trans ((congrArg _ blocks).trans driven)
    obtain ⟨rfl, -⟩ := Prod.mk.inj (Except.ok.inj reached)
    rwa [Nat.zero_add, Nat.sub_zero] at arrives
  · exact absurd below (Nat.not_lt_zero _)

end Follow

end EmvaultCore.ChainSync
