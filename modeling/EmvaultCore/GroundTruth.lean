import EmvaultCore.BestChain
import EmvaultCore.Library.Runs
import Mathlib.Tactic.Common

/-!
# Ground truth after a sync

A wallet that has been synced shows the transactions of the node's best chain
that concern its scripts. The argument keeps two records: every block of the
local chain is covered, which means that its relevant transactions are anchored
or that some anchor is on no chain with it, and the index knows the outputs of
what is anchored. The emitter skips one block when the chains part exactly two
blocks below the wallet's tip; then the skipped block must be covered already.
-/

namespace EmvaultCore.GroundTruth

open ChainSync Library

variable {env : Environment} {watched : List ScriptBuf} {genesis : BlockHash}

/-- Some anchor is on no chain with the block, or its relevant transactions are
anchored in it. -/
def Covered (ledger : Ledger) (watched : List ScriptBuf) (anchors : List (Txid × BlockId))
    (block : BlockId) : Prop :=
  (∃ entry ∈ anchors, ¬ Located.Compatible ledger.prev entry.2 block) ∨
    ∀ txid ∈ (ledger.block block.hash).txdata, concernsWatched ledger watched txid = true →
      (txid, block) ∈ anchors

instance {ledger : Ledger} {anchors : List (Txid × BlockId)} {block : BlockId} :
    Decidable (Covered ledger watched anchors block) :=
  inferInstanceAs (Decidable (_ ∨ _))

/-- A best chain that starts at the genesis block and whose transactions spend
outputs of earlier transactions of the chain. The genesis block pays nothing
that can be spent. -/
structure ValidNode (ledger : Ledger) (genesis : BlockHash) (node : Node) : Prop where
  starts : node.bestChain ledger 0 = genesis
  funded : ∀ height, 0 < height → height ≤ node.tip.height → ∀ earlier txid later,
    (ledger.block (node.bestChain ledger height)).txdata = earlier ++ txid :: later →
    ∀ input ∈ (ledger.tx txid).inputs, input.txid ∈ earlier ∨
      ∃ lower, 0 < lower ∧ lower < height ∧
        input.txid ∈ (ledger.block (node.bestChain ledger lower)).txdata

/-- The wallet's confirmed transactions are those of the best chain that concern
its scripts. -/
def ShowsBestChain (env : Environment) (watched : List ScriptBuf) (wallet : Wallet)
    (node : Node) : Prop :=
  ∀ txid, txid ∈ confirmedTxids (checkpointWallets env) wallet ↔
    concernsWatched env.ledger watched txid = true ∧
      ∃ height, 0 < height ∧ height ≤ node.tip.height ∧
        txid ∈ (env.ledger.block (node.bestChain env.ledger height)).txdata

/-- What every sync keeps of a wallet. -/
structure Tracks (env : Environment) (watched : List ScriptBuf) (genesis : BlockHash)
    (wallet : Wallet) (tip : BlockId) : Prop where
  watches : wallet.watched env = watched
  network : env.genesis wallet.network = genesis
  chain : wallet.localChain.blocks = Located.branch env.ledger.prev tip.height tip.hash
  starts : tip.ancestor env.ledger.prev 0 = genesis
  anchored : ∀ entry ∈ wallet.anchors, 0 < entry.2.height ∧
    entry.1 ∈ (env.ledger.block entry.2.hash).txdata ∧
      concernsWatched env.ledger watched entry.1 = true
  watchedOnly : ∀ outpoint ∈ wallet.index, isWatchedOutput env.ledger watched outpoint = true
  indexed : ∀ entry ∈ wallet.anchors, ∀ outpoint : OutPoint, outpoint.txid = entry.1 →
    isWatchedOutput env.ledger watched outpoint = true → outpoint ∈ wallet.index
  covered : ∀ block, Located.OnBranch env.ledger.prev block tip → 0 < block.height →
    Covered env.ledger watched wallet.anchors block

def NoOrphans (wallet : Wallet) : Prop :=
  ∀ entry ∈ wallet.anchors, entry.2 ∈ wallet.localChain.blocks

/-! ### The index and the anchors of one block -/

section Block

variable {ledger : Ledger} {block : BlockId} {txids : List Txid} {index : List OutPoint}
  {anchors : List (Txid × BlockId)}

theorem mem_watched_outputs {txid : Txid} {outpoint : OutPoint} :
    outpoint ∈ watchedOutputs ledger watched txid ↔
      outpoint.txid = txid ∧ isWatchedOutput ledger watched outpoint = true := by
  simp only [watchedOutputs, List.mem_filterMap, List.mem_finRange, true_and]
  constructor
  · rintro ⟨vout, found⟩
    split at found
    · obtain rfl := Option.some.inj found
      exact ⟨rfl, by assumption⟩
    · simp at found
  · rintro ⟨rfl, pays⟩
    have inside : outpoint.vout.val < 2 ^ 32 ⊓ (ledger.tx outpoint.txid).outputs.length := by
      have bound := outpoint.vout.isLt
      unfold isWatchedOutput at pays
      split at pays
      · rename_i script found
        have length := (List.getElem?_eq_some_iff.mp found).1
        omega
      · simp at pays
    exact ⟨⟨outpoint.vout.val, inside⟩, if_pos pays⟩

theorem pays_of_watched_output {outpoint : OutPoint}
    (pays : isWatchedOutput ledger watched outpoint = true) :
    concernsWatched ledger watched outpoint.txid = true := by
  unfold isWatchedOutput at pays
  split at pays
  · rename_i script found
    have among := List.mem_of_getElem? found
    have payment : paysWatched ledger watched outpoint.txid = true :=
      List.any_eq_true.mpr ⟨script, among, pays⟩
    rw [concernsWatched, payment, Bool.true_or]
  · simp at pays

theorem concerns_of_relevant (watchedOnly : ∀ outpoint ∈ index,
    isWatchedOutput ledger watched outpoint = true) {txid : Txid}
    (relevant : isTxRelevant ledger watched index txid = true) :
    concernsWatched ledger watched txid = true := by
  rw [isTxRelevant, Bool.or_eq_true] at relevant
  rw [concernsWatched, Bool.or_eq_true]
  rcases relevant with pays | spends
  · exact .inl pays
  · rcases List.any_eq_true.mp spends with ⟨input, among, known⟩
    exact .inr (List.any_eq_true.mpr ⟨input, among, watchedOnly input (of_decide_eq_true known)⟩)

structure Applied (ledger : Ledger) (watched : List ScriptBuf) (block : BlockId)
    (txids : List Txid) (index : List OutPoint) (anchors : List (Txid × BlockId))
    (result : List OutPoint × List (Txid × BlockId)) : Prop where
  keepsIndex : index ⊆ result.1
  keepsAnchors : anchors ⊆ result.2
  watchedOnly : (∀ outpoint ∈ index, isWatchedOutput ledger watched outpoint = true) →
    ∀ outpoint ∈ result.1, isWatchedOutput ledger watched outpoint = true
  indexes : ∀ txid ∈ txids, ∀ outpoint : OutPoint, outpoint.txid = txid →
    isWatchedOutput ledger watched outpoint = true → outpoint ∈ result.1
  newAnchors : (∀ outpoint ∈ index, isWatchedOutput ledger watched outpoint = true) →
    ∀ entry ∈ result.2, entry ∈ anchors ∨
      (entry.2 = block ∧ entry.1 ∈ txids ∧ concernsWatched ledger watched entry.1 = true)

theorem apply_block_relevant_cons {txid : Txid} :
    ∃ next, applyBlockRelevant ledger watched block (txid :: txids) index anchors =
        applyBlockRelevant ledger watched block txids
          (watchedOutputs ledger watched txid ++ index) next ∧
      anchors ⊆ next ∧ (∀ entry ∈ next, entry ∈ anchors ∨ (entry = (txid, block) ∧
        isTxRelevant ledger watched (watchedOutputs ledger watched txid ++ index) txid = true)) ∧
      (isTxRelevant ledger watched (watchedOutputs ledger watched txid ++ index) txid = true →
        (txid, block) ∈ next) := by
  rw [applyBlockRelevant]
  by_cases relevant :
      isTxRelevant ledger watched (watchedOutputs ledger watched txid ++ index) txid = true
  · refine ⟨(txid, block) :: anchors, if_pos relevant, List.subset_cons_self _ _, ?_,
      fun _ => List.mem_cons_self⟩
    intro entry member
    rcases List.mem_cons.mp member with rfl | old
    · exact .inr ⟨rfl, relevant⟩
    · exact .inl old
  · exact ⟨anchors, if_neg relevant, List.Subset.refl _, fun entry member => .inl member,
      fun found => absurd found relevant⟩

theorem apply_block_relevant_applied :
    Applied ledger watched block txids index anchors
      (applyBlockRelevant ledger watched block txids index anchors) := by
  induction txids generalizing index anchors with
  | nil =>
      exact ⟨List.Subset.refl _, List.Subset.refl _, id, by simp, fun _ entry member => .inl member⟩
  | cons txid txids ih =>
      have grown : (∀ outpoint ∈ index, isWatchedOutput ledger watched outpoint = true) →
          ∀ outpoint ∈ watchedOutputs ledger watched txid ++ index,
            isWatchedOutput ledger watched outpoint = true := by
        intro sound outpoint member
        rcases List.mem_append.mp member with new | old
        · exact (mem_watched_outputs.mp new).2
        · exact sound outpoint old
      rcases @apply_block_relevant_cons _ _ block txids index anchors txid with
        ⟨next, step, kept, added, -⟩
      rw [step]
      have later := @ih (watchedOutputs ledger watched txid ++ index) next
      constructor
      · exact List.Subset.trans (List.subset_append_right _ _) later.keepsIndex
      · exact List.Subset.trans kept later.keepsAnchors
      · exact fun sound => later.watchedOnly (grown sound)
      · intro other member outpoint same pays
        rcases List.mem_cons.mp member with rfl | after
        · exact later.keepsIndex (List.mem_append_left _ (mem_watched_outputs.mpr ⟨same, pays⟩))
        · exact later.indexes other after outpoint same pays
      · intro sound entry member
        rcases later.newAnchors (grown sound) entry member with old | new
        · rcases added entry old with older | ⟨rfl, relevant⟩
          · exact .inl older
          · exact .inr ⟨rfl, List.mem_cons_self, concerns_of_relevant (grown sound) relevant⟩
        · exact .inr ⟨new.1, List.mem_cons_of_mem _ new.2.1, new.2.2⟩

/-- When the funding of every watched input is earlier in the block or indexed,
all transactions that concern the wallet are anchored. -/
theorem apply_block_relevant_complete
    (funded : ∀ earlier txid later, txids = earlier ++ txid :: later →
      ∀ input ∈ (ledger.tx txid).inputs, isWatchedOutput ledger watched input = true →
        input.txid ∈ earlier ∨ input ∈ index) :
    ∀ txid ∈ txids, concernsWatched ledger watched txid = true →
      (txid, block) ∈ (applyBlockRelevant ledger watched block txids index anchors).2 := by
  induction txids generalizing index anchors with
  | nil => simp
  | cons head txids ih =>
      have later : ∀ anchors, ∀ txid ∈ txids, concernsWatched ledger watched txid = true →
          (txid, block) ∈ (applyBlockRelevant ledger watched block txids
            (watchedOutputs ledger watched head ++ index) anchors).2 := by
        intro anchors
        apply ih
        intro earlier txid after split input among pays
        rcases funded (head :: earlier) txid after (by rw [split]; rfl) input among pays with
          before | known
        · rcases List.mem_cons.mp before with same | further
          · exact .inr (List.mem_append_left _ (mem_watched_outputs.mpr ⟨same, pays⟩))
          · exact .inl further
        · exact .inr (List.mem_append_right _ known)
      intro txid member concerns
      rcases @apply_block_relevant_cons _ _ block txids index anchors head with
        ⟨next, step, -, -, anchored⟩
      rw [step]
      rcases List.mem_cons.mp member with rfl | after
      · have relevant : isTxRelevant ledger watched
            (watchedOutputs ledger watched txid ++ index) txid = true := by
          rw [concernsWatched, Bool.or_eq_true] at concerns
          rw [isTxRelevant, Bool.or_eq_true]
          rcases concerns with pays | spends
          · exact .inl pays
          · rcases List.any_eq_true.mp spends with ⟨input, among, pays⟩
            have known := (funded [] txid txids rfl input among pays).resolve_left (by simp)
            exact .inr (List.any_eq_true.mpr
              ⟨input, among, decide_eq_true (List.mem_append_right _ known)⟩)
        exact apply_block_relevant_applied.keepsAnchors (anchored relevant)
      · exact later next txid after concerns

end Block

/-! ### Applying a block of the best chain -/

section Apply

variable {wallet : Wallet} {node : Node} {tip : BlockId}

theorem covered_mono {ledger : Ledger} {fewer more : List (Txid × BlockId)} {block : BlockId}
    (kept : fewer ⊆ more) (covered : Covered ledger watched fewer block) :
    Covered ledger watched more block := by
  rcases covered with ⟨entry, member, conflict⟩ | all
  · exact .inl ⟨entry, kept member, conflict⟩
  · exact .inr fun txid listed concerns => kept (all txid listed concerns)

/-- A block is covered once it is applied over covered blocks: an anchor is on no
chain with it, or the funding of its watched inputs is indexed. -/
theorem covered_of_applied (tracks : Tracks env watched genesis wallet tip)
    (valid : ValidNode env.ledger genesis node) {height : Nat} (positive : 0 < height)
    (within : height ≤ node.tip.height)
    (covered : ∀ lower, 0 < lower → lower < height →
      Covered env.ledger watched wallet.anchors ⟨lower, node.bestChain env.ledger lower⟩) :
    Covered env.ledger watched (applyBlockRelevant env.ledger watched
        ⟨height, node.bestChain env.ledger height⟩
        (env.ledger.block (node.bestChain env.ledger height)).txdata wallet.index
        wallet.anchors).2 ⟨height, node.bestChain env.ledger height⟩ := by
  by_cases conflict : ∃ entry ∈ wallet.anchors, ¬ Located.Compatible env.ledger.prev
      entry.2 ⟨height, node.bestChain env.ledger height⟩
  · rcases conflict with ⟨entry, member, conflict⟩
    exact .inl ⟨entry, apply_block_relevant_applied.keepsAnchors member, conflict⟩
  · right
    apply apply_block_relevant_complete
    intro earlier txid later split input among pays
    rcases valid.funded height positive within earlier txid later split input among with
      before | ⟨deeper, deep, below, funding⟩
    · exact .inl before
    · right
      have under : Located.OnBranch env.ledger.prev
          (⟨deeper, node.bestChain env.ledger deeper⟩ : BlockId)
          ⟨height, node.bestChain env.ledger height⟩ :=
        Located.on_branch_of_le (Located.on_branch_ancestor (by omega))
          (Located.on_branch_ancestor within) (Nat.le_of_lt below)
      rcases covered deeper deep below with ⟨entry, member, apart⟩ | all
      · exact absurd ⟨entry, member, fun compatible => apart
          (Located.compatible_of_on_branch under compatible)⟩ conflict
      · exact tracks.indexed _ (all input.txid funding (pays_of_watched_output pays)) input rfl pays

theorem tracks_apply (tracks : Tracks env watched genesis wallet tip)
    (valid : ValidNode env.ledger genesis node) {height : Nat} (positive : 0 < height)
    (within : height ≤ node.tip.height) {connectedTo : BlockId} {joined : CheckPoint}
    (merged : applyHeaderConnectedTo env.ledger wallet.localChain
      (node.bestChain env.ledger height) height connectedTo = .ok joined)
    (chain : joined.blocks =
      Located.branch env.ledger.prev height (node.bestChain env.ledger height))
    (covered : ∀ lower, 0 < lower → lower < height →
      Covered env.ledger watched wallet.anchors ⟨lower, node.bestChain env.ledger lower⟩) :
    ∃ next, wallet.applyBlockConnectedTo env (node.bestChain env.ledger height) height
        connectedTo = .ok next ∧
      Tracks env watched genesis next ⟨height, node.bestChain env.ledger height⟩ ∧
      next.localChain = joined ∧
      ∀ entry ∈ next.anchors, entry ∈ wallet.anchors ∨
        entry.2 = ⟨height, node.bestChain env.ledger height⟩ := by
  rcases block_of_header merged with ⟨next, applied, rfl⟩
  have effect := applies_block applied
  have applies : Applied env.ledger watched ⟨height, node.bestChain env.ledger height⟩
      (env.ledger.block (node.bestChain env.ledger height)).txdata wallet.index wallet.anchors
      (next.index, next.anchors) := by
    rw [effect.index, effect.anchors, tracks.watches]
    exact apply_block_relevant_applied
  refine ⟨next, applied, ?_, rfl, ?_⟩
  · constructor
    · exact effect.watches.trans tracks.watches
    · exact (congrArg env.genesis effect.network).trans tracks.network
    · exact chain
    · exact (Located.ancestor_of_on_branch (Located.on_branch_ancestor within)
        (Nat.zero_le _)).symm.trans valid.starts
    · intro entry member
      rcases applies.newAnchors tracks.watchedOnly entry member with old | ⟨place, listed, concerns⟩
      · exact tracks.anchored entry old
      · rw [place]
        exact ⟨positive, listed, concerns⟩
    · exact applies.watchedOnly tracks.watchedOnly
    · intro entry member outpoint same pays
      rcases applies.newAnchors tracks.watchedOnly entry member with old | ⟨-, listed, -⟩
      · exact applies.keepsIndex (tracks.indexed entry old outpoint same pays)
      · exact applies.indexes entry.1 listed outpoint same pays
    · rintro ⟨lower, hash⟩ on above
      obtain rfl : node.bestChain env.ledger lower = hash :=
        (Located.ancestor_of_on_branch (Located.on_branch_ancestor within) on.1).trans on.2
      rcases Nat.lt_or_eq_of_le on.1 with strict | same
      · exact covered_mono applies.keepsAnchors (covered lower above strict)
      · obtain rfl : lower = height := same
        rw [effect.anchors, tracks.watches]
        exact covered_of_applied tracks valid above within covered
  · intro entry member
    rcases applies.newAnchors tracks.watchedOnly entry member with old | ⟨place, -, -⟩
    · exact .inl old
    · exact .inr place

theorem tracks_next (valid : ValidNode env.ledger genesis node) {height : Nat}
    (within : height + 1 ≤ node.tip.height)
    (tracks : Tracks env watched genesis wallet ⟨height, node.bestChain env.ledger height⟩) :
    ∃ next, wallet.applyBlockConnectedTo env (node.bestChain env.ledger (height + 1)) (height + 1)
        ⟨height, node.bestChain env.ledger height⟩ = .ok next ∧
      Tracks env watched genesis next ⟨height + 1, node.bestChain env.ledger (height + 1)⟩ ∧
      (NoOrphans wallet → NoOrphans next) := by
  rcases header_extends within tracks.chain with ⟨joined, merged, chain⟩
  have covered : ∀ lower, 0 < lower → lower < height + 1 →
      Covered env.ledger watched wallet.anchors ⟨lower, node.bestChain env.ledger lower⟩ := by
    intro lower above below
    apply tracks.covered _ _ above
    exact Located.on_branch_of_le (Located.on_branch_ancestor (by omega))
      (Located.on_branch_ancestor (by omega)) (Nat.le_of_lt_succ below)
  rcases tracks_apply tracks valid (Nat.succ_pos _) within merged chain covered with
    ⟨next, applied, tracked, local_, anchors⟩
  refine ⟨next, applied, tracked, ?_⟩
  intro orphanless entry member
  rw [local_, chain, branch_best_chain within, List.mem_cons]
  rcases anchors entry member with old | new
  · have listed := orphanless entry old
    rw [tracks.chain] at listed
    exact .inr listed
  · exact .inl new

theorem tracks_advances (valid : ValidNode env.ledger genesis node) :
    Advances env node fun height wallet =>
      Tracks env watched genesis wallet ⟨height, node.bestChain env.ledger height⟩ := by
  intro height wallet within tracks
  rcases tracks_next valid within tracks with ⟨next, applied, tracked, -⟩
  exact ⟨next, applied, tracked⟩

theorem orphanless_advances (valid : ValidNode env.ledger genesis node) :
    Advances env node fun height wallet => NoOrphans wallet ∧
      Tracks env watched genesis wallet ⟨height, node.bestChain env.ledger height⟩ := by
  rintro height wallet within ⟨orphanless, tracks⟩
  rcases tracks_next valid within tracks with ⟨next, applied, tracked, kept⟩
  exact ⟨next, applied, kept orphanless, tracked⟩

end Apply

/-! ### What a wallet shows -/

section Shows

variable {wallet : Wallet} {node : Node} {tip : BlockId}

theorem shows_of_tracks
    (tracks : Tracks env watched genesis wallet
      ⟨node.tip.height, node.bestChain env.ledger node.tip.height⟩)
    (orphanless : NoOrphans wallet) : ShowsBestChain env watched wallet node := by
  have listed : ∀ block : BlockId, block ∈ wallet.localChain.blocks ↔
      Located.OnBranch env.ledger.prev block node.tip := by
    intro block
    rw [tracks.chain, Located.mem_branch, best_chain_tip]
  intro txid
  rw [mem_confirmed_txids]
  constructor
  · rintro ⟨entry, member, rfl, onChain⟩
    have anchored := tracks.anchored entry member
    have on := (listed entry.2).mp onChain
    refine ⟨anchored.2.2, entry.2.height, anchored.1, on.1, ?_⟩
    rw [Node.bestChain, on.2]
    exact anchored.2.1
  · rintro ⟨concerns, height, positive, within, included⟩
    have on : Located.OnBranch env.ledger.prev
        (⟨height, node.bestChain env.ledger height⟩ : BlockId) node.tip :=
      Located.on_branch_ancestor within
    have covered := tracks.covered ⟨height, node.bestChain env.ledger height⟩
      (by rw [best_chain_tip]; exact on) positive
    rcases covered with ⟨entry, member, conflict⟩ | all
    · have anchoredOn := (listed entry.2).mp (orphanless entry member)
      exact absurd (Located.compatible_of_on_branch on (.inl anchoredOn)) conflict
    · exact ⟨_, all txid included concerns, rfl, (listed _).mpr on⟩

theorem orphanless_of_signal
    (quiet : hasOrphanedAnchor (checkpointWallets env) wallet = false) : NoOrphans wallet := by
  intro entry member
  have resolved := List.any_eq_false.mp quiet entry member
  simp only [checkpointWallets, decide_eq_true_eq, ne_eq, not_not, CheckPoint.get,
    Option.map_eq_some_iff] at resolved
  rcases resolved with ⟨block, found, same⟩
  have height : block.height = entry.2.height := by simpa using List.find?_some found
  rw [← Located.ext height same]
  exact List.mem_of_find?_eq_some found

theorem tracks_of_same (other : Wallet) (tracks : Tracks env watched genesis wallet tip)
    (watches : other.watched env = wallet.watched env) (network : other.network = wallet.network)
    (chain : other.localChain = wallet.localChain) (anchors : other.anchors = wallet.anchors)
    (grown : wallet.index ⊆ other.index)
    (sound : ∀ outpoint ∈ other.index, outpoint ∈ wallet.index ∨
      isWatchedOutput env.ledger watched outpoint = true) :
    Tracks env watched genesis other tip := by
  constructor
  · exact watches.trans tracks.watches
  · exact network ▸ tracks.network
  · exact chain ▸ tracks.chain
  · exact tracks.starts
  · exact anchors ▸ tracks.anchored
  · intro outpoint member
    rcases sound outpoint member with old | new
    · exact tracks.watchedOnly outpoint old
    · exact new
  · intro entry member outpoint same pays
    rw [anchors] at member
    exact grown (tracks.indexed entry member outpoint same pays)
  · exact anchors ▸ tracks.covered

theorem tracks_unconfirmed (tracks : Tracks env watched genesis wallet tip)
    (update : List (Txid × UInt64)) :
    Tracks env watched genesis (wallet.applyUnconfirmedTxs env update) tip := by
  apply tracks_of_same (wallet.applyUnconfirmedTxs env update) tracks rfl rfl rfl rfl
    (List.subset_append_right _ _)
  intro outpoint member
  rcases List.mem_append.mp member with new | old
  · rcases List.mem_flatMap.mp new with ⟨entry, -, paid⟩
    rw [tracks.watches] at paid
    exact .inr (mem_watched_outputs.mp paid).2
  · exact .inl old

theorem tracks_staged (tracks : Tracks env watched genesis wallet tip) :
    Tracks env watched genesis wallet.takeStaged.2 tip :=
  tracks_of_same wallet.takeStaged.2 tracks rfl rfl rfl rfl (List.Subset.refl _)
    fun _ member => .inl member

end Shows

/-! ### Rebuilding -/

section Rebuild

variable {wallet : Wallet} {tip : BlockId}

structure Unsynced (env : Environment) (wallet : Wallet) : Prop where
  chain : wallet.localChain.blocks = [⟨0, env.genesis wallet.network⟩]
  index : wallet.index = []
  anchors : wallet.anchors = []

theorem tracks_unsynced (unsynced : Unsynced env wallet) (watches : wallet.watched env = watched)
    (network : env.genesis wallet.network = genesis) :
    Tracks env watched genesis wallet ⟨0, genesis⟩ ∧ NoOrphans wallet := by
  constructor
  · constructor
    · exact watches
    · exact network
    · rw [unsynced.chain, network]
      rfl
    · rfl
    · simp [unsynced.anchors]
    · simp [unsynced.index]
    · simp [unsynced.anchors]
    · intro block on positive
      have level := on.1
      dsimp only at level
      omega
  · simp [NoOrphans, unsynced.anchors]

theorem fresh_wallet_unsynced {fresh : Wallet}
    (created : freshWallet (checkpointWallets env) wallet = .ok fresh) :
    Unsynced env fresh ∧ fresh.watched env = wallet.watched env ∧
      fresh.network = wallet.network := by
  obtain ⟨-, rfl⟩ := fresh_wallet_eq_ok.mp created
  exact ⟨⟨rfl, rfl, rfl⟩, rfl, rfl⟩

theorem rebuild_tracks {pass : Pass} (valid : ValidNode env.ledger genesis pass.node)
    (tracks : Tracks env watched genesis wallet tip) {before : TxidSet} {rebuilt : Wallet}
    {result : SyncResult (List Change)}
    (ok : rebuildOnReorg (checkpointWallets env) (pass.rpc env.ledger) wallet before =
      .ok (rebuilt, result)) :
    Tracks env watched genesis rebuilt
        ⟨pass.node.tip.height, pass.node.bestChain env.ledger pass.node.tip.height⟩ ∧
      NoOrphans rebuilt := by
  rcases rebuild_ok ok with ⟨fresh, driven, update, created, applied, ended, -, rfl, -⟩
  rcases fresh_wallet_unsynced created with ⟨unsynced, watches, network⟩
  have start := tracks_unsynced unsynced (watches.trans tracks.watches)
    ((congrArg env.genesis network).trans tracks.network)
  have height : fresh.localChain.height = 0 := checkpoint_height start.1.chain
  have onBest : Located.OnBranch env.ledger.prev (⟨0, genesis⟩ : BlockId) pass.node.tip :=
    ⟨Nat.zero_le _, valid.starts⟩
  have emits := emitter_from_best start.1.chain onBest
  rcases @failing_blocks _ _ _ _ _ _ pass.rebuildFailsAt _ emits with ⟨kept, blocks, -, whole, -⟩
  have same : (pass.rpc env.ledger).rebuildEmitter
      ((checkpointWallets env).latestCheckpoint fresh)
      ((checkpointWallets env).latestCheckpoint fresh).height =
        (pass.node.emitter env.ledger fresh.localChain 0).failingAt pass.rebuildFailsAt := by
    change (pass.node.emitter env.ledger fresh.localChain fresh.localChain.height).failingAt
      pass.rebuildFailsAt = _
    rw [height]
  rw [same] at applied ended
  rw [blocks, whole ended] at applied
  have begins : Tracks env watched genesis fresh ⟨0, pass.node.bestChain env.ledger 0⟩ := by
    rw [valid.starts]
    exact start.1
  rcases @fresh_advances env pass.node fresh _ (orphanless_advances valid) 0
    (pass.node.tip.height - 0) 0 (by omega) ⟨start.2, begins⟩ with
    ⟨last, count, follows, orphanless, tracked⟩
  have reached := applied.symm.trans follows
  obtain ⟨rfl, -⟩ := Prod.mk.inj (Except.ok.inj reached)
  rw [Nat.zero_add, Nat.sub_zero] at tracked
  exact ⟨tracks_staged (tracks_unconfirmed tracked update), orphanless⟩

theorem rebuild_shows {pass : Pass} (valid : ValidNode env.ledger genesis pass.node)
    (tracks : Tracks env watched genesis wallet tip) {before : TxidSet} {rebuilt : Wallet}
    {result : SyncResult (List Change)}
    (ok : rebuildOnReorg (checkpointWallets env) (pass.rpc env.ledger) wallet before =
      .ok (rebuilt, result)) :
    Tracks env watched genesis rebuilt
        ⟨pass.node.tip.height, pass.node.bestChain env.ledger pass.node.tip.height⟩ ∧
      ShowsBestChain env watched rebuilt pass.node := by
  have synced := rebuild_tracks valid tracks ok
  exact ⟨synced.1, shows_of_tracks synced.1 synced.2⟩

end Rebuild

/-! ### Passes and runs -/

section Passes

variable {wallet : Wallet} {tip : BlockId} {pass : Pass}

/-- The block the emitter leaves out: when the chains part exactly two blocks
below the wallet's tip, the first of the two blocks that replace them. -/
def skippedBlock (ledger : Ledger) (wallet : Wallet) (node : Node) : Option BlockId :=
  match wallet.localChain.blocks.find?
      (fun block => Located.OnBranch ledger.prev block node.tip) with
  | none => none
  | some agreement =>
      if agreement.height + 2 = wallet.localChain.height ∧
          wallet.localChain.height ≤ node.tip.height then
        some ⟨agreement.height + 1, node.bestChain ledger (agreement.height + 1)⟩
      else none

/-- The pass emits nothing, or a block it leaves out is covered. -/
def Careful (env : Environment) (watched : List ScriptBuf) (wallet : Wallet) (pass : Pass) :
    Prop :=
  pass.failsAt = some 0 ∨ ∀ block ∈ skippedBlock env.ledger wallet pass.node,
    Covered env.ledger watched wallet.anchors block

theorem covered_below_fork
    (tracks : Tracks env watched genesis wallet tip) {agreement : BlockId}
    (onTip : Located.OnBranch env.ledger.prev agreement tip)
    (onBest : Located.OnBranch env.ledger.prev agreement pass.node.tip)
    (close : tip.height ≤ agreement.height + 2)
    (skipped : tip.height = agreement.height + 2 → Covered env.ledger watched wallet.anchors
      ⟨agreement.height + 1, pass.node.bestChain env.ledger (agreement.height + 1)⟩) :
    ∀ lower, 0 < lower → lower < tip.height → Covered env.ledger watched wallet.anchors
      ⟨lower, pass.node.bestChain env.ledger lower⟩ := by
  intro lower positive below
  rcases Nat.lt_or_ge agreement.height lower with above | shared
  · obtain rfl : lower = agreement.height + 1 := by omega
    exact skipped (by omega)
  · apply tracks.covered _ _ positive
    have low : Located.OnBranch env.ledger.prev
        (⟨lower, pass.node.bestChain env.ledger lower⟩ : BlockId) pass.node.tip :=
      Located.on_branch_ancestor (shared.trans onBest.1)
    exact Located.on_branch_trans (Located.on_branch_of_le low onBest shared) onTip

/-- The block loop keeps the wallet tracked, and if it ends by itself the wallet
has the node's tip. -/
def Drives (env : Environment) (watched : List ScriptBuf) (genesis : BlockHash) (wallet : Wallet)
    (node : Node) (emitter : Emitter BlockHash Txid) : Prop :=
  ∃ next outcome, driveEmitter (checkpointWallets env) emitter.ended wallet 0 emitter.blocks =
      (next, outcome) ∧
    (∃ reached, Tracks env watched genesis next reached) ∧
    ∀ total, outcome = .finished total → Tracks env watched genesis next
      ⟨node.tip.height, node.bestChain env.ledger node.tip.height⟩

theorem drives_silent {emitter : Emitter BlockHash Txid}
    (tracks : Tracks env watched genesis wallet tip) (blocks : emitter.blocks = [])
    {reason : String} (ended : emitter.ended = .error reason) :
    Drives env watched genesis wallet pass.node emitter := by
  refine ⟨wallet, .failed (.rpc reason), ?_, ⟨tip, tracks⟩, by simp⟩
  rw [blocks, ended]
  rfl

theorem drives_follows (valid : ValidNode env.ledger genesis pass.node) {height kept synced : Nat}
    (within : height + kept ≤ pass.node.tip.height)
    (begins : Tracks env watched genesis wallet ⟨height, pass.node.bestChain env.ledger height⟩)
    {ended : Except String Unit}
    (whole : ended = .ok () → height + kept = pass.node.tip.height) :
    ∃ next outcome, driveEmitter (checkpointWallets env) ended wallet synced
        (pass.node.blocksFrom env.ledger kept (height + 1)
          ⟨height, pass.node.bestChain env.ledger height⟩) = (next, outcome) ∧
      (∃ reached, Tracks env watched genesis next reached) ∧
      ∀ total, outcome = .finished total → Tracks env watched genesis next
        ⟨pass.node.tip.height, pass.node.bestChain env.ledger pass.node.tip.height⟩ := by
  rcases @drive_advances env pass.node wallet _ (tracks_advances valid) ended height kept synced
    within begins with ⟨next, total, driven, follows⟩
  refine ⟨next, _, driven, ⟨_, follows⟩, ?_⟩
  intro count finished
  cases ended with
  | error cause => simp at finished
  | ok done =>
      rw [whole rfl] at follows
      exact follows

theorem drives_fork (valid : ValidNode env.ledger genesis pass.node)
    (tracks : Tracks env watched genesis wallet tip) {agreement : BlockId}
    (onTip : Located.OnBranch env.ledger.prev agreement tip)
    (onBest : Located.OnBranch env.ledger.prev agreement pass.node.tip)
    (parted : ∀ higher : BlockId, Located.OnBranch env.ledger.prev higher tip →
      agreement.height < higher.height →
        ¬ Located.OnBranch env.ledger.prev higher pass.node.tip)
    (below : agreement.height < tip.height) (within : tip.height ≤ pass.node.tip.height)
    {emitter : Emitter BlockHash Txid} {kept : Nat}
    (blocks : emitter.blocks = pass.node.blocksFrom env.ledger kept tip.height agreement)
    (bounded : kept ≤ pass.node.tip.height + 1 - tip.height)
    (whole : emitter.ended = .ok () → kept = pass.node.tip.height + 1 - tip.height)
    (skipped : kept ≠ 0 → tip.height = agreement.height + 2 → Covered env.ledger watched
      wallet.anchors ⟨agreement.height + 1,
        pass.node.bestChain env.ledger (agreement.height + 1)⟩) :
    Drives env watched genesis wallet pass.node emitter := by
  cases kept with
  | zero =>
      cases ended : emitter.ended with
      | error reason => exact drives_silent tracks blocks ended
      | ok done =>
          have none := whole ended
          omega
  | succ kept =>
      have named : agreement =
          ⟨agreement.height, pass.node.bestChain env.ledger agreement.height⟩ :=
        Located.ext rfl onBest.2.symm
      have apart : ∀ later, agreement.height < later → later ≤ tip.height →
          tip.ancestor env.ledger.prev later ≠ pass.node.bestChain env.ledger later := by
        intro later above bound same
        apply parted ⟨later, tip.ancestor env.ledger.prev later⟩
          (Located.on_branch_ancestor bound) above
        exact ⟨bound.trans within, same.symm⟩
      have joins := header_forks tracks.chain below within (onTip.2.trans onBest.2.symm) apart
      rw [← named] at joins
      rw [Drives, blocks, Node.blocksFrom, driveEmitter]
      rcases joins with ⟨close, joined, merged, chain⟩ | ⟨-, missing, refused⟩
      · have covered := covered_below_fork tracks onTip onBest close (skipped (by omega))
        rcases tracks_apply tracks valid (by omega) within merged chain covered with
          ⟨next, applied, tracked, -, -⟩
        have step : (checkpointWallets env).applyBlockConnectedTo wallet
            (pass.node.bestChain env.ledger tip.height) tip.height agreement = .ok next := applied
        simp only [step]
        apply drives_follows valid (by omega) tracked
        intro ended
        have all := whole ended
        omega
      · have step : (checkpointWallets env).applyBlockConnectedTo wallet
            (pass.node.bestChain env.ledger tip.height) tip.height agreement =
              .error (.cannotConnect missing) := by
          change wallet.applyBlockConnectedTo env _ _ _ = _
          rw [Wallet.applyBlockConnectedTo, refused]
          rfl
        simp only [step]
        exact ⟨wallet, .reorg, rfl, ⟨tip, tracks⟩, by simp⟩

theorem drive_tracks (valid : ValidNode env.ledger genesis pass.node)
    (tracks : Tracks env watched genesis wallet tip)
    (careful : Careful env watched wallet pass) :
    Drives env watched genesis wallet pass.node
      ((pass.node.emitter env.ledger wallet.localChain tip.height).failingAt pass.failsAt) := by
  have top : wallet.localChain.blocks.head? = some tip := by
    rw [tracks.chain, Located.head_branch]
  have sparse : Located.Sparse env.ledger.prev wallet.localChain.blocks := by
    rw [tracks.chain]
    exact Located.sparse_branch _ _
  rcases @node_emits env.ledger pass.node _ _ sparse top with
    ⟨cause, silent⟩ | ⟨on, follows⟩ | ⟨off, within, agreement, found, below, forks⟩
  · rcases @failing_silent _ _ pass.failsAt _ silent with ⟨blocks, reason, ended⟩
    exact drives_silent tracks blocks ended
  · rcases @failing_blocks _ _ _ _ _ _ pass.failsAt _ follows with ⟨kept, blocks, bounded, whole, -⟩
    have best : tip = ⟨tip.height, pass.node.bestChain env.ledger tip.height⟩ :=
      Located.ext rfl on.2.symm
    have begins := tracks
    rw [best] at begins blocks
    have bound := on.1
    rw [Drives, blocks]
    apply drives_follows valid (by omega) begins
    intro ended
    have all := whole ended
    omega
  · rcases @failing_blocks _ _ _ _ _ _ pass.failsAt _ forks with
      ⟨kept, blocks, bounded, whole, immediate⟩
    have search := found
    rw [tracks.chain] at search
    rcases Located.find_branch search with ⟨onTip, isBest, highest⟩
    have parted : ∀ higher : BlockId, Located.OnBranch env.ledger.prev higher tip →
        agreement.height < higher.height →
          ¬ Located.OnBranch env.ledger.prev higher pass.node.tip := by
      intro higher on above
      exact of_decide_eq_false (highest higher on above)
    apply drives_fork valid tracks onTip (of_decide_eq_true isBest) parted below within blocks
      bounded whole
    intro emitted gap
    rcases careful with first | covered
    · exact absurd (immediate first) emitted
    · apply covered
      have height := checkpoint_height tracks.chain
      have skips : agreement.height + 2 = wallet.localChain.height ∧
          wallet.localChain.height ≤ pass.node.tip.height := by omega
      simp only [skippedBlock, found, skips, and_self, if_true, Option.mem_def]

def Synced (env : Environment) (watched : List ScriptBuf) (genesis : BlockHash) (node : Node)
    (answer : Wallet × Except ChainSyncError (SyncResult (List Change))) : Prop :=
  (∃ reached, Tracks env watched genesis answer.1 reached) ∧
    ∀ result, answer.2 = .ok result → ShowsBestChain env watched answer.1 node

theorem replace_synced (valid : ValidNode env.ledger genesis pass.node)
    (tracks : Tracks env watched genesis wallet tip) (before : TxidSet) :
    Synced env watched genesis pass.node (replaceWallet wallet
      (rebuildOnReorg (checkpointWallets env) (pass.rpc env.ledger) wallet before)) := by
  constructor
  · apply replace_keeps (fun wallet => ∃ reached, Tracks env watched genesis wallet reached)
      ⟨tip, tracks⟩
    intro fresh result ok
    exact ⟨_, (rebuild_shows valid tracks ok).1⟩
  · intro result ok
    exact (rebuild_shows valid tracks (ok_of_replace ok)).2

theorem finish_synced (valid : ValidNode env.ledger genesis pass.node)
    (tracks : Tracks env watched genesis wallet
      ⟨pass.node.tip.height, pass.node.bestChain env.ledger pass.node.tip.height⟩)
    (emitter : Emitter BlockHash Txid) (before : TxidSet) (blocksSynced : Nat) :
    Synced env watched genesis pass.node (finishSync (checkpointWallets env)
      (pass.rpc env.ledger) emitter before blocksSynced wallet) := by
  simp only [finishSync]
  split
  · exact replace_synced valid tracks before
  · rename_i quiet
    rw [Bool.or_eq_true, not_or, Bool.not_eq_true, Bool.not_eq_true] at quiet
    have orphanless := orphanless_of_signal quiet.2
    split
    · exact ⟨⟨_, tracks⟩, by simp⟩
    · rename_i update answered
      have seen := tracks_unconfirmed tracks update
      split
      · exact replace_synced valid seen before
      · have staged := tracks_staged seen
        exact ⟨⟨_, staged⟩, fun result ok => shows_of_tracks staged orphanless⟩

theorem sync_pass_synced (valid : ValidNode env.ledger genesis pass.node)
    (tracks : Tracks env watched genesis wallet tip)
    (careful : Careful env watched wallet pass) :
    Synced env watched genesis pass.node (syncPass env wallet pass) := by
  rcases drive_tracks valid tracks careful with ⟨next, outcome, driven, ⟨reached, tracked⟩, done⟩
  have top : wallet.localChain.blocks.head? = some tip := by
    rw [tracks.chain, Located.head_branch]
  have drives : DrivesTo (checkpointWallets env) (pass.rpc env.ledger) wallet next outcome := by
    rw [DrivesTo, pass_emitter top]
    exact driven
  rw [syncPass, emitter_sync_of_drives drives]
  cases outcome with
  | finished total => exact finish_synced valid (done total rfl) _ _ _
  | reorg => exact replace_synced valid tracked _
  | failed cause => exact ⟨⟨reached, tracked⟩, by simp⟩

/-- After every successful pass of a careful run, the wallet's confirmed
transactions are those of the node's best chain that concern its scripts. -/
theorem synced_wallet_shows_best_chain {start : Wallet} {passes : List Pass}
    (unsynced : Unsynced env start)
    (valid : ∀ pass ∈ passes, ValidNode env.ledger (env.genesis start.network) pass.node)
    (careful : Runs.Along (afterPass env) (Careful env (start.watched env)) start passes)
    {moment : Nat} {result : SyncResult (List Change)} (given : passes[moment]? = some pass)
    (ok : (syncPass env (Runs.stateAt (afterPass env) start passes moment) pass).2 =
      .ok result) :
    ShowsBestChain env (start.watched env)
      (Runs.stateAt (afterPass env) start passes (moment + 1)) pass.node := by
  have initially := (tracks_unsynced unsynced rfl rfl).1
  have along := Runs.along_and careful valid
  have preserved : ∀ wallet pass, Careful env (start.watched env) wallet pass ∧
      ValidNode env.ledger (env.genesis start.network) pass.node →
      (∃ tip, Tracks env (start.watched env) (env.genesis start.network) wallet tip) →
      ∃ tip, Tracks env (start.watched env) (env.genesis start.network)
        (afterPass env wallet pass) tip := by
    rintro wallet pass ⟨careful, valid⟩ ⟨tip, tracks⟩
    exact (sync_pass_synced valid tracks careful).1
  rcases Runs.state_at_invariant preserved ⟨_, initially⟩ along moment with ⟨tip, tracks⟩
  rcases Runs.along_at along given with ⟨carefulHere, validHere⟩
  rw [Runs.state_at_succ given]
  exact (sync_pass_synced validHere tracks carefulHere).2 result ok

end Passes

/-! ### A deposit that a short fork hides -/

theorem new_wallet_unsynced : Unsynced forkEnvironment newWallet := ⟨rfl, rfl, rfl⟩

theorem valid_fork_node {height : Nat} {hash : BlockHash}
    {mempool : List (Txid × UInt64)}
    (starts : (passAt height hash mempool).node.bestChain forkLedger 0 = 0) :
    ValidNode forkLedger 0 (passAt height hash mempool).node := by
  refine ⟨starts, ?_⟩
  intro level _ _ earlier txid later _ input spent
  exact absurd spent List.not_mem_nil

/-- The fork parts one block below the wallet's tip, and the deposit is seen. -/
theorem fork_shows_deposit :
    ShowsBestChain forkEnvironment [depositScript]
      (Runs.stateAt (afterPass forkEnvironment) newWallet [passAt 1 1 [], passAt 3 5 []] 2)
      (passAt 3 5 []).node := by
  have careful : Runs.Along (afterPass forkEnvironment)
      (Careful forkEnvironment (newWallet.watched forkEnvironment)) newWallet
      [passAt 1 1 [], passAt 3 5 []] := by
    refine ⟨.inr ?_, .inr ?_, trivial⟩
    · have whole : skippedBlock forkLedger newWallet (passAt 1 1 []).node = none := rfl
      exact fun block skipped => absurd (whole.symm.trans skipped) (by simp)
    · have whole : skippedBlock forkLedger (afterPass forkEnvironment newWallet (passAt 1 1 []))
        (passAt 3 5 []).node = none := rfl
      exact fun block skipped => absurd (whole.symm.trans skipped) (by simp)
  have valid : ∀ pass ∈ [passAt 1 1 [], passAt 3 5 []], ValidNode forkEnvironment.ledger
      (forkEnvironment.genesis newWallet.network) pass.node := by
    intro pass member
    rcases List.mem_pair.mp member with rfl | rfl
    · exact valid_fork_node rfl
    · exact valid_fork_node rfl
  exact synced_wallet_shows_best_chain new_wallet_unsynced valid careful rfl rfl

/-- The fork parts two blocks below the wallet's tip. The block of the deposit is
left out, and the pass succeeds. -/
theorem short_fork_hides_deposit :
    Unsynced forkEnvironment newWallet ∧
      (∀ pass ∈ [passAt 2 2 [], passAt 3 5 []], ValidNode forkLedger 0 pass.node) ∧
      (∃ result, (syncPass forkEnvironment (Runs.stateAt (afterPass forkEnvironment) newWallet
        [passAt 2 2 [], passAt 3 5 []] 1) (passAt 3 5 [])).2 = .ok result) ∧
      ¬ ShowsBestChain forkEnvironment (newWallet.watched forkEnvironment)
        (Runs.stateAt (afterPass forkEnvironment) newWallet [passAt 2 2 [], passAt 3 5 []] 2)
        (passAt 3 5 []).node := by
  refine ⟨new_wallet_unsynced, ?_, ⟨_, rfl⟩, ?_⟩
  · intro pass member
    rcases List.mem_pair.mp member with rfl | rfl
    · exact valid_fork_node rfl
    · exact valid_fork_node rfl
  · intro shows
    have deposited := (shows 9).mpr ⟨rfl, 1, by decide, by decide, List.mem_cons_self⟩
    rcases mem_confirmed_txids.mp deposited with ⟨entry, member, -⟩
    exact absurd member List.not_mem_nil

end EmvaultCore.GroundTruth
