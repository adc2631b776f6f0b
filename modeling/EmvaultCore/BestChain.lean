import EmvaultCore.CheckpointWallet
import Mathlib.Tactic.Common

/-!
# Following a best chain

What the emitter of a node answers, and how the blocks of the best chain join a
local chain. When each next block applies, the block loop of a pass goes through
to its end.
-/

namespace EmvaultCore.ChainSync

open Library

/-! ### Joining a block to the local chain -/

section Merge

variable {ledger : Ledger} {node : Node} {original : CheckPoint} {update : List BlockId}
  {agreement next : BlockId}

theorem merge_ok (found : update.find? (· ∈ original.blocks) = some agreement)
    (above : update.filter (fun block => agreement.height < block.height) ≠ [])
    (replaced : ∀ next, (original.blocks.takeWhile
      (fun block => agreement.height < block.height)).getLast? = some next →
        (update.filter (fun block => agreement.height < block.height)).any
          (·.height = next.height) = true) :
    ∃ chain, mergeCheckpoints original update = .ok chain ∧
      chain.blocks = update.filter (fun block => agreement.height < block.height) ++
        original.blocks.dropWhile (fun block => agreement.height < block.height) := by
  simp only [mergeCheckpoints, found, above, dif_neg, not_false_eq_true]
  cases last : (original.blocks.takeWhile
      (fun block => agreement.height < block.height)).getLast? with
  | none => exact ⟨_, rfl, rfl⟩
  | some next =>
      simp only [replaced next last, if_true]
      exact ⟨_, rfl, rfl⟩

theorem merge_blocks {joined : CheckPoint} (ok : mergeCheckpoints original update = .ok joined) :
    ∃ agreement, update.find? (· ∈ original.blocks) = some agreement ∧
      ((update.filter (fun block => agreement.height < block.height) = [] ∧ joined = original) ∨
        joined.blocks = update.filter (fun block => agreement.height < block.height) ++
          original.blocks.dropWhile (fun block => agreement.height < block.height)) := by
  simp only [mergeCheckpoints] at ok
  cases found : update.find? (· ∈ original.blocks) with
  | none => simp [found] at ok
  | some agreement =>
      refine ⟨agreement, rfl, ?_⟩
      simp only [found] at ok
      split at ok
      · exact .inl ⟨by assumption, (Except.ok.inj ok).symm⟩
      · right
        split at ok
        · rw [← Except.ok.inj ok]
        · split at ok
          · rw [← Except.ok.inj ok]
          · simp at ok

theorem merge_cannot_connect (found : update.find? (· ∈ original.blocks) = some agreement)
    (above : update.filter (fun block => agreement.height < block.height) ≠ [])
    (last : (original.blocks.takeWhile
      (fun block => agreement.height < block.height)).getLast? = some next)
    (kept : (update.filter (fun block => agreement.height < block.height)).any
      (·.height = next.height) = false) :
    mergeCheckpoints original update = .error (.cannotConnect next.height) := by
  simp [mergeCheckpoints, found, above, last, kept]

theorem best_chain_tip (ledger : Ledger) (node : Node) :
    node.bestChain ledger node.tip.height = node.tip.hash :=
  Located.ancestor_self node.tip

theorem prev_best_chain {height : Nat} (within : height + 1 ≤ node.tip.height) :
    ledger.prev (node.bestChain ledger (height + 1)) = node.bestChain ledger height :=
  Located.prev_ancestor within

theorem branch_best_chain {height : Nat} (within : height + 1 ≤ node.tip.height) :
    Located.branch ledger.prev (height + 1) (node.bestChain ledger (height + 1)) =
      ⟨height + 1, node.bestChain ledger (height + 1)⟩ ::
        Located.branch ledger.prev height (node.bestChain ledger height) := by
  rw [Located.branch, prev_best_chain within]

theorem header_on_top {height : Nat} (within : height + 1 ≤ node.tip.height)
    (top : original.blocks.head? = some ⟨height, node.bestChain ledger height⟩)
    (highest : ∀ block ∈ original.blocks, block.height ≤ height) :
    ∃ longer, applyHeaderConnectedTo ledger original (node.bestChain ledger (height + 1))
        (height + 1) ⟨height, node.bestChain ledger height⟩ = .ok longer ∧
      longer.blocks = ⟨height + 1, node.bestChain ledger (height + 1)⟩ :: original.blocks := by
  have outside : (⟨height + 1, node.bestChain ledger (height + 1)⟩ : BlockId) ∉
      original.blocks := by
    intro member
    have bound := highest _ member
    dsimp only at bound
    omega
  have inside := List.mem_of_head? top
  have above : original.blocks.takeWhile (fun block => height < block.height) = [] := by
    cases blocks : original.blocks with
    | nil => rfl
    | cons head rest =>
        have low := highest head (by rw [blocks]; exact List.mem_cons_self)
        simp [low]
  have kept : original.blocks.dropWhile (fun block => height < block.height) =
      original.blocks := by
    have split := @List.takeWhile_append_dropWhile _ (fun block => height < block.height)
      original.blocks
    rwa [above, List.nil_append] at split
  have merged := @merge_ok original
    [⟨height + 1, node.bestChain ledger (height + 1)⟩, ⟨height, node.bestChain ledger height⟩]
    ⟨height, node.bestChain ledger height⟩ (by simp [outside, inside]) (by simp) (by simp [above])
  rcases merged with ⟨longer, ok, blocks⟩
  refine ⟨longer, ?_, ?_⟩
  · simpa [applyHeaderConnectedTo, prev_best_chain within] using ok
  · rw [blocks, kept]
    simp

theorem header_extends {height : Nat} (within : height + 1 ≤ node.tip.height)
    (chain : original.blocks =
      Located.branch ledger.prev height (node.bestChain ledger height)) :
    ∃ longer, applyHeaderConnectedTo ledger original (node.bestChain ledger (height + 1))
        (height + 1) ⟨height, node.bestChain ledger height⟩ = .ok longer ∧
      longer.blocks = Located.branch ledger.prev (height + 1)
        (node.bestChain ledger (height + 1)) := by
  rw [branch_best_chain within, ← chain]
  apply header_on_top within
  · rw [chain, Located.head_branch]
  · intro block member
    rw [chain] at member
    exact (Located.mem_branch.mp member).1

/-! The chains part above the height `agreed`. -/

section Fork

variable {height agreed : Nat} {hash : BlockHash}
  (chain : original.blocks = Located.branch ledger.prev height hash)
  (below : agreed < height) (within : height ≤ node.tip.height)
  (shared : (⟨height, hash⟩ : BlockId).ancestor ledger.prev agreed = node.bestChain ledger agreed)
  (parted : ∀ later, agreed < later → later ≤ height →
    (⟨height, hash⟩ : BlockId).ancestor ledger.prev later ≠ node.bestChain ledger later)

include chain

include parted in
theorem outside_of_fork {later : Nat} (above : agreed < later) (bound : later ≤ height) :
    (⟨later, node.bestChain ledger later⟩ : BlockId) ∉ original.blocks := by
  intro member
  rw [chain, Located.mem_branch] at member
  exact parted later above bound member.2

include below

include shared in
theorem inside_of_fork : (⟨agreed, node.bestChain ledger agreed⟩ : BlockId) ∈ original.blocks := by
  rw [chain, Located.mem_branch]
  exact ⟨Nat.le_of_lt below, shared⟩

theorem last_of_fork :
    (original.blocks.takeWhile (fun block => agreed < block.height)).getLast? =
      some ⟨agreed + 1, (⟨height, hash⟩ : BlockId).ancestor ledger.prev (agreed + 1)⟩ := by
  rw [chain, Located.last_above below]

include shared in
theorem kept_of_fork :
    original.blocks.dropWhile (fun block => agreed < block.height) =
      Located.branch ledger.prev agreed (node.bestChain ledger agreed) := by
  rw [chain, Located.drop_branch (Nat.le_of_lt below), shared]

include within shared parted

theorem header_forks_next (next : height = agreed + 1) :
    ∃ joined, applyHeaderConnectedTo ledger original (node.bestChain ledger height) height
        ⟨agreed, node.bestChain ledger agreed⟩ = .ok joined ∧
      joined.blocks = Located.branch ledger.prev height (node.bestChain ledger height) := by
  have inside := inside_of_fork chain below shared
  have last := last_of_fork chain below
  have kept := kept_of_fork chain below shared
  have top := outside_of_fork chain parted below (le_refl height)
  subst next
  have named : ledger.prev (node.bestChain ledger (agreed + 1)) = node.bestChain ledger agreed :=
    prev_best_chain within
  have merged := @merge_ok original
    [⟨agreed + 1, node.bestChain ledger (agreed + 1)⟩, ⟨agreed, node.bestChain ledger agreed⟩]
    ⟨agreed, node.bestChain ledger agreed⟩ (by simpa [inside] using top) (by simp) (by simp [last])
  rcases merged with ⟨joined, ok, blocks⟩
  refine ⟨joined, ?_, ?_⟩
  · simpa [applyHeaderConnectedTo, named] using ok
  · rw [blocks, kept, branch_best_chain within]
    simp

/-- A block further above joins with the block before it, if only that one is
between the fork and the wallet's tip. -/
theorem header_forks_above (above : agreed + 1 < height) :
    (height = agreed + 2 ∧ ∃ joined, applyHeaderConnectedTo ledger original
        (node.bestChain ledger height) height ⟨agreed, node.bestChain ledger agreed⟩ =
          .ok joined ∧
      joined.blocks = Located.branch ledger.prev height (node.bestChain ledger height)) ∨
    (agreed + 2 < height ∧ ∃ missing, applyHeaderConnectedTo ledger original
        (node.bestChain ledger height) height ⟨agreed, node.bestChain ledger agreed⟩ =
          .error (.cannotConnect missing)) := by
  have inside := inside_of_fork chain below shared
  have last := last_of_fork chain below
  have kept := kept_of_fork chain below shared
  have top := outside_of_fork chain parted below (le_refl height)
  obtain ⟨middle, rfl⟩ : ∃ middle, height = middle + 1 := ⟨height - 1, by omega⟩
  have apart : agreed < middle := Nat.lt_of_succ_lt_succ above
  have between := outside_of_fork chain parted apart (Nat.le_succ _)
  have named : ledger.prev (node.bestChain ledger (middle + 1)) = node.bestChain ledger middle :=
    prev_best_chain within
  have update : applyHeaderConnectedTo ledger original (node.bestChain ledger (middle + 1))
      (middle + 1) ⟨agreed, node.bestChain ledger agreed⟩ = mergeCheckpoints original
      [⟨middle + 1, node.bestChain ledger (middle + 1)⟩,
        ⟨middle, node.bestChain ledger middle⟩, ⟨agreed, node.bestChain ledger agreed⟩] := by
    have other : ¬ agreed = middle + 1 := by omega
    have lower : ¬ agreed = middle := by omega
    have early : ¬ middle ≤ agreed := by omega
    simp [applyHeaderConnectedTo, named, other, lower, early]
  have found : [⟨middle + 1, node.bestChain ledger (middle + 1)⟩,
      ⟨middle, node.bestChain ledger middle⟩,
      ⟨agreed, node.bestChain ledger agreed⟩].find? (· ∈ original.blocks) =
        some ⟨agreed, node.bestChain ledger agreed⟩ := by
    simp [top, between, inside]
  have new : [⟨middle + 1, node.bestChain ledger (middle + 1)⟩,
      ⟨middle, node.bestChain ledger middle⟩,
      (⟨agreed, node.bestChain ledger agreed⟩ : BlockId)].filter
        (fun block => agreed < block.height) =
      [⟨middle + 1, node.bestChain ledger (middle + 1)⟩,
        ⟨middle, node.bestChain ledger middle⟩] := by
    simp [apart, below]
  rw [update]
  rcases Nat.eq_or_lt_of_le (Nat.succ_le_of_lt apart) with rfl | far
  · left
    have merged := merge_ok found (by rw [new]; simp) (by simp [new, last])
    rcases merged with ⟨joined, ok, blocks⟩
    refine ⟨rfl, joined, ok, ?_⟩
    rw [blocks, new, kept, branch_best_chain within, branch_best_chain (by omega)]
    rfl
  · right
    refine ⟨by omega, _, merge_cannot_connect found (by rw [new]; simp) last ?_⟩
    have first : ¬ middle = agreed := by omega
    have second : ¬ middle = agreed + 1 := by omega
    rw [new]
    simp [first, second]

theorem header_forks :
    (height ≤ agreed + 2 ∧ ∃ joined, applyHeaderConnectedTo ledger original
        (node.bestChain ledger height) height ⟨agreed, node.bestChain ledger agreed⟩ =
          .ok joined ∧
      joined.blocks = Located.branch ledger.prev height (node.bestChain ledger height)) ∨
    (agreed + 2 < height ∧ ∃ missing, applyHeaderConnectedTo ledger original
        (node.bestChain ledger height) height ⟨agreed, node.bestChain ledger agreed⟩ =
          .error (.cannotConnect missing)) := by
  rcases Nat.eq_or_lt_of_le (Nat.succ_le_of_lt below) with next | above
  · exact .inl ⟨by omega, header_forks_next chain below within shared parted next.symm⟩
  · rcases header_forks_above chain below within shared parted above with ⟨two, joins⟩ | refused
    · exact .inl ⟨Nat.le_of_eq two, joins⟩
    · exact .inr refused

end Fork

end Merge

/-! ### What the emitter answers -/

section Emitter

variable {ledger : Ledger} {node : Node}

theorem length_blocks_from {count height : Nat} {connectedTo : BlockId} :
    (node.blocksFrom ledger count height connectedTo).length = count := by
  induction count generalizing height connectedTo with
  | zero => rfl
  | succ count ih => rw [Node.blocksFrom, List.length_cons, ih]

theorem take_blocks_from {count kept height : Nat} {connectedTo : BlockId} :
    (node.blocksFrom ledger count height connectedTo).take kept =
      node.blocksFrom ledger (min kept count) height connectedTo := by
  induction count generalizing kept height connectedTo with
  | zero => simp [Node.blocksFrom]
  | succ count ih =>
      cases kept with
      | zero => simp [Node.blocksFrom]
      | succ kept =>
          rw [Node.blocksFrom, List.take_succ_cons, ih, Nat.succ_min_succ, Node.blocksFrom]

theorem height_of_top {cp : CheckPoint} {tip : BlockId} (top : cp.blocks.head? = some tip) :
    cp.height = tip.height := by
  have head : cp.blocks.head cp.nonempty = tip := by
    rw [List.head?_eq_some_head cp.nonempty] at top
    exact Option.some.inj top
  rw [CheckPoint.height, head]

theorem checkpoint_height {ledger : Ledger} {cp : CheckPoint} {height : Nat} {hash : BlockHash}
    (chain : cp.blocks = Located.branch ledger.prev height hash) : cp.height = height := by
  have top : cp.blocks.head? = some ⟨height, hash⟩ := by rw [chain, Located.head_branch]
  exact height_of_top top

theorem failing_blocks {count height : Nat} {connectedTo : BlockId}
    {mempool : Except String (List (Txid × UInt64))} {failsAt : Option Nat}
    {emitter : Emitter BlockHash Txid}
    (emits : emitter = ⟨node.blocksFrom ledger count height connectedTo, .ok (), mempool⟩) :
    ∃ kept, (emitter.failingAt failsAt).blocks = node.blocksFrom ledger kept height connectedTo ∧
      kept ≤ count ∧ ((emitter.failingAt failsAt).ended = .ok () → kept = count) ∧
      (failsAt = some 0 → kept = 0) := by
  subst emits
  cases failsAt with
  | none => exact ⟨count, rfl, le_refl _, fun _ => rfl, by simp⟩
  | some request =>
      by_cases early : request ≤ count
      · refine ⟨request, ?_, early, ?_, by simp⟩
        · simp [Emitter.failingAt, length_blocks_from, early, take_blocks_from]
        · simp [Emitter.failingAt, length_blocks_from, early]
      · refine ⟨count, ?_, le_refl _, fun _ => rfl, ?_⟩
        · simp [Emitter.failingAt, length_blocks_from, early]
        · intro first
          have zero := Option.some.inj first
          omega

theorem emitter_from_top {cp : CheckPoint} {tip : BlockId} (top : cp.blocks.head? = some tip)
    (on : Located.OnBranch ledger.prev tip node.tip) :
    node.emitter ledger cp tip.height = ⟨node.blocksFrom ledger (node.tip.height - tip.height)
      (tip.height + 1) tip, .ok (), .ok node.mempool⟩ := by
  have found : cp.blocks.find? (fun block => Located.OnBranch ledger.prev block node.tip) =
      some tip := by
    cases blocks : cp.blocks with
    | nil => simp [blocks] at top
    | cons head rest =>
        obtain rfl : head = tip := by simpa [blocks] using top
        simp [on]
  have within : ¬ node.tip.height < tip.height := Nat.not_lt.mpr on.1
  have count : node.tip.height + 1 - (tip.height + 1) = node.tip.height - tip.height := by omega
  simp only [Node.emitter, found, lt_self_iff_false, if_false, within, count]

theorem emitter_from_best {cp : CheckPoint} {height : Nat} {hash : BlockHash}
    (chain : cp.blocks = Located.branch ledger.prev height hash)
    (on : Located.OnBranch ledger.prev (⟨height, hash⟩ : BlockId) node.tip) :
    node.emitter ledger cp height = ⟨node.blocksFrom ledger (node.tip.height - height)
      (height + 1) ⟨height, node.bestChain ledger height⟩, .ok (), .ok node.mempool⟩ := by
  have best : node.bestChain ledger height = hash := on.2
  rw [best]
  exact emitter_from_top (by rw [chain, Located.head_branch]) on

/-- The emitter follows a tip that is on the best chain. For another tip it
answers nothing, or it starts again at the height of the tip. -/
theorem node_emits {cp : CheckPoint} {tip : BlockId}
    (sparse : Located.Sparse ledger.prev cp.blocks) (top : cp.blocks.head? = some tip) :
    (∃ cause, node.emitter ledger cp tip.height = ⟨[], .error cause, .ok node.mempool⟩) ∨
    (Located.OnBranch ledger.prev tip node.tip ∧ node.emitter ledger cp tip.height =
      ⟨node.blocksFrom ledger (node.tip.height - tip.height) (tip.height + 1) tip, .ok (),
        .ok node.mempool⟩) ∨
    (¬ Located.OnBranch ledger.prev tip node.tip ∧ tip.height ≤ node.tip.height ∧ ∃ agreement,
      cp.blocks.find? (fun block => Located.OnBranch ledger.prev block node.tip) =
        some agreement ∧ agreement.height < tip.height ∧ node.emitter ledger cp tip.height =
          ⟨node.blocksFrom ledger (node.tip.height + 1 - tip.height) tip.height agreement, .ok (),
            .ok node.mempool⟩) := by
  by_cases on : Located.OnBranch ledger.prev tip node.tip
  · exact .inr (.inl ⟨on, emitter_from_top top on⟩)
  · cases found : cp.blocks.find? (fun block => Located.OnBranch ledger.prev block node.tip) with
    | none =>
        left
        exact ⟨"Block not found", by simp [Node.emitter, found]⟩
    | some agreement =>
        have member := List.mem_of_find?_eq_some found
        have shared : Located.OnBranch ledger.prev agreement node.tip := by
          simpa using List.find?_some found
        have below : agreement.height < tip.height := by
          apply Nat.lt_of_le_of_ne (Located.below_of_sparse sparse top member).1
          intro level
          obtain rfl := Located.eq_of_sparse sparse member (List.mem_of_head? top) level
          exact on shared
        by_cases short : node.tip.height < tip.height
        · left
          exact ⟨"Block height out of range", by simp [Node.emitter, found, short]⟩
        · right
          right
          refine ⟨on, Nat.le_of_not_lt short, agreement, rfl, below, ?_⟩
          simp only [Node.emitter, found, below, if_true, short, if_false]

theorem node_mempool (ledger : Ledger) (node : Node) (cp : CheckPoint) (startHeight : Nat) :
    (node.emitter ledger cp startHeight).mempool = .ok node.mempool := by
  simp only [Node.emitter]
  split
  · rfl
  · by_cases short : node.tip.height < startHeight
    · simp only [short, if_true]
    · simp only [short, if_false]

theorem mempool_of_node {cp : CheckPoint} {startHeight : Nat} {failsAt : Option Nat}
    {update : List (Txid × UInt64)}
    (answered : ((node.emitter ledger cp startHeight).failingAt failsAt).mempool = .ok update) :
    update = node.mempool := by
  have given : (node.emitter ledger cp startHeight).mempool = .ok update := by
    cases failsAt with
    | none => exact answered
    | some request =>
        rw [Emitter.failingAt] at answered
        split at answered
        · exact answered
        · simp at answered
  exact Except.ok.inj (given.symm.trans (node_mempool ledger node cp startHeight))

theorem failing_silent {cause : String} {mempool : Except String (List (Txid × UInt64))}
    {failsAt : Option Nat} {emitter : Emitter BlockHash Txid}
    (emits : emitter = ⟨[], .error cause, mempool⟩) :
    (emitter.failingAt failsAt).blocks = [] ∧
      ∃ reason, (emitter.failingAt failsAt).ended = .error reason := by
  subst emits
  cases failsAt with
  | none => exact ⟨rfl, cause, rfl⟩
  | some request =>
      rw [Emitter.failingAt]
      split
      · exact ⟨by simp, _, rfl⟩
      · exact ⟨rfl, cause, rfl⟩

end Emitter

theorem pass_emitter {env : Environment} {pass : Pass} {wallet : Wallet} {tip : BlockId}
    (top : wallet.localChain.blocks.head? = some tip) :
    passEmitter (checkpointWallets env) (pass.rpc env.ledger) wallet =
      (pass.node.emitter env.ledger wallet.localChain tip.height).failingAt pass.failsAt := by
  rw [← height_of_top top]
  rfl

/-! ### The block loop -/

section Advance

variable {env : Environment} {node : Node} {wallet : Wallet} {follows : Nat → Wallet → Prop}

def Advances (env : Environment) (node : Node) (follows : Nat → Wallet → Prop) : Prop :=
  ∀ height wallet, height + 1 ≤ node.tip.height → follows height wallet →
    ∃ next, wallet.applyBlockConnectedTo env (node.bestChain env.ledger (height + 1)) (height + 1)
        ⟨height, node.bestChain env.ledger height⟩ = .ok next ∧ follows (height + 1) next

theorem drive_advances (advances : Advances env node follows) {ended : Except String Unit}
    {height count blocksSynced : Nat} (within : height + count ≤ node.tip.height)
    (begins : follows height wallet) :
    ∃ next total, driveEmitter (checkpointWallets env) ended wallet blocksSynced
        (node.blocksFrom env.ledger count (height + 1) ⟨height, node.bestChain env.ledger height⟩) =
          (next, match ended with
            | .ok () => .finished total
            | .error cause => .failed (.rpc cause)) ∧
      follows (height + count) next := by
  induction count generalizing wallet height blocksSynced with
  | zero =>
      refine ⟨wallet, blocksSynced, ?_, begins⟩
      cases ended with
      | error cause => rfl
      | ok done => rfl
  | succ count ih =>
      rcases advances height wallet (by omega) begins with ⟨next, applied, continues⟩
      rcases @ih next (height + 1) (saturatingSucc blocksSynced) (by omega) continues with
        ⟨last, total, driven, arrives⟩
      rw [show height + 1 + count = height + (count + 1) by omega] at arrives
      refine ⟨last, total, ?_, arrives⟩
      rw [Node.blocksFrom, driveEmitter]
      have step : (checkpointWallets env).applyBlockConnectedTo wallet
          (node.bestChain env.ledger (height + 1)) (height + 1)
            ⟨height, node.bestChain env.ledger height⟩ = .ok next := applied
      simp only [step, driven]

theorem fresh_advances (advances : Advances env node follows)
    {height count blocksSynced : Nat} (within : height + count ≤ node.tip.height)
    (begins : follows height wallet) :
    ∃ next total, applyFresh (checkpointWallets env) wallet blocksSynced
        (node.blocksFrom env.ledger count (height + 1) ⟨height, node.bestChain env.ledger height⟩) =
          .ok (next, total) ∧ follows (height + count) next := by
  induction count generalizing wallet height blocksSynced with
  | zero => exact ⟨wallet, blocksSynced, rfl, begins⟩
  | succ count ih =>
      rcases advances height wallet (by omega) begins with ⟨next, applied, continues⟩
      rcases @ih next (height + 1) (saturatingSucc blocksSynced) (by omega) continues with
        ⟨last, total, driven, arrives⟩
      rw [show height + 1 + count = height + (count + 1) by omega] at arrives
      refine ⟨last, total, ?_, arrives⟩
      rw [Node.blocksFrom, applyFresh]
      have step : (checkpointWallets env).applyBlockConnectedTo wallet
          (node.bestChain env.ledger (height + 1)) (height + 1)
            ⟨height, node.bestChain env.ledger height⟩ = .ok next := applied
      simp only [step, driven]

end Advance

end EmvaultCore.ChainSync
