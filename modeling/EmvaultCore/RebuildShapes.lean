import EmvaultCore.SoundWallet

/-!
# Rebuilding wallets of each shape

A wallet has two keychains, or one descriptor that answers for both. A rebuild
creates its wallet from the two answers. The wallet library refuses two equal
descriptors, so a wallet of one descriptor is never rebuilt, whichever sign of a
reorg the pass has seen.
-/

namespace EmvaultCore.RebuildShapes

open ChainSync GroundTruth Library

/-- What a rebuild has to carry over. -/
structure Shape where
  external : Text
  internal : Text
  network : Network
  revealedExternal : Option UInt32
  revealedInternal : Option UInt32
deriving DecidableEq

def shape (wallet : Wallet) : Shape where
  external := wallet.external
  internal := wallet.internal
  network := wallet.network
  revealedExternal := wallet.revealedExternal
  revealedInternal := wallet.revealedInternal

section Rebuild

variable {env : Environment} {wallet found : Wallet} {node : Node} {pass : Pass}

theorem shape_keeps (env : Environment) (start : Wallet) :
    Keeps (checkpointWallets env) (fun _ => True) (fun wallet => shape wallet = shape start) := by
  constructor
  · intro wallet event next same _ applied
    have step : wallet.applyBlockConnectedTo env event.block event.blockHeight event.connectedTo =
        .ok next := applied
    simp only [Wallet.applyBlockConnectedTo, bind_eq_ok] at step
    rcases step with ⟨joined, -, made⟩
    obtain rfl := Except.ok.inj made
    exact same
  · intro wallet update same
    exact same
  · intro wallet same
    exact same
  · intro wallet fresh same created
    obtain ⟨-, rfl⟩ := fresh_wallet_eq_ok.mp created
    exact same

def Rooted (env : Environment) (wallet : Wallet) : Prop :=
  (⟨0, env.genesis wallet.network⟩ : BlockId) ∈ wallet.localChain.blocks

theorem mem_of_merge {original joined : CheckPoint} {update : List BlockId} {block : BlockId}
    (ok : mergeCheckpoints original update = .ok joined) (member : block ∈ original.blocks)
    (lowest : block.height = 0) : block ∈ joined.blocks := by
  rcases merge_blocks ok with ⟨agreement, -, ⟨-, rfl⟩ | blocks⟩
  · exact member
  · rw [blocks]
    apply List.mem_append_right
    rw [← @List.takeWhile_append_dropWhile _ (fun block => agreement.height < block.height)
      original.blocks, List.mem_append] at member
    rcases member with taken | kept
    · have above := List.mem_takeWhile_imp taken
      simp [lowest] at above
    · exact kept

theorem rooted_keeps (env : Environment) :
    Keeps (checkpointWallets env) (Honest env.ledger) (Rooted env) := by
  constructor
  · intro wallet event next rooted honest applied
    have applies := applies_block applied
    rcases header_merges applies.header honest with ⟨lower, -, merged⟩
    rw [Rooted, applies.network]
    exact mem_of_merge merged rooted rfl
  · intro wallet update rooted
    exact rooted
  · intro wallet rooted
    exact rooted
  · intro wallet fresh rooted created
    obtain ⟨-, rfl⟩ := fresh_wallet_eq_ok.mp created
    exact List.mem_cons_self

theorem rooted_of_history (history : History env wallet) : Rooted env wallet := by
  induction history with
  | created unsynced unseen =>
      rw [Rooted, unsynced.chain]
      exact List.mem_cons_self
  | synced before emits rooted => exact sync_keeps (rooted_keeps env) emits rooted
  | @revealed wallet keychain index before watching rooted =>
      cases keychain with
      | external => exact rooted
      | internal => exact rooted
  | broadcast before rooted => exact rooted

/-- A pass that sees a sign of a reorg has found a block of the wallet on the
node's best chain, so this chain starts where the wallet's does. -/
theorem starts_of_signal (history : History env wallet)
    (signal : Signal (checkpointWallets env) (pass.rpc env.ledger) wallet found) :
    Located.OnBranch env.ledger.prev (⟨0, env.genesis wallet.network⟩ : BlockId)
      pass.node.tip := by
  rcases signal_drives signal with ⟨driven, outcome, drives, unfailed⟩
  have rooted := rooted_of_history history
  have sparse := (sound_of_history history).chain
  cases top : wallet.localChain.blocks.head? with
  | none => exact absurd (List.head?_eq_none_iff.mp top) wallet.localChain.nonempty
  | some tip =>
      rcases @node_emits env.ledger pass.node _ _ sparse top with
        ⟨cause, silent⟩ | ⟨on, -⟩ | ⟨-, -, agreement, found, -, -⟩
      · rcases @failing_silent _ _ pass.failsAt _ silent with ⟨blocks, reason, ended⟩
        rw [DrivesTo, pass_emitter top, blocks, ended] at drives
        exact absurd (Prod.mk.inj drives).2.symm (unfailed _)
      · exact Located.on_branch_trans (Located.below_of_sparse sparse top rooted) on
      · have shared : Located.OnBranch env.ledger.prev agreement pass.node.tip := by
          simpa using List.find?_some found
        have below := Located.on_branch_of_sparse sparse rooted (List.mem_of_find?_eq_some found)
          (Nat.zero_le _)
        exact Located.on_branch_trans below shared

theorem rebuild_succeeds (different : wallet.external ≠ wallet.internal)
    (starts : Located.OnBranch env.ledger.prev (⟨0, env.genesis wallet.network⟩ : BlockId)
      pass.node.tip) (answers : pass.rebuildFailsAt = none) (before : TxidSet) :
    ∃ rebuilt result, rebuildOnReorg (checkpointWallets env) (pass.rpc env.ledger) wallet before =
      .ok (rebuilt, result) := by
  have emitter : (pass.rpc env.ledger).rebuildEmitter (wallet.renewed env).localChain
      (wallet.renewed env).localChain.height =
        ⟨pass.node.blocksFrom env.ledger (pass.node.tip.height - 0) (0 + 1)
          ⟨0, env.genesis wallet.network⟩, .ok (), .ok pass.node.mempool⟩ := by
    rw [Pass.rpc, answers]
    exact @emitter_from_top _ _ (wallet.renewed env).localChain _ rfl starts
  rcases @fresh_advances env pass.node (wallet.renewed env) _ (on_top_advances env pass.node) 0
    (pass.node.tip.height - 0) 0 (by omega) (clean_renewed wallet starts).onTop with
    ⟨driven, total, applied, -⟩
  have best : pass.node.bestChain env.ledger 0 = env.genesis wallet.network := starts.2
  rw [best] at applied
  apply rebuild_of_calls before (fresh_wallet_of_ne different)
  · exact (congrArg (applyFresh _ _ 0) (congrArg Emitter.blocks emitter)).trans applied
  · exact congrArg Emitter.ended emitter
  · exact congrArg Emitter.mempool emitter

/-- The pass ends with a rebuilt wallet of the same shape. -/
structure Recovers (env : Environment) (wallet : Wallet) (pass : Pass) : Prop where
  rebuilt : ∃ result, (syncPass env wallet pass).2 = .ok result ∧ result.reorgRebuilt = true
  shape : shape (afterPass env wallet pass) = shape wallet

/-- When a sign of a reorg shows and every call answers, the wallet is rebuilt if
it has two descriptors, and only then. -/
theorem recovers_iff (history : History env wallet)
    (signal : Signal (checkpointWallets env) (pass.rpc env.ledger) wallet found)
    (answers : pass.failsAt = none ∧ pass.rebuildFailsAt = none) :
    Recovers env wallet pass ↔ wallet.external ≠ wallet.internal := by
  have emits : Emits (pass.rpc env.ledger) fun _ => True :=
    ⟨fun _ _ _ _ => trivial, fun _ _ _ _ => trivial⟩
  have same : shape found = shape wallet := signal_keeps (shape_keeps env wallet) emits rfl signal
  have external : found.external = wallet.external := congrArg Shape.external same
  have internal : found.internal = wallet.internal := congrArg Shape.internal same
  have network : found.network = wallet.network := congrArg Shape.network same
  constructor
  · rintro ⟨⟨result, ok, -⟩, -⟩ equal
    have refused : freshWallet (checkpointWallets env) found = .error _ :=
      fresh_wallet_of_eq (external.trans (equal.trans internal.symm))
    rw [syncPass, sync_signal signal] at ok
    rcases rebuild_ok (ok_of_replace ok) with ⟨fresh, driven, update, created, -⟩
    rw [refused] at created
    simp at created
  · intro different
    have starts := starts_of_signal history signal
    rw [← network] at starts
    rw [← external, ← internal] at different
    rcases rebuild_succeeds different starts answers.2
      (confirmedTxids (checkpointWallets env) wallet) with ⟨rebuilt, result, ok⟩
    constructor
    · refine ⟨result, ?_, ?_⟩
      · rw [syncPass, sync_signal signal, ok]
        rfl
      · rcases rebuild_ok ok with ⟨fresh, driven, update, -, -, -, -, -, rebuilt⟩
        exact rebuilt
    · exact sync_keeps (shape_keeps env wallet) emits rfl

end Rebuild

/-! ### A wallet of one descriptor -/

/-- A wallet of one descriptor, which answers for both keychains. -/
def createSingle (env : Environment) (descriptor : Text) (network : Network)
    (revealed : Option UInt32) : Wallet where
  external := descriptor
  internal := descriptor
  network := network
  revealedExternal := revealed
  revealedInternal := revealed
  localChain := .new ⟨0, env.genesis network⟩
  index := []
  anchors := []
  seen := []
  staged := []

def singleWallet : Wallet := createSingle forkEnvironment ['e'] .regtest (some 0)

theorem history_after_pass {env : Environment} {wallet : Wallet} (history : History env wallet)
    (pass : Pass) : History env (afterPass env wallet pass) :=
  .synced history (pass_honest env.ledger pass)

/-- With two descriptors the wallet recovers when its deposit is reorged out. -/
theorem reorged_deposit_recovers :
    Recovers forkEnvironment (afterPass forkEnvironment newWallet (passAt 1 3 []))
      (passAt 2 2 []) := by
  have before : 9 ∈ confirmedTxids (checkpointWallets forkEnvironment)
      (afterPass forkEnvironment newWallet (passAt 1 3 [])) := by decide +kernel
  have history : History forkEnvironment newWallet := .created new_wallet_unsynced rfl
  have signal : ∃ found, Signal (checkpointWallets forkEnvironment)
      ((passAt 2 2 []).rpc forkEnvironment.ledger)
      (afterPass forkEnvironment newWallet (passAt 1 3 [])) found := by
    refine ⟨_, .demoted rfl before ?_⟩
    decide +kernel
  rcases signal with ⟨found, signal⟩
  apply (recovers_iff (history_after_pass history _) signal ⟨rfl, rfl⟩).mpr
  decide +kernel

/-- The same reorg leaves a wallet of one descriptor without its rebuild. -/
theorem single_descriptor_never_recovers :
    History forkEnvironment (afterPass forkEnvironment singleWallet (passAt 1 3 [])) ∧
      (∃ found, Signal (checkpointWallets forkEnvironment) ((passAt 2 2 []).rpc forkLedger)
        (afterPass forkEnvironment singleWallet (passAt 1 3 [])) found) ∧
      ((passAt 2 2 []).failsAt = none ∧ (passAt 2 2 []).rebuildFailsAt = none) ∧
      (syncPass forkEnvironment (afterPass forkEnvironment singleWallet (passAt 1 3 []))
        (passAt 2 2 [])).2 =
          .error (.rebuild "External and internal descriptors are the same") ∧
      ¬ Recovers forkEnvironment (afterPass forkEnvironment singleWallet (passAt 1 3 []))
        (passAt 2 2 []) := by
  have history : History forkEnvironment singleWallet := .created ⟨rfl, rfl, rfl⟩ rfl
  have before : 9 ∈ confirmedTxids (checkpointWallets forkEnvironment)
      (afterPass forkEnvironment singleWallet (passAt 1 3 [])) := by decide +kernel
  refine ⟨history_after_pass history _, ⟨_, .demoted rfl before ?_⟩, ⟨rfl, rfl⟩, rfl, ?_⟩
  · decide +kernel
  · rintro ⟨⟨result, ok, -⟩, -⟩
    cases ok

end EmvaultCore.RebuildShapes
