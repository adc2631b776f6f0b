import EmvaultCore.Primitives
import EmvaultCore.Library.Ancestry
import Std.Data.ExtTreeSet

/-!
# Syncing a wallet with a node

`emitter_sync` drives an emitter of blocks against a wallet and rebuilds the
wallet from genesis when it sees a sign of a reorg. The wallet and the emitter
belong to other libraries: the wallet is given by the calls made on it, and the
emitter by what it answers to one pass.
-/

namespace EmvaultCore

abbrev BlockHash := Fin (2 ^ 256)

abbrev BlockId := Library.Located BlockHash

namespace ChainSync

/-- The checkpoints of a local chain from the tip down. -/
structure CheckPoint where
  blocks : List BlockId
  nonempty : blocks ≠ []

namespace CheckPoint

def new (block : BlockId) : CheckPoint := ⟨[block], by simp⟩

def height (cp : CheckPoint) : Nat := (cp.blocks.head cp.nonempty).height

def get (cp : CheckPoint) (height : Nat) : Option BlockId := cp.blocks.find? (·.height = height)

@[ext] theorem ext {left right : CheckPoint} (same : left.blocks = right.blocks) :
    left = right := by
  cases left
  cases right
  cases same
  rfl

end CheckPoint

inductive ApplyHeaderError where
  | inconsistentBlocks
  | cannotConnect (tryIncludeHeight : Nat)
deriving DecidableEq, Repr

inductive ChainPosition where
  | confirmed (anchor : BlockId)
  | unconfirmed
deriving DecidableEq

def ChainPosition.isConfirmed : ChainPosition → Bool
  | .confirmed _ => true
  | .unconfirmed => false

inductive KeychainKind where
  | external
  | internal
deriving DecidableEq, Repr

inductive ChainSyncError where
  | rpc (source : String)
  | applyBlock (height : Nat) (source : ApplyHeaderError)
  | rebuild (reason : String)
deriving DecidableEq, Repr

structure BlockEvent (Block : Type) where
  block : Block
  blockHeight : Nat
  connectedTo : BlockId

/-- What one emitter answers: the blocks of `next_block` and how they end, then
`mempool`. -/
structure Emitter (Block Tx : Type) where
  blocks : List (BlockEvent Block)
  ended : Except String Unit
  mempool : Except String (List (Tx × UInt64))

/-- A node during a pass, as `Emitter::new` meets it: the first emitter is made
from the wallet's checkpoint, the second one from that of a rebuilt wallet. -/
structure Rpc (Block Tx : Type) where
  emitter : CheckPoint → Nat → Emitter Block Tx
  rebuildEmitter : CheckPoint → Nat → Emitter Block Tx

/-- The calls made on a `bdk_wallet::Wallet`. -/
structure WalletLibrary (Wallet ChangeSet Descriptor Block Tx : Type) where
  latestCheckpoint : Wallet → CheckPoint
  transactions : Wallet → List (Txid × ChainPosition)
  allAnchors : Wallet → List (Txid × BlockId)
  applyBlockConnectedTo : Wallet → Block → Nat → BlockId → Except ApplyHeaderError Wallet
  applyUnconfirmedTxs : Wallet → List (Tx × UInt64) → Wallet
  takeStaged : Wallet → Option ChangeSet × Wallet
  publicDescriptor : Wallet → KeychainKind → Descriptor
  derivationIndex : Wallet → KeychainKind → Option UInt32
  network : Wallet → Network
  create : Descriptor → Descriptor → Network → Except String Wallet
  revealAddressesTo : Wallet → KeychainKind → UInt32 → Wallet
  computeTxid : Tx → Txid

structure SyncResult (ChangeSet : Type) where
  changeset : Option ChangeSet
  blocksSynced : Nat
  newMempoolTxs : Nat
  tipHeight : Nat
  evictedTxids : List Txid
  reorgRebuilt : Bool

abbrev TxidSet := Std.ExtTreeSet Txid compare

def u32Max : Nat := 2 ^ 32 - 1

def saturatingSucc (count : Nat) : Nat := min (count + 1) u32Max

/-- `u32::try_from(len).unwrap_or(u32::MAX)`. -/
def lengthU32 {Value : Type} (values : List Value) : Nat := min values.length u32Max

section Code

variable {Wallet ChangeSet Descriptor Block Tx : Type}
  (lib : WalletLibrary Wallet ChangeSet Descriptor Block Tx)

def confirmedTxids (wallet : Wallet) : TxidSet :=
  .ofList (((lib.transactions wallet).filter (·.2.isConfirmed)).map Prod.fst)

def canonicalTxids (wallet : Wallet) : TxidSet :=
  .ofList ((lib.transactions wallet).map Prod.fst)

def hasOrphanedAnchor (wallet : Wallet) : Bool :=
  (lib.allAnchors wallet).any fun entry =>
    decide (((lib.latestCheckpoint wallet).get entry.2.height).map (·.hash) ≠ some entry.2.hash)

def hasStaleUnconfirmed (wallet : Wallet) (mempoolTxids : TxidSet) : Bool :=
  (lib.transactions wallet).any fun entry =>
    !entry.2.isConfirmed && decide (entry.1 ∉ mempoolTxids)

/-- The block loop of a rebuild: a block that does not apply is an error. -/
def applyFresh : Wallet → Nat → List (BlockEvent Block) → Except ChainSyncError (Wallet × Nat)
  | fresh, blocksSynced, [] => .ok (fresh, blocksSynced)
  | fresh, blocksSynced, event :: events =>
      match lib.applyBlockConnectedTo fresh event.block event.blockHeight event.connectedTo with
      | .ok fresh => applyFresh fresh (saturatingSucc blocksSynced) events
      | .error source => .error (.applyBlock event.blockHeight source)

def freshWallet (wallet : Wallet) : Except ChainSyncError Wallet := do
  let ext := lib.publicDescriptor wallet .external
  let int := lib.publicDescriptor wallet .internal
  let fresh ← (lib.create ext int (lib.network wallet)).mapError .rebuild
  let fresh := match lib.derivationIndex wallet .external with
    | some index => lib.revealAddressesTo fresh .external index
    | none => fresh
  return match lib.derivationIndex wallet .internal with
    | some index => lib.revealAddressesTo fresh .internal index
    | none => fresh

/-- The wallet that replaces the caller's, and the result. -/
def rebuildOnReorg (rpc : Rpc Block Tx) (wallet : Wallet) (beforeConfirmed : TxidSet) :
    Except ChainSyncError (Wallet × SyncResult ChangeSet) := do
  let fresh ← freshWallet lib wallet
  let cp := lib.latestCheckpoint fresh
  let emitter := rpc.rebuildEmitter cp cp.height
  let (fresh, blocksSynced) ← applyFresh lib fresh 0 emitter.blocks
  emitter.ended.mapError .rpc
  let update ← emitter.mempool.mapError .rpc
  let fresh := lib.applyUnconfirmedTxs fresh update
  let afterAll := canonicalTxids lib fresh
  let evicted := beforeConfirmed.toList.filter (· ∉ afterAll)
  let (changeset, rebuilt) := lib.takeStaged fresh
  return (rebuilt, {
    changeset
    blocksSynced
    newMempoolTxs := lengthU32 update
    tipHeight := (lib.latestCheckpoint fresh).height
    evictedTxids := evicted.mergeSort (· ≤ ·)
    reorgRebuilt := true })

/-- `*wallet = fresh`, which a failed rebuild does not reach. -/
def replaceWallet (wallet : Wallet) :
    Except ChainSyncError (Wallet × SyncResult ChangeSet) →
      Wallet × Except ChainSyncError (SyncResult ChangeSet)
  | .ok (rebuilt, result) => (rebuilt, .ok result)
  | .error cause => (wallet, .error cause)

theorem ok_of_replace {wallet : Wallet}
    {rebuilt : Except ChainSyncError (Wallet × SyncResult ChangeSet)}
    {result : SyncResult ChangeSet} (ok : (replaceWallet wallet rebuilt).2 = .ok result) :
    rebuilt = .ok ((replaceWallet wallet rebuilt).1, result) := by
  cases rebuilt with
  | error cause => simp [replaceWallet] at ok
  | ok pair =>
      obtain rfl : pair.2 = result := by simpa [replaceWallet] using ok
      rfl

inductive Drive where
  | finished (blocksSynced : Nat)
  | reorg
  | failed (cause : ChainSyncError)

def driveEmitter (ended : Except String Unit) :
    Wallet → Nat → List (BlockEvent Block) → Wallet × Drive
  | wallet, blocksSynced, [] =>
      match ended with
      | .ok () => (wallet, .finished blocksSynced)
      | .error cause => (wallet, .failed (.rpc cause))
  | wallet, blocksSynced, event :: events =>
      match lib.applyBlockConnectedTo wallet event.block event.blockHeight event.connectedTo with
      | .ok wallet => driveEmitter ended wallet (saturatingSucc blocksSynced) events
      | .error (.cannotConnect _) => (wallet, .reorg)
      | .error .inconsistentBlocks =>
          (wallet, .failed (.applyBlock event.blockHeight .inconsistentBlocks))

/-- The part of a pass after its blocks are applied. -/
def finishSync (rpc : Rpc Block Tx) (emitter : Emitter Block Tx) (beforeConfirmed : TxidSet)
    (blocksSynced : Nat) (wallet : Wallet) :
    Wallet × Except ChainSyncError (SyncResult ChangeSet) :=
  let afterConfirmed := confirmedTxids lib wallet
  let demoted := beforeConfirmed.toList.any (· ∉ afterConfirmed)
  if demoted || hasOrphanedAnchor lib wallet then
    replaceWallet wallet (rebuildOnReorg lib rpc wallet beforeConfirmed)
  else match emitter.mempool with
    | .error cause => (wallet, .error (.rpc cause))
    | .ok update =>
        let mempoolTxids : TxidSet := .ofList (update.map fun entry => lib.computeTxid entry.1)
        let wallet := lib.applyUnconfirmedTxs wallet update
        if hasStaleUnconfirmed lib wallet mempoolTxids then
          replaceWallet wallet (rebuildOnReorg lib rpc wallet beforeConfirmed)
        else
          let (changeset, synced) := lib.takeStaged wallet
          (synced, .ok {
            changeset
            blocksSynced
            newMempoolTxs := lengthU32 update
            tipHeight := (lib.latestCheckpoint wallet).height
            evictedTxids := []
            reorgRebuilt := false })

/-- The wallet after the call, whether or not the call fails, and its answer. -/
def emitterSync (rpc : Rpc Block Tx) (wallet : Wallet) :
    Wallet × Except ChainSyncError (SyncResult ChangeSet) :=
  let beforeConfirmed := confirmedTxids lib wallet
  let cp := lib.latestCheckpoint wallet
  let emitter := rpc.emitter cp cp.height
  match driveEmitter lib emitter.ended wallet 0 emitter.blocks with
  | (wallet, .finished blocksSynced) =>
      finishSync lib rpc emitter beforeConfirmed blocksSynced wallet
  | (wallet, .reorg) => replaceWallet wallet (rebuildOnReorg lib rpc wallet beforeConfirmed)
  | (wallet, .failed cause) => (wallet, .error cause)

/-! ### How a sync ends -/

section Outcome

variable {lib : WalletLibrary Wallet ChangeSet Descriptor Block Tx} {rpc : Rpc Block Tx}
  {wallet driven : Wallet} {blocksSynced : Nat} {update : List (Tx × UInt64)}

variable (lib) in
def passEmitter (rpc : Rpc Block Tx) (wallet : Wallet) : Emitter Block Tx :=
  rpc.emitter (lib.latestCheckpoint wallet) (lib.latestCheckpoint wallet).height

variable (lib) in
def DrivesTo (rpc : Rpc Block Tx) (wallet driven : Wallet) (outcome : Drive) : Prop :=
  driveEmitter lib (passEmitter lib rpc wallet).ended wallet 0 (passEmitter lib rpc wallet).blocks =
    (driven, outcome)

variable (lib) in
structure Settled (wallet driven : Wallet) : Prop where
  confirmed : ∀ txid ∈ confirmedTxids lib wallet, txid ∈ confirmedTxids lib driven
  anchored : hasOrphanedAnchor lib driven = false

variable (lib) in
def staleAfter (wallet : Wallet) (update : List (Tx × UInt64)) : Bool :=
  hasStaleUnconfirmed lib (lib.applyUnconfirmedTxs wallet update)
    (.ofList (update.map fun entry => lib.computeTxid entry.1))

variable (lib) in
structure Forward (rpc : Rpc Block Tx) (wallet driven : Wallet) (blocksSynced : Nat)
    (update : List (Tx × UInt64)) : Prop where
  drives : DrivesTo lib rpc wallet driven (.finished blocksSynced)
  settled : Settled lib wallet driven
  mempool : (passEmitter lib rpc wallet).mempool = .ok update
  current : staleAfter lib driven update = false

variable (lib) in
/-- The four signs of a reorg, and the wallet in which each shows. -/
inductive Signal (rpc : Rpc Block Tx) (wallet : Wallet) : Wallet → Prop where
  | cannotConnect {found : Wallet} (drives : DrivesTo lib rpc wallet found .reorg) :
      Signal rpc wallet found
  | demoted {found : Wallet} {blocksSynced : Nat} {txid : Txid}
      (drives : DrivesTo lib rpc wallet found (.finished blocksSynced))
      (before : txid ∈ confirmedTxids lib wallet) (after : txid ∉ confirmedTxids lib found) :
      Signal rpc wallet found
  | orphaned {found : Wallet} {blocksSynced : Nat}
      (drives : DrivesTo lib rpc wallet found (.finished blocksSynced))
      (anchored : hasOrphanedAnchor lib found = true) : Signal rpc wallet found
  | stale {driven : Wallet} {blocksSynced : Nat} {update : List (Tx × UInt64)}
      (drives : DrivesTo lib rpc wallet driven (.finished blocksSynced))
      (settled : Settled lib wallet driven)
      (mempool : (passEmitter lib rpc wallet).mempool = .ok update)
      (stale : staleAfter lib driven update = true) :
      Signal rpc wallet (lib.applyUnconfirmedTxs driven update)

theorem emitter_sync_of_drives {outcome : Drive} (drives : DrivesTo lib rpc wallet driven outcome) :
    emitterSync lib rpc wallet = match outcome with
      | .finished blocksSynced => finishSync lib rpc (passEmitter lib rpc wallet)
          (confirmedTxids lib wallet) blocksSynced driven
      | .reorg => replaceWallet driven
          (rebuildOnReorg lib rpc driven (confirmedTxids lib wallet))
      | .failed cause => (driven, .error cause) := by
  rw [DrivesTo, passEmitter] at drives
  simp only [emitterSync, drives]
  cases outcome with
  | finished blocksSynced => rfl
  | reorg => rfl
  | failed cause => rfl

theorem ended_of_finished {ended : Except String Unit} {events : List (BlockEvent Block)}
    {count total : Nat}
    (drives : driveEmitter lib ended wallet count events = (driven, .finished total)) :
    ended = .ok () := by
  induction events generalizing wallet count with
  | nil =>
      cases ended with
      | ok done => rfl
      | error cause => simp [driveEmitter] at drives
  | cons event events ih =>
      rw [driveEmitter] at drives
      split at drives
      · exact ih drives
      · simp at drives
      · simp at drives

theorem settled_iff : Settled lib wallet driven ↔
    ((confirmedTxids lib wallet).toList.any (· ∉ confirmedTxids lib driven) ||
      hasOrphanedAnchor lib driven) = false := by
  rw [Bool.or_eq_false_iff, List.any_eq_false]
  constructor
  · intro settled
    refine ⟨?_, settled.anchored⟩
    intro txid listed
    have confirmed := settled.confirmed txid (Std.ExtTreeSet.mem_toList.mp listed)
    simpa using confirmed
  · rintro ⟨kept, anchored⟩
    refine ⟨?_, anchored⟩
    intro txid confirmed
    simpa using kept txid (Std.ExtTreeSet.mem_toList.mpr confirmed)

theorem finish_of_settled (emitter : Emitter Block Tx) (settled : Settled lib wallet driven) :
    finishSync lib rpc emitter (confirmedTxids lib wallet) blocksSynced driven =
      match emitter.mempool with
      | .error cause => (driven, .error (.rpc cause))
      | .ok update =>
          if staleAfter lib driven update then
            replaceWallet (lib.applyUnconfirmedTxs driven update) (rebuildOnReorg lib rpc
              (lib.applyUnconfirmedTxs driven update) (confirmedTxids lib wallet))
          else
            ((lib.takeStaged (lib.applyUnconfirmedTxs driven update)).2, .ok {
              changeset := (lib.takeStaged (lib.applyUnconfirmedTxs driven update)).1
              blocksSynced
              newMempoolTxs := lengthU32 update
              tipHeight := (lib.latestCheckpoint (lib.applyUnconfirmedTxs driven update)).height
              evictedTxids := []
              reorgRebuilt := false }) := by
  have quiet := settled_iff.mp settled
  simp only [finishSync, quiet, Bool.false_eq_true, if_false]
  rfl

theorem finish_of_unsettled (emitter : Emitter Block Tx) (unsettled : ¬ Settled lib wallet driven) :
    finishSync lib rpc emitter (confirmedTxids lib wallet) blocksSynced driven =
      replaceWallet driven (rebuildOnReorg lib rpc driven (confirmedTxids lib wallet)) := by
  rw [settled_iff, Bool.not_eq_false] at unsettled
  simp only [finishSync, unsettled, if_true]

theorem sync_forward (forward : Forward lib rpc wallet driven blocksSynced update) :
    emitterSync lib rpc wallet =
      ((lib.takeStaged (lib.applyUnconfirmedTxs driven update)).2, .ok {
        changeset := (lib.takeStaged (lib.applyUnconfirmedTxs driven update)).1
        blocksSynced
        newMempoolTxs := lengthU32 update
        tipHeight := (lib.latestCheckpoint (lib.applyUnconfirmedTxs driven update)).height
        evictedTxids := []
        reorgRebuilt := false }) := by
  rw [emitter_sync_of_drives forward.drives]
  dsimp only
  rw [finish_of_settled _ forward.settled, forward.mempool]
  simp only [forward.current, Bool.false_eq_true, if_false]

theorem signal_drives {found : Wallet} (signal : Signal lib rpc wallet found) :
    ∃ driven outcome, DrivesTo lib rpc wallet driven outcome ∧
      ∀ cause, outcome ≠ .failed cause := by
  cases signal with
  | cannotConnect drives => exact ⟨_, _, drives, by simp⟩
  | demoted drives before after => exact ⟨_, _, drives, by simp⟩
  | orphaned drives anchored => exact ⟨_, _, drives, by simp⟩
  | stale drives settled mempool stale => exact ⟨_, _, drives, by simp⟩

theorem sync_signal {found : Wallet} (signal : Signal lib rpc wallet found) :
    emitterSync lib rpc wallet =
      replaceWallet found (rebuildOnReorg lib rpc found (confirmedTxids lib wallet)) := by
  cases signal with
  | cannotConnect drives => exact emitter_sync_of_drives drives
  | demoted drives before after =>
      rw [emitter_sync_of_drives drives]
      exact finish_of_unsettled _ fun settled => after (settled.confirmed _ before)
  | orphaned drives anchored =>
      rw [emitter_sync_of_drives drives]
      apply finish_of_unsettled
      intro settled
      rw [settled.anchored] at anchored
      simp at anchored
  | stale drives settled mempool stale =>
      rw [emitter_sync_of_drives drives]
      dsimp only
      rw [finish_of_settled _ settled, mempool]
      simp only [stale, if_true]

/-- A pass that succeeds went forward, or it shows a sign of a reorg. -/
theorem sync_ok {result : SyncResult ChangeSet} (ok : (emitterSync lib rpc wallet).2 = .ok result) :
    (∃ driven blocksSynced update, Forward lib rpc wallet driven blocksSynced update) ∨
      ∃ found, Signal lib rpc wallet found := by
  generalize driven : driveEmitter lib (passEmitter lib rpc wallet).ended wallet 0
    (passEmitter lib rpc wallet).blocks = reached
  rcases reached with ⟨next, outcome⟩
  have drives : DrivesTo lib rpc wallet next outcome := driven
  rw [emitter_sync_of_drives drives] at ok
  cases outcome with
  | reorg => exact .inr ⟨next, .cannotConnect drives⟩
  | failed cause => simp at ok
  | finished blocksSynced =>
      by_cases settled : Settled lib wallet next
      · dsimp only at ok
        rw [finish_of_settled _ settled] at ok
        cases mempool : (passEmitter lib rpc wallet).mempool with
        | error cause => simp [mempool] at ok
        | ok update =>
            cases stale : staleAfter lib next update with
            | true => exact .inr ⟨_, .stale drives settled mempool stale⟩
            | false => exact .inl ⟨next, blocksSynced, update, drives, settled, mempool, stale⟩
      · right
        by_cases anchored : hasOrphanedAnchor lib next = true
        · exact ⟨next, .orphaned drives anchored⟩
        · rw [Bool.not_eq_true] at anchored
          have lost : ∃ txid ∈ confirmedTxids lib wallet, txid ∉ confirmedTxids lib next := by
            by_contra kept
            simp only [not_exists, not_and, not_not] at kept
            exact settled ⟨kept, anchored⟩
          rcases lost with ⟨txid, before, after⟩
          exact ⟨next, .demoted drives before after⟩

end Outcome

/-! ### What a sync keeps -/

section Keeps

variable {lib : WalletLibrary Wallet ChangeSet Descriptor Block Tx} {rpc : Rpc Block Tx}
  {wallet fresh next : Wallet} {allowed : BlockEvent Block → Prop} {property : Wallet → Prop}
  {events : List (BlockEvent Block)}

variable (lib) in
structure Keeps (allowed : BlockEvent Block → Prop) (property : Wallet → Prop) : Prop where
  block : ∀ wallet event next, property wallet → allowed event →
    lib.applyBlockConnectedTo wallet event.block event.blockHeight event.connectedTo = .ok next →
      property next
  unconfirmed : ∀ wallet update, property wallet → property (lib.applyUnconfirmedTxs wallet update)
  staged : ∀ wallet, property wallet → property (lib.takeStaged wallet).2
  fresh : ∀ wallet fresh, property wallet → freshWallet lib wallet = .ok fresh → property fresh

structure Emits (rpc : Rpc Block Tx) (allowed : BlockEvent Block → Prop) : Prop where
  blocks : ∀ cp height, ∀ event ∈ (rpc.emitter cp height).blocks, allowed event
  rebuildBlocks : ∀ cp height, ∀ event ∈ (rpc.rebuildEmitter cp height).blocks, allowed event

theorem drive_keeps (keeps : Keeps lib allowed property) (emits : ∀ event ∈ events, allowed event)
    (kept : property wallet) (ended : Except String Unit) (blocksSynced : Nat) :
    property (driveEmitter lib ended wallet blocksSynced events).1 := by
  induction events generalizing wallet blocksSynced with
  | nil =>
      cases ended with
      | ok done => exact kept
      | error cause => exact kept
  | cons event events ih =>
      rw [driveEmitter]
      split
      · rename_i next applied
        apply ih (fun other member => emits other (List.mem_cons_of_mem _ member))
        exact keeps.block wallet event next kept (emits event List.mem_cons_self) applied
      · exact kept
      · exact kept

theorem apply_fresh_keeps (keeps : Keeps lib allowed property)
    (emits : ∀ event ∈ events, allowed event) (kept : property wallet) {blocksSynced total : Nat}
    (applied : applyFresh lib wallet blocksSynced events = .ok (next, total)) : property next := by
  induction events generalizing wallet blocksSynced with
  | nil =>
      obtain ⟨rfl, -⟩ := Prod.mk.inj (Except.ok.inj applied)
      exact kept
  | cons event events ih =>
      rw [applyFresh] at applied
      split at applied
      · rename_i middle step
        apply ih (fun other member => emits other (List.mem_cons_of_mem _ member)) _ applied
        exact keeps.block wallet event middle kept (emits event List.mem_cons_self) step
      · simp at applied

theorem rebuild_ok {before : TxidSet} {rebuilt : Wallet} {result : SyncResult ChangeSet}
    (ok : rebuildOnReorg lib rpc wallet before = .ok (rebuilt, result)) :
    ∃ fresh driven update, freshWallet lib wallet = .ok fresh ∧
      applyFresh lib fresh 0 (rpc.rebuildEmitter (lib.latestCheckpoint fresh)
        (lib.latestCheckpoint fresh).height).blocks = .ok (driven, result.blocksSynced) ∧
      (rpc.rebuildEmitter (lib.latestCheckpoint fresh)
        (lib.latestCheckpoint fresh).height).ended = .ok () ∧
      (rpc.rebuildEmitter (lib.latestCheckpoint fresh)
        (lib.latestCheckpoint fresh).height).mempool = .ok update ∧
      rebuilt = (lib.takeStaged (lib.applyUnconfirmedTxs driven update)).2 ∧
      result.reorgRebuilt = true := by
  simp only [rebuildOnReorg, bind_eq_ok, map_error_eq_ok] at ok
  rcases ok with ⟨fresh, created, ⟨driven, total⟩, applied, ⟨⟩, ended, update, mempool, answer⟩
  obtain ⟨rfl, rfl⟩ := Prod.mk.inj (Except.ok.inj answer)
  exact ⟨fresh, driven, update, created, applied, ended, mempool, rfl, rfl⟩

theorem rebuild_of_calls {driven : Wallet} {blocksSynced : Nat} {update : List (Tx × UInt64)}
    (before : TxidSet) (created : freshWallet lib wallet = .ok fresh)
    (applied : applyFresh lib fresh 0 (rpc.rebuildEmitter (lib.latestCheckpoint fresh)
      (lib.latestCheckpoint fresh).height).blocks = .ok (driven, blocksSynced))
    (ended : (rpc.rebuildEmitter (lib.latestCheckpoint fresh)
      (lib.latestCheckpoint fresh).height).ended = .ok ())
    (mempool : (rpc.rebuildEmitter (lib.latestCheckpoint fresh)
      (lib.latestCheckpoint fresh).height).mempool = .ok update) :
    ∃ rebuilt result, rebuildOnReorg lib rpc wallet before = .ok (rebuilt, result) := by
  simp only [rebuildOnReorg, created, bind, Except.bind]
  simp only [applied, ended, mempool, Except.mapError]
  exact ⟨_, _, rfl⟩

theorem replace_keeps (property : Wallet → Prop)
    {rebuilt : Except ChainSyncError (Wallet × SyncResult ChangeSet)} (kept : property wallet)
    (replaced : ∀ fresh result, rebuilt = .ok (fresh, result) → property fresh) :
    property (replaceWallet wallet rebuilt).1 := by
  cases rebuilt with
  | error cause => exact kept
  | ok pair => exact replaced pair.1 pair.2 rfl

theorem rebuild_keeps (keeps : Keeps lib allowed property) (emits : Emits rpc allowed)
    (kept : property wallet) (before : TxidSet) :
    property (replaceWallet wallet (rebuildOnReorg lib rpc wallet before)).1 := by
  apply replace_keeps property kept
  intro rebuilt result ok
  rcases rebuild_ok ok with ⟨fresh, driven, update, created, applied, -, -, rfl, -⟩
  apply keeps.staged
  apply keeps.unconfirmed
  exact apply_fresh_keeps keeps (emits.rebuildBlocks _ _) (keeps.fresh wallet fresh kept created)
    applied

theorem drives_keep (keeps : Keeps lib allowed property) (emits : Emits rpc allowed)
    (kept : property wallet) {outcome : Drive} (drives : DrivesTo lib rpc wallet next outcome) :
    property next := by
  have honest : ∀ event ∈ (passEmitter lib rpc wallet).blocks, allowed event := emits.blocks _ _
  have driven := drive_keeps keeps honest kept (passEmitter lib rpc wallet).ended 0
  rw [drives] at driven
  exact driven

theorem signal_keeps (keeps : Keeps lib allowed property) (emits : Emits rpc allowed)
    (kept : property wallet) {found : Wallet} (signal : Signal lib rpc wallet found) :
    property found := by
  cases signal with
  | cannotConnect drives => exact drives_keep keeps emits kept drives
  | demoted drives before after => exact drives_keep keeps emits kept drives
  | orphaned drives anchored => exact drives_keep keeps emits kept drives
  | stale drives settled mempool stale =>
      exact keeps.unconfirmed _ _ (drives_keep keeps emits kept drives)

/-- A property that the calls keep holds after every sync, whatever its answer. -/
theorem sync_keeps (keeps : Keeps lib allowed property) (emits : Emits rpc allowed)
    (kept : property wallet) : property (emitterSync lib rpc wallet).1 := by
  generalize reached : driveEmitter lib (passEmitter lib rpc wallet).ended wallet 0
    (passEmitter lib rpc wallet).blocks = pair
  rcases pair with ⟨next, outcome⟩
  have driven := drives_keep keeps emits kept reached
  rw [emitter_sync_of_drives reached]
  cases outcome with
  | failed cause => exact driven
  | reorg => exact rebuild_keeps keeps emits driven _
  | finished blocksSynced =>
      dsimp only
      by_cases settled : Settled lib wallet next
      · rw [finish_of_settled _ settled]
        split
        · exact driven
        · have seen := keeps.unconfirmed next
          split
          · exact rebuild_keeps keeps emits (seen _ driven) _
          · exact keeps.staged _ (seen _ driven)
      · rw [finish_of_unsettled _ settled]
        exact rebuild_keeps keeps emits driven _

end Keeps

end Code

end ChainSync

end EmvaultCore
