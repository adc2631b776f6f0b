import EmvaultCore.CanonicalJson
import EmvaultCore.CheckpointWallet
import EmvaultCore.Descriptor
import EmvaultCore.Library.Journal
import EmvaultCore.Library.Runs

/-!
# Persisting what a sync returns

`init_or_load_wallet` starts a wallet from the changeset an app has stored, and
each successful sync returns changes to merge into it or to replace it by. The
app's changeset and what the wallet still stages always load as the wallet.
-/

namespace EmvaultCore.ChainSync

open Library (Text Replay)
open Library.Runs (run)

inductive InitWalletError where
  | decode (source : String)
  | load (source : String)
  | emptyChangeSet
  | create (source : String)
deriving DecidableEq, Repr

/-- The calls by which a wallet is loaded or first created. -/
structure WalletStore (Wallet ChangeSet : Type) where
  decode : Json → Except String ChangeSet
  load : Network → ChangeSet → Except String (Option Wallet)
  createTwoPath : Text → Network → Except String Wallet
  emptyChangeSet : ChangeSet

structure LoadedWallet (Wallet ChangeSet : Type) where
  wallet : Wallet
  changeset : ChangeSet
  fresh : Bool

/-- What the app keeps: the wallet and its aggregate changeset. -/
structure App (Wallet ChangeSet : Type) where
  wallet : Wallet
  aggregate : ChangeSet

inductive AppStep (Block Tx : Type) where
  | sync (rpc : Rpc Block Tx)
  | reveal (keychain : KeychainKind) (index : UInt32)

section Seam

variable {Wallet ChangeSet Descriptor Block Tx State : Type}
  (lib : WalletLibrary Wallet ChangeSet Descriptor Block Tx) (store : WalletStore Wallet ChangeSet)
  (replay : Replay ChangeSet State) (staged : Wallet → ChangeSet) (state : Wallet → State)

def initOrLoadWallet (network : Network) (descriptor : Text) :
    Option Json → Except InitWalletError (LoadedWallet Wallet ChangeSet)
  | some json => do
      let aggregate ← (store.decode json).mapError .decode
      match ← (store.load network aggregate).mapError .load with
      | some wallet => return { wallet, changeset := aggregate, fresh := false }
      | none => throw .emptyChangeSet
  | none => do
      let wallet ← (store.createTwoPath descriptor network).mapError .create
      return { wallet, changeset := store.emptyChangeSet, fresh := true }

/-- Merge what a forward sync returns, keep what a rebuild returns instead. -/
def App.persist (app : App Wallet ChangeSet) :
    Wallet × Except ChainSyncError (SyncResult ChangeSet) → App Wallet ChangeSet
  | (wallet, .ok result) =>
      let changes := result.changeset.getD replay.empty
      ⟨wallet, if result.reorgRebuilt then changes else replay.merge app.aggregate changes⟩
  | (wallet, .error _) => ⟨wallet, app.aggregate⟩

def App.step (app : App Wallet ChangeSet) : AppStep Block Tx → App Wallet ChangeSet
  | .sync rpc => app.persist replay (emitterSync lib rpc app.wallet)
  | .reveal keychain index => { app with wallet := lib.revealAddressesTo app.wallet keychain index }

/-- Two wallets with the same state answer alike. -/
structure Observes (left right : Wallet) : Prop where
  checkpoint : lib.latestCheckpoint left = lib.latestCheckpoint right
  anchors : lib.allAnchors left = lib.allAnchors right
  indices : lib.derivationIndex left = lib.derivationIndex right

/-- A wallet moves by the changes it stages, and a state is what its changes
replay to, whether they are staged or loaded. -/
structure Journaled : Prop where
  lawful : replay.Lawful
  emptyChangeSet : store.emptyChangeSet = replay.empty
  block : ∀ wallet block height connectedTo next,
    lib.applyBlockConnectedTo wallet block height connectedTo = .ok next →
      replay.Extends staged state wallet next
  unconfirmed : ∀ wallet update,
    replay.Extends staged state wallet (lib.applyUnconfirmedTxs wallet update)
  reveal : ∀ wallet keychain index,
    replay.Extends staged state wallet (lib.revealAddressesTo wallet keychain index)
  create : ∀ external internal network wallet,
    lib.create external internal network = .ok wallet → replay.of (staged wallet) = state wallet
  createTwoPath : ∀ descriptor network wallet,
    store.createTwoPath descriptor network = .ok wallet → replay.of (staged wallet) = state wallet
  taken : ∀ wallet, (lib.takeStaged wallet).1.getD replay.empty = staged wallet
  cleared : ∀ wallet, staged (lib.takeStaged wallet).2 = replay.empty
  kept : ∀ wallet, state (lib.takeStaged wallet).2 = state wallet
  loaded : ∀ network changes wallet, store.load network changes = .ok (some wallet) →
    replay.Coherent staged state changes wallet
  loads : ∀ wallet changes, replay.of changes = state wallet →
    ∃ reloaded, store.load (lib.network wallet) changes = .ok (some reloaded) ∧
      state reloaded = state wallet
  observed : ∀ left right, state left = state right → Observes lib left right

variable {lib store replay staged state}

def App.Coherent (replay : Replay ChangeSet State) (staged : Wallet → ChangeSet)
    (state : Wallet → State) (app : App Wallet ChangeSet) : Prop :=
  replay.Coherent staged state app.aggregate app.wallet

structure Persisted (replay : Replay ChangeSet State) (staged : Wallet → ChangeSet)
    (state : Wallet → State) (app : App Wallet ChangeSet)
    (answer : Wallet × Except ChainSyncError (SyncResult ChangeSet)) : Prop where
  current : replay.Coherent staged state (app.persist replay answer).aggregate answer.1
  cleared : ∀ result, answer.2 = .ok result → staged answer.1 = replay.empty

theorem failure_persisted {app : App Wallet ChangeSet} {wallet : Wallet} {cause : ChainSyncError}
    (coherent : replay.Coherent staged state app.aggregate wallet) :
    Persisted replay staged state app (wallet, .error cause) := by
  constructor
  · exact coherent
  · intro result ok
    cases ok

section Laws

variable (journaled : Journaled lib store replay staged state)

include journaled

theorem stays (wallet : Wallet) : replay.Extends staged state wallet wallet :=
  Replay.extends_refl journaled.lawful wallet

theorem drive_extends (ended : Except String Unit) (wallet : Wallet) (count : Nat)
    (events : List (BlockEvent Block)) :
    replay.Extends staged state wallet (driveEmitter lib ended wallet count events).1 := by
  induction events generalizing wallet count with
  | nil => cases ended <;> exact stays journaled wallet
  | cons event events ih =>
      rw [driveEmitter]
      cases applied : lib.applyBlockConnectedTo wallet event.block event.blockHeight
          event.connectedTo with
      | ok next =>
          have moved := journaled.block _ _ _ _ _ applied
          exact Replay.extends_trans journaled.lawful moved (ih next _)
      | error cause => cases cause <;> exact stays journaled wallet

theorem apply_fresh_extends {fresh after : Wallet} {count total : Nat}
    {events : List (BlockEvent Block)}
    (applied : applyFresh lib fresh count events = .ok (after, total)) :
    replay.Extends staged state fresh after := by
  induction events generalizing fresh count with
  | nil =>
      obtain rfl : fresh = after := (Prod.mk.inj (Except.ok.inj applied)).1
      exact stays journaled fresh
  | cons event events ih =>
      rw [applyFresh] at applied
      cases first : lib.applyBlockConnectedTo fresh event.block event.blockHeight
          event.connectedTo with
      | ok next =>
          rw [first] at applied
          have moved := journaled.block _ _ _ _ _ first
          exact Replay.extends_trans journaled.lawful moved (ih applied)
      | error cause =>
          rw [first] at applied
          cases applied

theorem coherent_of_created {wallet : Wallet} (created : replay.of (staged wallet) = state wallet) :
    replay.Coherent staged state replay.empty wallet := by
  rw [Replay.Coherent, journaled.lawful.emptyMerge, created]

theorem coherent_of_revealed {wallet : Wallet} (keychain : KeychainKind) (index : Option UInt32)
    (coherent : replay.Coherent staged state replay.empty wallet) :
    replay.Coherent staged state replay.empty
      (match index with
      | some index => lib.revealAddressesTo wallet keychain index
      | none => wallet) := by
  cases index with
  | none => exact coherent
  | some index =>
      exact Replay.coherent_of_extends journaled.lawful coherent (journaled.reveal wallet _ _)

theorem fresh_coherent {wallet fresh : Wallet} (made : freshWallet lib wallet = .ok fresh) :
    replay.Coherent staged state replay.empty fresh := by
  rw [freshWallet, bind_eq_ok] at made
  rcases made with ⟨created, answer, same⟩
  rw [map_error_eq_ok] at answer
  have start := coherent_of_created journaled (journaled.create _ _ _ _ answer)
  have external := coherent_of_revealed journaled .external (lib.derivationIndex wallet .external)
    start
  have internal := coherent_of_revealed journaled .internal (lib.derivationIndex wallet .internal)
    external
  rwa [← Except.ok.inj same]

theorem coherent_of_taken {wallet : Wallet} {written : ChangeSet}
    (coherent : replay.Coherent staged state written wallet) :
    replay.Coherent staged state
      (replay.merge written ((lib.takeStaged wallet).1.getD replay.empty))
      (lib.takeStaged wallet).2 := by
  rw [journaled.taken]
  exact Replay.coherent_of_written journaled.lawful coherent (journaled.kept wallet)
    (journaled.cleared wallet)

theorem rebuild_coherent {rpc : Rpc Block Tx} {wallet rebuilt : Wallet} {confirmed : TxidSet}
    {result : SyncResult ChangeSet}
    (ok : rebuildOnReorg lib rpc wallet confirmed = .ok (rebuilt, result)) :
    result.reorgRebuilt = true ∧ staged rebuilt = replay.empty ∧
      replay.Coherent staged state (result.changeset.getD replay.empty) rebuilt := by
  simp only [rebuildOnReorg, bind_eq_ok, map_error_eq_ok] at ok
  rcases ok with ⟨fresh, made, ⟨after, count⟩, applied, ⟨⟩, -, update, -, same⟩
  have started := fresh_coherent journaled made
  have blocks := Replay.coherent_of_extends journaled.lawful started
    (apply_fresh_extends journaled applied)
  have mempool := Replay.coherent_of_extends journaled.lawful blocks
    (journaled.unconfirmed after update)
  have taken := coherent_of_taken journaled mempool
  rw [journaled.lawful.emptyMerge] at taken
  rcases Prod.mk.inj (Except.ok.inj same) with ⟨rfl, rfl⟩
  exact ⟨rfl, journaled.cleared _, taken⟩

theorem rebuild_persisted {rpc : Rpc Block Tx} {confirmed : TxidSet} {app : App Wallet ChangeSet}
    {wallet : Wallet} (coherent : replay.Coherent staged state app.aggregate wallet) :
    Persisted replay staged state app
      (replaceWallet wallet (rebuildOnReorg lib rpc wallet confirmed)) := by
  cases rebuilt : rebuildOnReorg lib rpc wallet confirmed with
  | error cause => exact failure_persisted coherent
  | ok pair =>
      rcases pair with ⟨fresh, result⟩
      rcases rebuild_coherent journaled rebuilt with ⟨flag, cleared, complete⟩
      constructor
      · simpa [replaceWallet, App.persist, flag] using complete
      · exact fun _ _ => cleared

theorem finish_persisted {rpc : Rpc Block Tx} {emitter : Emitter Block Tx} {confirmed : TxidSet}
    {count : Nat} {app : App Wallet ChangeSet} {wallet : Wallet}
    (coherent : replay.Coherent staged state app.aggregate wallet) :
    Persisted replay staged state app (finishSync lib rpc emitter confirmed count wallet) := by
  rw [finishSync]
  split
  · exact rebuild_persisted journaled coherent
  · cases emitter.mempool with
    | error cause => exact failure_persisted coherent
    | ok update =>
        have ingested := Replay.coherent_of_extends journaled.lawful coherent
          (journaled.unconfirmed wallet update)
        simp only
        split
        · exact rebuild_persisted journaled ingested
        · constructor
          · exact coherent_of_taken journaled ingested
          · exact fun _ _ => journaled.cleared _

theorem sync_persisted (rpc : Rpc Block Tx) {app : App Wallet ChangeSet}
    (coherent : app.Coherent replay staged state) :
    Persisted replay staged state app (emitterSync lib rpc app.wallet) := by
  have moved := drive_extends journaled
    (rpc.emitter (lib.latestCheckpoint app.wallet) (lib.latestCheckpoint app.wallet).height).ended
    app.wallet 0
    (rpc.emitter (lib.latestCheckpoint app.wallet) (lib.latestCheckpoint app.wallet).height).blocks
  have driven := Replay.coherent_of_extends journaled.lawful coherent moved
  rw [emitterSync]
  split
  · rename_i wallet count drive
    rw [drive] at driven
    exact finish_persisted journaled driven
  · rename_i wallet drive
    rw [drive] at driven
    exact rebuild_persisted journaled driven
  · rename_i wallet cause drive
    rw [drive] at driven
    exact failure_persisted driven

theorem step_coherent {app : App Wallet ChangeSet} (step : AppStep Block Tx)
    (coherent : app.Coherent replay staged state) :
    (app.step lib replay step).Coherent replay staged state := by
  cases step with
  | sync rpc =>
      have persisted := (sync_persisted journaled rpc coherent).current
      have same : (app.persist replay (emitterSync lib rpc app.wallet)).wallet =
          (emitterSync lib rpc app.wallet).1 := by
        rcases emitterSync lib rpc app.wallet with ⟨wallet, _ | _⟩ <;> rfl
      rw [App.Coherent, App.step, same]
      exact persisted
  | reveal keychain index =>
      exact Replay.coherent_of_extends journaled.lawful coherent (journaled.reveal _ _ _)

theorem started_coherent {network : Network} {descriptor : Text} {persisted : Option Json}
    {loaded : LoadedWallet Wallet ChangeSet}
    (started : initOrLoadWallet store network descriptor persisted = .ok loaded) :
    App.Coherent replay staged state ⟨loaded.wallet, loaded.changeset⟩ := by
  cases persisted with
  | none =>
      simp only [initOrLoadWallet, bind_eq_ok, map_error_eq_ok] at started
      rcases started with ⟨wallet, created, same⟩
      obtain rfl := Except.ok.inj same
      rw [App.Coherent, journaled.emptyChangeSet]
      exact coherent_of_created journaled (journaled.createTwoPath _ _ _ created)
  | some json =>
      simp only [initOrLoadWallet, bind_eq_ok, map_error_eq_ok] at started
      rcases started with ⟨aggregate, -, found, answer, same⟩
      cases found with
      | none => cases same
      | some wallet =>
          obtain rfl := Except.ok.inj same
          exact journaled.loaded _ _ _ answer

/-- Over every run of syncs, whatever they answer, the app's changeset merged
with what is still staged loads as the wallet, and a success leaves nothing staged. -/
theorem persisted_loads_as_wallet {network : Network} {descriptor : Text}
    {persisted : Option Json} {loaded : LoadedWallet Wallet ChangeSet}
    (started : initOrLoadWallet store network descriptor persisted = .ok loaded)
    (steps : List (AppStep Block Tx)) {app : App Wallet ChangeSet}
    (reached : run (App.step lib replay) ⟨loaded.wallet, loaded.changeset⟩ steps = app) :
    (∃ reloaded, store.load (lib.network app.wallet)
        (replay.merge app.aggregate (staged app.wallet)) = .ok (some reloaded) ∧
      state reloaded = state app.wallet ∧ Observes lib reloaded app.wallet) ∧
    ∀ rpc result, (emitterSync lib rpc app.wallet).2 = .ok result →
      staged (emitterSync lib rpc app.wallet).1 = replay.empty := by
  have coherent : app.Coherent replay staged state := by
    rw [← reached]
    have preserved (app : App Wallet ChangeSet) (step : AppStep Block Tx) :=
      @step_coherent _ _ _ _ _ _ _ _ _ _ _ journaled app step
    exact Library.Runs.run_preserved preserved (started_coherent journaled started) steps
  constructor
  · rcases journaled.loads _ _ coherent with ⟨reloaded, answer, same⟩
    exact ⟨reloaded, answer, same, journaled.observed _ _ same⟩
  · intro rpc result ok
    exact (sync_persisted journaled rpc coherent).cleared result ok

end Laws

end Seam

/-! ### The wallet of checkpoints and anchors -/

/-- What is persisted of a wallet: all but the index, which a load rebuilds. -/
structure WalletView where
  external : Text
  internal : Text
  network : Network
  revealedExternal : Option UInt32
  revealedInternal : Option UInt32
  chain : List BlockId
  anchors : List (Txid × BlockId)
  seen : List (Txid × UInt64)

def Wallet.view (wallet : Wallet) : Option WalletView :=
  some {
    external := wallet.external
    internal := wallet.internal
    network := wallet.network
    revealedExternal := wallet.revealedExternal
    revealedInternal := wallet.revealedInternal
    chain := wallet.localChain.blocks
    anchors := wallet.anchors
    seen := wallet.seen }

/-- One change; nothing exists before the descriptors are known. -/
def Change.apply : Option WalletView → Change → Option WalletView
  | _, .created external internal network =>
      some ⟨external, internal, network, none, none, [], [], []⟩
  | none, _ => none
  | some view, .revealed .external index => some { view with revealedExternal := some index }
  | some view, .revealed .internal index => some { view with revealedInternal := some index }
  | some view, .checkpoints blocks => some { view with chain := blocks }
  | some view, .anchored entries => some { view with anchors := entries }
  | some view, .seen entries => some { view with seen := entries ++ view.seen }

def walletReplay : Replay (List Change) (Option WalletView) where
  empty := []
  merge := List.append
  start := none
  step := List.foldl Change.apply

/-- Reading a stored changeset, and the two descriptors of a two-path one. -/
structure StoreParsing where
  decode : Json → Except String (List Change)
  branches : Text → Except String (Text × Text)

def WalletView.reindex (env : Environment) (view : WalletView) : List OutPoint :=
  let watched := env.scripts view.external view.revealedExternal ++
    env.scripts view.internal view.revealedInternal
  (view.anchors.map Prod.fst ++ view.seen.map Prod.fst).flatMap (watchedOutputs env.ledger watched)

def loadWallet (env : Environment) (network : Network) (changes : List Change) :
    Except String (Option Wallet) :=
  match walletReplay.of changes with
  | none => .ok none
  | some view =>
      if view.network ≠ network then .error "network mismatch"
      else if started : view.chain = [] then .error "missing genesis"
      else .ok (some {
        external := view.external
        internal := view.internal
        network := view.network
        revealedExternal := view.revealedExternal
        revealedInternal := view.revealedInternal
        localChain := ⟨view.chain, started⟩
        index := view.reindex env
        anchors := view.anchors
        seen := view.seen
        staged := [] })

def checkpointStore (env : Environment) (parsing : StoreParsing) :
    WalletStore Wallet (List Change) where
  decode := parsing.decode
  load := loadWallet env
  createTwoPath descriptor network := do
    let (external, internal) ← parsing.branches descriptor
    Wallet.create env external internal network
  emptyChangeSet := []

theorem wallet_replay_lawful : walletReplay.Lawful where
  assoc := List.append_assoc
  emptyMerge := List.nil_append
  mergeEmpty := List.append_nil
  stepEmpty _ := rfl
  stepMerge _ _ _ := List.foldl_append

theorem load_eq_ok {env : Environment} {network : Network} {changes : List Change}
    {wallet : Wallet} (answer : loadWallet env network changes = .ok (some wallet)) :
    wallet.staged = [] ∧ walletReplay.of changes = wallet.view := by
  unfold loadWallet at answer
  split at answer
  · cases answer
  · rename_i view replayed
    split_ifs at answer with other started
    obtain rfl := Option.some.inj (Except.ok.inj answer)
    exact ⟨rfl, replayed⟩

theorem load_of_view {env : Environment} {wallet : Wallet} {changes : List Change}
    (replayed : walletReplay.of changes = wallet.view) :
    ∃ reloaded, loadWallet env wallet.network changes = .ok (some reloaded) ∧
      reloaded.view = wallet.view := by
  have sameNetwork : ¬ wallet.network ≠ wallet.network := not_not.mpr rfl
  rw [loadWallet, replayed, Wallet.view]
  simp only [sameNetwork, wallet.localChain.nonempty, if_false, dif_neg, not_false_eq_true]
  exact ⟨_, rfl, rfl⟩

theorem created_replays {env : Environment} {external internal : Text} {network : Network}
    {wallet : Wallet} (created : Wallet.create env external internal network = .ok wallet) :
    walletReplay.of wallet.staged = wallet.view := by
  unfold Wallet.create at created
  split_ifs at created with same
  obtain rfl := Except.ok.inj created
  rfl

theorem checkpoint_wallets_journaled (env : Environment) (parsing : StoreParsing) :
    Journaled (checkpointWallets env) (checkpointStore env parsing) walletReplay Wallet.staged
      Wallet.view where
  lawful := wallet_replay_lawful
  emptyChangeSet := rfl
  block := by
    intro wallet block height connectedTo next applied
    have steps : wallet.applyBlockConnectedTo env block height connectedTo = .ok next := applied
    rw [Wallet.applyBlockConnectedTo, bind_eq_ok] at steps
    rcases steps with ⟨chain, -, same⟩
    obtain rfl := Except.ok.inj same
    exact ⟨_, rfl, rfl⟩
  unconfirmed := by
    intro wallet update
    refine ⟨_, rfl, ?_⟩
    simp only [checkpointWallets, Wallet.applyUnconfirmedTxs]
    split
    · rename_i none
      rw [List.isEmpty_iff.mp none]
      rfl
    · rfl
  reveal := by
    intro wallet keychain index
    cases keychain with
    | external => exact ⟨[.revealed .external index], rfl, rfl⟩
    | internal => exact ⟨[.revealed .internal index], rfl, rfl⟩
  create external internal network wallet created := created_replays created
  createTwoPath := by
    intro descriptor network wallet created
    have steps : (do
        let (external, internal) ← parsing.branches descriptor
        Wallet.create env external internal network) = Except.ok wallet := created
    rw [bind_eq_ok] at steps
    rcases steps with ⟨⟨external, internal⟩, -, made⟩
    exact created_replays made
  taken wallet := by
    cases staged : wallet.staged <;> simp [checkpointWallets, Wallet.takeStaged, staged, walletReplay]
  cleared _ := rfl
  kept _ := rfl
  loaded network changes wallet answer := by
    rcases load_eq_ok answer with ⟨cleared, replayed⟩
    have whole : walletReplay.merge changes [] = changes := List.append_nil changes
    rw [Replay.Coherent, cleared, whole, replayed]
  loads wallet changes replayed := load_of_view replayed
  observed := by
    intro left right same
    have fields := WalletView.mk.inj (Option.some.inj same)
    rcases fields with ⟨-, -, -, external, internal, chain, anchors, -⟩
    refine ⟨CheckPoint.ext chain, anchors, ?_⟩
    funext keychain
    cases keychain with
    | external => exact external
    | internal => exact internal

def splitParsing : StoreParsing where
  decode _ := .error "invalid type"
  branches text :=
    let external := Library.Text.replace multipathText externalText text
    if external = text then .error "not a multipath descriptor"
    else .ok (external, Library.Text.replace multipathText ['/', '1', '/', '*'] text)

def twoPathDescriptor : Text :=
  "wpkh([281a417d/48'/1'/0'/2']tpubDFZq236xQfW5v9KY5Taw523fvVy1vhMe7rZ6q2acYnGC7Q3AJHfiAP36NiEwsKdFhVW2JCJy5aKWfTTByoMadVA5DUy8Dfd3Au18CNEwRtn/<0;1>/*)".toList

/-- A forward pass, one that fails, and one on the other branch that rebuilds. -/
def forkSteps : List (AppStep BlockHash Txid) := [
  .reveal .external 0,
  .sync ((passAt 1 3 []).rpc forkLedger),
  .sync ({ passAt 2 2 [] with failsAt := some 1 }.rpc forkLedger),
  .sync ((passAt 2 2 []).rpc forkLedger)]

theorem fork_wallet_created :
    ∃ loaded, initOrLoadWallet (checkpointStore forkEnvironment splitParsing) .regtest
      twoPathDescriptor none = .ok loaded := by
  have created : (initOrLoadWallet (checkpointStore forkEnvironment splitParsing) .regtest
      twoPathDescriptor none).toBool = true := by decide +kernel
  cases answer : initOrLoadWallet (checkpointStore forkEnvironment splitParsing) .regtest
      twoPathDescriptor none with
  | error cause =>
      rw [answer] at created
      cases created
  | ok loaded => exact ⟨loaded, rfl⟩

theorem persisted_loads_as_wallet_fork :
    ∃ loaded app, initOrLoadWallet (checkpointStore forkEnvironment splitParsing) .regtest
        twoPathDescriptor none = .ok loaded ∧
      run (App.step (checkpointWallets forkEnvironment) walletReplay)
        ⟨loaded.wallet, loaded.changeset⟩ forkSteps = app ∧
      (∃ reloaded, loadWallet forkEnvironment app.wallet.network
          (app.aggregate ++ app.wallet.staged) = .ok (some reloaded) ∧
        reloaded.view = app.wallet.view ∧
        Observes (checkpointWallets forkEnvironment) reloaded app.wallet) ∧
      ∀ rpc result, (emitterSync (checkpointWallets forkEnvironment) rpc app.wallet).2 =
          .ok result →
        (emitterSync (checkpointWallets forkEnvironment) rpc app.wallet).1.staged = [] := by
  rcases fork_wallet_created with ⟨loaded, started⟩
  have journaled := checkpoint_wallets_journaled forkEnvironment splitParsing
  generalize reached : run (App.step (checkpointWallets forkEnvironment) walletReplay)
    ⟨loaded.wallet, loaded.changeset⟩ forkSteps = app
  exact ⟨loaded, app, started, reached,
    persisted_loads_as_wallet journaled started forkSteps reached⟩

end EmvaultCore.ChainSync
