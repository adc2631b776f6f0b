import EmvaultCore.ChainSync
import EmvaultCore.Library.Text

/-!
# A wallet of checkpoints and anchors

The wallet and the node as far as their documentation says what a sync relies
on. A block is known by its hash and names its predecessor. The wallet keeps a
local chain of checkpoints, anchors of the transactions that concern its scripts
and an index of the outputs paid to them; the node has a best chain and a
mempool that stay as they are during a pass.
-/

namespace EmvaultCore.ChainSync

open Library (Text Located)

structure BlockData where
  prevBlockhash : BlockHash
  txdata : List Txid

/-- The null input of a coinbase spends nothing and is left out. -/
structure TxData where
  inputs : List OutPoint
  outputs : List ScriptBuf

/-- What the hashes stand for. -/
structure Ledger where
  block : BlockHash → BlockData
  tx : Txid → TxData

def Ledger.prev (ledger : Ledger) (hash : BlockHash) : BlockHash :=
  (ledger.block hash).prevBlockhash

/-- What a wallet stages for its next changeset. -/
inductive Change where
  | created (external internal : Text) (network : Network)
  | revealed (keychain : KeychainKind) (index : UInt32)
  | checkpoints (blocks : List BlockId)
  | anchored (entries : List (Txid × BlockId))
  | seen (entries : List (Txid × UInt64))
deriving DecidableEq

structure Wallet where
  external : Text
  internal : Text
  network : Network
  revealedExternal : Option UInt32
  revealedInternal : Option UInt32
  localChain : CheckPoint
  /-- The outputs paid to watched scripts that the wallet has come across. -/
  index : List OutPoint
  anchors : List (Txid × BlockId)
  /-- The transactions taken from the mempool, with the time they were seen. -/
  seen : List (Txid × UInt64)
  staged : List Change

/-- What the wallet library leaves open: what the hashes stand for, where chains
start, the scripts of a keychain revealed up to an index, and which transactions
without an anchor in the local chain are canonical. -/
structure Environment where
  ledger : Ledger
  genesis : Network → BlockHash
  scripts : Text → Option UInt32 → List ScriptBuf
  floating : Wallet → List Txid

/-- The update joins the chain at the highest block they share. The original
block just above must be replaced, and so must go all blocks above it. -/
def mergeCheckpoints (original : CheckPoint) (update : List BlockId) :
    Except ApplyHeaderError CheckPoint :=
  match update.find? (· ∈ original.blocks) with
  | none => .error (.cannotConnect (original.blocks.getLast original.nonempty).height)
  | some agreement =>
      let above := update.filter (fun block => agreement.height < block.height)
      let stale := original.blocks.takeWhile (fun block => agreement.height < block.height)
      let kept := original.blocks.dropWhile (fun block => agreement.height < block.height)
      if empty : above = [] then .ok original
      else
        let merged : CheckPoint := ⟨above ++ kept, by simp [empty]⟩
        match stale.getLast? with
        | none => .ok merged
        | some next =>
            if above.any (·.height = next.height) then .ok merged
            else .error (.cannotConnect next.height)

def applyHeaderConnectedTo (ledger : Ledger) (chain : CheckPoint) (block : BlockHash)
    (height : Nat) (connectedTo : BlockId) : Except ApplyHeaderError CheckPoint :=
  let this : BlockId := ⟨height, block⟩
  let before : List BlockId := if height = 0 then [] else [⟨height - 1, ledger.prev block⟩]
  if connectedTo = this ∨ connectedTo ∈ before then mergeCheckpoints chain (this :: before)
  else if height - 1 ≤ connectedTo.height then .error .inconsistentBlocks
  else mergeCheckpoints chain (this :: before ++ [connectedTo])

section Relevance

variable (ledger : Ledger) (watched : List ScriptBuf)

def paysWatched (txid : Txid) : Bool := (ledger.tx txid).outputs.any (· ∈ watched)

def isWatchedOutput (outpoint : OutPoint) : Bool :=
  match (ledger.tx outpoint.txid).outputs[outpoint.vout.val]? with
  | some script => script ∈ watched
  | none => false

def concernsWatched (txid : Txid) : Bool :=
  paysWatched ledger watched txid ||
    (ledger.tx txid).inputs.any (isWatchedOutput ledger watched)

/-- The outputs of a transaction that enter the index; a transaction has fewer
than 2^32 outputs. -/
def watchedOutputs (txid : Txid) : List OutPoint :=
  (List.finRange (2 ^ 32 ⊓ (ledger.tx txid).outputs.length)).filterMap fun vout =>
    let outpoint : OutPoint := ⟨txid, ⟨vout.val, by have := vout.isLt; omega⟩⟩
    if isWatchedOutput ledger watched outpoint then some outpoint else none

def isTxRelevant (index : List OutPoint) (txid : Txid) : Bool :=
  paysWatched ledger watched txid || (ledger.tx txid).inputs.any (· ∈ index)

/-- `apply_block_relevant`: every transaction is indexed, relevant ones are
anchored. -/
def applyBlockRelevant (block : BlockId) :
    List Txid → List OutPoint → List (Txid × BlockId) → List OutPoint × List (Txid × BlockId)
  | [], index, anchors => (index, anchors)
  | txid :: txids, index, anchors =>
      let index := watchedOutputs ledger watched txid ++ index
      if isTxRelevant ledger watched index txid then
        applyBlockRelevant block txids index ((txid, block) :: anchors)
      else applyBlockRelevant block txids index anchors

end Relevance

namespace Wallet

variable (env : Environment)

def watched (wallet : Wallet) : List ScriptBuf :=
  env.scripts wallet.external wallet.revealedExternal ++
    env.scripts wallet.internal wallet.revealedInternal

def applyBlockConnectedTo (wallet : Wallet) (block : BlockHash) (height : Nat)
    (connectedTo : BlockId) : Except ApplyHeaderError Wallet := do
  let localChain ← applyHeaderConnectedTo env.ledger wallet.localChain block height connectedTo
  let (index, anchors) := applyBlockRelevant env.ledger (wallet.watched env) ⟨height, block⟩
    (env.ledger.block block).txdata wallet.index wallet.anchors
  return { wallet with
    localChain
    index
    anchors
    staged := wallet.staged ++ [.checkpoints localChain.blocks, .anchored anchors] }

/-- Relevant transactions of the mempool are kept with the time they were seen. -/
def applyUnconfirmedTxs (wallet : Wallet) (update : List (Txid × UInt64)) : Wallet :=
  let index := update.flatMap (fun entry => watchedOutputs env.ledger (wallet.watched env) entry.1)
    ++ wallet.index
  let relevant := update.filter fun entry =>
    isTxRelevant env.ledger (wallet.watched env) index entry.1
  { wallet with
    index
    seen := relevant ++ wallet.seen
    staged := wallet.staged ++ if relevant.isEmpty then [] else [.seen relevant] }

/-- A transaction is confirmed iff it has an anchor in the local chain. -/
def transactions (wallet : Wallet) : List (Txid × ChainPosition) :=
  let confirmed := wallet.anchors.filter fun entry => entry.2 ∈ wallet.localChain.blocks
  let floating := (env.floating wallet).filter fun txid => txid ∉ confirmed.map Prod.fst
  (confirmed.map fun entry => (entry.1, .confirmed entry.2)) ++
    floating.map fun txid => (txid, .unconfirmed)

def takeStaged (wallet : Wallet) : Option (List Change) × Wallet :=
  (if wallet.staged.isEmpty then none else some wallet.staged, { wallet with staged := [] })

/-- `Wallet::create` rejects two equal descriptors. -/
def create (external internal : Text) (network : Network) : Except String Wallet :=
  if external = internal then
    .error "External and internal descriptors are the same"
  else .ok {
    external, internal, network
    revealedExternal := none
    revealedInternal := none
    localChain := .new ⟨0, env.genesis network⟩
    index := []
    anchors := []
    seen := []
    staged := [.created external internal network, .checkpoints [⟨0, env.genesis network⟩]] }

def revealAddressesTo (wallet : Wallet) (keychain : KeychainKind) (index : UInt32) : Wallet :=
  let staged := wallet.staged ++ [.revealed keychain index]
  match keychain with
  | .external => { wallet with revealedExternal := some index, staged }
  | .internal => { wallet with revealedInternal := some index, staged }

end Wallet

def checkpointWallets (env : Environment) :
    WalletLibrary Wallet (List Change) Text BlockHash Txid where
  latestCheckpoint := Wallet.localChain
  transactions := Wallet.transactions env
  allAnchors := Wallet.anchors
  applyBlockConnectedTo := Wallet.applyBlockConnectedTo env
  applyUnconfirmedTxs := Wallet.applyUnconfirmedTxs env
  takeStaged := Wallet.takeStaged
  publicDescriptor wallet
    | .external => wallet.external
    | .internal => wallet.internal
  derivationIndex wallet
    | .external => wallet.revealedExternal
    | .internal => wallet.revealedInternal
  network := Wallet.network
  create := Wallet.create env
  revealAddressesTo := Wallet.revealAddressesTo
  computeTxid := id

/-! ### Reading the transactions -/

section Transactions

variable {env : Environment} {wallet : Wallet} {txid : Txid}

def Wallet.Confirmed (wallet : Wallet) (txid : Txid) : Prop :=
  ∃ entry ∈ wallet.anchors, entry.1 = txid ∧ entry.2 ∈ wallet.localChain.blocks

theorem confirmed_listed {anchor : BlockId} :
    (txid, .confirmed anchor) ∈ wallet.transactions env ↔
      (txid, anchor) ∈ wallet.anchors ∧ anchor ∈ wallet.localChain.blocks := by
  simp [Wallet.transactions]

theorem unconfirmed_listed : (txid, .unconfirmed) ∈ wallet.transactions env ↔
    txid ∈ env.floating wallet ∧ ¬ wallet.Confirmed txid := by
  have listed : txid ∈ (wallet.anchors.filter
      fun entry => entry.2 ∈ wallet.localChain.blocks).map Prod.fst ↔ wallet.Confirmed txid := by
    rw [List.mem_map]
    constructor
    · rintro ⟨entry, member, same⟩
      have kept := List.mem_filter.mp member
      exact ⟨entry, kept.1, same, of_decide_eq_true kept.2⟩
    · rintro ⟨entry, member, same, onChain⟩
      exact ⟨entry, List.mem_filter.mpr ⟨member, decide_eq_true onChain⟩, same⟩
  simp only [Wallet.transactions, List.mem_append, List.mem_map, List.mem_filter, Prod.mk.injEq,
    reduceCtorEq, and_false, exists_false, false_or, and_true, exists_eq_right, ← listed,
    decide_eq_true_eq]

end Transactions

theorem mem_confirmed_txids {env : Environment} {wallet : Wallet} {txid : Txid} :
    txid ∈ confirmedTxids (checkpointWallets env) wallet ↔
      ∃ entry ∈ wallet.anchors, entry.1 = txid ∧ entry.2 ∈ wallet.localChain.blocks := by
  rw [confirmedTxids, Std.ExtTreeSet.mem_ofList, List.contains_iff_mem, List.mem_map]
  constructor
  · rintro ⟨⟨found, position⟩, kept, rfl⟩
    rcases List.mem_filter.mp kept with ⟨listed, confirmed⟩
    cases position with
    | confirmed anchor =>
        have anchored := confirmed_listed.mp listed
        exact ⟨(found, anchor), anchored.1, rfl, anchored.2⟩
    | unconfirmed => simp [ChainPosition.isConfirmed] at confirmed
  · rintro ⟨⟨found, anchor⟩, member, rfl, onChain⟩
    have listed : (found, .confirmed anchor) ∈ wallet.transactions env :=
      confirmed_listed.mpr ⟨member, onChain⟩
    exact ⟨(found, .confirmed anchor), List.mem_filter.mpr ⟨listed, rfl⟩, rfl⟩

/-! ### Applying a block -/

section Block

variable {env : Environment} {wallet next : Wallet}

structure AppliesBlock (env : Environment) (wallet : Wallet) (block : BlockHash) (height : Nat)
    (connectedTo : BlockId) (next : Wallet) : Prop where
  header : applyHeaderConnectedTo env.ledger wallet.localChain block height connectedTo =
    .ok next.localChain
  watches : next.watched env = wallet.watched env
  network : next.network = wallet.network
  seen : next.seen = wallet.seen
  index : next.index = (applyBlockRelevant env.ledger (wallet.watched env) ⟨height, block⟩
    (env.ledger.block block).txdata wallet.index wallet.anchors).1
  anchors : next.anchors = (applyBlockRelevant env.ledger (wallet.watched env) ⟨height, block⟩
    (env.ledger.block block).txdata wallet.index wallet.anchors).2

theorem applies_block {block : BlockHash} {height : Nat} {connectedTo : BlockId}
    (ok : wallet.applyBlockConnectedTo env block height connectedTo = .ok next) :
    AppliesBlock env wallet block height connectedTo next := by
  simp only [Wallet.applyBlockConnectedTo, bind_eq_ok] at ok
  rcases ok with ⟨joined, header, made⟩
  obtain rfl := Except.ok.inj made
  exact ⟨header, rfl, rfl, rfl, rfl, rfl⟩

theorem block_of_header {block : BlockHash} {height : Nat} {connectedTo : BlockId}
    {joined : CheckPoint}
    (header : applyHeaderConnectedTo env.ledger wallet.localChain block height connectedTo =
      .ok joined) :
    ∃ next, wallet.applyBlockConnectedTo env block height connectedTo = .ok next ∧
      next.localChain = joined := by
  rw [Wallet.applyBlockConnectedTo, header]
  exact ⟨_, rfl, rfl⟩

end Block

/-! ### The wallet of a rebuild -/

/-- What a rebuild starts from: nothing but the descriptors, the network and what
was revealed. -/
def Wallet.renewed (env : Environment) (wallet : Wallet) : Wallet where
  external := wallet.external
  internal := wallet.internal
  network := wallet.network
  revealedExternal := wallet.revealedExternal
  revealedInternal := wallet.revealedInternal
  localChain := .new ⟨0, env.genesis wallet.network⟩
  index := []
  anchors := []
  seen := []
  staged :=
    [.created wallet.external wallet.internal wallet.network,
      .checkpoints [⟨0, env.genesis wallet.network⟩]] ++
      wallet.revealedExternal.toList.map (.revealed .external) ++
      wallet.revealedInternal.toList.map (.revealed .internal)

theorem fresh_wallet_of_ne {env : Environment} {wallet : Wallet}
    (different : wallet.external ≠ wallet.internal) :
    freshWallet (checkpointWallets env) wallet = .ok (wallet.renewed env) := by
  have created : Wallet.create env wallet.external wallet.internal wallet.network = .ok _ :=
    if_neg different
  simp only [freshWallet, checkpointWallets, created, Wallet.renewed]
  cases wallet.revealedExternal with
  | none =>
      cases wallet.revealedInternal with
      | none => rfl
      | some index => rfl
  | some first =>
      cases wallet.revealedInternal with
      | none => rfl
      | some index => rfl

theorem fresh_wallet_of_eq {env : Environment} {wallet : Wallet}
    (same : wallet.external = wallet.internal) :
    freshWallet (checkpointWallets env) wallet =
      .error (.rebuild "External and internal descriptors are the same") := by
  have refused : Wallet.create env wallet.external wallet.internal wallet.network = .error _ :=
    if_pos same
  simp only [freshWallet, checkpointWallets, refused]
  rfl

theorem fresh_wallet_eq_ok {env : Environment} {wallet fresh : Wallet} :
    freshWallet (checkpointWallets env) wallet = .ok fresh ↔
      wallet.external ≠ wallet.internal ∧ fresh = wallet.renewed env := by
  by_cases same : wallet.external = wallet.internal
  · simp [fresh_wallet_of_eq same, same]
  · simp [fresh_wallet_of_ne same, same, eq_comm]

/-- A node: the tip of its best chain, which fixes the blocks below, and its
mempool. -/
structure Node where
  tip : BlockId
  mempool : List (Txid × UInt64)

namespace Node

variable (ledger : Ledger) (node : Node)

def bestChain (height : Nat) : BlockHash := node.tip.ancestor ledger.prev height

/-- The next blocks of the best chain; each is connected to the one emitted
before it, the first to `connectedTo`. -/
def blocksFrom : Nat → Nat → BlockId → List (BlockEvent BlockHash)
  | 0, _, _ => []
  | count + 1, height, connectedTo =>
      ⟨node.bestChain ledger height, height, connectedTo⟩ ::
        blocksFrom count (height + 1) ⟨height, node.bestChain ledger height⟩

/-- An emitter goes back to the highest checkpoint on the best chain. From there
it emits the following blocks, those below the start height left out. -/
def emitter (cp : CheckPoint) (startHeight : Nat) : Emitter BlockHash Txid :=
  match cp.blocks.find? (fun block => Located.OnBranch ledger.prev block node.tip) with
  | none => ⟨[], .error "Block not found", .ok node.mempool⟩
  | some agreement =>
      let next := if agreement.height < startHeight then startHeight else agreement.height + 1
      if node.tip.height < startHeight then
        ⟨[], .error "Block height out of range", .ok node.mempool⟩
      else
        ⟨node.blocksFrom ledger (node.tip.height + 1 - next) next agreement, .ok (),
          .ok node.mempool⟩

end Node

/-- The emitter when request number `request` fails: those for blocks come
first, the last of them finds no block, then comes the one for the mempool. -/
def Emitter.failingAt {Block Tx : Type} (emitter : Emitter Block Tx) : Option Nat →
    Emitter Block Tx
  | none => emitter
  | some request =>
      if request ≤ emitter.blocks.length then
        { emitter with blocks := emitter.blocks.take request, ended := .error "connection lost" }
      else { emitter with mempool := .error "connection lost" }

/-- One pass: a node that stays as it is, and the requests that fail. -/
structure Pass where
  node : Node
  failsAt : Option Nat
  rebuildFailsAt : Option Nat

def Pass.rpc (ledger : Ledger) (pass : Pass) : Rpc BlockHash Txid where
  emitter cp startHeight := (pass.node.emitter ledger cp startHeight).failingAt pass.failsAt
  rebuildEmitter cp startHeight :=
    (pass.node.emitter ledger cp startHeight).failingAt pass.rebuildFailsAt

def syncPass (env : Environment) (wallet : Wallet) (pass : Pass) :
    Wallet × Except ChainSyncError (SyncResult (List Change)) :=
  emitterSync (checkpointWallets env) (pass.rpc env.ledger) wallet

def afterPass (env : Environment) (wallet : Wallet) (pass : Pass) : Wallet :=
  (syncPass env wallet pass).1

/-! ### A small ledger -/

def depositScript : ScriptBuf := [0]

/-- Two chains over the genesis block 0: the empty blocks 1 and 2, and the
blocks 3, 4 and 5, of which block 3 holds a deposit. -/
def forkLedger : Ledger where
  block hash := match hash.val with
    | 2 => ⟨1, []⟩
    | 3 => ⟨0, [9]⟩
    | 4 => ⟨3, []⟩
    | 5 => ⟨4, []⟩
    | _ => ⟨0, []⟩
  tx _ := ⟨[], [depositScript]⟩

def forkEnvironment : Environment where
  ledger := forkLedger
  genesis _ := 0
  scripts _ revealed := if revealed = some 0 then [depositScript] else []
  floating wallet := wallet.seen.map Prod.fst ++ wallet.anchors.map Prod.fst

def newWallet : Wallet where
  external := ['e']
  internal := ['i']
  network := .regtest
  revealedExternal := some 0
  revealedInternal := none
  localChain := .new ⟨0, 0⟩
  index := []
  anchors := []
  seen := []
  staged := []

def passAt (height : Nat) (hash : BlockHash) (mempool : List (Txid × UInt64)) : Pass :=
  ⟨⟨⟨height, hash⟩, mempool⟩, none, none⟩

end EmvaultCore.ChainSync
