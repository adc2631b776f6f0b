import Mathlib.Data.Multiset.Basic
import EmvaultCore.FederationMutation
import EmvaultCore.Multipath
import EmvaultCore.Recovery

/-!
# The address space of a federation

The scripts that a wallet derives from the multipath descriptor, and those that
can be derived from what a recovery template carries. Child keys and scripts are
parameters.
-/

namespace EmvaultCore

open Library (Text)

/-- BIP-32 derivation, and the output scripts of the two multisig forms. -/
structure ScriptDerivation (Key Script : Type) where
  fixed : SinglePubKey → Key
  child : Xpub → DerivationPath → Key
  wshSortedmulti : Nat → List Key → Script
  trMultiA : Key → Nat → List Key → Script

namespace ScriptDerivation

variable {Key Script : Type}

/-- Different paths of one length give different keys, and scripts commit to keys. -/
structure Separates (derivation : ScriptDerivation Key Script) : Prop where
  paths : ∀ left right leftPath rightPath, leftPath.length = rightPath.length →
    derivation.child left leftPath = derivation.child right rightPath → leftPath = rightPath
  wsh : ∀ k other keys others, derivation.wshSortedmulti k keys =
    derivation.wshSortedmulti other others → ∀ key ∈ keys, key ∈ others
  tr : ∀ internal otherInternal k other keys others, derivation.trMultiA internal k keys =
    derivation.trMultiA otherInternal other others → ∀ key ∈ keys, key ∈ others

variable (derivation : ScriptDerivation Key Script)

/-- The key at an index. A multipath key has to be split first. -/
def keyAt (index : Fin (2 ^ 31)) : DescriptorPublicKey → Option Key
  | .single key => some (derivation.fixed key.key)
  | .xPub key =>
      match key.wildcard with
      | .none => some (derivation.child key.xkey key.derivationPath)
      | .unhardened => some (derivation.child key.xkey (key.derivationPath ++ [.normal index]))
      | .hardened => none
  | .multiXPub _ => none

def scriptAt (index : Fin (2 ^ 31)) : Descriptor → Option Script
  | .wsh (.sortedMulti k pks) => do
      let keys ← pks.mapM (derivation.keyAt index)
      some (derivation.wshSortedmulti k keys)
  | .tr internalKey (some (.multiA k pks)) => do
      let internal ← derivation.keyAt index internalKey
      let keys ← pks.mapM (derivation.keyAt index)
      some (derivation.trMultiA internal k keys)
  | _ => none

end ScriptDerivation

/-- One path of a multipath key: the first receives, the second takes change. -/
def DescriptorPublicKey.branch (keychain : Nat) : DescriptorPublicKey → DescriptorPublicKey
  | .multiXPub key =>
      match key.derivationPaths[keychain]? with
      | some path => .xPub ⟨key.origin, key.xkey, path, key.wildcard⟩
      | none => .multiXPub key
  | key => key

section Spaces

variable {Key Script : Type} (miniscript : Miniscript) (derivation : ScriptDerivation Key Script)

def Derivable (descriptor : Descriptor) (script : Script) : Prop :=
  ∃ keychain index,
    derivation.scriptAt index (descriptor.mapKeys (.branch keychain)) = some script

def Federation.Derives (federation : Federation) (script : Script) : Prop :=
  ∃ descriptor wallet, federation.descriptor = some descriptor ∧
    miniscript.fromStr (toMultipathString miniscript descriptor) = .ok wallet ∧
    Derivable derivation wallet script

/-- The scripts of a descriptor that the template or an import step carries. -/
def RecoveryTemplate.Derives (template : RecoveryTemplate) (script : Script) : Prop :=
  ∃ text ∈ template.carried, ∃ recovered, miniscript.fromStr text = .ok recovered ∧
    Derivable derivation recovered script

def RecoveryTemplate.Covers (template : RecoveryTemplate) (federation : Federation) : Prop :=
  ∀ script, federation.Derives miniscript derivation script →
    template.Derives miniscript derivation script

/-- `miniscript` reads the descriptor it printed, also lifted to both keychains. -/
def ReadsDescriptor (descriptor : Descriptor) : Prop :=
  miniscript.fromStr (descriptor.toText miniscript) = .ok descriptor ∧
    miniscript.fromStr ((descriptor.mapKeys .lifted).body miniscript.printing) =
      .ok (descriptor.mapKeys .lifted)

end Spaces

section Scripts

variable {Key Script : Type} {derivation : ScriptDerivation Key Script} {index : Fin (2 ^ 31)}

theorem keys_at {keys : List DescriptorPublicKey} {change : DescriptorPublicKey → DescriptorPublicKey}
    {resolved : DescriptorPublicKey → Key}
    (each : ∀ key ∈ keys, derivation.keyAt index (change key) = some (resolved key)) :
    (keys.map change).mapM (derivation.keyAt index) = some (keys.map resolved) := by
  induction keys with
  | nil => rfl
  | cons key keys ih =>
      have later := ih fun other member => each other (List.mem_cons_of_mem key member)
      rw [List.map_cons, List.mapM_cons, each key List.mem_cons_self, later]
      rfl

namespace DescriptorBuilder

variable {builder : DescriptorBuilder} {network : Network}

def scriptOf (derivation : ScriptDerivation Key Script) (builder : DescriptorBuilder)
    (internal : Key) (keys : List Key) : Script :=
  match builder.scriptType with
  | .wsh => derivation.wshSortedmulti builder.threshold.toNat keys
  | .tr => derivation.trMultiA internal builder.threshold.toNat keys

theorem script_of_assembled {change : DescriptorPublicKey → DescriptorPublicKey}
    {resolved : DescriptorPublicKey → Key} {internal : Key}
    (each : ∀ key ∈ builder.cosigners, derivation.keyAt index (change key) = some (resolved key))
    (inside : derivation.keyAt index (change (builder.internalKey network)) = some internal) :
    derivation.scriptAt index ((builder.assembled network).mapKeys change) =
      some (builder.scriptOf derivation internal (builder.cosigners.map resolved)) := by
  unfold assembled scriptOf
  cases builder.scriptType with
  | wsh =>
      simp only [Descriptor.mapKeys, ScriptDerivation.scriptAt, keys_at each]
      rfl
  | tr =>
      simp only [Descriptor.mapKeys, ScriptDerivation.scriptAt, keys_at each, inside]
      rfl

theorem ranged_cosigner (ranged : builder.mode = .ranged) {key : DescriptorPublicKey}
    (among : key ∈ builder.cosigners) :
    ∃ origin xkey, key = .xPub ⟨origin, xkey, [.normal 0], .unhardened⟩ := by
  rcases cosigners_mem among with ⟨entry, -, rfl⟩
  exact ⟨some (entry.fingerprint, entry.derivationPath), entry.xpub, cosigner_of_ranged ranged entry⟩

theorem fixed_cosigner (fixed : builder.mode = .fixed) {key : DescriptorPublicKey}
    (among : key ∈ builder.cosigners) : ∃ pub, key = .single pub := by
  rcases cosigners_mem among with ⟨entry, -, rfl⟩
  exact cosigner_of_fixed fixed entry

theorem script_of_commits (separates : derivation.Separates) {internal other : Key}
    {keys others : List Key}
    (same : builder.scriptOf derivation internal keys = builder.scriptOf derivation other others) :
    ∀ key ∈ keys, key ∈ others := by
  unfold scriptOf at same
  cases kind : builder.scriptType with
  | wsh =>
      rw [kind] at same
      exact separates.wsh _ _ _ _ same
  | tr =>
      rw [kind] at same
      exact separates.tr _ _ _ _ _ _ same

theorem map_keys_eq_self {change : DescriptorPublicKey → DescriptorPublicKey}
    (each : ∀ key ∈ builder.cosigners, change key = key)
    (inside : change (builder.internalKey network) = builder.internalKey network) :
    (builder.assembled network).mapKeys change = builder.assembled network := by
  have cosigners : builder.cosigners.map change = builder.cosigners := by
    conv_rhs => rw [← List.map_id builder.cosigners]
    exact List.map_congr_left each
  unfold assembled
  cases builder.scriptType with
  | wsh => simp only [Descriptor.mapKeys, cosigners]
  | tr => simp only [Descriptor.mapKeys, cosigners, inside]

def slotKey (derivation : ScriptDerivation Key Script) (keychain : Fin (2 ^ 31))
    (index : Fin (2 ^ 31)) : DescriptorPublicKey → Key
  | .single key => derivation.fixed key.key
  | .xPub key => derivation.child key.xkey [.normal keychain, .normal index]
  | .multiXPub key => derivation.child key.xkey [.normal keychain, .normal index]

theorem change_script (ranged : builder.mode = .ranged) (raw : builder.taprootInternalKey = .rawNums) :
    derivation.scriptAt index
        (((builder.assembled network).mapKeys .lifted).mapKeys (.branch 1)) =
      some (builder.scriptOf derivation (derivation.fixed (.xOnly numsInternalKey))
        (builder.cosigners.map (slotKey derivation 1 index))) := by
  have twice : ((builder.assembled network).mapKeys .lifted).mapKeys (.branch 1) =
      (builder.assembled network).mapKeys fun key => key.lifted.branch 1 := by
    unfold assembled
    cases builder.scriptType <;> simp [Descriptor.mapKeys, Function.comp_def]
  rw [twice]
  apply script_of_assembled
  · intro key among
    rcases ranged_cosigner ranged among with ⟨origin, xkey, rfl⟩
    rfl
  · rw [internalKey, raw]
    rfl

theorem receive_script (ranged : builder.mode = .ranged)
    (raw : builder.taprootInternalKey = .rawNums) (keychain : Nat) :
    derivation.scriptAt index ((builder.assembled network).mapKeys (.branch keychain)) =
      some (builder.scriptOf derivation (derivation.fixed (.xOnly numsInternalKey))
        (builder.cosigners.map (slotKey derivation 0 index))) := by
  apply script_of_assembled
  · intro key among
    rcases ranged_cosigner ranged among with ⟨origin, xkey, rfl⟩
    rfl
  · rw [internalKey, raw]
    rfl

theorem change_not_received (separates : derivation.Separates) (ranged : builder.mode = .ranged)
    (raw : builder.taprootInternalKey = .rawNums) (nonempty : builder.cosigners ≠ [])
    {changeIndex : Fin (2 ^ 31)} (keychain : Nat) :
    derivation.scriptAt index ((builder.assembled network).mapKeys (.branch keychain)) ≠
      derivation.scriptAt changeIndex
        (((builder.assembled network).mapKeys .lifted).mapKeys (.branch 1)) := by
  intro same
  rw [receive_script ranged raw, change_script ranged raw] at same
  have commits := script_of_commits separates (Option.some.inj same)
  rcases List.exists_mem_of_ne_nil _ nonempty with ⟨key, among⟩
  have received := commits _ (List.mem_map.mpr ⟨key, among, rfl⟩)
  rcases List.mem_map.mp received with ⟨other, otherAmong, sameKey⟩
  rcases ranged_cosigner ranged among with ⟨origin, xkey, rfl⟩
  rcases ranged_cosigner ranged otherAmong with ⟨otherOrigin, otherXkey, rfl⟩
  have paths := separates.paths otherXkey xkey [.normal 1, .normal changeIndex]
    [.normal 0, .normal index] rfl sameKey
  exact absurd paths (by simp)

theorem fixed_lifted (fixed : builder.mode = .fixed) (raw : builder.taprootInternalKey = .rawNums) :
    (builder.assembled network).mapKeys .lifted = builder.assembled network := by
  apply map_keys_eq_self
  · intro key among
    rcases fixed_cosigner fixed among with ⟨pub, rfl⟩
    rfl
  · rw [internalKey, raw]
    rfl

end DescriptorBuilder

end Scripts

section Coverage

variable {Key Script : Type} {derivation : ScriptDerivation Key Script} {miniscript : Miniscript}
  {origin federation : Federation}

theorem federation_assembled (faithful : miniscript.Faithful)
    (reached : Federation.Reachable miniscript origin federation)
    (onBitcoin : federation.network.isBitcoin = true) :
    ∃ (builder : DescriptorBuilder) (network : Network), builder.mode = federation.keyMode ∧
      builder.taprootInternalKey = .rawNums ∧ builder.cosigners ≠ [] ∧
      federation.descriptor = some (builder.assembled network) ∧
      federation.descriptorString = (builder.assembled network).toText miniscript := by
  rcases Federation.built_of_reachable reached onBitcoin with ⟨-, descriptor, answer, stored, text⟩
  rcases DescriptorBuilder.build_eq_ok.mp answer with ⟨nonempty, -⟩
  rcases DescriptorBuilder.build_is_assembled faithful answer with ⟨network, -, rfl⟩
  exact ⟨_, network, rfl, rfl, DescriptorBuilder.cosigners_nonempty nonempty, stored, text⟩

/-- What the library wrote about a federation, and how `miniscript` reads it. -/
structure Recorded (miniscript : Miniscript) (federation : Federation)
    (template : RecoveryTemplate) : Prop where
  carries : template.descriptor = federation.descriptorString
  reads : ∀ descriptor, federation.descriptor = some descriptor →
    ReadsDescriptor miniscript descriptor

variable {template : RecoveryTemplate}

theorem fixed_template_covers (faithful : miniscript.Faithful)
    (base58 : miniscript.printing.PrintsBase58) (twoPaths : miniscript.printing.PrintsTwoPaths)
    (reached : Federation.Reachable miniscript origin federation)
    (onBitcoin : federation.network.isBitcoin = true)
    (recorded : Recorded miniscript federation template) (fixed : federation.keyMode = .fixed) :
    template.Covers miniscript derivation federation := by
  intro script derives
  rcases federation_assembled faithful reached onBitcoin with
    ⟨assembler, network, mode, raw, -, stored, text⟩
  rcases recorded.reads _ stored with ⟨readsText, readsLifted⟩
  have same : (assembler.assembled network).mapKeys .lifted = assembler.assembled network :=
    DescriptorBuilder.fixed_lifted (mode.trans fixed) raw
  rcases derives with ⟨descriptor, wallet, again, parsed, derivable⟩
  obtain rfl := Option.some.inj (stored.symm.trans again)
  rw [DescriptorBuilder.multipath_is_lifted base58 twoPaths, readsLifted] at parsed
  obtain rfl := Except.ok.inj parsed
  rw [same] at derivable
  have carried : template.descriptor = (assembler.assembled network).toText miniscript :=
    recorded.carries.trans text
  exact ⟨template.descriptor, mem_carried.mpr rfl, _, carried ▸ readsText, derivable⟩

/-- In ranged mode the first change script cannot be recovered. -/
theorem ranged_template_misses (faithful : miniscript.Faithful)
    (base58 : miniscript.printing.PrintsBase58) (twoPaths : miniscript.printing.PrintsTwoPaths)
    (separates : derivation.Separates)
    (reached : Federation.Reachable miniscript origin federation)
    (onBitcoin : federation.network.isBitcoin = true)
    (recorded : Recorded miniscript federation template) (ranged : federation.keyMode = .ranged) :
    ¬ template.Covers miniscript derivation federation := by
  intro covers
  rcases federation_assembled faithful reached onBitcoin with
    ⟨assembler, network, mode, raw, nonempty, stored, text⟩
  rcases recorded.reads _ stored with ⟨readsText, readsLifted⟩
  have change := @DescriptorBuilder.change_script Key Script derivation 0 assembler network
    (mode.trans ranged) raw
  rw [← DescriptorBuilder.multipath_is_lifted base58 twoPaths] at readsLifted
  have derives : federation.Derives miniscript derivation _ :=
    ⟨_, _, stored, readsLifted, 1, 0, change⟩
  rcases covers _ derives with ⟨found, member, recovered, read, keychain, index, received⟩
  rw [mem_carried.mp member, recorded.carries, text, readsText] at read
  obtain rfl := Except.ok.inj read
  exact absurd (received.trans change.symm)
    (DescriptorBuilder.change_not_received separates (mode.trans ranged) raw nonempty keychain)

/-- A built template covers its federation's addresses exactly in fixed mode: the
descriptor it carries has the receive keychain only. -/
theorem template_covers_iff (faithful : miniscript.Faithful)
    (base58 : miniscript.printing.PrintsBase58) (twoPaths : miniscript.printing.PrintsTwoPaths)
    (separates : derivation.Separates)
    (reached : Federation.Reachable miniscript origin federation)
    (onBitcoin : federation.network.isBitcoin = true)
    (reads : ∀ descriptor, federation.descriptor = some descriptor →
      ReadsDescriptor miniscript descriptor)
    {builder : RecoveryTemplateBuilder} (described : builder.federation = federation)
    (sha256 : Text → Text) (now : Int) :
    ∃ template, (builder.build miniscript.printing sha256 now : Outcome Empty RecoveryTemplate) =
        .ok template ∧
      (template.Covers miniscript derivation federation ↔ federation.keyMode = .fixed) := by
  have sound := Federation.sound_of_reachable reached
  rcases @build_spec Empty miniscript.printing sha256 now builder (described ▸ sound.counted) with
    ⟨template, made, carries, -⟩
  have recorded : Recorded miniscript federation template := ⟨described ▸ carries, reads⟩
  refine ⟨template, made, fun covers => ?_, fun fixed => ?_⟩
  · cases kind : federation.keyMode with
    | fixed => rfl
    | ranged =>
        have misses := ranged_template_misses faithful base58 twoPaths separates reached onBitcoin
          recorded kind
        exact absurd covers misses
  · exact fixed_template_covers faithful base58 twoPaths reached onBitcoin recorded fixed

end Coverage

/-! The ranged 2-of-2 of two mock signers, with derivation kept symbolic: a child
key is its parent with the path, a script is its form with the keys. -/

namespace MockSigner

open Library.Text

inductive MockScript where
  | wshSortedmulti (k : Nat) (keys : Multiset (SinglePubKey ⊕ Xpub × DerivationPath))
  | trMultiA (internal : SinglePubKey ⊕ Xpub × DerivationPath) (k : Nat)
      (keys : List (SinglePubKey ⊕ Xpub × DerivationPath))

def symbolic : ScriptDerivation (SinglePubKey ⊕ Xpub × DerivationPath) MockScript where
  fixed := .inl
  child key path := .inr (key, path)
  wshSortedmulti k keys := .wshSortedmulti k keys
  trMultiA internal k keys := .trMultiA internal k keys

theorem symbolic_separates : symbolic.Separates where
  paths := by
    intro left right leftPath rightPath _ same
    exact (Prod.mk.inj (Sum.inr.inj same)).2
  wsh := by
    intro k other keys others same key member
    exact Multiset.mem_coe.mp ((MockScript.wshSortedmulti.inj same).2 ▸ Multiset.mem_coe.mpr member)
  tr := by
    intro internal otherInternal k other keys others same key member
    exact (MockScript.trMultiA.inj same).2.2 ▸ member

def twoPathPrinting : KeyPrinting :=
  { printing with
    derivationPaths := fun paths =>
      if paths = [[.normal 0], [.normal 1]] then ['/', '<', '0', ';', '1', '>'] else [] }

def rangedText : Text := (descriptor .ranged).toText miniscript

def liftedDescriptor : Descriptor := (descriptor .ranged).mapKeys .lifted

def readRanged (text : Text) : Except String Descriptor :=
  if text = rangedText then .ok (descriptor .ranged)
  else if text = liftedDescriptor.body twoPathPrinting then .ok liftedDescriptor
  else .error "unexpected"

def readingMiniscript : Miniscript where
  printing := twoPathPrinting
  newWshSortedmulti := newWshSortedmulti
  fromStr := readRanged
  checksum := checksum

def rangedFederation : Federation where
  threshold := 2
  signers := [first, second]
  descriptor := some (descriptor .ranged)
  descriptorString := rangedText
  network := .bitcoin .testnet
  keyMode := .ranged
  scriptType := .wsh

theorem ranged_federation_made :
    Federation.withKeyMode readingMiniscript 2 [first, second] (.bitcoin .testnet) .ranged =
      .ok rangedFederation := by
  decide +kernel

theorem ranged_federation_reads :
    ∀ descriptor, rangedFederation.descriptor = some descriptor →
      ReadsDescriptor readingMiniscript descriptor := by
  intro stored same
  obtain rfl : MockSigner.descriptor .ranged = stored := Option.some.inj same
  constructor
  · decide +kernel
  · decide +kernel

theorem reading_faithful : readingMiniscript.Faithful where
  sortedmulti := miniscript_faithful.sortedmulti
  multiA := by
    intro internalKey k keys descriptor nonempty answer
    have opening : rangedText.head? = some 'w' ∧
      (liftedDescriptor.body twoPathPrinting).head? = some 'w' := by decide +kernel
    have read : readRanged (Descriptor.body twoPathPrinting
        (.tr internalKey (some (.multiA k keys)))) = .ok descriptor := answer
    unfold readRanged at read
    split_ifs at read with whole lifted
    · rw [← whole] at opening
      exact absurd opening.1 (by simp [Descriptor.body, trText])
    · rw [← lifted] at opening
      exact absurd opening.2 (by simp [Descriptor.body, trText])

def digest (_ : Text) : Text :=
  "92e195eec51283cb4ebaf86b53af529e0fb33669bcd860b6fc42832329135f3a".toList

theorem ranged_federation_reachable :
    Federation.Reachable readingMiniscript rangedFederation rangedFederation :=
  Federation.constructed_with_key_mode ranged_federation_made

/-- A default template of a ranged federation does not cover it. -/
theorem ranged_change_lost :
    ∃ template, (RecoveryTemplate.fromFederation twoPathPrinting digest 1700000000
        rangedFederation : Outcome Empty RecoveryTemplate) = .ok template ∧
      ¬ template.Covers readingMiniscript symbolic rangedFederation := by
  have counted : (RecoveryTemplateBuilder.new rangedFederation).federation.signers.length <
      2 ^ 32 := by decide
  rcases @build_spec Empty twoPathPrinting digest 1700000000 _ counted with
    ⟨template, made, carries, -⟩
  refine ⟨template, made, ?_⟩
  exact ranged_template_misses reading_faithful prints_base58 rfl symbolic_separates
    ranged_federation_reachable rfl ⟨carries, ranged_federation_reads⟩ rfl

theorem template_covers_iff_ranged :
    ∃ template, ((RecoveryTemplateBuilder.new rangedFederation).build twoPathPrinting digest
        1700000000 : Outcome Empty RecoveryTemplate) = .ok template ∧
      (template.Covers readingMiniscript symbolic rangedFederation ↔
        rangedFederation.keyMode = .fixed) :=
  template_covers_iff reading_faithful prints_base58 rfl symbolic_separates
    ranged_federation_reachable rfl ranged_federation_reads rfl digest 1700000000

end MockSigner

end EmvaultCore
