import Mathlib.Data.List.Sort
import EmvaultCore.Descriptor

/-!
# Descriptor construction

The builder of the canonical federation descriptor, `wsh(sortedmulti(m, ...))`
or `tr(NUMS, multi_a(m, ...))`, in both key modes.
-/

namespace EmvaultCore

open Library (Text)
open Library.Text

/-- The BIP-341 point *H*, whose discrete logarithm nobody knows. -/
def numsInternalKey : XOnlyPublicKey :=
  ⟨0x50929b74c1a04954b78b4b6035e97a5e078a5a0f28ec96d547bfee9ace803ac0, by decide⟩

inductive TaprootInternalKey where
  | rawNums
  | numsXpub (chainCode : ChainCode)
deriving DecidableEq, Repr

inductive ScriptType where
  | wsh
  | tr
deriving DecidableEq, Repr

inductive KeyMode where
  | fixed
  | ranged
deriving DecidableEq, Repr

structure KeyEntry where
  fingerprint : Fingerprint
  derivationPath : DerivationPath
  xpub : Xpub
deriving DecidableEq, Repr

def KeyEntry.ofSigner (signer : Signer) : KeyEntry where
  fingerprint := signer.fingerprint
  derivationPath := signer.derivationPath
  xpub := signer.xpub

def buildTaprootKey (entry : KeyEntry) : DescriptorPublicKey :=
  .single ⟨some (entry.fingerprint, entry.derivationPath), .xOnly entry.xpub.publicKey.xOnly⟩

/-- `build_descriptor_key`; index 0 is always a normal child number. -/
def buildDescriptorKey (mode : KeyMode) (entry : KeyEntry) : DescriptorPublicKey :=
  let origin := some (entry.fingerprint, entry.derivationPath)
  match mode with
  | .fixed => .single ⟨origin, .fullKey (PublicKey.new entry.xpub.publicKey)⟩
  | .ranged => .xPub ⟨origin, entry.xpub, [.normal 0], .unhardened⟩

/-- `nums_xpub`: the even-Y point over *H*, which no conversion rejects. -/
def numsXpub (network : Network) (chainCode : ChainCode) : Xpub where
  network := NetworkKind.ofNetwork network
  depth := 0
  parentFingerprint := 0
  childNumber := .normal 0
  publicKey := ⟨numsInternalKey, false⟩
  chainCode := chainCode

def numsXpubDescriptorKey (network : Network) (chainCode : ChainCode) : DescriptorPublicKey :=
  .xPub ⟨none, numsXpub network chainCode, [.normal 0], .unhardened⟩

/-- `reject_duplicate_keys`, with the texts seen so far. -/
def rejectRepeated (printing : KeyPrinting) :
    List Text → List DescriptorPublicKey → Except DescriptorError Unit
  | _, [] => .ok ()
  | seen, key :: keys =>
      let text := key.toText printing
      if text ∈ seen then .error (.duplicateKey (String.ofList text))
      else rejectRepeated printing (text :: seen) keys

def rejectDuplicateKeys (printing : KeyPrinting) (keys : List DescriptorPublicKey) :
    Except DescriptorError Unit :=
  rejectRepeated printing [] keys

structure DescriptorBuilder where
  threshold : UInt32
  mode : KeyMode
  scriptType : ScriptType
  taprootInternalKey : TaprootInternalKey
  network : NetworkType
  entries : BTreeMap SignerId KeyEntry

namespace DescriptorBuilder

def new (threshold : UInt32) (network : NetworkType) : DescriptorBuilder where
  threshold := threshold
  mode := .fixed
  scriptType := .wsh
  taprootInternalKey := .rawNums
  network := network
  entries := ∅

def setKeyMode (builder : DescriptorBuilder) (mode : KeyMode) : DescriptorBuilder :=
  { builder with mode := mode }

def setScriptType (builder : DescriptorBuilder) (scriptType : ScriptType) : DescriptorBuilder :=
  { builder with scriptType := scriptType }

def setTaprootInternalKey (builder : DescriptorBuilder) (key : TaprootInternalKey) :
    DescriptorBuilder :=
  { builder with taprootInternalKey := key }

/-- `add_signer`: what it leaves in the builder, and its answer. The entry is
replaced before a duplicate is reported. -/
def addSigner (builder : DescriptorBuilder) (signer : Signer) :
    DescriptorBuilder × Except DescriptorError Unit :=
  let inserted :=
    { builder with entries := builder.entries.insert signer.id (KeyEntry.ofSigner signer) }
  (inserted,
    if signer.id ∈ builder.entries then .error (.duplicateKey signer.id) else .ok ())

def addSigners : DescriptorBuilder → List Signer → Except DescriptorError DescriptorBuilder
  | builder, [] => .ok builder
  | builder, signer :: signers =>
      match builder.addSigner signer with
      | (_, .error cause) => .error cause
      | (added, .ok ()) => added.addSigners signers

variable (miniscript : Miniscript)

def checkNetworks (expected : NetworkKind) : List KeyEntry → Except DescriptorError Unit
  | [] => .ok ()
  | entry :: entries =>
      if entry.xpub.network ≠ expected then
        .error (.networkMismatch expected.debug entry.xpub.network.debug)
      else checkNetworks expected entries

def buildWsh (builder : DescriptorBuilder) : Except DescriptorError Descriptor := do
  let keys := builder.entries.valuesInOrder.map (buildDescriptorKey builder.mode)
  rejectDuplicateKeys miniscript.printing keys
  (miniscript.newWshSortedmulti builder.threshold.toNat keys).mapError .miniscript

def taprootCosigner (builder : DescriptorBuilder) (entry : KeyEntry) : DescriptorPublicKey :=
  match builder.mode with
  | .fixed => buildTaprootKey entry
  | .ranged => buildDescriptorKey .ranged entry

/-- A stable sort by the x-only form of each parent key. -/
def sortedTaprootKeys (builder : DescriptorBuilder) : List DescriptorPublicKey :=
  let keyed := builder.entries.valuesInOrder.map fun entry =>
    (entry.xpub.publicKey.xOnly, builder.taprootCosigner entry)
  (keyed.insertionSort fun left right => left.1 ≤ right.1).map Prod.snd

def taprootInternalKeyText (builder : DescriptorBuilder) (network : Network) : Text :=
  match builder.taprootInternalKey with
  | .rawNums => hex 64 numsInternalKey
  | .numsXpub chainCode =>
      (numsXpubDescriptorKey network chainCode).toText miniscript.printing

def taprootText (builder : DescriptorBuilder) (network : Network) : Text :=
  let joined := join [','] (builder.sortedTaprootKeys.map (·.toText miniscript.printing))
  trText ++ builder.taprootInternalKeyText miniscript network ++ [','] ++ multiAText ++
    decimal builder.threshold.toNat ++ [','] ++ joined ++ [')', ')']

def buildTaproot (builder : DescriptorBuilder) (network : Network) :
    Except DescriptorError Descriptor := do
  rejectDuplicateKeys miniscript.printing builder.sortedTaprootKeys
  (miniscript.fromStr (builder.taprootText miniscript network)).mapError .miniscript

def build (builder : DescriptorBuilder) : Except DescriptorError Descriptor :=
  if builder.entries.isEmpty then .error (.parse "descriptor builder has no signers")
  else
    match builder.network.bitcoin? with
    | none => .error (.parse "only Bitcoin networks supported")
    | some network => do
        checkNetworks (NetworkKind.ofNetwork network) builder.entries.valuesInOrder
        match builder.scriptType with
        | .wsh => builder.buildWsh miniscript
        | .tr => builder.buildTaproot miniscript network

end DescriptorBuilder

namespace DescriptorBuilder

def configured (threshold : UInt32) (network : NetworkType) (mode : KeyMode)
    (scriptType : ScriptType) (internalKey : TaprootInternalKey) : DescriptorBuilder :=
  (((new threshold network).setKeyMode mode).setScriptType scriptType).setTaprootInternalKey
    internalKey

/-- What every construction path does: configure, add each signer, build. -/
def buildFrom (miniscript : Miniscript) (threshold : UInt32) (network : NetworkType)
    (mode : KeyMode) (scriptType : ScriptType) (internalKey : TaprootInternalKey)
    (signers : List Signer) : Except DescriptorError Descriptor := do
  let builder ← (configured threshold network mode scriptType internalKey).addSigners signers
  builder.build miniscript

end DescriptorBuilder

theorem reject_repeated_ok {printing : KeyPrinting} {seen : List Text}
    {keys : List DescriptorPublicKey} :
    rejectRepeated printing seen keys = .ok () ↔
      (keys.map (·.toText printing)).Nodup ∧ ∀ key ∈ keys, key.toText printing ∉ seen := by
  induction keys generalizing seen with
  | nil => simp [rejectRepeated]
  | cons key keys ih =>
      rw [rejectRepeated]
      by_cases repeated : key.toText printing ∈ seen
      · simp [repeated]
      · simp only [repeated, if_false, ih, List.map_cons, List.nodup_cons, List.mem_map,
          List.mem_cons, forall_eq_or_imp, not_exists, not_and, not_or]
        constructor
        · rintro ⟨distinct, fresh⟩
          exact ⟨⟨fun other member => (fresh other member).1, distinct⟩, not_false,
            fun other member => (fresh other member).2⟩
        · rintro ⟨⟨apart, distinct⟩, -, fresh⟩
          exact ⟨distinct, fun other member => ⟨apart other member, fresh other member⟩⟩

theorem reject_duplicate_keys_ok {printing : KeyPrinting} {keys : List DescriptorPublicKey} :
    rejectDuplicateKeys printing keys = .ok () ↔ (keys.map (·.toText printing)).Nodup := by
  simp [rejectDuplicateKeys, reject_repeated_ok]

theorem keys_text_join {printing : KeyPrinting} {keys : List DescriptorPublicKey}
    (nonempty : keys ≠ []) :
    ',' :: join [','] (keys.map (·.toText printing)) = keysText printing keys := by
  have someText : keys.map (·.toText printing) ≠ [] := by simpa using nonempty
  rw [join_comma someText, keysText, List.map_map]
  rfl

namespace DescriptorBuilder

theorem check_networks_ok {expected : NetworkKind} {entries : List KeyEntry} :
    checkNetworks expected entries = .ok () ↔
      ∀ entry ∈ entries, entry.xpub.network = expected := by
  induction entries with
  | nil => simp [checkNetworks]
  | cons entry entries ih =>
      rw [checkNetworks]
      by_cases same : entry.xpub.network = expected <;> simp [same, ih]

theorem sorted_taproot_keys_perm (builder : DescriptorBuilder) :
    builder.sortedTaprootKeys.Perm
      (builder.entries.valuesInOrder.map builder.taprootCosigner) := by
  have sorted := List.perm_insertionSort
    (fun left right : XOnlyPublicKey × DescriptorPublicKey => left.1 ≤ right.1)
    (builder.entries.valuesInOrder.map fun entry =>
      (entry.xpub.publicKey.xOnly, builder.taprootCosigner entry))
  simpa [sortedTaprootKeys, Function.comp_def] using sorted.map Prod.snd

def cosigner (builder : DescriptorBuilder) (entry : KeyEntry) : DescriptorPublicKey :=
  match builder.scriptType with
  | .wsh => buildDescriptorKey builder.mode entry
  | .tr => builder.taprootCosigner entry

def cosigners (builder : DescriptorBuilder) : List DescriptorPublicKey :=
  match builder.scriptType with
  | .wsh => builder.entries.valuesInOrder.map (buildDescriptorKey builder.mode)
  | .tr => builder.sortedTaprootKeys

def internalKey (builder : DescriptorBuilder) (network : Network) : DescriptorPublicKey :=
  match builder.taprootInternalKey with
  | .rawNums => .single ⟨none, .xOnly numsInternalKey⟩
  | .numsXpub chainCode => numsXpubDescriptorKey network chainCode

/-- The descriptor the builder hands to `miniscript`. -/
def assembled (builder : DescriptorBuilder) (network : Network) : Descriptor :=
  match builder.scriptType with
  | .wsh => .wsh (.sortedMulti builder.threshold.toNat builder.cosigners)
  | .tr => .tr (builder.internalKey network)
      (some (.multiA builder.threshold.toNat builder.cosigners))

def accepted (miniscript : Miniscript) (builder : DescriptorBuilder) (network : Network) :
    Except String Descriptor :=
  match builder.scriptType with
  | .wsh => miniscript.newWshSortedmulti builder.threshold.toNat builder.cosigners
  | .tr => miniscript.fromStr ((builder.assembled network).body miniscript.printing)

theorem cosigners_perm (builder : DescriptorBuilder) :
    builder.cosigners.Perm (builder.entries.valuesInOrder.map builder.cosigner) := by
  unfold cosigners cosigner
  cases builder.scriptType with
  | wsh => exact List.Perm.refl _
  | tr => exact builder.sorted_taproot_keys_perm

theorem internal_key_text (miniscript : Miniscript) (builder : DescriptorBuilder)
    (network : Network) :
    builder.taprootInternalKeyText miniscript network =
      (builder.internalKey network).toText miniscript.printing := by
  unfold taprootInternalKeyText internalKey
  cases builder.taprootInternalKey with
  | rawNums => rfl
  | numsXpub chainCode => rfl

theorem cosigners_nonempty {builder : DescriptorBuilder}
    (nonempty : builder.entries.isEmpty = false) : builder.cosigners ≠ [] := by
  intro none
  have values := builder.cosigners_perm
  rw [none, List.nil_perm, List.map_eq_nil_iff, BTreeMap.valuesInOrder, List.map_eq_nil_iff,
    Std.ExtTreeMap.toList_eq_nil_iff] at values
  simp [values] at nonempty

theorem taproot_text {builder : DescriptorBuilder} {miniscript : Miniscript} {network : Network}
    (taproot : builder.scriptType = .tr) (nonempty : builder.cosigners ≠ []) :
    builder.taprootText miniscript network =
      (builder.assembled network).body miniscript.printing := by
  have keys : builder.cosigners = builder.sortedTaprootKeys := by
    simp only [cosigners, taproot]
  have joined : ',' :: join [','] (builder.sortedTaprootKeys.map (·.toText miniscript.printing)) =
      keysText miniscript.printing builder.sortedTaprootKeys :=
    keys_text_join (keys ▸ nonempty)
  simp only [taprootText, assembled, taproot, keys, Descriptor.body, TapTree.toText,
    internal_key_text, ← joined, List.append_assoc, List.cons_append, List.nil_append]

theorem build_eq_ok {miniscript : Miniscript} {builder : DescriptorBuilder}
    {descriptor : Descriptor} :
    builder.build miniscript = .ok descriptor ↔
      builder.entries.isEmpty = false ∧
        ∃ network, builder.network.bitcoin? = some network ∧
          (∀ entry ∈ builder.entries.valuesInOrder,
            entry.xpub.network = NetworkKind.ofNetwork network) ∧
          (builder.cosigners.map (·.toText miniscript.printing)).Nodup ∧
          builder.accepted miniscript network = .ok descriptor := by
  unfold build
  cases empty : builder.entries.isEmpty with
  | true => simp
  | false =>
      have someKey := cosigners_nonempty empty
      simp only [Bool.false_eq_true, if_false, true_and]
      cases builder.network.bitcoin? with
      | none => simp
      | some network =>
          simp only [check_bind_eq_ok, check_networks_ok, Option.some.injEq, exists_eq_left']
          cases kind : builder.scriptType with
          | wsh =>
              simp only [buildWsh, accepted, cosigners, kind, check_bind_eq_ok,
                reject_duplicate_keys_ok, map_error_eq_ok]
          | tr =>
              have text : builder.taprootText miniscript network =
                  (builder.assembled network).body miniscript.printing :=
                taproot_text kind someKey
              simp only [buildTaproot, accepted, text, kind, check_bind_eq_ok,
                reject_duplicate_keys_ok, map_error_eq_ok]
              simp only [cosigners, kind]

theorem build_is_assembled {miniscript : Miniscript} (faithful : miniscript.Faithful)
    {builder : DescriptorBuilder} {descriptor : Descriptor}
    (built : builder.build miniscript = .ok descriptor) :
    ∃ network, builder.network.bitcoin? = some network ∧
      descriptor = builder.assembled network := by
  obtain ⟨nonempty, network, onBitcoin, -, -, answer⟩ := build_eq_ok.mp built
  refine ⟨network, onBitcoin, ?_⟩
  unfold accepted at answer
  unfold assembled at answer ⊢
  cases kind : builder.scriptType with
  | wsh =>
      rw [kind] at answer
      exact faithful.sortedmulti answer
  | tr =>
      rw [kind] at answer
      exact faithful.multiA (cosigners_nonempty nonempty) answer

theorem find_signer_iff {signers : List Signer} (distinct : (signers.map Signer.id).Nodup)
    {id : SignerId} {signer : Signer} :
    signers.find? (·.id = id) = some signer ↔ signer ∈ signers ∧ signer.id = id := by
  constructor
  · intro found
    exact ⟨List.mem_of_find?_eq_some found, by simpa using List.find?_some found⟩
  · rintro ⟨member, rfl⟩
    obtain ⟨other, found⟩ : ∃ other, signers.find? (·.id = signer.id) = some other := by
      rw [← Option.isSome_iff_exists, List.find?_isSome]
      exact ⟨signer, member, by simp⟩
    have sameId : other.id = signer.id := by simpa using List.find?_some found
    rw [found, List.inj_on_of_nodup_map distinct (List.mem_of_find?_eq_some found) member sameId]

def insertAll (entries : BTreeMap SignerId KeyEntry) (signers : List Signer) :
    BTreeMap SignerId KeyEntry :=
  signers.foldl (fun entries signer => entries.insert signer.id (KeyEntry.ofSigner signer)) entries

theorem insert_all_get {entries : BTreeMap SignerId KeyEntry} {signers : List Signer}
    (distinct : (signers.map Signer.id).Nodup) (id : SignerId) :
    (insertAll entries signers)[id]? =
      ((signers.find? (·.id = id)).map KeyEntry.ofSigner).or entries[id]? := by
  induction signers generalizing entries with
  | nil => simp [insertAll]
  | cons signer signers ih =>
      rw [List.map_cons, List.nodup_cons] at distinct
      rw [insertAll, List.foldl_cons, ← insertAll, ih distinct.2, Std.ExtTreeMap.getElem?_insert]
      simp only [Std.LawfulEqCmp.compare_eq_iff_eq]
      by_cases here : signer.id = id
      · have noLater : signers.find? (·.id = id) = none := by
          rw [List.find?_eq_none]
          intro other member same
          have sameId : other.id = signer.id := by simpa [here] using same
          exact distinct.1 (List.mem_map.mpr ⟨other, member, sameId⟩)
        simp [here, noLater]
      · simp [here]

theorem add_signers_eq_ok {builder added : DescriptorBuilder} {signers : List Signer} :
    builder.addSigners signers = .ok added ↔
      (signers.map Signer.id).Nodup ∧ (∀ signer ∈ signers, signer.id ∉ builder.entries) ∧
        added = { builder with entries := insertAll builder.entries signers } := by
  induction signers generalizing builder with
  | nil => simp [addSigners, insertAll, eq_comm]
  | cons signer signers ih =>
      rw [addSigners, addSigner]
      by_cases taken : signer.id ∈ builder.entries
      · simp [taken]
      · simp only [taken, if_false, ih, Std.ExtTreeMap.mem_insert,
          Std.LawfulEqCmp.compare_eq_iff_eq, List.map_cons, List.nodup_cons, List.mem_map,
          List.mem_cons, forall_eq_or_imp, not_or, insertAll, List.foldl_cons, not_exists, not_and,
          not_false_eq_true, true_and]
        constructor
        · rintro ⟨distinct, fresh, result⟩
          have apart : ∀ other ∈ signers, other.id ≠ signer.id :=
            fun other member same => (fresh other member).1 same.symm
          exact ⟨⟨apart, distinct⟩, fun other member => (fresh other member).2, result⟩
        · rintro ⟨⟨apart, distinct⟩, fresh, result⟩
          have unused : ∀ other ∈ signers, signer.id ≠ other.id ∧ other.id ∉ builder.entries :=
            fun other member => ⟨fun same => apart other member same.symm, fresh other member⟩
          exact ⟨distinct, unused, result⟩

def ofSigners (threshold : UInt32) (network : NetworkType) (mode : KeyMode)
    (scriptType : ScriptType) (internalKey : TaprootInternalKey) (signers : List Signer) :
    DescriptorBuilder :=
  { configured threshold network mode scriptType internalKey with
    entries := insertAll ∅ signers }

theorem build_from_eq_ok {miniscript : Miniscript} {threshold : UInt32} {network : NetworkType}
    {mode : KeyMode} {scriptType : ScriptType} {internalKey : TaprootInternalKey}
    {signers : List Signer} {descriptor : Descriptor} :
    buildFrom miniscript threshold network mode scriptType internalKey signers = .ok descriptor ↔
      (signers.map Signer.id).Nodup ∧
        (ofSigners threshold network mode scriptType internalKey signers).build miniscript =
          .ok descriptor := by
  rw [buildFrom, bind_eq_ok]
  constructor
  · rintro ⟨builder, added, built⟩
    obtain ⟨distinct, -, rfl⟩ := add_signers_eq_ok.mp added
    exact ⟨distinct, built⟩
  · rintro ⟨distinct, built⟩
    refine ⟨_, add_signers_eq_ok.mpr ⟨distinct, ?_, rfl⟩, built⟩
    intro signer _
    exact Std.ExtTreeMap.not_mem_empty

theorem insert_all_values {signers : List Signer} (distinct : (signers.map Signer.id).Nodup)
    {entry : KeyEntry} :
    entry ∈ (insertAll ∅ signers).valuesInOrder ↔
      ∃ signer ∈ signers, KeyEntry.ofSigner signer = entry := by
  simp only [BTreeMap.mem_values_in_order, insert_all_get distinct,
    Std.ExtTreeMap.getElem?_empty, Option.or_none, Option.map_eq_some_iff,
    find_signer_iff distinct]
  constructor
  · rintro ⟨id, signer, ⟨member, -⟩, same⟩
    exact ⟨signer, member, same⟩
  · rintro ⟨signer, member, same⟩
    exact ⟨signer.id, signer, ⟨member, rfl⟩, same⟩

theorem insert_all_values_perm {signers : List Signer} (distinct : (signers.map Signer.id).Nodup) :
    (insertAll ∅ signers).valuesInOrder.Perm (signers.map KeyEntry.ofSigner) := by
  have listed : (insertAll ∅ signers).toList.Perm
      (signers.map fun signer => (signer.id, KeyEntry.ofSigner signer)) := by
    have keysOnce : ((insertAll ∅ signers).toList.map Prod.fst).Nodup := by
      rw [Std.ExtTreeMap.map_fst_toList_eq_keys]
      exact Std.ExtTreeMap.nodup_keys
    have idsOnce : ((signers.map fun signer => (signer.id, KeyEntry.ofSigner signer)).map
        Prod.fst).Nodup := by
      rw [List.map_map]
      exact distinct
    rw [List.perm_ext_iff_of_nodup keysOnce.of_map idsOnce.of_map]
    intro pair
    obtain ⟨id, entry⟩ := pair
    rw [Std.ExtTreeMap.mem_toList_iff_getElem?_eq_some, insert_all_get distinct,
      Std.ExtTreeMap.getElem?_empty, Option.or_none, Option.map_eq_some_iff, List.mem_map]
    simp only [find_signer_iff distinct, Prod.mk.injEq]
    constructor
    · intro found
      obtain ⟨signer, ⟨member, same⟩, ofSigner⟩ := found
      exact ⟨signer, member, same, ofSigner⟩
    · intro found
      obtain ⟨signer, member, same, ofSigner⟩ := found
      exact ⟨signer, ⟨member, same⟩, ofSigner⟩
  have values := listed.map Prod.snd
  rw [List.map_map] at values
  exact values

end DescriptorBuilder

end EmvaultCore
