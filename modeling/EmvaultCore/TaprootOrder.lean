import Mathlib.Data.List.Pairwise
import EmvaultCore.PolicyExtraction

/-!
# The key order of a taproot leaf

The builder writes a `multi_a` whose keys it sorted once, by their parent keys.
A `sortedmulti_a` sorts the keys of every derivation index anew.
-/

namespace EmvaultCore

def SinglePubKey.toXOnly : SinglePubKey → XOnlyPublicKey
  | .fullKey key => key.inner.xOnly
  | .xOnly key => key

inductive LeafOp where
  | key (xOnly : XOnlyPublicKey)
  | checkSig
  | checkSigAdd
  | number (value : Nat)
  | numEqual
deriving DecidableEq, Repr

def multiALeaf (k : Nat) : List XOnlyPublicKey → List LeafOp
  | [] => [.number k, .numEqual]
  | first :: rest =>
      [.key first, .checkSig] ++ (rest.map fun key => [.key key, .checkSigAdd]).flatten ++
        [.number k, .numEqual]

section Derived

variable (child : Xpub → ChildNumber → Xpub) (index : Fin (2 ^ 31))

/-- The key of a slot at an index, on the first path of a multipath key. -/
def DescriptorPublicKey.xOnlyAt : DescriptorPublicKey → XOnlyPublicKey
  | .single key => key.key.toXOnly
  | .xPub key => derived key.xkey key.derivationPath key.wildcard
  | .multiXPub key => derived key.xkey (key.derivationPaths.headD []) key.wildcard
where
  derived (xkey : Xpub) (path : DerivationPath) (wildcard : Wildcard) : XOnlyPublicKey :=
    let parent := path.foldl child xkey
    match wildcard with
    | .none => parent.publicKey.xOnly
    | .unhardened => (child parent (.normal index)).publicKey.xOnly
    | .hardened => (child parent (.hardened index)).publicKey.xOnly

def Descriptor.leafAt : Descriptor → Option (List LeafOp)
  | .tr _ (some (.multiA k pks)) => some (multiALeaf k (pks.map (·.xOnlyAt child index)))
  | _ => none

/-- The leaf script if the same keys stood in a `sortedmulti_a`. -/
def Descriptor.sortedLeafAt : Descriptor → Option (List LeafOp)
  | .tr _ (some (.multiA k pks)) =>
      some (multiALeaf k ((pks.map (·.xOnlyAt child index)).insertionSort (· ≤ ·)))
  | _ => none

end Derived

namespace DescriptorBuilder

/-- The leaf of the descriptor is that of a `sortedmulti_a` of the signers' keys. -/
structure IsSortedmultiA (child : Xpub → ChildNumber → Xpub) (builder : DescriptorBuilder)
    (descriptor : Descriptor) : Prop where
  ascending : ∃ internalKey keys,
    descriptor = .tr internalKey (some (.multiA builder.threshold.toNat keys)) ∧
      keys.Perm (builder.entries.valuesInOrder.map builder.taprootCosigner) ∧
      ∀ index, (keys.map (·.xOnlyAt child index)).Pairwise (· ≤ ·)
  leaf : ∀ index, descriptor.leafAt child index = descriptor.sortedLeafAt child index

def receiveKey (child : Xpub → ChildNumber → Xpub) (index : Fin (2 ^ 31)) (entry : KeyEntry) :
    XOnlyPublicKey :=
  (child (child entry.xpub (.normal 0)) (.normal index)).publicKey.xOnly

def KeepsOrder (child : Xpub → ChildNumber → Xpub) (builder : DescriptorBuilder) : Prop :=
  ∀ index, ∀ left ∈ builder.entries.valuesInOrder, ∀ right ∈ builder.entries.valuesInOrder,
    left.xpub.publicKey.xOnly < right.xpub.publicKey.xOnly →
    receiveKey child index left ≤ receiveKey child index right

/-- `miniscript` reads the text of the builder as the descriptor it prints. -/
def ReadsAssembled (miniscript : Miniscript) (builder : DescriptorBuilder) : Prop :=
  ∀ network descriptor,
    miniscript.fromStr ((builder.assembled network).body miniscript.printing) = .ok descriptor →
    descriptor = builder.assembled network

end DescriptorBuilder

section Sorted

variable {Item First Second : Type} [LinearOrder First] [LinearOrder Second] {items : List Item}
  {first : Item → First} {second : Item → Second}

/-- A list sorted by one key is sorted by another exactly when that respects the first. -/
theorem sorted_by_other_iff (distinct : (items.map first).Nodup) :
    ((items.insertionSort fun left right => first left ≤ first right).map second).Pairwise
        (· ≤ ·) ↔
      ∀ left ∈ items, ∀ right ∈ items, first left < first right → second left ≤ second right := by
  let order (left right : Item) : Prop := first left ≤ first right
  have sorted : (items.insertionSort order).Pairwise order := by
    have total : Std.Total order := ⟨fun left right => le_total (first left) (first right)⟩
    have transitive : IsTrans Item order := ⟨fun _ _ _ below above => le_trans below above⟩
    exact List.pairwise_insertionSort order items
  have same := List.perm_insertionSort order items
  rw [List.pairwise_map]
  constructor
  · intro ascending left member right other before
    let placed (one other : Item) : Prop := order one other ∧ second one ≤ second other
    have both : (items.insertionSort order).Pairwise fun one other =>
        placed one other ∨ placed other one := (sorted.and ascending).imp Or.inl
    have symmetric : Std.Symm fun one other => placed one other ∨ placed other one :=
      ⟨fun _ _ => Or.symm⟩
    have different : left ≠ right := fun same => absurd before (same ▸ lt_irrefl (first left))
    rcases both.forall (same.mem_iff.mpr member) (same.mem_iff.mpr other) different with
      here | swapped
    · exact here.2
    · exact absurd swapped.1 (not_le_of_gt before)
  · intro respects
    have apart : (items.insertionSort order).Pairwise fun left right => first left ≠ first right :=
      List.pairwise_map.mp ((same.map first).nodup_iff.mpr distinct)
    apply (sorted.and apart).imp_of_mem
    intro left right member other placed
    exact respects left (same.mem_iff.mp member) right (same.mem_iff.mp other)
      (lt_of_le_of_ne placed.1 placed.2)

end Sorted

namespace DescriptorBuilder

variable {child : Xpub → ChildNumber → Xpub} {builder : DescriptorBuilder}
  {miniscript : Miniscript} {descriptor : Descriptor}

def sortedEntries (builder : DescriptorBuilder) : List KeyEntry :=
  builder.entries.valuesInOrder.insertionSort fun left right =>
    left.xpub.publicKey.xOnly ≤ right.xpub.publicKey.xOnly

theorem sorted_keys_of_entries (builder : DescriptorBuilder) :
    builder.sortedTaprootKeys = builder.sortedEntries.map builder.taprootCosigner := by
  have keyed := List.map_insertionSort
    (fun left right : KeyEntry => left.xpub.publicKey.xOnly ≤ right.xpub.publicKey.xOnly)
    (fun left right : XOnlyPublicKey × DescriptorPublicKey => left.1 ≤ right.1)
    (fun entry => (entry.xpub.publicKey.xOnly, builder.taprootCosigner entry))
    builder.entries.valuesInOrder (fun _ _ _ _ => Iff.rfl)
  rw [sortedTaprootKeys, sortedEntries, ← keyed, List.map_map]
  rfl

theorem cosigner_x_only (index : Fin (2 ^ 31)) (entry : KeyEntry) :
    (builder.taprootCosigner entry).xOnlyAt child index =
      match builder.mode with
      | .fixed => entry.xpub.publicKey.xOnly
      | .ranged => receiveKey child index entry := by
  unfold taprootCosigner
  cases builder.mode with
  | fixed => rfl
  | ranged => rfl

/-- The leaf keys ascend at every index exactly in fixed mode, or where deriving
keeps the order of the parents. -/
theorem ascending_iff
    (distinct : (builder.entries.valuesInOrder.map (·.xpub.publicKey.xOnly)).Nodup) :
    (∀ index, (builder.sortedTaprootKeys.map (·.xOnlyAt child index)).Pairwise (· ≤ ·)) ↔
      builder.mode = .fixed ∨ builder.KeepsOrder child := by
  have slots (index : Fin (2 ^ 31)) :
      builder.sortedTaprootKeys.map (·.xOnlyAt child index) =
        builder.sortedEntries.map fun entry =>
          (builder.taprootCosigner entry).xOnlyAt child index := by
    rw [sorted_keys_of_entries, List.map_map]
    rfl
  simp only [slots, sortedEntries, sorted_by_other_iff distinct, cosigner_x_only, KeepsOrder]
  cases builder.mode with
  | fixed =>
      constructor
      · intro _
        exact Or.inl rfl
      · intro _ index left _ right _ before
        exact before.le
  | ranged => simp

/-- The leaf of a built taproot descriptor is that of a `sortedmulti_a` exactly
in fixed mode, or where the derived keys of every index stand in the order of
their parents. -/
theorem is_sortedmulti_a_iff (reads : builder.ReadsAssembled miniscript)
    (taproot : builder.scriptType = .tr) (built : builder.build miniscript = .ok descriptor)
    (distinct : (builder.entries.valuesInOrder.map (·.xpub.publicKey.xOnly)).Nodup)
    (child : Xpub → ChildNumber → Xpub) :
    builder.IsSortedmultiA child descriptor ↔
      builder.mode = .fixed ∨ builder.KeepsOrder child := by
  obtain ⟨-, network, -, -, -, answer⟩ := build_eq_ok.mp built
  rw [accepted, taproot] at answer
  have shape : descriptor = .tr (builder.internalKey network)
      (some (.multiA builder.threshold.toNat builder.sortedTaprootKeys)) := by
    rw [reads network descriptor answer, assembled, cosigners, taproot]
  rw [← ascending_iff distinct]
  constructor
  · intro sorted
    obtain ⟨internal, keys, same, -, ascending⟩ := sorted.ascending
    rw [shape, Descriptor.tr.injEq, Option.some.injEq, TapTree.multiA.injEq] at same
    rw [same.2.2]
    exact ascending
  · intro ascending
    refine ⟨⟨_, _, shape, builder.sorted_taproot_keys_perm, ascending⟩, ?_⟩
    intro index
    rw [shape, Descriptor.leafAt, Descriptor.sortedLeafAt, (ascending index).insertionSort_eq]

end DescriptorBuilder

/-! The ranged taproot 2-of-2 of two mock signers, with the child keys that BIP-32
gives for the second receive address of each. -/

namespace MockSigner

def rangedTaprootBuilder : DescriptorBuilder :=
  .ofSigners 2 (.bitcoin .testnet) .ranged .tr .rawNums [first, second]

def rangedTaproot : Descriptor := rangedTaprootBuilder.assembled .testnet

def childXpub (depth : Fin 256) (parentFingerprint : Fingerprint) (number : ChildNumber)
    (publicKey : SecpPublicKey) (chainCode : ChainCode) : Xpub :=
  { network := .test, depth, parentFingerprint, childNumber := number, publicKey, chainCode }

def firstReceive : Xpub :=
  childXpub 5 0xafc1c1bc (.normal 0)
    ⟨0x91871df5a8c90a2a06d5b1dcc8ff12b5262435c712b8cdcc15c8edcaae8616a8, true⟩
    0xdc723ea74441b9fb78b595ebda22284cca2b5c8cc4e4140035966b6b9951f063

def secondReceive : Xpub :=
  childXpub 5 0x19b0b4d5 (.normal 0)
    ⟨0xb6bf69a395c924b57cc3fca7a8a7b6d9e6e534e18b6ba85fc7b24738348e7e6a, true⟩
    0xe72f02240d0d4ae8ba81b7e7783dfef608042ed556c01bbb71558ea5d871bef6

/-- The derivations in question, from each signer's key and its receive keychain. -/
def bip32Child (parent : Xpub) (number : ChildNumber) : Xpub :=
  if parent = first.xpub ∧ number = .normal 0 then firstReceive
  else if parent = second.xpub ∧ number = .normal 0 then secondReceive
  else if parent = firstReceive ∧ number = .normal 1 then
    childXpub 6 0x1d9ce279 number
      ⟨0xa86330c6152c5cb4cd32dfccf21dc490fbd380a0fef3abd4ac86bec47bfd279a, true⟩
      0x1960f17da255d073dfb9cb8aae5ee2e17cb3f48026734817fd97c64502433cd2
  else if parent = secondReceive ∧ number = .normal 1 then
    childXpub 6 0x818f42a7 number
      ⟨0x7a321322ef4ab3c491e162695bae4b1edf0607b8f67ea953be6dce3c9d30459c, false⟩
      0x9ffa52e15a0bd28e4c66da3874484a72ade8c2233b4763e6a443aa0f1cdd8b6d
  else parent

theorem ranged_taproot_built :
    rangedTaprootBuilder.build (PolicyMatch.reading miniscript rangedTaproot) =
      .ok rangedTaproot := by
  decide +kernel

theorem ranged_taproot_distinct :
    (rangedTaprootBuilder.entries.valuesInOrder.map (·.xpub.publicKey.xOnly)).Nodup := by
  decide +kernel

theorem is_sortedmulti_a_iff_mock :
    rangedTaprootBuilder.IsSortedmultiA bip32Child rangedTaproot ↔
      rangedTaprootBuilder.mode = .fixed ∨ rangedTaprootBuilder.KeepsOrder bip32Child := by
  have reads : rangedTaprootBuilder.ReadsAssembled
      (PolicyMatch.reading miniscript rangedTaproot) := by
    intro network descriptor answer
    simp only [PolicyMatch.reading] at answer
    split_ifs at answer
    exact (Except.ok.inj answer).symm
  exact DescriptorBuilder.is_sortedmulti_a_iff reads rfl ranged_taproot_built
    ranged_taproot_distinct bip32Child

/-- At the second receive address the leaf has its keys in the other order. -/
theorem second_address_out_of_order :
    rangedTaprootBuilder.build (PolicyMatch.reading miniscript rangedTaproot) =
        .ok rangedTaproot ∧
      rangedTaproot.leafAt bip32Child 1 ≠ rangedTaproot.sortedLeafAt bip32Child 1 ∧
      ¬ rangedTaprootBuilder.IsSortedmultiA bip32Child rangedTaproot := by
  have differ : rangedTaproot.leafAt bip32Child 1 ≠ rangedTaproot.sortedLeafAt bip32Child 1 := by
    decide +kernel
  exact ⟨ranged_taproot_built, differ, fun sorted => differ (sorted.leaf 1)⟩

end MockSigner

end EmvaultCore
