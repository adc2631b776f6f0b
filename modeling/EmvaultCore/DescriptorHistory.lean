import EmvaultCore.FederationMutation

/-!
# The descriptor does not depend on the history

The builder collects its entries in a map ordered by signer id, so the order of
the signers and the mutations that led to them leave no trace in the descriptor.
-/

namespace EmvaultCore

namespace DescriptorBuilder

def contribution (signer : Signer) : SignerId × KeyEntry := (signer.id, .ofSigner signer)

theorem insert_all_eq_some {signers : List Signer} (distinct : (signers.map Signer.id).Nodup)
    {id : SignerId} {entry : KeyEntry} :
    (insertAll ∅ signers)[id]? = some entry ↔ (id, entry) ∈ signers.map contribution := by
  simp only [insert_all_get distinct, Std.ExtTreeMap.getElem?_empty, Option.or_none,
    Option.map_eq_some_iff, find_signer_iff distinct, List.mem_map, contribution, Prod.mk.injEq]
  constructor
  · rintro ⟨signer, ⟨member, sameId⟩, sameEntry⟩
    exact ⟨signer, member, sameId, sameEntry⟩
  · rintro ⟨signer, member, sameId, sameEntry⟩
    exact ⟨signer, ⟨member, sameId⟩, sameEntry⟩

theorem insert_all_eq {left right : List Signer} (leftDistinct : (left.map Signer.id).Nodup)
    (rightDistinct : (right.map Signer.id).Nodup)
    (same : ∀ pair, pair ∈ left.map contribution ↔ pair ∈ right.map contribution) :
    insertAll ∅ left = insertAll ∅ right := by
  apply Std.ExtTreeMap.ext_getElem?
  intro id
  apply Option.ext
  intro entry
  rw [insert_all_eq_some leftDistinct, insert_all_eq_some rightDistinct, same]

theorem build_from_eq {miniscript : Miniscript} {threshold : UInt32} {network : NetworkType}
    {mode : KeyMode} {scriptType : ScriptType} {internalKey : TaprootInternalKey}
    {left right : List Signer} (leftDistinct : (left.map Signer.id).Nodup)
    (rightDistinct : (right.map Signer.id).Nodup)
    (same : ∀ pair, pair ∈ left.map contribution ↔ pair ∈ right.map contribution)
    {descriptor : Descriptor} :
    buildFrom miniscript threshold network mode scriptType internalKey left = .ok descriptor ↔
      buildFrom miniscript threshold network mode scriptType internalKey right =
        .ok descriptor := by
  have entries := insert_all_eq leftDistinct rightDistinct same
  simp only [build_from_eq_ok, leftDistinct, rightDistinct, true_and, ofSigners, entries]

end DescriptorBuilder

namespace Federation

open DescriptorBuilder

variable {miniscript : Miniscript} {left right federation next : Federation}

/-- The same configuration, and signers that contribute the same. -/
structure SameContents (left right : Federation) : Prop where
  threshold : left.threshold = right.threshold
  network : left.network = right.network
  keyMode : left.keyMode = right.keyMode
  scriptType : left.scriptType = right.scriptType
  contributions : ∀ pair, pair ∈ left.signers.map contribution ↔
    pair ∈ right.signers.map contribution

theorem descriptor_string_of_contents (leftBuilt : left.WithConfig miniscript)
    (rightBuilt : right.WithConfig miniscript) (same : SameContents left right) :
    left.descriptorString = right.descriptorString := by
  rcases sound_of_with_config leftBuilt with ⟨leftSound, leftDescribed⟩
  rcases sound_of_with_config rightBuilt with ⟨rightSound, rightDescribed⟩
  cases kind : left.network.isBitcoin with
  | true =>
      have rightKind : right.network.isBitcoin = true := same.network ▸ kind
      rcases leftDescribed.onBitcoin kind with ⟨descriptor, built, -, text⟩
      rcases rightDescribed.onBitcoin rightKind with ⟨other, otherBuilt, -, otherText⟩
      have again := (build_from_eq leftSound.distinct rightSound.distinct same.contributions).mp
        built
      rw [same.threshold, same.network, same.keyMode, same.scriptType, otherBuilt] at again
      rw [text, otherText, Except.ok.inj again]
  | false =>
      have rightKind : right.network.isBitcoin = false := same.network ▸ kind
      rw [(leftDescribed.elsewhere kind).2, (rightDescribed.elsewhere rightKind).2]

theorem contains_iff {id : SignerId} :
    federation.contains id = true ↔ ∃ signer ∈ federation.signers, signer.id = id := by
  simp only [contains, find, List.find?_isSome, decide_eq_true_eq]

theorem remove_added {new : Signer} (built : federation.WithConfig miniscript)
    (added : federation.addSigner miniscript new = .ok next) :
    next.removeSigner miniscript new.id = .ok federation := by
  rcases (@apply_eq_ok miniscript federation next (.add new)).mp added with ⟨absent, result⟩
  rcases with_config_fields result with ⟨threshold, signers, network, keyMode, scriptType⟩
  have listed : next.signers = federation.signers ++ [new] := signers
  have present : next.contains new.id = true := by
    rw [contains_iff, listed]
    exact ⟨new, List.mem_append_right _ (List.mem_singleton_self new), rfl⟩
  have others : ∀ signer ∈ federation.signers, decide (signer.id ≠ new.id) = true := by
    intro signer member
    apply decide_eq_true
    intro same
    have held := contains_iff.mpr ⟨signer, member, same⟩
    rw [absent] at held
    cases held
  have rest : next.signers.filter (fun signer => signer.id ≠ new.id) = federation.signers := by
    rw [listed, List.filter_append, List.filter_eq_self.mpr others]
    simp
  have sameThreshold : next.threshold = federation.threshold := threshold
  rw [removeSigner, if_neg (by simp [present])]
  simp only [rest, sameThreshold, network, keyMode, scriptType]
  exact built

theorem rotate_rotated {old : SignerId} {new original : Signer}
    (built : federation.WithConfig miniscript) (found : federation.find old = some original)
    (rotated : federation.rotateSigner miniscript old new = .ok next) :
    next.rotateSigner miniscript new.id original = .ok federation := by
  rcases (@apply_eq_ok miniscript federation next (.rotate old new)).mp rotated with
    ⟨⟨-, free⟩, result⟩
  rcases with_config_fields result with ⟨threshold, signers, network, keyMode, scriptType⟩
  have listed : next.signers =
      federation.signers.map fun signer => if signer.id = old then new else signer := signers
  have distinct := (sound_of_with_config built).1.distinct
  rcases (find_signer_iff distinct).mp found with ⟨member, rfl⟩
  have present : next.contains new.id = true := by
    rw [contains_iff, listed]
    exact ⟨new, List.mem_map.mpr ⟨original, member, if_pos rfl⟩, rfl⟩
  have gone : ¬ (next.contains original.id = true ∧ original.id ≠ new.id) := by
    rintro ⟨held, apart⟩
    rw [contains_iff, listed] at held
    rcases held with ⟨signer, among, same⟩
    rcases List.mem_map.mp among with ⟨before, -, rfl⟩
    split at same
    · exact apart same.symm
    · rename_i different
      exact different same
  have back : next.signers.map (fun signer => if signer.id = new.id then original else signer) =
      federation.signers := by
    rw [listed, List.map_map]
    conv_rhs => rw [← List.map_id federation.signers]
    apply List.map_congr_left
    intro signer among
    by_cases same : signer.id = original.id
    · have sameSigner : signer = original :=
        List.inj_on_of_nodup_map distinct among member same
      simp [sameSigner]
    · have apart : signer.id ≠ new.id := by
        intro taken
        have newId := free (contains_iff.mpr ⟨signer, among, taken⟩)
        exact same (taken.trans newId)
      simp [same, apart]
  have sameThreshold : next.threshold = federation.threshold := threshold
  rw [rotateSigner, if_neg (by simp [present]), if_neg gone]
  simp only [back, sameThreshold, network, keyMode, scriptType]
  exact built

theorem sound_perm {threshold : UInt32} {network : NetworkType} {signers others : List Signer}
    (same : signers.Perm others) (sound : Sound threshold signers network) :
    Sound threshold others network := by
  constructor
  · exact sound.thresholdPositive
  · exact same.length_eq ▸ sound.thresholdBounded
  · exact same.length_eq ▸ sound.twoSigners
  · exact same.length_eq ▸ sound.counted
  · exact (same.map Signer.id).nodup_iff.mp sound.distinct
  · exact fun signer member => sound.supported signer (same.mem_iff.mpr member)

theorem with_config_perm {threshold : UInt32} {network : NetworkType} {keyMode : KeyMode}
    {scriptType : ScriptType} {signers others : List Signer} (same : signers.Perm others)
    (built : withConfig miniscript threshold signers network keyMode scriptType =
      .ok federation) :
    ∃ permuted, withConfig miniscript threshold others network keyMode scriptType =
        .ok permuted ∧ permuted.descriptorString = federation.descriptorString := by
  have contributions : ∀ pair, pair ∈ others.map contribution ↔ pair ∈ signers.map contribution :=
    fun pair => (same.map contribution).mem_iff.symm
  rcases with_config_ok_iff.mp ⟨federation, built⟩ with ⟨sound, buildable⟩
  have otherSound := sound_perm same sound
  have otherBuildable : Buildable miniscript threshold others network keyMode scriptType := by
    intro isBitcoin
    rcases buildable isBitcoin with ⟨descriptor, assembled⟩
    exact ⟨descriptor,
      (build_from_eq otherSound.distinct sound.distinct contributions).mpr assembled⟩
  rcases with_config_ok_iff.mpr ⟨otherSound, otherBuildable⟩ with ⟨permuted, answer⟩
  refine ⟨permuted, answer, ?_⟩
  rcases with_config_fields built with ⟨rfl, rfl, rfl, rfl, rfl⟩
  rcases with_config_fields answer with ⟨sameThreshold, rfl, network, keyMode, scriptType⟩
  exact descriptor_string_of_contents (with_config_of_built answer) built
    ⟨sameThreshold, network, keyMode, scriptType, contributions⟩

/-- The descriptor of a reachable federation is a function of what it contains:
undone mutations and the order of the signers leave no trace. -/
theorem descriptor_history_independent :
    (∀ leftOrigin rightOrigin left right : Federation, Reachable miniscript leftOrigin left →
      Reachable miniscript rightOrigin right → SameContents left right →
        left.descriptorString = right.descriptorString) ∧
    (∀ origin federation : Federation, Reachable miniscript origin federation →
      (∀ new next, federation.addSigner miniscript new = .ok next →
        next.removeSigner miniscript new.id = .ok federation) ∧
      ∀ old new original next, federation.find old = some original →
        federation.rotateSigner miniscript old new = .ok next →
          next.rotateSigner miniscript new.id original = .ok federation) ∧
    ∀ threshold network keyMode scriptType (signers others : List Signer), signers.Perm others →
      ∀ federation, withConfig miniscript threshold signers network keyMode scriptType =
          .ok federation →
        ∃ permuted, withConfig miniscript threshold others network keyMode scriptType =
          .ok permuted ∧ permuted.descriptorString = federation.descriptorString := by
  refine ⟨?_, ?_, ?_⟩
  · intro leftOrigin rightOrigin left right leftReached rightReached same
    exact descriptor_string_of_contents (with_config_of_reachable leftReached)
      (with_config_of_reachable rightReached) same
  · intro origin federation reached
    have built := with_config_of_reachable reached
    exact ⟨fun new next added => remove_added built added,
      fun old new original next found rotated => rotate_rotated built found rotated⟩
  · intro threshold network keyMode scriptType signers others same federation built
    exact with_config_perm same built

open MockSigner (federationOf)

theorem swapped_made :
    Federation.new MockSigner.miniscript 2 [MockSigner.third, MockSigner.second]
      (.bitcoin .testnet) = .ok (federationOf 2 [MockSigner.third, MockSigner.second] .wsh) := by
  decide +kernel

theorem second_rotated :
    (MockSigner.federation .wsh).rotateSigner MockSigner.miniscript MockSigner.second.id
      MockSigner.third = .ok (federationOf 2 [MockSigner.first, MockSigner.third] .wsh) := by
  decide +kernel

/-- The successor of the test federation and one constructed with its signers in the
other order; the third signer joining and leaving, and rotated in and out; and the
first two signers swapped. -/
theorem mock_histories_agree :
    (federationOf 2 [MockSigner.second, MockSigner.third] .wsh).descriptorString =
        (federationOf 2 [MockSigner.third, MockSigner.second] .wsh).descriptorString ∧
      (federationOf 2 [MockSigner.first, MockSigner.second, MockSigner.third] .wsh).removeSigner
          MockSigner.miniscript MockSigner.third.id = .ok (MockSigner.federation .wsh) ∧
      (federationOf 2 [MockSigner.first, MockSigner.third] .wsh).rotateSigner
          MockSigner.miniscript MockSigner.third.id MockSigner.second =
        .ok (MockSigner.federation .wsh) ∧
      ∃ permuted, withConfig MockSigner.miniscript 2 [MockSigner.second, MockSigner.first]
          (.bitcoin .testnet) .fixed .wsh = .ok permuted ∧
        permuted.descriptorString = (MockSigner.federation .wsh).descriptorString := by
  obtain ⟨sameText, undone, permutable⟩ := @descriptor_history_independent MockSigner.miniscript
  have contents : SameContents (federationOf 2 [MockSigner.second, MockSigner.third] .wsh)
      (federationOf 2 [MockSigner.third, MockSigner.second] .wsh) :=
    ⟨rfl, rfl, rfl, rfl, fun pair => ((List.Perm.swap _ _ []).map contribution).mem_iff⟩
  have reached : Reachable MockSigner.miniscript (MockSigner.federation .wsh)
      (MockSigner.federation .wsh) := constructed_by_new MockSigner.federation_made
  refine ⟨?_, ?_, ?_, ?_⟩
  · exact sameText _ _ _ _ successor_reachable (constructed_by_new swapped_made) contents
  · exact (undone _ _ reached).1 _ _ third_joins
  · exact (undone _ _ reached).2 MockSigner.second.id _ _ _ (by decide +kernel) second_rotated
  · exact permutable _ _ _ _ _ _ (List.Perm.swap _ _ []) _ MockSigner.federation_made

end Federation

end EmvaultCore
