import EmvaultCore.DescriptorHistory
import EmvaultCore.PolicyMatch

/-!
# What a verifier says about a mutated federation

A host that still trusts the descriptor from before a mutation is shown the one
from after it. The comparison refuses it whenever the policy has changed, and its
text names the threshold and the printed keys that the mutation changed and no
others.
-/

namespace EmvaultCore.PolicyMatch

open Library (Text)
open DescriptorBuilder (build_eq_ok build_is_assembled insert_all_values_perm find_signer_iff)

/-! ### The differences that are listed -/

variable {printing : KeyPrinting} {expected candidate : Descriptor} {want got : MultisigPolicy}

theorem difference_eq {left right : Std.ExtTreeSet Text compare} {only : List Text}
    (short : only.length ≤ 1) (members : ∀ text, text ∈ left ∧ text ∉ right ↔ text ∈ only) :
    left.toList.filter (· ∉ right) = only := by
  have once : (left.toList.filter (· ∉ right)).Nodup := by
    apply List.Nodup.filter
    apply Std.ExtTreeSet.distinct_toList.imp
    intro first second different equal
    exact different (equal ▸ Std.ReflCmp.compare_self)
  have listed : ∀ text, text ∈ left.toList.filter (· ∉ right) ↔ text ∈ only := by
    intro text
    rw [List.mem_filter, Std.ExtTreeSet.mem_toList, decide_eq_true_eq]
    exact members text
  cases only with
  | nil =>
      apply List.eq_nil_iff_forall_not_mem.mpr
      intro text member
      cases (listed text).mp member
  | cons text rest =>
      obtain rfl : rest = [] := by
        apply List.length_eq_zero_iff.mp
        rw [List.length_cons] at short
        omega
      have same : (left.toList.filter (· ∉ right)).Perm [text] :=
        (List.perm_ext_iff_of_nodup once (List.nodup_singleton text)).mpr listed
      exact List.perm_singleton.mp same

theorem mismatch_reasons_eq_nil : mismatchReasons want got = [] ↔ want = got := by
  constructor
  · intro none
    simp only [mismatchReasons, List.append_eq_nil_iff, ite_eq_right_iff, List.cons_ne_nil,
      imp_false, not_not] at none
    obtain ⟨⟨threshold, extra⟩, missing⟩ := none
    obtain ⟨k, wanted⟩ := want
    obtain ⟨other, offered⟩ := got
    obtain rfl : k = other := threshold
    congr 1
    apply Std.ExtTreeSet.ext_mem
    intro text
    rw [List.filter_eq_nil_iff] at extra missing
    constructor
    · intro member
      simpa using missing text (Std.ExtTreeSet.mem_toList.mpr member)
    · intro member
      simpa using extra text (Std.ExtTreeSet.mem_toList.mpr member)
  · intro same
    simp [mismatchReasons, same]

theorem ensure_match_eq (wanted : multisigPolicy printing expected = .ok want)
    (offered : multisigPolicy printing candidate = .ok got) :
    ensureDescriptorsMatch printing expected candidate =
      if mismatchReasons want got = [] then .ok ()
      else .error (.policyMismatch ("; ".intercalate (mismatchReasons want got))) := by
  rw [ensureDescriptorsMatch, wanted, offered, ok_bind, ok_bind]
  by_cases same : want = got
  · rw [if_pos same, if_pos (mismatch_reasons_eq_nil.mpr same)]
  · rw [if_neg same, if_neg fun none => same (mismatch_reasons_eq_nil.mp none)]

def reasons (expectedThreshold actualThreshold : UInt32) (extra missing : List Text) :
    List String :=
  (if expectedThreshold ≠ actualThreshold then
      ["threshold " ++ toString expectedThreshold.toNat ++ " != " ++
        toString actualThreshold.toNat]
    else []) ++
    (if extra ≠ [] then ["unexpected key(s): " ++ debugStrings extra] else []) ++
    (if missing ≠ [] then ["missing expected key(s): " ++ debugStrings missing] else [])

theorem mismatch_reasons_eq {expectedThreshold actualThreshold : UInt32}
    {extra missing : List Text} (wanted : want.threshold = expectedThreshold.toNat)
    (offered : got.threshold = actualThreshold.toNat) (oneExtra : extra.length ≤ 1)
    (oneMissing : missing.length ≤ 1)
    (extras : ∀ text, text ∈ got.keys ∧ text ∉ want.keys ↔ text ∈ extra)
    (missings : ∀ text, text ∈ want.keys ∧ text ∉ got.keys ↔ text ∈ missing) :
    mismatchReasons want got = reasons expectedThreshold actualThreshold extra missing := by
  rw [mismatchReasons, difference_eq oneExtra extras, difference_eq oneMissing missings, wanted,
    offered, reasons]
  simp only [ne_eq, UInt32.toNat_inj]

/-! ### Policies of federations -/

variable {miniscript : Miniscript} {origin federation successor : Federation}

def keyText (printing : KeyPrinting) (mode : KeyMode) (signer : Signer) : Text :=
  (buildDescriptorKey mode (.ofSigner signer)).toText printing

theorem cosigner_texts {threshold : UInt32} {network : NetworkType} {mode : KeyMode}
    {internalKey : TaprootInternalKey} {signers : List Signer}
    (distinct : (signers.map Signer.id).Nodup) :
    ((DescriptorBuilder.ofSigners threshold network mode .wsh internalKey signers).cosigners.map
      (·.toText printing)).Perm (signers.map (keyText printing mode)) := by
  have entries := (insert_all_values_perm distinct).map (buildDescriptorKey mode)
  have printed : ((signers.map KeyEntry.ofSigner).map (buildDescriptorKey mode)).map
      (·.toText printing) = signers.map (keyText printing mode) := by
    rw [List.map_map, List.map_map]
    rfl
  rw [← printed]
  exact entries.map (·.toText printing)

theorem policy_of_federation (faithful : miniscript.Faithful)
    (rebuilt : federation.WithConfig miniscript) (onBitcoin : federation.network.isBitcoin = true)
    (segwit : federation.scriptType = .wsh) :
    ∃ descriptor policy, federation.descriptor = some descriptor ∧
      multisigPolicy miniscript.printing descriptor = .ok policy ∧
      policy.threshold = federation.threshold.toNat ∧
      (∀ text, text ∈ policy.keys ↔
        text ∈ federation.signers.map (keyText miniscript.printing federation.keyMode)) ∧
      (federation.signers.map (keyText miniscript.printing federation.keyMode)).Nodup := by
  obtain ⟨sound, described⟩ := Federation.sound_of_with_config rebuilt
  obtain ⟨descriptor, built, stored, -⟩ := described.onBitcoin onBitcoin
  rw [segwit] at built
  obtain ⟨-, answer⟩ := DescriptorBuilder.build_from_eq_ok.mp built
  obtain ⟨-, -, -, -, distinct, -⟩ := build_eq_ok.mp answer
  obtain ⟨network, -, rfl⟩ := build_is_assembled faithful answer
  have texts := @cosigner_texts miniscript.printing federation.threshold federation.network
    federation.keyMode .rawNums federation.signers sound.distinct
  refine ⟨_, _, stored, rfl, rfl, ?_, texts.nodup_iff.mp distinct⟩
  intro text
  rw [Std.ExtTreeSet.mem_ofList, List.contains_iff_mem, texts.mem_iff]

/-- The reasons of a verifier that trusts the federation against its mutation. -/
def verdict (printing : KeyPrinting) (federation : Federation) : Mutation → List String
  | .add new =>
      reasons federation.threshold federation.threshold
        [keyText printing federation.keyMode new] []
  | .remove id =>
      reasons federation.threshold federation.threshold []
        ((federation.find id).toList.map (keyText printing federation.keyMode))
  | .rotate old new =>
      let lost := (federation.find old).toList.map (keyText printing federation.keyMode)
      if lost = [keyText printing federation.keyMode new] then []
      else reasons federation.threshold federation.threshold
        [keyText printing federation.keyMode new] lost
  | .changeThreshold newThreshold => reasons federation.threshold newThreshold [] []

/-- The keys that only the mutated federation prints, and those it prints no more. -/
structure Changes (before after extra missing : List Text) : Prop where
  extras : ∀ text, text ∈ after ∧ text ∉ before ↔ text ∈ extra
  missings : ∀ text, text ∈ before ∧ text ∉ after ↔ text ∈ missing

theorem changes_same (texts : List Text) : Changes texts texts [] [] := by
  constructor <;> simp

theorem changes_added {texts : List Text} {new : Text} (distinct : (texts ++ [new]).Nodup) :
    Changes texts (texts ++ [new]) [new] [] := by
  have absent : new ∉ texts := by
    intro member
    exact (List.nodup_append.mp distinct).2.2 new member new (List.mem_singleton_self new) rfl
  constructor
  · intro text
    rw [List.mem_append, List.mem_singleton]
    constructor
    · intro added
      exact added.1.resolve_left added.2
    · intro same
      exact ⟨.inr same, same ▸ absent⟩
  · intro text
    simp only [List.mem_append, List.not_mem_nil, iff_false, not_and, not_not]
    exact Or.inl

theorem changes_removed {signers : List Signer} {signer : Signer} {text : Signer → Text}
    (distinct : (signers.map text).Nodup) (ids : (signers.map Signer.id).Nodup)
    (member : signer ∈ signers) :
    Changes (signers.map text) ((signers.filter fun other => other.id ≠ signer.id).map text) []
      [text signer] := by
  constructor
  · intro printed
    simp only [List.not_mem_nil, iff_false, not_and, not_not]
    intro kept
    exact (List.filter_sublist.map text).subset kept
  · intro printed
    rw [List.mem_singleton]
    constructor
    · intro lost
      obtain ⟨before, after⟩ := lost
      obtain ⟨other, among, rfl⟩ := List.mem_map.mp before
      by_cases same : other.id = signer.id
      · rw [List.inj_on_of_nodup_map ids among member same]
      · exact absurd (List.mem_map_of_mem (List.mem_filter.mpr ⟨among, decide_eq_true same⟩)) after
    · intro same
      subst same
      refine ⟨List.mem_map_of_mem member, ?_⟩
      intro kept
      obtain ⟨other, among, equal⟩ := List.mem_map.mp kept
      obtain ⟨listed, different⟩ := List.mem_filter.mp among
      have sameSigner := List.inj_on_of_nodup_map distinct listed member equal
      exact of_decide_eq_true different (congrArg Signer.id sameSigner)

theorem changes_rotated {signers : List Signer} {signer new : Signer} {text : Signer → Text}
    (distinct : (signers.map text).Nodup) (ids : (signers.map Signer.id).Nodup)
    (member : signer ∈ signers) (different : text signer ≠ text new)
    (after : ((signers.map fun other => if other.id = signer.id then new else other).map
      text).Nodup) :
    Changes (signers.map text)
      ((signers.map fun other => if other.id = signer.id then new else other).map text)
      [text new] [text signer] := by
  rw [List.map_map] at after ⊢
  have replaced : ∀ other : Signer, other.id = signer.id →
      (text ∘ fun other : Signer => if other.id = signer.id then new else other) other =
        text new := by
    intro other same
    simp [same]
  have unchanged : ∀ other : Signer, other.id ≠ signer.id →
      (text ∘ fun other : Signer => if other.id = signer.id then new else other) other =
        text other := by
    intro other apart
    simp [apart]
  generalize (text ∘ fun other : Signer => if other.id = signer.id then new else other) = now
    at after replaced unchanged ⊢
  have present : text new ∈ signers.map now :=
    List.mem_map.mpr ⟨signer, member, replaced signer rfl⟩
  have unknown : text new ∉ signers.map text := by
    intro known
    obtain ⟨other, among, same⟩ := List.mem_map.mp known
    by_cases sameId : other.id = signer.id
    · rw [List.inj_on_of_nodup_map ids among member sameId] at same
      exact different same
    · have twice : now other = now signer := by
        rw [unchanged other sameId, same, replaced signer rfl]
      exact sameId (congrArg Signer.id (List.inj_on_of_nodup_map after among member twice))
  have gone : text signer ∉ signers.map now := by
    intro known
    obtain ⟨other, among, same⟩ := List.mem_map.mp known
    by_cases sameId : other.id = signer.id
    · rw [replaced other sameId] at same
      exact different same.symm
    · rw [unchanged other sameId] at same
      exact sameId (congrArg Signer.id (List.inj_on_of_nodup_map distinct among member same))
  constructor
  · intro printed
    rw [List.mem_singleton]
    constructor
    · intro added
      obtain ⟨other, among, rfl⟩ := List.mem_map.mp added.1
      by_cases sameId : other.id = signer.id
      · exact replaced other sameId
      · exact absurd (List.mem_map.mpr ⟨other, among, (unchanged other sameId).symm⟩) added.2
    · intro same
      exact same ▸ ⟨present, unknown⟩
  · intro printed
    rw [List.mem_singleton]
    constructor
    · intro lost
      obtain ⟨other, among, rfl⟩ := List.mem_map.mp lost.1
      by_cases sameId : other.id = signer.id
      · rw [List.inj_on_of_nodup_map ids among member sameId]
      · exact absurd (List.mem_map.mpr ⟨other, among, unchanged other sameId⟩) lost.2
    · intro same
      exact same ▸ ⟨List.mem_map_of_mem member, gone⟩

theorem changes_relabelled {signers : List Signer} {signer new : Signer} {text : Signer → Text}
    (ids : (signers.map Signer.id).Nodup) (member : signer ∈ signers)
    (same : text signer = text new) :
    (signers.map fun other => if other.id = signer.id then new else other).map text =
      signers.map text := by
  rw [List.map_map]
  apply List.map_congr_left
  intro other among
  by_cases sameId : other.id = signer.id
  · rw [List.inj_on_of_nodup_map ids among member sameId]
    simp [same]
  · simp [sameId]

/-- After a mutation of a `wsh` federation, the comparison with the descriptor from
before it names what the mutation changed, and passes only if that is nothing. -/
theorem mutation_is_named (faithful : miniscript.Faithful)
    (reached : Federation.Reachable miniscript origin federation)
    (onBitcoin : federation.network.isBitcoin = true) (segwit : federation.scriptType = .wsh)
    {mutation : Mutation} (applied : mutation.apply miniscript federation = .ok successor) :
    ∃ expected candidate, federation.descriptor = some expected ∧
      successor.descriptor = some candidate ∧
      ensureDescriptorsMatch miniscript.printing expected candidate =
        if verdict miniscript.printing federation mutation = [] then .ok ()
        else .error (.policyMismatch
          ("; ".intercalate (verdict miniscript.printing federation mutation))) := by
  have rebuilt := Federation.with_config_of_reachable reached
  have ids := (Federation.sound_of_with_config rebuilt).1.distinct
  obtain ⟨named, built⟩ := Federation.apply_eq_ok.mp applied
  obtain ⟨threshold, signers, network, keyMode, scriptType⟩ := Federation.with_config_fields built
  obtain ⟨expected, want, stored, wanted, wantThreshold, wantKeys, distinct⟩ :=
    policy_of_federation faithful rebuilt onBitcoin segwit
  obtain ⟨candidate, got, storedNext, offered, gotThreshold, gotKeys, distinctNext⟩ :=
    policy_of_federation faithful (Federation.with_config_of_built built) (network ▸ onBitcoin)
      (scriptType.trans segwit)
  refine ⟨expected, candidate, stored, storedNext, ?_⟩
  rw [keyMode, signers] at gotKeys distinctNext
  rw [threshold] at gotThreshold
  have report : ∀ extra missing : List Text, extra.length ≤ 1 → missing.length ≤ 1 →
      Changes (federation.signers.map (keyText miniscript.printing federation.keyMode))
        ((mutation.signers federation).map (keyText miniscript.printing federation.keyMode))
        extra missing →
      mismatchReasons want got =
        reasons federation.threshold (mutation.threshold federation) extra missing := by
    intro extra missing oneExtra oneMissing changes
    apply mismatch_reasons_eq wantThreshold gotThreshold oneExtra oneMissing
    · intro text
      rw [gotKeys, wantKeys]
      exact changes.extras text
    · intro text
      rw [gotKeys, wantKeys]
      exact changes.missings text
  have verdictGiven :
      mismatchReasons want got = verdict miniscript.printing federation mutation := by
    cases mutation with
    | add new =>
        have added := report [keyText miniscript.printing federation.keyMode new] []
          (Nat.le_refl 1) (Nat.zero_le 1)
        simp only [Mutation.signers, List.map_append, List.map_singleton] at distinctNext added
        exact added (changes_added distinctNext)
    | changeThreshold newThreshold =>
        exact report [] [] (Nat.zero_le 1) (Nat.zero_le 1) (changes_same _)
    | remove id =>
        obtain ⟨signer, found⟩ := Option.isSome_iff_exists.mp named
        obtain ⟨member, rfl⟩ := (find_signer_iff ids).mp found
        rw [verdict, found]
        exact report [] [keyText miniscript.printing federation.keyMode signer] (Nat.zero_le 1)
          (Nat.le_refl 1) (changes_removed distinct ids member)
    | rotate old new =>
        obtain ⟨signer, found⟩ := Option.isSome_iff_exists.mp named.1
        obtain ⟨member, rfl⟩ := (find_signer_iff ids).mp found
        simp only [verdict, found, Option.toList_some, List.map_singleton]
        by_cases same : keyText miniscript.printing federation.keyMode signer =
            keyText miniscript.printing federation.keyMode new
        · rw [if_pos (List.singleton_inj.mpr same)]
          have unchanged := changes_relabelled ids member same
          have none := report [] [] (Nat.zero_le 1) (Nat.zero_le 1) (by
            rw [Mutation.signers, unchanged]
            exact changes_same _)
          rw [none]
          simp [reasons, Mutation.threshold]
        · rw [if_neg fun equal => same (List.singleton_inj.mp equal)]
          exact report [keyText miniscript.printing federation.keyMode new]
            [keyText miniscript.printing federation.keyMode signer] (Nat.le_refl 1)
            (Nat.le_refl 1) (changes_rotated distinct ids member same distinctNext)
  rw [ensure_match_eq wanted offered, verdictGiven]

/-- The test federation and the descriptor with a third key. -/
theorem third_key_is_named :
    ∃ successor expected candidate,
      (Mutation.add MockSigner.third).apply MockSigner.miniscript (MockSigner.federation .wsh) =
        .ok successor ∧
      (MockSigner.federation .wsh).descriptor = some expected ∧
      successor.descriptor = some candidate ∧
      ensureDescriptorsMatch MockSigner.printing expected candidate =
        if verdict MockSigner.printing (MockSigner.federation .wsh) (.add MockSigner.third) = []
        then .ok ()
        else .error (.policyMismatch ("; ".intercalate
          (verdict MockSigner.printing (MockSigner.federation .wsh) (.add MockSigner.third)))) := by
  have accepted : ((Mutation.add MockSigner.third).apply MockSigner.miniscript
      (MockSigner.federation .wsh)).toBool = true := by decide +kernel
  cases applied : (Mutation.add MockSigner.third).apply MockSigner.miniscript
      (MockSigner.federation .wsh) with
  | error cause =>
      rw [applied] at accepted
      cases accepted
  | ok successor =>
      obtain ⟨expected, candidate, stored, storedNext, answer⟩ :=
        mutation_is_named MockSigner.miniscript_faithful Federation.mock_federation_reachable rfl
          rfl applied
      exact ⟨successor, expected, candidate, rfl, stored, storedNext, answer⟩

end EmvaultCore.PolicyMatch
