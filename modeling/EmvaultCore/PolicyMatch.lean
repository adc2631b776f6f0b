import EmvaultCore.DescriptorKeys

/-!
# Matching a candidate descriptor against the trusted one

A policy is the threshold and the set of printed keys of a
`wsh(sortedmulti(...))`. The set forgets how often a key is listed, so a match
binds the script exactly when shared keys are listed equally often.
-/

namespace EmvaultCore.PolicyMatch

open Library (Text)

structure MultisigPolicy where
  threshold : Nat
  keys : Std.ExtTreeSet Text compare

instance : DecidableEq MultisigPolicy := fun left right =>
  decidable_of_iff (left.threshold = right.threshold ∧ left.keys = right.keys)
    (by cases left; cases right; simp)

/-- `descriptor_kind`, for error texts only. -/
def descriptorKind : Descriptor → String
  | .bare _ => "bare"
  | .pkh _ => "pkh"
  | .wpkh _ => "wpkh"
  | .sh _ => "sh"
  | .wsh _ => "wsh"
  | .tr _ _ => "tr"

def debugStrings (strings : List Text) : String :=
  "[" ++ ", ".intercalate (strings.map fun string => (String.ofList string).quote) ++ "]"

section Code

variable (printing : KeyPrinting)

def multisigPolicy : Descriptor → Except DescriptorError MultisigPolicy
  | .wsh (.sortedMulti k pks) =>
      .ok ⟨k, Std.ExtTreeSet.ofList (pks.map (·.toText printing))⟩
  | .wsh (.ms _) =>
      .error (.unsupportedShape "wsh() body is raw miniscript, expected sortedmulti(...)")
  | other => .error (.unsupportedShape
      ("expected wsh(sortedmulti(...)), got a " ++ descriptorKind other ++ " descriptor"))

def descriptorsMatch (expected candidate : Descriptor) : Except DescriptorError Bool := do
  let want ← multisigPolicy printing expected
  let got ← multisigPolicy printing candidate
  return decide (want = got)

def mismatchReasons (want got : MultisigPolicy) : List String :=
  let extra := got.keys.toList.filter (· ∉ want.keys)
  let missing := want.keys.toList.filter (· ∉ got.keys)
  (if want.threshold ≠ got.threshold then
      ["threshold " ++ toString want.threshold ++ " != " ++ toString got.threshold]
    else []) ++
    (if extra ≠ [] then ["unexpected key(s): " ++ debugStrings extra] else []) ++
    (if missing ≠ [] then ["missing expected key(s): " ++ debugStrings missing] else [])

def ensureDescriptorsMatch (expected candidate : Descriptor) : Except DescriptorError Unit := do
  let want ← multisigPolicy printing expected
  let got ← multisigPolicy printing candidate
  if want = got then .ok ()
  else .error (.policyMismatch ("; ".intercalate (mismatchReasons want got)))

end Code

def ensureDescriptorStringMatches (miniscript : Miniscript) (expected : Descriptor)
    (candidate : Text) : Except DescriptorError Unit := do
  let parsed ← (miniscript.fromStr candidate).mapError .parse
  ensureDescriptorsMatch miniscript.printing expected parsed

/-- What a `sortedmulti` locks coins to at a derivation index, before hashing:
the threshold and the derived keys in ascending order. -/
def witnessScript (keyAt : DescriptorPublicKey → Nat → PublicKey) (index : Nat) :
    Descriptor → Option (Nat × List PublicKey)
  | .wsh (.sortedMulti k pks) => some (k, (pks.map (keyAt · index)).insertionSort (· ≤ ·))
  | _ => none

variable {printing : KeyPrinting} {expected candidate : Descriptor}

theorem multisig_policy_eq_ok {descriptor : Descriptor} {policy : MultisigPolicy} :
    multisigPolicy printing descriptor = .ok policy ↔
      ∃ k pks, descriptor = .wsh (.sortedMulti k pks) ∧
        policy = ⟨k, Std.ExtTreeSet.ofList (pks.map (·.toText printing))⟩ := by
  cases descriptor with
  | wsh inner => cases inner <;> simp [multisigPolicy, eq_comm]
  | _ => simp [multisigPolicy]

theorem descriptors_match_iff :
    descriptorsMatch printing expected candidate = .ok true ↔
      ∃ k wanted offered, expected = .wsh (.sortedMulti k wanted) ∧
        candidate = .wsh (.sortedMulti k offered) ∧
        ∀ text, text ∈ wanted.map (·.toText printing) ↔ text ∈ offered.map (·.toText printing) := by
  simp only [descriptorsMatch, bind_eq_ok, multisig_policy_eq_ok]
  constructor
  · rintro ⟨-, ⟨k, wanted, rfl, rfl⟩, -, ⟨other, offered, rfl, rfl⟩, same⟩
    have equal := of_decide_eq_true (Except.ok.inj same)
    obtain ⟨rfl, keys⟩ := MultisigPolicy.mk.inj equal
    refine ⟨k, wanted, offered, rfl, rfl, fun text => ?_⟩
    have members := congrArg (text ∈ ·) keys
    simpa only [Std.ExtTreeSet.mem_ofList, List.contains_iff_mem, eq_iff_iff] using members
  · rintro ⟨k, wanted, offered, rfl, rfl, same⟩
    refine ⟨_, ⟨k, wanted, rfl, rfl⟩, _, ⟨k, offered, rfl, rfl⟩, ?_⟩
    have keys : (Std.ExtTreeSet.ofList (wanted.map (·.toText printing)) :
        Std.ExtTreeSet Text compare) =
        Std.ExtTreeSet.ofList (offered.map (·.toText printing)) := by
      apply Std.ExtTreeSet.ext_mem
      intro text
      simpa only [Std.ExtTreeSet.mem_ofList, List.contains_iff_mem] using same text
    simp [keys, pure, Except.pure]

theorem ensure_ok_iff_match :
    ensureDescriptorsMatch printing expected candidate = .ok () ↔
      descriptorsMatch printing expected candidate = .ok true := by
  unfold ensureDescriptorsMatch descriptorsMatch
  cases multisigPolicy printing expected with
  | error cause => simp [bind, Except.bind]
  | ok want =>
      cases multisigPolicy printing candidate with
      | error cause => simp [bind, Except.bind]
      | ok got => by_cases same : want = got <;> simp [bind, Except.bind, same, pure, Except.pure]

/-- The printed form tells the keys of the two descriptors apart. -/
def PrintedKeysDetermine (printing : KeyPrinting) (expected candidate : Descriptor) : Prop :=
  ∀ left ∈ expected.cosignerKeys ++ candidate.cosignerKeys,
    ∀ right ∈ expected.cosignerKeys ++ candidate.cosignerKeys,
      left.toText printing = right.toText printing → left = right

/-- What a match should guarantee: one threshold, one multiset of keys, and so
one script at every index. -/
def MatchBinds (printing : KeyPrinting) (expected candidate : Descriptor) : Prop :=
  descriptorsMatch printing expected candidate = .ok true →
    (∃ k wanted offered, expected = .wsh (.sortedMulti k wanted) ∧
      candidate = .wsh (.sortedMulti k offered) ∧ wanted.Perm offered) ∧
    ∀ keyAt index, witnessScript keyAt index expected = witnessScript keyAt index candidate

/-- Two `sortedmulti` with one threshold and one set of keys list every key
equally often. -/
def RepeatsAlike (expected candidate : Descriptor) : Prop :=
  ∀ k wanted offered, expected = .wsh (.sortedMulti k wanted) →
    candidate = .wsh (.sortedMulti k offered) → (∀ key, key ∈ wanted ↔ key ∈ offered) →
    ∀ key ∈ wanted, wanted.count key = offered.count key

theorem witness_script_perm {k : Nat} {wanted offered : List DescriptorPublicKey}
    (same : wanted.Perm offered) (keyAt : DescriptorPublicKey → Nat → PublicKey) (index : Nat) :
    witnessScript keyAt index (.wsh (.sortedMulti k wanted)) =
      witnessScript keyAt index (.wsh (.sortedMulti k offered)) := by
  have derived := same.map (keyAt · index)
  have sorted : ((wanted.map (keyAt · index)).insertionSort (· ≤ ·)).Perm
      ((offered.map (keyAt · index)).insertionSort (· ≤ ·)) :=
    (List.perm_insertionSort _ _).trans (derived.trans (List.perm_insertionSort _ _).symm)
  have equal := sorted.eq_of_pairwise' (List.pairwise_insertionSort (· ≤ ·) _)
    (List.pairwise_insertionSort (· ≤ ·) _)
  simp only [witnessScript, equal]

theorem mem_iff_of_texts {k other : Nat} {wanted offered : List DescriptorPublicKey}
    (determine : PrintedKeysDetermine printing (.wsh (.sortedMulti k wanted))
      (.wsh (.sortedMulti other offered))) :
    (∀ text, text ∈ wanted.map (·.toText printing) ↔ text ∈ offered.map (·.toText printing)) ↔
      ∀ key, key ∈ wanted ↔ key ∈ offered := by
  have reading : ∀ left ∈ wanted ++ offered, ∀ right ∈ wanted ++ offered,
      left.toText printing = right.toText printing → left = right := determine
  constructor
  · intro texts key
    constructor
    · intro member
      obtain ⟨found, among, text⟩ :=
        List.mem_map.mp ((texts _).mp (List.mem_map.mpr ⟨key, member, rfl⟩))
      have same := reading found (by simp [among]) key (by simp [member]) text
      exact same ▸ among
    · intro member
      obtain ⟨found, among, text⟩ :=
        List.mem_map.mp ((texts _).mpr (List.mem_map.mpr ⟨key, member, rfl⟩))
      have same := reading found (by simp [among]) key (by simp [member]) text
      exact same ▸ among
  · intro keys text
    simp only [List.mem_map, keys]

theorem match_binds_iff (determine : PrintedKeysDetermine printing expected candidate) :
    MatchBinds printing expected candidate ↔ RepeatsAlike expected candidate := by
  constructor
  · rintro binds k wanted offered rfl rfl keys key member
    have texts := (mem_iff_of_texts determine).mpr keys
    have accepted := descriptors_match_iff.mpr ⟨k, wanted, offered, rfl, rfl, texts⟩
    obtain ⟨⟨_, _, _, left, right, same⟩, -⟩ := binds accepted
    obtain ⟨rfl, rfl⟩ : _ ∧ _ := by simpa using left
    obtain rfl : _ = _ := by simpa using right
    exact List.perm_iff_count.mp same key
  · intro alike accepted
    obtain ⟨k, wanted, offered, rfl, rfl, texts⟩ := descriptors_match_iff.mp accepted
    have keys := (mem_iff_of_texts determine).mp texts
    have same : wanted.Perm offered := by
      rw [List.perm_iff_count]
      intro key
      by_cases member : key ∈ wanted
      · exact alike k wanted offered rfl rfl keys key member
      · have absent : key ∉ offered := fun found => member ((keys key).mpr found)
        rw [List.count_eq_zero_of_not_mem member, List.count_eq_zero_of_not_mem absent]
    exact ⟨⟨k, wanted, offered, rfl, rfl, same⟩, witness_script_perm same⟩

/-- A match binds multiset and scripts exactly when shared keys are listed
equally often; against a trusted descriptor without repeats, when the candidate
repeats none either. -/
theorem descriptor_match_sound_iff
    (determine : PrintedKeysDetermine printing expected candidate) :
    (ensureDescriptorsMatch printing expected candidate = .ok () ↔
      descriptorsMatch printing expected candidate = .ok true) ∧
    (MatchBinds printing expected candidate ↔ RepeatsAlike expected candidate) ∧
    (expected.cosignerKeys.Nodup →
      (MatchBinds printing expected candidate ↔
        ∀ k wanted offered, expected = .wsh (.sortedMulti k wanted) →
          candidate = .wsh (.sortedMulti k offered) → (∀ key, key ∈ wanted ↔ key ∈ offered) →
          offered.Nodup)) := by
  refine ⟨ensure_ok_iff_match, match_binds_iff determine, ?_⟩
  intro distinct
  rw [match_binds_iff determine]
  constructor
  · rintro alike k wanted offered rfl rfl keys
    rw [List.nodup_iff_count_le_one]
    intro key
    by_cases member : key ∈ wanted
    · have counts := alike k wanted offered rfl rfl keys key member
      have once := List.nodup_iff_count_le_one.mp distinct key
      simp only [Descriptor.cosignerKeys] at once
      omega
    · have absent : key ∉ offered := fun found => member ((keys key).mpr found)
      rw [List.count_eq_zero_of_not_mem absent]
      exact Nat.zero_le 1
  · rintro unrepeated k wanted offered rfl rfl keys key -
    have same : wanted.Perm offered :=
      (List.perm_ext_iff_of_nodup distinct (unrepeated k wanted offered rfl rfl keys)).mpr keys
    exact List.perm_iff_count.mp same key

def firstKey : DescriptorPublicKey :=
  buildDescriptorKey .fixed (KeyEntry.ofSigner MockSigner.first)

def secondKey : DescriptorPublicKey :=
  buildDescriptorKey .fixed (KeyEntry.ofSigner MockSigner.second)

def trusted : Descriptor := MockSigner.descriptor .fixed

def padded : Descriptor := .wsh (.sortedMulti 2 [firstKey, firstKey, secondKey])

theorem mock_keys_determine : PrintedKeysDetermine MockSigner.printing trusted padded := by
  unfold PrintedKeysDetermine
  decide +kernel

theorem descriptor_match_sound_mock :
    (ensureDescriptorsMatch MockSigner.printing trusted padded = .ok () ↔
      descriptorsMatch MockSigner.printing trusted padded = .ok true) ∧
    (MatchBinds MockSigner.printing trusted padded ↔ RepeatsAlike trusted padded) ∧
    (trusted.cosignerKeys.Nodup →
      (MatchBinds MockSigner.printing trusted padded ↔
        ∀ k wanted offered, trusted = .wsh (.sortedMulti k wanted) →
          padded = .wsh (.sortedMulti k offered) → (∀ key, key ∈ wanted ↔ key ∈ offered) →
          offered.Nodup)) :=
  descriptor_match_sound_iff mock_keys_determine

/-- The padded candidate passes both checks, yet its first signer alone can sign. -/
theorem padded_candidate_matches :
    descriptorsMatch MockSigner.printing trusted padded = .ok true ∧
      ensureDescriptorsMatch MockSigner.printing trusted padded = .ok () ∧
      ¬ MatchBinds MockSigner.printing trusted padded := by
  have accepted : descriptorsMatch MockSigner.printing trusted padded = .ok true := by
    decide +kernel
  refine ⟨accepted, ensure_ok_iff_match.mpr accepted, ?_⟩
  intro binds
  obtain ⟨⟨k, wanted, offered, left, right, same⟩, -⟩ := binds accepted
  obtain ⟨-, rfl⟩ : 2 = k ∧ [firstKey, secondKey] = wanted := by
    simpa [trusted, MockSigner.descriptor, firstKey, secondKey] using left
  obtain ⟨-, rfl⟩ : 2 = k ∧ [firstKey, firstKey, secondKey] = offered := by
    simpa [padded] using right
  have lengths := same.length_eq
  simp at lengths

end EmvaultCore.PolicyMatch
