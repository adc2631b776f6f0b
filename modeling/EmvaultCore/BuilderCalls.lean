import EmvaultCore.WalletPolicy

/-!
# A builder after a rejected signer

`add_signer` takes the builder by reference, so the caller still has it when the
call answers `DuplicateKey`. A later call sees what the rejected one left behind:
the entry of the rejected signer, under the id of the registered one.
-/

namespace EmvaultCore.DescriptorBuilder

/-- A call that leaves the caller with a builder to go on with. -/
inductive Call where
  | addSigner (signer : Signer)
  | keyMode (mode : KeyMode)
  | scriptType (scriptType : ScriptType)
  | taprootInternalKey (key : TaprootInternalKey)
  | bip388TaprootPolicy

inductive Answer where
  | added (answer : Except DescriptorError Unit)
  | configured
  | policy (answer : Except DescriptorError Bip388TaprootPolicy)

def call (printing : KeyPrinting) (builder : DescriptorBuilder) :
    Call → DescriptorBuilder × Answer
  | .addSigner signer => ((builder.addSigner signer).1, .added (builder.addSigner signer).2)
  | .keyMode mode => (builder.setKeyMode mode, .configured)
  | .scriptType scriptType => (builder.setScriptType scriptType, .configured)
  | .taprootInternalKey key => (builder.setTaprootInternalKey key, .configured)
  | .bip388TaprootPolicy => (builder, .policy (builder.bip388TaprootPolicy printing))

def transcript (miniscript : Miniscript) :
    DescriptorBuilder → List Call → List Answer × Except DescriptorError Descriptor
  | builder, [] => ([], builder.build miniscript)
  | builder, call :: calls =>
      let after := builder.call miniscript.printing call
      let rest := after.1.transcript miniscript calls
      (after.2 :: rest.1, rest.2)

/-- The builder after an `add_signer` call for each signer, rejected calls
included. -/
def afterSigners (builder : DescriptorBuilder) (signers : List Signer) : DescriptorBuilder :=
  signers.foldl (fun builder signer => (builder.addSigner signer).1) builder

def Rejects (builder : DescriptorBuilder) (signer : Signer) : Prop :=
  (builder.addSigner signer).2 = .error (.duplicateKey signer.id)

/-- No later call can tell whether the signer was offered, and the signer
registered under its id is still the same. -/
structure Untouched (miniscript : Miniscript) (builder : DescriptorBuilder) (signer : Signer) :
    Prop where
  continuation : ∀ calls, (builder.addSigner signer).1.transcript miniscript calls =
    builder.transcript miniscript calls
  registered : (builder.addSigner signer).1.entries[signer.id]? = builder.entries[signer.id]?

def Repeats (builder : DescriptorBuilder) (signer : Signer) : Prop :=
  builder.entries[signer.id]? = some (KeyEntry.ofSigner signer)

variable {miniscript : Miniscript} {builder : DescriptorBuilder} {signer : Signer}

theorem rejects_iff : builder.Rejects signer ↔ signer.id ∈ builder.entries := by
  unfold Rejects addSigner
  by_cases taken : signer.id ∈ builder.entries <;> simp [taken]

theorem add_repeated (repeated : builder.Repeats signer) :
    (builder.addSigner signer).1 = builder := by
  have same : builder.entries.insert signer.id (KeyEntry.ofSigner signer) = builder.entries := by
    apply Std.ExtTreeMap.ext_getElem?
    intro id
    rw [Std.ExtTreeMap.getElem?_insert]
    split
    next equal =>
      have sameId : signer.id = id := Std.LawfulEqCmp.compare_eq_iff_eq.mp equal
      rw [← sameId]
      exact repeated.symm
    next => rfl
  rw [addSigner, same]

theorem added_entry :
    (builder.addSigner signer).1.entries[signer.id]? = some (KeyEntry.ofSigner signer) := by
  rw [addSigner, Std.ExtTreeMap.getElem?_insert_self]

theorem untouched_iff : builder.Untouched miniscript signer ↔ builder.Repeats signer := by
  constructor
  · intro untouched
    exact untouched.registered.symm.trans added_entry
  · intro repeated
    refine ⟨fun calls => ?_, ?_⟩
    · rw [add_repeated repeated]
    · rw [add_repeated repeated]

def RepeatsOnly (start : DescriptorBuilder) (signers : List Signer) : Prop :=
  ∀ before signer, before ++ [signer] <+: signers →
    (start.afterSigners before).Rejects signer → (start.afterSigners before).Repeats signer

theorem repeats_only_tail {start : DescriptorBuilder} {signers : List Signer}
    (repeated : start.RepeatsOnly (signer :: signers)) :
    (start.addSigner signer).1.RepeatsOnly signers := by
  intro before other within
  exact repeated (signer :: before) other (List.cons_prefix_cons.mpr ⟨rfl, within⟩)

theorem first_entry_kept {start : DescriptorBuilder} {signers : List Signer}
    (repeated : start.RepeatsOnly signers) (id : SignerId) :
    (start.afterSigners signers).entries[id]? =
      start.entries[id]?.or ((signers.find? (·.id = id)).map KeyEntry.ofSigner) := by
  induction signers generalizing start with
  | nil => simp [afterSigners]
  | cons signer signers ih =>
      rw [afterSigners, List.foldl_cons, ← afterSigners, ih (repeats_only_tail repeated)]
      by_cases taken : signer.id ∈ start.entries
      · have again : start.Repeats signer :=
          repeated [] signer (List.prefix_append [signer] signers) (rejects_iff.mpr taken)
        rw [add_repeated again]
        by_cases here : signer.id = id
        · have registered : start.entries[id]? = some (KeyEntry.ofSigner signer) := here ▸ again
          simp [registered]
        · simp [here]
      · rw [addSigner, Std.ExtTreeMap.getElem?_insert]
        by_cases here : signer.id = id
        · have absent : start.entries[id]? = none := by simpa [here] using taken
          simp [here, absent]
        · simp [here]

/-- A rejected signer is without effect exactly when it repeats the registered
one, in every state that a run of calls reaches; and in a run that rejects no
others each id keeps the entry it was first given. -/
theorem rejection_untouched_iff (threshold : UInt32) (network : NetworkType) (mode : KeyMode)
    (scriptType : ScriptType) (internalKey : TaprootInternalKey) (signers : List Signer) :
    let start := configured threshold network mode scriptType internalKey
    (∀ signer, (start.afterSigners signers).Rejects signer →
      ((start.afterSigners signers).Untouched miniscript signer ↔
        (start.afterSigners signers).Repeats signer)) ∧
    (start.RepeatsOnly signers → ∀ id,
      (start.afterSigners signers).entries[id]? =
        (signers.find? (·.id = id)).map KeyEntry.ofSigner) := by
  intro start
  constructor
  · intro signer _
    exact untouched_iff
  · intro repeated id
    have empty : start.entries[id]? = none := Std.ExtTreeMap.getElem?_empty
    rw [first_entry_kept repeated, empty, Option.none_or]

def impostor : Signer := { MockSigner.third with id := MockSigner.second.id }

/-- A rejected call replaces a cosigner of the descriptor that is built next. -/
theorem rejected_signer_replaces_key :
    let builder := (configured 2 (.bitcoin .testnet) .fixed .wsh .rawNums).afterSigners
      [MockSigner.first, MockSigner.second]
    builder.Rejects impostor ∧ ¬ builder.Untouched MockSigner.miniscript impostor ∧
      builder.build MockSigner.miniscript = .ok (MockSigner.descriptor .fixed) ∧
      (builder.addSigner impostor).1.build MockSigner.miniscript =
        .ok (.wsh (.sortedMulti 2
          [buildDescriptorKey .fixed (KeyEntry.ofSigner MockSigner.first),
            buildDescriptorKey .fixed (KeyEntry.ofSigner MockSigner.third)])) := by
  refine ⟨rejects_iff.mpr (by decide +kernel), ?_, by decide +kernel, by decide +kernel⟩
  rw [untouched_iff, Repeats]
  decide +kernel

end EmvaultCore.DescriptorBuilder
