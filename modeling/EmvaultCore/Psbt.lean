import EmvaultCore.Error

/-!
# Partially signed transactions

The parts of a `bitcoin::Psbt` that the library reads: the unsigned transaction
and, for each input, the signature slots and the maps that say whose keys they
are. `Psbt::combine` and `compute_txid` belong to the `bitcoin` crate, so they
are parameters; `MergesKeyWise` is what its documentation says of `combine`.
-/

namespace EmvaultCore

structure Transaction where
  version : Int
  lockTime : Nat
  input : List OutPoint
  output : List TxOut
deriving DecidableEq

abbrev Signature := List UInt8

abbrev TapLeafHash := Fin (2 ^ 256)

instance tapLeafOrdered : Std.TransOrd (XOnlyPublicKey ×ₗ TapLeafHash) := inferInstance

structure PsbtInput where
  partialSigs : BTreeMap PublicKey Signature
  bip32Derivation : BTreeMap SecpPublicKey KeySource
  tapKeyOrigins : BTreeMap XOnlyPublicKey (List TapLeafHash × KeySource)
  tapScriptSigs : BTreeMap (XOnlyPublicKey ×ₗ TapLeafHash) Signature
  tapKeySig : Option Signature
  finalScriptSig : Option ScriptBuf
  finalScriptWitness : Option (List (List UInt8))

structure Psbt where
  unsignedTx : Transaction
  inputs : List PsbtInput

namespace PsbtInput

def empty : PsbtInput where
  partialSigs := ∅
  bip32Derivation := ∅
  tapKeyOrigins := ∅
  tapScriptSigs := ∅
  tapKeySig := none
  finalScriptSig := none
  finalScriptWitness := none

def bip32Label (input : PsbtInput) (key : SecpPublicKey) : Option Fingerprint :=
  (input.bip32Derivation[key]?).map Prod.fst

def tapLabel (input : PsbtInput) (key : XOnlyPublicKey) : Option Fingerprint :=
  (input.tapKeyOrigins[key]?).map fun origin => origin.2.1

/-- Key-wise union of two inputs. Entries of `other` replace entries under the
same key; single-valued slots keep the value already there. -/
def merge (base other : PsbtInput) : PsbtInput where
  partialSigs := base.partialSigs ∪ other.partialSigs
  bip32Derivation := base.bip32Derivation ∪ other.bip32Derivation
  tapKeyOrigins := base.tapKeyOrigins ∪ other.tapKeyOrigins
  tapScriptSigs := base.tapScriptSigs ∪ other.tapScriptSigs
  tapKeySig := base.tapKeySig.or other.tapKeySig
  finalScriptSig := base.finalScriptSig.or other.finalScriptSig
  finalScriptWitness := base.finalScriptWitness.or other.finalScriptWitness

theorem bip32_label_merge (base other : PsbtInput) (key : SecpPublicKey) :
    (base.merge other).bip32Label key =
      (other.bip32Label key).or (base.bip32Label key) := by
  simp only [bip32Label, merge, Std.ExtTreeMap.getElem?_union, Option.map_or]

theorem tap_label_merge (base other : PsbtInput) (key : XOnlyPublicKey) :
    (base.merge other).tapLabel key = (other.tapLabel key).or (base.tapLabel key) := by
  simp only [tapLabel, merge, Std.ExtTreeMap.getElem?_union, Option.map_or]

@[simp] theorem mem_partial_sigs_merge (base other : PsbtInput) (key : PublicKey) :
    key ∈ (base.merge other).partialSigs ↔ key ∈ base.partialSigs ∨ key ∈ other.partialSigs := by
  simp only [merge, Std.ExtTreeMap.mem_union_iff]

@[simp] theorem mem_tap_script_sigs_merge (base other : PsbtInput)
    (key : XOnlyPublicKey ×ₗ TapLeafHash) :
    key ∈ (base.merge other).tapScriptSigs ↔
      key ∈ base.tapScriptSigs ∨ key ∈ other.tapScriptSigs := by
  simp only [merge, Std.ExtTreeMap.mem_union_iff]

end PsbtInput

namespace Psbt

def mergeInputs : List PsbtInput → List PsbtInput → List PsbtInput
  | base :: bases, other :: others => base.merge other :: mergeInputs bases others
  | bases, [] => bases
  | [], _ => []

theorem merge_inputs_length (bases others : List PsbtInput) :
    (mergeInputs bases others).length = bases.length := by
  induction bases generalizing others with
  | nil => cases others <;> rfl
  | cons base bases ih =>
      cases others with
      | nil => rfl
      | cons other others => simp [mergeInputs, ih]

theorem merge_inputs_get (bases others : List PsbtInput) (index : Nat) :
    (mergeInputs bases others)[index]? =
      (bases[index]?).map fun base =>
        match others[index]? with
        | some other => base.merge other
        | none => base := by
  induction bases generalizing others index with
  | nil => cases others <;> simp [mergeInputs]
  | cons base bases ih =>
      cases others with
      | nil => cases index <;> simp [mergeInputs]
      | cons other others =>
          cases index with
          | zero => simp [mergeInputs]
          | succ index => simpa [mergeInputs] using ih others index

end Psbt

structure PsbtOps where
  computeTxid : Transaction → Txid
  combine : Psbt → Psbt → Except String Psbt

/-- `Psbt::combine` fails, or merges the inputs key-wise over the same unsigned
transaction. -/
structure PsbtOps.MergesKeyWise (ops : PsbtOps) : Prop where
  transaction : ∀ {base other merged}, ops.combine base other = .ok merged →
    merged.unsignedTx = base.unsignedTx
  inputs : ∀ {base other merged}, ops.combine base other = .ok merged →
    merged.inputs = Psbt.mergeInputs base.inputs other.inputs

def PsbtOps.keyWise (computeTxid : Transaction → Txid) : PsbtOps where
  computeTxid := computeTxid
  combine base other :=
    if base.unsignedTx = other.unsignedTx then
      .ok { base with inputs := Psbt.mergeInputs base.inputs other.inputs }
    else .error "different unsigned transaction"

theorem PsbtOps.key_wise_merges (computeTxid : Transaction → Txid) :
    (PsbtOps.keyWise computeTxid).MergesKeyWise := by
  have answers {base other merged : Psbt}
      (combined : (PsbtOps.keyWise computeTxid).combine base other = .ok merged) :
      { base with inputs := Psbt.mergeInputs base.inputs other.inputs } = merged := by
    simp only [PsbtOps.keyWise] at combined
    split at combined
    · exact Except.ok.inj combined
    · cases combined
  constructor
  · intro base other merged combined
    rw [← answers combined]
  · intro base other merged combined
    rw [← answers combined]

/-- A PSBT that carries no partial signature. -/
structure UnsignedPsbt where
  asPsbt : Psbt
  unsigned : (asPsbt.inputs.map fun input => input.partialSigs.size).sum = 0

def UnsignedPsbt.new (psbt : Psbt) : Except PsbtError UnsignedPsbt :=
  let totalSigs := (psbt.inputs.map fun input => input.partialSigs.size).sum
  if unsigned : totalSigs = 0 then .ok ⟨psbt, unsigned⟩
  else .error (.unexpectedSignatures totalSigs)

end EmvaultCore
