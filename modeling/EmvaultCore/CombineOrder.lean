import EmvaultCore.FinalizeGate
import EmvaultCore.Library.Merging

/-!
# Combining the PSBTs of several cosigners

`combine_psbt` is called once for each PSBT that a cosigner returns, in the order
in which they arrive. Where the PSBTs agree on what they have in common, the
result depends on neither the order nor on repetitions.
-/

namespace EmvaultCore.CombineOrder

open Library.Merging FinalizeGate SignatureOrder SignedSet

/-- Two inputs say the same wherever both say something. -/
structure Agree (left right : PsbtInput) : Prop where
  partialSigs : AgreeMaps left.partialSigs right.partialSigs
  bip32Derivation : AgreeMaps left.bip32Derivation right.bip32Derivation
  tapKeyOrigins : AgreeMaps left.tapKeyOrigins right.tapKeyOrigins
  tapScriptSigs : AgreeMaps left.tapScriptSigs right.tapScriptSigs
  tapKeySig : AgreeOn left.tapKeySig right.tapKeySig
  finalScriptSig : AgreeOn left.finalScriptSig right.finalScriptSig
  finalScriptWitness : AgreeOn left.finalScriptWitness right.finalScriptWitness

theorem input_joins : Joins PsbtInput.merge Agree := by
  constructor
  · intro left right agree
    constructor
    · exact map_joins.symm agree.partialSigs
    · exact map_joins.symm agree.bip32Derivation
    · exact map_joins.symm agree.tapKeyOrigins
    · exact map_joins.symm agree.tapScriptSigs
    · exact option_joins.symm agree.tapKeySig
    · exact option_joins.symm agree.finalScriptSig
    · exact option_joins.symm agree.finalScriptWitness
  · intro input
    simp only [PsbtInput.merge, map_joins.idem, option_joins.idem]
  · intro left right agree
    simp only [PsbtInput.merge, map_joins.comm agree.partialSigs,
      map_joins.comm agree.bip32Derivation, map_joins.comm agree.tapKeyOrigins,
      map_joins.comm agree.tapScriptSigs, option_joins.comm agree.tapKeySig,
      option_joins.comm agree.finalScriptSig, option_joins.comm agree.finalScriptWitness]
  · intro first second third left right outer
    simp only [PsbtInput.merge, Option.or_assoc,
      map_joins.assoc _ _ _ left.partialSigs right.partialSigs outer.partialSigs,
      map_joins.assoc _ _ _ left.bip32Derivation right.bip32Derivation outer.bip32Derivation,
      map_joins.assoc _ _ _ left.tapKeyOrigins right.tapKeyOrigins outer.tapKeyOrigins,
      map_joins.assoc _ _ _ left.tapScriptSigs right.tapScriptSigs outer.tapScriptSigs]
  · intro first second third left right both
    constructor
    · exact map_joins.merged left.partialSigs right.partialSigs both.partialSigs
    · exact map_joins.merged left.bip32Derivation right.bip32Derivation both.bip32Derivation
    · exact map_joins.merged left.tapKeyOrigins right.tapKeyOrigins both.tapKeyOrigins
    · exact map_joins.merged left.tapScriptSigs right.tapScriptSigs both.tapScriptSigs
    · exact option_joins.merged left.tapKeySig right.tapKeySig both.tapKeySig
    · exact option_joins.merged left.finalScriptSig right.finalScriptSig both.finalScriptSig
    · exact option_joins.merged left.finalScriptWitness right.finalScriptWitness
        both.finalScriptWitness

theorem inputs_joins : Joins Psbt.mergeInputs (List.Forall₂ Agree) := by
  constructor
  · intro left right agree
    induction agree with
    | nil => exact .nil
    | cons here rest ih => exact .cons (input_joins.symm here) ih
  · intro inputs
    induction inputs with
    | nil => rfl
    | cons input inputs ih => rw [Psbt.mergeInputs, input_joins.idem, ih]
  · intro left right agree
    induction agree with
    | nil => rfl
    | cons here rest ih => rw [Psbt.mergeInputs, Psbt.mergeInputs, input_joins.comm here, ih]
  · intro first second third left right outer
    induction left generalizing third with
    | nil => cases right; rfl
    | cons here rest ih =>
        cases right with
        | cons there beyond =>
            cases outer with
            | cons across last =>
                simp only [Psbt.mergeInputs, input_joins.assoc _ _ _ here there across,
                  ih _ beyond last]
  · intro first second third left right both
    induction left generalizing second with
    | nil => cases both; exact .nil
    | cons here rest ih =>
        cases both with
        | cons across last =>
            cases right with
            | cons there beyond =>
                exact .cons (input_joins.merged here there across) (ih beyond last)

def AgreePsbts (left right : Psbt) : Prop :=
  left.unsignedTx = right.unsignedTx ∧ List.Forall₂ Agree left.inputs right.inputs

variable {ops : PsbtOps}

theorem combine_all_eq (keyWise : ops.MergesKeyWise) (combines : CombinesEqual ops) {base : Psbt}
    {partials : List Psbt}
    (same : ∀ partialPsbt ∈ partials, base.unsignedTx = partialPsbt.unsignedTx) :
    combineAll ops base partials = .ok {
      unsignedTx := base.unsignedTx
      inputs := (partials.map Psbt.inputs).foldl Psbt.mergeInputs base.inputs } := by
  induction partials generalizing base with
  | nil => rfl
  | cons first rest ih =>
      rw [List.forall_mem_cons] at same
      obtain ⟨merged, combined⟩ := combines base first same.1
      have transaction := keyWise.transaction combined
      have later : ∀ partialPsbt ∈ rest, merged.unsignedTx = partialPsbt.unsignedTx := by
        intro partialPsbt member
        rw [transaction]
        exact same.2 partialPsbt member
      have folded := ih later
      rw [transaction, keyWise.inputs combined] at folded
      rw [combineAll, List.foldlM_cons, combine_psbt_eq_ok.mpr combined, ok_bind, List.map_cons,
        List.foldl_cons]
      exact folded

/-- Cosigners' PSBTs that agree combine to one PSBT, whatever order they come in
and however often each comes. -/
theorem combine_ignores_order (keyWise : ops.MergesKeyWise) (combines : CombinesEqual ops)
    {base : Psbt} {left right : List Psbt}
    (agree : ∀ first ∈ base :: left, ∀ second ∈ base :: left, AgreePsbts first second)
    (same : ∀ partialPsbt, partialPsbt ∈ left ↔ partialPsbt ∈ right) :
    ∃ merged, combineAll ops base left = .ok merged ∧ combineAll ops base right = .ok merged := by
  have withBase : ∀ partialPsbt ∈ left, AgreePsbts base partialPsbt := by
    intro partialPsbt member
    exact agree base List.mem_cons_self partialPsbt (List.mem_cons_of_mem _ member)
  have compatible : Compatible (List.Forall₂ Agree) base.inputs (left.map Psbt.inputs) := by
    constructor
    · intro inputs member
      obtain ⟨partialPsbt, among, rfl⟩ := List.mem_map.mp member
      exact (withBase partialPsbt among).2
    · intro first firstMember second secondMember
      obtain ⟨one, oneAmong, rfl⟩ := List.mem_map.mp firstMember
      obtain ⟨two, twoAmong, rfl⟩ := List.mem_map.mp secondMember
      exact (agree one (List.mem_cons_of_mem _ oneAmong) two (List.mem_cons_of_mem _ twoAmong)).2
  have members (inputs : List PsbtInput) :
      inputs ∈ left.map Psbt.inputs ↔ inputs ∈ right.map Psbt.inputs := by
    simp only [List.mem_map, same]
  refine ⟨_, combine_all_eq keyWise combines fun partialPsbt member =>
    (withBase partialPsbt member).1, ?_⟩
  rw [fold_same_members inputs_joins compatible members]
  apply combine_all_eq keyWise combines
  intro partialPsbt member
  exact (withBase partialPsbt ((same partialPsbt).mpr member)).1

/-! ### Two cosigners and their PSBTs in both orders -/

theorem mock_signature {signers : List Signer} {sigs : BTreeMap PublicKey Signature}
    (before : ∀ (key : PublicKey) signature, sigs[key]? = some signature → signature = [0x30, 0x01])
    {key : PublicKey} {signature : Signature}
    (held : (signers.foldl (fun sigs signer =>
      sigs.insert (PublicKey.new signer.xpub.publicKey) [0x30, 0x01]) sigs)[key]? =
        some signature) :
    signature = [0x30, 0x01] := by
  induction signers generalizing sigs with
  | nil => exact before key signature held
  | cons signer signers ih =>
      apply ih _ held
      intro other found present
      rw [Std.ExtTreeMap.getElem?_insert] at present
      split at present
      · exact (Option.some.inj present).symm
      · exact before other found present

theorem mock_agree (left right : List Signer) :
    AgreePsbts (sessionOf (signedBy left)) (sessionOf (signedBy right)) := by
  have none : ∀ (key : PublicKey) (signature : Signature),
      (∅ : BTreeMap PublicKey Signature)[key]? = some signature → signature = [0x30, 0x01] := by
    intro key signature held
    rw [Std.ExtTreeMap.getElem?_empty] at held
    cases held
  refine ⟨rfl, .cons ?_ .nil⟩
  constructor
  · intro key first given second other
    rw [mock_signature none given, mock_signature none other]
  · exact AgreeMaps.refl _
  · exact AgreeMaps.refl _
  · exact AgreeMaps.refl _
  · exact AgreeOn.refl _
  · exact AgreeOn.refl _
  · exact AgreeOn.refl _

def mockPartials : List Psbt :=
  [sessionOf (signedBy [MockSigner.first]), sessionOf (signedBy [MockSigner.second])]

theorem combine_ignores_order_mock :
    ∃ merged, combineAll mockOps (sessionOf (signedBy [])) mockPartials = .ok merged ∧
      combineAll mockOps (sessionOf (signedBy [])) (mockPartials.reverse ++ mockPartials) =
        .ok merged := by
  apply combine_ignores_order (PsbtOps.key_wise_merges _) mock_combines
  · intro first firstMember second secondMember
    have signed : ∀ partialPsbt ∈ sessionOf (signedBy []) :: mockPartials,
        ∃ signers, partialPsbt = sessionOf (signedBy signers) := by
      intro partialPsbt member
      simp only [mockPartials, List.mem_cons, List.not_mem_nil, or_false] at member
      obtain member | member | member := member
      · exact ⟨_, member⟩
      · exact ⟨_, member⟩
      · exact ⟨_, member⟩
    obtain ⟨one, rfl⟩ := signed first firstMember
    obtain ⟨two, rfl⟩ := signed second secondMember
    exact mock_agree one two
  · intro partialPsbt
    simp

end EmvaultCore.CombineOrder
