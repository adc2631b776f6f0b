import EmvaultCore.AddressSpace
import EmvaultCore.Library.Substitution

/-!
# The branches of a multipath descriptor

`to_multipath_string` substitutes in a printed text. Choosing one branch of
every two-path step undoes it: the first branch gives the descriptor back, the
second moves its ranged keys to the change keychain.
-/

namespace EmvaultCore

open Library (Text)
open Library.Text

def branchesText : Text := '/' :: bothKeychains ++ ['/']

def chooseBranch (branch : Nat) (text : Text) : Text :=
  replace branchesText ('/' :: decimal branch ++ ['/']) text

/-- The key with its receive step, where it has one, changed to `/1/*`. -/
def DescriptorPublicKey.onChange : DescriptorPublicKey → DescriptorPublicKey
  | .xPub key =>
      if key.derivationPath = [.normal 0] ∧ key.wildcard = .unhardened then
        .xPub { key with derivationPath := [.normal 1] }
      else .xPub key
  | key => key

section Keys

variable {printing : KeyPrinting}

theorem text_at_change (key : DescriptorPublicKey) :
    key.textAt printing ['1'] = key.onChange.toText printing := by
  cases key with
  | xPub key =>
      by_cases receives : key.derivationPath = [.normal 0] ∧ key.wildcard = .unhardened
      · have one : decimal 1 = ['1'] := rfl
        simp [DescriptorPublicKey.textAt, DescriptorPublicKey.onChange, receives,
          DescriptorPublicKey.toText, pathText, ChildNumber.toText, one, Wildcard.toText]
      · rw [DescriptorPublicKey.textAt, DescriptorPublicKey.onChange, if_neg receives,
          if_neg receives]
  | single key => rfl
  | multiXPub key => rfl

end Keys

/-! What choosing a branch does to the pieces of a key. -/

section Chosen

variable {printing : KeyPrinting} {step : Text}

theorem child_mem {child : ChildNumber} {char : Char} (member : char ∈ child.toText) :
    char.isDigit ∨ char = '\'' := by
  cases child with
  | normal index => exact Or.inl (mem_decimal member)
  | hardened index =>
      rcases List.mem_append.mp member with digits | mark
      · exact Or.inl (mem_decimal digits)
      · exact Or.inr (List.mem_singleton.mp mark)

theorem child_nonempty (child : ChildNumber) : child.toText ≠ [] := by
  cases child with
  | normal index => exact decimal_nonempty index
  | hardened index => exact List.append_ne_nil_of_right_ne_nil _ (List.cons_ne_nil _ _)

theorem child_chosen (child : ChildNumber) :
    Becomes branchesText step ('/' :: child.toText) ('/' :: child.toText) := by
  have noSlash : '/' ∉ child.toText := by
    intro member
    rcases child_mem member with digit | mark
    · exact absurd digit (by decide)
    · exact absurd mark (by decide)
  have noBracket : '<' ∉ child.toText := by
    intro member
    rcases child_mem member with digit | mark
    · exact absurd digit (by decide)
    · exact absurd mark (by decide)
  cases text : child.toText with
  | nil => exact absurd text (child_nonempty child)
  | cons first rest =>
      rw [text, List.mem_cons, not_or] at noSlash noBracket
      have start : Becomes branchesText step ['/', first] ['/', first] :=
        becomes_pair (Ne.symm noBracket.1) (Ne.symm noSlash.1)
      exact becomes_append start (becomes_self noSlash.2)

theorem path_chosen (path : DerivationPath) :
    Becomes branchesText step (pathText path) (pathText path) := by
  induction path with
  | nil => exact becomes_self List.not_mem_nil
  | cons child path ih => exact becomes_append (child_chosen child) ih

theorem origin_chosen (origin : Option KeySource) :
    Becomes branchesText step (originText origin) (originText origin) := by
  cases origin with
  | none => exact becomes_self List.not_mem_nil
  | some source =>
      have opening : '/' ∉ '[' :: hex 8 source.1 := by
        intro member
        rcases List.mem_cons.mp member with bracket | digits
        · exact absurd bracket (by decide)
        · exact absurd (mem_hex digits) (by decide)
      have closing : '/' ∉ [']'] := by decide
      exact becomes_append (becomes_append (becomes_self opening) (path_chosen source.2))
        (becomes_self closing)

/-- A key prints its origin and behind it no slash but those of its receive step. -/
def KeyPrinting.OneStep (printing : KeyPrinting) (key : DescriptorPublicKey) : Prop :=
  ∃ origin text, '/' ∉ text ∧
    ((∀ step, key.textAt printing step = originText origin ++ text) ∨
      ∀ step, key.textAt printing step = originText origin ++ text ++ '/' :: step ++ ['/', '*'])

theorem step_chosen {key : DescriptorPublicKey} (oneStep : printing.OneStep key) :
    Becomes branchesText ('/' :: step ++ ['/']) (key.textAt printing bothKeychains)
      (key.textAt printing step) := by
  obtain ⟨origin, text, absent, single | ranged⟩ := oneStep
  · rw [single, single]
    exact becomes_append (origin_chosen origin) (becomes_self absent)
  · have front : Becomes branchesText ('/' :: step ++ ['/']) (originText origin ++ text)
        (originText origin ++ text) :=
      becomes_append (origin_chosen origin) (becomes_self absent)
    have chosen : Becomes branchesText ('/' :: step ++ ['/']) branchesText
        ('/' :: step ++ ['/']) := becomes_replacement (List.cons_ne_nil _ _)
    have star : '/' ∉ ['*'] := by decide
    have whole := becomes_append (becomes_append front chosen) (becomes_self star)
    rw [ranged, ranged]
    simpa [branchesText] using whole

theorem single_one_step (origin : Option KeySource) (key : XOnlyPublicKey) :
    printing.OneStep (.single ⟨origin, .xOnly key⟩) := by
  have absent : '/' ∉ hex 64 key := fun member => absurd (mem_hex member) (by decide)
  exact ⟨origin, _, absent, Or.inl fun step => rfl⟩

theorem fixed_one_step (entry : KeyEntry) :
    printing.OneStep (buildDescriptorKey .fixed entry) := by
  refine ⟨_, _, ?_, Or.inl fun step => fixed_key_text entry⟩
  intro member
  rcases List.mem_append.mp member with parity | digits
  · split at parity
    · exact absurd parity (by decide)
    · exact absurd parity (by decide)
  · exact absurd (mem_hex digits) (by decide)

theorem ranged_one_step (plain : printing.PrintsPlain) (entry : KeyEntry) :
    printing.OneStep (buildDescriptorKey .ranged entry) := by
  refine ⟨some (entry.fingerprint, entry.derivationPath), printing.xpub entry.xpub,
    (plain entry.xpub).1, Or.inr ?_⟩
  intro step
  simp [buildDescriptorKey, DescriptorPublicKey.textAt]

theorem nums_one_step (plain : printing.PrintsPlain) (network : Network) (chainCode : ChainCode) :
    printing.OneStep (numsXpubDescriptorKey network chainCode) := by
  refine ⟨none, printing.xpub (numsXpub network chainCode), (plain _).1, Or.inr ?_⟩
  intro step
  simp [numsXpubDescriptorKey, DescriptorPublicKey.textAt]

end Chosen

/-- What `miniscript` reads from a text prints as that text. -/
def Miniscript.Rereads (miniscript : Miniscript) (text : Text) : Prop :=
  ∀ parsed, miniscript.fromStr text = .ok parsed → parsed.body miniscript.printing = text

namespace DescriptorBuilder

variable {printing : KeyPrinting} {builder : DescriptorBuilder} {network : Network}

def frameLetters : Text :=
  wshText ++ sortedmultiText ++ trText ++ multiAText ++
    [',', ')', '0', '1', '2', '3', '4', '5', '6', '7', '8', '9']

/-- A relation between texts that the frame of a descriptor cannot break. -/
structure Piecewise (related : Text → Text → Prop) : Prop where
  plain : ∀ {text}, (∀ char ∈ text, char ∈ frameLetters) → related text text
  append : ∀ {left leftDone right rightDone}, related left leftDone → related right rightDone →
    related (left ++ right) (leftDone ++ rightDone)

theorem Piecewise.framed {related : Text → Text → Prop} (piecewise : Piecewise related)
    {text : Text} (checked : text.all (· ∈ frameLetters) = true) : related text text :=
  piecewise.plain fun _ member => mem_of_all_mem checked member

theorem body_with_related {related : Text → Text → Prop} (piecewise : Piecewise related)
    {print printDone : DescriptorPublicKey → Text}
    (internal : related (print (builder.internalKey network))
      (printDone (builder.internalKey network)))
    (each : ∀ key ∈ builder.cosigners, related (print key) (printDone key)) :
    related (builder.bodyWith print network) (builder.bodyWith printDone network) := by
  have number : related (decimal builder.threshold.toNat) (decimal builder.threshold.toNat) := by
    apply piecewise.plain
    intro char member
    exact mem_of_all_mem (by decide) (digit_mem (mem_decimal member))
  have comma : related [','] [','] := piecewise.framed (by decide)
  have closing : related [')'] [')'] := piecewise.framed (by decide)
  have listed : ∀ keys : List DescriptorPublicKey, (∀ key ∈ keys, key ∈ builder.cosigners) →
      related (keys.map fun key => ',' :: print key).flatten
        (keys.map fun key => ',' :: printDone key).flatten := by
    intro keys among
    induction keys with
    | nil => exact piecewise.plain fun char member => absurd member List.not_mem_nil
    | cons key keys ih =>
        have here := piecewise.append comma (each key (among key List.mem_cons_self))
        have later := ih fun other member => among other (List.mem_cons_of_mem key member)
        exact piecewise.append here later
  have keys := listed builder.cosigners fun key member => member
  unfold bodyWith
  cases builder.scriptType with
  | wsh =>
      have opening : related wshText wshText := piecewise.framed (by decide)
      have name : related sortedmultiText sortedmultiText := piecewise.framed (by decide)
      have leaf := piecewise.append (piecewise.append (piecewise.append name number) keys) closing
      exact piecewise.append (piecewise.append opening leaf) closing
  | tr =>
      have opening : related trText trText := piecewise.framed (by decide)
      have name : related multiAText multiAText := piecewise.framed (by decide)
      have leaf := piecewise.append (piecewise.append (piecewise.append name number) keys) closing
      have front := piecewise.append (piecewise.append opening internal) comma
      exact piecewise.append (piecewise.append front leaf) closing

theorem cosigner_one_step (plain : printing.PrintsPlain) {key : DescriptorPublicKey}
    (among : key ∈ builder.cosigners) : printing.OneStep key := by
  rcases cosigners_mem among with ⟨entry, -, rfl⟩
  cases mode : builder.mode with
  | ranged =>
      rw [cosigner_of_ranged mode]
      exact ranged_one_step plain entry
  | fixed =>
      unfold cosigner taprootCosigner
      cases builder.scriptType with
      | wsh =>
          simp only [mode]
          exact fixed_one_step entry
      | tr =>
          simp only [mode]
          exact single_one_step _ _

theorem internal_one_step (plain : printing.PrintsPlain) :
    printing.OneStep (builder.internalKey network) := by
  unfold internalKey
  cases builder.taprootInternalKey with
  | rawNums => exact single_one_step none numsInternalKey
  | numsXpub chainCode => exact nums_one_step plain network chainCode

theorem branch_text {miniscript : Miniscript} (plain : miniscript.printing.PrintsPlain)
    (branch : Nat) :
    chooseBranch branch (toMultipathString miniscript (builder.assembled network)) =
      builder.bodyWith (·.textAt miniscript.printing (decimal branch)) network := by
  have piecewise : Piecewise (Becomes branchesText ('/' :: decimal branch ++ ['/'])) :=
    ⟨fun framed => becomes_self fun member => absurd (framed _ member) (by decide), becomes_append⟩
  rw [multipath_text plain.base58]
  apply replace_of_becomes
  apply body_with_related piecewise
  · exact step_chosen (internal_one_step plain)
  · exact fun key among => step_chosen (cosigner_one_step plain among)

theorem stars_follow_branches (base58 : printing.PrintsBase58) :
    Follows ['>', '/'] '*' (builder.bodyWith (·.textAt printing bothKeychains) network) := by
  have ofLifts {text lifted : Text} (lifts : Lifts text lifted) :
      Follows ['>', '/'] '*' lifted := by
    obtain ⟨info, absent, ⟨-, same⟩ | ⟨-, same⟩⟩ := lifts
    · rw [same]
      exact follows_of_absent absent
    · have alone : Follows ['>', '/'] '*' (branchesText ++ ['*']) :=
        follows_at_end (by decide) (by decide)
      rw [same]
      exact follows_append (follows_of_absent absent) alone
  have piecewise : Piecewise fun text _ => Follows ['>', '/'] '*' text :=
    ⟨fun framed => follows_of_absent fun member => absurd (framed _ member) (by decide),
      follows_append⟩
  apply @body_with_related builder network _ piecewise _ fun _ => []
  · exact ofLifts (internal_key_lifts base58)
  · exact fun key among => ofLifts (cosigner_lifts base58 among)

theorem hash_not_mem_multipath {miniscript : Miniscript}
    (base58 : miniscript.printing.PrintsBase58) :
    '#' ∉ toMultipathString miniscript (builder.assembled network) := by
  have hash := @hash_not_mem_assembled miniscript.printing builder network base58
  intro member
  rw [toMultipathString, Descriptor.toText, before_append hash] at member
  rcases mem_of_mem_replace member with brought | kept
  · exact absurd brought (by decide)
  · exact hash kept

theorem lift_lifted (base58 : printing.PrintsBase58) :
    replace externalText multipathText
        (builder.bodyWith (·.textAt printing bothKeychains) network) =
      builder.bodyWith (·.textAt printing bothKeychains) network := by
  have size : ['>', '/'].length ≤ ['/', '0', '/'].length := by decide
  have apart : ¬ ['>', '/'] <:+ ['/', '0', '/'] := by decide
  exact replace_of_follows (stars_follow_branches base58) size apart

/-- The multipath string of a built descriptor has no checksum, holds the
descriptor on its first branch and the change keychain of its ranged keys on the
second, and is not lifted any further once it is parsed. -/
theorem lifting_loses_nothing {miniscript : Miniscript} (faithful : miniscript.Faithful)
    (plain : miniscript.printing.PrintsPlain) {descriptor : Descriptor}
    (built : builder.build miniscript = .ok descriptor)
    (rereads : miniscript.Rereads (toMultipathString miniscript descriptor)) :
    '#' ∉ toMultipathString miniscript descriptor ∧
      chooseBranch 0 (toMultipathString miniscript descriptor) =
        descriptor.body miniscript.printing ∧
      chooseBranch 1 (toMultipathString miniscript descriptor) =
        (descriptor.mapKeys DescriptorPublicKey.onChange).body miniscript.printing ∧
      ∀ parsed, miniscript.fromStr (toMultipathString miniscript descriptor) = .ok parsed →
        toMultipathString miniscript parsed = toMultipathString miniscript descriptor := by
  obtain ⟨network, -, rfl⟩ := build_is_assembled faithful built
  have hash := @hash_not_mem_multipath builder network miniscript plain.base58
  refine ⟨hash, ?_, ?_, ?_⟩
  · have keys : (fun key : DescriptorPublicKey => key.textAt miniscript.printing (decimal 0)) =
        DescriptorPublicKey.toText miniscript.printing := funext text_at_receive
    rw [branch_text plain, keys, assembled_body]
  · have keys : (fun key : DescriptorPublicKey => key.textAt miniscript.printing (decimal 1)) =
        fun key => key.onChange.toText miniscript.printing := funext text_at_change
    rw [branch_text plain, keys, mapped_body]
  · intro parsed answer
    have text := rereads parsed answer
    have again : toMultipathString miniscript parsed =
        replace externalText multipathText
          (toMultipathString miniscript (builder.assembled network)) := by
      rw [toMultipathString, Descriptor.toText, text, before_append hash]
    rw [again, multipath_text plain.base58, lift_lifted plain.base58]

end DescriptorBuilder

namespace MockSigner

def branchMiniscript : Miniscript :=
  { readingMiniscript with
    checksum := fun body =>
      if body = liftedDescriptor.body twoPathPrinting then "mtmzawcu".toList else checksum body }

theorem lifting_loses_nothing_ranged :
    '#' ∉ toMultipathString branchMiniscript (descriptor .ranged) ∧
      chooseBranch 0 (toMultipathString branchMiniscript (descriptor .ranged)) =
        (descriptor .ranged).body branchMiniscript.printing ∧
      chooseBranch 1 (toMultipathString branchMiniscript (descriptor .ranged)) =
        ((descriptor .ranged).mapKeys DescriptorPublicKey.onChange).body
          branchMiniscript.printing ∧
      ∀ parsed, branchMiniscript.fromStr
            (toMultipathString branchMiniscript (descriptor .ranged)) = .ok parsed →
        toMultipathString branchMiniscript parsed =
          toMultipathString branchMiniscript (descriptor .ranged) := by
  have faithful : branchMiniscript.Faithful := reading_faithful.with_checksum _
  have built : (DescriptorBuilder.ofSigners 2 (.bitcoin .testnet) .ranged .wsh .rawNums
      [first, second]).build branchMiniscript = .ok (descriptor .ranged) := by decide +kernel
  have rereads : branchMiniscript.Rereads
      (toMultipathString branchMiniscript (descriptor .ranged)) := by
    intro parsed answer
    have lifted : branchMiniscript.fromStr
        (toMultipathString branchMiniscript (descriptor .ranged)) = .ok liftedDescriptor := by
      decide +kernel
    have text : liftedDescriptor.body branchMiniscript.printing =
        toMultipathString branchMiniscript (descriptor .ranged) := by decide +kernel
    rw [lifted] at answer
    rw [← Except.ok.inj answer]
    exact text
  exact DescriptorBuilder.lifting_loses_nothing faithful prints_plain built rereads

end MockSigner

end EmvaultCore
