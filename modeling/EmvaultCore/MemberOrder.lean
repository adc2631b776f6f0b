import EmvaultCore.JsonParsing

/-!
# Values up to the order of members

Two values are equal up to member order when one is made from the other by
permuting the members of objects, at any depth. For values whose objects have each
name once, as those of `serde_json` do, this is the same as being equal once sorted,
so canonical texts are equal for these values and for no others.
-/

namespace EmvaultCore.Json

/-- Equality up to the order of object members. -/
inductive Reordered : Json → Json → Prop where
  | refl (value : Json) : Reordered value value
  | symm {value other : Json} (same : Reordered value other) : Reordered other value
  | trans {value other third : Json} (first : Reordered value other)
      (second : Reordered other third) : Reordered value third
  | permute {members others : List (String × Json)} (perm : members.Perm others) :
      Reordered (.object members) (.object others)
  | item {value other : Json} (before after : List Json) (same : Reordered value other) :
      Reordered (.array (before ++ value :: after)) (.array (before ++ other :: after))
  | member {value other : Json} (before : List (String × Json)) (name : String)
      (after : List (String × Json)) (same : Reordered value other) :
      Reordered (.object (before ++ (name, value) :: after))
        (.object (before ++ (name, other) :: after))

/-- Values whose objects have each name once, with numbers in a range and at most
`depth` arrays and objects inside each other. -/
inductive Fits (range : Int → Prop) : Nat → Json → Prop where
  | null {depth : Nat} : Fits range depth .null
  | bool {depth : Nat} {value : Bool} : Fits range depth (.bool value)
  | number {depth : Nat} {value : Int} (within : range value) : Fits range depth (.number value)
  | string {depth : Nat} {value : String} : Fits range depth (.string value)
  | array {depth : Nat} {items : List Json} (each : ∀ item ∈ items, Fits range depth item) :
      Fits range (depth + 1) (.array items)
  | object {depth : Nat} {members : List (String × Json)} (once : (members.map Prod.fst).Nodup)
      (each : ∀ member ∈ members, Fits range depth member.2) :
      Fits range (depth + 1) (.object members)

def NamesOnce (value : Json) : Prop := ∃ depth, Fits (fun _ => True) depth value

/-- A `serde_json::Value`: its objects are maps. -/
structure Value where
  json : Json
  namesOnce : json.NamesOnce

def Value.text (value : Value) : Library.Text := value.json.writeCanonical

variable {range : Int → Prop} {depth : Nat} {value other : Json}

theorem fits_array {items : List Json} :
    Fits range depth (.array items) ↔
      ∃ inner, depth = inner + 1 ∧ ∀ item ∈ items, Fits range inner item := by
  constructor
  · intro fits
    cases fits with
    | array each => exact ⟨_, rfl, each⟩
  · intro inside
    obtain ⟨inner, rfl, each⟩ := inside
    exact .array each

theorem fits_object {members : List (String × Json)} :
    Fits range depth (.object members) ↔
      ∃ inner, depth = inner + 1 ∧ (members.map Prod.fst).Nodup ∧
        ∀ member ∈ members, Fits range inner member.2 := by
  constructor
  · intro fits
    cases fits with
    | object once each => exact ⟨_, rfl, once, each⟩
  · intro inside
    obtain ⟨inner, rfl, once, each⟩ := inside
    exact .object once each

theorem Fits.mono {wider : Int → Prop} (within : ∀ number, range number → wider number)
    (fits : Fits range depth value) : Fits wider depth value := by
  induction fits with
  | null => exact .null
  | bool => exact .bool
  | number inRange => exact .number (within _ inRange)
  | string => exact .string
  | array _ ih => exact .array ih
  | object once _ ih => exact .object once ih

theorem Fits.deeper (fits : Fits range depth value) (more : Nat) :
    Fits range (depth + more) value := by
  induction fits with
  | null => exact .null
  | bool => exact .bool
  | number within => exact .number within
  | string => exact .string
  | array _ ih =>
      rw [Nat.add_right_comm]
      exact .array ih
  | object once _ ih =>
      rw [Nat.add_right_comm]
      exact .object once ih

theorem common_depth {values : List Json}
    (each : ∀ value ∈ values, ∃ depth, Fits range depth value) :
    ∃ depth, ∀ value ∈ values, Fits range depth value := by
  induction values with
  | nil => exact ⟨0, by simp⟩
  | cons value values ih =>
      rw [List.forall_mem_cons] at each
      obtain ⟨first, fits⟩ := each.1
      obtain ⟨depth, later⟩ := ih each.2
      refine ⟨depth + first, ?_⟩
      rw [List.forall_mem_cons]
      constructor
      · rw [Nat.add_comm]
        exact fits.deeper depth
      · intro other listed
        exact (later other listed).deeper first

theorem names_once_array {items : List Json} :
    NamesOnce (.array items) ↔ ∀ item ∈ items, NamesOnce item := by
  constructor
  · intro once item listed
    obtain ⟨depth, fits⟩ := once
    obtain ⟨inner, _, each⟩ := fits_array.mp fits
    exact ⟨inner, each item listed⟩
  · intro each
    obtain ⟨depth, fits⟩ := common_depth each
    exact ⟨depth + 1, .array fits⟩

theorem names_once_object {members : List (String × Json)} :
    NamesOnce (.object members) ↔
      (members.map Prod.fst).Nodup ∧ ∀ member ∈ members, NamesOnce member.2 := by
  constructor
  · intro once
    obtain ⟨depth, fits⟩ := once
    obtain ⟨inner, _, names, each⟩ := fits_object.mp fits
    exact ⟨names, fun member listed => ⟨inner, each member listed⟩⟩
  · intro inside
    have values : ∀ value ∈ members.map Prod.snd, NamesOnce value :=
      List.forall_mem_map.mpr inside.2
    obtain ⟨depth, fits⟩ := common_depth values
    exact ⟨depth + 1, .object inside.1 (List.forall_mem_map.mp fits)⟩

theorem Reordered.fits (same : Reordered value other) :
    Fits range depth value ↔ Fits range depth other := by
  induction same generalizing depth with
  | refl value => exact Iff.rfl
  | symm _ ih => exact ih.symm
  | trans _ _ first second => exact first.trans second
  | permute perm =>
      simp only [fits_object, (perm.map Prod.fst).nodup_iff, perm.mem_iff]
  | item before after _ ih =>
      simp only [fits_array, List.forall_mem_append, List.forall_mem_cons, ih]
  | member before name after _ ih =>
      simp only [fits_object, List.forall_mem_append, List.forall_mem_cons, ih, List.map_append,
        List.map_cons]

theorem Reordered.names_once (same : Reordered value other) :
    value.NamesOnce ↔ other.NamesOnce :=
  exists_congr fun _ => same.fits

/-! ### Sorted members -/

theorem mem_sorted_members {members : List (String × Json)} {member : String × Json} :
    member ∈ sortedMembers members ↔ member ∈ members :=
  (List.perm_insertionSort _ members).mem_iff

theorem sorted_members_perm {members others : List (String × Json)} (perm : members.Perm others)
    (once : (members.map Prod.fst).Nodup) : sortedMembers members = sortedMembers others := by
  have sorted : ∀ list : List (String × Json),
      (sortedMembers list).Pairwise fun left right => left.1 ≤ right.1 := fun list =>
    List.pairwise_insertionSort (fun left right : String × Json => left.1 ≤ right.1) list
  have same : (sortedMembers members).Perm (sortedMembers others) :=
    (List.perm_insertionSort _ members).trans (perm.trans (List.perm_insertionSort _ others).symm)
  apply List.Perm.eq_of_pairwise _ (sorted members) (sorted others) same
  intro member other listed otherListed before after
  have here := mem_sorted_members.mp listed
  have there := perm.mem_iff.mpr (mem_sorted_members.mp otherListed)
  exact List.inj_on_of_nodup_map once here there (String.le_antisymm before after)

theorem Reordered.canonical (same : Reordered value other) (once : value.NamesOnce) :
    value.canonical = other.canonical := by
  induction same with
  | refl value => rfl
  | symm same ih => exact (ih (same.names_once.mpr once)).symm
  | trans first second firstIh secondIh =>
      exact (firstIh once).trans (secondIh (first.names_once.mp once))
  | permute perm =>
      have names := (names_once_object.mp once).1
      simp only [Json.canonical, canonical_members_eq]
      congr 1
      apply sorted_members_perm (perm.map _)
      rw [List.map_map]
      exact names
  | item before after same ih =>
      have equal := ih (names_once_array.mp once _ (by simp))
      simp only [Json.canonical, canonical_items_eq, List.map_append, List.map_cons, equal]
  | member before name after same ih =>
      have equal := ih ((names_once_object.mp once).2 (name, _) (by simp))
      simp only [Json.canonical, canonical_members_eq, List.map_append, List.map_cons, equal]

mutual

theorem reordered_canonical : ∀ value : Json, Reordered value value.canonical
  | .null => .refl _
  | .bool _ => .refl _
  | .number _ => .refl _
  | .string _ => .refl _
  | .array items => items_reordered [] items
  | .object members =>
      (members_reordered [] members).trans (.permute (List.perm_insertionSort _ _).symm)

theorem items_reordered : ∀ before items : List Json,
    Reordered (.array (before ++ items)) (.array (before ++ canonicalItems items))
  | _, [] => .refl _
  | before, item :: items => by
      have first := Reordered.item before items (reordered_canonical item)
      have later := items_reordered (before ++ [item.canonical]) items
      simp only [List.append_assoc, List.singleton_append] at later
      exact first.trans later

theorem members_reordered : ∀ before members : List (String × Json),
    Reordered (.object (before ++ members)) (.object (before ++ canonicalMembers members))
  | _, [] => .refl _
  | before, (name, value) :: members => by
      have first := Reordered.member before name members (reordered_canonical value)
      have later := members_reordered (before ++ [(name, value.canonical)]) members
      simp only [List.append_assoc, List.singleton_append] at later
      exact first.trans later

end

theorem canonical_eq_iff (once : value.NamesOnce) :
    value.canonical = other.canonical ↔ Reordered value other := by
  constructor
  · intro equal
    have sorted := reordered_canonical value
    rw [equal] at sorted
    exact sorted.trans (reordered_canonical other).symm
  · intro same
    exact same.canonical once

/-- Two values have one text exactly if they are equal up to member order. -/
theorem text_eq_iff {value other : Value} :
    value.text = other.text ↔ Reordered value.json other.json := by
  rw [← canonical_eq_iff value.namesOnce]
  constructor
  · intro same
    exact canonical_eq_of_text same
  · intro equal
    rw [Value.text, Value.text, write_canonical_eq, write_canonical_eq, equal]

/-- The text of a value is read as the value, up to member order. -/
theorem parse_text (value : Value) :
    ∃ read, parse value.text = some read ∧ Reordered value.json read :=
  ⟨_, parse_write_canonical value.json, reordered_canonical value.json⟩

end EmvaultCore.Json
