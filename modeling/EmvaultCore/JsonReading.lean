import EmvaultCore.CanonicalText
import EmvaultCore.Library.Keyed

/-!
# Reading values back

What derived readers make of the members of an object, of numbers and of lists.
The order of the members does not matter to them, so they read a value and its
sorted form alike.
-/

namespace EmvaultCore.Json

def atMostOne {Item : Type} : List Item → Option (Option Item)
  | [] => some none
  | [item] => some (some item)
  | _ => none

theorem at_most_one_perm {Item : Type} {items others : List Item} (perm : items.Perm others) :
    atMostOne items = atMostOne others := by
  match items, perm with
  | [], perm => rw [List.nil_perm.mp perm]
  | [item], perm => rw [List.singleton_perm.mp perm]
  | first :: second :: items, perm =>
      have size := perm.length_eq
      match others with
      | [] => cases size
      | [other] => simp at size
      | _ :: _ :: _ => rfl

theorem at_most_one_map {Item Value : Type} (change : Item → Value) (items : List Item) :
    atMostOne (items.map change) = (atMostOne items).map (Option.map change) := by
  match items with
  | [] => rfl
  | [item] => rfl
  | _ :: _ :: _ => rfl

def members : Json → List (String × Json)
  | .object members => members
  | _ => []

/-- The member whose name is chosen, if there is one; a second one is an error. -/
def memberWhere (chosen : String → Bool) : Json → Option (Option (String × Json))
  | .object members => atMostOne (members.filter fun member => chosen member.1)
  | _ => none

theorem member_where_canonical (chosen : String → Bool) (json : Json) :
    memberWhere chosen json.canonical =
      (memberWhere chosen json).map (Option.map fun member => (member.1, member.2.canonical)) := by
  cases json with
  | object members =>
      have sorted : (sortedMembers (canonicalMembers members)).Perm (canonicalMembers members) :=
        List.perm_insertionSort _ _
      have chosenFirst : (canonicalMembers members).filter (fun member => chosen member.1) =
          (members.filter fun member => chosen member.1).map
            fun member => (member.1, member.2.canonical) := by
        rw [canonical_members_eq, List.filter_map]
        rfl
      rw [canonical, memberWhere, at_most_one_perm (sorted.filter _), chosenFirst,
        at_most_one_map, memberWhere]
  | _ => rfl

section Readers

variable {Value : Type}

/-- The order of members does not matter to a reader. -/
def OrderFree (read : Json → Option Value) : Prop := ∀ json, read json.canonical = read json

def requiredField (name : String) (read : Json → Option Value) (json : Json) : Option Value :=
  (memberWhere (· = name) json).join.bind fun member => read member.2

def asOption (read : Json → Option Value) : Json → Option (Option Value)
  | .null => some none
  | json => (read json).map some

/-- A field of type `Option`, which may be missing. -/
def optionalField (name : String) (read : Json → Option Value) (json : Json) :
    Option (Option Value) :=
  (memberWhere (· = name) json).bind fun found =>
    match found with
    | none => some none
    | some member => asOption read member.2

def asString : Json → Option String
  | .string value => some value
  | _ => none

def asCount : Json → Option Nat
  | .number value => if 0 ≤ value then some value.toNat else none
  | _ => none

def asU32 : Json → Option UInt32
  | .number value =>
      if 0 ≤ value ∧ value < 2 ^ 32 then some (UInt32.ofNat value.toNat) else none
  | _ => none

def asI64 : Json → Option Int
  | .number value => if -2 ^ 63 ≤ value ∧ value < 2 ^ 63 then some value else none
  | _ => none

def asList (read : Json → Option Value) : Json → Option (List Value)
  | .array items => items.mapM read
  | _ => none

variable {read : Json → Option Value}

theorem order_free_string : OrderFree asString := by
  intro json
  cases json <;> rfl

theorem order_free_count : OrderFree asCount := by
  intro json
  cases json <;> rfl

theorem order_free_u32 : OrderFree asU32 := by
  intro json
  cases json <;> rfl

theorem order_free_i64 : OrderFree asI64 := by
  intro json
  cases json <;> rfl

theorem order_free_option (free : OrderFree read) : OrderFree (asOption read) := by
  intro json
  cases json with
  | null => rfl
  | _ => exact congrArg (Option.map some) (free _)

theorem order_free_list (free : OrderFree read) : OrderFree (asList read) := by
  intro json
  cases json with
  | array items =>
      rw [canonical, canonical_items_eq, asList, asList, List.mapM_map]
      congr 1
      funext item
      exact free item
  | _ => rfl

theorem order_free_required (free : OrderFree read) (name : String) :
    OrderFree (requiredField name read) := by
  intro json
  rw [requiredField, requiredField, member_where_canonical]
  cases memberWhere (· = name) json with
  | none => rfl
  | some found =>
      cases found with
      | none => rfl
      | some member => exact free member.2

theorem order_free_optional (free : OrderFree read) (name : String) :
    OrderFree (optionalField name read) := by
  intro json
  rw [optionalField, optionalField, member_where_canonical]
  cases memberWhere (· = name) json with
  | none => rfl
  | some found =>
      cases found with
      | none => rfl
      | some member => exact order_free_option free member.2

theorem member_where_distinct {members : List (String × Json)}
    (distinct : (members.map Prod.fst).Nodup) {member : String × Json} (listed : member ∈ members) :
    memberWhere (· = member.1) (.object members) = some (some member) := by
  rw [memberWhere, Library.Keyed.filter_of_nodup_map distinct listed]
  rfl

theorem required_field_eq {members : List (String × Json)}
    (distinct : (members.map Prod.fst).Nodup) {name : String} {value : Json}
    (listed : (name, value) ∈ members) : requiredField name read (.object members) = read value := by
  rw [requiredField, member_where_distinct distinct listed]
  rfl

theorem optional_field_eq {members : List (String × Json)}
    (distinct : (members.map Prod.fst).Nodup) {name : String} {value : Json}
    (listed : (name, value) ∈ members) :
    optionalField name read (.object members) = asOption read value := by
  rw [optionalField, member_where_distinct distinct listed]
  rfl

theorem required_field_at {json value : Json} (distinct : (json.members.map Prod.fst).Nodup)
    (place : Nat) (name : String) (listed : json.members[place]? = some (name, value)) :
    requiredField name read json = read value := by
  cases json with
  | object members => exact required_field_eq distinct (List.mem_of_getElem? listed)
  | _ => cases listed

theorem optional_field_at {json value : Json} (distinct : (json.members.map Prod.fst).Nodup)
    (place : Nat) (name : String) (listed : json.members[place]? = some (name, value)) :
    optionalField name read json = asOption read value := by
  cases json with
  | object members => exact optional_field_eq distinct (List.mem_of_getElem? listed)
  | _ => cases listed

theorem as_u32_number (value : UInt32) : asU32 (.number value.toNat) = some value := by
  have bound := value.toNat_lt
  rw [asU32, if_pos ⟨by omega, by omega⟩, Int.toNat_natCast, UInt32.ofNat_toNat]

theorem as_i64_number {value : Int} (inRange : -2 ^ 63 ≤ value ∧ value < 2 ^ 63) :
    asI64 (.number value) = some value := by
  rw [asI64, if_pos inRange]

theorem as_count_number (value : Nat) : asCount (.number value) = some value := by
  rw [asCount, if_pos (by omega), Int.toNat_natCast]

theorem as_list_reads_of {toJson : Value → Json} {values : List Value}
    (reads : ∀ value ∈ values, read (toJson value) = some value) :
    asList read (.array (values.map toJson)) = some values := by
  rw [asList, List.mapM_map]
  induction values with
  | nil => rfl
  | cons value values ih =>
      rw [List.forall_mem_cons] at reads
      rw [List.mapM_cons, ih reads.2, Function.comp_apply, reads.1]
      rfl

theorem as_list_reads {toJson : Value → Json} (reads : ∀ value, read (toJson value) = some value)
    (values : List Value) : asList read (.array (values.map toJson)) = some values :=
  as_list_reads_of fun value _ => reads value

end Readers

end EmvaultCore.Json
