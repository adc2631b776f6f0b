import Mathlib.Data.List.Basic
import Std.Data.ExtTreeMap

/-!
# Merging values that agree

A merge that prefers one side where both say something is a join on values that
agree there. Merging a collection of such values into another is then a matter of
which values there are, not of their order or of how often each comes.
-/

namespace EmvaultCore.Library.Merging

variable {Value : Type*}

/-- On values that agree pairwise, the merge is a join. -/
structure Joins (merge : Value → Value → Value) (Agree : Value → Value → Prop) : Prop where
  symm : ∀ {left right}, Agree left right → Agree right left
  idem : ∀ value, merge value value = value
  comm : ∀ {left right}, Agree left right → merge left right = merge right left
  assoc : ∀ first second third,
    Agree first second → Agree second third → Agree first third →
      merge (merge first second) third = merge first (merge second third)
  merged : ∀ {first second third}, Agree first third → Agree second third →
    Agree first second → Agree (merge first second) third

def Compatible (Agree : Value → Value → Prop) (base : Value) (values : List Value) : Prop :=
  (∀ value ∈ values, Agree base value) ∧
    ∀ left ∈ values, ∀ right ∈ values, Agree left right

section Fold

variable {merge : Value → Value → Value} {Agree : Value → Value → Prop}
  (joins : Joins merge Agree)

include joins

theorem compatible_merge {base value : Value} {values : List Value}
    (compatible : Compatible Agree base values) (member : value ∈ values) :
    Compatible Agree (merge base value) values := by
  constructor
  · intro other among
    exact joins.merged (compatible.1 other among) (compatible.2 value member other among)
      (compatible.1 value member)
  · exact compatible.2

omit joins in
theorem Compatible.mono {base : Value} {values fewer : List Value}
    (compatible : Compatible Agree base values) (within : fewer ⊆ values) :
    Compatible Agree base fewer :=
  ⟨fun value member => compatible.1 value (within member),
    fun left first right second => compatible.2 left (within first) right (within second)⟩

theorem merge_swap {base left right : Value} (first : Agree base left) (second : Agree base right)
    (both : Agree left right) :
    merge (merge base left) right = merge (merge base right) left :=
  calc merge (merge base left) right = merge base (merge left right) :=
        joins.assoc _ _ _ first both second
    _ = merge base (merge right left) := by rw [joins.comm both]
    _ = merge (merge base right) left :=
        (joins.assoc _ _ _ second (joins.symm both) first).symm

/-- A value that comes later anyway need not be merged before. -/
theorem fold_absorb {base value : Value} {values : List Value}
    (compatible : Compatible Agree base values) (member : value ∈ values) :
    values.foldl merge (merge base value) = values.foldl merge base := by
  induction values generalizing base with
  | nil => cases member
  | cons first rest ih =>
      have agrees := compatible.1 value member
      have firstAgrees := compatible.1 first List.mem_cons_self
      have both := compatible.2 value member first List.mem_cons_self
      rw [List.foldl_cons, List.foldl_cons]
      by_cases same : value = first
      · subst same
        rw [joins.assoc _ _ _ agrees both agrees, joins.idem]
      · have later : value ∈ rest := (List.mem_cons.mp member).resolve_left same
        rw [merge_swap joins agrees firstAgrees both]
        exact ih ((compatible_merge joins compatible List.mem_cons_self).mono
          (List.subset_cons_self first rest)) later

theorem fold_absorb_all {base : Value} {values fewer : List Value}
    (compatible : Compatible Agree base values) (within : fewer ⊆ values) :
    values.foldl merge (fewer.foldl merge base) = values.foldl merge base := by
  induction fewer generalizing base with
  | nil => rfl
  | cons first rest ih =>
      have member : first ∈ values := within List.mem_cons_self
      rw [List.foldl_cons, ih (compatible_merge joins compatible member)
        fun value later => within (List.mem_cons_of_mem _ later)]
      exact fold_absorb joins compatible member

theorem fold_push {base value : Value} {values : List Value}
    (compatible : Compatible Agree base (value :: values)) :
    merge (values.foldl merge base) value = values.foldl merge (merge base value) := by
  induction values generalizing base with
  | nil => rfl
  | cons first rest ih =>
      have member : first ∈ value :: first :: rest := List.mem_cons_of_mem _ List.mem_cons_self
      have within : value :: rest ⊆ value :: first :: rest := by simp
      rw [List.foldl_cons, List.foldl_cons,
        ih ((compatible_merge joins compatible member).mono within),
        merge_swap joins (compatible.1 value List.mem_cons_self) (compatible.1 first member)
          (compatible.2 value List.mem_cons_self first member)]

theorem fold_fold_comm {base : Value} {left right values : List Value}
    (compatible : Compatible Agree base values) (leftWithin : left ⊆ values)
    (rightWithin : right ⊆ values) :
    right.foldl merge (left.foldl merge base) = left.foldl merge (right.foldl merge base) := by
  induction right generalizing base with
  | nil => rfl
  | cons first rest ih =>
      have member : first ∈ values := rightWithin List.mem_cons_self
      have within : first :: left ⊆ values := List.cons_subset.mpr ⟨member, leftWithin⟩
      rw [List.foldl_cons, List.foldl_cons, fold_push joins (compatible.mono within),
        ih (compatible_merge joins compatible member)
          fun value later => rightWithin (List.mem_cons_of_mem _ later)]

/-- Neither the order nor the number of times a value comes matters. -/
theorem fold_same_members {base : Value} {left right : List Value}
    (compatible : Compatible Agree base left) (same : ∀ value, value ∈ left ↔ value ∈ right) :
    left.foldl merge base = right.foldl merge base := by
  have back : right ⊆ left := fun value member => (same value).mpr member
  have forth : left ⊆ right := fun value member => (same value).mp member
  calc left.foldl merge base = left.foldl merge (right.foldl merge base) :=
        (fold_absorb_all joins compatible back).symm
    _ = right.foldl merge (left.foldl merge base) :=
        (fold_fold_comm joins compatible (List.Subset.refl left) back).symm
    _ = right.foldl merge base := fold_absorb_all joins (compatible.mono back) forth

end Fold

/-! ### Optional values and maps -/

def AgreeOn (left right : Option Value) : Prop :=
  ∀ first, left = some first → ∀ second, right = some second → first = second

theorem option_joins : Joins (Option.or (α := Value)) AgreeOn := by
  constructor
  · intro left right agree first given second other
    exact (agree second other first given).symm
  · intro value
    cases value <;> rfl
  · intro left right agree
    cases left with
    | none => cases right <;> rfl
    | some first =>
        cases right with
        | none => rfl
        | some second => rw [agree first rfl second rfl]
  · intro first second third _ _ _
    exact Option.or_assoc
  · intro first second third left right _ value given other present
    cases first with
    | none => exact right value given other present
    | some held => exact left value given other present

theorem AgreeOn.refl (value : Option Value) : AgreeOn value value := by
  intro first given second other
  exact Option.some.inj (given.symm.trans other)

def AgreeMaps {Key : Type*} {cmp : Key → Key → Ordering} [Std.TransCmp cmp]
    (left right : Std.ExtTreeMap Key Value cmp) : Prop :=
  ∀ key : Key, AgreeOn left[key]? right[key]?

theorem AgreeMaps.refl {Key : Type*} {cmp : Key → Key → Ordering} [Std.TransCmp cmp]
    (map : Std.ExtTreeMap Key Value cmp) : AgreeMaps map map :=
  fun key => AgreeOn.refl map[key]?

theorem map_joins {Key : Type*} {cmp : Key → Key → Ordering} [Std.TransCmp cmp]
    [Std.LawfulEqCmp cmp] :
    Joins (fun left right : Std.ExtTreeMap Key Value cmp => left ∪ right) AgreeMaps := by
  constructor
  · exact fun agree key => option_joins.symm (agree key)
  · intro map
    apply Std.ExtTreeMap.ext_getElem?
    intro key
    rw [Std.ExtTreeMap.getElem?_union, option_joins.idem]
  · intro left right agree
    apply Std.ExtTreeMap.ext_getElem?
    intro key
    rw [Std.ExtTreeMap.getElem?_union, Std.ExtTreeMap.getElem?_union,
      option_joins.comm (agree key)]
  · intro first second third _ _ _
    apply Std.ExtTreeMap.ext_getElem?
    intro key
    simp only [Std.ExtTreeMap.getElem?_union, Option.or_assoc]
  · intro first second third left right both key
    rw [Std.ExtTreeMap.getElem?_union]
    exact option_joins.merged (right key) (left key) (option_joins.symm (both key))

end EmvaultCore.Library.Merging
