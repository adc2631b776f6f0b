import Mathlib.Data.List.Nodup

/-!
# Lists with distinct keys

With keys that differ, a search or a filter by key finds one element.
-/

namespace EmvaultCore.Library.Keyed

variable {Value Key : Type} [DecidableEq Key] {key : Value → Key} {values : List Value}

theorem find_of_nodup_map (distinct : (values.map key).Nodup) {value : Value}
    (member : value ∈ values) : values.find? (fun other => key other = key value) = some value := by
  cases found : values.find? (fun other => key other = key value) with
  | none => simpa using List.find?_eq_none.mp found value member
  | some other =>
      have same : key other = key value := by simpa using List.find?_some found
      rw [List.inj_on_of_nodup_map distinct (List.mem_of_find?_eq_some found) member same]

theorem filter_of_nodup_map (distinct : (values.map key).Nodup) {value : Value}
    (member : value ∈ values) :
    values.filter (fun other => key other = key value) = [value] := by
  induction values with
  | nil => simp at member
  | cons first values ih =>
      rw [List.map_cons, List.nodup_cons] at distinct
      rcases List.mem_cons.mp member with rfl | later
      · have others : ∀ other ∈ values, ¬ decide (key other = key value) = true := by
          intro other among same
          exact distinct.1 (List.mem_map.mpr ⟨other, among, of_decide_eq_true same⟩)
        rw [List.filter_cons, if_pos (decide_eq_true rfl), List.filter_eq_nil_iff.mpr others]
      · have apart : ¬ decide (key first = key value) = true := by
          intro same
          exact distinct.1 (List.mem_map.mpr ⟨value, later, (of_decide_eq_true same).symm⟩)
        rw [List.filter_cons, if_neg apart]
        exact ih distinct.2 later

end EmvaultCore.Library.Keyed
