import EmvaultCore.Library.Text

/-!
# Printed forms that end by themselves

Texts printed one after the other can be told apart again when no text of one
value, with what may follow it, is also the text of another value with what may
follow that. Runs of a class of characters, code words up to a mark and lists
with separators are such forms, and a record of such forms is one as well.
-/

namespace EmvaultCore.Library.Delimited

variable {Item Value : Type*} {follows : Text → Prop}

/-- In front of a text that may follow, the text of `value` ends where it ends and
is the text of no other value. -/
def Ends (print : Value → Text) (follows : Text → Prop) (value : Value) : Prop :=
  ∀ other rest remaining, follows rest → follows remaining →
    print value ++ rest = print other ++ remaining → value = other ∧ rest = remaining

theorem eq_of_ends {print : Value → Text} {value other : Value}
    (ends : Ends print follows value) (nothing : follows [])
    (same : print value = print other) : value = other := by
  have whole : print value ++ [] = print other ++ [] := by rw [same]
  exact (ends other [] [] nothing nothing whole).1

theorem run_unique {inClass : Char → Bool} {run other rest remaining : Text}
    (runClass : ∀ char ∈ run, inClass char = true)
    (otherClass : ∀ char ∈ other, inClass char = true)
    (restStops : ∀ char, rest.head? = some char → inClass char = false)
    (remainingStops : ∀ char, remaining.head? = some char → inClass char = false)
    (same : run ++ rest = other ++ remaining) : run = other ∧ rest = remaining := by
  have stops : ∀ text : Text, (∀ char, text.head? = some char → inClass char = false) →
      text.takeWhile inClass = [] := by
    intro text outside
    cases text with
    | nil => rfl
    | cons char text => rw [List.takeWhile_cons_of_neg (by simpa using outside char rfl)]
  have cut := congrArg (List.takeWhile inClass) same
  rw [List.takeWhile_append_of_pos runClass, List.takeWhile_append_of_pos otherClass,
    stops rest restStops, stops remaining remainingStops, List.append_nil,
    List.append_nil] at cut
  subst cut
  exact ⟨rfl, List.append_cancel_left same⟩

/-- Code words that differ also differ in front of any text, and none of them
begins with the mark. -/
structure CodesUntil (code : Item → Text) (mark : Char) : Prop where
  separates : ∀ item other rest remaining, code item ++ rest = code other ++ remaining →
    item = other
  notMark : ∀ item rest remaining, code item ++ rest ≠ mark :: remaining

theorem CodesUntil.unique {code : Item → Text} {mark : Char} (codes : CodesUntil code mark)
    {items others : List Item} {rest remaining : Text}
    (same : (items.map code).flatten ++ mark :: rest =
      (others.map code).flatten ++ mark :: remaining) : items = others ∧ rest = remaining := by
  induction items generalizing others with
  | nil =>
      cases others with
      | nil => exact ⟨rfl, List.tail_eq_of_cons_eq same⟩
      | cons other others =>
          rw [List.map_cons, List.flatten_cons, List.append_assoc] at same
          exact absurd same.symm (codes.notMark other _ _)
  | cons item items ih =>
      rw [List.map_cons, List.flatten_cons, List.append_assoc] at same
      cases others with
      | nil => exact absurd same (codes.notMark item _ _)
      | cons other others =>
          rw [List.map_cons, List.flatten_cons, List.append_assoc] at same
          have first := codes.separates item other _ _ same
          subst first
          obtain ⟨later, after⟩ := ih (List.append_cancel_left same)
          exact ⟨by rw [later], after⟩

/-! ### Lists -/

section Lists

variable {print : Value → Text} {separator mark : Char}

/-- What a list of printed values needs: its separator is not its closing mark,
both may follow a value, and no value begins with the mark. -/
structure ListMarks (print : Value → Text) (follows : Text → Prop) (separator mark : Char) :
    Prop where
  apart : separator ≠ mark
  separatorFollows : ∀ rest, follows (separator :: rest)
  markFollows : ∀ rest, follows (mark :: rest)
  notMark : ∀ value rest remaining, print value ++ rest ≠ mark :: remaining

theorem ListMarks.later_follows (marks : ListMarks print follows separator mark)
    (values : List Value) (rest : Text) :
    follows ((values.map fun value => separator :: print value).flatten ++ mark :: rest) := by
  cases values with
  | nil => exact marks.markFollows rest
  | cons value values => exact marks.separatorFollows _

theorem ListMarks.later_unique (marks : ListMarks print follows separator mark)
    {values others : List Value} {rest remaining : Text}
    (each : ∀ value ∈ values, Ends print follows value)
    (same : (values.map fun value => separator :: print value).flatten ++ mark :: rest =
      (others.map fun value => separator :: print value).flatten ++ mark :: remaining) :
    values = others ∧ rest = remaining := by
  induction values generalizing others with
  | nil =>
      cases others with
      | nil => exact ⟨rfl, List.tail_eq_of_cons_eq same⟩
      | cons other others => exact absurd (List.head_eq_of_cons_eq same).symm marks.apart
  | cons value values ih =>
      rw [List.forall_mem_cons] at each
      cases others with
      | nil => exact absurd (List.head_eq_of_cons_eq same) marks.apart
      | cons other others =>
          simp only [List.map_cons, List.flatten_cons, List.cons_append, List.append_assoc,
            List.cons.injEq, true_and] at same
          obtain ⟨first, after⟩ := each.1 other _ _ (marks.later_follows values rest)
            (marks.later_follows others remaining) same
          obtain ⟨later, final⟩ := ih each.2 after
          exact ⟨by rw [first, later], final⟩

theorem cons_join (value : Value) (values : List Value) :
    Text.join [separator] ((value :: values).map print) =
      print value ++ (values.map fun value => separator :: print value).flatten := by
  induction values generalizing value with
  | nil => simp [Text.join]
  | cons next values ih =>
      rw [List.map_cons, List.map_cons, Text.join, ← List.map_cons, ih]
      simp

theorem length_le_join {value : Value} {values : List Value} (member : value ∈ values) :
    (print value).length ≤ (Text.join [separator] (values.map print)).length := by
  cases values with
  | nil => cases member
  | cons first values =>
      rw [cons_join, List.length_append]
      cases List.mem_cons.mp member with
      | inl same =>
          rw [same]
          exact Nat.le_add_right _ _
      | inr later =>
          have part : (separator :: print value).Sublist
              (values.map fun value => separator :: print value).flatten :=
            List.sublist_flatten_of_mem (List.mem_map_of_mem later)
          have shorter := part.length_le
          rw [List.length_cons] at shorter
          omega

theorem count_le_join (values : List Value) :
    values.length ≤ (Text.join [separator] (values.map print)).length + 1 := by
  cases values with
  | nil => exact Nat.zero_le _
  | cons value values =>
      have separators : values.length ≤
          (values.map fun value => separator :: print value).flatten.length := by
        induction values with
        | nil => exact Nat.le_refl 0
        | cons next values ih =>
            simp only [List.map_cons, List.flatten_cons, List.length_append, List.length_cons]
            omega
      rw [cons_join, List.length_append, List.length_cons]
      omega

/-- A list with separators ends at its closing mark. -/
theorem ListMarks.unique (marks : ListMarks print follows separator mark)
    {values others : List Value} {rest remaining : Text}
    (each : ∀ value ∈ values, Ends print follows value)
    (same : Text.join [separator] (values.map print) ++ mark :: rest =
      Text.join [separator] (others.map print) ++ mark :: remaining) :
    values = others ∧ rest = remaining := by
  cases values with
  | nil =>
      cases others with
      | nil => exact ⟨rfl, List.tail_eq_of_cons_eq same⟩
      | cons other others =>
          rw [cons_join, List.append_assoc] at same
          exact absurd same.symm (marks.notMark other _ _)
  | cons value values =>
      cases others with
      | nil =>
          rw [cons_join, List.append_assoc] at same
          exact absurd same (marks.notMark value _ _)
      | cons other others =>
          have separated := congrArg (List.cons separator) same
          rw [cons_join, cons_join, ← List.cons_append, ← List.cons_append, ← List.cons_append,
            ← List.cons_append] at separated
          apply marks.later_unique each
          simpa using separated

end Lists

end EmvaultCore.Library.Delimited
