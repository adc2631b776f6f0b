import EmvaultCore.Library.Text

/-!
# Substitution in a concatenation

What `replace` makes of a text that is put together from pieces, and a reason
for a pattern not to occur in it at all.
-/

namespace EmvaultCore.Library.Text

/-- The piece becomes `result`, whatever text stands behind it. -/
def Becomes (pattern replacement piece result : Text) : Prop :=
  ∀ rest, replace pattern replacement (piece ++ rest) = result ++ replace pattern replacement rest

section Pieces

variable {pattern replacement piece result : Text}

theorem becomes_append {other otherResult : Text}
    (first : Becomes pattern replacement piece result)
    (second : Becomes pattern replacement other otherResult) :
    Becomes pattern replacement (piece ++ other) (result ++ otherResult) := by
  intro rest
  rw [List.append_assoc, first, second, List.append_assoc]

theorem replace_of_becomes (becomes : Becomes pattern replacement piece result) :
    replace pattern replacement piece = result := by
  have whole := becomes []
  have none : replace pattern replacement [] = [] := rfl
  rwa [none, List.append_nil, List.append_nil] at whole

theorem becomes_replacement (nonempty : pattern ≠ []) :
    Becomes pattern replacement pattern replacement := by
  intro rest
  have leading : pattern.isPrefixOf (pattern ++ rest) = true :=
    List.isPrefixOf_iff_prefix.mpr (List.prefix_append _ _)
  cases split : pattern with
  | nil => exact absurd split nonempty
  | cons head tail =>
      rw [split, List.cons_append] at leading
      rw [List.cons_append, replace, replaceFrom, if_pos leading, replace_from_drop, replace]
      simp

variable {head second other : Char} {tail : Text}

theorem replace_copy {rest : Text} (noMatch : ¬ pattern <+: head :: rest) :
    replace pattern replacement (head :: rest) = head :: replace pattern replacement rest := by
  have refused : ¬ pattern.isPrefixOf (head :: rest) = true :=
    fun found => noMatch (List.isPrefixOf_iff_prefix.mp found)
  rw [replace, replaceFrom, if_neg refused, replace]

theorem becomes_self (absent : head ∉ piece) :
    Becomes (head :: tail) replacement piece piece := by
  intro rest
  induction piece with
  | nil => rfl
  | cons char piece ih =>
      rw [List.mem_cons, not_or] at absent
      have noMatch : ¬ head :: tail <+: char :: (piece ++ rest) := by
        intro found
        exact absent.1 (List.cons_prefix_cons.mp found).1
      rw [List.cons_append, replace_copy noMatch, ih absent.2, List.cons_append]

theorem becomes_pair (unlike : other ≠ second) (later : other ≠ head) :
    Becomes (head :: second :: tail) replacement [head, other] [head, other] := by
  intro rest
  have noMatch : ¬ head :: second :: tail <+: head :: (other :: rest) := by
    intro found
    have behind := (List.cons_prefix_cons.mp found).2
    exact unlike (List.cons_prefix_cons.mp behind).1.symm
  have alone : head ∉ [other] := by
    rw [List.mem_singleton]
    exact later.symm
  have copied := @becomes_self replacement [other] head (second :: tail) alone rest
  rw [List.singleton_append] at copied
  rw [List.cons_append, List.singleton_append, replace_copy noMatch, copied]
  rfl

/-- A substitution brings in no character but those of the replacement. -/
theorem mem_of_mem_replace_from {char : Char} {text : Text} {skip : Nat}
    (member : char ∈ replaceFrom pattern replacement skip text) :
    char ∈ replacement ∨ char ∈ text := by
  induction text generalizing skip with
  | nil => exact absurd member (by simp [replaceFrom])
  | cons head rest ih =>
      cases skip with
      | succ skip => exact (ih member).imp_right (List.mem_cons_of_mem head)
      | zero =>
          rw [replaceFrom] at member
          split at member
          · rcases List.mem_append.mp member with here | later
            · exact Or.inl here
            · exact (ih later).imp_right (List.mem_cons_of_mem head)
          · rcases List.mem_cons.mp member with rfl | later
            · exact Or.inr List.mem_cons_self
            · exact (ih later).imp_right (List.mem_cons_of_mem head)

theorem mem_of_mem_replace {char : Char} {text : Text}
    (member : char ∈ replace pattern replacement text) : char ∈ replacement ∨ char ∈ text :=
  mem_of_mem_replace_from member

theorem replace_of_not_infix {text : Text} (absent : ¬ pattern <:+: text) :
    replace pattern replacement text = text := by
  induction text with
  | nil => rfl
  | cons head rest ih =>
      have noMatch : ¬ pattern <+: head :: rest := fun found => absent found.isInfix
      have later : ¬ pattern <:+: rest :=
        fun found => absent (found.trans (List.suffix_cons head rest).isInfix)
      rw [replace_copy noMatch, ih later]

end Pieces

def Follows (lead : Text) (char : Char) (text : Text) : Prop :=
  ∀ front back, text = front ++ char :: back → lead <:+ front

section Followed

variable {lead text : Text} {char : Char}

theorem follows_of_absent (absent : char ∉ text) : Follows lead char text := by
  intro front back split
  exact absurd (split ▸ List.mem_append_right front List.mem_cons_self) absent

theorem follows_append {other : Text} (first : Follows lead char text)
    (second : Follows lead char other) : Follows lead char (text ++ other) := by
  intro front back split
  rcases List.append_eq_append_iff.mp split with ⟨rest, whole, remaining⟩ | ⟨rest, whole, remaining⟩
  · have behind := second rest back remaining
    rw [whole]
    exact behind.trans (List.suffix_append text rest)
  · cases rest with
    | nil =>
        rw [List.append_nil] at whole
        have behind := second [] back (by simpa using remaining.symm)
        exact (List.suffix_nil.mp behind) ▸ List.nil_suffix
    | cons head rest =>
        rw [List.cons_append, List.cons.injEq] at remaining
        exact first front rest (by rw [whole, ← remaining.1])

theorem follows_at_end (absent : char ∉ text) (behind : lead <:+ text) :
    Follows lead char (text ++ [char]) := by
  intro front back split
  rcases List.append_eq_append_iff.mp split with ⟨rest, whole, remaining⟩ | ⟨rest, whole, remaining⟩
  · have alone : rest = [] := by
      have lengths := congrArg List.length remaining
      simp only [List.length_append, List.length_cons, List.length_nil] at lengths
      exact List.length_eq_zero_iff.mp (by omega)
    rw [whole, alone, List.append_nil]
    exact behind
  · cases rest with
    | nil => rwa [whole, List.append_nil] at behind
    | cons head rest =>
        rw [List.cons_append, List.cons.injEq] at remaining
        rw [whole, ← remaining.1] at absent
        simp at absent

/-- A pattern that ends in `char` after something else than `lead` never occurs. -/
theorem replace_of_follows {stem replacement : Text} (follows : Follows lead char text)
    (size : lead.length ≤ stem.length) (apart : ¬ lead <:+ stem) :
    replace (stem ++ [char]) replacement text = text := by
  apply replace_of_not_infix
  intro found
  obtain ⟨front, back, split⟩ := found
  have behind : lead <:+ front ++ stem := follows (front ++ stem) back (by simp [← split])
  exact apart (List.suffix_of_suffix_length_le behind (List.suffix_append front stem) size)

end Followed

end EmvaultCore.Library.Text
