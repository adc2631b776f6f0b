import Mathlib.Data.List.TakeWhile
import Mathlib.Data.Nat.Digits.Defs

/-!
# Printed text as a list of characters

Printing, joining, cutting at a separator and substituting, written by recursion
on the characters. A text is analysed by the characters that occur in it.
-/

namespace EmvaultCore.Library

abbrev Text := List Char

namespace Text

/-- Numbers in base ten, as `Display` prints them. -/
def decimal (number : Nat) : Text := Nat.toDigits 10 number

def hexDigit (digit : Nat) : Char := Nat.digitChar (digit % 16)

/-- The last `width` hexadecimal digits of a number, most significant first. -/
def hex : Nat → Nat → Text
  | 0, _ => []
  | width + 1, number => hex width (number / 16) ++ [hexDigit number]

def join (separator : Text) : List Text → Text
  | [] => []
  | [part] => part
  | part :: next :: parts => part ++ separator ++ join separator (next :: parts)

def before (separator : Char) (text : Text) : Text := text.takeWhile (· ≠ separator)

/-- Substitution with `skip` characters of the last match still to be dropped. -/
def replaceFrom (pattern replacement : Text) : Nat → Text → Text
  | _, [] => []
  | skip + 1, _ :: rest => replaceFrom pattern replacement skip rest
  | 0, char :: rest =>
      if pattern.isPrefixOf (char :: rest) then
        replacement ++ replaceFrom pattern replacement (pattern.length - 1) rest
      else char :: replaceFrom pattern replacement 0 rest

/-- Every occurrence of a non-empty pattern, from the left and without overlap. -/
def replace (pattern replacement text : Text) : Text :=
  replaceFrom pattern replacement 0 text

def trimEndFrom (suffix : Text) : Nat → Text → Text
  | 0, text => text
  | fuel + 1, text =>
      if suffix.isSuffixOf text then
        trimEndFrom suffix fuel (text.take (text.length - suffix.length))
      else text

/-- A non-empty suffix removed from the end as often as it stands there. -/
def trimEnd (suffix text : Text) : Text := trimEndFrom suffix text.length text

section Characters

variable {char : Char}

theorem mem_decimal {number : Nat} (member : char ∈ decimal number) : char.isDigit := by
  exact Nat.isDigit_of_mem_toDigits (by decide) (by decide) member

theorem decimal_nonempty (number : Nat) : decimal number ≠ [] := Nat.toDigits_ne_nil

theorem hex_digit_mem (digit : Nat) : hexDigit digit ∈ "0123456789abcdef".toList := by
  have bounded : digit % 16 < 16 := Nat.mod_lt _ (by decide)
  have table : ∀ value : Fin 16, Nat.digitChar value ∈ "0123456789abcdef".toList := by decide
  exact table ⟨digit % 16, bounded⟩

theorem mem_hex {width number : Nat} (member : char ∈ hex width number) :
    char ∈ "0123456789abcdef".toList := by
  induction width generalizing number with
  | zero => simp [hex] at member
  | succ width ih =>
      rw [hex, List.mem_append, List.mem_singleton] at member
      rcases member with earlier | last
      · exact ih earlier
      · rw [last]
        exact hex_digit_mem number

theorem before_eq_self {separator : Char} {text : Text} (absent : separator ∉ text) :
    before separator text = text := by
  rw [before, List.takeWhile_eq_self_iff]
  intro found member
  have different : found ≠ separator := fun same => absent (same ▸ member)
  simpa using different

theorem before_append {separator : Char} {text rest : Text} (absent : separator ∉ text) :
    before separator (text ++ separator :: rest) = text := by
  have whole := before_eq_self absent
  rw [before, List.takeWhile_append, ← before, whole]
  simp

theorem mem_replace_from {pattern replacement text : Text} {skip : Nat}
    (kept : char ∈ replacement) (member : char ∈ text.drop skip) :
    char ∈ replaceFrom pattern replacement skip text := by
  induction text generalizing skip with
  | nil => simp at member
  | cons head rest ih =>
      cases skip with
      | succ skip => exact ih member
      | zero =>
          rw [replaceFrom]
          split
          · exact List.mem_append_left _ kept
          · rcases List.mem_cons.mp member with rfl | later
            · exact List.mem_cons_self
            · exact List.mem_cons_of_mem _ (ih later)

theorem mem_replace {pattern replacement text : Text} (kept : char ∈ replacement)
    (member : char ∈ text) : char ∈ replace pattern replacement text :=
  mem_replace_from kept member

/-- A text without one of the pattern's characters is left alone. -/
theorem replace_eq_self {pattern replacement text : Text} (inPattern : char ∈ pattern)
    (absent : char ∉ text) : replace pattern replacement text = text := by
  unfold replace
  induction text with
  | nil => rfl
  | cons head rest ih =>
      have restAbsent : char ∉ rest := fun member => absent (List.mem_cons_of_mem _ member)
      have noMatch : ¬ pattern.isPrefixOf (head :: rest) := by
        intro found
        have leading : pattern <+: head :: rest := List.isPrefixOf_iff_prefix.mp found
        exact absent (leading.subset inPattern)
      rw [replaceFrom, if_neg noMatch, ih restAbsent]

theorem replace_from_drop {pattern replacement : Text} (skip : Nat) (text : Text) :
    replaceFrom pattern replacement skip text =
      replaceFrom pattern replacement 0 (text.drop skip) := by
  induction text generalizing skip with
  | nil => simp [replaceFrom]
  | cons head rest ih =>
      cases skip with
      | zero => rfl
      | succ skip => exact ih skip

theorem replace_first {stem replacement plain rest : Text} (inStem : char ∉ stem)
    (absent : char ∉ plain) :
    replace (stem ++ [char]) replacement (plain ++ (stem ++ [char]) ++ rest) =
      plain ++ replacement ++ replace (stem ++ [char]) replacement rest := by
  induction plain with
  | nil =>
      have leading : stem ++ [char] <+: stem ++ [char] ++ rest := List.prefix_append _ _
      have found : (stem ++ [char]).isPrefixOf (stem ++ [char] ++ rest) = true :=
        List.isPrefixOf_iff_prefix.mpr leading
      cases split : stem ++ [char] with
      | nil => simp at split
      | cons head tail =>
          rw [split] at found
          rw [List.nil_append, List.nil_append, List.cons_append, replace, replaceFrom,
            ← List.cons_append, if_pos found, replace_from_drop, replace]
          simp
  | cons head plain ih =>
      rw [List.mem_cons, not_or] at absent
      have noMatch : ¬ (stem ++ [char]).isPrefixOf (head :: (plain ++ (stem ++ [char]) ++ rest)) := by
        intro found
        have leading := List.isPrefixOf_iff_prefix.mp found
        have cut : stem ++ [char] <+: (head :: plain) ++ stem := by
          have within : (head :: plain) ++ stem <+: head :: (plain ++ (stem ++ [char]) ++ rest) :=
            ⟨char :: rest, by simp⟩
          exact List.prefix_of_prefix_length_le leading within (by simp)
        have member : char ∈ (head :: plain) ++ stem := cut.subset (by simp)
        simp [absent.1, absent.2, inStem] at member
      have step : replaceFrom (stem ++ [char]) replacement 0
            (head :: (plain ++ (stem ++ [char]) ++ rest)) =
          head :: replaceFrom (stem ++ [char]) replacement 0
            (plain ++ (stem ++ [char]) ++ rest) := by
        rw [replaceFrom, if_neg noMatch]
      rw [replace] at ih
      rw [List.cons_append, List.cons_append, replace, step, ih absent.2]
      rfl

theorem trim_end_eq_self {suffix text : Text} (other : ¬ suffix <:+ text) :
    trimEnd suffix text = text := by
  unfold trimEnd
  cases text.length with
  | zero => rfl
  | succ fuel => rw [trimEndFrom, if_neg (by simpa using other)]

theorem trim_end_append {suffix text : Text} (inSuffix : char ∈ suffix) (absent : char ∉ text) :
    trimEnd suffix (text ++ suffix) = text := by
  have nonempty : 0 < suffix.length := List.length_pos_of_mem inSuffix
  have ends : suffix.isSuffixOf (text ++ suffix) = true := by simp
  have bare : ¬ suffix <:+ text := fun found => absent (found.subset inSuffix)
  have someText : (text ++ suffix).length ≠ 0 := by
    rw [List.length_append]
    omega
  rcases Nat.exists_eq_succ_of_ne_zero someText with ⟨fuel, size⟩
  rw [trimEnd, size, trimEndFrom, if_pos ends]
  have cut : (text ++ suffix).take ((text ++ suffix).length - suffix.length) = text := by simp
  rw [cut]
  cases fuel with
  | zero => rfl
  | succ fuel => rw [trimEndFrom, if_neg (by simpa using bare)]

theorem join_comma {separator : Char} {parts : List Text} (nonempty : parts ≠ []) :
    separator :: join [separator] parts = (parts.map fun part => separator :: part).flatten := by
  induction parts using join.induct with
  | case1 => exact absurd rfl nonempty
  | case2 part => simp [join]
  | case3 part next parts ih =>
      have rest := ih (List.cons_ne_nil _ _)
      rw [List.map_cons, List.flatten_cons, ← rest]
      simp [join]

end Characters

end Text

end EmvaultCore.Library
