import EmvaultCore.CanonicalJson
import EmvaultCore.Library.Delimited

/-!
# What a canonical text stands for

`write_canonical` sorts the members of every object and writes the value. Written
values end by themselves, so two values with the same canonical text are the same
value once their members are sorted.
-/

namespace EmvaultCore.Json

open Library (Text)
open Library.Text Library.Delimited

/-! ### Strings and numbers -/

def digitValue (char : Char) : Nat := "0123456789abcdef".toList.idxOf char

/-- The character that the first escape sequence of a text stands for. -/
def unescape : Text → Option Char
  | '\\' :: 'n' :: _ => some '\n'
  | '\\' :: 'r' :: _ => some '\r'
  | '\\' :: 't' :: _ => some '\t'
  | '\\' :: 'b' :: _ => some (Char.ofNat 8)
  | '\\' :: 'f' :: _ => some (Char.ofNat 12)
  | '\\' :: 'u' :: _ :: _ :: high :: low :: _ =>
      some (Char.ofNat (16 * digitValue high + digitValue low))
  | '\\' :: char :: _ => some char
  | char :: _ => some char
  | [] => none

theorem unescape_plain {char : Char} (plain : char ≠ '\\') (rest : Text) :
    unescape (char :: rest) = some char := by
  unfold unescape
  split <;> simp_all

theorem unescape_control {char : Char} (control : char.toNat < 32) (rest : Text) :
    unescape ('\\' :: 'u' :: hex 4 char.toNat ++ rest) = some char := by
  have digits : ∀ code : Fin 32, Char.ofNat (16 * digitValue (hexDigit (code.val / 16)) +
      digitValue (hexDigit code.val)) = Char.ofNat code.val := by
    decide
  have value := digits ⟨char.toNat, control⟩
  have text : hex 4 char.toNat = [hexDigit (char.toNat / 16 / 16 / 16),
    hexDigit (char.toNat / 16 / 16), hexDigit (char.toNat / 16), hexDigit char.toNat] := rfl
  rw [text]
  exact congrArg some (value.trans (Char.ofNat_toNat char))

theorem unescape_escape (char : Char) (rest : Text) :
    unescape (escape char ++ rest) = some char := by
  unfold escape
  split_ifs with quote backslash line carriage tab back form control
  · rw [quote]
    rfl
  · rw [backslash]
    rfl
  · rw [line]
    rfl
  · rw [carriage]
    rfl
  · rw [tab]
    rfl
  · rw [back]
    rfl
  · rw [form]
    rfl
  · exact unescape_control control rest
  · exact unescape_plain backslash rest

theorem escape_not_quote (char : Char) (rest remaining : Text) :
    escape char ++ rest ≠ '"' :: remaining := by
  unfold escape
  intro same
  split_ifs at same with quote
  all_goals simp_all

theorem escape_codes : CodesUntil escape '"' where
  separates := by
    intro char other rest remaining same
    have read := congrArg unescape same
    rw [unescape_escape, unescape_escape] at read
    exact Option.some.inj read
  notMark := escape_not_quote

theorem quote_unique {value other : String} {rest remaining : Text}
    (same : quote value ++ rest = quote other ++ remaining) : value = other ∧ rest = remaining := by
  simp only [quote, List.cons_append, List.append_assoc, List.cons.injEq, true_and] at same
  obtain ⟨chars, after⟩ := escape_codes.unique same
  exact ⟨String.toList_injective chars, after⟩

/-- What may follow a value: a number goes on with every further digit. -/
def Follows (rest : Text) : Prop := ∀ char, rest.head? = some char → char.isDigit = false

theorem follows_cons {char : Char} (other : char.isDigit = false) (rest : Text) :
    Follows (char :: rest) := by
  intro first head
  cases head
  exact other

theorem decimal_unique {number other : Nat} {rest remaining : Text} (follows : Follows rest)
    (otherFollows : Follows remaining)
    (same : decimal number ++ rest = decimal other ++ remaining) :
    number = other ∧ rest = remaining := by
  obtain ⟨digits, after⟩ := run_unique (fun _ => mem_decimal) (fun _ => mem_decimal) follows
    otherFollows same
  have read := congrArg (Nat.ofDigitChars 10 · 0) digits
  simp only [decimal, Nat.ofDigitChars_ten_toDigits] at read
  exact ⟨read, after⟩

theorem decimal_head (number : Nat) (rest : Text) :
    ∃ digit after, decimal number ++ rest = digit :: after ∧ digit.isDigit = true := by
  cases digits : decimal number with
  | nil => exact absurd digits Nat.toDigits_ne_nil
  | cons digit after =>
      have member : digit ∈ decimal number := by simp [digits]
      exact ⟨digit, after ++ rest, rfl, mem_decimal member⟩

theorem minus_not_decimal {number : Nat} {rest remaining : Text} :
    decimal number ++ rest ≠ '-' :: remaining := by
  intro same
  obtain ⟨digit, after, text, isDigit⟩ := decimal_head number rest
  rw [text] at same
  cases same
  cases isDigit

theorem integer_unique {value other : Int} {rest remaining : Text} (follows : Follows rest)
    (otherFollows : Follows remaining)
    (same : integer value ++ rest = integer other ++ remaining) :
    value = other ∧ rest = remaining := by
  unfold integer at same
  split_ifs at same with negative otherNegative otherNegative
  · obtain ⟨number, after⟩ := decimal_unique follows otherFollows (List.tail_eq_of_cons_eq same)
    exact ⟨by omega, after⟩
  · exact absurd same.symm minus_not_decimal
  · exact absurd same minus_not_decimal
  · obtain ⟨number, after⟩ := decimal_unique follows otherFollows same
    exact ⟨by omega, after⟩

/-! ### Values -/

def sortedMembers (members : List (String × Json)) : List (String × Json) :=
  members.insertionSort fun left right => left.1 ≤ right.1

mutual

def canonical : Json → Json
  | .array items => .array (canonicalItems items)
  | .object members => .object (sortedMembers (canonicalMembers members))
  | value => value

def canonicalItems : List Json → List Json
  | [] => []
  | item :: items => item.canonical :: canonicalItems items

def canonicalMembers : List (String × Json) → List (String × Json)
  | [] => []
  | (name, value) :: members => (name, value.canonical) :: canonicalMembers members

end

def writeMember (written : String × Text) : Text := quote written.1 ++ ':' :: written.2

mutual

/-- A value without whitespace, its members as they stand. -/
def write : Json → Text
  | .null => ['n', 'u', 'l', 'l']
  | .bool true => ['t', 'r', 'u', 'e']
  | .bool false => ['f', 'a', 'l', 's', 'e']
  | .number value => integer value
  | .string value => quote value
  | .array items => '[' :: join [','] (writeEach items) ++ [']']
  | .object members => '{' :: join [','] ((writeValues members).map writeMember) ++ ['}']

def writeEach : List Json → List Text
  | [] => []
  | item :: items => item.write :: writeEach items

def writeValues : List (String × Json) → List (String × Text)
  | [] => []
  | (name, value) :: members => (name, value.write) :: writeValues members

end

theorem canonical_items_eq (items : List Json) : canonicalItems items = items.map canonical := by
  induction items with
  | nil => rfl
  | cons item items ih => rw [canonicalItems, ih, List.map_cons]

theorem canonical_members_eq (members : List (String × Json)) :
    canonicalMembers members = members.map fun member => (member.1, member.2.canonical) := by
  induction members with
  | nil => rfl
  | cons member members ih => rw [canonicalMembers, ih, List.map_cons]

theorem write_each_eq (items : List Json) : writeEach items = items.map write := by
  induction items with
  | nil => rfl
  | cons item items ih => rw [writeEach, ih, List.map_cons]

theorem write_values_eq (members : List (String × Json)) :
    writeValues members = members.map fun member => (member.1, member.2.write) := by
  induction members with
  | nil => rfl
  | cons member members ih => rw [writeValues, ih, List.map_cons]

theorem sort_write_values (members : List (String × Json)) :
    sortMembers (writeValues members) = writeValues (sortedMembers members) := by
  rw [write_values_eq, write_values_eq]
  apply Eq.symm
  exact List.map_insertionSort (fun left right : String × Json => left.1 ≤ right.1)
    (fun left right : String × Text => left.1 ≤ right.1) _ members fun _ _ _ _ => Iff.rfl

mutual

theorem write_canonical_eq : ∀ value : Json, value.writeCanonical = value.canonical.write
  | .null => rfl
  | .bool true => rfl
  | .bool false => rfl
  | .number _ => rfl
  | .string _ => rfl
  | .array items => by
      rw [writeCanonical, canonical, write, write_items_eq items]
  | .object members => by
      rw [writeCanonical, canonical, write, write_members_eq members, sort_write_values]
      rfl

theorem write_items_eq : ∀ items : List Json,
    writeItems items = writeEach (canonicalItems items)
  | [] => rfl
  | item :: items => by
      rw [writeItems, canonicalItems, writeEach, write_canonical_eq item, write_items_eq items]

theorem write_members_eq : ∀ members : List (String × Json),
    writeMembers members = writeValues (canonicalMembers members)
  | [] => rfl
  | (name, value) :: members => by
      rw [writeMembers, canonicalMembers, writeValues, write_canonical_eq value,
        write_members_eq members]

end

/-! ### Written values end by themselves -/

def opening : Char → Nat
  | 'n' => 0
  | 't' | 'f' => 1
  | '"' => 3
  | '[' => 4
  | '{' => 5
  | '-' => 2
  | char => if char.isDigit then 2 else 6

def kind : Json → Nat
  | .null => 0
  | .bool _ => 1
  | .number _ => 2
  | .string _ => 3
  | .array _ => 4
  | .object _ => 5

theorem opening_digit {char : Char} (digit : char.isDigit = true) : opening char = 2 := by
  unfold opening
  split
  all_goals first | cases digit | rfl | exact if_pos digit

theorem opening_write (value : Json) (rest : Text) :
    (value.write ++ rest).head?.map opening = some value.kind := by
  cases value with
  | null => rfl
  | bool value => cases value <;> rfl
  | number value =>
      rw [write, integer]
      split
      · rfl
      · obtain ⟨digit, after, text, isDigit⟩ := decimal_head value.natAbs rest
        rw [text]
        exact congrArg some (opening_digit isDigit)
  | string value => rfl
  | array items => rfl
  | object members => rfl

theorem same_kind {value other : Json} {rest remaining : Text}
    (same : value.write ++ rest = other.write ++ remaining) : value.kind = other.kind := by
  have heads := congrArg (fun text => text.head?.map opening) same
  simp only [opening_write, Option.some.injEq] at heads
  exact heads

theorem write_not_bracket (value : Json) (rest remaining : Text) :
    value.write ++ rest ≠ ']' :: remaining := by
  intro same
  have head := opening_write value rest
  rw [same] at head
  have closing : 6 = value.kind := Option.some.inj head
  cases value with
  | _ => cases closing

theorem items_marks : ListMarks write Follows ',' ']' where
  apart := by decide
  separatorFollows := follows_cons rfl
  markFollows := follows_cons rfl
  notMark := write_not_bracket

def printMember (member : String × Json) : Text := quote member.1 ++ ':' :: member.2.write

theorem members_marks : ListMarks printMember Follows ',' '}' where
  apart := by decide
  separatorFollows := follows_cons rfl
  markFollows := follows_cons rfl
  notMark := by
    intro member rest remaining same
    cases List.head_eq_of_cons_eq same

theorem member_ends {member : String × Json} (ends : Ends write Follows member.2) :
    Ends printMember Follows member := by
  intro other rest remaining follows otherFollows same
  simp only [printMember, List.append_assoc] at same
  obtain ⟨name, after⟩ := quote_unique same
  obtain ⟨value, final⟩ := ends other.2 rest remaining follows otherFollows
    (List.tail_eq_of_cons_eq after)
  exact ⟨Prod.ext name value, final⟩

theorem array_text (items : List Json) (rest : Text) :
    (Json.array items).write ++ rest = '[' :: (join [','] (items.map write) ++ ']' :: rest) := by
  simp [write, write_each_eq]

theorem object_text (members : List (String × Json)) (rest : Text) :
    (Json.object members).write ++ rest =
      '{' :: (join [','] (members.map printMember) ++ '}' :: rest) := by
  have printed : (writeValues members).map writeMember = members.map printMember := by
    rw [write_values_eq, List.map_map]
    rfl
  simp [write, printed]

mutual

/-- The text of a value ends where it ends, and is the text of no other value. -/
theorem write_ends : ∀ value : Json, Ends write Follows value
  | .null => by
      intro other rest remaining _ _ same
      cases other with
      | null => exact ⟨rfl, List.append_cancel_left same⟩
      | _ => cases same_kind same
  | .bool value => by
      intro other rest remaining _ _ same
      cases other with
      | bool other =>
          cases value <;> cases other
          · exact ⟨rfl, List.append_cancel_left same⟩
          · cases List.head_eq_of_cons_eq same
          · cases List.head_eq_of_cons_eq same
          · exact ⟨rfl, List.append_cancel_left same⟩
      | _ => cases same_kind same
  | .number value => by
      intro other rest remaining follows otherFollows same
      cases other with
      | number other =>
          obtain ⟨equal, after⟩ := integer_unique follows otherFollows same
          exact ⟨congrArg Json.number equal, after⟩
      | _ => cases same_kind same
  | .string value => by
      intro other rest remaining _ _ same
      cases other with
      | string other =>
          obtain ⟨equal, after⟩ := quote_unique same
          exact ⟨congrArg Json.string equal, after⟩
      | _ => cases same_kind same
  | .array items => by
      intro other rest remaining _ _ same
      cases other with
      | array others =>
          rw [array_text, array_text] at same
          obtain ⟨equal, after⟩ := items_marks.unique (items_end items)
            (List.tail_eq_of_cons_eq same)
          exact ⟨congrArg Json.array equal, after⟩
      | _ => cases same_kind same
  | .object members => by
      intro other rest remaining _ _ same
      cases other with
      | object others =>
          rw [object_text, object_text] at same
          obtain ⟨equal, after⟩ := members_marks.unique (members_end members)
            (List.tail_eq_of_cons_eq same)
          exact ⟨congrArg Json.object equal, after⟩
      | _ => cases same_kind same

theorem items_end : ∀ items : List Json, ∀ item ∈ items, Ends write Follows item
  | [] => by simp
  | item :: items => by
      rw [List.forall_mem_cons]
      exact ⟨write_ends item, items_end items⟩

theorem members_end : ∀ members : List (String × Json), ∀ member ∈ members,
    Ends printMember Follows member
  | [] => by simp
  | (name, value) :: members => by
      rw [List.forall_mem_cons]
      exact ⟨member_ends (write_ends value), members_end members⟩

end

theorem canonical_eq_of_text {value other : Json}
    (same : value.writeCanonical = other.writeCanonical) : value.canonical = other.canonical := by
  rw [write_canonical_eq, write_canonical_eq] at same
  apply eq_of_ends (write_ends value.canonical) _ same
  intro char head
  cases head

end EmvaultCore.Json
