import EmvaultCore.CanonicalText
import EmvaultCore.Library.Reading

/-!
# Reading JSON texts

The grammar of JSON as a reader: whitespace, literals, strings with their escape
sequences, integers, arrays and objects, whose members stay in the order of the
text. Numbers with a fraction or an exponent are not among the values, and `-0`
is not an integer to `serde_json`. The text of every value is read back.
-/

namespace EmvaultCore.Json

open Library (Text)
open Library.Text Library.Delimited Library.Reading

def isSpace (char : Char) : Bool := char = ' ' || char = '\n' || char = '\r' || char = '\t'

/-! ### Strings -/

def hexValue (char : Char) : Option Nat :=
  if char.isDigit then some (char.toNat - '0'.toNat)
  else if 'a' ≤ char ∧ char ≤ 'f' then some (char.toNat - 'a'.toNat + 10)
  else if 'A' ≤ char ∧ char ≤ 'F' then some (char.toNat - 'A'.toNat + 10)
  else none

def readUnit : Reader Nat
  | first :: second :: third :: fourth :: rest => do
      let first ← hexValue first
      let second ← hexValue second
      let third ← hexValue third
      let fourth ← hexValue fourth
      some (((first * 16 + second) * 16 + third) * 16 + fourth, rest)
  | _ => none

/-- What follows `\u`: a code unit, or two that are a surrogate pair. -/
def readUnicode : Reader Char := fun text => do
  let (unit, rest) ← readUnit text
  if unit < 0xD800 ∨ 0xE000 ≤ unit then some (Char.ofNat unit, rest)
  else if 0xDC00 ≤ unit then none
  else match rest with
    | '\\' :: 'u' :: rest => do
        let (low, rest) ← readUnit rest
        if 0xDC00 ≤ low ∧ low < 0xE000 then
          some (Char.ofNat (0x10000 + (unit - 0xD800) * 0x400 + (low - 0xDC00)), rest)
        else none
    | _ => none

def readEscape : Reader Char
  | '"' :: rest => some ('"', rest)
  | '\\' :: rest => some ('\\', rest)
  | '/' :: rest => some ('/', rest)
  | 'b' :: rest => some (Char.ofNat 8, rest)
  | 'f' :: rest => some (Char.ofNat 12, rest)
  | 'n' :: rest => some ('\n', rest)
  | 'r' :: rest => some ('\r', rest)
  | 't' :: rest => some ('\t', rest)
  | 'u' :: rest => readUnicode rest
  | _ => none

/-- A character of a string. Control characters must be escaped. -/
def readChar : Reader Char
  | [] => none
  | char :: rest =>
      if char = '\\' then readEscape rest
      else if char.toNat < 32 then none
      else some (char, rest)

def readString (fuel : Nat) : Reader String := fun text =>
  (readUntil readChar '"' fuel text).map fun (chars, rest) => (String.ofList chars, rest)

theorem read_unit_control {code : Nat} (control : code < 32) (rest : Text) :
    readUnit (hex 4 code ++ rest) = some (code, rest) := by
  have values : ∀ code : Fin 32, hexValue (hexDigit (code.val / 16)) = some (code.val / 16) ∧
      hexValue (hexDigit code.val) = some (code.val % 16) := by
    decide
  have value := values ⟨code, control⟩
  have digits : hex 4 code = [hexDigit (code / 16 / 16 / 16), hexDigit (code / 16 / 16),
    hexDigit (code / 16), hexDigit code] := rfl
  have leading : code / 16 / 16 = 0 := by omega
  have zero : hexValue (hexDigit 0) = some 0 := by decide
  have total : code / 16 * 16 + code % 16 = code := Nat.div_add_mod' code 16
  rw [digits, leading]
  simp [readUnit, zero, value, total]

theorem read_unicode_control {char : Char} (control : char.toNat < 32) (rest : Text) :
    readUnicode (hex 4 char.toNat ++ rest) = some (char, rest) := by
  rw [readUnicode, read_unit_control control]
  dsimp only [Bind.bind, Option.bind]
  rw [if_pos (.inl (by omega)), Char.ofNat_toNat]

theorem read_char_escape (char : Char) (rest : Text) :
    readChar (escape char ++ rest) = some (char, rest) := by
  unfold escape
  split_ifs with quote backslash line carriage tab back form control
  · rw [quote]
    rfl
  · rw [backslash]
    rfl
  · rw [line]
    rfl
  · rw [carriage]
    rfl
  · rw [tab]
    rfl
  · rw [back]
    rfl
  · rw [form]
    rfl
  · exact read_unicode_control control rest
  · simp [readChar, backslash, control]

theorem escape_nonempty (char : Char) : escape char ≠ [] := by
  intro empty
  have read := read_char_escape char []
  rw [empty] at read
  cases read

theorem read_string_reads {value : String} {fuel : Nat} (enough : value.toList.length < fuel)
    (rest : Text) :
    readString fuel ((value.toList.map escape).flatten ++ '"' :: rest) = some (value, rest) := by
  have chars := read_until_reads escape_nonempty escape_not_quote read_char_escape enough rest
  rw [readString, chars]
  exact congrArg (fun text => some (text, rest)) String.ofList_toList

/-! ### Numbers -/

/-- A number without sign: a run of digits without leading zeros. -/
def readDigits : Reader Nat := fun text =>
  let digits := text.takeWhile Char.isDigit
  let value := Nat.ofDigitChars 10 digits 0
  if decimal value = digits then some (value, text.dropWhile Char.isDigit) else none

def readInteger : Reader Int
  | '-' :: rest => do
      let (value, rest) ← readDigits rest
      if value = 0 then none else some (-value, rest)
  | text => do
      let (value, rest) ← readDigits text
      some (value, rest)

theorem read_digits_reads (number : Nat) : ReadsBack readDigits decimal Follows number := by
  intro rest follows
  have stops : rest.takeWhile Char.isDigit = [] ∧ rest.dropWhile Char.isDigit = rest := by
    cases rest with
    | nil => exact ⟨rfl, rfl⟩
    | cons char rest =>
        have other : ¬ char.isDigit = true := by simpa using follows char rfl
        exact ⟨List.takeWhile_cons_of_neg other, List.dropWhile_cons_of_neg other⟩
  have digits : (decimal number ++ rest).takeWhile Char.isDigit = decimal number := by
    rw [List.takeWhile_append_of_pos fun _ => mem_decimal, stops.1, List.append_nil]
  have after : (decimal number ++ rest).dropWhile Char.isDigit = rest := by
    rw [List.dropWhile_append_of_pos fun _ => mem_decimal, stops.2]
  have value : Nat.ofDigitChars 10 (decimal number) 0 = number := Nat.ofDigitChars_ten_toDigits
  simp only [readDigits, digits, after, value, if_true]

theorem read_integer_reads (value : Int) : ReadsBack readInteger integer Follows value := by
  intro rest follows
  have digits := read_digits_reads value.natAbs rest follows
  unfold integer
  split
  · rename_i negative
    have nonzero : value.natAbs ≠ 0 := by omega
    have restored : -(value.natAbs : Int) = value := by omega
    rw [List.cons_append, readInteger, digits]
    dsimp only [Bind.bind, Option.bind]
    rw [if_neg nonzero, restored]
  · rename_i nonnegative
    have restored : (value.natAbs : Int) = value := by omega
    rw [readInteger.eq_2 _ fun after same => minus_not_decimal same, digits]
    dsimp only [Bind.bind, Option.bind]
    rw [restored]

/-! ### Values -/

def readMark (mark : Char) (text : Text) : Option Text :=
  match text.dropWhile isSpace with
  | [] => none
  | char :: rest => if char = mark then some rest else none

def readMember (fuel : Nat) (read : Reader Json) : Reader (String × Json) := fun text => do
  let rest ← readMark '"' text
  let (name, rest) ← readString fuel rest
  let rest ← readMark ':' rest
  let (value, rest) ← read rest
  some ((name, value), rest)

/-- A value, with at most `fuel` parts in each list and string of it. -/
def readValue : Nat → Reader Json
  | 0, _ => none
  | fuel + 1, text =>
      match text.dropWhile isSpace with
      | [] => none
      | first :: rest =>
          if first = '"' then (readString fuel rest).map (Prod.map Json.string id)
          else if first = '[' then
            (readList (readValue fuel) isSpace ',' ']' fuel rest).map (Prod.map Json.array id)
          else if first = '{' then
            (readList (readMember fuel (readValue fuel)) isSpace ',' '}' fuel rest).map
              (Prod.map Json.object id)
          else if first = 'n' then readWord ['u', 'l', 'l'] .null rest
          else if first = 't' then readWord ['r', 'u', 'e'] (.bool true) rest
          else if first = 'f' then readWord ['a', 'l', 's', 'e'] (.bool false) rest
          else (readInteger (first :: rest)).map (Prod.map Json.number id)

def parse (text : Text) : Option Json :=
  match readValue (text.length + 1) text with
  | some (value, rest) => if rest.all isSpace then some value else none
  | none => none

theorem digit_ne {char other : Char} (digit : char.isDigit = true)
    (apart : other.isDigit = false) : char ≠ other := by
  intro same
  rw [same, apart] at digit
  cases digit

theorem write_begins (value : Json) (rest : Text) :
    ∃ char after, value.write ++ rest = char :: after ∧ isSpace char = false := by
  have opens := opening_write value rest
  cases text : value.write ++ rest with
  | nil =>
      rw [text] at opens
      cases opens
  | cons char after =>
      rw [text] at opens
      have kind : opening char = value.kind := Option.some.inj opens
      refine ⟨char, after, rfl, ?_⟩
      by_contra space
      have known : opening char = 6 := by
        simp only [isSpace, Bool.not_eq_false, Bool.or_eq_true, decide_eq_true_eq] at space
        obtain ((rfl | rfl) | rfl) | rfl := space <;> rfl
      rw [known] at kind
      cases value <;> cases kind

theorem member_begins (member : String × Json) (rest : Text) :
    ∃ char after, printMember member ++ rest = char :: after ∧ isSpace char = false :=
  ⟨'"', _, rfl, rfl⟩

theorem read_value_numeral {fuel : Nat} {first : Char} {rest : Text}
    (numeral : first = '-' ∨ first.isDigit = true) :
    readValue (fuel + 1) (first :: rest) =
      (readInteger (first :: rest)).map (Prod.map Json.number id) := by
  have apart : ∀ other : Char, other ≠ '-' → other.isDigit = false → first ≠ other := by
    intro other notMinus notDigit
    cases numeral with
    | inl minus => exact minus ▸ notMinus.symm
    | inr digit => exact digit_ne digit notDigit
  have unspaced : isSpace first = false := by
    simp [isSpace, apart ' ' (by decide) rfl, apart '\n' (by decide) rfl,
      apart '\r' (by decide) rfl, apart '\t' (by decide) rfl]
  rw [readValue, List.dropWhile_cons_of_neg (by simp [unspaced])]
  dsimp only
  rw [if_neg (apart '"' (by decide) rfl), if_neg (apart '[' (by decide) rfl),
    if_neg (apart '{' (by decide) rfl), if_neg (apart 'n' (by decide) rfl),
    if_neg (apart 't' (by decide) rfl), if_neg (apart 'f' (by decide) rfl)]

theorem integer_begins (value : Int) (rest : Text) :
    ∃ first after, integer value ++ rest = first :: after ∧
      (first = '-' ∨ first.isDigit = true) := by
  unfold integer
  split
  · exact ⟨'-', _, rfl, .inl rfl⟩
  · obtain ⟨digit, after, text, isDigit⟩ := decimal_head value.natAbs rest
    exact ⟨digit, after, text, .inr isDigit⟩

theorem read_mark_cons {mark : Char} (seen : isSpace mark = false) (rest : Text) :
    readMark mark (mark :: rest) = some rest := by
  rw [readMark, List.dropWhile_cons_of_neg (by simp [seen])]
  exact if_pos rfl

theorem read_member_reads {fuel : Nat} {read : Reader Json} {member : String × Json}
    (named : member.1.toList.length < fuel) (value : ReadsBack read write Follows member.2) :
    ReadsBack (readMember fuel read) printMember Follows member := by
  intro rest follows
  have name := read_string_reads named (':' :: (member.2.write ++ rest))
  have text : printMember member ++ rest = '"' :: ((member.1.toList.map escape).flatten ++
      '"' :: ':' :: (member.2.write ++ rest)) := by
    simp [printMember, quote]
  rw [text, readMember, read_mark_cons rfl]
  dsimp only [Bind.bind, Option.bind]
  rw [name]
  dsimp only
  rw [read_mark_cons rfl]
  dsimp only
  rw [value rest follows]

/-! ### How much fuel a written value needs -/

theorem length_le_codes (chars : Text) : chars.length ≤ (chars.map escape).flatten.length := by
  induction chars with
  | nil => exact Nat.le_refl 0
  | cons char chars ih =>
      have some := List.length_pos_iff.mpr (escape_nonempty char)
      simp only [List.map_cons, List.flatten_cons, List.length_append, List.length_cons]
      omega

theorem length_le_quote (value : String) : value.toList.length + 2 ≤ (quote value).length := by
  have codes := length_le_codes value.toList
  simp only [quote, List.length_cons, List.length_append, List.length_nil]
  omega

theorem array_fuel {items : List Json} {fuel : Nat}
    (enough : (Json.array items).write.length < fuel + 1) :
    items.length ≤ fuel ∧ ∀ item ∈ items, item.write.length < fuel := by
  have text := congrArg List.length (array_text items [])
  simp only [List.append_nil, List.length_cons, List.length_append, List.length_nil] at text
  have counted : items.length ≤ (join [','] (items.map write)).length + 1 := count_le_join items
  refine ⟨by omega, ?_⟩
  intro item member
  have part : item.write.length ≤ (join [','] (items.map write)).length := length_le_join member
  omega

theorem object_fuel {members : List (String × Json)} {fuel : Nat}
    (enough : (Json.object members).write.length < fuel + 1) :
    members.length ≤ fuel ∧ ∀ member ∈ members,
      member.1.toList.length < fuel ∧ member.2.write.length < fuel := by
  have text := congrArg List.length (object_text members [])
  simp only [List.append_nil, List.length_cons, List.length_append, List.length_nil] at text
  have counted : members.length ≤ (join [','] (members.map printMember)).length + 1 :=
    count_le_join members
  refine ⟨by omega, ?_⟩
  intro member listed
  have part : (printMember member).length ≤ (join [','] (members.map printMember)).length :=
    length_le_join listed
  have name := length_le_quote member.1
  simp only [printMember, List.length_append, List.length_cons] at part
  omega

/-! ### Written values are read back -/

theorem read_string_value {value : String} {fuel : Nat} (enough : (quote value).length < fuel + 1)
    (rest : Text) : readValue (fuel + 1) (quote value ++ rest) = some (.string value, rest) := by
  have size := length_le_quote value
  have chars := @read_string_reads value fuel (by omega) rest
  have text : quote value ++ rest = '"' :: ((value.toList.map escape).flatten ++ '"' :: rest) := by
    simp [quote]
  rw [text, readValue, List.dropWhile_cons_of_neg (by decide)]
  dsimp only
  rw [if_pos rfl, chars]
  rfl

theorem read_number_value (value : Int) (fuel : Nat) {rest : Text} (follows : Follows rest) :
    readValue (fuel + 1) (integer value ++ rest) = some (.number value, rest) := by
  have number := read_integer_reads value rest follows
  obtain ⟨first, after, text, numeral⟩ := integer_begins value rest
  rw [text] at number ⊢
  rw [read_value_numeral numeral, number]
  rfl

theorem read_array_value {items : List Json} {fuel : Nat} (enough : items.length ≤ fuel)
    (each : ∀ item ∈ items, ReadsBack (readValue fuel) write Follows item) (rest : Text) :
    readValue (fuel + 1) ((Json.array items).write ++ rest) = some (.array items, rest) := by
  have read := read_list_reads items_marks rfl rfl write_begins each enough rest
  rw [array_text, readValue, List.dropWhile_cons_of_neg (by decide)]
  dsimp only
  rw [if_neg (by decide), if_pos rfl, read]
  rfl

theorem read_object_value {members : List (String × Json)} {fuel : Nat}
    (enough : members.length ≤ fuel)
    (each : ∀ member ∈ members,
      ReadsBack (readMember fuel (readValue fuel)) printMember Follows member) (rest : Text) :
    readValue (fuel + 1) ((Json.object members).write ++ rest) = some (.object members, rest) := by
  have read := read_list_reads members_marks rfl rfl member_begins each enough rest
  rw [object_text, readValue, List.dropWhile_cons_of_neg (by decide)]
  dsimp only
  rw [if_neg (by decide), if_neg (by decide), if_pos rfl, read]
  rfl

mutual

/-- A text is fuel enough for the value that it was written of. -/
theorem read_value_reads : ∀ (value : Json) (fuel : Nat), value.write.length < fuel →
    ReadsBack (readValue fuel) write Follows value
  | _, 0, enough => absurd enough (Nat.not_lt_zero _)
  | .null, _ + 1, _ => fun _ _ => rfl
  | .bool true, _ + 1, _ => fun _ _ => rfl
  | .bool false, _ + 1, _ => fun _ _ => rfl
  | .number value, fuel + 1, _ => by
      intro rest follows
      exact read_number_value value fuel follows
  | .string value, fuel + 1, enough => by
      intro rest _
      exact read_string_value enough rest
  | .array items, fuel + 1, enough => by
      intro rest _
      obtain ⟨counted, shorter⟩ := array_fuel enough
      exact read_array_value counted (items_read items fuel shorter) rest
  | .object members, fuel + 1, enough => by
      intro rest _
      obtain ⟨counted, shorter⟩ := object_fuel enough
      exact read_object_value counted (members_read members fuel shorter) rest

theorem items_read : ∀ (items : List Json) (fuel : Nat),
    (∀ item ∈ items, item.write.length < fuel) →
      ∀ item ∈ items, ReadsBack (readValue fuel) write Follows item
  | [], _, _ => by simp
  | item :: items, fuel, shorter => by
      rw [List.forall_mem_cons] at shorter ⊢
      exact ⟨read_value_reads item fuel shorter.1, items_read items fuel shorter.2⟩

theorem members_read : ∀ (members : List (String × Json)) (fuel : Nat),
    (∀ member ∈ members, member.1.toList.length < fuel ∧ member.2.write.length < fuel) →
      ∀ member ∈ members, ReadsBack (readMember fuel (readValue fuel)) printMember Follows member
  | [], _, _ => by simp
  | (name, value) :: members, fuel, shorter => by
      rw [List.forall_mem_cons] at shorter ⊢
      exact ⟨read_member_reads shorter.1.1 (read_value_reads value fuel shorter.1.2),
        members_read members fuel shorter.2⟩

end

theorem parse_write (value : Json) : parse value.write = some value := by
  have nothing : Follows [] := by
    intro char head
    cases head
  have read := read_value_reads value (value.write.length + 1) (Nat.lt_succ_self _) [] nothing
  rw [List.append_nil] at read
  rw [parse, read]
  rfl

/-- The canonical text of a value is read as the value with its members sorted. -/
theorem parse_write_canonical (value : Json) :
    parse value.writeCanonical = some value.canonical := by
  rw [write_canonical_eq, parse_write]

example : parse "\x7b \"a\" : [ 1, -2 ] \x7d".toList =
    some (.object [("a", .array [.number 1, .number (-2)])]) := by
  rfl

end EmvaultCore.Json
