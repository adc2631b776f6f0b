import EmvaultCore.Library.Delimited

/-!
# Readers of printed text

A reader takes a value off the front of a text and leaves the rest. Readers of
code words and of lists are built from readers of their parts, and read back what
was printed, with an arbitrary rest behind it. Loops are bounded by fuel, of which
one unit more than there are parts is enough.
-/

namespace EmvaultCore.Library.Reading

open Delimited

abbrev Reader (Value : Type) := Text → Option (Value × Text)

variable {Item Value : Type} {print : Value → Text} {follows : Text → Prop}

/-- In front of a text that may follow, the reader takes off the printed value. -/
def ReadsBack (read : Reader Value) (print : Value → Text) (follows : Text → Prop)
    (value : Value) : Prop :=
  ∀ rest, follows rest → read (print value ++ rest) = some (value, rest)

def readWord (word : Text) (value : Value) : Reader Value := fun text =>
  if word.isPrefixOf text then some (value, text.drop word.length) else none

def readUntil (read : Reader Item) (mark : Char) : Nat → Reader (List Item)
  | 0, _ => none
  | _ + 1, [] => none
  | fuel + 1, char :: rest =>
      if char = mark then some ([], rest)
      else do
        let (item, rest) ← read (char :: rest)
        let (items, rest) ← readUntil read mark fuel rest
        some (item :: items, rest)

theorem read_until_reads {read : Reader Item} {code : Item → Text} {mark : Char}
    (nonempty : ∀ item, code item ≠ [])
    (notMark : ∀ item rest remaining, code item ++ rest ≠ mark :: remaining)
    (each : ∀ item rest, read (code item ++ rest) = some (item, rest)) {items : List Item}
    {fuel : Nat} (enough : items.length < fuel) (rest : Text) :
    readUntil read mark fuel ((items.map code).flatten ++ mark :: rest) =
      some (items, rest) := by
  induction items generalizing fuel with
  | nil =>
      cases fuel with
      | zero => cases enough
      | succ fuel => exact if_pos rfl
  | cons item items ih =>
      cases fuel with
      | zero => cases enough
      | succ fuel =>
          have later := ih (Nat.lt_of_succ_lt_succ enough)
          rw [List.map_cons, List.flatten_cons, List.append_assoc]
          have first := each item ((items.map code).flatten ++ mark :: rest)
          have unmarked := notMark item ((items.map code).flatten ++ mark :: rest)
          cases text : code item ++ ((items.map code).flatten ++ mark :: rest) with
          | nil => exact absurd (List.append_eq_nil_iff.mp text).1 (nonempty item)
          | cons char after =>
              rw [text] at first unmarked
              rw [readUntil, if_neg fun same => unmarked after (by rw [same]), first]
              dsimp only [Bind.bind, Option.bind]
              rw [later]

/-! ### Lists -/

section Lists

variable (read : Reader Value) (space : Char → Bool) (separator mark : Char)

def readLater : Nat → Reader (List Value)
  | 0, _ => none
  | fuel + 1, text =>
      match text.dropWhile space with
      | [] => none
      | char :: rest =>
          if char = mark then some ([], rest)
          else if char = separator then do
            let (value, rest) ← read rest
            let (values, rest) ← readLater fuel rest
            some (value :: values, rest)
          else none

def readList (fuel : Nat) : Reader (List Value) := fun text =>
  match text.dropWhile space with
  | [] => none
  | char :: rest =>
      if char = mark then some ([], rest)
      else do
        let (value, rest) ← read text
        let (values, rest) ← readLater read space separator mark fuel rest
        some (value :: values, rest)

variable {read space separator mark}

theorem read_later_reads (marks : ListMarks print follows separator mark)
    (separatorSeen : space separator = false) (markSeen : space mark = false)
    {values : List Value} (each : ∀ value ∈ values, ReadsBack read print follows value)
    {fuel : Nat} (enough : values.length < fuel) (rest : Text) :
    readLater read space separator mark fuel
        ((values.map fun value => separator :: print value).flatten ++ mark :: rest) =
      some (values, rest) := by
  induction values generalizing fuel with
  | nil =>
      cases fuel with
      | zero => cases enough
      | succ fuel => simp [readLater, markSeen]
  | cons value values ih =>
      rw [List.forall_mem_cons] at each
      cases fuel with
      | zero => cases enough
      | succ fuel =>
          have later := ih each.2 (Nat.lt_of_succ_lt_succ enough)
          have first := each.1 _ (marks.later_follows values rest)
          rw [List.map_cons, List.flatten_cons, List.cons_append, List.cons_append,
            List.append_assoc, readLater, List.dropWhile_cons_of_neg (by simp [separatorSeen])]
          dsimp only
          rw [if_neg marks.apart, if_pos rfl, first]
          dsimp only [Bind.bind, Option.bind]
          rw [later]

/-- A printed list is read back if its values are and none begins with space. -/
theorem read_list_reads (marks : ListMarks print follows separator mark)
    (separatorSeen : space separator = false) (markSeen : space mark = false)
    (begins : ∀ value rest, ∃ char after,
      print value ++ rest = char :: after ∧ space char = false)
    {values : List Value} (each : ∀ value ∈ values, ReadsBack read print follows value)
    {fuel : Nat} (enough : values.length ≤ fuel) (rest : Text) :
    readList read space separator mark fuel
        (Text.join [separator] (values.map print) ++ mark :: rest) = some (values, rest) := by
  cases values with
  | nil => simp [readList, Text.join, markSeen]
  | cons value values =>
      rw [List.forall_mem_cons] at each
      rw [cons_join, List.append_assoc]
      have first := each.1 _ (marks.later_follows values rest)
      have later := read_later_reads marks separatorSeen markSeen each.2 enough rest
      have unmarked := marks.notMark value
        ((values.map fun value => separator :: print value).flatten ++ mark :: rest)
      obtain ⟨char, after, text, seen⟩ := begins value
        ((values.map fun value => separator :: print value).flatten ++ mark :: rest)
      rw [text] at first unmarked ⊢
      rw [readList, List.dropWhile_cons_of_neg (by simp [seen])]
      dsimp only
      rw [if_neg fun same => unmarked after (by rw [same]), first]
      dsimp only [Bind.bind, Option.bind]
      rw [later]

end Lists

end EmvaultCore.Library.Reading
