import Mathlib.Data.List.Sort
import Mathlib.Data.List.Lex
import EmvaultCore.Library.Text

/-!
# Canonical JSON

`write_canonical`: object members sorted by name, no whitespace. Parsing belongs
to `serde_json`.
-/

namespace EmvaultCore

open Library (Text)

inductive Json where
  | null
  | bool (value : Bool)
  | number (value : Int)
  | string (value : String)
  | array (items : List Json)
  | object (members : List (String × Json))

namespace Json

def escape (char : Char) : Text :=
  if char = '"' then ['\\', '"']
  else if char = '\\' then ['\\', '\\']
  else if char = '\n' then ['\\', 'n']
  else if char = '\r' then ['\\', 'r']
  else if char = '\t' then ['\\', 't']
  else if char = Char.ofNat 8 then ['\\', 'b']
  else if char = Char.ofNat 12 then ['\\', 'f']
  else if char.toNat < 32 then ['\\', 'u'] ++ Library.Text.hex 4 char.toNat
  else [char]

def quote (value : String) : Text := '"' :: (value.toList.map escape).flatten ++ ['"']

def integer (value : Int) : Text :=
  if value < 0 then '-' :: Library.Text.decimal value.natAbs
  else Library.Text.decimal value.natAbs

def sortMembers (members : List (String × Text)) : List (String × Text) :=
  members.insertionSort fun left right => left.1 ≤ right.1

mutual

def writeCanonical : Json → Text
  | .null => ['n', 'u', 'l', 'l']
  | .bool true => ['t', 'r', 'u', 'e']
  | .bool false => ['f', 'a', 'l', 's', 'e']
  | .number value => integer value
  | .string value => quote value
  | .array items => '[' :: Library.Text.join [','] (writeItems items) ++ [']']
  | .object members =>
      '{' :: Library.Text.join [','] ((sortMembers (writeMembers members)).map fun member =>
        quote member.1 ++ ':' :: member.2) ++ ['}']

def writeItems : List Json → List Text
  | [] => []
  | item :: items => writeCanonical item :: writeItems items

def writeMembers : List (String × Json) → List (String × Text)
  | [] => []
  | (name, value) :: members => (name, writeCanonical value) :: writeMembers members

end

def member? (name : String) : Json → Option Json
  | .object members => (members.find? (·.1 = name)).map Prod.snd
  | _ => none

end Json

end EmvaultCore
