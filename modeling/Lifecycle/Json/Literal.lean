import Lifecycle.Decimal.Notation
import Lifecycle.Json.Basic
import Lifecycle.Text.Blank
import Lifecycle.Text.Hex

/-!
# Literals in messages

Diagnostics quote values as literals: strings in single quotes, or in double quotes when they hold
a single quote and no double one; lists in brackets; objects with their keys quoted. `Json.display`
is the literal, except that a string stands for itself.
-/

namespace Lifecycle.Json

/-- One character inside a quoted string. -/
def literalChar (quote : Char) (c : Char) : List Char :=
  if c = '\\' then ['\\', '\\']
  else if c = quote then ['\\', c]
  else if c = '\n' then ['\\', 'n']
  else if c = '\r' then ['\\', 'r']
  else if c = '\t' then ['\\', 't']
  else if Text.isFormless c then
    if c.toNat < 0x100 then '\\' :: 'x' :: Text.hexDigits 2 c.toNat
    else if c.toNat < 0x10000 then '\\' :: 'u' :: Text.hexDigits 4 c.toNat
    else '\\' :: 'U' :: Text.hexDigits 8 c.toNat
  else [c]

/-- A string as a literal. -/
def quoted (s : String) : String :=
  let cs := s.toList
  let quote := if cs.contains '\'' && !cs.contains '"' then '"' else '\''
  String.ofList ([quote] ++ cs.flatMap (literalChar quote) ++ [quote])

mutual

/-- A value as a literal. -/
def literal : Json → String
  | .null => "None"
  | .bool b => if b then "True" else "False"
  | .int n => toString n
  | .float x => x.text
  | .str s => quoted s
  | .arr items => "[" ++ String.intercalate ", " (literalItems items) ++ "]"
  | .obj members => "\x7b" ++ String.intercalate ", " (literalMembers members) ++ "\x7d"

/-- The literals of the items. -/
def literalItems : List Json → List String
  | [] => []
  | item :: items => literal item :: literalItems items

/-- The members, each as key and value. -/
def literalMembers : List (String × Json) → List String
  | [] => []
  | (key, value) :: members =>
    (quoted key ++ ": " ++ literal value) :: literalMembers members

end

/-- A string as it is, any other value as its literal. -/
def display : Json → String
  | .str s => s
  | value => literal value

/-- A list of strings as a literal. -/
def quotedList (items : List String) : String :=
  "[" ++ String.intercalate ", " (items.map quoted) ++ "]"

/-- Strings in the order of their code points. -/
def sortKeys (keys : List String) : List String :=
  keys.mergeSort (fun a b => !(decide (b < a)))

/-- The distinct members of a list in the order of their code points. -/
def sortedDistinct (keys : List String) : List String :=
  sortKeys keys.eraseDups

end Lifecycle.Json
