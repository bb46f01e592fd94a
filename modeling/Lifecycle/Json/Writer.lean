import Lifecycle.Json.Literal

/-!
# Writing JSON text

One writer in several styles: canonical (sorted keys, no blanks), one sorted line for envelopes, and
indented lines for files. Strings escape the quote, the backslash and the characters below U+0020,
and nothing else. Integers beyond a number of digits are not written (`Json.isWritable`).
-/

namespace Lifecycle.Json

/-- How a value is laid out. -/
structure Style where
  sorted : Bool
  comma : String
  colon : String
  indent : Option Nat

/-- Sorted keys and no blanks: one text for a value whatever the order of its members. -/
def Style.canonical : Style := ⟨true, ",", ":", none⟩

/-- Sorted keys on one line. -/
def Style.line : Style := ⟨true, ", ", ": ", none⟩

/-- Members in order, each on a line of its own. -/
def Style.file : Style := ⟨false, ",", ": ", some 2⟩

/-- No blanks, members in order. -/
def Style.compact : Style := ⟨false, ",", ":", none⟩

/-- One character inside a string. -/
def escapeChar (c : Char) : List Char :=
  if c = '"' then ['\\', '"']
  else if c = '\\' then ['\\', '\\']
  else if c.toNat = 0x08 then ['\\', 'b']
  else if c.toNat = 0x0C then ['\\', 'f']
  else if c = '\n' then ['\\', 'n']
  else if c = '\r' then ['\\', 'r']
  else if c = '\t' then ['\\', 't']
  else if c.toNat < 0x20 then '\\' :: 'u' :: Text.hexDigits 4 c.toNat
  else [c]

/-- A string between its quotes. -/
def stringText (s : String) : String :=
  String.ofList ('"' :: s.toList.flatMap escapeChar ++ ['"'])

/-- The text of a binary64 number. -/
def doubleText : Double → String
  | .infinite negative => if negative then "-Infinity" else "Infinity"
  | .nan => "NaN"
  | x => x.text

/-- The line break before an item at a depth, if the style breaks lines. -/
def Style.newline (style : Style) (depth : Nat) : String :=
  match style.indent with
  | none => ""
  | some width => "\n" ++ String.ofList (List.replicate (width * depth) ' ')

/-- Items between brackets, the closing bracket one level out. -/
def Style.enclose (style : Style) (opening closing : String) (depth : Nat)
    (items : List String) : String :=
  if items.isEmpty then opening ++ closing
  else
    opening ++ style.newline (depth + 1)
      ++ String.intercalate (style.comma ++ style.newline (depth + 1)) items
      ++ style.newline depth ++ closing

/-- Members between braces, in their order. -/
def Style.object (style : Style) (depth : Nat) (members : List (String × String)) : String :=
  style.enclose "\x7b" "\x7d" depth
    (members.map fun member => stringText member.1 ++ style.colon ++ member.2)

/-- The members in the order in which the style writes them. -/
def Style.order (style : Style) (members : List (String × String)) : List (String × String) :=
  if style.sorted then members.mergeSort (fun a b => !(decide (b.1 < a.1))) else members

mutual

/-- A value at a depth. -/
def write (style : Style) (depth : Nat) : Json → String
  | .null => "null"
  | .bool b => if b then "true" else "false"
  | .int n => toString n
  | .float x => doubleText x
  | .str s => stringText s
  | .arr items => style.enclose "[" "]" depth (writeItems style (depth + 1) items)
  | .obj members => style.object depth (style.order (writeMembers style (depth + 1) members))

/-- The texts of the items. -/
def writeItems (style : Style) (depth : Nat) : List Json → List String
  | [] => []
  | item :: items => write style depth item :: writeItems style depth items

/-- The keys, each with the text of its value. -/
def writeMembers (style : Style) (depth : Nat) :
    List (String × Json) → List (String × String)
  | [] => []
  | (key, value) :: members =>
    (key, write style depth value) :: writeMembers style depth members

end

mutual

/-- Whether every integer in a value has at most as many digits as a text may hold. -/
def isWritable : Json → Bool
  | .int n => decide (n.natAbs < integerBound)
  | .arr items => areWritable items
  | .obj members => membersWritable members
  | _ => true

/-- Whether all items can be written. -/
def areWritable : List Json → Bool
  | [] => true
  | item :: items => isWritable item && areWritable items

/-- Whether the values of all members can be written. -/
def membersWritable : List (String × Json) → Bool
  | [] => true
  | (_, value) :: members => isWritable value && membersWritable members

end

/-- The text of a value in a style. -/
def render (style : Style) (value : Json) : String := write style 0 value

/-- The canonical text: the same for values that differ only in the order of members. -/
def canonical (value : Json) : String := render .canonical value

/-- A key as it is written. -/
def Key.written : Key → String
  | .text s => s
  | key => render .compact key.toJson

end Lifecycle.Json
