import Lifecycle.Decimal.Notation
import Lifecycle.Json.Basic
import Lifecycle.Text.Hex

/-!
# Reading JSON text

A strict reader: blanks are the space, the tab and the two line ends; strings hold no raw control
characters; a number with a fraction or an exponent is binary64 and any other an integer, so `-0` is
the integer zero. `NaN`, `Infinity` and `-Infinity` are numbers. A repeated key either keeps its
first place with the last value or is refused when its object closes (`KeyPolicy`). Texts go up to
limits, on the digits of an integer and on the depth of nesting (`Excess`); a text with several
faults is refused for the first that reading meets.
-/

namespace Lifecycle.Json

/-- The two kinds of values that hold others. -/
inductive Container where
  | array
  | object
deriving DecidableEq

/-- What a text has too much of. -/
inductive Excess where
  /-- An integer has this many digits. -/
  | digits (count : Nat)
  /-- A container of this kind lies too deep inside others. -/
  | nesting (container : Container)
deriving DecidableEq

/-- Why a text is no JSON value. -/
inductive ReadError where
  | malformed
  | repeatedKey (key : String)
  | excess (excess : Excess)
deriving DecidableEq

/-- How many containers lie inside each other at most. -/
def nestingLimit : Nat := 989

/-- The word for a kind of container. -/
def Container.word : Container → String
  | array => "array"
  | object => "object"

/-- What is said of an excess. -/
def Excess.message : Excess → String
  | digits count =>
    "Exceeds the limit (" ++ toString digitLimit ++ " digits) for integer string conversion: "
      ++ "value has " ++ toString count
      ++ " digits; use sys.set_int_max_str_digits() to increase the limit"
  | nesting container =>
    "maximum recursion depth exceeded while decoding a JSON " ++ container.word
      ++ " from a unicode string"

/-- What a repeated key of one object means. -/
inductive KeyPolicy where
  /-- The first place keeps the last value. -/
  | lastWins
  /-- The object is refused. -/
  | refuse
deriving DecidableEq

/-- Whether a character may stand between tokens. -/
def isGap (c : Char) : Bool :=
  c = ' ' || c = '\t' || c = '\n' || c = '\r'

/-- The text from its first character that is no gap. -/
def skipGap (cs : List Char) : List Char :=
  cs.dropWhile isGap

/-! ## Strings -/

/-- The code point of a one-letter escape. -/
def escaped? : Char → Option Nat
  | '"' => some 0x22
  | '\\' => some 0x5C
  | '/' => some 0x2F
  | 'b' => some 0x08
  | 'f' => some 0x0C
  | 'n' => some 0x0A
  | 'r' => some 0x0D
  | 't' => some 0x09
  | _ => none

/-- The value of four hexadecimal digits. -/
def fourHex? (a b c d : Char) : Option Nat := do
  let a ← Text.hexValue? a
  let b ← Text.hexValue? b
  let c ← Text.hexValue? c
  let d ← Text.hexValue? d
  return ((a * 16 + b) * 16 + c) * 16 + d

/-- The code points and escaped code units of a string up to its closing quote, and the rest. -/
def readUnits : List Char → Option (List Nat × List Char)
  | [] => none
  | '"' :: rest => some ([], rest)
  | '\\' :: 'u' :: a :: b :: c :: d :: rest =>
    match fourHex? a b c d, readUnits rest with
    | some unit, some (units, rest) => some (unit :: units, rest)
    | _, _ => none
  | '\\' :: c :: rest =>
    match escaped? c, readUnits rest with
    | some unit, some (units, rest) => some (unit :: units, rest)
    | _, _ => none
  | c :: rest =>
    if c.toNat < 0x20 || c = '\\' then none
    else (readUnits rest).map fun (units, rest) => (c.toNat :: units, rest)

/-- Joins surrogate pairs; an unpaired surrogate becomes the replacement character. -/
def joinUnits : List Nat → List Char
  | [] => []
  | [unit] => [if 0xD800 ≤ unit ∧ unit < 0xE000 then '\ufffd' else Char.ofNat unit]
  | high :: low :: rest =>
    if 0xD800 ≤ high ∧ high < 0xDC00 ∧ 0xDC00 ≤ low ∧ low < 0xE000 then
      Char.ofNat (0x10000 + (high - 0xD800) * 0x400 + (low - 0xDC00)) :: joinUnits rest
    else
      (if 0xD800 ≤ high ∧ high < 0xE000 then '\ufffd' else Char.ofNat high)
        :: joinUnits (low :: rest)

/-- The string after its opening quote, and the rest. -/
def readString (cs : List Char) : Except ReadError (String × List Char) :=
  match readUnits cs with
  | some (units, rest) => .ok (String.ofList (joinUnits units), rest)
  | none => .error .malformed

/-! ## Numbers -/

/-- The digits that a text starts with, and the rest. -/
def spanDigits (cs : List Char) : List Char × List Char :=
  (cs.takeWhile Char.isDigit, cs.dropWhile Char.isDigit)

/-- The value of decimal digits. -/
def digitsValue (cs : List Char) : Nat :=
  cs.foldl (fun value c => value * 10 + (c.toNat - '0'.toNat)) 0

/-- The digits after a point, if a point with digits comes next. -/
def readFraction : List Char → Option (List Char) × List Char
  | '.' :: rest =>
    match spanDigits rest with
    | ([], _) => (none, '.' :: rest)
    | (digits, after) => (some digits, after)
  | cs => (none, cs)

/-- The exponent, if an exponent mark with digits comes next. -/
def readExponent (cs : List Char) : Option Int × List Char :=
  match cs with
  | mark :: rest =>
    if mark = 'e' ∨ mark = 'E' then
      let (negative, unsigned) := match rest with
        | '-' :: more => (true, more)
        | '+' :: more => (false, more)
        | _ => (false, rest)
      match spanDigits unsigned with
      | ([], _) => (none, cs)
      | (digits, after) =>
        (some (if negative then -(digitsValue digits : Int) else (digitsValue digits : Int)), after)
    else (none, cs)
  | [] => (none, [])

/-- The digits before the point: a lone zero, or digits that start with no zero. -/
def readWhole (cs : List Char) : List Char × List Char :=
  match cs with
  | '0' :: rest => (['0'], rest)
  | _ => spanDigits cs

/-- A number after its sign. -/
def readUnsigned (negative : Bool) (cs : List Char) : Except ReadError (Json × List Char) :=
  match readWhole cs with
  | ([], _) => .error .malformed
  | (whole, afterWhole) =>
    match readFraction afterWhole with
    | (fraction, afterFraction) =>
      match readExponent afterFraction with
      | (exponent, rest) =>
        if fraction.isNone && exponent.isNone then
          if digitLimit < whole.length then .error (.excess (.digits whole.length))
          else
            let value := (digitsValue whole : Int)
            .ok (.int (if negative then -value else value), rest)
        else
          let places := fraction.getD []
          .ok (.float (Double.ofDecimal negative (digitsValue (whole ++ places))
            (exponent.getD 0 - (places.length : Int))), rest)

/-- A number with its sign, the named ones included. -/
def readNumber : List Char → Except ReadError (Json × List Char)
  | '-' :: 'I' :: 'n' :: 'f' :: 'i' :: 'n' :: 'i' :: 't' :: 'y' :: rest =>
    .ok (.float (.infinite true), rest)
  | 'I' :: 'n' :: 'f' :: 'i' :: 'n' :: 'i' :: 't' :: 'y' :: rest =>
    .ok (.float (.infinite false), rest)
  | 'N' :: 'a' :: 'N' :: rest => .ok (.float .nan, rest)
  | '-' :: rest => readUnsigned true rest
  | cs => readUnsigned false cs

/-! ## Values -/

/-- The first key that an earlier member has too. -/
def firstRepeat? : List String → Option String :=
  go []
where
  /-- The first of the later keys that is among the earlier ones or repeats. -/
  go (earlier : List String) : List String → Option String
    | [] => none
    | key :: later => if earlier.contains key then some key else go (key :: earlier) later

/-- The object of the members that were read. -/
def close (policy : KeyPolicy) (members : List (String × Json)) : Except ReadError Json :=
  match policy with
  | .lastWins => .ok (.obj (Entries.ofList members))
  | .refuse =>
    match firstRepeat? (Entries.keys members) with
    | some key => .error (.repeatedKey key)
    | none => .ok (.obj members)

mutual

/-- A value that starts at the first character, and the rest; there is room for this many containers
inside each other. -/
def readValue (policy : KeyPolicy) (room : Nat) :
    Nat → List Char → Except ReadError (Json × List Char)
  | 0, _ => .error .malformed
  | fuel + 1, cs =>
    match cs with
    | '"' :: rest => do
      let (s, rest) ← readString rest
      return (.str s, rest)
    | '[' :: rest =>
      if room = 0 then .error (.excess (.nesting .array))
      else match skipGap rest with
        | ']' :: rest => .ok (.arr [], rest)
        | rest => do
          let (items, rest) ← readItems policy (room - 1) fuel rest
          return (.arr items, rest)
    | '\x7b' :: rest =>
      if room = 0 then .error (.excess (.nesting .object))
      else match skipGap rest with
        | '\x7d' :: rest => .ok (.obj [], rest)
        | rest => do
          let (members, rest) ← readMembers policy (room - 1) fuel rest
          let object ← close policy members
          return (object, rest)
    | 'n' :: 'u' :: 'l' :: 'l' :: rest => .ok (.null, rest)
    | 't' :: 'r' :: 'u' :: 'e' :: rest => .ok (.bool true, rest)
    | 'f' :: 'a' :: 'l' :: 's' :: 'e' :: rest => .ok (.bool false, rest)
    | cs => readNumber cs

/-- One or more items up to the closing bracket. -/
def readItems (policy : KeyPolicy) (room : Nat) :
    Nat → List Char → Except ReadError (List Json × List Char)
  | 0, _ => .error .malformed
  | fuel + 1, cs => do
    let (item, rest) ← readValue policy room fuel cs
    match skipGap rest with
    | ']' :: rest => return ([item], rest)
    | ',' :: rest =>
      let (items, rest) ← readItems policy room fuel (skipGap rest)
      return (item :: items, rest)
    | _ => .error .malformed

/-- One or more members up to the closing brace. -/
def readMembers (policy : KeyPolicy) (room : Nat) :
    Nat → List Char → Except ReadError (List (String × Json) × List Char)
  | 0, _ => .error .malformed
  | fuel + 1, cs =>
    match cs with
    | '"' :: rest => do
      let (key, rest) ← readString rest
      match skipGap rest with
      | ':' :: rest =>
        let (value, rest) ← readValue policy room fuel (skipGap rest)
        match skipGap rest with
        | '\x7d' :: rest => return ([(key, value)], rest)
        | ',' :: rest =>
          let (members, rest) ← readMembers policy room fuel (skipGap rest)
          return ((key, value) :: members, rest)
        | _ => .error .malformed
      | _ => .error .malformed
    | _ => .error .malformed

end

/-- The value that a text denotes. Every step into a value or past one consumes a character, so
twice the length is fuel enough. -/
def parse (policy : KeyPolicy) (text : String) : Except ReadError Json := do
  let cs := text.toList
  let (value, rest) ← readValue policy nestingLimit (2 * cs.length + 2) (skipGap cs)
  if (skipGap rest).isEmpty then return value else .error .malformed

end Lifecycle.Json
