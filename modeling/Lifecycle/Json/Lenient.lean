import Lifecycle.Json.Reader
import Lifecycle.Text.Blank

/-!
# Lenient numbers

Where a number is expected, persisted data may also hold a boolean, a whole binary64 number, or a
text that spells one. Texts may have blanks around them, a plus sign, leading zeros, single
underscores between digits, and a fraction of zeros. The limit on the length of a spelled integer is
one on the digits that count.
-/

namespace Lifecycle.Json

/-- Whether all characters are decimal digits, of which there is at least one. -/
def allDigits (cs : List Char) : Bool :=
  !cs.isEmpty && cs.all Char.isDigit

/-- An integer in its plain form: an optional minus sign and digits without leading zeros. -/
def plainInteger? (cs : List Char) : Option Int :=
  let (negative, digits) := match cs with
    | '-' :: rest => (true, rest)
    | _ => (false, cs)
  if allDigits digits && (digits.length == 1 || digits.head? != some '0') then
    let value : Int := digitsValue digits
    some (if negative then -value else value)
  else none

/-- The text from its first digit that is no leading zero, or from a minus sign; zeros and
underscores before it go. Without such a digit the character before a point or before the end
stays. -/
def dropZeros (previous : Char) : List Char → Option (List Char)
  | [] => some [previous]
  | c :: rest =>
    if c = '0' || c = '_' then dropZeros c rest
    else if c.isDigit || c = '-' then some (c :: rest)
    else if c = '.' then some (previous :: c :: rest)
    else none

/-- The text without leading zeros; it starts with a digit. -/
def stripZeros : List Char → Option (List Char)
  | '0' :: rest => dropZeros '0' rest
  | c :: rest => if c.isDigit then some (c :: rest) else none
  | [] => none

/-- The text without a fraction of zeros, of which there is at least one. -/
def stripFraction (cs : List Char) : List Char :=
  let whole := cs.takeWhile (· ≠ '.')
  let fraction := (cs.drop whole.length).drop 1
  if !fraction.isEmpty && fraction.all (· = '0') then whole else cs

/-- Whether two underscores stand next to each other. -/
def doubledUnderscore : List Char → Bool
  | '_' :: '_' :: _ => true
  | _ :: rest => doubledUnderscore rest
  | [] => false

/-- The text without its underscores, each of which stands alone inside. -/
def stripUnderscores (cs : List Char) : List Char :=
  if cs.head? = some '_' || cs.getLast? = some '_' || doubledUnderscore cs then cs
  else cs.filter (· ≠ '_')

/-- The text of a number without what plain numbers do not have. -/
def simplify (cs : List Char) : Option (List Char) :=
  (stripZeros cs).map fun stripped => stripUnderscores (stripFraction stripped)

/-- An integer in its plain form with few enough digits. -/
def boundedInteger? (cs : List Char) : Option Int :=
  if digitLimit < cs.countP Char.isDigit then none else plainInteger? cs

/-- The integer that a text spells. A minus sign comes first; a plus sign stands alone. -/
def spelledInteger? (text : String) : Option Int :=
  match Text.trimBlank text.toList with
  | '-' :: rest => (simplify rest).bind fun digits => boundedInteger? ('-' :: digits)
  | '+' :: rest => (simplify rest).bind boundedInteger?
  | cs => (simplify cs).bind boundedInteger?

/-- The integer that a value stands for. -/
def lenientInteger? : Json → Option Int
  | .int n => some n
  | .bool b => some (if b then 1 else 0)
  | .float x =>
    match x.toInt? with
    | some n => if n.natAbs < Nat.pow 2 63 then some n else none
    | none => none
  | .str s => spelledInteger? s
  | _ => none

/-- Whether characters are digits around at most one point, with an optional exponent. -/
def spellsDecimal (cs : List Char) : Bool :=
  let (whole, afterWhole) := spanDigits cs
  let (fraction, afterFraction) := match afterWhole with
    | '.' :: rest => spanDigits rest
    | _ => ([], afterWhole)
  !(whole.isEmpty && fraction.isEmpty) &&
    match afterFraction with
    | [] => true
    | mark :: rest =>
      (mark = 'e' || mark = 'E') &&
        match rest with
        | '+' :: digits => allDigits digits
        | '-' :: digits => allDigits digits
        | digits => allDigits digits

/-- Whether characters spell a binary64 number, an infinity or NaN. -/
def spellsDouble (cs : List Char) : Bool :=
  let unsigned := match cs with
    | '+' :: rest => rest
    | '-' :: rest => rest
    | _ => cs
  ["inf", "infinity", "nan"].contains (String.ofList (unsigned.map Char.toLower))
    || spellsDecimal unsigned

/-- Whether a value stands for a binary64 number. -/
def isLenientDouble : Json → Bool
  | .int n => (Double.ofInt n).isFinite
  | .bool _ => true
  | .float _ => true
  | .str s =>
    spellsDouble (Text.trimBlank s.toList) || spellsDouble (stripUnderscores s.toList)
  | _ => false

end Lifecycle.Json
