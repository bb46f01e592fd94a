/-!
# Hexadecimal digits

Lower-case digits of a fixed width, the value of a digit of either case, and bytes of two digits
each, between which there may be blanks.
-/

namespace Lifecycle.Text

/-- The lower-case digit of a value below 16. -/
def hexDigit (value : Nat) : Char :=
  if value < 10 then Char.ofNat ('0'.toNat + value) else Char.ofNat ('a'.toNat + (value - 10))

/-- The value of a digit of either case. -/
def hexValue? (c : Char) : Option Nat :=
  if '0' ≤ c ∧ c ≤ '9' then some (c.toNat - '0'.toNat)
  else if 'a' ≤ c ∧ c ≤ 'f' then some (c.toNat - 'a'.toNat + 10)
  else if 'A' ≤ c ∧ c ≤ 'F' then some (c.toNat - 'A'.toNat + 10)
  else none

/-- The last `width` digits of a number, the leading ones first. -/
def hexDigits : Nat → Nat → List Char
  | 0, _ => []
  | width + 1, value => hexDigits width (value / 16) ++ [hexDigit (value % 16)]

/-- Whether a character may stand between bytes. -/
def isHexBlank (c : Char) : Bool := c = ' ' || ('\t' ≤ c && c ≤ '\x0d')

/-- The bytes that pairs of digits write from a position on; else the first position without a digit
that has to be there. -/
def readHex (position : Nat) : List Char → Except Nat (List UInt8)
  | [] => .ok []
  | high :: rest =>
    if isHexBlank high then readHex (position + 1) rest
    else match hexValue? high, rest with
      | none, _ => .error position
      | some _, [] => .error (position + 1)
      | some h, low :: others => match hexValue? low with
        | none => .error (position + 1)
        | some l => (readHex (position + 2) others).map (UInt8.ofNat (h * 16 + l) :: ·)

/-- The bytes that a text writes; else the position of what is wrong, which is the first character
beyond ASCII if there is one. -/
def bytesOfHex (text : String) : Except Nat (List UInt8) :=
  let characters := text.toList
  match characters.findIdx? fun c => 128 ≤ c.toNat with
  | some position => .error position
  | none => readHex 0 characters

/-- The wording of a wrong position. -/
def hexMessage (position : Nat) : String :=
  "non-hexadecimal number found in fromhex() arg at position " ++ toString position

/-- A digit reads back as its value. -/
theorem hexValue?_hexDigit : ∀ value, value < 16 → hexValue? (hexDigit value) = some value := by
  decide

theorem length_hexDigits (width value : Nat) : (hexDigits width value).length = width := by
  induction width generalizing value with
  | zero => rfl
  | succ width ih => simp [hexDigits, ih]

end Lifecycle.Text
