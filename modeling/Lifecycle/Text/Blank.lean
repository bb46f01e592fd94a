import Lifecycle.Text.Unassigned

/-!
# Character classes

Two classes of Unicode: the characters with the property White_Space, which may surround a number
in a text, and the characters that have no visible form of their own (separators other than the
space, controls, format and private-use characters, and code points without a character), which
quoted text shows as escapes.
-/

namespace Lifecycle.Text

/-- The ranges of the property White_Space. -/
def blankRanges : List (Nat × Nat) :=
  [(0x09, 0x0D), (0x20, 0x20), (0x85, 0x85), (0xA0, 0xA0), (0x1680, 0x1680), (0x2000, 0x200A),
    (0x2028, 0x2029), (0x202F, 0x202F), (0x205F, 0x205F), (0x3000, 0x3000)]

/-- The ranges of the categories of separators other than the space, controls, format and
private-use characters. -/
def formlessRanges : List (Nat × Nat) :=
  [(0x00, 0x1F), (0x7F, 0xA0), (0xAD, 0xAD), (0x600, 0x605), (0x61C, 0x61C), (0x6DD, 0x6DD),
    (0x70F, 0x70F), (0x890, 0x891), (0x8E2, 0x8E2), (0x1680, 0x1680), (0x180E, 0x180E),
    (0x2000, 0x200F), (0x2028, 0x202F), (0x205F, 0x2064), (0x2066, 0x206F), (0x3000, 0x3000),
    (0xE000, 0xF8FF), (0xFEFF, 0xFEFF), (0xFFF9, 0xFFFB), (0x110BD, 0x110BD), (0x110CD, 0x110CD),
    (0x13430, 0x13438), (0x1BCA0, 0x1BCA3), (0x1D173, 0x1D17A), (0xE0001, 0xE0001),
    (0xE0020, 0xE007F), (0xF0000, 0xFFFFD), (0x100000, 0x10FFFD)]

/-- Whether the character has the property White_Space. -/
def isBlank (c : Char) : Bool := inRanges blankRanges c.toNat

/-- Whether the character has no visible form of its own. -/
def isFormless (c : Char) : Bool := inRanges formlessRanges c.toNat || isUnassigned c

/-- The characters of a text without the blanks at its two ends. -/
def trimBlank (cs : List Char) : List Char :=
  ((cs.dropWhile isBlank).reverse.dropWhile isBlank).reverse

/-- Every control character is formless. -/
theorem isFormless_of_lt {c : Char} (h : c.toNat < 0x20) : isFormless c = true := by
  have hl : c.toNat ≤ 0x1F := by omega
  unfold isFormless formlessRanges inRanges
  simp [hl]

end Lifecycle.Text
