/-!
# Ranges of code points

A class of characters is given by ranges of code points, each with its first and its last member, in
increasing order. The order lets a search stop at the first range that lies behind the character.
-/

namespace Lifecycle.Text

/-- Whether a code point lies in one of the ranges, which are in increasing order. -/
def inRanges : List (Nat × Nat) → Nat → Bool
  | [], _ => false
  | (first, last) :: rest, n => first ≤ n && (n ≤ last || inRanges rest n)

/-- What lies before the first range lies in none. -/
theorem inRanges_of_lt {first last n : Nat} {rest : List (Nat × Nat)} (h : n < first) :
    inRanges ((first, last) :: rest) n = false := by
  have : ¬ first ≤ n := by omega
  simp [inRanges, this]

end Lifecycle.Text
