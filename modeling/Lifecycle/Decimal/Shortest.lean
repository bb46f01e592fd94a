import Lifecycle.Decimal.Double

/-!
# Decimals that read back

A decimal is a whole number of digits and a power of ten. `Decimal.toPlace` reads one as a binary64
magnitude. `shortest` goes through the grids of 1, 2, … 17 digits and takes the first that has a
decimal reading back, the nearer one of two (`toPlace_of_pick`); failing that it writes all digits.
-/

namespace Lifecycle

/-- The decimal `digits · 10 ^ exponent`. -/
structure Decimal where
  digits : Nat
  exponent : Int
deriving DecidableEq

namespace Decimal

open Double (unitsAt unitsOfOne placeNear)

/-- The value as a quotient of whole numbers. -/
def ratio (d : Decimal) : Nat × Nat :=
  if 0 ≤ d.exponent then (d.digits * Nat.pow 10 d.exponent.toNat, 1)
  else (d.digits, Nat.pow 10 (-d.exponent).toNat)

/-- The place of the binary64 magnitude nearest to the value. -/
def toPlace (d : Decimal) : Nat :=
  placeNear (d.ratio.1 * unitsOfOne) d.ratio.2

/-- The exponent of the leading digit of the magnitude at a place other than zero. Scaled by
10³⁴⁰ every magnitude has a digit before the point. -/
def leadingExponent (place : Nat) : Int :=
  ((toString (unitsAt place * Nat.pow 10 340 / unitsOfOne)).length : Int) - 341

/-- Of two decimals below and above a magnitude the nearer one, and of two equally near ones the
one with the even last digit. -/
def nearer (place : Nat) (below above : Decimal) : Decimal :=
  let twice := 2 * unitsAt place * below.ratio.2
  let middle := (below.ratio.1 + above.ratio.1) * unitsOfOne
  if twice < middle then below
  else if middle < twice then above
  else if below.digits % 2 = 0 then below else above

/-- Of two decimals of one grid below and above a magnitude, the one that reads back, the nearer
one if both do. -/
def pick (place : Nat) (below above : Decimal) : Option Decimal :=
  if below.toPlace = place then
    if above.toPlace = place then some (nearer place below above) else some below
  else if above.toPlace = place then some above
  else none

/-- The decimal of `count` digits that `pick` chooses around the magnitude at a place. -/
def onGrid (place : Nat) (leading : Int) (count : Nat) : Option Decimal :=
  let exponent := leading - (count : Int) + 1
  let digits :=
    if 0 ≤ exponent then unitsAt place / (unitsOfOne * Nat.pow 10 exponent.toNat)
    else unitsAt place * Nat.pow 10 (-exponent).toNat / unitsOfOne
  pick place ⟨digits, exponent⟩ ⟨digits + 1, exponent⟩

/-- All digits of the magnitude at a place. -/
def allDigits (place : Nat) : Decimal :=
  ⟨unitsAt place * Nat.pow 5 1074, -1074⟩

/-- The decimal with the fewest digits, at most 17, that reads back as the magnitude at a place. -/
def shortest (place : Nat) : Decimal :=
  let leading := leadingExponent place
  match (List.range 17).findSome? (fun n => onGrid place leading (n + 1)) with
  | some d => d
  | none => allDigits place

theorem nearer_eq (place : Nat) (below above : Decimal) :
    nearer place below above = below ∨ nearer place below above = above := by
  unfold nearer
  dsimp only
  split
  · exact .inl rfl
  · split
    · exact .inr rfl
    · split
      · exact .inl rfl
      · exact .inr rfl

/-- What is picked reads back. -/
theorem toPlace_of_pick {place : Nat} {below above d : Decimal}
    (h : pick place below above = some d) : d.toPlace = place := by
  unfold pick at h
  split at h
  · rename_i hb
    split at h
    · rename_i ha
      obtain rfl := Option.some.inj h
      rcases nearer_eq place below above with e | e
      · rw [e]; exact hb
      · rw [e]; exact ha
    · obtain rfl := Option.some.inj h
      exact hb
  · split at h
    · rename_i ha
      obtain rfl := Option.some.inj h
      exact ha
    · cases h

end Decimal

end Lifecycle
