import Lifecycle.Decimal.Rounding

/-!
# Binary64 numbers

A finite magnitude is named by its place in increasing order, which for binary64 is also its bit
pattern; its value is a whole number of *units* of 2⁻¹⁰⁷⁴ (`Double.unitsAt`). Arithmetic is exact on
units and rounds once, to the nearest magnitude, ties to the even place (`Double.placeNear`).
-/

namespace Lifecycle

/-- How many magnitudes there are from one power of two to the next: 2⁵². -/
abbrev Double.binadeSize : Nat := 4503599627370496

/-- How many finite magnitudes there are. -/
abbrev Double.places : Nat := 2047 * Double.binadeSize

/-- A binary64 number; a finite one is a sign and the place of its magnitude among the finite
magnitudes in increasing order. -/
inductive Double where
  | finite (negative : Bool) (place : Fin Double.places)
  | infinite (negative : Bool)
  | nan
deriving DecidableEq

namespace Double

open Decimal (roundHalfEven)

/-- One, in units. -/
def unitsOfOne : Nat := Nat.pow 2 1074

/-- The value of the magnitude at a place, in units. -/
def unitsAt (place : Nat) : Nat :=
  let binade := place / binadeSize
  if binade = 0 then place else (binadeSize + place % binadeSize) * Nat.pow 2 (binade - 1)

/-- The place of the magnitude nearest to `num / den` units, ties to the even place. -/
def placeNear (num den : Nat) : Nat :=
  let shift := Nat.log2 (num / den) - 52
  roundHalfEven num (den * Nat.pow 2 shift) + shift * binadeSize

/-- The number of a sign nearest to `num / den` units; infinite from the first place beyond the
finite ones. -/
def ofUnits (negative : Bool) (num den : Nat) : Double :=
  if h : placeNear num den < places then .finite negative ⟨placeNear num den, h⟩
  else .infinite negative

/-- The number of a sign nearest to `num / den`. -/
def ofRatio (negative : Bool) (num den : Nat) : Double :=
  ofUnits negative (num * unitsOfOne) den

/-- The number nearest to an integer. -/
def ofInt (n : Int) : Double :=
  ofRatio (n < 0) n.natAbs 1

/-- The zero of a sign. -/
def signedZero (negative : Bool) : Double := .finite negative ⟨0, by decide⟩

/-- Positive zero. -/
def zero : Double := signedZero false

/-- The value in units, with its sign, of a finite number. -/
def units? : Double → Option Int
  | .finite negative place =>
    some (if negative then -(unitsAt place : Int) else (unitsAt place : Int))
  | .infinite _ => none
  | .nan => none

/-- Whether the number is neither infinite nor NaN. -/
def isFinite : Double → Bool
  | .finite .. => true
  | .infinite _ => false
  | .nan => false

/-- Whether the number is a zero of either sign. -/
def isZero : Double → Bool
  | .finite _ place => place.val == 0
  | .infinite _ => false
  | .nan => false

/-- Whether the sign is negative. -/
def isNegative : Double → Bool
  | .finite negative _ => negative
  | .infinite negative => negative
  | .nan => false

/-- Equality of values: the two zeros are equal and NaN equals nothing. -/
def same (x y : Double) : Bool :=
  match x, y with
  | .nan, _ => false
  | _, .nan => false
  | x, y => (x.isZero && y.isZero) || x == y

/-- Equality with an integer, exactly. -/
def sameInt (x : Double) (n : Int) : Bool :=
  x.units? == some (n * (unitsOfOne : Int))

/-- Whether an integer is at least the number, exactly. -/
def intAtLeast (n : Int) : Double → Bool
  | .infinite negative => negative
  | .nan => false
  | x => match x.units? with
    | some u => u ≤ n * (unitsOfOne : Int)
    | none => false

/-- The integer of the same value, if the number is whole. -/
def toInt? (x : Double) : Option Int :=
  match x.units? with
  | some u => if u % (unitsOfOne : Int) = 0 then some (u / (unitsOfOne : Int)) else none
  | none => none

/-- The sum, rounded once; a zero sum is negative only when both terms are. -/
def add : Double → Double → Double
  | .nan, _ => .nan
  | _, .nan => .nan
  | .infinite a, .infinite b => if a = b then .infinite a else .nan
  | .infinite a, .finite .. => .infinite a
  | .finite .., .infinite b => .infinite b
  | .finite a p, .finite b q =>
    let left : Int := if a then -(unitsAt p : Int) else (unitsAt p : Int)
    let right : Int := if b then -(unitsAt q : Int) else (unitsAt q : Int)
    let sum := left + right
    ofUnits (if sum = 0 then a && b else sum < 0) sum.natAbs 1

/-- The product, rounded once. -/
def mul : Double → Double → Double
  | .nan, _ => .nan
  | _, .nan => .nan
  | .infinite a, y => if y.isZero then .nan else .infinite (a != y.isNegative)
  | x, .infinite b => if x.isZero then .nan else .infinite (x.isNegative != b)
  | .finite a p, .finite b q => ofUnits (a != b) (unitsAt p * unitsAt q) unitsOfOne

/-- The quotient, rounded once; the divisor is not zero. -/
def div : Double → Double → Double
  | .nan, _ => .nan
  | _, .nan => .nan
  | .infinite _, .infinite _ => .nan
  | .infinite a, .finite b _ => .infinite (a != b)
  | .finite a _, .infinite b => signedZero (a != b)
  | .finite a p, .finite b q => ofRatio (a != b) (unitsAt p) (unitsAt q)

/-- The quotient of two integers, rounded once; the divisor is not zero. -/
def ratio (num den : Int) : Double :=
  ofRatio ((num < 0) != (den < 0)) num.natAbs den.natAbs

/-- The text with no decimals, a half going to the even neighbour. -/
def wholeText : Double → String
  | .finite negative place =>
    (if negative then "-" else "") ++ toString (roundHalfEven (unitsAt place) unitsOfOne)
  | .infinite negative => if negative then "-inf" else "inf"
  | .nan => "nan"

/-- Below the binades a magnitude is its own place in units. -/
theorem unitsAt_of_lt {place : Nat} (h : place < binadeSize) : unitsAt place = place := by
  have hb : place / binadeSize = 0 := Nat.div_eq_of_lt h
  unfold unitsAt
  simp only [hb, if_true]

end Double

end Lifecycle
