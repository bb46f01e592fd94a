import Lifecycle.Decimal.Double

/-!
# Numbers

A number is an integer of any size or a binary64 number, and the two stay apart: `1` is not `1.0`,
although they compare equal (`Number.same`). Arithmetic stays in the integers as long as both
operands do.
-/

namespace Lifecycle

/-- An integer, or a binary64 number. -/
inductive Number where
  | int (n : Int)
  | float (x : Double)
deriving DecidableEq

namespace Number

/-- The number as binary64. -/
def toDouble : Number → Double
  | .int n => Double.ofInt n
  | .float x => x

/-- Equality of values, across the two kinds. -/
def same : Number → Number → Bool
  | .int a, .int b => a == b
  | .int a, .float y => y.sameInt a
  | .float x, .int b => x.sameInt b
  | .float x, .float y => x.same y

/-- The sum. -/
def add : Number → Number → Number
  | .int a, .int b => .int (a + b)
  | x, y => .float (x.toDouble.add y.toDouble)

/-- Whether the number has one nearest to it in binary64. -/
def isWithinDouble : Number → Bool
  | .int n => (Double.ofInt n).isFinite
  | .float _ => true

/-- The sum, unless an integer would have to go beyond the binary64 numbers. -/
def add? : Number → Number → Option Number
  | .int a, .int b => some (.int (a + b))
  | x, y => if x.isWithinDouble && y.isWithinDouble then some (x.add y) else none

/-- The product. -/
def mul : Number → Number → Number
  | .int a, .int b => .int (a * b)
  | x, y => .float (x.toDouble.mul y.toDouble)

/-- The product, unless an integer would have to go beyond the binary64 numbers. -/
def mul? : Number → Number → Option Number
  | .int a, .int b => some (.int (a * b))
  | x, y => if x.isWithinDouble && y.isWithinDouble then some (x.mul y) else none

/-- The quotient of an integer by the number, which is not zero, rounded once. -/
def ratio (n : Int) : Number → Double
  | .int m => Double.ratio n m
  | .float x => (Double.ofInt n).div x

/-- Whether an integer is at least the number. -/
def intAtLeast (n : Int) : Number → Bool
  | .int m => m ≤ n
  | .float x => Double.intAtLeast n x

/-- The value in units of binary64, if it is finite. -/
def units? : Number → Option Int
  | .int n => some (n * (Double.unitsOfOne : Int))
  | .float x => x.units?

/-- Whether the number is the infinite one of a sign. -/
def isInfinite (negative : Bool) (x : Number) : Bool := x == .float (.infinite negative)

/-- Whether a number is less than another. -/
def below (x y : Number) : Bool :=
  match x.units?, y.units? with
  | some a, some b => a < b
  | some _, none => y.isInfinite false
  | none, some _ => x.isInfinite true
  | none, none => x.isInfinite true && y.isInfinite false

/-- Whether the number is a binary64 number. -/
def isFloat : Number → Bool
  | .int _ => false
  | .float _ => true

/-- Whether the number is a zero. -/
def isZero : Number → Bool
  | .int n => n == 0
  | .float x => x.isZero

/-- The number as an integer where it is whole. -/
def whole : Number → Number
  | .int n => .int n
  | .float x => match x.toInt? with
    | some n => .int n
    | none => .float x

end Number

end Lifecycle
