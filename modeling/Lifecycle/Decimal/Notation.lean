import Lifecycle.Decimal.Shortest

/-!
# Number text

How numbers are written: a binary64 number with its shortest digits, positionally while the leading
digit stands between 10⁻⁴ and 10¹⁵ and in exponent form beyond, and never like an integer.
`Double.ofDecimal` is the inverse direction, from the digits and the exponent of a number text.
-/

namespace Lifecycle

namespace Decimal

/-- The digits without trailing zeros, the exponent raised to match. -/
def trim (d : Decimal) : Decimal :=
  let digits := (toString d.digits).toList
  let zeros := (digits.reverse.takeWhile (· == '0')).length
  ⟨d.digits / Nat.pow 10 zeros, d.exponent + zeros⟩

/-- A run of zeros. -/
def zeros (count : Nat) : String :=
  String.ofList (List.replicate count '0')

/-- The exponent part: a sign and at least two digits. -/
def exponentText (e : Int) : String :=
  let digits := toString e.natAbs
  (if e < 0 then "e-" else "e+") ++ (if digits.length < 2 then "0" ++ digits else digits)

/-- A decimal in words of digits: positional for leading exponents from -4 to 15, else with one
digit before the point and an exponent. -/
def text (d : Decimal) : String :=
  let d := d.trim
  let digits := (toString d.digits).toList
  let leading : Int := (digits.length : Int) - 1 + d.exponent
  if -4 ≤ leading && leading < 16 then
    if leading < 0 then
      "0." ++ zeros ((-leading).toNat - 1) ++ String.ofList digits
    else if 0 ≤ d.exponent then
      String.ofList digits ++ zeros d.exponent.toNat ++ ".0"
    else
      let whole := leading.toNat + 1
      String.ofList (digits.take whole) ++ "." ++ String.ofList (digits.drop whole)
  else
    let fraction := digits.drop 1
    String.ofList (digits.take 1)
      ++ (if fraction.isEmpty then "" else "." ++ String.ofList fraction)
      ++ exponentText leading

end Decimal

namespace Double

/-- The text of a binary64 number: its sign and its shortest digits. -/
def text : Double → String
  | .finite negative place =>
    (if negative then "-" else "")
      ++ (if place.val = 0 then "0.0" else (Decimal.shortest place.val).text)
  | .infinite negative => if negative then "-inf" else "inf"
  | .nan => "nan"

/-- The number nearest to `digits · 10 ^ exponent` of a sign. Beyond 10⁴⁰⁰ everything is infinite,
and below 10⁻⁴⁰⁰ everything is zero, so no huge power is formed. -/
def ofDecimal (negative : Bool) (digits : Nat) (exponent : Int) : Double :=
  if digits = 0 then signedZero negative
  else if 400 < exponent then .infinite negative
  else if exponent < -400 - (Nat.log2 digits : Int) then signedZero negative
  else
    let ratio := (Decimal.mk digits exponent).ratio
    ofRatio negative ratio.1 ratio.2

end Double

end Lifecycle
