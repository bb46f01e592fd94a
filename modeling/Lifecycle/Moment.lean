import Lifecycle.Decimal.Number

/-!
# Moments

A moment is a point in time in universal time, to the microsecond. It is read off a number of
seconds since the start of 1970; the fraction is scaled to microseconds in binary64 and goes to the
nearest, a half to the even one. Moments lie in the years 1 to 9999 of the Gregorian calendar.
-/

namespace Lifecycle

/-- A point in time: whole seconds since the start of 1970, and microseconds after that. -/
structure Moment where
  second : Int
  microsecond : Nat
deriving DecidableEq

/-- Why a number of seconds is no moment. -/
inductive MomentError where
  | notANumber
  /-- The seconds are not counted that far. -/
  | uncountable
  /-- The years are not counted that far. -/
  | yearless
  /-- The year lies outside the calendar. -/
  | otherYear (year : Int)
deriving DecidableEq

/-- The wording of an error. -/
def MomentError.message : MomentError → String
  | .notANumber => "Invalid value NaN (not a number)"
  | .uncountable => "timestamp out of range"
  | .yearless => "year out of range"
  | .otherYear year => "year " ++ toString year ++ " is out of range"

namespace Moment

/-- How many microseconds there are in a second. -/
def perSecond : Nat := 1000000

/-- How many seconds there are in a day. -/
def daySeconds : Int := 86400

/-- The year of a day, which is counted from the start of 1970. Years are taken to begin in March,
so that a leap day ends one; 400 of them have 146097 days. -/
def yearOfDay (day : Int) : Int :=
  let shifted := day + 719468
  let era := shifted.fdiv 146097
  let dayOfEra := (shifted - era * 146097).toNat
  let yearOfEra :=
    (dayOfEra - dayOfEra / 1460 + dayOfEra / 36524 - dayOfEra / 146096) / 365
  let dayOfYear := dayOfEra - (365 * yearOfEra + yearOfEra / 4 - yearOfEra / 100)
  era * 400 + (yearOfEra : Int) + (if 306 ≤ dayOfYear then 1 else 0)

/-- The moment of a second and a microsecond, which is below a million. Seconds are counted in 64
bits, and years from 1900 on in 32 bits. -/
def ofParts (second : Int) (microsecond : Nat) : Except MomentError Moment :=
  let year := yearOfDay (second.fdiv daySeconds)
  if second < -9223372036854775808 ∨ 9223372036854775808 ≤ second then .error .uncountable
  else if year - 1900 < -2147483648 ∨ 2147483648 ≤ year - 1900 then .error .yearless
  else if year < 1 ∨ 9999 < year then .error (.otherYear (year.bmod 4294967296))
  else .ok ⟨second, microsecond⟩

/-- The moment of a finite number of seconds in units. Seconds in binary64 are counted up to the
number nearest to the last count, which lies one behind it. -/
def ofUnits (units : Int) : Except MomentError Moment :=
  let one : Int := Double.unitsOfOne
  let whole := units.tdiv one
  let fraction := Double.ofUnits false (units - whole * one).natAbs 1
  let scaled := fraction.mul (Double.ofInt perSecond)
  let parts := Decimal.roundHalfEven ((scaled.units?.getD 0).natAbs) Double.unitsOfOne
  if whole = 9223372036854775808 then .error .yearless
  else if parts = 0 then ofParts whole 0
  else if units < 0 then ofParts (whole - 1) (perSecond - parts)
  else if parts = perSecond then ofParts (whole + 1) 0
  else ofParts whole parts

/-- The moment of a number of seconds. -/
def ofNumber : Number → Except MomentError Moment
  | .int n => ofParts n 0
  | .float .nan => .error .notANumber
  | .float x =>
    match x.units? with
    | some units => ofUnits units
    | none => .error .uncountable

/-- The number of seconds nearest to the moment. -/
def toDouble (t : Moment) : Double :=
  Double.ratio (t.second * perSecond + t.microsecond) perSecond

/-- Two digits of a number below 100. -/
def twoDigits (n : Nat) : String := if n < 10 then "0" ++ toString n else toString n

/-- The time of day. -/
def clockText (t : Moment) : String :=
  let second := (t.second.emod daySeconds).toNat
  twoDigits (second / 3600) ++ ":" ++ twoDigits (second / 60 % 60) ++ ":" ++ twoDigits (second % 60)

/-- A moment keeps the parts it is made of. -/
theorem eq_of_ofParts {second : Int} {microsecond : Nat} {t : Moment}
    (h : ofParts second microsecond = .ok t) : t = ⟨second, microsecond⟩ := by
  unfold ofParts at h
  simp only at h
  split at h
  · cases h
  · split at h
    · cases h
    · split at h
      · cases h
      · cases h
        rfl

end Moment

end Lifecycle
