import Lifecycle.Json.Pairs
import Lifecycle.Moment
import Lifecycle.Store.Disk

/-!
# Faults

What can go wrong while a chart runs: an action gives up, an action meets a context it was not made
for, or an operation comes before the interpreter has started. A fault is a cause; its wording is
`Fault.message`.
-/

namespace Lifecycle

/-- Why an operation on a running chart failed. -/
inductive Fault where
  /-- An action or a callback gave up with a text. -/
  | raised (text : String)
  /-- A key was read that is not there. -/
  | missingKey (key : Json.Key)
  /-- A value does not do as what it is taken for. -/
  | flawed (cause : Json.Flaw)
  /-- Two values of these kinds have no sum. -/
  | noSum (left right : String)
  /-- The interpreter of this name publishes no snapshot yet. -/
  | notStarted (name : String)
  /-- A compound node is left of which no child is active. -/
  | noActiveChild
  /-- The node does not lie on the path. -/
  | notOnPath (index : Nat)
  /-- A key that no assignment may have. -/
  | reservedKey (key : String)
  /-- A percentage of nothing, which is a zero of binary64 or an integer. -/
  | divisionByZero (isFloat : Bool)
  /-- A value of this kind stands where a number is needed. -/
  | notNumber (kind : String)
  /-- A value of this kind stands where a text is needed. -/
  | notText (kind : String)
  /-- An integer beyond the binary64 numbers. -/
  | beyondDouble
  /-- A time that is no moment. -/
  | noMoment (error : MomentError)
  /-- Callbacks and operations call each other too deeply. -/
  | nestedTooDeeply
  /-- A name that cannot be asked for on a disk. -/
  | noPlace (error : DiskError)
deriving DecidableEq

/-- The text of a fault. -/
def Fault.message : Fault → String
  | .raised text => text
  | .missingKey key => key.toJson.literal
  | .flawed cause => cause.message
  | .noSum left right =>
    if left = "str" ∨ left = "list" then
      "can only concatenate " ++ left ++ " (not \"" ++ right ++ "\") to " ++ left
    else "unsupported operand type(s) for +: '" ++ left ++ "' and '" ++ right ++ "'"
  | .notStarted name => "interpreter " ++ Json.quoted name ++ " has not been started"
  | .noActiveChild => "list index out of range"
  | .notOnPath index => toString index ++ " is not in list"
  | .reservedKey key => "key " ++ Json.quoted key ++ " is reserved"
  | .divisionByZero isFloat => (if isFloat then "float " else "") ++ "division by zero"
  | .notNumber kind => "'" ++ kind ++ "' object cannot be interpreted as an integer"
  | .notText kind => "'" ++ kind ++ "' object has no attribute 'split'"
  | .beyondDouble => "int too large to convert to float"
  | .noMoment error => error.message
  | .nestedTooDeeply => "maximum recursion depth exceeded while calling a Python object"
  | .noPlace error => error.message

end Lifecycle
