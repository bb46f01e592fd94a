import Lifecycle.Json.Pairs
import Lifecycle.Json.Reader

/-!
# Corruption

Why persisted state does not fit: the text is no envelope, the layout has the wrong shape, or the
state it describes is none of the chart's. The wording of a cause is `Corruption.message`.
-/

namespace Lifecycle

/-- Why persisted state cannot be taken over. -/
inductive Corruption where
  | malformedText
  /-- The text goes beyond the limits of reading. -/
  | textExcess (excess : Json.Excess)
  /-- A value does not do as an object, or not as one to write. -/
  | flawed (cause : Json.Flaw)
  | envelopeNotObject
  | badEnvelope (errors : Nat)
  | badChecksum
  | otherVersion (found : Int) (expected : Json)
  | badLayout (errors : Nat)
  | notObject
  | fieldNotObject (field : String)
  | noPath
  | otherRoot (found : Json) (root : String)
  | notBelow (found : Json) (parent : String)
  | endsInside (id : String)
  | noHistory (id : String)
  | unknownChild (id : String) (found : Json)
  | unknownKeys (keys : List Json.Key)
  | wrongKind (key : Json.Key) (expected found : String)

/-- The wording of a cause. -/
def Corruption.message : Corruption → String
  | .malformedText => "invalid JSON"
  | .textExcess excess => excess.message
  | .flawed cause => cause.message
  | .envelopeNotObject => "snapshot envelope must be an object"
  | .badEnvelope errors => "invalid snapshot envelope (" ++ toString errors ++ " errors)"
  | .badChecksum => "checksum mismatch"
  | .otherVersion found expected =>
    "version mismatch: got " ++ toString found ++ ", expected " ++ expected.display
  | .badLayout errors => "invalid snapshot layout (" ++ toString errors ++ " errors)"
  | .notObject => "snapshot must be a mapping"
  | .fieldNotObject field => field ++ " must be a mapping"
  | .noPath => "active_path must be a non-empty sequence"
  | .otherRoot found root =>
    "active_path starts at " ++ found.literal ++ ", expected " ++ Json.quoted root
  | .notBelow found parent => found.literal ++ " is not a state under " ++ Json.quoted parent
  | .endsInside id => "active_path ends at non-leaf " ++ Json.quoted id
  | .noHistory id => Json.quoted id ++ " does not own a history state"
  | .unknownChild id found =>
    "history of " ++ Json.quoted id ++ " names unknown child " ++ found.literal
  | .unknownKeys keys =>
    "context has unknown keys " ++ (Json.arr (keys.map Json.Key.toJson)).literal
  | .wrongKind key expected found =>
    "context[" ++ key.toJson.literal ++ "] should be " ++ expected ++ ", got " ++ found

end Lifecycle
