import Lifecycle.Json.Literal
import Lifecycle.Settings

/-!
# Levels of log messages

The four levels on which the library logs, and the settings by which a level is chosen: a name, or
a number as it is.
-/

namespace Lifecycle

/-- How weighty a message is. -/
inductive Level where
  | debug
  | info
  | warning
  | error
deriving DecidableEq

/-- The name of a level. -/
def Level.word : Level → String
  | .debug => "DEBUG"
  | .info => "INFO"
  | .warning => "WARNING"
  | .error => "ERROR"

/-- Why a setting chooses no level. -/
inductive LevelError where
  | unknownName (name : String)
  | notALevel

/-- The text of a level error. -/
def LevelError.message : LevelError → String
  | .unknownName name => "Unknown level: " ++ Json.quoted name
  | .notALevel => "Level not an integer or a valid string"

/-- The numbers of the names. -/
def levelNumbers : Entries Int :=
  [("CRITICAL", 50), ("FATAL", 50), ("ERROR", 40), ("WARN", 30), ("WARNING", 30), ("INFO", 20),
    ("DEBUG", 10), ("NOTSET", 0)]

/-- The level that a setting chooses; null chooses the default. -/
def chooseLevel (setting : Json) : Except LevelError Json :=
  let named (name : String) : Except LevelError Json :=
    match Entries.get? levelNumbers name with
    | some number => .ok (.int number)
    | none => .error (.unknownName name)
  match setting with
  | .null => named Settings.logLevel
  | .str name => named name
  | .int number => .ok (.int number)
  | .bool b => .ok (.bool b)
  | _ => .error .notALevel

end Lifecycle
