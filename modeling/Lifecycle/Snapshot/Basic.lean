import Lifecycle.Chart.Action
import Lifecycle.Text.Dotted

/-!
# Snapshots

What an interpreter shows of its state: the keys of the active path from the root, the context, the
history records, the tags of the path and the status. The first three are the persisted layout and
determine what a restored interpreter does.
-/

namespace Lifecycle

/-- The stages of an interpreter's life. -/
inductive Status where
  | notStarted
  | running
  | done
  | stopped
deriving DecidableEq

/-- The word for a status. -/
def Status.word : Status → String
  | .notStarted => "not_started"
  | .running => "running"
  | .done => "done"
  | .stopped => "stopped"

/-- The published state of an interpreter. -/
structure Snapshot where
  path : List String
  context : Context
  /-- For the id of a node with history, the key of the child that was active last. -/
  history : Entries String
  tags : List String
  status : Status
  /-- How many changes the context has seen. -/
  version : Nat

namespace Snapshot

/-- The dotted path below the root. -/
def value (s : Snapshot) : String := Text.dotted (s.path.drop 1)

/-- The last key of the path. -/
def leaf? (s : Snapshot) : Option String := s.path.getLast?

/-- Whether the interpreter had finished. -/
def isDone (s : Snapshot) : Bool := s.status = .done

/-- Whether dotted segments, none for an empty text, begin the path below the root. -/
def pathMatches (path : List String) (value : String) : Bool :=
  let parts := if value = "" then [] else Text.segments value
  (path.drop 1).take parts.length == parts

/-- Whether the segments that a value names begin the path below the root; it is a dotted text, and
what counts as absent names none. -/
def pathCovers (path : List String) (value : Json) : Except Fault Bool :=
  match value with
  | .str text => .ok (pathMatches path text)
  | other => if other.truthy then .error (.notText other.kindName) else .ok true

/-- Whether the path below the root begins with the segments of a dotted text. -/
def covers (s : Snapshot) (value : String) : Bool := pathMatches s.path value

/-- Whether a node of the path carries a tag. -/
def hasTag (s : Snapshot) (tag : String) : Bool := s.tags.contains tag

end Snapshot

end Lifecycle
