import Lifecycle.Json.Lenient
import Lifecycle.Snapshot.Basic
import Lifecycle.Snapshot.Corruption

/-!
# Persisted layouts

A layout is an object with a path of at least one key, and optionally a context and history records.
`Layout.errors` counts everything that is wrong with a value, and `Layout.check` takes over one
with which nothing is.
-/

namespace Lifecycle

/-- A persisted layout. -/
structure Layout where
  path : List String
  context : Context
  history : Entries String

namespace Layout

/-- The active path as a value. -/
def pathJson (layout : Layout) : Json := .arr (layout.path.map .str)

/-- The history records with values. -/
def historyMembers (layout : Layout) : Entries Json :=
  layout.history.map fun entry => (entry.1, .str entry.2)

/-- The layout as an object. -/
def toJson (layout : Layout) : Json :=
  .obj [("active_path", layout.pathJson), ("context", layout.context.toJson),
    ("history", .obj layout.historyMembers)]

/-- The canonical text of a layout at a depth; keys of its context that have no order have none. -/
def canonicalText (depth : Nat) (layout : Layout) : Except Json.Flaw String := do
  let context ← Json.pairsText (depth + 1) layout.context
  return Json.Style.canonical.object depth
    [("active_path", Json.write .canonical (depth + 1) layout.pathJson), ("context", context),
      ("history", Json.write .canonical (depth + 1) (.obj layout.historyMembers))]

/-- How many of the values are no strings. -/
def nonStrings (values : List Json) : Nat :=
  (values.filter fun value => value.string?.isNone).length

/-- What is wrong with the path: it is missing or no list, it is empty, or items are no strings. -/
def pathErrors : Option Json → Nat
  | some (.arr []) => 1
  | some (.arr items) => nonStrings items
  | _ => 1

/-- What is wrong with the context. -/
def contextErrors : Option Json → Nat
  | none => 0
  | some (.obj _) => 0
  | some _ => 1

/-- What is wrong with the history records. -/
def historyErrors : Option Json → Nat
  | none => 0
  | some (.obj members) => nonStrings (members.map Prod.snd)
  | some _ => 1

/-- How many of the fields are not among the known ones. -/
def extraFields (known : List String) (fields : Entries Json) : Nat :=
  ((Entries.keys fields).filter fun name => !known.contains name).length

/-- Everything that is wrong with a value as a layout. -/
def errors : Json → Nat
  | .obj fields =>
    pathErrors (Entries.get? fields "active_path") + contextErrors (Entries.get? fields "context")
      + historyErrors (Entries.get? fields "history")
      + extraFields ["active_path", "context", "history"] fields
  | _ => 1

/-- The strings among values. -/
def strings (values : List Json) : List String := values.filterMap Json.string?

/-- The fields of a value as a layout. -/
def ofFields (fields : Entries Json) : Layout :=
  { path := match Entries.get? fields "active_path" with
      | some (.arr items) => strings items
      | _ => []
    context := Context.ofMembers (((Entries.get? fields "context").bind Json.members?).getD [])
    history := (((Entries.get? fields "history").bind Json.members?).getD []).filterMap
      fun member => member.2.string?.map (member.1, ·) }

/-- The layout that a value describes. -/
def ofJson (value : Json) : Layout := ofFields (value.members?.getD [])

/-- What is wrong with a layout that was not read from an object: its path is empty, or keys of its
context are no texts. -/
def oddities (layout : Layout) : Nat :=
  (if layout.path.isEmpty then 1 else 0) + layout.context.oddKeys

/-- The layout that a value describes, if nothing is wrong with it. -/
def check (value : Json) : Except Corruption Layout :=
  if errors value = 0 then .ok (ofJson value) else .error (.badLayout (errors value))

end Layout

/-- The layout of a snapshot. -/
def Snapshot.layout (s : Snapshot) : Layout := ⟨s.path, s.context, s.history⟩

end Lifecycle
