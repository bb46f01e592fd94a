import Lifecycle.Interpreter.Basic
import Lifecycle.Snapshot.Layout

/-!
# Creating and restoring interpreters

A context fits a chart when it uses only the keys of the chart's schema, with values of the kinds of
their defaults; missing keys take the defaults. A persisted layout fits when its path leads from the
root to a leaf, its history names children of nodes that have history, and its context fits. Neither
runs an action.
-/

namespace Lifecycle

namespace Chart

variable (chart : Chart)

/-- Whether a value is of the kind of a default; a null default takes every kind, and a boolean is
an integer too. -/
def fitsKind (default value : Json) : Bool :=
  match default, value with
  | .null, _ => true
  | .int _, .bool _ => true
  | _, _ => default.kindName == value.kindName

/-- Refuses a context with a value that is not of the kind of its default. -/
def checkKinds : Context → Except Corruption Unit
  | [] => .ok ()
  | (key, value) :: rest =>
    let default := (Entries.get? chart.context key).getD .null
    if fitsKind default value then checkKinds rest
    else .error (.wrongKind key default.kindName value.kindName)

/-- Refuses keys that the schema does not have. -/
def checkKeys (keys : List Json.Key) : Except Corruption Unit :=
  let unknown := keys.filter fun key => !Entries.has chart.context key
  if unknown.isEmpty then .ok ()
  else match Json.sortEntries (unknown.map (·, ())) with
    | .ok sorted => .error (.unknownKeys (Entries.keys sorted))
    | .error cause => .error (.flawed cause)

/-- A context over the defaults of the schema, if it fits. -/
def fitContext (context : Context) : Except Corruption Context := do
  chart.checkKeys (Entries.keys context)
  chart.checkKinds context
  return Entries.overlay chart.context context

/-- A value that is given as a context over the defaults of the schema. What counts as absent gives
nothing; a value that is no object never fits, but its keys are looked at first. -/
def fitGiven (given : Json) : Except Corruption Context :=
  match given with
  | .obj members => chart.fitContext (Context.ofMembers members)
  | _ =>
    if !given.truthy then chart.fitContext []
    else match given.keysOf with
      | .error cause => .error (.flawed cause)
      | .ok keys => do
        chart.checkKeys keys
        throw (.flawed (.noMembers given.kindName))

/-- The id of the node at an index. -/
def idAt (i : Nat) : String := ((chart.node? i).map Node.id).getD ""

/-- The child of a node with a key, unless it is a history node. -/
def stateChild? (parent : Nat) (key : Json) : Option Nat :=
  match key.string?.bind (chart.child? parent) with
  | some child => if chart.isHistory child then none else some child
  | none => none

/-- The node reached from another along keys. -/
def walk (i : Nat) : List Json → Except Corruption Nat
  | [] => .ok i
  | key :: rest =>
    match chart.stateChild? i key with
    | some child => walk child rest
    | none => .error (.notBelow key (chart.idAt i))

/-- The leaf that an active path leads to. -/
def leafOf (path : Json) : Except Corruption Nat :=
  match path with
  | .arr (first :: rest) =>
    if first.string? = some (chart.keyAt 0) then do
      let leaf ← chart.walk 0 rest
      if (chart.kindAt? leaf).any Kind.isLeaf then return leaf
      else throw (.endsInside (chart.idAt leaf))
    else .error (.otherRoot first (chart.keyAt 0))
  | _ => .error .noPath

/-- History records, if each names a child of a node that has history. -/
def fitHistory : List (String × Json) → Except Corruption (Entries String)
  | [] => .ok []
  | (id, key) :: rest =>
    match (chart.find? id).filter fun n => n.history.isSome with
    | none => .error (.noHistory id)
    | some n =>
      match chart.stateChild? n.index key with
      | none => .error (.unknownChild id key)
      | some _ => (fitHistory rest).map ((id, key.display) :: ·)

end Chart

namespace Interpreter

/-- A run of a chart that has not begun, with a context over the chart's defaults. -/
def create (chart : Chart) (context : Json) (name : Option String) :
    Except Corruption Interpreter :=
  (chart.fitGiven context).map fun fitted => fresh chart fitted name

/-- The members of a field that may be absent or null; any other value is refused. -/
def objectField (layout : Entries Json) (name : String) : Except Corruption (Entries Json) :=
  match Entries.get? layout name with
  | none | some .null => .ok []
  | some (.obj members) => .ok members
  | some _ => .error (.fieldNotObject name)

/-- The run that an active path, history records and a context describe. -/
def resume (chart : Chart) (path : Json) (history : Entries Json) (context : Context)
    (name : Option String) : Except Corruption Interpreter := do
  let leaf ← chart.leafOf path
  let history ← chart.fitHistory history
  let context ← chart.fitContext context
  let status :=
    if chart.kindAt? leaf = some .final ∧ (chart.doneTransition? leaf).isNone then Status.done
    else Status.running
  return { fresh chart context name with
    leaf := some leaf
    history := history
    status := status }.publish

/-- The run that a persisted value describes. -/
def restore (chart : Chart) (value : Json) (name : Option String) :
    Except Corruption Interpreter :=
  match value with
  | .obj fields => do
    let history ← objectField fields "history"
    let context ← objectField fields "context"
    resume chart ((Entries.get? fields "active_path").getD .null) history
      (Context.ofMembers context) name
  | _ => .error .notObject

/-- The run that a layout describes. -/
def ofLayout (chart : Chart) (layout : Layout) (name : Option String) :
    Except Corruption Interpreter :=
  resume chart layout.pathJson layout.historyMembers layout.context name

/-- What a restored run reports. -/
def restoredSignals (m : Interpreter) : List Signal :=
  [.log (.restored m.name m.observe.value)]

end Interpreter

end Lifecycle
