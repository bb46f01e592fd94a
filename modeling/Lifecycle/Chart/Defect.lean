import Lifecycle.Chart.Basic
import Lifecycle.Json.Pairs
import Lifecycle.Json.Reader

/-!
# Defects of declarations

Why a declaration is no chart. Each constructor of `Defect` is a cause; its wording is
`Defect.message`, and `DefinitionError.message` puts the id of the offending node in front of it.
-/

namespace Lifecycle

/-- What is wrong with a declaration. -/
inductive Defect where
  | malformedText
  /-- The text goes beyond the limits of reading. -/
  | textExcess (excess : Json.Excess)
  | repeatedKey (key : String)
  | chartNotObject
  /-- A value does not do as pairs, items or members. -/
  | unreadable (cause : Json.Flaw)
  | rootWithoutStates
  | nodeNotObject
  | badKey (key : String)
  | unknownFields (fields : List String)
  | rootNotCompound
  | rootOnDone
  | unknownType (declared : Json)
  | compoundWithoutStates
  | statesOn (kind : Kind)
  | transitionsOn (kind : Kind)
  | actionsOnHistory
  | historyDepth (declared : Json)
  | historyField
  | onDoneField
  | initialField
  | noInitial
  | unknownInitial (declared : Json)
  | historyInitial (declared : Json)
  | secondHistory
  | unknownEvent (event : String)
  | unknownTransitionFields (fields : List String) (event : String)
  | badTransition (event : String)
  | badReference (declared : Json)
  | otherMachine (reference : String)
  | dangling (reference : String)
  | rootReference (reference : String)
  | onDoneStays
  | badActionName (declared : Json)
  | unknownAction (name : String)
  | outsideContext (action : String) (keys : List String)

/-- The wording of a defect. -/
def Defect.message : Defect → String
  | .malformedText => "invalid chart JSON"
  | .textExcess excess => excess.message
  | .repeatedKey key => "duplicate key " ++ Json.quoted key
  | .chartNotObject => "chart definition must be a mapping"
  | .unreadable cause => cause.message
  | .rootWithoutStates => "root must declare child states"
  | .nodeNotObject => "node definition must be a mapping"
  | .badKey key => "invalid node key " ++ Json.quoted key
  | .unknownFields fields => "unknown node fields " ++ Json.quotedList fields
  | .rootNotCompound => "root must be a compound node"
  | .rootOnDone => "'on_done' is not valid on the root"
  | .unknownType declared => "unknown node type " ++ declared.literal
  | .compoundWithoutStates => "compound node without child states"
  | .statesOn kind => kind.word ++ " node cannot have child states"
  | .transitionsOn kind => kind.word ++ " node cannot have transitions"
  | .actionsOnHistory => "history node cannot have actions"
  | .historyDepth declared => "unsupported history depth " ++ declared.literal
  | .historyField => "'history' is only valid on history nodes"
  | .onDoneField => "'on_done' is only valid on compound nodes"
  | .initialField => "'initial' is only valid on compound nodes"
  | .noInitial => "compound node without an initial child"
  | .unknownInitial declared => "initial child " ++ declared.literal ++ " does not exist"
  | .historyInitial declared => "initial child " ++ declared.literal ++ " is a history node"
  | .secondHistory => "more than one history node"
  | .unknownEvent event => "event " ++ Json.quoted event ++ " is not in the event vocabulary"
  | .unknownTransitionFields fields event =>
    "unknown transition fields " ++ Json.quotedList fields ++ " on " ++ Json.quoted event
  | .badTransition event => "invalid transition for " ++ Json.quoted event
  | .badReference declared => "invalid target reference " ++ declared.literal
  | .otherMachine reference =>
    "dangling target " ++ Json.quoted reference ++ " (unknown machine id)"
  | .dangling reference => "dangling target " ++ Json.quoted reference
  | .rootReference reference => "target " ++ Json.quoted reference ++ " refers to the root"
  | .onDoneStays => "'on_done' must leave the node it is declared on"
  | .badActionName declared => "action reference must be a name, got " ++ declared.literal
  | .unknownAction name => "unknown action " ++ Json.quoted name
  | .outsideContext action keys =>
    "action " ++ Json.quoted action ++ " assigns keys outside the context: "
      ++ Json.quotedList keys

/-- A defect, and the id of the node it was found at, when there is one. -/
structure DefinitionError where
  defect : Defect
  path : Option String

/-- The defect, after the id of its node. -/
def DefinitionError.message (e : DefinitionError) : String :=
  match e.path with
  | none => e.defect.message
  | some path => if path = "" then e.defect.message else path ++ ": " ++ e.defect.message

end Lifecycle
