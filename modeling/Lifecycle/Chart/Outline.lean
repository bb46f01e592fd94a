import Lifecycle.Chart.Defect

/-!
# Outlines

The first reading of a declaration: the tree of nodes with their keys, kinds and fields.
`Outline.read` checks each node as it is met, a node before its children, and stops at the first
defect. `Outline.drafts` numbers the nodes in that same order, which is the order of the table.
-/

namespace Lifecycle

/-- A node of a declaration with its children. -/
inductive Outline where
  | node (key : String) (kind : Kind) (fields : List (String × Json)) (children : List Outline)

namespace Outline

/-- The fields that a node may declare. -/
def nodeFields : List String :=
  ["id", "type", "initial", "states", "on", "entry", "exit", "tags", "description", "history",
    "on_done", "context"]

/-- The value of a field, null when it is absent. -/
def field (fields : Entries Json) (name : String) : Json :=
  (Entries.get? fields name).getD .null

/-- Whether a field is absent or null. -/
def absent (fields : Entries Json) (name : String) : Bool := (field fields name).isNull

/-- What a node of a declared kind may not have beside it. -/
def misfit? (fields : Entries Json) (kind : Kind) : Option Defect :=
  let hasStates := (field fields "states").truthy
  if kind = .compound ∧ !hasStates then some .compoundWithoutStates
  else if kind ≠ .compound ∧ hasStates then some (.statesOn kind)
  else if (kind = .final ∨ kind = .history) ∧ (field fields "on").truthy then
    some (.transitionsOn kind)
  else if kind = .history ∧ ((field fields "entry").truthy ∨ (field fields "exit").truthy) then
    some .actionsOnHistory
  else if kind = .history ∧ ((Entries.get? fields "history").getD (.str "shallow")).string?
      ≠ some "shallow" then
    some (.historyDepth (field fields "history"))
  else if kind ≠ .history ∧ !absent fields "history" then some .historyField
  else if kind ≠ .compound ∧ !absent fields "on_done" then some .onDoneField
  else none

/-- The kind of a node. A declared type has to fit the other fields; without one, child states
make a compound node and their absence an atomic one. -/
def kindOf (fields : Entries Json) : Except Defect Kind :=
  if absent fields "type" then
    .ok (if (field fields "states").truthy then .compound else .atomic)
  else
    match (field fields "type").string?.bind Kind.ofWord? with
    | none => .error (.unknownType (field fields "type"))
    | some kind =>
      match misfit? fields kind with
      | some defect => .error defect
      | none => .ok kind

/-- Whether a key can name a node: it is not empty and has no dot and no number sign. -/
def validKey (key : String) : Bool :=
  key != "" && !key.toList.contains '.' && !key.toList.contains '#'

/-- The names of the fields that no node has, sorted. -/
def unknownFields (fields : Entries Json) : List String :=
  Json.sortedDistinct ((Entries.keys fields).filter (fun name => !nodeFields.contains name))

/-- The kind of a node whose key and fields are in order. -/
def check (root : Bool) (key : String) (fields : Entries Json) : Except Defect Kind :=
  if !validKey key then .error (.badKey key)
  else if !(unknownFields fields).isEmpty then .error (.unknownFields (unknownFields fields))
  else match kindOf fields with
    | .error defect => .error defect
    | .ok kind =>
      if root ∧ kind ≠ .compound then .error .rootNotCompound
      else if root ∧ !absent fields "on_done" then .error .rootOnDone
      else .ok kind

mutual

/-- The outline of a node with an id and a key. -/
def read (root : Bool) (id key : String) : Json → Except DefinitionError Outline
  | .obj fields =>
    match check root key fields with
    | .error defect => .error ⟨defect, some id⟩
    | .ok kind => (readStates id fields).map (.node key kind fields)
  | _ => .error ⟨.nodeNotObject, some id⟩

/-- The outlines of the children that the fields of a node declare. -/
def readStates (id : String) : List (String × Json) → Except DefinitionError (List Outline)
  | [] => .ok []
  | (name, value) :: rest => if name = "states" then readChildren id value else readStates id rest

/-- The outlines of the members of an object of child states; what counts as absent declares
none. -/
def readChildren (id : String) : Json → Except DefinitionError (List Outline)
  | .obj members => readMembers id members
  | value =>
    if value.truthy then .error ⟨.unreadable (.noMembers value.kindName), none⟩ else .ok []

/-- The outlines of a list of children, in order. -/
def readMembers (id : String) : List (String × Json) → Except DefinitionError (List Outline)
  | [] => .ok []
  | (key, value) :: rest =>
    match read false (id ++ "." ++ key) key value with
    | .error e => .error e
    | .ok child => (readMembers id rest).map (child :: ·)

end

/-- The key of the top node. -/
def key : Outline → String
  | .node key _ _ _ => key

mutual

/-- How many nodes there are. -/
def size : Outline → Nat
  | .node _ _ _ children => 1 + sizeAll children

/-- How many nodes there are in a list of outlines. -/
def sizeAll : List Outline → Nat
  | [] => 0
  | child :: rest => size child + sizeAll rest

end

/-- The indices of siblings of which the first has the given index. -/
def indices (first : Nat) : List Outline → List Nat
  | [] => []
  | child :: rest => first :: indices (first + child.size) rest

end Outline

/-- A node of the table whose references are not resolved yet. -/
structure Draft where
  index : Nat
  key : String
  id : String
  kind : Kind
  parent : Option Nat
  depth : Nat
  fields : Entries Json
  children : List Nat

namespace Outline

mutual

/-- The drafts of a node and all below it, a node before its children. -/
def drafts (parent : Option Nat) (depth index : Nat) (id : String) : Outline → List Draft
  | .node key kind fields children =>
    ⟨index, key, id, kind, parent, depth, fields, indices (index + 1) children⟩
      :: draftsAll index (depth + 1) (index + 1) id children

/-- The drafts of siblings, each with all below it. -/
def draftsAll (parent depth index : Nat) (parentId : String) : List Outline → List Draft
  | [] => []
  | child :: rest =>
    drafts (some parent) depth index (parentId ++ "." ++ child.key) child
      ++ draftsAll parent depth (index + child.size) parentId rest

end

mutual

/-- There is one draft for each node. -/
theorem length_drafts (parent : Option Nat) (depth index : Nat) (id : String) :
    (o : Outline) → (drafts parent depth index id o).length = o.size
  | .node key kind fields children => by
    simp [drafts, size, length_draftsAll, Nat.add_comm]

theorem length_draftsAll (parent depth index : Nat) (parentId : String) :
    (os : List Outline) → (draftsAll parent depth index parentId os).length = sizeAll os
  | [] => rfl
  | child :: rest => by
    simp [draftsAll, sizeAll, length_drafts, length_draftsAll]

end

end Outline

end Lifecycle
