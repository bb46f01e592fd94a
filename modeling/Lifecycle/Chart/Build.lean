import Lifecycle.Chart.Reference
import Lifecycle.Json.Reader

/-!
# Building charts

The second reading of a declaration. `Chart.define` takes the outline of a declaration, numbers its
nodes, and resolves what each node refers to: its initial child, the targets and the actions of its
transitions, and its entry and exit actions. Nodes are finished in the order of the table, and the
first defect is the answer. `Chart.ofText` reads the declaration from JSON text in which no key may
repeat.
-/

namespace Lifecycle

/-- What the nodes of a declaration are finished against. -/
structure Blueprint where
  machine : String
  table : Array Draft
  registry : Registry
  events : Option (List String)
  context : Context

namespace Blueprint

open Outline (field absent)

/-- The names that a field lists: one name, a list of them, or the keys of an object. -/
def listed : Json → Except Defect (List Json)
  | .str name => .ok [.str name]
  | .arr items => .ok items
  | .obj members => .ok ((Entries.keys members).map .str)
  | .null => .ok []
  | other => .error (.unreadable (.noSequence other.kindName))

variable (plan : Blueprint)

/-- The keys that a transform assigns and the context does not have, sorted. -/
def outside (effect : Transform) : List String :=
  match effect with
  | .assign updates =>
    Json.sortedDistinct
      ((Entries.keys updates).filter fun key => !Entries.has plan.context (.text key))
  | _ => []

/-- The action that a name stands for. -/
def action : Json → Except Defect Action
  | .str name =>
    match Entries.get? plan.registry name with
    | none => .error (.unknownAction name)
    | some effect =>
      if (plan.outside effect).isEmpty then .ok ⟨name, effect⟩
      else .error (.outsideContext name (plan.outside effect))
  | other => .error (.badActionName other)

/-- The actions that a field lists, in order. -/
def actions (names : Json) : Except Defect (List Action) := do
  (← listed names).mapM plan.action

/-- The target that a declared reference means, none for null. -/
def target (draft : Draft) : Json → Except Defect (Option Nat)
  | .null => .ok none
  | .str text =>
    if text = "" then .error (.badReference (.str text))
    else (Reference.resolve plan.machine plan.table draft text).map some
  | other => .error (.badReference other)

/-- The fields that a transition may declare. -/
def transitionFields : List String := ["target", "actions", "description"]

/-- The names of the fields that no transition has, sorted. -/
def unknownFields (fields : Entries Json) : List String :=
  Json.sortedDistinct ((Entries.keys fields).filter (fun name => !transitionFields.contains name))

/-- The transition of a target and actions. -/
def transitionTo (draft : Draft) (event : String) (reference names : Json) :
    Except Defect Transition := do
  let target ← plan.target draft reference
  let actions ← plan.actions names
  return ⟨event, draft.index, target, actions, reference.string?.getD ""⟩

/-- The transition declared for an event: a reference, null, or an object with a target and
actions. -/
def transition (draft : Draft) (event : String) : Json → Except Defect Transition
  | .null => plan.transitionTo draft event .null .null
  | .str text => plan.transitionTo draft event (.str text) .null
  | .obj fields =>
    if (unknownFields fields).isEmpty then
      plan.transitionTo draft event (field fields "target") (field fields "actions")
    else .error (.unknownTransitionFields (unknownFields fields) event)
  | _ => .error (.badTransition event)

/-- The transition of one member of the events of a node; the event is in the vocabulary. -/
def handler (draft : Draft) (member : String × Json) : Except Defect Transition :=
  if plan.events.any (fun events => !events.contains member.1) then
    .error (.unknownEvent member.1)
  else plan.transition draft member.1 member.2

/-- The kind of the draft at an index. -/
def kindAt? (i : Nat) : Option Kind := plan.table[i]?.map Draft.kind

/-- Whether a draft is the ancestor or lies below it. -/
def within (i ancestor : Nat) : Bool :=
  if i = ancestor then true
  else match plan.table[i]?.bind Draft.parent with
    | some p => if p < i then within p ancestor else false
    | none => false
termination_by i

/-- The initial child of a compound draft. -/
def initial (draft : Draft) : Except Defect Nat :=
  match field draft.fields "initial" with
  | .null => .error .noInitial
  | declared =>
    match Reference.childAt? plan.table draft.index declared.display with
    | none => .error (.unknownInitial declared)
    | some child =>
      if plan.kindAt? child = some .history then .error (.historyInitial declared) else .ok child

/-- The initial and the history child of a draft, which only a compound one has. -/
def defaults (draft : Draft) : Except Defect (Option Nat × Option Nat) :=
  if draft.kind = .compound then do
    let initial ← plan.initial draft
    match draft.children.filter (fun c => plan.kindAt? c = some .history) with
    | [] => return (some initial, none)
    | [history] => return (some initial, some history)
    | _ => throw .secondHistory
  else if absent draft.fields "initial" then .ok (none, none)
  else .error .initialField

/-- The transition taken when a final child is entered; it leaves the node. -/
def onDone (draft : Draft) : Except Defect (Option Transition) :=
  if absent draft.fields "on_done" then .ok none
  else do
    let done ← plan.transition draft ("done.state." ++ draft.id) (field draft.fields "on_done")
    match done.target with
    | none => throw .onDoneStays
    | some target =>
      if plan.within target draft.index then throw .onDoneStays else return some done

/-- The text of a tag, which holds no other values. -/
def tagText (tag : Json) : Except Defect String :=
  if tag.key?.isSome then .ok tag.display else .error (.unreadable (.noKey tag.kindName))

/-- The tags that a node declares, each once. -/
def tagsOf (declared : Json) : Except Defect (List String) :=
  if declared.truthy then do
    let tags ← (← listed declared).mapM tagText
    return tags.eraseDups
  else .ok []

/-- The members of an object; what counts as absent has none. -/
def membersOf : Json → Except Defect (Entries Json)
  | .obj members => .ok members
  | value =>
    if value.truthy then .error (.unreadable (.noMembers value.kindName)) else .ok []

/-- The node of a draft. -/
def finish (draft : Draft) : Except Defect Node := do
  let (initial, history) ← plan.defaults draft
  let transitions ← (← membersOf (field draft.fields "on")).mapM (plan.handler draft)
  let done ← plan.onDone draft
  let entry ← plan.actions (field draft.fields "entry")
  let exit ← plan.actions (field draft.fields "exit")
  let tags ← tagsOf (field draft.fields "tags")
  return {
    index := draft.index
    key := draft.key
    id := draft.id
    kind := draft.kind
    parent := draft.parent
    depth := draft.depth
    children := draft.children
    initial := initial
    history := history
    transitions := transitions
    onDone := done
    entry := entry
    exit := exit
    tags := tags
    description := ((Entries.get? draft.fields "description").getD (.str "")).display }

/-- The nodes of drafts, in order. -/
def finishAll : List Draft → Except DefinitionError (List Node)
  | [] => .ok []
  | draft :: rest =>
    match plan.finish draft with
    | .error defect => .error ⟨defect, some draft.id⟩
    | .ok node => (finishAll rest).map (node :: ·)

end Blueprint

namespace Chart

open Outline (field)

/-- The machine id that a declaration gives. -/
def machineId (fields : Entries Json) : String :=
  let declared := field fields "id"
  if declared.truthy then declared.display else "machine"

/-- The context that a declaration gives, as an object or by pairs; what counts as absent is an
empty one. -/
def contextOf (declared : Json) : Except Json.Flaw Context :=
  if declared.truthy then declared.asPairs else .ok []

/-- The chart that a declaration describes. -/
def define (registry : Registry) (events : Option (List String)) (declaration : Json) :
    Except DefinitionError Chart :=
  match declaration with
  | .obj fields =>
    let machine := machineId fields
    match contextOf (field fields "context") with
    | .error cause => .error ⟨.unreadable cause, none⟩
    | .ok context =>
      if (field fields "states").truthy then do
        let outline ← Outline.read true machine machine declaration
        let drafts := Outline.drafts none 0 0 machine outline
        let plan : Blueprint := ⟨machine, drafts.toArray, registry, events, context⟩
        let nodes ← plan.finishAll drafts
        return ⟨machine, nodes.toArray, context, events⟩
      else .error ⟨.rootWithoutStates, some machine⟩
  | _ => .error ⟨.chartNotObject, none⟩

/-- The chart that a JSON text describes. -/
def ofText (registry : Registry) (events : Option (List String)) (text : String) :
    Except DefinitionError Chart :=
  match Json.parse .refuse text with
  | .ok declaration => define registry events declaration
  | .error .malformed => .error ⟨.malformedText, none⟩
  | .error (.repeatedKey key) => .error ⟨.repeatedKey key, none⟩
  | .error (.excess excess) => .error ⟨.textExcess excess, none⟩

end Chart

end Lifecycle
