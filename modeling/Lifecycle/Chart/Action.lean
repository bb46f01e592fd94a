import Lifecycle.Context
import Lifecycle.Fault

/-!
# Actions

An action transforms a context or fails. `Transform.assign` overwrites a fixed set of keys, and is
the one kind whose keys are known before it runs, so a chart checks them against its schema;
`Transform.custom` is any function. A registry maps names to transforms.
-/

namespace Lifecycle

/-- What an action does to the context. -/
inductive Transform where
  /-- Overwrites these keys. -/
  | assign (updates : Entries Json)
  /-- Leaves the context as it is. -/
  | keep
  /-- Any function of the context. -/
  | custom (run : Context → Except Fault Context)

/-- The sum of two values: of numbers by value, of texts and of lists by joining. -/
def Json.plus (a b : Json) : Except Fault Json :=
  match a, b with
  | .str s, .str t => .ok (.str (s ++ t))
  | .arr xs, .arr ys => .ok (.arr (xs ++ ys))
  | a, b => match a.number?, b.number? with
    | some x, some y => match x.add? y with
      | some sum => .ok (Json.ofNumber sum)
      | none => .error .beyondDouble
    | _, _ => .error (.noSum a.kindName b.kindName)

namespace Transform

/-- The context after the action. -/
def apply : Transform → Context → Except Fault Context
  | .assign updates, context => .ok (context.assign updates)
  | .keep, context => .ok context
  | .custom run, context => run context

/-- The key that stands for the assignment itself. -/
def selfKey : String := "self"

/-- The transform that overwrites these keys; the key for the assignment itself is not free. -/
def assigning (updates : Entries Json) : Except Fault Transform :=
  if Entries.has updates selfKey then .error (.reservedKey selfKey) else .ok (.assign updates)

/-- Overwrites keys without being checked against a schema. -/
def put (updates : Entries Json) : Transform :=
  .custom fun context => .ok (context.assign updates)

/-- Changes a context at a key; a value that is no key is refused whenever the action runs. -/
def atKey (key : Json) (change : Json.Key → Context → Except Fault Context) : Transform :=
  match key.key? with
  | some k => .custom (change k)
  | none => .custom fun _ => .error (.flawed (.noKey key.kindName))

/-- Adds a value to the one at a key, which has to be there. -/
def addTo (key value : Json) : Transform :=
  atKey key fun k context =>
    match Entries.get? context k with
    | none => .error (.missingKey k)
    | some old => (old.plus value).map (Entries.set context k)

/-- Removes a key; without effect when it is absent. -/
def remove (key : Json) : Transform :=
  atKey key fun k context => .ok (Entries.erase context k)

/-- Gives up with a text. -/
def fail (text : String) : Transform :=
  .custom fun _ => .error (.raised text)

/-- How an assignment is written. -/
def assignText (updates : Entries Json) : String :=
  "assign(" ++ String.intercalate ", "
    (updates.map fun update => update.1 ++ "=" ++ update.2.literal) ++ ")"

end Transform

/-- A transform under the name by which charts refer to it. -/
structure Action where
  name : String
  effect : Transform

/-- Whether an action leaves every context as it is. -/
def Action.isIdle (action : Action) : Bool :=
  match action.effect with
  | .keep => true
  | _ => false

/-- Runs actions one after the other. -/
def Action.runAll : List Action → Context → Except Fault Context
  | [], context => .ok context
  | action :: rest, context =>
    match action.effect.apply context with
    | .ok next => runAll rest next
    | .error fault => .error fault

/-- Transforms by name. -/
abbrev Registry := Entries Transform

namespace Registry

/-- Adds a transform, replacing one of the same name; the name is not empty. -/
def register (registry : Registry) (name : String) (effect : Transform) :
    Except Fault Registry :=
  if name = "" then .error (.raised "action name must be non-empty")
  else .ok (Entries.set registry name effect)

/-- The action of a name. -/
def resolve (registry : Registry) (name : String) : Except Fault Action :=
  match Entries.get? registry name with
  | some effect => .ok ⟨name, effect⟩
  | none => .error (.missingKey (.text name))

end Registry

theorem Action.runAll_append (first second : List Action) (context : Context) :
    runAll (first ++ second) context =
      match runAll first context with
      | .ok next => runAll second next
      | .error fault => .error fault := by
  induction first generalizing context with
  | nil => rfl
  | cons action rest ih =>
    simp only [List.cons_append, runAll]
    cases action.effect.apply context with
    | ok next => exact ih next
    | error fault => rfl

end Lifecycle
