import Lifecycle.Chart.Outline
import Lifecycle.Text.Dotted

/-!
# References between nodes

A transition names its target in one of three forms: from the root (`#machine.a.b`), below the
declaring node (`.a.b`), or beside it (`a.b`, below its parent). `Reference.resolve` walks the path
from the base of the form, key by key, and never ends at the root.
-/

namespace Lifecycle

/-- A target as it is declared: the base of the form and the keys below it. -/
inductive Reference where
  | fromRoot (machine : String) (path : List String)
  | below (path : List String)
  | beside (path : List String)

namespace Reference

/-- The keys of a dotted path, none for an empty text. -/
def keys (path : List Char) : List String :=
  if path.isEmpty then [] else (Text.splitDots path).map String.ofList

/-- The reference that a text denotes. -/
def ofText (text : String) : Reference :=
  match text.toList with
  | '#' :: rest =>
    .fromRoot (String.ofList (rest.takeWhile (· != '.')))
      (keys ((rest.dropWhile (· != '.')).drop 1))
  | '.' :: rest => .below (keys rest)
  | rest => .beside (keys rest)

/-- The child with a key of the draft at an index. -/
def childAt? (table : Array Draft) (parent : Nat) (key : String) : Option Nat :=
  match table[parent]? with
  | some draft => draft.children.find? fun c => table[c]?.any (fun child => child.key == key)
  | none => none

/-- The draft reached from another along keys. -/
def walk? (table : Array Draft) (start : Nat) : List String → Option Nat
  | [] => some start
  | key :: rest =>
    match childAt? table start key with
    | some child => walk? table child rest
    | none => none

/-- The node that a reference written on a node means. -/
def resolve (machine : String) (table : Array Draft) (draft : Draft) (text : String) :
    Except Defect Nat :=
  let target : Except Defect (Option Nat) := match ofText text with
    | .fromRoot name path =>
      if name = machine then .ok (walk? table 0 path) else .error (.otherMachine text)
    | .below path => .ok (walk? table draft.index path)
    | .beside path => .ok (walk? table (draft.parent.getD draft.index) path)
  match target with
  | .error defect => .error defect
  | .ok none => .error (.dangling text)
  | .ok (some index) => if index = 0 then .error (.rootReference text) else .ok index

theorem walk?_append (table : Array Draft) (start : Nat) (first second : List String) :
    walk? table start (first ++ second) =
      (walk? table start first).bind fun middle => walk? table middle second := by
  induction first generalizing start with
  | nil => rfl
  | cons key rest ih =>
    simp only [List.cons_append, walk?]
    cases childAt? table start key with
    | none => rfl
    | some child => exact ih child

end Reference

end Lifecycle
