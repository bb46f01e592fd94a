import Lifecycle.Entries
import Lifecycle.Decimal.Number

/-!
# JSON values

Declarations, contexts and persisted layouts are JSON values. Objects keep the order of their
members. Two comparisons matter: structural equality, which keeps `1`, `1.0` and `true` apart, and
`Json.same`, which compares numbers and booleans by value and objects without order. Where entries
have keys that are no texts (`Json.Key`), these are compared by value.
-/

namespace Lifecycle

/-- A JSON value; integers and binary64 numbers are different kinds, and objects keep the order of
their members. -/
inductive Json where
  | null
  | bool (b : Bool)
  | int (n : Int)
  | float (x : Double)
  | str (s : String)
  | arr (items : List Json)
  | obj (members : List (String × Json))

namespace Json

/-- How many digits an integer has at most in a text. -/
def digitLimit : Nat := 4300

/-- The least integer with too many digits. -/
def integerBound : Nat := Nat.pow 10 digitLimit

/-- A number as a JSON value. -/
def ofNumber : Number → Json
  | .int n => .int n
  | .float x => .float x

/-- The numeric value, a boolean counting as 0 or 1. -/
def number? : Json → Option Number
  | .bool b => some (.int (if b then 1 else 0))
  | .int n => some (.int n)
  | .float x => some (.float x)
  | _ => none

/-- The text of a string value. -/
def string? : Json → Option String
  | .str s => some s
  | _ => none

/-- The members of an object. -/
def members? : Json → Option (Entries Json)
  | .obj members => some members
  | _ => none

/-- Whether the value is null. -/
def isNull : Json → Bool
  | .null => true
  | _ => false

/-- Whether the value counts as present: null, false, zero and everything empty do not. -/
def truthy : Json → Bool
  | .null => false
  | .bool b => b
  | .int n => n != 0
  | .float x => !x.isZero
  | .str s => s != ""
  | .arr items => !items.isEmpty
  | .obj members => !members.isEmpty

/-- The kind of a value, as messages name it. -/
def kindName : Json → String
  | .null => "NoneType"
  | .bool _ => "bool"
  | .int _ => "int"
  | .float _ => "float"
  | .str _ => "str"
  | .arr _ => "list"
  | .obj _ => "dict"

mutual

/-- How many containers lie inside each other at most. -/
def nesting : Json → Nat
  | .arr items => nestingItems items + 1
  | .obj members => nestingMembers members + 1
  | _ => 0

/-- The nesting of the items of a list. -/
def nestingItems : List Json → Nat
  | [] => 0
  | item :: items => max (nesting item) (nestingItems items)

/-- The nesting of the values of members. -/
def nestingMembers : List (String × Json) → Nat
  | [] => 0
  | (_, value) :: members => max (nesting value) (nestingMembers members)

end

mutual

/-- Equality by value: `false`, `0` and `0.0` are the same, objects are compared without order. -/
def same : Json → Json → Bool
  | .null, other => match other with
    | .null => true
    | _ => false
  | .bool b, other => match other.number? with
    | some y => Number.same (.int (if b then 1 else 0)) y
    | none => false
  | .int n, other => match other.number? with
    | some y => Number.same (.int n) y
    | none => false
  | .float x, other => match other.number? with
    | some y => Number.same (.float x) y
    | none => false
  | .str s, other => match other with
    | .str t => s == t
    | _ => false
  | .arr items, other => match other with
    | .arr others => sameItems items others
    | _ => false
  | .obj members, other => match other with
    | .obj others => members.length == others.length && sameMembers members others
    | _ => false

/-- Equality by value of two lists, item by item. -/
def sameItems : List Json → List Json → Bool
  | [], others => others.isEmpty
  | item :: items, others => match others with
    | [] => false
    | other :: rest => same item other && sameItems items rest

/-- Whether every member has an equal value at its key in the other object. -/
def sameMembers : List (String × Json) → List (String × Json) → Bool
  | [], _ => true
  | (key, value) :: members, others =>
    (match Entries.get? others key with
      | some other => same value other
      | none => false) && sameMembers members others

end

/-- A key: one of the values that hold no others. -/
inductive Key where
  | null
  | bool (b : Bool)
  | int (n : Int)
  | float (x : Double)
  | text (s : String)
deriving DecidableEq

/-- A key as a value. -/
def Key.toJson : Key → Json
  | .null => .null
  | .bool b => .bool b
  | .int n => .int n
  | .float x => .float x
  | .text s => .str s

/-- Keys are the same when they are equal by value, so that `1`, `1.0` and `true` are one key. -/
instance : BEq Key := ⟨fun a b => a.toJson.same b.toJson⟩

/-- Whether a key is a text. -/
def Key.isText : Key → Bool
  | .text _ => true
  | _ => false

/-- A value as a key; lists and objects are none. -/
def key? : Json → Option Key
  | .null => some .null
  | .bool b => some (.bool b)
  | .int n => some (.int n)
  | .float x => some (.float x)
  | .str s => some (.text s)
  | .arr _ => none
  | .obj _ => none

/-- A key is the only one that stands for its value. -/
@[simp] theorem key?_toJson (key : Key) : key.toJson.key? = some key := by
  cases key <;> rfl

/-- Texts are the same key exactly when they are equal. -/
@[simp] theorem Key.text_beq_text (s t : String) : (Key.text s == Key.text t) = (s == t) := by
  simp [BEq.beq, Key.toJson, same]

end Json

end Lifecycle
