import Lifecycle.Json.Writer
import Lifecycle.Sorting

/-!
# Objects from pairs

An object may also be given as a sequence of pairs of a key and a value; a text of two characters
and an object of two members stand for pairs, too. Equal keys are one. `Json.asPairs` reads the
pairs and `Json.ofPairs` makes them an object. In the canonical text the pairs stand in the order of
their keys, which have to be of one order: all texts, or all numbers. Of several keys without an
order those are named that are compared first.
-/

namespace Lifecycle.Json

/-- Why a value does not do as an object, or not as one to write. -/
inductive Flaw where
  /-- A value of this kind is no sequence. -/
  | noSequence (kind : String)
  /-- A value of this kind has no members. -/
  | noMembers (kind : String)
  /-- The item at this position is no sequence. -/
  | noItems (position : Nat)
  /-- The item at this position has another length than a pair. -/
  | otherLength (position length : Nat)
  /-- A value of this kind is no key. -/
  | noKey (kind : String)
  /-- Keys of these kinds have no order. -/
  | noOrder (left right : String)
  /-- An integer has too many digits to be written. -/
  | longInteger
  /-- Containers lie too deep inside each other to be written. -/
  | deepNesting
deriving DecidableEq

/-- The wording of a flaw. -/
def Flaw.message : Flaw → String
  | noSequence kind => "'" ++ kind ++ "' object is not iterable"
  | noMembers kind => "'" ++ kind ++ "' object has no attribute 'items'"
  | noItems position =>
    "cannot convert dictionary update sequence element #" ++ toString position ++ " to a sequence"
  | otherLength position length =>
    "dictionary update sequence element #" ++ toString position ++ " has length "
      ++ toString length ++ "; 2 is required"
  | noKey kind => "unhashable type: '" ++ kind ++ "'"
  | noOrder left right =>
    "'<' not supported between instances of '" ++ left ++ "' and '" ++ right ++ "'"
  | longInteger =>
    "Exceeds the limit (" ++ toString digitLimit ++ " digits) for integer string conversion; "
      ++ "use sys.set_int_max_str_digits() to increase the limit"
  | deepNesting => "maximum recursion depth exceeded while encoding a JSON object"

/-! ## Reading pairs -/

/-- The key and the value that an item of a sequence stands for. -/
def pair? : Json → Option (Json × Json)
  | .arr [key, value] => some (key, value)
  | .str text => match text.toList with
    | [a, b] => some (.str (String.ofList [a]), .str (String.ofList [b]))
    | _ => none
  | .obj [(first, _), (second, _)] => some (.str first, .str second)
  | _ => none

/-- How many items a sequence has; other values are no sequences. -/
def count? : Json → Option Nat
  | .arr items => some items.length
  | .str text => some text.length
  | .obj members => some members.length
  | _ => none

/-- The pairs that the items of a sequence describe, after those that were read; else why they do
not. -/
def readPairs (position : Nat) (pairs : Entries Json Key) :
    List Json → Except Flaw (Entries Json Key)
  | [] => .ok pairs
  | item :: rest =>
    match item.pair?, item.count? with
    | some (key, value), _ =>
      match key.key? with
      | some k => readPairs (position + 1) (Entries.set pairs k value) rest
      | none => .error (.noKey key.kindName)
    | none, some length => .error (.otherLength position length)
    | none, none => .error (.noItems position)

/-- The members of an object as pairs. -/
def pairsOf (members : Entries Json) : Entries Json Key :=
  members.map fun member => (.text member.1, member.2)

/-- The pairs of keys and values that a value has or describes; else why it has none. -/
def asPairs : Json → Except Flaw (Entries Json Key)
  | .obj members => .ok (pairsOf members)
  | .arr items => readPairs 0 [] items
  | .str text => readPairs 0 [] (text.toList.map fun c => .str (String.ofList [c]))
  | other => .error (.noSequence other.kindName)

/-- The object of pairs, with the keys as they are written. -/
def ofPairs (pairs : Entries Json Key) : Json :=
  .obj (pairs.map fun pair => (pair.1.written, pair.2))

/-- The different keys that the items of a sequence are. -/
def keysOf : Json → Except Flaw (List Key)
  | .obj members => .ok ((Entries.keys members).map .text)
  | .str text => .ok (text.toList.map fun c => Key.text (String.ofList [c])).eraseDups
  | .arr items => (items.mapM itemKey).map List.eraseDups
  | other => .error (.noSequence other.kindName)
where
  /-- An item as a key. -/
  itemKey (item : Json) : Except Flaw Key :=
    match item.key? with
    | some key => .ok key
    | none => .error (.noKey item.kindName)

/-! ## The order of keys -/

/-- Whether a key comes before another; else why they have no order. -/
def Key.before : Key → Key → Except Flaw Bool
  | .text s, .text t => .ok (decide (s < t))
  | a, b => match a.toJson.number?, b.toJson.number? with
    | some x, some y => .ok (x.below y)
    | _, _ => .error (.noOrder a.toJson.kindName b.toJson.kindName)

/-- Entries in the order of their keys. -/
def sortEntries {α : Type} (entries : Entries α Key) : Except Flaw (Entries α Key) :=
  if entries.all fun entry => entry.1.isText then
    .ok (entries.mergeSort fun a b => !(decide (b.1.written < a.1.written)))
  else Sorting.sort (fun a b => a.1.before b.1) entries

/-- The canonical text of pairs as an object at a depth. -/
def pairsText (depth : Nat) (pairs : Entries Json Key) : Except Flaw String := do
  let sorted ← sortEntries pairs
  if sorted.all fun pair => pair.2.isWritable then
    return Style.canonical.object depth
      (sorted.map fun pair => (pair.1.written, write .canonical (depth + 1) pair.2))
  else throw .longInteger

/-- The pairs of an object describe it. -/
theorem asPairs_obj (members : Entries Json) :
    (asPairs (.obj members)).map ofPairs = .ok (.obj members) := by
  have hid : (fun member : String × Json => (member.1, member.2)) = id := rfl
  simp [asPairs, pairsOf, ofPairs, Except.map, Function.comp_def, Key.written, hid]

end Lifecycle.Json
