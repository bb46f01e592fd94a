import Lifecycle.Json.Pairs

/-!
# Contexts

The data that a chart carries: values by key. A context is declared as an object or by pairs, so its
keys need not be texts; they are compared by value. Two contexts are the same when they have equal
values at equal keys, in whatever order. A persisted context is an object again, and so are those
that restoring takes: `Context.ofMembers` reads one, and `Context.toJson` writes one.
-/

namespace Lifecycle

/-- Values by key. -/
abbrev Context := Entries Json Json.Key

namespace Context

/-- The context that the members of an object make. -/
def ofMembers (members : Entries Json) : Context := Json.pairsOf members

/-- The context as an object, with the keys as they are written. -/
def toJson (context : Context) : Json := Json.ofPairs context

/-- Whether two contexts have equal values at equal keys. -/
def same (a b : Context) : Bool :=
  a.length == b.length && a.all fun entry => (Entries.get? b entry.1).any entry.2.same

/-- Overwrites the values at keys that are texts. -/
def assign (context : Context) (updates : Entries Json) : Context :=
  Entries.overlay context (ofMembers updates)

/-- How many keys are no texts. -/
def oddKeys (context : Context) : Nat :=
  (context.filter fun entry => !entry.1.isText).length

/-- An object stays as it is when it is taken as a context and written again. -/
@[simp] theorem toJson_ofMembers (members : Entries Json) :
    toJson (ofMembers members) = .obj members := by
  have hid : (fun member : String × Json => (member.1, member.2)) = id := rfl
  simp [toJson, ofMembers, Json.ofPairs, Json.pairsOf, Function.comp_def, Json.Key.written, hid]

/-- A context whose keys are texts stays as it is when it is written and taken as a context again. -/
theorem ofMembers_written {context : Context} (h : ∀ key ∈ Entries.keys context, key.isText = true) :
    ofMembers (context.map fun entry => (entry.1.written, entry.2)) = context := by
  rw [ofMembers, Json.pairsOf, List.map_map]
  refine (List.map_congr_left fun entry hentry => ?_).trans (List.map_id _)
  obtain ⟨key, value⟩ := entry
  have hkey := h key (List.mem_map_of_mem hentry)
  cases key with
  | text s => rfl
  | _ => cases hkey

end Context

end Lifecycle
