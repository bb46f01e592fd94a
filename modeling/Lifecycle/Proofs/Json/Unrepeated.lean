import Lifecycle.Json.Basic

/-!
# Values without repeated keys

An object is the list of its members, and a list may name a key twice. `Json.unrepeated` says that
no object in a value does, at any depth, which is what makes a value a nested mapping.
-/

namespace Lifecycle.Json

mutual

/-- Whether no object in a value has a key twice. -/
def unrepeated : Json → Bool
  | .arr items => unrepeatedItems items
  | .obj members => decide (Entries.keys members).Nodup && unrepeatedMembers members
  | _ => true

/-- Whether no object in the items of a list has a key twice. -/
def unrepeatedItems : List Json → Bool
  | [] => true
  | item :: items => unrepeated item && unrepeatedItems items

/-- Whether no object in the values of members has a key twice. -/
def unrepeatedMembers : List (String × Json) → Bool
  | [] => true
  | (_, value) :: members => unrepeated value && unrepeatedMembers members

end

/-- The keys of the members of an object; other values have none. -/
def memberKeys : Json → List String
  | .obj members => Entries.keys members
  | _ => []

theorem nodup_memberKeys {value : Json} (h : value.unrepeated = true) :
    value.memberKeys.Nodup := by
  cases value with
  | obj members =>
    simp only [unrepeated, Bool.and_eq_true, decide_eq_true_eq] at h
    exact h.1
  | _ => exact List.nodup_nil

theorem unrepeatedMembers_of_obj {members : List (String × Json)}
    (h : (Json.obj members).unrepeated = true) : unrepeatedMembers members = true := by
  simp only [unrepeated, Bool.and_eq_true] at h
  exact h.2

theorem unrepeated_of_get? {members : List (String × Json)} {key : String} {value : Json}
    (h : unrepeatedMembers members = true) (hget : Entries.get? members key = some value) :
    value.unrepeated = true := by
  induction members with
  | nil => cases hget
  | cons member rest ih =>
    simp only [unrepeatedMembers, Bool.and_eq_true] at h
    rw [Entries.get?_cons] at hget
    split at hget
    · exact Option.some.inj hget ▸ h.1
    · exact ih h.2 hget

end Lifecycle.Json
