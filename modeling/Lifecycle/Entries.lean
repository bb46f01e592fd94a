/-!
# Insertion-ordered entries

A finite map, kept as the list of its entries in the order in which the keys first arrived. Writing
to a key that is present changes the value where it stands; a new key goes to the end. Keys are
compared by `==`, and a key keeps the form in which it arrived first. `Entries.get?_set` is the law
by which later modules read a map after a write.
-/

namespace Lifecycle

/-- Entries in the order in which their keys first arrived; keys are texts where nothing else is
said. -/
abbrev Entries (α : Type) (κ : Type := String) := List (κ × α)

namespace Entries

variable {α κ : Type} [BEq κ]

/-- The value at a key: that of the first entry with the key. -/
def get? (m : Entries α κ) (key : κ) : Option α :=
  match m with
  | [] => none
  | (k, v) :: rest => if k == key then some v else get? rest key

/-- Whether some entry has the key. -/
def has (m : Entries α κ) (key : κ) : Bool :=
  (get? m key).isSome

omit [BEq κ] in
/-- The keys in order. -/
def keys (m : Entries α κ) : List κ :=
  m.map Prod.fst

/-- Writes a value: in place when the key is present, at the end when it is not. -/
def set (m : Entries α κ) (key : κ) (value : α) : Entries α κ :=
  match m with
  | [] => [(key, value)]
  | (k, v) :: rest => if k == key then (k, value) :: rest else (k, v) :: set rest key value

/-- Writes every entry of `updates`, in order. -/
def overlay (m updates : Entries α κ) : Entries α κ :=
  updates.foldl (fun acc entry => set acc entry.1 entry.2) m

/-- Removes the entries at a key. -/
def erase (m : Entries α κ) (key : κ) : Entries α κ :=
  m.filter (fun entry => !(entry.1 == key))

/-- The map with the entries of a list, a repeated key keeping its first place and its last
value. -/
def ofList (entries : List (κ × α)) : Entries α κ :=
  overlay [] entries

@[simp] theorem get?_nil (key : κ) : get? ([] : Entries α κ) key = none := rfl

theorem get?_cons (k key : κ) (v : α) (rest : Entries α κ) :
    get? ((k, v) :: rest) key = if k == key then some v else get? rest key := rfl

/-- A read after a write sees the written value at its key and the old values elsewhere. -/
theorem get?_set [PartialEquivBEq κ] (m : Entries α κ) (key other : κ) (value : α) :
    get? (set m key value) other = if key == other then some value else get? m other := by
  induction m with
  | nil => rfl
  | cons entry rest ih =>
    obtain ⟨k, v⟩ := entry
    by_cases hk : (k == key) = true
    · have hkey : (k == other) = (key == other) := BEq.congr_left hk
      by_cases ho : (key == other) = true <;> simp [set, get?_cons, hk, hkey, ho]
    · by_cases ho : (k == other) = true
      · have hne : ¬ (key == other) = true :=
          fun h => hk (PartialEquivBEq.trans ho (PartialEquivBEq.symm h))
        simp [set, get?_cons, hk, ho, hne]
      · simp [set, get?_cons, hk, ho, ih]

/-- A write keeps the keys and their order, and adds a new key at the end. -/
theorem keys_set [LawfulBEq κ] (m : Entries α κ) (key : κ) (value : α) :
    keys (set m key value) = if key ∈ keys m then keys m else keys m ++ [key] := by
  induction m with
  | nil => simp [set, keys]
  | cons entry rest ih =>
    obtain ⟨k, v⟩ := entry
    by_cases hk : k = key
    · subst hk
      simp [set, keys]
    · have ih' : List.map Prod.fst (set rest key value)
          = if key ∈ List.map Prod.fst rest then List.map Prod.fst rest
            else List.map Prod.fst rest ++ [key] := ih
      by_cases hm : key ∈ List.map Prod.fst rest
      · simp [set, keys, hk, ih', hm]
      · simp [set, keys, hk, ih', hm, Ne.symm hk]

/-- A key has a value exactly when it is among the keys. -/
theorem get?_isSome_iff [LawfulBEq κ] (m : Entries α κ) (key : κ) :
    (get? m key).isSome ↔ key ∈ keys m := by
  induction m with
  | nil => simp [keys]
  | cons entry rest ih =>
    obtain ⟨k, v⟩ := entry
    by_cases hk : k = key
    · simp [get?_cons, keys, hk]
    · simpa [get?_cons, keys, hk, Ne.symm hk] using ih

end Entries

end Lifecycle
