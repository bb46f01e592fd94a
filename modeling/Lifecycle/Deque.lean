/-!
# Double-ended lines

A line of items that grows at one end and is served at the other. The items are kept in two lists,
so that both ends are at hand, together with their number; `Deque.toList` is the line as one list,
the oldest item first, and every operation is told by what it does to that list.
-/

namespace Lifecycle

/-- Items in a line. -/
structure Deque (α : Type) where
  /-- The older items, the oldest first. -/
  front : List α
  /-- The newer items, the newest first. -/
  back : List α
  size : Nat
  size_eq : size = front.length + back.length

namespace Deque

variable {α : Type}

/-- The items, the oldest first. -/
def toList (d : Deque α) : List α := d.front ++ d.back.reverse

/-- The line of the items of a list. -/
def ofList (items : List α) : Deque α := ⟨items, [], items.length, rfl⟩

/-- No items. -/
def empty : Deque α := ofList []

/-- One more item behind all others. -/
def push (d : Deque α) (item : α) : Deque α :=
  ⟨d.front, item :: d.back, d.size + 1, by simp [d.size_eq, Nat.add_assoc]⟩

/-- The oldest item, and the line without it. -/
def pop? (d : Deque α) : Option (α × Deque α) :=
  match h : d.front with
  | item :: rest =>
    some (item, ⟨rest, d.back, d.size - 1, by simp [d.size_eq, h, Nat.add_right_comm]⟩)
  | [] =>
    match d.back.reverse with
    | item :: rest => some (item, ofList rest)
    | [] => none

/-- A list without the first of its items that is not spared, if there is one. -/
def dropUnless? (spared : α → Bool) : List α → Option (List α)
  | [] => none
  | item :: rest =>
    if spared item then (dropUnless? spared rest).map (item :: ·) else some rest

/-- A drop takes exactly one item. -/
theorem length_of_dropUnless? {spared : α → Bool} {items kept : List α}
    (h : dropUnless? spared items = some kept) : kept.length + 1 = items.length := by
  induction items generalizing kept with
  | nil => cases h
  | cons item rest ih =>
    unfold dropUnless? at h
    split at h
    · obtain ⟨kept', hk, rfl⟩ := Option.map_eq_some_iff.1 h
      simp [ih hk]
    · cases h
      simp

/-- What is left after a drop is a part of the items in their order. -/
theorem sublist_of_dropUnless? {spared : α → Bool} {items kept : List α}
    (h : dropUnless? spared items = some kept) : kept.Sublist items := by
  induction items generalizing kept with
  | nil => cases h
  | cons item rest ih =>
    unfold dropUnless? at h
    split at h
    · obtain ⟨kept', hk, rfl⟩ := Option.map_eq_some_iff.1 h
      exact (ih hk).cons_cons item
    · cases h
      exact List.sublist_cons_self item rest

/-- Nothing can be dropped exactly when all items are spared. -/
theorem dropUnless?_eq_none_iff {spared : α → Bool} {items : List α} :
    dropUnless? spared items = none ↔ ∀ item ∈ items, spared item = true := by
  induction items with
  | nil => simp [dropUnless?]
  | cons item rest ih =>
    unfold dropUnless?
    by_cases h : spared item = true
    · simp [h, ih]
    · simp [h]

/-- A drop from two lists in a row is one from the first, if it has an item to drop. -/
theorem dropUnless?_append (spared : α → Bool) (first second : List α) :
    dropUnless? spared (first ++ second) =
      match dropUnless? spared first with
      | some kept => some (kept ++ second)
      | none => (dropUnless? spared second).map (first ++ ·) := by
  induction first with
  | nil => simp [dropUnless?]
  | cons item rest ih =>
    by_cases h : spared item = true
    · simp only [List.cons_append, dropUnless?, h, if_true, ih]
      cases dropUnless? spared rest <;> simp [Function.comp_def]
    · simp [dropUnless?, h]

/-- The line without its oldest item that is not spared, if there is one. -/
def dropOldest? (spared : α → Bool) (d : Deque α) : Option (Deque α) :=
  match h : dropUnless? spared d.front with
  | some kept =>
    some ⟨kept, d.back, d.size - 1, by
      have := length_of_dropUnless? h
      have := d.size_eq
      omega⟩
  | none => (dropUnless? spared d.back.reverse).map fun kept => ofList (d.front ++ kept)

@[simp] theorem toList_ofList (items : List α) : (ofList items).toList = items := by
  simp [ofList, toList]

@[simp] theorem toList_empty : (empty : Deque α).toList = [] := toList_ofList []

@[simp] theorem toList_push (d : Deque α) (item : α) :
    (d.push item).toList = d.toList ++ [item] := by
  simp [push, toList]

@[simp] theorem length_toList (d : Deque α) : d.toList.length = d.size := by
  simp [toList, d.size_eq]

/-- The oldest item is the head of the list, and what is left is its tail. -/
theorem toList_pop? (d : Deque α) :
    d.pop?.map (fun popped => (popped.1, popped.2.toList)) =
      match d.toList with
      | [] => none
      | item :: rest => some (item, rest) := by
  unfold pop?
  split
  · rename_i item rest h
    simp [toList, h]
  · rename_i h
    have hl : d.toList = d.back.reverse := by simp [toList, h]
    rw [hl]
    cases d.back.reverse with
    | nil => rfl
    | cons item rest => simp

/-- A drop from the line is one from the list. -/
theorem toList_dropOldest? (spared : α → Bool) (d : Deque α) :
    (d.dropOldest? spared).map toList = dropUnless? spared d.toList := by
  rw [toList, dropUnless?_append]
  unfold dropOldest?
  split
  · rename_i kept h
    simp [h, toList]
  · rename_i h
    simp [h, Function.comp_def]

end Deque

end Lifecycle
