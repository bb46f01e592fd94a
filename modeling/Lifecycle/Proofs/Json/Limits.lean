import Lifecycle.Json.Reader
import Lifecycle.Proofs.Json.Alike

/-!
# Values within limits

What keeps a value from being written or read: its integers (`Json.isWritable`) and how many
containers lie inside each other (`Json.nesting`). Both look at what a value holds and not at its
order, and so does the absence of repeated keys: arranging a value changes none of them. A value
that is nested too deep for some room has a first container that does not fit (`firstDeep?`).
`Json.Within` puts the limits together.
-/

namespace Lifecycle.Json

mutual

/-- The kind of the first container in a value for which there is no room inside the others. -/
def firstDeep? (room : Nat) : Json → Option Container
  | .arr items => if room = 0 then some .array else firstDeepItem? (room - 1) items
  | .obj members => if room = 0 then some .object else firstDeepMember? (room - 1) members
  | _ => none

/-- The first such container in the items of a list. -/
def firstDeepItem? (room : Nat) : List Json → Option Container
  | [] => none
  | item :: items => (firstDeep? room item).or (firstDeepItem? room items)

/-- The first such container in the values of members. -/
def firstDeepMember? (room : Nat) : List (String × Json) → Option Container
  | [] => none
  | (_, value) :: members => (firstDeep? room value).or (firstDeepMember? room members)

end

mutual

/-- All containers fit exactly where there is room for the nesting. -/
theorem firstDeep?_eq_none_iff : ∀ {room : Nat} {value : Json},
    firstDeep? room value = none ↔ value.nesting ≤ room
  | _, .null | _, .bool _ | _, .int _ | _, .float _ | _, .str _ => by simp [firstDeep?, nesting]
  | room, .arr items => by
    rw [firstDeep?, nesting]
    split
    · simp_all
    · rw [firstDeepItem?_eq_none_iff]
      omega
  | room, .obj members => by
    rw [firstDeep?, nesting]
    split
    · simp_all
    · rw [firstDeepMember?_eq_none_iff]
      omega

theorem firstDeepItem?_eq_none_iff : ∀ {room : Nat} {items : List Json},
    firstDeepItem? room items = none ↔ nestingItems items ≤ room
  | _, [] => by simp [firstDeepItem?, nestingItems]
  | room, item :: items => by
    rw [firstDeepItem?, Option.or_eq_none_iff, firstDeep?_eq_none_iff, firstDeepItem?_eq_none_iff,
      nestingItems, Nat.max_le]

theorem firstDeepMember?_eq_none_iff : ∀ {room : Nat} {members : List (String × Json)},
    firstDeepMember? room members = none ↔ nestingMembers members ≤ room
  | _, [] => by simp [firstDeepMember?, nestingMembers]
  | room, (_, value) :: members => by
    rw [firstDeepMember?, Option.or_eq_none_iff, firstDeep?_eq_none_iff,
      firstDeepMember?_eq_none_iff, nestingMembers, Nat.max_le]

end

/-! ## Each on its own -/

theorem nestingItems_le_iff {items : List Json} {n : Nat} :
    nestingItems items ≤ n ↔ ∀ item ∈ items, item.nesting ≤ n := by
  induction items with
  | nil => simp [nestingItems]
  | cons item rest ih => rw [nestingItems, Nat.max_le, ih, List.forall_mem_cons]

theorem nestingMembers_le_iff {members : List (String × Json)} {n : Nat} :
    nestingMembers members ≤ n ↔ ∀ m ∈ members, m.2.nesting ≤ n := by
  induction members with
  | nil => simp [nestingMembers]
  | cons member rest ih => rw [nestingMembers, Nat.max_le, ih, List.forall_mem_cons]

theorem areWritable_iff {items : List Json} :
    areWritable items = true ↔ ∀ item ∈ items, item.isWritable = true := by
  induction items with
  | nil => simp [areWritable]
  | cons item rest ih => rw [areWritable, Bool.and_eq_true, ih, List.forall_mem_cons]

theorem membersWritable_iff {members : List (String × Json)} :
    membersWritable members = true ↔ ∀ m ∈ members, m.2.isWritable = true := by
  induction members with
  | nil => simp [membersWritable]
  | cons member rest ih => rw [membersWritable, Bool.and_eq_true, ih, List.forall_mem_cons]

theorem unrepeatedMembers_iff {members : List (String × Json)} :
    unrepeatedMembers members = true ↔ ∀ m ∈ members, m.2.unrepeated = true := by
  induction members with
  | nil => simp [unrepeatedMembers]
  | cons member rest ih => rw [unrepeatedMembers, Bool.and_eq_true, ih, List.forall_mem_cons]

theorem unrepeatedItems_iff {items : List Json} :
    unrepeatedItems items = true ↔ ∀ item ∈ items, item.unrepeated = true := by
  induction items with
  | nil => simp [unrepeatedItems]
  | cons item rest ih => rw [unrepeatedItems, Bool.and_eq_true, ih, List.forall_mem_cons]

theorem unrepeated_obj_iff {members : List (String × Json)} :
    (Json.obj members).unrepeated = true ↔
      (Entries.keys members).Nodup ∧ ∀ m ∈ members, m.2.unrepeated = true := by
  rw [unrepeated, Bool.and_eq_true, decide_eq_true_eq, unrepeatedMembers_iff]

/-! ## Members in whatever order -/

section Order

variable {members others : List (String × Json)} (h : members.Perm others)

include h

theorem nestingMembers_perm : nestingMembers members = nestingMembers others := by
  have hle : ∀ {ms ns : List (String × Json)}, ms.Perm ns →
      nestingMembers ms ≤ nestingMembers ns := fun hperm =>
    nestingMembers_le_iff.mpr fun m hm =>
      nestingMembers_le_iff.mp (Nat.le_refl _) m (hperm.mem_iff.mp hm)
  exact Nat.le_antisymm (hle h) (hle h.symm)

theorem membersWritable_perm : membersWritable members = membersWritable others := by
  rw [Bool.eq_iff_iff, membersWritable_iff, membersWritable_iff]
  simp only [h.mem_iff]

theorem unrepeated_perm : (Json.obj members).unrepeated = (Json.obj others).unrepeated := by
  rw [Bool.eq_iff_iff, unrepeated_obj_iff, unrepeated_obj_iff]
  simp only [h.mem_iff, Entries.keys, (h.map Prod.fst).nodup_iff]

end Order

mutual

theorem nesting_arranged : ∀ value : Json, value.arranged.nesting = value.nesting
  | .null | .bool _ | .int _ | .float _ | .str _ => rfl
  | .arr items => by rw [arranged, nesting, nestingItems_arranged items, nesting]
  | .obj members => by
    rw [arranged, nesting, nestingMembers_perm (sortMembers_perm _), nestingMembers_arranged members,
      nesting]

theorem nestingItems_arranged : ∀ items : List Json,
    nestingItems (arrangedItems items) = nestingItems items
  | [] => rfl
  | item :: items => by
    rw [arrangedItems, nestingItems, nesting_arranged item, nestingItems_arranged items, nestingItems]

theorem nestingMembers_arranged : ∀ members : List (String × Json),
    nestingMembers (arrangedMembers members) = nestingMembers members
  | [] => rfl
  | (_, value) :: members => by
    rw [arrangedMembers, nestingMembers, nesting_arranged value, nestingMembers_arranged members,
      nestingMembers]

end

mutual

theorem isWritable_arranged : ∀ value : Json, value.arranged.isWritable = value.isWritable
  | .null | .bool _ | .int _ | .float _ | .str _ => rfl
  | .arr items => by rw [arranged, isWritable, areWritable_arranged items, isWritable]
  | .obj members => by
    rw [arranged, isWritable, membersWritable_perm (sortMembers_perm _),
      membersWritable_arranged members, isWritable]

theorem areWritable_arranged : ∀ items : List Json,
    areWritable (arrangedItems items) = areWritable items
  | [] => rfl
  | item :: items => by
    rw [arrangedItems, areWritable, isWritable_arranged item, areWritable_arranged items, areWritable]

theorem membersWritable_arranged : ∀ members : List (String × Json),
    membersWritable (arrangedMembers members) = membersWritable members
  | [] => rfl
  | (_, value) :: members => by
    rw [arrangedMembers, membersWritable, isWritable_arranged value, membersWritable_arranged members,
      membersWritable]

end

mutual

theorem unrepeated_arranged : ∀ value : Json, value.arranged.unrepeated = value.unrepeated
  | .null | .bool _ | .int _ | .float _ | .str _ => rfl
  | .arr items => by rw [arranged, unrepeated, unrepeatedItems_arranged items, unrepeated]
  | .obj members => by
    rw [arranged, unrepeated_perm (sortMembers_perm _), unrepeated, unrepeated,
      unrepeatedMembers_arranged members, Entries.keys, keys_arrangedMembers]

theorem unrepeatedItems_arranged : ∀ items : List Json,
    unrepeatedItems (arrangedItems items) = unrepeatedItems items
  | [] => rfl
  | item :: items => by
    rw [arrangedItems, unrepeatedItems, unrepeated_arranged item, unrepeatedItems_arranged items,
      unrepeatedItems]

theorem unrepeatedMembers_arranged : ∀ members : List (String × Json),
    unrepeatedMembers (arrangedMembers members) = unrepeatedMembers members
  | [] => rfl
  | (_, value) :: members => by
    rw [arrangedMembers, unrepeatedMembers, unrepeated_arranged value,
      unrepeatedMembers_arranged members, unrepeatedMembers]

end

/-! ## All limits together -/

/-- Whether a value has no repeated keys and no integer too long, and its containers fit into some
room. -/
structure Within (room : Nat) (value : Json) : Prop where
  unrepeated : value.unrepeated = true
  isWritable : value.isWritable = true
  nesting_le : value.nesting ≤ room

theorem within_arr {room : Nat} {items : List Json} (hroom : room ≠ 0)
    (h : ∀ item ∈ items, Within (room - 1) item) : Within room (.arr items) where
  unrepeated := unrepeatedItems_iff.mpr fun item hitem => (h item hitem).unrepeated
  isWritable := areWritable_iff.mpr fun item hitem => (h item hitem).isWritable
  nesting_le := by
    have hitems := nestingItems_le_iff.mpr fun item hitem => (h item hitem).nesting_le
    rw [nesting]
    omega

theorem within_obj_iff {room : Nat} {members : List (String × Json)} :
    Within (room + 1) (.obj members) ↔
      (Entries.keys members).Nodup ∧ ∀ m ∈ members, Within room m.2 := by
  constructor
  · rintro ⟨hun, hwritable, hnesting⟩
    obtain ⟨hnodup, hun⟩ := unrepeated_obj_iff.mp hun
    rw [nesting, Nat.add_le_add_iff_right, nestingMembers_le_iff] at hnesting
    rw [isWritable, membersWritable_iff] at hwritable
    exact ⟨hnodup, fun m hm => ⟨hun m hm, hwritable m hm, hnesting m hm⟩⟩
  · rintro ⟨hnodup, hmembers⟩
    refine ⟨unrepeated_obj_iff.mpr ⟨hnodup, fun m hm => (hmembers m hm).unrepeated⟩, ?_, ?_⟩
    · rw [isWritable, membersWritable_iff]
      exact fun m hm => (hmembers m hm).isWritable
    · rw [nesting, Nat.add_le_add_iff_right, nestingMembers_le_iff]
      exact fun m hm => (hmembers m hm).nesting_le

end Lifecycle.Json
