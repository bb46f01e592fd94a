import Lifecycle.Proofs.Json.Digits
import Lifecycle.Proofs.Json.Limits
import Lifecycle.Proofs.Outcome
import Mathlib.Data.List.Duplicate
import Mathlib.Data.List.Nodup

/-!
# What is allowed of a value

Apart from its form, a text is refused for its value: for integers with too many digits, for
containers that lie too deep and, where the policy says so, for repeated keys (`Json.Repeats`), at
whatever depth. `Json.allow` meets them in the order of reading. What lies within the limits is
allowed as it is (`allow_of_within`), and where repeated keys are refused, whatever is refused has
one or lies beyond the limits (`allow_refuse_cases`).
-/

namespace Lifecycle.Json

attribute [local irreducible] digitLimit integerBound

mutual

/-- What a policy allows of a value where there is room for this many containers inside each
other. -/
def allow (policy : KeyPolicy) (room : Nat) : Json → Except ReadError Json
  | .int n =>
    if digitLimit < (digitsOf n.natAbs).length then
      .error (.excess (.digits (digitsOf n.natAbs).length))
    else .ok (.int n)
  | .arr items =>
    if room = 0 then .error (.excess (.nesting .array))
    else (allowItems policy (room - 1) items).map .arr
  | .obj members =>
    if room = 0 then .error (.excess (.nesting .object))
    else allowMembers policy (room - 1) members >>= close policy
  | value => .ok value

/-- What is allowed of the items of a list. -/
def allowItems (policy : KeyPolicy) (room : Nat) : List Json → Except ReadError (List Json)
  | [] => .ok []
  | item :: items => do return (← allow policy room item) :: (← allowItems policy room items)

/-- What is allowed of the values of members. -/
def allowMembers (policy : KeyPolicy) (room : Nat) :
    List (String × Json) → Except ReadError (List (String × Json))
  | [] => .ok []
  | (key, value) :: members => do
    return (key, ← allow policy room value) :: (← allowMembers policy room members)

end

/-! ## Repeated keys -/

/-- Some object in a value, at whatever depth, has a key twice. -/
inductive Repeats (key : String) : Json → Prop
  | here {members : List (String × Json)} : List.Duplicate key (Entries.keys members) →
    Repeats key (.obj members)
  | item {items : List Json} {item : Json} : item ∈ items → Repeats key item →
    Repeats key (.arr items)
  | member {members : List (String × Json)} {m : String × Json} : m ∈ members →
    Repeats key m.2 → Repeats key (.obj members)

theorem Repeats.not_unrepeated {key : String} {value : Json} (h : Repeats key value) :
    ¬ value.unrepeated = true := by
  intro hun
  induction h with
  | here h => exact h.not_nodup (unrepeated_obj_iff.mp hun).1
  | item hmem h ih => exact ih (unrepeatedItems_iff.mp hun _ hmem)
  | member hmem h ih => exact ih ((unrepeated_obj_iff.mp hun).2 _ hmem)

mutual

theorem unrepeated_of_forall : ∀ {value : Json}, (∀ key, ¬ Repeats key value) →
    value.unrepeated = true
  | .null, _ | .bool _, _ | .int _, _ | .float _, _ | .str _, _ => rfl
  | .arr _, h => unrepeatedItems_of_forall fun _ hmem key hitem => h key (.item hmem hitem)
  | .obj _, h => unrepeated_obj_iff.mpr
    ⟨List.nodup_iff_forall_not_duplicate.mpr fun key hkey => h key (.here hkey),
      unrepeatedMembers_iff.mp (unrepeatedMembers_of_forall fun _ hmem key hmember =>
        h key (.member hmem hmember))⟩

theorem unrepeatedItems_of_forall : ∀ {items : List Json},
    (∀ item ∈ items, ∀ key, ¬ Repeats key item) → unrepeatedItems items = true
  | [], _ => rfl
  | item :: items, h => by
    obtain ⟨hitem, hitems⟩ := List.forall_mem_cons.mp h
    rw [unrepeatedItems, unrepeated_of_forall hitem, unrepeatedItems_of_forall hitems]
    rfl

theorem unrepeatedMembers_of_forall : ∀ {members : List (String × Json)},
    (∀ m ∈ members, ∀ key, ¬ Repeats key m.2) → unrepeatedMembers members = true
  | [], _ => rfl
  | (_, value) :: members, h => by
    obtain ⟨hvalue, hmembers⟩ := List.forall_mem_cons.mp h
    rw [unrepeatedMembers, unrepeated_of_forall hvalue, unrepeatedMembers_of_forall hmembers]
    rfl

end

/-- A value has no repeated keys exactly where no key repeats in it. -/
theorem unrepeated_iff {value : Json} :
    value.unrepeated = true ↔ ∀ key, ¬ Repeats key value :=
  ⟨fun hun _ h => h.not_unrepeated hun, unrepeated_of_forall⟩

/-! ## Closing an object -/

theorem two_le_count_of_go {key : String} {earlier keys : List String}
    (h : firstRepeat?.go earlier keys = some key) : 2 ≤ (earlier ++ keys).count key := by
  induction keys generalizing earlier with
  | nil => cases h
  | cons k later ih =>
    rw [firstRepeat?.go] at h
    split at h
    · rename_i hmem
      obtain rfl := Option.some.inj h
      have hearlier : 0 < earlier.count k := List.count_pos_iff.mpr (List.contains_iff_mem.mp hmem)
      rw [List.count_append, List.count_cons_self]
      omega
    · rw [List.perm_middle.count_eq]
      exact ih h

theorem nodup_of_go {earlier keys : List String} (hearlier : earlier.Nodup)
    (h : firstRepeat?.go earlier keys = none) : (earlier ++ keys).Nodup := by
  induction keys generalizing earlier with
  | nil => simpa using hearlier
  | cons k later ih =>
    rw [firstRepeat?.go] at h
    split at h
    · cases h
    · rename_i hmem
      have hk : k ∉ earlier := fun hk => hmem (List.contains_iff_mem.mpr hk)
      exact List.nodup_middle.mpr (ih (List.nodup_cons.mpr ⟨hk, hearlier⟩) h)

/-- Where repeated keys are refused, an object is closed as it is, or has one. -/
theorem close_refuse_cases (members : List (String × Json)) :
    ((Entries.keys members).Nodup ∧ close .refuse members = .ok (.obj members)) ∨
      ∃ key, List.Duplicate key (Entries.keys members) ∧
        close .refuse members = .error (.repeatedKey key) := by
  rw [close]
  rcases hfirst : firstRepeat? (Entries.keys members) with _ | key
  · exact .inl ⟨nodup_of_go List.nodup_nil hfirst, rfl⟩
  · exact .inr ⟨key, List.duplicate_iff_two_le_count.mpr (two_le_count_of_go hfirst), rfl⟩

theorem close_of_nodup {members : List (String × Json)} (h : (Entries.keys members).Nodup)
    (policy : KeyPolicy) : close policy members = .ok (.obj members) := by
  cases policy with
  | lastWins => exact congrArg (Except.ok ∘ Json.obj) (Entries.ofList_of_nodup h)
  | refuse =>
    rcases close_refuse_cases members with ⟨-, hclose⟩ | ⟨key, hkey, -⟩
    · exact hclose
    · exact absurd h hkey.not_nodup

/-! ## What is allowed as it is -/

/-- What comes of a value for which there is room up to some container. -/
def fitting {α : Type} (value : α) : Option Container → Except ReadError α
  | none => .ok value
  | some container => .error (.excess (.nesting container))

section Fitting

variable {policy : KeyPolicy}

mutual

/-- Without repeated keys and long integers, only containers can be refused. -/
theorem allow_eq_fitting : ∀ {room : Nat} {value : Json}, value.unrepeated = true →
    value.isWritable = true → allow policy room value = fitting value (firstDeep? room value)
  | _, .null, _, _ | _, .bool _, _, _ | _, .float _, _, _ | _, .str _, _, _ => by
    simp [allow, firstDeep?, fitting]
  | _, .int n, _, hwritable => by
    have hlength := length_digitsOf_le_digitLimit.mpr (of_decide_eq_true hwritable)
    rw [allow, if_neg (Nat.not_lt.mpr hlength)]
    rfl
  | room, .arr items, hun, hwritable => by
    rw [allow, firstDeep?]
    split
    · rfl
    · rw [allowItems_eq_fitting hun hwritable]
      cases firstDeepItem? (room - 1) items <;> rfl
  | room, .obj members, hun, hwritable => by
    rw [allow, firstDeep?]
    split
    · rfl
    · rw [allowMembers_eq_fitting (unrepeatedMembers_of_obj hun) hwritable]
      cases firstDeepMember? (room - 1) members with
      | none => exact close_of_nodup (nodup_memberKeys hun) policy
      | some container => rfl

theorem allowItems_eq_fitting : ∀ {room : Nat} {items : List Json},
    unrepeatedItems items = true → areWritable items = true →
    allowItems policy room items = fitting items (firstDeepItem? room items)
  | _, [], _, _ => rfl
  | room, item :: items, hun, hwritable => by
    rw [unrepeatedItems, Bool.and_eq_true] at hun
    rw [areWritable, Bool.and_eq_true] at hwritable
    rw [allowItems, allow_eq_fitting hun.1 hwritable.1, allowItems_eq_fitting hun.2 hwritable.2,
      firstDeepItem?]
    cases firstDeep? room item <;> cases firstDeepItem? room items <;> rfl

theorem allowMembers_eq_fitting : ∀ {room : Nat} {members : List (String × Json)},
    unrepeatedMembers members = true → membersWritable members = true →
    allowMembers policy room members = fitting members (firstDeepMember? room members)
  | _, [], _, _ => rfl
  | room, (_, value) :: members, hun, hwritable => by
    rw [unrepeatedMembers, Bool.and_eq_true] at hun
    rw [membersWritable, Bool.and_eq_true] at hwritable
    rw [allowMembers, allow_eq_fitting hun.1 hwritable.1,
      allowMembers_eq_fitting hun.2 hwritable.2, firstDeepMember?]
    cases firstDeep? room value <;> cases firstDeepMember? room members <;> rfl

end

/-- What lies within the limits is allowed as it is. -/
theorem allow_of_within {room : Nat} {value : Json} (h : Within room value) :
    allow policy room value = .ok value := by
  rw [allow_eq_fitting h.unrepeated h.isWritable, firstDeep?_eq_none_iff.mpr h.nesting_le]
  rfl

end Fitting

/-! ## Why a value is refused -/

/-- Whether no integer in a value has too many digits, and its containers fit into some room. -/
structure Fits (room : Nat) (value : Json) : Prop where
  isWritable : value.isWritable = true
  nesting_le : value.nesting ≤ room

theorem fits_arr_iff {room : Nat} {items : List Json} :
    Fits (room + 1) (.arr items) ↔ ∀ item ∈ items, Fits room item := by
  constructor
  · rintro ⟨hwritable, hnesting⟩ item hitem
    rw [nesting, Nat.add_le_add_iff_right, nestingItems_le_iff] at hnesting
    exact ⟨areWritable_iff.mp hwritable item hitem, hnesting item hitem⟩
  · intro h
    refine ⟨areWritable_iff.mpr fun item hitem => (h item hitem).isWritable, ?_⟩
    rw [nesting, Nat.add_le_add_iff_right, nestingItems_le_iff]
    exact fun item hitem => (h item hitem).nesting_le

theorem fits_obj_iff {room : Nat} {members : List (String × Json)} :
    Fits (room + 1) (.obj members) ↔ ∀ m ∈ members, Fits room m.2 := by
  constructor
  · rintro ⟨hwritable, hnesting⟩ m hm
    rw [nesting, Nat.add_le_add_iff_right, nestingMembers_le_iff] at hnesting
    exact ⟨membersWritable_iff.mp hwritable m hm, hnesting m hm⟩
  · intro h
    refine ⟨membersWritable_iff.mpr fun m hm => (h m hm).isWritable, ?_⟩
    rw [nesting, Nat.add_le_add_iff_right, nestingMembers_le_iff]
    exact fun m hm => (h m hm).nesting_le

/-- Whether a value is refused with an error for what it holds. -/
def Explains (room : Nat) (value : Json) : ReadError → Prop
  | .malformed => False
  | .repeatedKey key => Repeats key value
  | .excess _ => ¬ Fits room value

theorem Explains.arr {room : Nat} {items : List Json} {item : Json} {e : ReadError}
    (hmem : item ∈ items) (h : Explains room item e) : Explains (room + 1) (.arr items) e := by
  cases e with
  | malformed => exact h
  | repeatedKey key => exact .item hmem h
  | excess excess => exact fun hfits => h (fits_arr_iff.mp hfits item hmem)

theorem Explains.obj {room : Nat} {members : List (String × Json)} {m : String × Json}
    {e : ReadError} (hmem : m ∈ members) (h : Explains room m.2 e) :
    Explains (room + 1) (.obj members) e := by
  cases e with
  | malformed => exact h
  | repeatedKey key => exact .member hmem h
  | excess excess => exact fun hfits => h (fits_obj_iff.mp hfits m hmem)

mutual

/-- Where repeated keys are refused, a value lies within the limits and is allowed as it is, or it
is refused for what it holds. -/
theorem allow_refuse_cases : ∀ (room : Nat) (value : Json),
    (Within room value ∧ allow .refuse room value = .ok value) ∨
      ∃ e, Explains room value e ∧ allow .refuse room value = .error e
  | _, .null | _, .bool _ | _, .float _ | _, .str _ =>
    .inl ⟨⟨rfl, rfl, Nat.zero_le _⟩, by simp [allow]⟩
  | room, .int n => by
    rw [allow]
    split
    · rename_i hlong
      have hbound : ¬ n.natAbs < integerBound :=
        mt length_digitsOf_le_digitLimit.mpr (Nat.not_le.mpr hlong)
      exact .inr ⟨.excess (.digits _), fun h => hbound (of_decide_eq_true h.isWritable), rfl⟩
    · rename_i hlong
      have hbound := length_digitsOf_le_digitLimit.mp (Nat.not_lt.mp hlong)
      exact .inl ⟨⟨rfl, decide_eq_true hbound, Nat.zero_le _⟩, rfl⟩
  | 0, .arr items =>
    .inr ⟨.excess (.nesting .array), fun h => Nat.not_succ_le_zero _ h.nesting_le, rfl⟩
  | 0, .obj members =>
    .inr ⟨.excess (.nesting .object), fun h => Nat.not_succ_le_zero _ h.nesting_le, rfl⟩
  | room + 1, .arr items => by
    rw [allow, if_neg (Nat.succ_ne_zero room), Nat.add_sub_cancel]
    rcases allowItems_refuse_cases room items with ⟨hitems, heq⟩ | ⟨e, ⟨item, hmem, he⟩, heq⟩
    · exact .inl ⟨within_arr (Nat.succ_ne_zero room) hitems, by rw [heq]; rfl⟩
    · exact .inr ⟨e, he.arr hmem, by rw [heq]; rfl⟩
  | room + 1, .obj members => by
    rw [allow, if_neg (Nat.succ_ne_zero room), Nat.add_sub_cancel]
    rcases allowMembers_refuse_cases room members with ⟨hmembers, heq⟩ | ⟨e, ⟨m, hmem, he⟩, heq⟩
    · rw [heq]
      rcases close_refuse_cases members with ⟨hnodup, hclose⟩ | ⟨key, hkey, hclose⟩
      · exact .inl ⟨within_obj_iff.mpr ⟨hnodup, hmembers⟩, hclose⟩
      · exact .inr ⟨.repeatedKey key, .here hkey, hclose⟩
    · exact .inr ⟨e, he.obj hmem, by rw [heq]; rfl⟩

theorem allowItems_refuse_cases : ∀ (room : Nat) (items : List Json),
    ((∀ item ∈ items, Within room item) ∧ allowItems .refuse room items = .ok items) ∨
      ∃ e, (∃ item ∈ items, Explains room item e) ∧ allowItems .refuse room items = .error e
  | _, [] => .inl ⟨List.forall_mem_nil _, rfl⟩
  | room, item :: items => by
    rw [allowItems]
    rcases allow_refuse_cases room item with ⟨hitem, heq⟩ | ⟨e, he, heq⟩
    · rcases allowItems_refuse_cases room items with ⟨hitems, hrest⟩ | ⟨e, ⟨i, hmem, he⟩, hrest⟩
      · exact .inl ⟨List.forall_mem_cons.mpr ⟨hitem, hitems⟩, by rw [heq, hrest]; rfl⟩
      · exact .inr ⟨e, ⟨i, List.mem_cons_of_mem _ hmem, he⟩, by rw [heq, hrest]; rfl⟩
    · exact .inr ⟨e, ⟨item, List.mem_cons_self, he⟩, by rw [heq]; rfl⟩

theorem allowMembers_refuse_cases : ∀ (room : Nat) (members : List (String × Json)),
    ((∀ m ∈ members, Within room m.2) ∧ allowMembers .refuse room members = .ok members) ∨
      ∃ e, (∃ m ∈ members, Explains room m.2 e) ∧ allowMembers .refuse room members = .error e
  | _, [] => .inl ⟨List.forall_mem_nil _, rfl⟩
  | room, (key, value) :: members => by
    rw [allowMembers]
    rcases allow_refuse_cases room value with ⟨hvalue, heq⟩ | ⟨e, he, heq⟩
    · rcases allowMembers_refuse_cases room members with
        ⟨hmembers, hrest⟩ | ⟨e, ⟨m, hmem, he⟩, hrest⟩
      · exact .inl ⟨List.forall_mem_cons.mpr ⟨hvalue, hmembers⟩, by rw [heq, hrest]; rfl⟩
      · exact .inr ⟨e, ⟨m, List.mem_cons_of_mem _ hmem, he⟩, by rw [heq, hrest]; rfl⟩
    · exact .inr ⟨e, ⟨(key, value), List.mem_cons_self, he⟩, by rw [heq]; rfl⟩

end

end Lifecycle.Json
