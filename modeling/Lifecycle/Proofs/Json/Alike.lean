import Lifecycle.Json.Writer
import Lifecycle.Proofs.Entries
import Lifecycle.Proofs.Json.Unrepeated
import Mathlib.Data.List.Perm.Subperm
import Mathlib.Data.List.Nodup

/-!
# Values up to the order of members

Two values are alike when they differ in the order of members only: integers, binary64 numbers,
booleans and strings stay apart, and lists keep their order (`Json.alike`). A value is arranged when
the members of all its objects stand in the order of their keys; values without repeated keys are
alike exactly when they are arranged the same way (`alike_iff`).
-/

namespace Lifecycle.Json

mutual

/-- Equality up to the order of members. -/
def alike : Json → Json → Bool
  | .null, other => match other with
    | .null => true
    | _ => false
  | .bool b, other => match other with
    | .bool c => b == c
    | _ => false
  | .int n, other => match other with
    | .int m => n == m
    | _ => false
  | .float x, other => match other with
    | .float y => x == y
    | _ => false
  | .str s, other => match other with
    | .str t => s == t
    | _ => false
  | .arr items, other => match other with
    | .arr others => alikeItems items others
    | _ => false
  | .obj members, other => match other with
    | .obj others => members.length == others.length && alikeMembers members others
    | _ => false

/-- Equality of two lists up to the order of members, item by item. -/
def alikeItems : List Json → List Json → Bool
  | [], others => others.isEmpty
  | item :: items, others => match others with
    | [] => false
    | other :: rest => alike item other && alikeItems items rest

/-- Whether every member has an equal value, up to the order of members, at its key in the other
object. -/
def alikeMembers : List (String × Json) → List (String × Json) → Bool
  | [], _ => true
  | (key, value) :: members, others =>
    (match Entries.get? others key with
      | some other => alike value other
      | none => false) && alikeMembers members others

end

/-- Members in the order of their keys. -/
def sortMembers {α : Type} (members : List (String × α)) : List (String × α) :=
  members.mergeSort fun a b => !(decide (b.1 < a.1))

mutual

/-- The value with the members of all its objects in the order of their keys. -/
def arranged : Json → Json
  | .arr items => .arr (arrangedItems items)
  | .obj members => .obj (sortMembers (arrangedMembers members))
  | value => value

/-- The items arranged. -/
def arrangedItems : List Json → List Json
  | [] => []
  | item :: items => arranged item :: arrangedItems items

/-- The members in their order with their values arranged. -/
def arrangedMembers : List (String × Json) → List (String × Json)
  | [] => []
  | (key, value) :: members => (key, arranged value) :: arrangedMembers members

end

/-! ## Sorting members -/

section Sorting

variable {α β : Type}

theorem sortMembers_perm (members : List (String × α)) : (sortMembers members).Perm members :=
  List.mergeSort_perm _ _

/-- Sorting looks at the keys only. -/
theorem sortMembers_map (f : α → β) (members : List (String × α)) :
    sortMembers (members.map fun m => (m.1, f m.2)) =
      (sortMembers members).map fun m => (m.1, f m.2) := by
  unfold sortMembers
  rw [List.map_mergeSort]
  intro a _ b _
  rfl

theorem pairwise_sortMembers (members : List (String × α)) :
    (sortMembers members).Pairwise fun a b => a.1 ≤ b.1 := by
  have h : (sortMembers members).Pairwise fun a b => (!(decide (b.1 < a.1))) = true := by
    refine List.pairwise_mergeSort ?_ ?_ members
    · intro a b c hab hbc
      simp only [Bool.not_eq_true', decide_eq_false_iff_not, String.not_lt] at *
      exact String.le_trans hab hbc
    · intro a b
      simp only [Bool.or_eq_true, Bool.not_eq_true', decide_eq_false_iff_not, String.not_lt]
      exact String.le_total a.1 b.1
  refine h.imp fun {a b} hab => String.not_lt.mp ?_
  simpa only [Bool.not_eq_true', decide_eq_false_iff_not] using hab

theorem sortMembers_of_pairwise {members : List (String × α)}
    (h : members.Pairwise fun a b => a.1 ≤ b.1) : sortMembers members = members := by
  refine List.mergeSort_of_pairwise (h.imp fun {a b} hab => ?_)
  simpa only [Bool.not_eq_true', decide_eq_false_iff_not] using String.not_lt.mpr hab

/-- Members of different keys have one order. -/
theorem sortMembers_eq_iff {members others : List (String × α)}
    (hnodup : (members.map Prod.fst).Nodup) :
    sortMembers members = sortMembers others ↔ members.Perm others := by
  constructor
  · intro h
    exact (sortMembers_perm members).symm.trans (h ▸ sortMembers_perm others)
  · intro hperm
    have hsorted := (sortMembers_perm members).trans (hperm.trans (sortMembers_perm others).symm)
    refine hsorted.eq_of_pairwise ?_ (pairwise_sortMembers members) (pairwise_sortMembers others)
    intro a b ha hb hab hba
    have hmem : b ∈ members := (sortMembers_perm members).mem_iff.mp (hsorted.mem_iff.mpr hb)
    exact List.inj_on_of_nodup_map hnodup ((sortMembers_perm members).mem_iff.mp ha) hmem
      (String.le_antisymm hab hba)

/-- Sorting gives the one order in which the keys rise. -/
theorem sortMembers_eq_of_perm {members others : List (String × α)} (hperm : members.Perm others)
    (hrising : others.Pairwise fun a b => a.1 < b.1) : sortMembers members = others := by
  have hnodup : (others.map Prod.fst).Nodup := by
    refine List.pairwise_map.mpr (hrising.imp ?_)
    intro a b hab heq
    exact String.lt_irrefl b.1 (heq ▸ hab)
  rw [← sortMembers_of_pairwise (hrising.imp fun {a b} hab => String.not_lt.mp (String.lt_asymm hab))]
  exact ((sortMembers_eq_iff hnodup).mpr hperm.symm).symm

/-- Members are in one order with as many others that they are all among. -/
theorem perm_iff {members others : List (String × α)} (hnodup : (members.map Prod.fst).Nodup) :
    members.Perm others ↔ members.length = others.length ∧ ∀ m ∈ members, m ∈ others := by
  constructor
  · intro h
    exact ⟨h.length_eq, fun m hm => h.mem_iff.mp hm⟩
  · rintro ⟨hlength, hsub⟩
    exact (List.subperm_of_subset (List.Nodup.of_map _ hnodup) hsub).perm_of_length_le
      (Nat.le_of_eq hlength.symm)

theorem get?_sortMembers {members : List (String × α)} (hnodup : (members.map Prod.fst).Nodup)
    (key : String) : Entries.get? (sortMembers members) key = Entries.get? members key := by
  have hperm := sortMembers_perm members
  have hsorted : (Entries.keys (sortMembers members)).Nodup :=
    (hperm.map Prod.fst).nodup_iff.mpr hnodup
  rcases hget : Entries.get? members key with _ | value
  · rw [← Option.not_isSome_iff_eq_none, Entries.get?_isSome_iff] at hget ⊢
    rwa [Entries.keys, (hperm.map Prod.fst).mem_iff]
  · obtain ⟨k, hmem, hk⟩ := Entries.exists_mem_of_get? hget
    obtain rfl := eq_of_beq hk
    exact Entries.get?_of_mem hsorted (hperm.mem_iff.mpr hmem)

end Sorting

/-! ## Values without repeated keys -/

theorem arrangedMembers_eq (members : List (String × Json)) :
    arrangedMembers members = members.map fun m => (m.1, m.2.arranged) := by
  induction members with
  | nil => rfl
  | cons member rest ih => rw [arrangedMembers, ih, List.map_cons]

theorem keys_arrangedMembers (members : List (String × Json)) :
    (arrangedMembers members).map Prod.fst = Entries.keys members := by
  rw [arrangedMembers_eq, List.map_map]
  rfl

theorem length_arrangedMembers (members : List (String × Json)) :
    (arrangedMembers members).length = members.length := by
  rw [arrangedMembers_eq, List.length_map]

theorem mem_arrangedMembers_iff {members : List (String × Json)} {key : String} {value : Json}
    (hnodup : (Entries.keys members).Nodup) :
    (key, value) ∈ arrangedMembers members ↔
      ∃ found, Entries.get? members key = some found ∧ found.arranged = value := by
  rw [arrangedMembers_eq, List.mem_map]
  constructor
  · rintro ⟨member, hmem, heq⟩
    obtain ⟨rfl, rfl⟩ := Prod.mk.inj heq
    exact ⟨member.2, Entries.get?_of_mem hnodup hmem, rfl⟩
  · rintro ⟨found, hget, rfl⟩
    obtain ⟨k, hmem, hk⟩ := Entries.exists_mem_of_get? hget
    exact ⟨(k, found), hmem, by rw [eq_of_beq hk]⟩

theorem get?_arrangedMembers (members : List (String × Json)) (key : String) :
    Entries.get? (arrangedMembers members) key = (Entries.get? members key).map arranged := by
  induction members with
  | nil => rfl
  | cons member rest ih =>
    rw [arrangedMembers, Entries.get?_cons, Entries.get?_cons, ih]
    split <;> rfl

mutual

/-- What is arranged stays as it is. -/
theorem arranged_arranged : ∀ value : Json, value.arranged.arranged = value.arranged
  | .null | .bool _ | .int _ | .float _ | .str _ => rfl
  | .arr items => by rw [arranged, arranged, arrangedItems_arrangedItems items]
  | .obj members => by
    rw [arranged, arranged, arrangedMembers_eq (sortMembers _), ← sortMembers_map,
      ← arrangedMembers_eq, arrangedMembers_arrangedMembers members,
      sortMembers_of_pairwise (pairwise_sortMembers _)]

theorem arrangedItems_arrangedItems : ∀ items : List Json,
    arrangedItems (arrangedItems items) = arrangedItems items
  | [] => rfl
  | item :: items => by
    rw [arrangedItems, arrangedItems, arranged_arranged item, arrangedItems_arrangedItems items]

theorem arrangedMembers_arrangedMembers : ∀ members : List (String × Json),
    arrangedMembers (arrangedMembers members) = arrangedMembers members
  | [] => rfl
  | (_, value) :: members => by
    rw [arrangedMembers, arrangedMembers, arranged_arranged value,
      arrangedMembers_arrangedMembers members]

end

mutual

/-- Values without repeated keys are alike when they are arranged the same way. -/
theorem alike_iff : ∀ {a b : Json}, a.unrepeated = true → b.unrepeated = true →
    (a.alike b = true ↔ a.arranged = b.arranged)
  | .null, b, _, _ => by cases b <;> simp [alike, arranged]
  | .bool _, b, _, _ => by cases b <;> simp [alike, arranged]
  | .int _, b, _, _ => by cases b <;> simp [alike, arranged]
  | .float _, b, _, _ => by cases b <;> simp [alike, arranged]
  | .str _, b, _, _ => by cases b <;> simp [alike, arranged]
  | .arr items, b, ha, hb => by
    cases b with
    | arr others =>
      simp only [alike, arranged, arr.injEq]
      exact alikeItems_iff ha hb
    | _ => simp [alike, arranged]
  | .obj members, b, ha, hb => by
    cases b with
    | obj others =>
      have hkeys := nodup_memberKeys hb
      have hnodup : ((arrangedMembers members).map Prod.fst).Nodup :=
        keys_arrangedMembers members ▸ nodup_memberKeys ha
      simp only [alike, arranged, obj.injEq, Bool.and_eq_true, beq_iff_eq]
      rw [sortMembers_eq_iff hnodup, perm_iff hnodup, length_arrangedMembers,
        length_arrangedMembers, alikeMembers_iff (unrepeatedMembers_of_obj ha)
          (unrepeatedMembers_of_obj hb) hkeys]
    | _ => simp [alike, arranged]

theorem alikeItems_iff : ∀ {items others : List Json}, unrepeatedItems items = true →
    unrepeatedItems others = true →
    (alikeItems items others = true ↔ arrangedItems items = arrangedItems others)
  | [], others, _, _ => by cases others <;> simp [alikeItems, arrangedItems]
  | item :: items, others, ha, hb => by
    cases others with
    | nil => simp [alikeItems, arrangedItems]
    | cons other others =>
      simp only [unrepeatedItems, Bool.and_eq_true] at ha hb
      simp only [alikeItems, arrangedItems, Bool.and_eq_true, List.cons.injEq, alike_iff ha.1 hb.1,
        alikeItems_iff ha.2 hb.2]

theorem alikeMembers_iff : ∀ {members others : List (String × Json)},
    unrepeatedMembers members = true → unrepeatedMembers others = true →
    (Entries.keys others).Nodup →
    (alikeMembers members others = true ↔ ∀ m ∈ arrangedMembers members, m ∈ arrangedMembers others)
  | [], others, _, _, _ => by simp [alikeMembers, arrangedMembers]
  | (key, value) :: members, others, ha, hb, hkeys => by
    simp only [unrepeatedMembers, Bool.and_eq_true] at ha
    have hrest := alikeMembers_iff ha.2 hb hkeys
    simp only [alikeMembers, arrangedMembers, List.forall_mem_cons, Bool.and_eq_true, hrest,
      mem_arrangedMembers_iff hkeys]
    rcases hget : Entries.get? others key with _ | other
    · simp
    · have hfirst := alike_iff ha.1 (unrepeated_of_get? hb hget)
      simp only [hfirst, Option.some.injEq, exists_eq_left', eq_comm]

end

end Lifecycle.Json
