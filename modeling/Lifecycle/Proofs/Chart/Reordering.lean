import Lifecycle.Proofs.Chart.Declared
import Lifecycle.Proofs.Json.Limits
import Mathlib.Data.List.Perm.Basic

/-!
# Declarations in another order

The members of the objects of states and of events may stand in any order, at any depth
(`Outline.Reordered`). The first reading looks at the fields of each state on its own, so a
declaration that it accepts is accepted in every order (`Reordered.exists_read`), and the same
states are declared at the same paths, with the same fields up to their order
(`Reordered.sameStates`).
-/

namespace Lifecycle.Outline

mutual

/-- One declaration of a state is another with the members of states and events in another
order. -/
inductive Reordered : Json → Json → Prop where
  | refl (value : Json) : Reordered value value
  | node {fields fields' : List (String × Json)} :
    ReorderedFields fields fields' → Reordered (.obj fields) (.obj fields')

/-- The fields of a state with the members of states and events in another order. -/
inductive ReorderedFields : List (String × Json) → List (String × Json) → Prop where
  | nil : ReorderedFields [] []
  | cons {name : String} {value value' : Json} {rest rest' : List (String × Json)} :
    ReorderedField name value value' → ReorderedFields rest rest' →
      ReorderedFields ((name, value) :: rest) ((name, value') :: rest')

/-- The value of a field: of the states inside each is reordered in itself, and then they change
places; events change places; other fields stay as they are. -/
inductive ReorderedField : String → Json → Json → Prop where
  | same (name : String) (value : Json) : ReorderedField name value value
  | states {members middle members' : List (String × Json)} :
    ReorderedMembers members middle → middle.Perm members' →
      ReorderedField "states" (.obj members) (.obj members')
  | on {members members' : List (String × Json)} :
    members.Perm members' → ReorderedField "on" (.obj members) (.obj members')

/-- States of which each is reordered in itself. -/
inductive ReorderedMembers : List (String × Json) → List (String × Json) → Prop where
  | nil : ReorderedMembers [] []
  | cons {key : String} {value value' : Json} {rest rest' : List (String × Json)} :
    Reordered value value' → ReorderedMembers rest rest' →
      ReorderedMembers ((key, value) :: rest) ((key, value') :: rest')

end

variable {fields fields' members members' : List (String × Json)} {name key id : String}
  {value value' : Json} {kind : Kind}

/-- Reordering states in themselves and changing their places may be done in either order. -/
theorem ReorderedMembers.perm {others : List (String × Json)}
    (h : ReorderedMembers members members') (hperm : members.Perm others) :
    ∃ others', ReorderedMembers others others' ∧ members'.Perm others' := by
  induction hperm generalizing members' with
  | nil => exact ⟨members', h, .refl _⟩
  | cons _ _ ih =>
    obtain _ | ⟨hvalue, hrest⟩ := h
    obtain ⟨others', hothers, hperm'⟩ := ih hrest
    exact ⟨_, .cons hvalue hothers, hperm'.cons _⟩
  | swap =>
    obtain _ | ⟨hfirst, _ | ⟨hsecond, hrest⟩⟩ := h
    exact ⟨_, .cons hsecond (.cons hfirst hrest), .swap ..⟩
  | trans _ _ ih ih' =>
    obtain ⟨middle, hmiddle, hperm'⟩ := ih h
    obtain ⟨others', hothers, hperm''⟩ := ih' hmiddle
    exact ⟨others', hothers, hperm'.trans hperm''⟩

mutual

/-- The first order is another order, too. -/
theorem Reordered.symm {value value' : Json} : Reordered value value' → Reordered value' value
  | .refl _ => .refl _
  | .node h => .node h.symm

theorem ReorderedFields.symm {fields fields' : List (String × Json)} :
    ReorderedFields fields fields' → ReorderedFields fields' fields
  | .nil => .nil
  | .cons hvalue hrest => .cons hvalue.symm hrest.symm

theorem ReorderedField.symm {name : String} {value value' : Json} :
    ReorderedField name value value' → ReorderedField name value' value
  | .same _ _ => .same _ _
  | .states hmembers hperm => by
    obtain ⟨middle, hmiddle, hperm'⟩ := hmembers.symm.perm hperm
    exact .states hmiddle hperm'.symm
  | .on hperm => .on hperm.symm

theorem ReorderedMembers.symm {members members' : List (String × Json)} :
    ReorderedMembers members members' → ReorderedMembers members' members
  | .nil => .nil
  | .cons hvalue hrest => .cons hvalue.symm hrest.symm

end

theorem ReorderedFields.refl (fields : List (String × Json)) : ReorderedFields fields fields := by
  induction fields with
  | nil => exact .nil
  | cons field _ ih => exact .cons (.same field.1 field.2) ih

theorem Reordered.exists_fields (h : Reordered (.obj fields) value') :
    ∃ fields', value' = .obj fields' ∧ ReorderedFields fields fields' := by
  cases h with
  | refl => exact ⟨fields, rfl, .refl fields⟩
  | node h => exact ⟨_, rfl, h⟩

theorem ReorderedMembers.keys_eq : {members members' : List (String × Json)} →
    ReorderedMembers members members' → Entries.keys members' = Entries.keys members
  | _, _, .nil => rfl
  | _, _, .cons _ hrest => congrArg (_ :: ·) hrest.keys_eq

/-! ## The fields of a state -/

theorem ReorderedField.eq (h : ReorderedField name value value') (hstates : name ≠ "states")
    (hon : name ≠ "on") : value' = value := by
  cases h with
  | same => rfl
  | states => exact absurd rfl hstates
  | on => exact absurd rfl hon

/-- A field of no members stays without any. -/
theorem ReorderedField.truthy_eq (h : ReorderedField name value value') :
    value'.truthy = value.truthy := by
  have hobj : ∀ {xs ys : List (String × Json)}, ys.length = xs.length →
      (Json.obj ys).truthy = (Json.obj xs).truthy := by
    intro xs ys hlength
    cases xs <;> cases ys <;> first | rfl | cases hlength
  cases h with
  | same => rfl
  | states hmembers hperm =>
    have hkeys := congrArg List.length hmembers.keys_eq
    simp only [Entries.keys, List.length_map] at hkeys
    exact hobj (hperm.length_eq.symm.trans hkeys)
  | on hperm => exact hobj hperm.length_eq.symm

/-- A field of states is none of events. -/
theorem ReorderedField.exists_membersOf (h : ReorderedField name value value') (hname : name = "on")
    {members : Entries Json} (hmembers : Blueprint.membersOf value = .ok members) :
    ∃ members', Blueprint.membersOf value' = .ok members' ∧ members.Perm members' := by
  cases h with
  | same => exact ⟨members, hmembers, .refl members⟩
  | states => exact absurd hname (by decide)
  | on hperm =>
    obtain rfl := Except.ok.inj hmembers
    exact ⟨_, rfl, hperm⟩

namespace ReorderedFields

theorem keys_eq : {fields fields' : List (String × Json)} → ReorderedFields fields fields' →
    Entries.keys fields' = Entries.keys fields
  | _, _, .nil => rfl
  | _, _, .cons _ hrest => congrArg (_ :: ·) hrest.keys_eq

theorem get?_eq (name : String) (hstates : name ≠ "states") (hon : name ≠ "on") :
    {fields fields' : List (String × Json)} → ReorderedFields fields fields' →
      Entries.get? fields' name = Entries.get? fields name
  | _, _, .nil => rfl
  | _, _, @ReorderedFields.cons other _ _ _ _ hvalue hrest => by
    rw [Entries.get?_cons, Entries.get?_cons, get?_eq name hstates hon hrest]
    split
    · rename_i heq
      obtain rfl : other = name := by simpa using heq
      rw [hvalue.eq hstates hon]
    · rfl

theorem field (name : String) : {fields fields' : List (String × Json)} →
    ReorderedFields fields fields' →
      ReorderedField name (Outline.field fields name) (Outline.field fields' name)
  | _, _, .nil => .same _ _
  | _, _, @ReorderedFields.cons other _ _ _ _ hvalue hrest => by
    rw [field_cons, field_cons]
    split
    · rename_i heq
      exact heq ▸ hvalue
    · exact field name hrest

theorem field_eq (h : ReorderedFields fields fields') (name : String) (hstates : name ≠ "states")
    (hon : name ≠ "on") : Outline.field fields' name = Outline.field fields name :=
  (h.field name).eq hstates hon

theorem absent_eq (h : ReorderedFields fields fields') (name : String) :
    absent fields' name = absent fields name := by
  have hfield := h.field name
  rw [absent, absent]
  generalize Outline.field fields name = value at hfield
  generalize Outline.field fields' name = value' at hfield
  cases hfield <;> rfl

/-- The kind of a state does not depend on the order of its members. -/
theorem kindOf_eq (h : ReorderedFields fields fields') : kindOf fields' = kindOf fields := by
  have hmisfit : ∀ kind, misfit? fields' kind = misfit? fields kind := by
    intro kind
    unfold misfit?
    rw [(h.field "states").truthy_eq, (h.field "on").truthy_eq, h.absent_eq "on_done",
      h.absent_eq "history", h.field_eq "entry" (by decide) (by decide),
      h.field_eq "exit" (by decide) (by decide), h.get?_eq "history" (by decide) (by decide),
      h.field_eq "history" (by decide) (by decide)]
  unfold kindOf
  simp only [(h.field "states").truthy_eq, hmisfit, h.absent_eq "type",
    h.field_eq "type" (by decide) (by decide)]

theorem check_eq (h : ReorderedFields fields fields') (root : Bool) (key : String) :
    check root key fields' = check root key fields := by
  have hunknown : unknownFields fields' = unknownFields fields := by
    rw [unknownFields, unknownFields, h.keys_eq]
  rw [check, check, hunknown, h.kindOf_eq, h.absent_eq "on_done"]

end ReorderedFields

mutual

/-- No key comes up twice because of another order. -/
theorem Reordered.unrepeated {value value' : Json} :
    Reordered value value' → value.unrepeated = true → value'.unrepeated = true
  | .refl _, hu => hu
  | .node h, hu => by
    rw [Json.unrepeated_obj_iff] at hu ⊢
    rw [h.keys_eq]
    exact ⟨hu.1, Json.unrepeatedMembers_iff.mp (h.unrepeated (Json.unrepeatedMembers_iff.mpr hu.2))⟩

theorem ReorderedFields.unrepeated {fields fields' : List (String × Json)} :
    ReorderedFields fields fields' → Json.unrepeatedMembers fields = true →
      Json.unrepeatedMembers fields' = true
  | .nil, hu => hu
  | .cons hvalue hrest, hu => by
    rw [Json.unrepeatedMembers, Bool.and_eq_true] at hu ⊢
    exact ⟨hvalue.unrepeated hu.1, hrest.unrepeated hu.2⟩

theorem ReorderedField.unrepeated {name : String} {value value' : Json} :
    ReorderedField name value value' → value.unrepeated = true → value'.unrepeated = true
  | .same _ _, hu => hu
  | .states hmembers hperm, hu => by
    rw [Json.unrepeated_obj_iff] at hu ⊢
    have hkeys : (Entries.keys _).Perm (Entries.keys _) := hperm.map Prod.fst
    have hmiddle := Json.unrepeatedMembers_iff.mp
      (hmembers.unrepeated (Json.unrepeatedMembers_iff.mpr hu.2))
    exact ⟨hkeys.nodup_iff.mp (hmembers.keys_eq ▸ hu.1), fun member hmem =>
      hmiddle member (hperm.mem_iff.mpr hmem)⟩
  | .on hperm, hu => by
    rw [Json.unrepeated_obj_iff] at hu ⊢
    have hkeys : (Entries.keys _).Perm (Entries.keys _) := hperm.map Prod.fst
    exact ⟨hkeys.nodup_iff.mp hu.1, fun member hmem => hu.2 member (hperm.mem_iff.mpr hmem)⟩

theorem ReorderedMembers.unrepeated {members members' : List (String × Json)} :
    ReorderedMembers members members' → Json.unrepeatedMembers members = true →
      Json.unrepeatedMembers members' = true
  | .nil, hu => hu
  | .cons hvalue hrest, hu => by
    rw [Json.unrepeatedMembers, Bool.and_eq_true] at hu ⊢
    exact ⟨hvalue.unrepeated hu.1, hrest.unrepeated hu.2⟩

end

/-! ## Reading -/

/-- Children are read if each of them is. -/
theorem exists_readMembers_iff : (∃ children, readMembers id members = .ok children) ↔
    ∀ member ∈ members, ∃ child,
      read false (id ++ "." ++ member.1) member.1 member.2 = .ok child := by
  induction members with
  | nil => exact iff_of_true ⟨[], rfl⟩ (List.forall_mem_nil _)
  | cons member rest ih =>
    obtain ⟨key, value⟩ := member
    rw [List.forall_mem_cons, ← ih, readMembers]
    constructor
    · rintro ⟨children, h⟩
      split at h
      · cases h
      · rename_i child hchild
        obtain ⟨others, hothers, -⟩ := map_eq_ok.mp h
        exact ⟨⟨child, hchild⟩, others, hothers⟩
    · rintro ⟨⟨child, hchild⟩, others, hothers⟩
      rw [hchild, hothers]
      exact ⟨child :: others, rfl⟩

mutual

/-- A state that is read is read in another order. -/
theorem Reordered.exists_read {root : Bool} {id key : String} {value value' : Json} :
    Reordered value value' → (∃ o, read root id key value = .ok o) →
      ∃ o, read root id key value' = .ok o
  | .refl _, hread => hread
  | .node h, ⟨o, hread⟩ => by
    rw [read] at hread ⊢
    rw [h.check_eq]
    split at hread
    · cases hread
    · rename_i kind hcheck
      obtain ⟨children, hchildren, -⟩ := map_eq_ok.mp hread
      obtain ⟨children', hchildren'⟩ := h.exists_readStates ⟨children, hchildren⟩
      simp only [hchildren']
      exact ⟨_, rfl⟩

theorem ReorderedFields.exists_readStates {id : String} {fields fields' : List (String × Json)} :
    ReorderedFields fields fields' → (∃ children, readStates id fields = .ok children) →
      ∃ children, readStates id fields' = .ok children
  | .nil, hread => hread
  | .cons hvalue hrest, hread => by
    rw [readStates] at hread ⊢
    split at hread
    · rename_i hname
      rw [if_pos hname]
      exact hvalue.exists_readChildren hname hread
    · rename_i hname
      rw [if_neg hname]
      exact hrest.exists_readStates hread

theorem ReorderedField.exists_readChildren {id name : String} {value value' : Json} :
    ReorderedField name value value' → name = "states" →
      (∃ children, readChildren id value = .ok children) →
        ∃ children, readChildren id value' = .ok children
  | .same _ _, _, hread => hread
  | .states hmembers hperm, _, hread => by
    have hmiddle := exists_readMembers_iff.mp (hmembers.exists_readMembers hread)
    exact exists_readMembers_iff.mpr fun member hmem => hmiddle member (hperm.mem_iff.mpr hmem)
  | .on _, hname, _ => absurd hname (by decide)

theorem ReorderedMembers.exists_readMembers {id : String}
    {members members' : List (String × Json)} :
    ReorderedMembers members members' → (∃ children, readMembers id members = .ok children) →
      ∃ children, readMembers id members' = .ok children
  | .nil, hread => hread
  | .cons hvalue hrest, hread => by
    rw [exists_readMembers_iff, List.forall_mem_cons] at hread
    obtain ⟨child, hchild⟩ := hvalue.exists_read hread.1
    obtain ⟨others, hothers⟩ := hrest.exists_readMembers (exists_readMembers_iff.mpr hread.2)
    rw [readMembers, hchild, hothers]
    exact ⟨child :: others, rfl⟩

end

/-! ## The declared states -/

mutual

/-- The states of a declaration without repeated keys have none either. -/
theorem unrepeated_of_mem_declared {path : List String} {s : DeclaredState} :
    (value : Json) → value.unrepeated = true → s ∈ declared path value →
      Json.unrepeatedMembers s.fields = true
  | .obj fields, hu, hs => by
    have hfields := Json.unrepeatedMembers_of_obj hu
    rcases List.mem_cons.mp hs with rfl | hs
    · exact hfields
    · exact unrepeated_of_mem_declaredStates fields hfields hs
  | .null, _, hs | .bool _, _, hs | .int _, _, hs | .float _, _, hs | .str _, _, hs
  | .arr _, _, hs => absurd hs (List.not_mem_nil)

theorem unrepeated_of_mem_declaredStates {path : List String} {s : DeclaredState} :
    (fields : List (String × Json)) → Json.unrepeatedMembers fields = true →
      s ∈ declaredStates path fields → Json.unrepeatedMembers s.fields = true
  | [], _, hs => absurd hs (List.not_mem_nil)
  | (name, value) :: rest, hu, hs => by
    rw [Json.unrepeatedMembers, Bool.and_eq_true] at hu
    rw [declaredStates] at hs
    split at hs
    · exact unrepeated_of_mem_declaredChildren value hu.1 hs
    · exact unrepeated_of_mem_declaredStates rest hu.2 hs

theorem unrepeated_of_mem_declaredChildren {path : List String} {s : DeclaredState} :
    (value : Json) → value.unrepeated = true → s ∈ declaredChildren path value →
      Json.unrepeatedMembers s.fields = true
  | .obj members, hu, hs =>
    unrepeated_of_mem_declaredMembers members (Json.unrepeatedMembers_of_obj hu) hs
  | .null, _, hs | .bool _, _, hs | .int _, _, hs | .float _, _, hs | .str _, _, hs
  | .arr _, _, hs => absurd hs (List.not_mem_nil)

theorem unrepeated_of_mem_declaredMembers {path : List String} {s : DeclaredState} :
    (members : List (String × Json)) → Json.unrepeatedMembers members = true →
      s ∈ declaredMembers path members → Json.unrepeatedMembers s.fields = true
  | [], _, hs => absurd hs (List.not_mem_nil)
  | (key, value) :: rest, hu, hs => by
    rw [Json.unrepeatedMembers, Bool.and_eq_true] at hu
    rcases List.mem_append.mp hs with hs | hs
    · exact unrepeated_of_mem_declared value hu.1 hs
    · exact unrepeated_of_mem_declaredMembers rest hu.2 hs

end

/-- Two states are declared at the same path, with the same fields up to their order. -/
structure SameState (s s' : DeclaredState) : Prop where
  path_eq : s'.path = s.path
  fields : ReorderedFields s.fields s'.fields

/-- Of two lists of states each declares the same states as the other. -/
def SameStates (states states' : List DeclaredState) : Prop :=
  ∃ middle, List.Forall₂ SameState states middle ∧ middle.Perm states'

theorem SameStates.refl (states : List DeclaredState) : SameStates states states :=
  ⟨states, List.forall₂_same.mpr fun s _ => ⟨rfl, .refl s.fields⟩, .refl states⟩

theorem SameStates.append {first first' second second' : List DeclaredState}
    (h : SameStates first first') (h' : SameStates second second') :
    SameStates (first ++ second) (first' ++ second') := by
  obtain ⟨middle, hall, hperm⟩ := h
  obtain ⟨middle', hall', hperm'⟩ := h'
  exact ⟨middle ++ middle', List.rel_append hall hall', hperm.append hperm'⟩

theorem SameStates.perm {states states' others : List DeclaredState} (h : SameStates states states')
    (hperm : states'.Perm others) : SameStates states others := by
  obtain ⟨middle, hall, hperm'⟩ := h
  exact ⟨middle, hall, hperm'.trans hperm⟩

theorem declaredMembers_eq_flatMap (path : List String) (members : List (String × Json)) :
    declaredMembers path members =
      members.flatMap fun member => declared (path ++ [member.1]) member.2 := by
  induction members with
  | nil => rfl
  | cons member rest ih =>
    rw [declaredMembers, ih, List.flatMap_cons]

mutual

/-- The same states are declared in another order. -/
theorem Reordered.sameStates {path : List String} {value value' : Json} :
    Reordered value value' → SameStates (declared path value) (declared path value')
  | .refl _ => .refl _
  | @Reordered.node fields fields' h => by
    obtain ⟨middle, hall, hperm⟩ := h.sameStates path
    rw [declared, declared]
    exact ⟨⟨path, fields'⟩ :: middle, .cons ⟨rfl, h⟩ hall, hperm.cons _⟩

theorem ReorderedFields.sameStates (path : List String) {fields fields' : List (String × Json)} :
    ReorderedFields fields fields' →
      SameStates (declaredStates path fields) (declaredStates path fields')
  | .nil => .refl _
  | .cons hvalue hrest => by
    rw [declaredStates, declaredStates]
    split
    · rename_i hname
      exact hvalue.sameStates path hname
    · exact hrest.sameStates path

theorem ReorderedField.sameStates (path : List String) {name : String} {value value' : Json} :
    ReorderedField name value value' → name = "states" →
      SameStates (declaredChildren path value) (declaredChildren path value')
  | .same _ _, _ => .refl _
  | .states hmembers hperm, _ => by
    refine (hmembers.sameStates path).perm ?_
    rw [declaredMembers_eq_flatMap, declaredChildren, declaredMembers_eq_flatMap]
    exact hperm.flatMap_right _
  | .on _, hname => absurd hname (by decide)

theorem ReorderedMembers.sameStates (path : List String) {members members' : List (String × Json)} :
    ReorderedMembers members members' →
      SameStates (declaredMembers path members) (declaredMembers path members')
  | .nil => .refl _
  | .cons hvalue hrest => by
    rw [declaredMembers, declaredMembers]
    exact hvalue.sameStates.append (hrest.sameStates path)

end

end Lifecycle.Outline
