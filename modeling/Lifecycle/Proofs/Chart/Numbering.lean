import Lifecycle.Chart.Outline
import Lifecycle.Proofs.Json.Unrepeated

/-!
# The numbering of an outline

The first reading gives every node a sound outline (`Outline.sound_of_read`): its kind passed the
checks, and its children are the declared ones under different keys. Numbering a sound outline makes
a table in preorder (`index_drafts`) in which every draft but the first hangs below an earlier one
(`exists_parent`), and every listed child is there (`exists_block`).
-/

namespace Lifecycle.Outline

/-- The keys of the child states that the fields of a node declare. -/
def childKeys (fields : Entries Json) : List String := (field fields "states").memberKeys

/-- What the first reading ensures of a single node. -/
structure NodeSound (key : String) (kind : Kind) (fields : Entries Json)
    (children : List Outline) : Prop where
  checked : ∃ root, check root key fields = .ok kind
  keys_eq : children.map Outline.key = childKeys fields
  nodup_keys : (childKeys fields).Nodup
  states_iff : (field fields "states").truthy = true ↔ children ≠ []

mutual

/-- Every node of an outline is sound. -/
def Sound : Outline → Prop
  | .node key kind fields children => NodeSound key kind fields children ∧ SoundAll children

/-- Every node of a list of outlines is sound. -/
def SoundAll : List Outline → Prop
  | [] => True
  | child :: rest => Sound child ∧ SoundAll rest

end

/-! ## Reading gives sound outlines -/

theorem field_cons (name other : String) (value : Json) (rest : Entries Json) :
    field ((name, value) :: rest) other = if name = other then value else field rest other := by
  by_cases h : name = other <;> simp [field, Entries.get?_cons, h]

/-- What the reading of child states yields: sound outlines under the keys of the object. -/
structure ChildrenRead (value : Json) (children : List Outline) : Prop where
  sound : SoundAll children
  keys_eq : children.map Outline.key = value.memberKeys
  nodup_keys : value.memberKeys.Nodup
  states_iff : value.truthy = true ↔ children ≠ []

/-- A value that is no object declares child states only if it counts as absent, and then none. -/
theorem children_of_absent {id : String} {value : Json} {children : List Outline}
    (hobj : ∀ members, value ≠ .obj members) (h : readChildren id value = .ok children) :
    ChildrenRead value children := by
  rw [readChildren.eq_2 id value hobj] at h
  have hkeys : value.memberKeys = [] := by
    cases value with
    | obj members => exact absurd rfl (hobj members)
    | _ => rfl
  split at h
  · cases h
  · rename_i habsent
    cases h
    exact ⟨trivial, hkeys.symm, hkeys ▸ List.nodup_nil, by simp [habsent]⟩

mutual

theorem sound_of_read {root : Bool} {id key : String} {o : Outline} :
    (value : Json) → value.unrepeated = true → read root id key value = .ok o →
      Sound o ∧ o.key = key
  | .obj fields, hu, h => by
    rw [read] at h
    split at h
    · cases h
    · rename_i kind hcheck
      cases hr : readStates id fields with
      | error e => rw [hr] at h; cases h
      | ok children =>
        rw [hr] at h
        cases h
        have hc := children_of_readStates fields (Json.unrepeatedMembers_of_obj hu) hr
        exact ⟨⟨⟨⟨root, hcheck⟩, hc.keys_eq, hc.nodup_keys, hc.states_iff⟩, hc.sound⟩, rfl⟩
  | .null, _, h | .bool _, _, h | .int _, _, h | .float _, _, h | .str _, _, h | .arr _, _, h => by
    cases h

theorem children_of_readStates {id : String} {children : List Outline} :
    (fields : List (String × Json)) → Json.unrepeatedMembers fields = true →
      readStates id fields = .ok children → ChildrenRead (field fields "states") children
  | [], _, h => by
    cases h
    exact ⟨trivial, rfl, List.nodup_nil, by simp [field, Json.truthy]⟩
  | (name, value) :: rest, hu, h => by
    simp only [Json.unrepeatedMembers, Bool.and_eq_true] at hu
    rw [readStates] at h
    rw [field_cons]
    split at h
    · rename_i hname
      rw [if_pos hname]
      exact children_of_readChildren value hu.1 h
    · rename_i hname
      rw [if_neg hname]
      exact children_of_readStates rest hu.2 h

theorem children_of_readChildren {id : String} {children : List Outline} :
    (value : Json) → value.unrepeated = true → readChildren id value = .ok children →
      ChildrenRead value children
  | .obj members, hu, h => by
    rw [readChildren] at h
    have hm := sound_of_readMembers members (Json.unrepeatedMembers_of_obj hu) h
    refine ⟨hm.1, hm.2, Json.nodup_memberKeys hu, ?_⟩
    have hlen := congrArg List.length hm.2
    simp only [List.length_map, Entries.keys] at hlen
    cases members <;> cases children <;> simp_all [Json.truthy]
  | .null, _, h | .bool _, _, h | .int _, _, h | .float _, _, h | .str _, _, h | .arr _, _, h =>
    children_of_absent (by rintro _ ⟨⟩) h

theorem sound_of_readMembers {id : String} {children : List Outline} :
    (members : List (String × Json)) → Json.unrepeatedMembers members = true →
      readMembers id members = .ok children →
      SoundAll children ∧ children.map Outline.key = Entries.keys members
  | [], _, h => by cases h; exact ⟨trivial, rfl⟩
  | (key, value) :: rest, hu, h => by
    simp only [Json.unrepeatedMembers, Bool.and_eq_true] at hu
    rw [readMembers] at h
    split at h
    · cases h
    · rename_i child hchild
      cases hr : readMembers id rest with
      | error e => rw [hr] at h; cases h
      | ok others =>
        rw [hr] at h
        cases h
        have hhead := sound_of_read value hu.1 hchild
        have htail := sound_of_readMembers rest hu.2 hr
        exact ⟨⟨hhead.1, htail.1⟩, by simp [hhead.2, htail.2, Entries.keys]⟩

end

/-! ## Indices -/

theorem size_pos (o : Outline) : 0 < o.size := by
  cases o; simp only [size]; omega

mutual

/-- A table is numbered in order. -/
theorem index_drafts (parent : Option Nat) (depth index : Nat) (id : String) :
    (o : Outline) →
      (drafts parent depth index id o).map Draft.index = List.range' index o.size
  | .node key kind fields children => by
    simp only [drafts, size, List.map_cons, index_draftsAll]
    rw [Nat.add_comm 1, List.range'_succ]

theorem index_draftsAll (parent depth index : Nat) (parentId : String) :
    (os : List Outline) →
      (draftsAll parent depth index parentId os).map Draft.index = List.range' index (sizeAll os)
  | [] => rfl
  | child :: rest => by
    simp only [draftsAll, sizeAll, List.map_append, index_drafts, index_draftsAll]
    rw [List.range'_append_1]

end

/-- A draft of a numbering from zero stands at its index. -/
theorem getElem?_index {parent : Option Nat} {depth : Nat} {id : String} {o : Outline} {i : Nat}
    {d : Draft} (h : (drafts parent depth 0 id o)[i]? = some d) : d.index = i := by
  have hi := congrArg (·[i]?) (index_drafts parent depth 0 id o)
  simp only [List.getElem?_map, h, Option.map_some] at hi
  obtain ⟨hlt, heq⟩ := List.getElem?_eq_some_iff.mp hi.symm
  simpa using heq.symm

theorem mem_indices_le {first c : Nat} {os : List Outline} (h : c ∈ indices first os) :
    first ≤ c := by
  induction os generalizing first with
  | nil => cases h
  | cons child rest ih =>
    rcases List.mem_cons.mp h with rfl | h
    · exact Nat.le_refl _
    · exact Nat.le_trans (Nat.le_add_right _ _) (ih h)

/-- Siblings are numbered in the order of their declaration. -/
theorem sorted_indices (first : Nat) (os : List Outline) :
    (indices first os).Pairwise (· < ·) := by
  induction os generalizing first with
  | nil => exact List.Pairwise.nil
  | cons child rest ih =>
    refine List.Pairwise.cons (fun c hc => ?_) (ih _)
    have := mem_indices_le hc
    have := size_pos child
    omega

@[simp] theorem length_indices (first : Nat) (os : List Outline) :
    (indices first os).length = os.length := by
  induction os generalizing first with
  | nil => rfl
  | cons child rest ih => simp [indices, ih]

/-! ## Parents and children -/

/-- A draft stands for the top node of an outline. -/
structure IsTop (parent : Option Nat) (depth index : Nat) (id : String) (o : Outline) (e : Draft) :
    Prop where
  parent_eq : e.parent = parent
  depth_eq : e.depth = depth
  index_eq : e.index = index
  id_eq : e.id = id
  key_eq : e.key = o.key

/-- A draft stands for the top node of one of several siblings. -/
structure IsSibling (parent depth index : Nat) (parentId : String) (os : List Outline)
    (e : Draft) : Prop where
  parent_eq : e.parent = some parent
  depth_eq : e.depth = depth
  id_eq : e.id = parentId ++ "." ++ e.key
  place : (e.index, e.key) ∈ (indices index os).zip (os.map Outline.key)

/-- One draft is the parent of another. -/
structure IsChild (d e : Draft) : Prop where
  parent_eq : e.parent = some d.index
  depth_eq : e.depth = d.depth + 1
  id_eq : e.id = d.id ++ "." ++ e.key
  place : (e.index, e.key) ∈ d.children.zip (childKeys d.fields)

section Siblings

variable {parent depth index : Nat} {parentId : String} {child : Outline} {rest : List Outline}
  {e : Draft}

theorem IsTop.isSibling
    (h : IsTop (some parent) depth index (parentId ++ "." ++ child.key) child e) :
    IsSibling parent depth index parentId (child :: rest) e where
  parent_eq := h.parent_eq
  depth_eq := h.depth_eq
  id_eq := by rw [h.id_eq, h.key_eq]
  place := by rw [h.index_eq, h.key_eq]; exact List.mem_cons_self

theorem IsSibling.cons
    (h : IsSibling parent depth (index + child.size) parentId rest e) :
    IsSibling parent depth index parentId (child :: rest) e where
  parent_eq := h.parent_eq
  depth_eq := h.depth_eq
  id_eq := h.id_eq
  place := List.mem_cons_of_mem _ h.place

theorem IsSibling.isChild {d : Draft} {os : List Outline}
    (hkeys : os.map Outline.key = childKeys d.fields) (hc : d.children = indices (d.index + 1) os)
    (h : IsSibling d.index (d.depth + 1) (d.index + 1) d.id os e) : IsChild d e where
  parent_eq := h.parent_eq
  depth_eq := h.depth_eq
  id_eq := h.id_eq
  place := by rw [hc, ← hkeys]; exact h.place

end Siblings

theorem exists_top (parent : Option Nat) (depth index : Nat) (id : String) (o : Outline) :
    ∃ e ∈ drafts parent depth index id o, IsTop parent depth index id o e := by
  cases o
  exact ⟨_, List.mem_cons_self, rfl, rfl, rfl, rfl, rfl⟩

/-- Every place among siblings is taken. -/
theorem exists_sibling {depth index c : Nat} {os : List Outline} (parent : Nat)
    (parentId : String) (h : c ∈ indices index os) :
    ∃ e ∈ draftsAll parent depth index parentId os,
      IsSibling parent depth index parentId os e ∧ e.index = c := by
  induction os generalizing index with
  | nil => cases h
  | cons child rest ih =>
    rcases List.mem_cons.mp h with rfl | h
    · obtain ⟨e, he, htop⟩ := exists_top (some parent) depth c (parentId ++ "." ++ child.key) child
      exact ⟨e, List.mem_append_left _ he, htop.isSibling, htop.index_eq⟩
    · obtain ⟨e, he, hs, rfl⟩ := ih h
      exact ⟨e, List.mem_append_right _ he, hs.cons, rfl⟩

/-- A draft with the outlines of its children, whose drafts are all in a table. -/
structure Block (table : List Draft) (d : Draft) (os : List Outline) : Prop where
  sound : NodeSound d.key d.kind d.fields os
  children_eq : d.children = indices (d.index + 1) os
  subset : draftsAll d.index (d.depth + 1) (d.index + 1) d.id os ⊆ table

theorem Block.mono {table larger : List Draft} {d : Draft} {os : List Outline}
    (h : Block table d os) (hsub : table ⊆ larger) : Block larger d os :=
  ⟨h.sound, h.children_eq, fun _ he => hsub (h.subset he)⟩

mutual

theorem exists_block {parent : Option Nat} {depth index : Nat} {id : String} {d : Draft} :
    (o : Outline) → Sound o → d ∈ drafts parent depth index id o →
      ∃ os, Block (drafts parent depth index id o) d os
  | .node key kind fields children, ho, hd => by
    rw [drafts] at hd ⊢
    rcases List.mem_cons.mp hd with rfl | hd
    · exact ⟨children, ho.1, rfl, List.subset_cons_self _ _⟩
    · obtain ⟨os, hb⟩ := exists_block_of_siblings children ho.2 hd
      exact ⟨os, hb.mono (List.subset_cons_self _ _)⟩

theorem exists_block_of_siblings {parent depth index : Nat} {parentId : String} {d : Draft} :
    (os : List Outline) → SoundAll os → d ∈ draftsAll parent depth index parentId os →
      ∃ below, Block (draftsAll parent depth index parentId os) d below
  | [], _, hd => by cases hd
  | child :: rest, hos, hd => by
    rw [draftsAll] at hd ⊢
    rcases List.mem_append.mp hd with hd | hd
    · obtain ⟨below, hb⟩ := exists_block child hos.1 hd
      exact ⟨below, hb.mono (List.subset_append_left _ _)⟩
    · obtain ⟨below, hb⟩ := exists_block_of_siblings rest hos.2 hd
      exact ⟨below, hb.mono (List.subset_append_right _ _)⟩

end

mutual

/-- Every draft but the top one has its parent in the table. -/
theorem exists_parent {parent : Option Nat} {depth index : Nat} {id : String} {e : Draft} :
    (o : Outline) → Sound o → e ∈ drafts parent depth index id o →
      IsTop parent depth index id o e ∨ ∃ d ∈ drafts parent depth index id o, IsChild d e
  | .node key kind fields children, ho, he => by
    rw [drafts] at he ⊢
    rcases List.mem_cons.mp he with rfl | he
    · exact .inl ⟨rfl, rfl, rfl, rfl, rfl⟩
    · rcases exists_parent_of_siblings children ho.2 he with hs | ⟨d, hd, hc⟩
      · exact .inr ⟨_, List.mem_cons_self, hs.isChild ho.1.keys_eq rfl⟩
      · exact .inr ⟨d, List.mem_cons_of_mem _ hd, hc⟩

theorem exists_parent_of_siblings {parent depth index : Nat} {parentId : String} {e : Draft} :
    (os : List Outline) → SoundAll os → e ∈ draftsAll parent depth index parentId os →
      IsSibling parent depth index parentId os e ∨
        ∃ d ∈ draftsAll parent depth index parentId os, IsChild d e
  | [], _, he => by cases he
  | child :: rest, hos, he => by
    rw [draftsAll] at he ⊢
    rcases List.mem_append.mp he with he | he
    · rcases exists_parent child hos.1 he with ht | ⟨d, hd, hc⟩
      · exact .inl ht.isSibling
      · exact .inr ⟨d, List.mem_append_left _ hd, hc⟩
    · rcases exists_parent_of_siblings rest hos.2 he with hs | ⟨d, hd, hc⟩
      · exact .inl hs.cons
      · exact .inr ⟨d, List.mem_append_right _ hd, hc⟩

end

/-! ## The table as a whole -/

theorem eq_of_mem_zip {α β : Type} {xs : List α} {ys : List β} (hys : ys.Nodup) {a b : α} {y : β}
    (ha : (a, y) ∈ xs.zip ys) (hb : (b, y) ∈ xs.zip ys) : a = b := by
  obtain ⟨i, hi, hai⟩ := List.mem_iff_getElem.mp ha
  obtain ⟨j, hj, hbj⟩ := List.mem_iff_getElem.mp hb
  rw [List.getElem_zip, Prod.mk.injEq] at hai hbj
  have hij : i = j := (List.getElem_inj hys).mp (hai.2.trans hbj.2.symm)
  subst hij
  exact hai.1.symm.trans hbj.1

/-- A table that numbers a sound outline. -/
structure Numbered (machine : String) (table : List Draft) : Prop where
  index_eq {i : Nat} {d : Draft} : table[i]? = some d → d.index = i
  top : ∃ d, table[0]? = some d ∧ d.kind = .compound ∧ d.parent = none ∧ d.depth = 0 ∧
    d.id = machine ∧ d.key = machine
  parent {i : Nat} {e : Draft} : table[i]? = some e → i ≠ 0 →
    ∃ p d, p < i ∧ table[p]? = some d ∧ IsChild d e
  child {p c : Nat} {d : Draft} : table[p]? = some d → c ∈ d.children →
    ∃ e, table[c]? = some e ∧ IsChild d e
  node {i : Nat} {d : Draft} : table[i]? = some d →
    (∃ root, check root d.key d.fields = .ok d.kind) ∧ (childKeys d.fields).Nodup ∧
      d.children.Pairwise (· < ·) ∧ ((field d.fields "states").truthy = true ↔ d.children ≠ [])

theorem getElem?_of_mem {parent : Option Nat} {depth : Nat} {id : String} {o : Outline} {d : Draft}
    (h : d ∈ drafts parent depth 0 id o) : (drafts parent depth 0 id o)[d.index]? = some d := by
  obtain ⟨i, hi⟩ := List.mem_iff_getElem?.mp h
  rwa [getElem?_index hi]

theorem validKey_of_check {root : Bool} {key : String} {fields : Entries Json} {kind : Kind}
    (h : check root key fields = .ok kind) : validKey key = true := by
  unfold check at h
  split at h
  · cases h
  · rename_i hvalid
    simpa using hvalid

theorem kindOf_of_check {root : Bool} {key : String} {fields : Entries Json} {kind : Kind}
    (h : check root key fields = .ok kind) : kindOf fields = .ok kind := by
  unfold check at h
  grind

/-- A node is compound exactly when it declares child states. -/
theorem compound_iff_of_kindOf {fields : Entries Json} {kind : Kind}
    (h : kindOf fields = .ok kind) :
    kind = .compound ↔ (field fields "states").truthy = true := by
  unfold kindOf at h
  split at h
  · cases h
    split <;> simp_all
  · split at h
    · cases h
    · split at h
      · cases h
      · rename_i hmisfit
        cases h
        unfold misfit? at hmisfit
        grind

theorem kind_of_check_root {key : String} {fields : Entries Json} {kind : Kind}
    (h : check true key fields = .ok kind) : kind = .compound := by
  unfold check at h
  grind

/-- Numbering what the first reading of a declaration gives makes a numbered table. -/
theorem numbered_of_read {machine : String} {declaration : Json} {o : Outline}
    (hu : declaration.unrepeated = true) (h : read true machine machine declaration = .ok o) :
    Numbered machine (drafts none 0 0 machine o) := by
  obtain ⟨ho, hkey⟩ := sound_of_read declaration hu h
  refine ⟨getElem?_index, ?_, ?_, ?_, ?_⟩
  · obtain ⟨fields, rfl⟩ : ∃ fields, declaration = .obj fields := by
      cases declaration with
      | obj fields => exact ⟨fields, rfl⟩
      | _ => cases h
    rw [read] at h
    split at h
    · cases h
    · rename_i kind hcheck
      obtain rfl := kind_of_check_root hcheck
      cases hr : readStates machine fields with
      | error e => rw [hr] at h; cases h
      | ok children => rw [hr] at h; cases h; exact ⟨_, rfl, rfl, rfl, rfl, rfl, rfl⟩
  · intro i e he hi
    rcases exists_parent o ho (List.mem_of_getElem? he) with htop | ⟨d, hd, hc⟩
    · exact absurd ((getElem?_index he).symm.trans htop.index_eq) hi
    · refine ⟨d.index, d, ?_, getElem?_of_mem hd, hc⟩
      obtain ⟨os, hb⟩ := exists_block o ho hd
      have hmem := (List.of_mem_zip hc.place).1
      rw [hb.children_eq, getElem?_index he] at hmem
      exact mem_indices_le hmem
  · intro p c d hd hc
    obtain ⟨os, hb⟩ := exists_block o ho (List.mem_of_getElem? hd)
    rw [hb.children_eq] at hc
    obtain ⟨e, he, hs, rfl⟩ := exists_sibling d.index d.id hc
    exact ⟨e, getElem?_of_mem (hb.subset he), hs.isChild hb.sound.keys_eq hb.children_eq⟩
  · intro i d hd
    obtain ⟨os, hb⟩ := exists_block o ho (List.mem_of_getElem? hd)
    refine ⟨hb.sound.checked, hb.sound.nodup_keys, ?_, ?_⟩
    · rw [hb.children_eq]; exact sorted_indices _ _
    · rw [hb.sound.states_iff, hb.children_eq, ← List.length_pos_iff, ← List.length_pos_iff,
        length_indices]

end Lifecycle.Outline
