import Lifecycle.Proofs.Chart.Declared

/-!
# Places of a numbered table

In a numbered table a draft is found by its place below another one: siblings differ in their keys
(`Outline.Numbered.key_inj`), so all drafts differ in their ids (`Outline.Numbered.id_inj`), and a
key leads to the child that has it (`Reference.childAt?_eq_some_iff`). A reference asks for one walk
along keys (`Reference.resolve_eq`).
-/

namespace Lifecycle

namespace Outline.Numbered

variable {machine : String} {table : List Draft} {i j c p : Nat} {d e : Draft}
  (numbered : Numbered machine table)

include numbered

theorem parent_zero (h : table[0]? = some d) : d.parent = none := by
  obtain ⟨top, htop, -, hnone, -⟩ := numbered.top
  obtain rfl := Option.some.inj (htop.symm.trans h)
  exact hnone

/-- A draft below another one is listed among its children. -/
theorem exists_isChild (he : table[c]? = some e) (hparent : e.parent = some p) :
    p < c ∧ ∃ d, table[p]? = some d ∧ IsChild d e := by
  have hc : c ≠ 0 := by
    rintro rfl
    rw [numbered.parent_zero he] at hparent
    cases hparent
  obtain ⟨q, d, hlt, hd, hchild⟩ := numbered.parent he hc
  rw [hchild.parent_eq, numbered.index_eq hd] at hparent
  obtain rfl := Option.some.inj hparent
  exact ⟨hlt, d, hd, hchild⟩

theorem isChild_iff (hd : table[p]? = some d) (he : table[c]? = some e) :
    IsChild d e ↔ e.parent = some p := by
  constructor
  · intro h
    rw [h.parent_eq, numbered.index_eq hd]
  · intro hparent
    obtain ⟨-, d', hd', hchild⟩ := numbered.exists_isChild he hparent
    obtain rfl := Option.some.inj (hd.symm.trans hd')
    exact hchild

theorem mem_children_iff (hd : table[p]? = some d) :
    c ∈ d.children ↔ ∃ e, table[c]? = some e ∧ e.parent = some p := by
  constructor
  · intro h
    obtain ⟨e, he, hchild⟩ := numbered.child hd h
    exact ⟨e, he, by rw [hchild.parent_eq, numbered.index_eq hd]⟩
  · rintro ⟨e, he, hparent⟩
    obtain ⟨-, d', hd', hchild⟩ := numbered.exists_isChild he hparent
    obtain rfl := Option.some.inj (hd.symm.trans hd')
    rw [← numbered.index_eq he]
    exact (List.of_mem_zip hchild.place).1

/-- Siblings have different keys. -/
theorem key_inj {e' : Draft} (he : table[i]? = some e) (he' : table[j]? = some e')
    (hparent : e.parent = some p) (hparent' : e'.parent = some p) (hkey : e.key = e'.key) :
    i = j := by
  obtain ⟨-, d, hd, hchild⟩ := numbered.exists_isChild he hparent
  obtain ⟨-, d', hd', hchild'⟩ := numbered.exists_isChild he' hparent'
  obtain rfl := Option.some.inj (hd.symm.trans hd')
  rw [← numbered.index_eq he, ← numbered.index_eq he']
  exact eq_of_mem_zip (numbered.node hd).2.1 hchild.place (hkey ▸ hchild'.place)

theorem dot_notMem_key (hd : table[i]? = some d) : '.' ∉ d.key.toList := by
  obtain ⟨⟨root, hcheck⟩, -⟩ := numbered.node hd
  exact dot_notMem_of_validKey (validKey_of_check hcheck)

/-- The id of a draft below another is cut at its last dot. -/
theorem eq_of_isChild {machine' : String} {table' : List Draft} {d' e' : Draft}
    (numbered' : Numbered machine' table') (he : table[i]? = some e) (he' : table'[j]? = some e')
    (h : IsChild d e) (h' : IsChild d' e') (hid : e.id = e'.id) :
    d.id = d'.id ∧ e.key = e'.key := by
  have hchars : d.id.toList ++ '.' :: e.key.toList = d'.id.toList ++ '.' :: e'.key.toList := by
    rw [h.id_eq, h'.id_eq] at hid
    simpa using congrArg String.toList hid
  obtain ⟨hfront, hkey⟩ := append_cons_inj_of_notMem_right (numbered.dot_notMem_key he)
    (numbered'.dot_notMem_key he') hchars
  exact ⟨String.toList_inj.mp hfront, String.toList_inj.mp hkey⟩

/-- The id of the first draft has no dot. -/
theorem dot_mem_id_iff (he : table[i]? = some e) : '.' ∈ e.id.toList ↔ i ≠ 0 := by
  constructor
  · rintro hdot rfl
    obtain ⟨top, htop, -, -, -, hid, hkey⟩ := numbered.top
    obtain rfl := Option.some.inj (htop.symm.trans he)
    rw [hid, ← hkey] at hdot
    exact numbered.dot_notMem_key he hdot
  · intro hi
    obtain ⟨p, d, -, -, hchild⟩ := numbered.parent he hi
    rw [hchild.id_eq]
    simp

/-- Ids name drafts. -/
theorem id_inj (hd : table[i]? = some d) (he : table[j]? = some e) (h : d.id = e.id) : i = j := by
  induction i using Nat.strongRecOn generalizing j d e with
  | _ i ih =>
    have hroot : i ≠ 0 ↔ j ≠ 0 := by
      rw [← numbered.dot_mem_id_iff hd, ← numbered.dot_mem_id_iff he, h]
    by_cases hi : i = 0
    · by_contra hne
      exact hroot.mpr (fun hj => hne (hi.trans hj.symm)) hi
    · obtain ⟨p, d₁, hlt, hd₁, hchild⟩ := numbered.parent hd hi
      obtain ⟨q, e₁, -, he₁, hchild'⟩ := numbered.parent he (hroot.mp hi)
      obtain ⟨hids, hkeys⟩ := numbered.eq_of_isChild numbered hd he hchild hchild' h
      obtain rfl : p = q := ih p hlt hd₁ he₁ hids
      have hparent : d.parent = some p := by rw [hchild.parent_eq, numbered.index_eq hd₁]
      have hparent' : e.parent = some p := by rw [hchild'.parent_eq, numbered.index_eq he₁]
      exact numbered.key_inj hd he hparent hparent' hkeys

end Outline.Numbered

namespace Reference

/-- The child with a key is the draft below that has it. -/
theorem childAt?_eq_some_iff {machine key : String} {table : Array Draft} {p c : Nat}
    (numbered : Outline.Numbered machine table.toList) : childAt? table p key = some c ↔
      ∃ e, table[c]? = some e ∧ e.parent = some p ∧ e.key = key := by
  simp only [← Array.getElem?_toList, childAt?]
  constructor
  · intro h
    split at h
    · rename_i d hd
      obtain ⟨e, he, hparent⟩ :=
        (numbered.mem_children_iff hd).mp (List.mem_of_find?_eq_some h)
      have hkey := List.find?_some h
      rw [he, Option.any_some, beq_iff_eq] at hkey
      exact ⟨e, he, hparent, hkey⟩
    · cases h
  · rintro ⟨e, he, hparent, rfl⟩
    obtain ⟨-, d, hd, -⟩ := numbered.exists_isChild he hparent
    have hmem := (numbered.mem_children_iff hd).mpr ⟨e, he, hparent⟩
    rw [hd]
    dsimp only
    rcases hfind : d.children.find? _ with _ | c'
    · have := List.find?_eq_none.mp hfind c hmem
      simp [he] at this
    · obtain ⟨e', he', hparent'⟩ :=
        (numbered.mem_children_iff hd).mp (List.mem_of_find?_eq_some hfind)
      have hkey := List.find?_some hfind
      rw [he', Option.any_some, beq_iff_eq] at hkey
      rw [numbered.key_inj he' he hparent' hparent hkey]

/-- What a walk means that has led to some draft or to none. -/
def arrival (text : String) : Option Nat → Except Defect Nat
  | none => .error (.dangling text)
  | some index => if index = 0 then .error (.rootReference text) else .ok index

variable {text : String}

theorem arrival_eq_ok_iff {walked : Option Nat} {j : Nat} :
    arrival text walked = .ok j ↔ j ≠ 0 ∧ walked = some j := by
  rcases walked with _ | index
  · simp [arrival]
  · rw [arrival, Option.some.injEq]
    split
    · rename_i hzero
      simp [hzero, eq_comm]
    · rename_i hne
      rw [Except.ok.injEq]
      exact ⟨fun h => ⟨h ▸ hne, h⟩, And.right⟩

/-- A reference asks for one walk, unless it is to another machine. -/
theorem resolve_eq (machine : String) (table : Array Draft) (draft : Draft) (text : String) :
    resolve machine table draft text =
      match ofText text with
      | .fromRoot name path =>
        if name = machine then arrival text (walk? table 0 path) else .error (.otherMachine text)
      | .below path => arrival text (walk? table draft.index path)
      | .beside path => arrival text (walk? table (draft.parent.getD draft.index) path) := by
  unfold resolve arrival
  rcases ofText text with ⟨name, path⟩ | path | path
  · by_cases hname : name = machine
    · simp only [if_pos hname]
      rcases walk? table 0 path <;> rfl
    · simp only [if_neg hname]
  · dsimp only
    rcases walk? table draft.index path <;> rfl
  · dsimp only
    rcases walk? table (draft.parent.getD draft.index) path <;> rfl

end Reference

end Lifecycle
