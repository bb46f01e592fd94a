import Lifecycle.Proofs.Chart.Places
import Mathlib.Data.List.TakeWhile

/-!
# What references mean

A reference is read as an id: that of the base of its form, and the rest of the reference after a
dot (`Reference.Denotes`). In a numbered table walking along keys from a node leads to the node
whose id goes on with these keys, and to no other (`Numbered.walk?_eq_some_iff`). So a reference is
resolved to the node that has the id, unless that is the root (`Numbered.resolve_eq_ok_iff`).
-/

namespace Lifecycle

/-! ## Segments -/

namespace Text

/-- A dotted path below a base; an empty path is the base itself. -/
def qualify (base rest : String) : String := if rest = "" then base else base ++ "." ++ rest

theorem dot_notMem_of_mem_splitDots {cs segment : List Char} (h : segment ∈ splitDots cs) :
    '.' ∉ segment := by
  induction cs generalizing segment with
  | nil =>
    rw [splitDots, List.mem_singleton] at h
    exact h ▸ List.not_mem_nil
  | cons c cs ih =>
    rw [splitDots] at h
    split at h
    · rcases List.mem_cons.mp h with rfl | h
      · exact List.not_mem_nil
      · exact ih h
    · rename_i hc
      split at h
      · rw [List.mem_singleton.mp h, List.mem_singleton]
        exact Ne.symm hc
      · rename_i first rest hsplit
        rcases List.mem_cons.mp h with rfl | h
        · rw [List.mem_cons, not_or]
          exact ⟨Ne.symm hc, ih (hsplit ▸ List.mem_cons_self)⟩
        · exact ih (hsplit ▸ List.mem_cons_of_mem _ h)

theorem dotted_map_ofList (parts : List (List Char)) :
    dotted (parts.map String.ofList) = String.ofList (joinDots parts) := by
  induction parts with
  | nil => rfl
  | cons first rest ih =>
    cases rest with
    | nil => rfl
    | cons second rest =>
      change String.ofList first ++ "." ++ dotted ((second :: rest).map String.ofList) = _
      rw [ih]
      apply String.toList_inj.mp
      simp [joinDots]

/-- A path of keys is appended to another below their dotted paths. -/
theorem dotted_append {front keys : List String} (h : front ≠ []) (h' : keys ≠ []) :
    dotted (front ++ keys) = dotted front ++ "." ++ dotted keys := by
  induction keys using List.reverseRecOn with
  | nil => exact absurd rfl h'
  | append_singleton keys key ih =>
    rcases keys with _ | ⟨first, rest⟩
    · exact dotted_concat key h
    · rw [← List.append_assoc, dotted_concat key (by simp [h]), ih (List.cons_ne_nil _ _),
        dotted_concat key (List.cons_ne_nil _ _)]
      simp only [String.append_assoc]

end Text

namespace Reference

open Text

theorem dotted_keys (rest : String) : dotted (keys rest.toList) = rest := by
  unfold keys
  split
  · rename_i hempty
    exact (String.toList_eq_nil_iff.mp (List.isEmpty_iff.mp hempty)).symm
  · rw [dotted_map_ofList, join_split, String.ofList_toList]

theorem dot_notMem_of_mem_keys {cs : List Char} {key : String} (h : key ∈ keys cs) :
    '.' ∉ key.toList := by
  unfold keys at h
  split at h
  · cases h
  · obtain ⟨segment, hsegment, rfl⟩ := List.mem_map.mp h
    rw [String.toList_ofList]
    exact dot_notMem_of_mem_splitDots hsegment

theorem keys_eq_nil_iff {rest : String} : keys rest.toList = [] ↔ rest = "" := by
  constructor
  · intro h
    rw [← dotted_keys rest, h]
    rfl
  · rintro rfl
    rfl

theorem dotted_cons_keys (base rest : String) :
    dotted (base :: keys rest.toList) = qualify base rest := by
  unfold qualify
  split
  · rename_i hempty
    rw [keys_eq_nil_iff.mpr hempty]
    rfl
  · rename_i hne
    rw [← List.singleton_append, dotted_append (List.cons_ne_nil _ _)
      (keys_eq_nil_iff.not.mpr hne), dotted_keys]
    rfl

/-! ## The forms of references -/

/-- The id that a reference means. It is written on a node with an id of its own, beside which are
the nodes below another one. -/
inductive Denotes (machine own outer : String) : String → String → Prop
  | root : Denotes machine own outer ("#" ++ machine) machine
  | fromRoot (rest : String) :
    Denotes machine own outer ("#" ++ machine ++ "." ++ rest) (qualify machine rest)
  | below (rest : String) : Denotes machine own outer ("." ++ rest) (qualify own rest)
  | beside {text : String} : text ≠ "" → text.toList.head? ≠ some '#' →
    text.toList.head? ≠ some '.' → Denotes machine own outer text (qualify outer text)

/-- The keys of a reference. -/
def path : Reference → List String
  | .fromRoot _ path | .below path | .beside path => path

/-- The id that the parts of a reference mean, if it is in the machine. -/
def id? (machine own outer : String) : Reference → Option String
  | .fromRoot name path => if name = machine then some (dotted (machine :: path)) else none
  | .below path => some (dotted (own :: path))
  | .beside path => some (dotted (outer :: path))

variable {machine own outer text id : String}

theorem dot_notMem_of_mem_path {key : String} (h : key ∈ (ofText text).path) :
    '.' ∉ key.toList := by
  unfold ofText at h
  split at h <;> exact dot_notMem_of_mem_keys h

theorem ne_dot_of_mem (h : '.' ∉ text.toList) : ∀ c ∈ text.toList, (c != '.') = true :=
  fun _ hc => bne_iff_ne.mpr fun heq => h (heq ▸ hc)

theorem ofText_root (hmachine : '.' ∉ machine.toList) :
    ofText ("#" ++ machine) = .fromRoot machine [] := by
  have hpos := ne_dot_of_mem hmachine
  have hchars : ("#" ++ machine).toList = '#' :: machine.toList := by simp
  simp only [ofText, hchars, List.takeWhile_eq_self_iff.mpr hpos,
    List.dropWhile_eq_nil_iff.mpr hpos, String.ofList_toList]
  rfl

theorem ofText_fromRoot (hmachine : '.' ∉ machine.toList) (rest : String) :
    ofText ("#" ++ machine ++ "." ++ rest) = .fromRoot machine (keys rest.toList) := by
  have hpos := ne_dot_of_mem hmachine
  have hchars : ("#" ++ machine ++ "." ++ rest).toList =
      '#' :: (machine.toList ++ '.' :: rest.toList) := by simp
  have htake : (machine.toList ++ '.' :: rest.toList).takeWhile (· != '.') = machine.toList := by
    rw [List.takeWhile_append_of_pos hpos]
    simp
  have hdrop : (machine.toList ++ '.' :: rest.toList).dropWhile (· != '.') =
      '.' :: rest.toList := by
    rw [List.dropWhile_append_of_pos hpos]
    simp
  simp only [ofText, hchars, htake, hdrop, String.ofList_toList]
  rfl

theorem ofText_below (rest : String) : ofText ("." ++ rest) = .below (keys rest.toList) := by
  have hchars : ("." ++ rest).toList = '.' :: rest.toList := by simp
  simp only [ofText, hchars]

theorem ofText_beside (hhash : text.toList.head? ≠ some '#') (hdot : text.toList.head? ≠ some '.') :
    ofText text = .beside (keys text.toList) := by
  unfold ofText
  split
  · rename_i hchars
    rw [hchars] at hhash
    exact absurd rfl hhash
  · rename_i hchars
    rw [hchars] at hdot
    exact absurd rfl hdot
  · rfl

/-- Every text has one of the forms. -/
theorem form_cases (text : String) :
    (∃ name, '.' ∉ name.toList ∧ text = "#" ++ name) ∨
    (∃ name rest, '.' ∉ name.toList ∧ text = "#" ++ name ++ "." ++ rest) ∨
    (∃ rest, text = "." ++ rest) ∨
    (text.toList.head? ≠ some '#' ∧ text.toList.head? ≠ some '.') := by
  rcases hchars : text.toList with _ | ⟨c, cs⟩
  · exact .inr (.inr (.inr ⟨nofun, nofun⟩))
  · by_cases hhash : c = '#'
    · subst hhash
      have hfree : '.' ∉ (String.ofList (cs.takeWhile (· != '.'))).toList := by
        intro hmem
        rw [String.toList_ofList] at hmem
        simpa using List.mem_takeWhile_imp hmem
      have hsplit := List.takeWhile_append_dropWhile (p := (· != '.')) (l := cs)
      rcases hdrop : cs.dropWhile (· != '.') with _ | ⟨dot, rest⟩
      · refine .inl ⟨String.ofList (cs.takeWhile (· != '.')), hfree, String.toList_inj.mp ?_⟩
        rw [hdrop, List.append_nil] at hsplit
        simp [hchars, hsplit]
      · obtain rfl : dot = '.' := by
          have hhead := List.head?_dropWhile_not (· != '.') cs
          rw [hdrop] at hhead
          simpa using hhead
        refine .inr (.inl ⟨String.ofList (cs.takeWhile (· != '.')), String.ofList rest, hfree,
          String.toList_inj.mp ?_⟩)
        rw [hdrop] at hsplit
        simp [hchars, hsplit]
    · by_cases hdot : c = '.'
      · subst hdot
        refine .inr (.inr (.inl ⟨String.ofList cs, String.toList_inj.mp ?_⟩))
        simp [hchars]
      · refine .inr (.inr (.inr ?_))
        simp [hhash, hdot]

/-- A reference means the id that its parts mean. -/
theorem denotes_iff (hmachine : '.' ∉ machine.toList) (hne : text ≠ "") :
    Denotes machine own outer text id ↔ (ofText text).id? machine own outer = some id := by
  constructor
  · rintro (_ | rest | rest | ⟨-, hhash, hdot⟩)
    · rw [ofText_root hmachine, id?, if_pos rfl]
      rfl
    · rw [ofText_fromRoot hmachine, id?, if_pos rfl, dotted_cons_keys]
    · rw [ofText_below, id?, dotted_cons_keys]
    · rw [ofText_beside hhash hdot, id?, dotted_cons_keys]
  · intro h
    rcases form_cases text with ⟨name, hname, rfl⟩ | ⟨name, rest, hname, rfl⟩ | ⟨rest, rfl⟩ |
      ⟨hhash, hdot⟩
    · rw [ofText_root hname, id?] at h
      split at h
      · rename_i heq
        subst heq
        obtain rfl : name = id := Option.some.inj h
        exact .root
      · cases h
    · rw [ofText_fromRoot hname, id?] at h
      split at h
      · rename_i heq
        subst heq
        rw [dotted_cons_keys] at h
        obtain rfl := Option.some.inj h
        exact .fromRoot rest
      · cases h
    · rw [ofText_below, id?, dotted_cons_keys] at h
      obtain rfl := Option.some.inj h
      exact .below rest
    · rw [ofText_beside hhash hdot, id?, dotted_cons_keys] at h
      obtain rfl := Option.some.inj h
      exact .beside hne hhash hdot

/-! ## Where a reference leads -/

/-- A reference is refused as one to another machine, as one that leads nowhere, or as one to the
root. -/
theorem resolve_error {table : Array Draft} {draft : Draft} {defect : Defect}
    (h : resolve machine table draft text = .error defect) :
    defect = .otherMachine text ∨ defect = .dangling text ∨ defect = .rootReference text := by
  have harrival {walked : Option Nat} (h : arrival text walked = .error defect) :
      defect = .dangling text ∨ defect = .rootReference text := by
    unfold arrival at h
    split at h
    · exact .inl (Except.error.inj h).symm
    · split at h
      · exact .inr (Except.error.inj h).symm
      · cases h
  rw [resolve_eq] at h
  split at h
  · split at h
    · exact .inr (harrival h)
    · exact .inl (Except.error.inj h).symm
  · exact .inr (harrival h)
  · exact .inr (harrival h)

end Reference

namespace Outline.Numbered

open Reference

variable {machine : String} {table : List Draft} {d e : Draft} {i j : Nat}
  (numbered : Numbered machine table)

include numbered

/-! ## Walking along keys -/

theorem dot_notMem_machine : '.' ∉ machine.toList := by
  obtain ⟨top, htop, -, -, -, -, hkey⟩ := numbered.top
  exact hkey ▸ numbered.dot_notMem_key htop

/-- A key leads to the child that has it. -/
theorem childAt?_eq_some_iff (hd : table[i]? = some d) {key : String} :
    childAt? table.toArray i key = some j ↔
      ∃ e, table[j]? = some e ∧ IsChild d e ∧ e.key = key := by
  rw [Reference.childAt?_eq_some_iff numbered]
  simp only [List.getElem?_toArray]
  refine exists_congr fun e => and_congr_right fun he => ?_
  rw [numbered.isChild_iff hd he]

/-- Every node is reached from the root along keys, and its id is their dotted path. -/
theorem exists_walk? (he : table[j]? = some e) :
    ∃ keys, (∀ key ∈ keys, '.' ∉ key.toList) ∧ walk? table.toArray 0 keys = some j ∧
      e.id = Text.dotted (machine :: keys) := by
  induction j using Nat.strongRecOn generalizing e with
  | _ j ih =>
    by_cases hj : j = 0
    · subst hj
      obtain ⟨top, htop, -, -, -, hid, -⟩ := numbered.top
      obtain rfl := Option.some.inj (htop.symm.trans he)
      exact ⟨[], nofun, rfl, hid⟩
    · obtain ⟨p, d, hlt, hd, hchild⟩ := numbered.parent he hj
      obtain ⟨keys, hfree, hwalk, hid⟩ := ih p hlt hd
      have hstep : childAt? table.toArray p e.key = some j :=
        (numbered.childAt?_eq_some_iff hd).mpr ⟨e, he, hchild, rfl⟩
      refine ⟨keys ++ [e.key], List.forall_mem_append.mpr ⟨hfree, ?_⟩, ?_, ?_⟩
      · exact List.forall_mem_singleton.mpr (numbered.dot_notMem_key he)
      · rw [walk?_append, hwalk, Option.bind_some, walk?, hstep]
        rfl
      · rw [hchild.id_eq, hid, ← Text.dotted_concat _ (List.cons_ne_nil _ _)]
        rfl

/-- Walking along keys leads to a node whose id goes on with them. -/
theorem id_of_walk? {keys : List String} (hd : table[i]? = some d)
    (h : walk? table.toArray i keys = some j) :
    ∃ e, table[j]? = some e ∧ e.id = Text.dotted (d.id :: keys) := by
  induction keys generalizing i d with
  | nil =>
    obtain rfl := Option.some.inj h
    exact ⟨d, hd, rfl⟩
  | cons key rest ih =>
    rw [walk?] at h
    split at h
    · rename_i c hc
      obtain ⟨e, he, hchild, rfl⟩ := (numbered.childAt?_eq_some_iff hd).mp hc
      obtain ⟨e', he', hid⟩ := ih he h
      refine ⟨e', he', ?_⟩
      rw [hid, hchild.id_eq]
      cases rest with
      | nil => rfl
      | cons => simp only [Text.dotted, String.append_assoc]
    · cases h

/-- Walking along keys from a node leads to the node whose id goes on with them. -/
theorem walk?_eq_some_iff {keys : List String} (hd : table[i]? = some d)
    (hfree : ∀ key ∈ keys, '.' ∉ key.toList) : walk? table.toArray i keys = some j ↔
      ∃ e, table[j]? = some e ∧ e.id = Text.dotted (d.id :: keys) := by
  refine ⟨numbered.id_of_walk? hd, ?_⟩
  rintro ⟨e, he, hid⟩
  obtain ⟨front, hfront, hwalk, hdid⟩ := numbered.exists_walk? hd
  obtain ⟨all, hall, hwalk', heid⟩ := numbered.exists_walk? he
  have hmachine := numbered.dot_notMem_machine
  have hpath : machine :: all = machine :: front ++ keys := by
    refine Text.dotted_inj (List.forall_mem_cons.mpr ⟨hmachine, hall⟩)
      (List.forall_mem_append.mpr ⟨List.forall_mem_cons.mpr ⟨hmachine, hfront⟩, hfree⟩)
      (List.cons_ne_nil _ _) (List.cons_ne_nil _ _) ?_
    rw [← heid, hid]
    rcases keys with _ | ⟨key, rest⟩
    · rw [List.append_nil]
      exact hdid
    · rw [Text.dotted_append (List.cons_ne_nil _ _) (List.cons_ne_nil _ _), ← hdid]
      rfl
  obtain rfl : all = front ++ keys := (List.cons.inj hpath).2
  rwa [walk?_append, hwalk, Option.bind_some] at hwalk'

/-! ## Resolving references -/

variable {o : Draft} {text : String}

theorem arrival_walk?_eq_ok_iff {path : List String} (hd : table[i]? = some d)
    (hfree : ∀ key ∈ path, '.' ∉ key.toList) : arrival text (walk? table.toArray i path) = .ok j ↔
      j ≠ 0 ∧ ∃ e, table[j]? = some e ∧ some (Text.dotted (d.id :: path)) = some e.id := by
  rw [arrival_eq_ok_iff, numbered.walk?_eq_some_iff hd hfree]
  simp only [Option.some.injEq, eq_comm]

/-- A reference is resolved to the node that has the id that it means, unless that is the root. -/
theorem resolve_eq_ok_iff (hd : table[i]? = some d)
    (ho : table[d.parent.getD d.index]? = some o) (hne : text ≠ "") :
    resolve machine table.toArray d text = .ok j ↔
      j ≠ 0 ∧ ∃ e, table[j]? = some e ∧ Denotes machine d.id o.id text e.id := by
  obtain ⟨top, htop, -, -, -, hid, -⟩ := numbered.top
  have hown : table[d.index]? = some d := by rwa [numbered.index_eq hd]
  simp only [denotes_iff numbered.dot_notMem_machine hne]
  have hfree : ∀ key ∈ (ofText text).path, '.' ∉ key.toList := fun _ => dot_notMem_of_mem_path
  revert hfree
  rw [resolve_eq]
  rcases ofText text with ⟨name, path⟩ | path | path <;> intro hfree
  · by_cases hname : name = machine
    · dsimp only
      rw [if_pos hname, id?, if_pos hname, ← hid]
      exact numbered.arrival_walk?_eq_ok_iff htop hfree
    · simp [id?, hname]
  · exact numbered.arrival_walk?_eq_ok_iff hown hfree
  · exact numbered.arrival_walk?_eq_ok_iff ho hfree

end Outline.Numbered

end Lifecycle
