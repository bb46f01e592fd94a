import Lifecycle.Proofs.Chart.Built
import Lifecycle.Proofs.Lead.Chart
import Lifecycle.Text.Dotted

/-!
# The table mirrors the declaration

A declaration lists states inside of states (`Outline.declared`). The table of the chart that it
describes has one node for each of them, in the order in which they are declared, at the end of the
same path of keys (`Chart.mirrors_of_define`). Together with the laws of arenas this is all that a
run relies on (`Chart.Faithful`).
-/

namespace Lifecycle

/-! ## Dotted paths -/

namespace Text

theorem dotted_concat {keys : List String} (key : String) (h : keys ≠ []) :
    dotted (keys ++ [key]) = dotted keys ++ "." ++ key := by
  induction keys with
  | nil => exact absurd rfl h
  | cons first rest ih =>
    cases rest with
    | nil => rfl
    | cons second rest =>
      have hrest := ih (List.cons_ne_nil _ _)
      change first ++ "." ++ dotted (second :: rest ++ [key]) = _
      rw [hrest]
      simp only [dotted, String.append_assoc]

/-- A dotted path is read back in one way if no key has a dot. -/
theorem dotted_inj {first second : List String} (hfirst : ∀ key ∈ first, '.' ∉ key.toList)
    (hsecond : ∀ key ∈ second, '.' ∉ key.toList) (hne : first ≠ []) (hne' : second ≠ [])
    (h : dotted first = dotted second) : first = second := by
  induction first using List.reverseRecOn generalizing second with
  | nil => exact absurd rfl hne
  | append_singleton front key ih =>
    obtain ⟨front', key', rfl⟩ : ∃ front' key', second = front' ++ [key'] :=
      ⟨second.dropLast, second.getLast hne', (List.dropLast_append_getLast hne').symm⟩
    have hkey : '.' ∉ key.toList := hfirst key (by simp)
    have hkey' : '.' ∉ key'.toList := hsecond key' (by simp)
    by_cases hfront : front = []
    · subst hfront
      by_cases hfront' : front' = []
      · subst hfront'
        exact congrArg (fun key => [key]) h
      · rw [dotted_concat key' hfront'] at h
        rw [show key = dotted ([] ++ [key]) from rfl, h] at hkey
        simp at hkey
    · by_cases hfront' : front' = []
      · subst hfront'
        rw [dotted_concat key hfront] at h
        rw [show key' = dotted ([] ++ [key']) from rfl, ← h] at hkey'
        simp at hkey'
      · rw [dotted_concat key hfront, dotted_concat key' hfront'] at h
        have hchars : (dotted front).toList ++ '.' :: key.toList
            = (dotted front').toList ++ '.' :: key'.toList := by
          simpa using congrArg String.toList h
        obtain ⟨hfronts, hkeys⟩ := append_cons_inj_of_notMem_right hkey hkey' hchars
        rw [ih (fun k hk => hfirst k (List.mem_append_left _ hk))
          (fun k hk => hsecond k (List.mem_append_left _ hk)) hfront hfront'
          (String.toList_inj.mp hfronts), String.toList_inj.mp hkeys]

end Text

/-! ## The declared states -/

/-- A state of a declaration. -/
structure DeclaredState where
  /-- The keys that lead to the state, its own last. -/
  path : List String
  fields : Entries Json

namespace Outline

mutual

/-- The states of a declaration that stands at a path, each before those declared inside it. -/
def declared (path : List String) : Json → List DeclaredState
  | .obj fields => ⟨path, fields⟩ :: declaredStates path fields
  | _ => []

/-- The states that the fields of a state declare. -/
def declaredStates (path : List String) : List (String × Json) → List DeclaredState
  | [] => []
  | (name, value) :: rest =>
    if name = "states" then declaredChildren path value else declaredStates path rest

/-- The states in an object of child states. -/
def declaredChildren (path : List String) : Json → List DeclaredState
  | .obj members => declaredMembers path members
  | _ => []

/-- The states in a list of children. -/
def declaredMembers (path : List String) : List (String × Json) → List DeclaredState
  | [] => []
  | (key, value) :: rest => declared (path ++ [key]) value ++ declaredMembers path rest

end

/-- A draft stands for a declared state. -/
structure Stands (s : DeclaredState) (d : Draft) : Prop where
  path_ne : s.path ≠ []
  dotFree : ∀ key ∈ s.path, '.' ∉ key.toList
  id_eq : d.id = Text.dotted s.path
  fields_eq : d.fields = s.fields

theorem dot_notMem_of_validKey {key : String} (h : validKey key = true) : '.' ∉ key.toList := by
  simp [validKey] at h
  exact h.1.2

theorem key_of_read {root : Bool} {id key : String} {value : Json} {o : Outline}
    (h : read root id key value = .ok o) : o.key = key := by
  cases value with
  | obj fields =>
    rw [read] at h
    split at h
    · cases h
    · obtain ⟨children, -, rfl⟩ := map_eq_ok.mp h
      rfl
  | _ => cases h

mutual

/-- The drafts of an outline stand for the states that were read, in their order. -/
theorem stands_drafts {parent : Option Nat} {depth index : Nat} {root : Bool} {id key : String}
    {above : List String} {o : Outline} (habove : ∀ key ∈ above, '.' ∉ key.toList)
    (hid : id = Text.dotted (above ++ [key])) :
    (value : Json) → read root id key value = .ok o →
      List.Forall₂ Stands (declared (above ++ [key]) value) (drafts parent depth index id o)
  | .obj fields, h => by
    rw [read] at h
    split at h
    · cases h
    · rename_i kind hcheck
      obtain ⟨children, hchildren, rfl⟩ := map_eq_ok.mp h
      have hfree : ∀ k ∈ above ++ [key], '.' ∉ k.toList := by
        intro k hk
        rcases List.mem_append.mp hk with hk | hk
        · exact habove k hk
        · rw [List.mem_singleton.mp hk]
          exact dot_notMem_of_validKey (validKey_of_check hcheck)
      rw [declared, drafts]
      exact .cons ⟨by simp, hfree, hid, rfl⟩
        (stands_draftsAll_states hfree (by simp) hid fields hchildren)
  | .null, h | .bool _, h | .int _, h | .float _, h | .str _, h | .arr _, h => by cases h

theorem stands_draftsAll_states {parent depth index : Nat} {id : String} {path : List String}
    {children : List Outline} (hfree : ∀ key ∈ path, '.' ∉ key.toList) (hne : path ≠ [])
    (hid : id = Text.dotted path) :
    (fields : List (String × Json)) → readStates id fields = .ok children →
      List.Forall₂ Stands (declaredStates path fields) (draftsAll parent depth index id children)
  | [], h => by cases h; exact .nil
  | (name, value) :: rest, h => by
    rw [readStates] at h
    rw [declaredStates]
    split at h
    · rename_i hname
      rw [if_pos hname]
      exact stands_draftsAll_children hfree hne hid value h
    · rename_i hname
      rw [if_neg hname]
      exact stands_draftsAll_states hfree hne hid rest h

theorem stands_draftsAll_children {parent depth index : Nat} {id : String} {path : List String}
    {children : List Outline} (hfree : ∀ key ∈ path, '.' ∉ key.toList) (hne : path ≠ [])
    (hid : id = Text.dotted path) :
    (value : Json) → readChildren id value = .ok children →
      List.Forall₂ Stands (declaredChildren path value) (draftsAll parent depth index id children)
  | .obj members, h => by
    rw [readChildren] at h
    rw [declaredChildren]
    exact stands_draftsAll_members hfree hne hid members h
  | .null, h | .bool _, h | .int _, h | .float _, h | .str _, h | .arr _, h => by
    -- What is no object counts as absent here and declares no states.
    simp only [readChildren] at h
    split at h
    · cases h
    · cases h; exact .nil

theorem stands_draftsAll_members {parent depth index : Nat} {id : String} {path : List String}
    {children : List Outline} (hfree : ∀ key ∈ path, '.' ∉ key.toList) (hne : path ≠ [])
    (hid : id = Text.dotted path) :
    (members : List (String × Json)) → readMembers id members = .ok children →
      List.Forall₂ Stands (declaredMembers path members) (draftsAll parent depth index id children)
  | [], h => by cases h; exact .nil
  | (key, value) :: rest, h => by
    rw [readMembers] at h
    split at h
    · cases h
    · rename_i child hchild
      obtain ⟨others, hothers, rfl⟩ := map_eq_ok.mp h
      have hkey := key_of_read hchild
      have hchildId : id ++ "." ++ key = Text.dotted (path ++ [key]) := by
        rw [Text.dotted_concat key hne, hid]
      rw [declaredMembers, draftsAll, hkey]
      exact List.rel_append (stands_drafts hfree hchildId value hchild)
        (stands_draftsAll_members hfree hne hid rest hothers)

end

theorem stands_of_read {machine : String} {declaration : Json} {o : Outline}
    (h : read true machine machine declaration = .ok o) :
    List.Forall₂ Stands (declared [machine] declaration) (drafts none 0 0 machine o) :=
  @stands_drafts none 0 0 true machine machine [] o (by simp) rfl declaration h

/-- The children of a draft are listed in the order of their declaration. -/
theorem length_children_of_read {machine : String} {declaration : Json} {o : Outline} {d : Draft}
    (hu : declaration.unrepeated = true) (h : read true machine machine declaration = .ok o)
    (hd : d ∈ drafts none 0 0 machine o) : d.children.length = (childKeys d.fields).length := by
  obtain ⟨os, hblock⟩ := exists_block o (sound_of_read declaration hu h).1 hd
  rw [hblock.children_eq, length_indices, ← hblock.sound.keys_eq, List.length_map]

end Outline

namespace Chart

variable {chart : Chart} {i : Nat}

/-- The keys from the root down to a node. -/
def keysTo (chart : Chart) (i : Nat) : List String := (chart.pathTo i).map chart.keyAt

theorem keysTo_ne_nil (chart : Chart) (i : Nat) : chart.keysTo i ≠ [] := by
  intro h
  have hpath := chart.getLast?_pathTo i
  rw [List.map_eq_nil_iff.mp h] at hpath
  cases hpath

/-- One node is where the way down from another starts. -/
def StartsAt (chart : Chart) (p c : Nat) : Prop := (chart.node? p).bind Node.initial = some c

/-- What the table of a chart has in common with the declaration that it was built from, and what
a run relies on. -/
structure Faithful (chart : Chart) (declaration : Json) : Prop extends chart.Arena where
  /-- There is one node for each declared state, in preorder. -/
  paths : (List.range chart.nodes.size).map chart.keysTo =
    (Outline.declared [chart.id] declaration).map DeclaredState.path
  id_eq {i : Nat} {n : Node} : chart.node? i = some n → n.id = Text.dotted (chart.keysTo i)
  parent_none {i : Nat} {n : Node} : chart.node? i = some n → (n.parent = none ↔ i = 0)
  /-- Children are listed in the order of their declaration. -/
  keys_children {p : Nat} {m : Node} {s : DeclaredState} : chart.node? p = some m →
    (Outline.declared [chart.id] declaration)[p]? = some s →
    m.children.map chart.keyAt = Outline.childKeys s.fields
  /-- Ids and indices correspond. -/
  find?_iff {id : String} {n : Node} :
    chart.find? id = some n ↔ chart.node? n.index = some n ∧ n.id = id
  nodup_ids : (chart.nodes.toList.map Node.id).Nodup
  /-- Only compound nodes have children. -/
  childless {i : Nat} {n : Node} : chart.node? i = some n → n.kind ≠ .compound →
    n.children = [] ∧ n.initial = none
  /-- Initial children lead from a compound node to a leaf. -/
  leads {i : Nat} : chart.kindAt? i = some .compound →
    List.IsChain chart.StartsAt (i :: chart.descend i) ∧ chart.IsLeaf (chart.leafBelow i)

namespace Arena

variable (tree : chart.Arena)

include tree

theorem keysTo_of_parent {p : Nat} (h : chart.parent? i = some p) :
    chart.keysTo i = chart.keysTo p ++ [chart.keyAt i] := by
  rw [keysTo, tree.pathTo_of_parent h, List.map_append]; rfl

/-- Every id is the dotted path of keys from the root. -/
theorem dotted_keysTo {n : Node} (h : chart.node? i = some n) :
    n.id = Text.dotted (chart.keysTo i) := by
  induction i using Nat.strongRecOn generalizing n with
  | _ i ih =>
    by_cases hi : i = 0
    · subst hi
      obtain ⟨top, htop, -, -, -, hid⟩ := tree.root
      obtain rfl := Option.some.inj (htop.symm.trans h)
      rw [keysTo, tree.pathTo_zero, hid, ← keyAt_eq h]; rfl
    · obtain ⟨p, m, hlt, hp, hm, -, hid⟩ := tree.parent h hi
      rw [tree.keysTo_of_parent ((parent?_eq h).trans hp),
        Text.dotted_concat _ (chart.keysTo_ne_nil p), ← ih p hlt hm, hid, keyAt_eq h]

theorem dot_notMem_keysTo {n : Node} (h : chart.node? i = some n) :
    ∀ key ∈ chart.keysTo i, '.' ∉ key.toList := by
  intro key hkey
  obtain ⟨j, hj, rfl⟩ := List.mem_map.mp hkey
  obtain ⟨m, hm⟩ := tree.exists_node_of_mem_ancestors h (mem_pathTo.mp hj)
  rw [keyAt_eq hm]
  exact tree.dot_notMem_key hm

theorem parent_none_iff {n : Node} (h : chart.node? i = some n) : n.parent = none ↔ i = 0 := by
  constructor
  · intro hnone
    by_contra hi
    obtain ⟨p, m, -, hp, -⟩ := tree.parent h hi
    rw [hnone] at hp
    cases hp
  · rintro rfl
    rw [← parent?_eq h, tree.parent?_zero]

theorem find?_eq_some_iff {id : String} {n : Node} :
    chart.find? id = some n ↔ chart.node? n.index = some n ∧ n.id = id := by
  constructor
  · intro h
    obtain ⟨i, hi⟩ := Array.getElem?_of_mem (Array.mem_of_find?_eq_some h)
    rw [tree.index_eq hi]
    exact ⟨hi, by simpa using Array.find?_some h⟩
  · rintro ⟨h, rfl⟩
    exact tree.find?_id h

theorem nodup_map_id : (chart.nodes.toList.map Node.id).Nodup := by
  rw [List.Nodup, List.pairwise_iff_getElem]
  intro i j hi hj hlt heq
  rw [List.getElem_map, List.getElem_map] at heq
  have hnode : ∀ {k : Nat} (hk : k < chart.nodes.toList.length),
      chart.node? k = some chart.nodes.toList[k] := fun hk => by
    rw [node?, ← Array.getElem?_toList, List.getElem?_eq_getElem hk]
  rw [List.length_map] at hi hj
  exact absurd (tree.id_inj (hnode hi) (hnode hj) heq) (Nat.ne_of_lt hlt)

/-- The way down from a node goes from each node to its initial child. -/
theorem isChain_descend (i : Nat) : List.IsChain chart.StartsAt (i :: chart.descend i) := by
  induction i using tree.descend_induction with
  | compound hn _ hinitial _ _ hdescend ih =>
    rw [hdescend, List.isChain_cons_cons]
    refine ⟨?_, ih⟩
    rw [StartsAt, hn]
    exact hinitial
  | other _ hnil =>
    rw [hnil]
    exact List.isChain_singleton _

end Arena

section Described

variable {registry : Registry} {events : Option (List String)} {declaration : Json}

/-- The node at a place of the table and the state declared at that place. -/
structure Mirrors (chart : Chart) (s : DeclaredState) (i : Nat) (n : Node) : Prop where
  path_eq : chart.keysTo i = s.path
  keys_eq : n.children.map chart.keyAt = Outline.childKeys s.fields

/-- The keys of the children of a node are those that its draft declares, in their order. -/
theorem Tabled.map_keyAt_children {plan : Blueprint} {drafts : List Draft} {p : Nat} {d : Draft}
    (tabled : Tabled plan drafts chart) (hd : drafts[p]? = some d)
    (hlength : d.children.length = (Outline.childKeys d.fields).length) :
    d.children.map chart.keyAt = Outline.childKeys d.fields := by
  have hnodup : d.children.Nodup :=
    ((tabled.numbered.node hd).2.2.1).imp fun hlt => Nat.ne_of_lt hlt
  refine List.ext_getElem (by rw [List.length_map, hlength]) fun k hk hk' => ?_
  rw [List.length_map] at hk
  obtain ⟨e, he, hchild⟩ := tabled.numbered.child hd (List.getElem_mem hk)
  obtain ⟨n, hn, hfin⟩ := tabled.exists_node he
  obtain ⟨j, hj, hplace⟩ := List.mem_iff_getElem.mp hchild.place
  rw [List.getElem_zip, Prod.mk.injEq, tabled.numbered.index_eq he] at hplace
  obtain rfl : j = k := (List.getElem_inj hnodup).mp hplace.1
  rw [List.getElem_map, keyAt_eq hn, hfin.key_eq, ← hplace.2]

/-- Only compound nodes have children. -/
theorem Tabled.childless {plan : Blueprint} {drafts : List Draft} {n : Node}
    (tabled : Tabled plan drafts chart) (hn : chart.node? i = some n) (hkind : n.kind ≠ .compound) :
    n.children = [] ∧ n.initial = none := by
  obtain ⟨d, hd, hfin⟩ := tabled.exists_draft hn
  rcases tabled.defaults_cases hd hfin with ⟨hcompound, -⟩ | ⟨-, hinitial, -⟩
  · exact absurd hcompound hkind
  · exact ⟨not_not.mp ((tabled.finished_compound_iff hn).not.mp hkind), hinitial⟩

/-- Every node stands for the state declared at its place. -/
theorem mirrors_of_define (hu : declaration.unrepeated = true)
    (h : define registry events declaration = .ok chart) {n : Node} {s : DeclaredState}
    (hn : chart.node? i = some n) (hs : (Outline.declared [chart.id] declaration)[i]? = some s) :
    chart.Mirrors s i n := by
  obtain ⟨plan, outline, houtline, htable, hfinished⟩ := exists_outline_of_define h
  have tabled : Tabled plan _ chart := ⟨Outline.numbered_of_read hu houtline, htable, hfinished⟩
  obtain ⟨d, hd, hfin⟩ := tabled.exists_draft hn
  have hstands := rel_of_forall₂ (Outline.stands_of_read houtline) hs hd
  have tree := tabled.arena
  constructor
  · refine Text.dotted_inj (tree.dot_notMem_keysTo hn) hstands.dotFree (chart.keysTo_ne_nil i)
      hstands.path_ne ?_
    rw [← tree.dotted_keysTo hn, hfin.id_eq, hstands.id_eq]
  · rw [hfin.children_eq, ← hstands.fields_eq]
    exact tabled.map_keyAt_children hd
      (Outline.length_children_of_read hu houtline (List.mem_of_getElem? hd))

theorem size_eq_of_define (h : define registry events declaration = .ok chart) :
    chart.nodes.size = (Outline.declared [chart.id] declaration).length := by
  obtain ⟨plan, outline, houtline, -, hfinished⟩ := exists_outline_of_define h
  rw [(Outline.stands_of_read houtline).length_eq, hfinished.length_eq, Array.length_toList]

/-- **A described chart is faithful.** The table of every chart that a declaration describes is an
arena that has the declared states as its nodes, in the order of their declaration. -/
theorem define_faithful (hu : declaration.unrepeated = true)
    (h : define registry events declaration = .ok chart) : chart.Faithful declaration := by
  obtain ⟨plan, drafts, tabled⟩ := Built.tabled ⟨registry, events, declaration, hu, h⟩
  have tree := tabled.arena
  refine { tree with
    paths := ?_, id_eq := tree.dotted_keysTo, parent_none := tree.parent_none_iff,
    keys_children := fun hm hs => (mirrors_of_define hu h hm hs).keys_eq,
    find?_iff := tree.find?_eq_some_iff, nodup_ids := tree.nodup_map_id,
    childless := tabled.childless, leads := ?_ }
  · refine List.ext_getElem (by simp [size_eq_of_define h]) fun i hi hi' => ?_
    rw [List.getElem_map, List.getElem_map, List.getElem_range]
    rw [List.length_map, List.length_range] at hi
    rw [List.length_map] at hi'
    exact (mirrors_of_define hu h (Array.getElem?_eq_getElem hi)
      (List.getElem?_eq_getElem hi')).path_eq
  · intro i hkind
    obtain ⟨n, hn, -⟩ := exists_node_of_kindAt? hkind
    refine ⟨tree.isChain_descend i, (tree.pathTo_leafBelow hn ?_).2.1⟩
    exact isHistory_of_kindAt? hkind (by decide)

set_option maxRecDepth 10000 in
/-- The chart of a lead is faithful to its declaration. -/
theorem define_faithful_lead :
    Lead.declaration.unrepeated = true ∧
      define Lead.registry (some LeadEvent.words) Lead.declaration = .ok Lead.chart ∧
      Lead.chart.Faithful Lead.declaration :=
  have hu : Lead.declaration.unrepeated = true := by decide +kernel
  ⟨hu, Lead.built_eq, define_faithful hu Lead.built_eq⟩

end Described

end Chart

end Lifecycle
