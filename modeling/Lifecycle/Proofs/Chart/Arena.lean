import Lifecycle.Chart.Outline
import Lifecycle.Proofs.Chart.Ancestors

/-!
# Arenas

What the table of a chart has to be for a run to be safe: a tree with the root first, siblings under
different keys, and references that stay inside it. From these facts alone follow the laws of the
tree that the runtime relies on: every chain of ancestors reaches the root
(`Arena.zero_mem_ancestors`), ids name nodes (`Arena.id_inj`), and initial children lead to a leaf
(`Arena.pathTo_leafBelow`).
-/

namespace Lifecycle

/-- A list is cut at the last place of an item in one way only. -/
theorem append_cons_inj_of_notMem_right {α : Type} {a : α} {xs ys us vs : List α} (hu : a ∉ us)
    (hv : a ∉ vs) (h : xs ++ a :: us = ys ++ a :: vs) : xs = ys ∧ us = vs := by
  rcases List.append_eq_append_iff.mp h with ⟨ws, hys, hus⟩ | ⟨ws, hxs, hvs⟩
  · cases ws with
    | nil => exact ⟨by simpa using hys.symm, by simpa using hus⟩
    | cons w ws =>
      rw [List.cons_append, List.cons.injEq] at hus
      exact absurd (hus.2 ▸ List.mem_append_right _ List.mem_cons_self) hu
  · cases ws with
    | nil => exact ⟨by simpa using hxs, by simpa using hvs.symm⟩
    | cons w ws =>
      rw [List.cons_append, List.cons.injEq] at hvs
      exact absurd (hvs.2 ▸ List.mem_append_right _ List.mem_cons_self) hv

namespace Chart

/-- An active path may end at the node. -/
def IsLeaf (chart : Chart) (i : Nat) : Prop := (chart.kindAt? i).any Kind.isLeaf = true

instance (chart : Chart) (i : Nat) : Decidable (chart.IsLeaf i) :=
  inferInstanceAs (Decidable ((chart.kindAt? i).any Kind.isLeaf = true))

/-- The node at which the initial children below a node end. -/
def leafBelow (chart : Chart) (i : Nat) : Nat := (chart.descend i).getLast?.getD i

/-- The nodes of a table form a tree with the root first, and refer to nodes of that tree. -/
structure Arena (chart : Chart) : Prop where
  /-- Every node stands at its index. -/
  index_eq {i : Nat} {n : Node} : chart.node? i = some n → n.index = i
  root : ∃ n, chart.node? 0 = some n ∧ n.kind = .compound ∧ n.parent = none ∧ n.depth = 0 ∧
    n.id = n.key
  parent {i : Nat} {n : Node} : chart.node? i = some n → i ≠ 0 →
    ∃ p m, p < i ∧ n.parent = some p ∧ chart.node? p = some m ∧ n.depth = m.depth + 1 ∧
      n.id = m.id ++ "." ++ n.key
  validKey {i : Nat} {n : Node} : chart.node? i = some n → Outline.validKey n.key = true
  mem_children {p c : Nat} {m : Node} : chart.node? p = some m →
    (c ∈ m.children ↔ chart.parent? c = some p)
  sorted_children {p : Nat} {m : Node} : chart.node? p = some m → m.children.Pairwise (· < ·)
  /-- Siblings have different keys. -/
  key_inj {p c d : Nat} : chart.parent? c = some p → chart.parent? d = some p →
    chart.keyAt c = chart.keyAt d → c = d
  compound_iff {i : Nat} {n : Node} : chart.node? i = some n →
    (n.kind = .compound ↔ n.children ≠ [])
  initial {i : Nat} {n : Node} : chart.node? i = some n → n.kind = .compound →
    ∃ c, n.initial = some c ∧ chart.parent? c = some i ∧ chart.isHistory c = false
  history_iff {i h : Nat} {n : Node} : chart.node? i = some n →
    (n.history = some h ↔ chart.parent? h = some i ∧ chart.isHistory h = true)
  transition {i : Nat} {n : Node} {t : Transition} : chart.node? i = some n → t ∈ n.transitions →
    t.source = i ∧ ∀ target, t.target = some target → (chart.parent? target).isSome = true
  /-- What a final child triggers leaves the node. -/
  onDone {i : Nat} {n : Node} {t : Transition} : chart.node? i = some n → n.onDone = some t →
    t.source = i ∧ ∃ target, t.target = some target ∧ (chart.parent? target).isSome = true ∧
      i ∉ chart.ancestors target

variable {chart : Chart} {i j k p c d : Nat}

theorem parent?_eq {n : Node} (h : chart.node? i = some n) : chart.parent? i = n.parent := by
  rw [parent?, h]; rfl

theorem keyAt_eq {n : Node} (h : chart.node? i = some n) : chart.keyAt i = n.key := by
  rw [keyAt, h]; rfl

theorem kindAt?_eq {n : Node} (h : chart.node? i = some n) : chart.kindAt? i = some n.kind := by
  rw [kindAt?, h]; rfl

theorem child?_eq_find? {m : Node} (hm : chart.node? p = some m) {key : String} :
    chart.child? p key = m.children.find? fun c => (chart.node? c).any fun n => n.key == key := by
  rw [child?, hm]

theorem exists_node_of_lt (h : i < chart.nodes.size) : ∃ n, chart.node? i = some n :=
  ⟨_, Array.getElem?_eq_getElem h⟩

theorem exists_node_of_parent? (h : chart.parent? c = some p) :
    ∃ n, chart.node? c = some n ∧ n.parent = some p :=
  Option.bind_eq_some_iff.mp h

theorem exists_node_of_kindAt? {kind : Kind} (h : chart.kindAt? i = some kind) :
    ∃ n, chart.node? i = some n ∧ n.kind = kind :=
  Option.map_eq_some_iff.mp h

theorem isHistory_of_kindAt? {kind : Kind} (h : chart.kindAt? i = some kind)
    (hkind : kind ≠ .history) : chart.isHistory i = false := by
  rw [isHistory, h]
  exact decide_eq_false fun heq => hkind (Option.some.inj heq)

theorem isLeaf_iff :
    chart.IsLeaf i ↔ chart.kindAt? i = some .atomic ∨ chart.kindAt? i = some .final := by
  unfold IsLeaf
  rcases chart.kindAt? i with _ | kind
  · simp
  · cases kind <;> simp [Kind.isLeaf]

theorem IsLeaf.exists_node (h : chart.IsLeaf i) : ∃ n, chart.node? i = some n := by
  rcases isLeaf_iff.mp h with hkind | hkind
  · exact (exists_node_of_kindAt? hkind).imp fun _ hn => hn.1
  · exact (exists_node_of_kindAt? hkind).imp fun _ hn => hn.1

theorem IsLeaf.kindAt?_ne (h : chart.IsLeaf i) : chart.kindAt? i ≠ some .compound := by
  rcases isLeaf_iff.mp h with hkind | hkind <;> rw [hkind] <;> decide

theorem IsLeaf.ne_of_kindAt? (h : chart.IsLeaf i) (hj : chart.kindAt? j = some .compound) :
    j ≠ i := by
  rintro rfl
  exact h.kindAt?_ne hj

theorem IsLeaf.isHistory_eq (h : chart.IsLeaf i) : chart.isHistory i = false := by
  rcases isLeaf_iff.mp h with hkind | hkind <;> exact isHistory_of_kindAt? hkind (by decide)

theorem descend_of_not_compound (h : chart.kindAt? i ≠ some .compound) :
    chart.descend i = [] := by
  rw [descend]
  split
  · rename_i n hn
    rw [if_neg fun hkind => h (by rw [kindAt?_eq hn, hkind])]
  · rfl

namespace Arena

variable (tree : chart.Arena)

include tree

/-! ## Parents -/

theorem parent?_zero : chart.parent? 0 = none := by
  obtain ⟨n, hn, -, hparent, -⟩ := tree.root
  rw [parent?_eq hn, hparent]

/-- Every parent stands before its child. -/
theorem parent?_spec (h : chart.parent? c = some p) :
    p < c ∧ ∃ n m, chart.node? c = some n ∧ chart.node? p = some m ∧ n.parent = some p ∧
      n.depth = m.depth + 1 ∧ n.id = m.id ++ "." ++ n.key := by
  obtain ⟨n, hn, hparent⟩ := exists_node_of_parent? h
  have hc : c ≠ 0 := by
    rintro rfl
    rw [tree.parent?_zero] at h
    cases h
  obtain ⟨q, m, hlt, hq, hm, hdepth, hid⟩ := tree.parent hn hc
  obtain rfl : p = q := Option.some.inj (hparent.symm.trans hq)
  exact ⟨hlt, n, m, hn, hm, hparent, hdepth, hid⟩

theorem ancestors_zero : chart.ancestors 0 = [0] := by
  rw [ancestors_eq, tree.parent?_zero]

theorem ancestors_of_parent (h : chart.parent? c = some p) :
    chart.ancestors c = c :: chart.ancestors p := by
  rw [ancestors_eq, h]
  simp only [if_pos (tree.parent?_spec h).1]

theorem pathTo_of_parent (h : chart.parent? c = some p) :
    chart.pathTo c = chart.pathTo p ++ [c] := by
  rw [pathTo, tree.ancestors_of_parent h, List.reverse_cons, pathTo]

theorem mem_ancestors_of_parent (h : chart.parent? c = some p) : p ∈ chart.ancestors c := by
  rw [tree.ancestors_of_parent h]
  exact List.mem_cons_of_mem _ (self_mem_ancestors chart p)

/-- Being below a node is being below or at it one step further up. -/
theorem isBelow_iff_of_parent (h : chart.parent? c = some p) :
    chart.isBelow c i = true ↔ i ∈ chart.ancestors p := by
  rw [isBelow, properAncestors, tree.ancestors_of_parent h, List.contains_iff_mem, List.drop_one,
    List.tail_cons]

theorem zero_mem_ancestors {n : Node} (h : chart.node? i = some n) : 0 ∈ chart.ancestors i := by
  induction i using Nat.strongRecOn generalizing n with
  | _ i ih =>
    by_cases hi : i = 0
    · rw [hi]; exact self_mem_ancestors chart 0
    · obtain ⟨p, m, hlt, hp, hm, -⟩ := tree.parent h hi
      rw [tree.ancestors_of_parent ((parent?_eq h).trans hp)]
      exact List.mem_cons_of_mem _ (ih p hlt hm)

theorem pathTo_zero : chart.pathTo 0 = [0] := by
  rw [pathTo, tree.ancestors_zero]; rfl

/-- Every path starts at the root. -/
theorem head?_pathTo {n : Node} (h : chart.node? i = some n) :
    (chart.pathTo i).head? = some 0 := by
  rw [pathTo_eq_append_exitSet (tree.zero_mem_ancestors h), tree.pathTo_zero]
  rfl

theorem exists_node_of_mem_ancestors {n : Node} (h : chart.node? i = some n)
    (hj : j ∈ chart.ancestors i) : ∃ m, chart.node? j = some m := by
  induction i using Nat.strongRecOn generalizing n with
  | _ i ih =>
    rcases mem_ancestors_cases hj with rfl | ⟨p, hp, hlt, -, hjp⟩
    · exact ⟨n, h⟩
    · obtain ⟨-, -, m, -, hm, -⟩ := tree.parent?_spec hp
      exact ih p hlt hm hjp

/-- A node with a child is compound. -/
theorem kindAt?_of_parent (h : chart.parent? c = some p) : chart.kindAt? p = some .compound := by
  obtain ⟨-, n, m, hn, hm, -⟩ := tree.parent?_spec h
  have hc : c ∈ m.children := (tree.mem_children hm).mpr h
  rw [kindAt?_eq hm, (tree.compound_iff hm).mpr (List.ne_nil_of_mem hc)]

theorem isHistory_of_parent (h : chart.parent? c = some p) : chart.isHistory p = false :=
  isHistory_of_kindAt? (tree.kindAt?_of_parent h) (by decide)

/-- A node above another one is compound. -/
theorem kindAt?_of_mem_properAncestors (h : j ∈ chart.ancestors i) (hne : j ≠ i) :
    chart.kindAt? j = some .compound := by
  induction i using Nat.strongRecOn with
  | _ i ih =>
    rcases mem_ancestors_cases h with rfl | ⟨p, hp, hlt, -, hjp⟩
    · exact absurd rfl hne
    · by_cases hjp' : j = p
      · exact hjp' ▸ tree.kindAt?_of_parent hp
      · exact ih p hlt hjp hjp'

/-- The path to a leaf holds no history node. -/
theorem isHistory_of_mem_ancestors (h : chart.IsLeaf i) (hj : j ∈ chart.ancestors i) :
    chart.isHistory j = false := by
  by_cases hne : j = i
  · exact hne ▸ h.isHistory_eq
  · exact isHistory_of_kindAt? (tree.kindAt?_of_mem_properAncestors hj hne) (by decide)

/-! ## Keys and ids -/

theorem child?_keyAt (h : chart.parent? c = some p) : chart.child? p (chart.keyAt c) = some c := by
  obtain ⟨-, n, m, hn, hm, -⟩ := tree.parent?_spec h
  rw [child?_eq_find? hm]
  have hc : c ∈ m.children := (tree.mem_children hm).mpr h
  rcases hfind : m.children.find? _ with _ | d
  · have := List.find?_eq_none.mp hfind c hc
    simp [hn, keyAt_eq hn] at this
  · obtain ⟨l, hl, hkey⟩ : ∃ l, chart.node? d = some l ∧ l.key = chart.keyAt c := by
      simpa [Option.any_eq_true] using List.find?_some hfind
    have hd := (tree.mem_children hm).mp (List.mem_of_find?_eq_some hfind)
    rw [tree.key_inj hd h ((keyAt_eq hl).trans hkey)]

theorem child?_eq_some_iff {key : String} :
    chart.child? p key = some c ↔ chart.parent? c = some p ∧ chart.keyAt c = key := by
  constructor
  · intro h
    rcases hm : chart.node? p with _ | m
    · rw [child?, hm] at h; cases h
    · rw [child?_eq_find? hm] at h
      obtain ⟨l, hl, hkey⟩ : ∃ l, chart.node? c = some l ∧ l.key = key := by
        simpa [Option.any_eq_true] using List.find?_some h
      exact ⟨(tree.mem_children hm).mp (List.mem_of_find?_eq_some h), (keyAt_eq hl).trans hkey⟩
  · rintro ⟨h, rfl⟩
    exact tree.child?_keyAt h

/-- A key has no dot. -/
theorem dot_notMem_key {n : Node} (h : chart.node? i = some n) : '.' ∉ n.key.toList := by
  have := tree.validKey h
  simp [Outline.validKey] at this
  exact this.1.2

/-- Ids name nodes. -/
theorem id_inj {m n : Node} (hm : chart.node? i = some m) (hn : chart.node? j = some n)
    (h : m.id = n.id) : i = j := by
  induction i using Nat.strongRecOn generalizing j m n with
  | _ i ih =>
    have hroot : ∀ {k l : Nat} {r q : Node}, chart.node? k = some r → k = 0 →
        chart.node? l = some q → l ≠ 0 → r.id ≠ q.id := by
      intro k l r q hr hk hq hl heq
      obtain ⟨r', hr', -, -, -, hkey⟩ := tree.root
      obtain rfl : r' = r := Option.some.inj (hr'.symm.trans (hk ▸ hr))
      obtain ⟨p, m, -, -, -, -, hid⟩ := tree.parent hq hl
      have hdot := tree.dot_notMem_key hr
      rw [← hkey, heq, hid] at hdot
      simp at hdot
    by_cases hi : i = 0
    · by_cases hj : j = 0
      · rw [hi, hj]
      · exact absurd h (hroot hm hi hn hj)
    · by_cases hj : j = 0
      · exact absurd h.symm (hroot hn hj hm hi)
      · obtain ⟨p, m', hlt, hp, hm', -, hid⟩ := tree.parent hm hi
        obtain ⟨q, n', -, hq, hn', -, hid'⟩ := tree.parent hn hj
        have hids : m'.id.toList ++ '.' :: m.key.toList = n'.id.toList ++ '.' :: n.key.toList := by
          rw [hid, hid'] at h
          simpa using congrArg String.toList h
        obtain ⟨hparents, hkeys⟩ := append_cons_inj_of_notMem_right (tree.dot_notMem_key hm)
          (tree.dot_notMem_key hn) hids
        obtain rfl : p = q := ih p hlt hm' hn' (String.toList_inj.mp hparents)
        exact tree.key_inj ((parent?_eq hm).trans hp) ((parent?_eq hn).trans hq)
          (by rw [keyAt_eq hm, keyAt_eq hn, String.toList_inj.mp hkeys])

/-- A node is found by its id. -/
theorem find?_id {n : Node} (h : chart.node? i = some n) : chart.find? n.id = some n := by
  rcases hf : chart.find? n.id with _ | m
  · have := Array.find?_eq_none.mp hf n (Array.mem_of_getElem? h)
    simp at this
  · obtain ⟨j, hj⟩ := Array.getElem?_of_mem (Array.mem_of_find?_eq_some hf)
    have hid : m.id = n.id := by simpa using Array.find?_some hf
    obtain rfl := tree.id_inj hj h hid
    exact hj.symm.trans h

/-! ## The part of a path below a node -/

theorem exitSet_of_parent (h : chart.parent? c = some p) (ha : i ∈ chart.ancestors p) :
    chart.exitSet c i = c :: chart.exitSet p i := by
  have hc := ancestors_eq_exitSet_append (ancestors_trans ha (tree.mem_ancestors_of_parent h))
  rw [tree.ancestors_of_parent h, ancestors_eq_exitSet_append ha, ← List.cons_append] at hc
  exact (List.append_cancel_right hc).symm

/-- Below an ancestor a path goes on with a child of it. -/
theorem getLast?_exitSet (ha : i ∈ chart.ancestors j) (hne : i ≠ j) :
    ∃ c, (chart.exitSet j i).getLast? = some c ∧ chart.parent? c = some i ∧
      c ∈ chart.ancestors j := by
  induction j using Nat.strongRecOn with
  | _ j ih =>
    rcases mem_ancestors_cases ha with rfl | ⟨p, hp, hlt, -, hip⟩
    · exact absurd rfl hne
    · rw [tree.exitSet_of_parent hp hip]
      by_cases hi : i = p
      · subst hi
        have hnil : chart.exitSet i i = [] := by
          have := ancestors_eq_exitSet_append (self_mem_ancestors chart i)
          exact List.append_left_eq_self.mp this.symm
        exact ⟨j, by rw [hnil]; rfl, hp, self_mem_ancestors chart j⟩
      · obtain ⟨c, hc, hparent, hmem⟩ := ih p hlt hip hi
        exact ⟨c, by rw [List.getLast?_cons, hc]; rfl, hparent,
          ancestors_trans hmem (tree.mem_ancestors_of_parent hp)⟩

/-- After a node a path goes on with a child of it. -/
theorem next?_spec (ha : i ∈ chart.ancestors j) (hne : i ≠ j) :
    ∃ c, chart.next? j i = some c ∧ chart.parent? c = some i ∧ c ∈ chart.ancestors j := by
  obtain ⟨c, hc, hparent, hmem⟩ := tree.getLast?_exitSet ha hne
  refine ⟨c, ?_, hparent, hmem⟩
  rw [next?, dropWhile_pathTo ha, List.getElem?_cons_succ, ← List.head?_eq_getElem?,
    List.head?_reverse, hc]

/-! ## Initial children -/

/-- Below a compound node the way down starts with its initial child. -/
theorem descend_of_compound (h : chart.kindAt? i = some .compound) :
    ∃ n c, chart.node? i = some n ∧ n.initial = some c ∧ chart.parent? c = some i ∧
      chart.isHistory c = false ∧ chart.descend i = c :: chart.descend c := by
  obtain ⟨n, hn, hkind⟩ := exists_node_of_kindAt? h
  obtain ⟨c, hinitial, hparent, hhistory⟩ := tree.initial hn hkind
  obtain ⟨hlt, m, -, hm, -⟩ := tree.parent?_spec hparent
  have hsize : c < chart.nodes.size := (Array.getElem?_eq_some_iff.mp hm).1
  refine ⟨n, c, hn, hinitial, hparent, hhistory, ?_⟩
  rw [descend, hn]
  simp only [if_pos hkind, hinitial, if_pos (And.intro hlt hsize)]

/-- Induction along the way down: a compound node comes to its initial child. -/
theorem descend_induction {P : Nat → Prop}
    (compound : ∀ {i c : Nat} {n : Node}, chart.node? i = some n → n.kind = .compound →
      n.initial = some c → chart.parent? c = some i → chart.isHistory c = false →
      chart.descend i = c :: chart.descend c → P c → P i)
    (other : ∀ {i : Nat}, chart.kindAt? i ≠ some .compound → chart.descend i = [] → P i)
    (i : Nat) : P i := by
  induction hk : chart.nodes.size - i using Nat.strongRecOn generalizing i with
  | _ k ih =>
    by_cases hkind : chart.kindAt? i = some .compound
    · obtain ⟨n, c, hn, hinitial, hparent, hhistory, hdescend⟩ := tree.descend_of_compound hkind
      obtain ⟨hlt, m, -, hm, -⟩ := tree.parent?_spec hparent
      have hsize : c < chart.nodes.size := (Array.getElem?_eq_some_iff.mp hm).1
      exact compound hn (Option.some.inj ((kindAt?_eq hn).symm.trans hkind)) hinitial hparent
        hhistory hdescend (ih (chart.nodes.size - c) (by omega) c rfl)
    · exact other hkind (descend_of_not_compound hkind)

/-- Initial children lead down a path to a leaf. -/
theorem pathTo_leafBelow {n : Node} (hn : chart.node? i = some n)
    (hhistory : chart.isHistory i = false) :
    chart.pathTo (chart.leafBelow i) = chart.pathTo i ++ chart.descend i ∧
      chart.IsLeaf (chart.leafBelow i) ∧ ∀ j ∈ chart.descend i, chart.isHistory j = false := by
  induction i using tree.descend_induction generalizing n with
  | @compound i c _ _ _ _ hparent hc hdescend ih =>
    obtain ⟨-, m, -, hm, -⟩ := tree.parent?_spec hparent
    obtain ⟨hpath, hleaf, hbelow⟩ := ih hm hc
    have hsame : chart.leafBelow i = chart.leafBelow c := by
      rw [leafBelow, hdescend, List.getLast?_cons, Option.getD_some, leafBelow]
    rw [hsame, hdescend]
    refine ⟨?_, hleaf, List.forall_mem_cons.mpr ⟨hc, hbelow⟩⟩
    rw [hpath, tree.pathTo_of_parent hparent, List.append_assoc, List.singleton_append]
  | @other i hkind hnil =>
    have hself : chart.leafBelow i = i := by rw [leafBelow, hnil]; rfl
    rw [hself, hnil]
    refine ⟨(List.append_nil _).symm, ?_, by simp⟩
    rw [isHistory] at hhistory
    rw [isLeaf_iff]
    rw [kindAt?_eq hn] at hkind hhistory ⊢
    cases h : n.kind <;> simp_all

end Arena

end Chart

end Lifecycle
