import Lifecycle.Proofs.Chart.Preorder

/-!
# Guides

In a diagram the label of a node stands behind guides: one for each node above it but the root, and
one of its own. Each tells whether its node is a last child. They are read back from a line
(`Diagram.readGuides_append`), so a line tells the depth of its node. In preorder the parent of a
node is the nearest node before it that is one less deep, and so the depths alone tell all parents
(`Chart.Built.parentLine_eq`).
-/

namespace Lifecycle

namespace Diagram

/-- The guide of a node before the lines of the nodes below it. -/
def stem (last : Bool) : String := if last then "    " else "│   "

/-- The guide of a node before its own label. -/
def branch (last : Bool) : String := if last then "└── " else "├── "

/-- The guides of the nodes on a way down, before the lines of the nodes below its end. -/
def lead (lasts : List Bool) : String := String.join (lasts.map stem)

/-- The guides of the nodes on a way down, before the label of its end. -/
def guides : List Bool → String
  | [] => ""
  | [last] => branch last
  | last :: rest => stem last ++ guides rest

/-- What guides at the start of a line tell of the nodes on the way down. -/
def readGuides : List Char → List Bool
  | ' ' :: ' ' :: ' ' :: ' ' :: rest => true :: readGuides rest
  | '│' :: ' ' :: ' ' :: ' ' :: rest => false :: readGuides rest
  | '└' :: _ => [true]
  | '├' :: _ => [false]
  | _ => []

/-- Whether guides are drawn with a character. -/
def isGuide (c : Char) : Bool := [' ', '│', '└', '├', '─'].contains c

theorem lead_concat (lasts : List Bool) (last : Bool) :
    lead (lasts ++ [last]) = lead lasts ++ stem last := by
  rw [← String.toList_inj]
  simp [lead, String.toList_join]

theorem guides_concat (lasts : List Bool) (last : Bool) :
    guides (lasts ++ [last]) = lead lasts ++ branch last := by
  rw [← String.toList_inj]
  induction lasts with
  | nil => rfl
  | cons first rest ih =>
    obtain ⟨second, others, hrest⟩ : ∃ second others, rest ++ [last] = second :: others :=
      List.exists_cons_of_ne_nil (by simp)
    rw [List.cons_append, hrest, guides, ← hrest, String.toList_append, ih]
    · simp [lead, String.toList_join]
    · exact List.cons_ne_nil _ _

theorem isGuide_of_mem_guides {c : Char} {lasts : List Bool} (h : c ∈ (guides lasts).toList) :
    isGuide c = true := by
  have hbranch : ∀ last, (branch last).toList.all isGuide = true := by decide
  have hstem : ∀ last, (stem last).toList.all isGuide = true := by decide
  induction lasts with
  | nil => cases h
  | cons last rest ih =>
    cases rest with
    | nil => exact List.all_eq_true.mp (hbranch last) c h
    | cons second others =>
      rw [guides, String.toList_append] at h
      · exact (List.mem_append.mp h).elim (List.all_eq_true.mp (hstem last) c) ih
      · exact List.cons_ne_nil _ _

theorem readGuides_of_label {label : List Char} (h : ∀ c ∈ label.head?, isGuide c = false) :
    readGuides label = [] := by
  unfold readGuides
  split
  case h_5 => rfl
  all_goals exact absurd (h _ rfl) (by decide)

/-- The guides before a label are read back. -/
theorem readGuides_append {label : List Char} (h : ∀ c ∈ label.head?, isGuide c = false)
    (lasts : List Bool) : readGuides ((guides lasts).toList ++ label) = lasts := by
  induction lasts with
  | nil => exact readGuides_of_label h
  | cons last rest ih =>
    cases rest with
    | nil => cases last <;> rfl
    | cons second others =>
      rw [guides, String.toList_append, List.append_assoc]
      · cases last
        · exact congrArg (List.cons false) ih
        · exact congrArg (List.cons true) ih
      · exact List.cons_ne_nil _ _

/-! ## Parents -/

/-- The last number below a bound that passes a test. -/
def lastBefore (test : Nat → Bool) : Nat → Option Nat
  | 0 => none
  | i + 1 => if test i then some i else lastBefore test i

/-- The line of the parent of a node: the last one before it whose node is one less deep. -/
def parentLine (depths : List Nat) (i : Nat) : Option Nat :=
  lastBefore (fun j => depths[j]?.map (· + 1) == depths[i]?) i

theorem lastBefore_eq_some {test : Nat → Bool} {i j : Nat} (hlt : j < i) (htest : test j = true)
    (hnot : ∀ k, j < k → k < i → test k = false) : lastBefore test i = some j := by
  induction i with
  | zero => exact absurd hlt (Nat.not_lt_zero j)
  | succ i ih =>
    rw [lastBefore]
    by_cases hij : j = i
    · rw [if_pos (hij ▸ htest), hij]
    · rw [hnot i (by omega) (Nat.lt_succ_self i)]
      exact ih (by omega) fun k hjk hki => hnot k hjk (by omega)

end Diagram

namespace Chart

variable {chart : Chart} {i p c : Nat} {n : Node}

/-- The children of a node. -/
def childrenAt (chart : Chart) (i : Nat) : List Nat :=
  ((chart.node? i).map Node.children).getD []

/-- Whether a node is the last child of its parent. -/
def isLastChild (chart : Chart) (i : Nat) : Bool :=
  (chart.parent? i).any fun p => (chart.childrenAt p).getLast? == some i

/-- For each node on the way down from the root to a node, whether it is a last child; not for the
root itself. -/
def lastChildren (chart : Chart) (i : Nat) : List Bool :=
  ((chart.pathTo i).drop 1).map chart.isLastChild

namespace Arena

variable (tree : chart.Arena)

include tree

theorem mem_childrenAt : c ∈ chart.childrenAt p ↔ chart.parent? c = some p := by
  rcases hm : chart.node? p with _ | m
  · rw [childrenAt, hm]
    refine ⟨nofun, fun hparent => ?_⟩
    obtain ⟨-, -, m, -, hm', -⟩ := tree.parent?_spec hparent
    rw [hm] at hm'
    cases hm'
  · rw [childrenAt, hm]
    exact tree.mem_children hm

theorem lastChildren_zero : chart.lastChildren 0 = [] := by
  rw [lastChildren, tree.pathTo_zero]
  rfl

theorem lastChildren_of_parent (h : chart.parent? c = some p) :
    chart.lastChildren c = chart.lastChildren p ++ [chart.isLastChild c] := by
  have hpos : 1 ≤ (chart.pathTo p).length := by
    rw [Nat.one_le_iff_ne_zero, ne_eq, List.length_eq_zero_iff]
    exact List.ne_nil_of_mem (mem_pathTo.mpr (self_mem_ancestors chart p))
  rw [lastChildren, tree.pathTo_of_parent h, List.drop_append_of_le_length hpos, List.map_append]
  rfl

/-- The way down to a node is as long as the node is deep. -/
theorem length_lastChildren (h : chart.node? i = some n) :
    (chart.lastChildren i).length = n.depth := by
  induction i using Nat.strongRecOn generalizing n with
  | _ i ih =>
    by_cases hi : i = 0
    · subst hi
      obtain ⟨root, hroot, -, -, hdepth, -⟩ := tree.root
      obtain rfl := Option.some.inj (hroot.symm.trans h)
      rw [tree.lastChildren_zero, hdepth]
      rfl
    · obtain ⟨p, m, hlt, hp, hm, hdepth, -⟩ := tree.parent h hi
      rw [tree.lastChildren_of_parent ((parent?_eq h).trans hp), List.length_append,
        ih p hlt hm, hdepth]
      rfl

end Arena

/-- The depths of the nodes of a built chart tell their parents. -/
theorem Built.parentLine_eq (h : chart.Built) {depths : List Nat}
    (hdepths : depths = (List.range chart.nodes.size).map fun j => (chart.lastChildren j).length)
    (hi : i < chart.nodes.size) : Diagram.parentLine depths i = chart.parent? i := by
  have tree := h.arena
  have hat {j : Nat} {l : Node} (hl : chart.node? j = some l) : depths[j]? = some l.depth := by
    have hlt : j < chart.nodes.size := (Array.getElem?_eq_some_iff.mp hl).1
    rw [hdepths, List.getElem?_map, List.getElem?_range hlt, Option.map_some,
      tree.length_lastChildren hl]
  obtain ⟨n, hn⟩ := exists_node_of_lt hi
  by_cases hzero : i = 0
  · subst hzero
    rw [tree.parent?_zero]
    rfl
  · obtain ⟨p, m, hlt, hp, hm, hdepth, -⟩ := tree.parent hn hzero
    have hparent := (parent?_eq hn).trans hp
    rw [hparent]
    refine Diagram.lastBefore_eq_some hlt ?_ fun k hpk hki => ?_
    · rw [hat hm, hat hn, hdepth]
      exact beq_self_eq_true _
    · obtain ⟨l, hl⟩ := exists_node_of_lt (Nat.lt_trans hki hi)
      have hdeeper := h.depth_lt_of_between hparent hm hl hpk hki
      rw [hat hl, hat hn, hdepth, Option.map_some, beq_eq_false_iff_ne, ne_eq, Option.some.injEq]
      omega

end Chart

end Lifecycle
