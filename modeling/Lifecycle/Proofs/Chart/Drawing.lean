import Lifecycle.Chart.Diagram
import Lifecycle.Proofs.Chart.Guides

/-!
# Drawing a chart

A label without line breaks, tabs and controls is one line as it stands (`labelLines_of_unbroken`).
Where all labels are, a diagram has one line for each node of a built chart, in the order of the
table: its label behind its guides (`Built.diagramLines_eq`). The lines are read back from the text
(`Diagram.linesOf_join`), and the parents of all nodes from the lines (`parents_diagram`).
-/

namespace Lifecycle

namespace Diagram

/-- Whether a terminal acts on a character instead of showing it in its line. -/
def breaksLine (c : Char) : Bool := 7 ≤ c.toNat && c.toNat ≤ 13

/-- The lines of a text of which each is ended. -/
def linesOf (text : String) : List (List Char) := (text.toList.splitOn '\n').dropLast

/-- For each line of a diagram, the line of the parent of its node. -/
def parents (text : String) : List (Option Nat) :=
  let depths := (linesOf text).map fun line => (readGuides line).length
  (List.range depths.length).map (parentLine depths)

theorem toList_join_lines (lines : List String) :
    (String.join (lines.map (· ++ "\n"))).toList =
      ['\n'].intercalate (lines.map String.toList ++ [[]]) := by
  induction lines with
  | nil => rfl
  | cons line rest ih =>
    rw [String.toList_join] at ih ⊢
    obtain ⟨first, others, hrest⟩ : ∃ first others, rest.map String.toList ++ [[]] =
        first :: others := List.exists_cons_of_ne_nil (by simp)
    rw [List.map_cons, List.flatMap_cons, ih, List.map_cons, List.cons_append, hrest,
      List.intercalate_cons_cons]
    simp

/-- Lines are read back from a text. -/
theorem linesOf_join {lines : List String} (h : ∀ line ∈ lines, '\n' ∉ line.toList) :
    linesOf (String.join (lines.map (· ++ "\n"))) = lines.map String.toList := by
  have hparts : ∀ part ∈ lines.map String.toList ++ [[]], '\n' ∉ part := by
    intro part hpart
    rcases List.mem_append.mp hpart with hpart | hpart
    · obtain ⟨line, hline, rfl⟩ := List.mem_map.mp hpart
      exact h line hline
    · rw [List.mem_singleton.mp hpart]
      exact List.not_mem_nil
  rw [linesOf, toList_join_lines, List.splitOn_intercalate '\n' hparts (by simp),
    List.dropLast_concat]

end Diagram

namespace Chart

open Diagram

theorem splitOn_of_notMem {c : Char} {text : List Char} (h : c ∉ text) :
    text.splitOn c = [text] := by
  refine List.splitOnP_eq_singleton fun d hd => ?_
  rw [beq_eq_false_iff_ne]
  rintro rfl
  exact h hd

/-- A label that nothing in it breaks is a line as it stands. -/
theorem labelLines_of_unbroken {label : String} (h : ∀ c ∈ label.toList, breaksLine c = false) :
    labelLines label = [label] := by
  have hnot {c : Char} (hc : breaksLine c = true) : c ∉ label.toList := fun hmem => by
    rw [h c hmem] at hc
    cases hc
  have hshown : label.toList.filter (fun c => !isTerminalControl c) = label.toList := by
    refine List.filter_eq_self.mpr fun c hc => ?_
    have := h c hc
    simp [breaksLine, isTerminalControl] at this ⊢
    omega
  rw [labelLines, hshown, splitOn_of_notMem (hnot (by decide)), List.map_singleton, expandTabs,
    splitOn_of_notMem (hnot (by decide)), alignParts, String.ofList_toList]

/-! ## Lines -/

variable {chart : Chart} {p c : Nat} {text : Nat → String} {labelOf : Nat → List String}

/-- The line of a node with a label. -/
def lineAt (chart : Chart) (text : Nat → String) (i : Nat) : String :=
  guides (chart.lastChildren i) ++ text i

/-- A child is the last one if none is listed after it. -/
theorem isLastChild_of_append {before after : List Nat} (hparent : chart.parent? c = some p)
    (hchildren : chart.childrenAt p = before ++ c :: after) (hafter : c ∉ after) :
    chart.isLastChild c = after.isEmpty := by
  rw [isLastChild, hparent, Option.any_some, hchildren]
  rcases List.eq_nil_or_concat' after with rfl | ⟨others, last, rfl⟩
  · simp
  · have hne : last ≠ c := by
      rintro rfl
      exact hafter (by simp)
    have hempty : (others ++ [last]).isEmpty = false := by simp
    rw [← List.cons_append, ← List.append_assoc, List.getLast?_concat, hempty]
    simpa using hne

/-- The lines of siblings are those of the first and of what is below it, and those of the others;
the guides of the first tell whether there are others. -/
theorem siblingLines_cons (chart : Chart) (labelOf : Nat → List String) (fuel : Nat) (lead : String)
    (child : Nat) (rest : List Nat) : chart.siblingLines labelOf fuel lead (child :: rest) =
      behind (lead ++ branch rest.isEmpty) (lead ++ stem rest.isEmpty) (labelOf child)
        ++ chart.branchLines labelOf fuel (lead ++ stem rest.isEmpty) child
        ++ chart.siblingLines labelOf fuel lead rest := by
  cases rest <;> simp [siblingLines, branch, stem]

mutual

/-- The lines below a node are those of the nodes that follow it in its outline. -/
theorem branchLines_eq (tree : chart.Arena)
    (hlabel : ∀ i n, chart.node? i = some n → labelOf i = [text i]) {parent : Option Nat}
    {depth index fuel : Nat} {id : String} : (o : Outline) →
    chart.Includes (Outline.drafts parent depth index id o) → o.size ≤ fuel →
    chart.branchLines labelOf fuel (lead (chart.lastChildren index)) index =
      (List.range' (index + 1) (o.size - 1)).map (chart.lineAt text)
  | .node key kind fields children, hholds, hfuel => by
    rw [Outline.size] at hfuel ⊢
    obtain ⟨hnode, hchildren⟩ := List.forall_mem_cons.mp hholds
    obtain ⟨n, hn, hlisted, -⟩ := hnode
    obtain _ | fuel := fuel
    · omega
    · have hat : chart.childrenAt index = [] ++ Outline.indices (index + 1) children := by
        rw [childrenAt, hn]
        exact hlisted
      rw [branchLines, ← childrenAt, hat, List.nil_append,
        siblingLines_eq tree hlabel children hchildren hat (by omega), Nat.add_sub_cancel_left]

theorem siblingLines_eq (tree : chart.Arena)
    (hlabel : ∀ i n, chart.node? i = some n → labelOf i = [text i]) {p depth index fuel : Nat}
    {id : String} {before : List Nat} : (os : List Outline) →
    chart.Includes (Outline.draftsAll p depth index id os) →
    chart.childrenAt p = before ++ Outline.indices index os → Outline.sizeAll os ≤ fuel →
    chart.siblingLines labelOf fuel (lead (chart.lastChildren p)) (Outline.indices index os) =
      (List.range' index (Outline.sizeAll os)).map (chart.lineAt text)
  | [], _, _, _ => by rw [Outline.indices, siblingLines]; rfl
  | child :: rest, hholds, hchildren, hfuel => by
    rw [Outline.sizeAll] at hfuel ⊢
    rw [Outline.indices] at hchildren ⊢
    obtain ⟨hchild, hrest⟩ := List.forall_mem_append.mp hholds
    have hparent : chart.parent? index = some p :=
      tree.mem_childrenAt.mp (hchildren ▸ List.mem_append_right _ List.mem_cons_self)
    have hpos := Outline.size_pos child
    have hlast := isLastChild_of_append hparent hchildren fun hmem => by
      have := Outline.mem_indices_le hmem
      omega
    obtain ⟨n, hn, -⟩ := exists_node_of_parent? hparent
    -- The guides of the first child and those below it go on from the guides below its parent.
    have hlead := lead_concat (chart.lastChildren p) (chart.isLastChild index)
    have hline := guides_concat (chart.lastChildren p) (chart.isLastChild index)
    rw [← tree.lastChildren_of_parent hparent, hlast] at hlead hline
    have hbelow : chart.branchLines labelOf fuel (lead (chart.lastChildren index)) index = _ :=
      branchLines_eq tree hlabel child hchild (by omega)
    have hat : chart.childrenAt p =
        before ++ [index] ++ Outline.indices (index + child.size) rest := by
      rw [hchildren, List.append_assoc, List.singleton_append]
    have hothers : chart.siblingLines labelOf fuel (lead (chart.lastChildren p))
        (Outline.indices (index + child.size) rest) = _ :=
      siblingLines_eq tree hlabel rest hrest hat (by omega)
    have hfirst : List.range' index child.size =
        index :: List.range' (index + 1) (child.size - 1) := by
      rw [← List.range'_succ, Nat.sub_add_cancel hpos]
    rw [siblingLines_cons, hlabel index n hn, ← hlead, ← hline, hbelow, hothers,
      ← List.range'_append_1, List.map_append, hfirst]
    rfl

end

/-- The lines of the label of a node. -/
def labelsAt (chart : Chart) (highlight : Option Highlight) (i : Nat) : List String :=
  ((chart.node? i).map fun n =>
    labelLines (chart.label highlight (chart.activeNodes highlight) n)).getD []

theorem diagramLines_eq (chart : Chart) (highlight : Option Highlight) :
    chart.diagramLines highlight = chart.labelsAt highlight 0 ++
      chart.branchLines (chart.labelsAt highlight) chart.nodes.size (lead []) 0 := rfl

/-- If its labels are one line each, a diagram of a built chart has one line for each node, in the
order of the table. -/
theorem Built.diagramLines_eq (h : chart.Built) {highlight : Option Highlight}
    (hlabel : ∀ i n, chart.node? i = some n → chart.labelsAt highlight i = [text i]) :
    chart.diagramLines highlight =
      (List.range chart.nodes.size).map (chart.lineAt text) := by
  have tree := h.arena
  obtain ⟨o, -, hsize, hholds⟩ := h.exists_outline
  obtain ⟨root, hroot, -⟩ := tree.root
  have hzero : chart.lineAt text 0 = text 0 := by
    rw [lineAt, tree.lastChildren_zero, guides, String.empty_append]
  have hbelow : chart.branchLines (chart.labelsAt highlight) chart.nodes.size _ 0 = _ :=
    branchLines_eq tree hlabel o hholds (Nat.le_of_eq hsize.symm)
  rw [tree.lastChildren_zero] at hbelow
  have hrange : List.range o.size = 0 :: List.range' (0 + 1) (o.size - 1) := by
    rw [List.range_eq_range', ← List.range'_succ, Nat.sub_add_cancel (Outline.size_pos o)]
  rw [chart.diagramLines_eq, hlabel 0 root hroot, hbelow, hsize, hrange, List.map_cons, hzero]
  rfl

/-- Guides do not break a line. -/
theorem newline_notMem_lineAt {i : Nat} (h : '\n' ∉ (text i).toList) :
    '\n' ∉ (chart.lineAt text i).toList := by
  rw [lineAt, String.toList_append, List.mem_append]
  rintro (hguide | htext)
  · exact absurd (isGuide_of_mem_guides hguide) (by decide)
  · exact h htext

section Read

variable (h : chart.Built) {highlight : Option Highlight}
  (hlabel : ∀ i n, chart.node? i = some n → chart.labelsAt highlight i = [text i])
  (hbreak : ∀ i n, chart.node? i = some n → '\n' ∉ (text i).toList)

include h hlabel hbreak

/-- The text of a diagram whose labels are one line each is read back line by line. -/
theorem linesOf_diagram : linesOf (chart.diagram highlight) =
    (List.range chart.nodes.size).map fun i => (chart.lineAt text i).toList := by
  rw [diagram, h.diagramLines_eq hlabel, linesOf_join, List.map_map]
  · rfl
  · intro line hline
    obtain ⟨i, hi, rfl⟩ := List.mem_map.mp hline
    obtain ⟨n, hn⟩ := exists_node_of_lt (List.mem_range.mp hi)
    exact newline_notMem_lineAt (hbreak i n hn)

/-- The parents of all nodes are read back from a diagram, if no label begins like a guide. -/
theorem parents_diagram
    (hstart : ∀ i n, chart.node? i = some n → ∀ c ∈ (text i).toList.head?, isGuide c = false) :
    parents (chart.diagram highlight) = (List.range chart.nodes.size).map chart.parent? := by
  have hdepths : (linesOf (chart.diagram highlight)).map (fun line => (readGuides line).length) =
      (List.range chart.nodes.size).map fun i => (chart.lastChildren i).length := by
    rw [linesOf_diagram h hlabel hbreak, List.map_map]
    refine List.map_congr_left fun i hi => ?_
    obtain ⟨n, hn⟩ := exists_node_of_lt (List.mem_range.mp hi)
    rw [Function.comp_apply, lineAt, String.toList_append, readGuides_append (hstart i n hn)]
  unfold parents
  rw [hdepths]
  dsimp only
  rw [List.length_map, List.length_range]
  exact List.map_congr_left fun i hi => h.parentLine_eq rfl (List.mem_range.mp hi)

end Read

end Chart

end Lifecycle
