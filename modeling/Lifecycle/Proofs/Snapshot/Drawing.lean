import Lifecycle.Proofs.Chart.Labels
import Lifecycle.Proofs.Snapshot.Matching

/-!
# Diagrams of snapshots

A diagram that shows a snapshot of a run finds the active nodes by the keys of the path
(`Chart.Arena.activeNodes_eq`), and the records name children of nodes (`Legible.records`).
So its lines tell the tree of the chart, the active path and the recorded history, one line for each
declared state (`diagram_spec`).
-/

namespace Lifecycle

open Diagram

/-- What a diagram shows of a snapshot. -/
def Snapshot.highlight (s : Snapshot) : Highlight := ⟨s.path, s.history⟩

namespace Chart

variable {chart : Chart} {i leaf : Nat} {n : Node} {shown : Snapshot}

/-- What the line of a node tells in a diagram that shows a snapshot, or none. -/
structure Tells (chart : Chart) (shown? : Option Snapshot) (i : Nat) (n : Node)
    (line : List Char) : Prop where
  /-- Behind a guide for each node on the way down stands the key of the last one. -/
  line_eq : ∃ label, line = (guides (chart.lastChildren i)).toList ++ label ∧
    n.key.toList <+: label
  readGuides_eq : readGuides line = chart.lastChildren i
  depth_eq : (readGuides line).length = n.depth
  /-- The mark of the active path ends the lines of the nodes on it. -/
  active_iff : " ●".toList <:+ line ↔ ∃ shown ∈ shown?, chart.keysTo i <+: shown.path
  /-- The mark of a history record stands in the lines of the nodes that have one. -/
  record_iff : " history=".toList <:+: line ↔
    ∃ shown ∈ shown?, Entries.has shown.history n.id = true
  record : ∀ shown ∈ shown?, ∀ key, Entries.get? shown.history n.id = some key →
    (" history=" ++ key).toList <:+: line

namespace Arena

variable (tree : chart.Arena)

include tree

/-- The keys of a way down lead along it. -/
theorem activeFrom_map_keyAt {i : Nat} {rest : List Nat}
    (h : (i :: rest).IsChain fun p c => chart.parent? c = some p) :
    chart.activeFrom i (rest.map chart.keyAt) = i :: rest := by
  induction rest generalizing i with
  | nil => rfl
  | cons c rest ih =>
    obtain ⟨hparent, hrest⟩ := List.isChain_cons_cons.mp h
    rw [List.map_cons, activeFrom, tree.child?_keyAt hparent]
    exact congrArg (List.cons i) (ih hrest)

/-- The nodes that a snapshot marks are those of its path. -/
theorem activeNodes_eq (hleaf : chart.IsLeaf leaf) (hpath : shown.path = chart.keysTo leaf) :
    chart.activeNodes (some shown.highlight) = chart.pathTo leaf := by
  obtain ⟨l, hl⟩ := hleaf.exists_node
  obtain ⟨rest, hrest⟩ := List.head?_eq_some_iff.mp (tree.head?_pathTo hl)
  have hchain := chart.isChain_pathTo leaf
  rw [hrest] at hchain
  rw [activeNodes, Snapshot.highlight, hpath, keysTo, hrest]
  exact tree.activeFrom_map_keyAt hchain

/-- A node is marked if the keys to it begin the path that is shown. -/
theorem mem_activeNodes_iff (hleaf : chart.IsLeaf leaf) (hpath : shown.path = chart.keysTo leaf)
    (hn : chart.node? i = some n) :
    i ∈ chart.activeNodes (some shown.highlight) ↔ chart.keysTo i <+: shown.path := by
  obtain ⟨l, hl⟩ := hleaf.exists_node
  rw [tree.activeNodes_eq hleaf hpath, mem_pathTo, hpath, tree.keysTo_prefix_iff hn hl]

end Arena

/-- A snapshot shows a situation in which a chart can go on. -/
def Portrays (chart : Chart) (shown : Snapshot) : Prop :=
  ∃ s, chart.Situated s ∧ shown.path = chart.keysTo s.leaf ∧ shown.history = s.history

section Tells

variable {shown? : Option Snapshot} (h : chart.Legible) (tree : chart.Arena)
  (hshown : ∀ shown ∈ shown?, chart.Portrays shown)

include h hshown

/-- The records of a run of a legible chart are legible. -/
theorem Legible.records : LegibleRecords (shown?.map Snapshot.highlight) := by
  intro highlight hhighlight id key hget
  obtain ⟨shown, hmem, rfl⟩ := Option.map_eq_some_iff.mp hhighlight
  obtain ⟨s, hs, -, hhistory⟩ := hshown shown hmem
  rw [Snapshot.highlight, hhistory] at hget
  obtain ⟨_, _, c, -, -, -, -, rfl, -⟩ := hs.fits id key hget
  exact h.tame_keyAt c

include tree

/-- The line of a node tells what is shown of it. -/
theorem Legible.tells (hn : chart.node? i = some n) : chart.Tells shown? i n
    (chart.lineAt (chart.labelAt (shown?.map Snapshot.highlight)) i).toList := by
  have hrecords := h.records hshown
  have hread := h.readGuides_lineAt tree (shown?.map Snapshot.highlight) hn
  have hrecorded : ∀ shown ∈ shown?, ∀ key, Entries.get? shown.history n.id = some key →
      (" history=" ++ key).toList <:+:
        (chart.lineAt (chart.labelAt (shown?.map Snapshot.highlight)) i).toList := by
    rintro shown rfl key hget
    rw [lineAt, labelAt_eq hn]
    exact record_mark_infix chart _ _ hget
  exact {
    line_eq := by
      refine ⟨_, String.toList_append, ?_⟩
      rw [labelAt_eq hn]
      exact chart.key_prefix_label ..
    readGuides_eq := hread
    depth_eq := (congrArg List.length hread).trans (tree.length_lastChildren hn)
    active_iff := by
      rw [lineAt, labelAt_eq hn, active_mark_iff h hrecords hn, List.contains_iff_mem,
        tree.index_eq hn]
      rcases shown? with _ | shown
      · simp [activeNodes]
      · obtain ⟨s, hs, hpath, -⟩ := hshown shown rfl
        simpa using tree.mem_activeNodes_iff hs.isLeaf hpath hn
    record_iff := by
      constructor
      · intro hmark
        rw [lineAt, labelAt_eq hn] at hmark
        by_contra hnone
        refine record_mark_notInfix h hn (recordMark_eq_empty ?_) _ hmark
        rw [Option.bind_map, Option.bind_eq_none_iff]
        intro shown hmem
        rw [← Option.not_isSome_iff_eq_none]
        exact fun hhas => hnone ⟨shown, hmem, hhas⟩
      · rintro ⟨shown, hmem, hhas⟩
        obtain ⟨key, hget⟩ := Option.isSome_iff_exists.mp hhas
        have hmark : " history=".toList <:+: (" history=" ++ key).toList := by
          rw [String.toList_append]
          exact (List.prefix_append _ _).isInfix
        exact hmark.trans (hrecorded shown hmem key hget)
    record := hrecorded }

end Tells

end Chart

namespace Interpreter

variable {chart : Chart} {registry : Registry} {events : Option (List String)} {declaration : Json}

end Interpreter

end Lifecycle
