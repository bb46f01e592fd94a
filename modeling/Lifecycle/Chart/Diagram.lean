import Lifecycle.Chart.Basic
import Lifecycle.Json.Literal
import Lifecycle.Text.Extent

/-!
# Diagrams

A chart drawn as a tree of text: one label a node, in the order of the table, behind guides that
tell its depth and whether it and its ancestors are last children. A highlight marks the active path
and the recorded history.
-/

namespace Lifecycle

/-- The state that a diagram shows: an active path and history records. -/
structure Highlight where
  path : List String
  history : Entries String

namespace Chart

variable (chart : Chart)

/-- What is written after the key of a node of a kind. -/
def kindMark : Kind → String
  | .final => " (final)"
  | .history => " (history)"
  | .atomic => ""
  | .compound => ""

/-- The nodes reached from a node along keys, as far as they lead. -/
def activeFrom (i : Nat) : List String → List Nat
  | [] => [i]
  | key :: rest =>
    match chart.child? i key with
    | some child => i :: activeFrom child rest
    | none => [i]

/-- The nodes that a highlight marks as active. -/
def activeNodes : Option Highlight → List Nat
  | none => []
  | some h => chart.activeFrom 0 (h.path.drop 1)

/-- The label of a node: its key and its marks. -/
def label (highlight : Option Highlight) (active : List Nat) (n : Node) : String :=
  let initial := match n.kind, n.initial with
    | .compound, some child => " initial=" ++ chart.keyAt child
    | _, _ => ""
  let history := match highlight.bind fun h => Entries.get? h.history n.id with
    | some key => " history=" ++ key
    | none => ""
  let tags :=
    if n.tags.isEmpty then ""
    else " [" ++ String.intercalate ", " (Json.sortKeys n.tags) ++ "]"
  n.key ++ kindMark n.kind ++ initial ++ history ++ tags
    ++ (if active.contains n.index then " ●" else "")

/-- The parts of a line with spaces instead of the tabs between them: one for the tab, and more up
to a multiple of eight cells. -/
def alignParts (cell : Nat) : List (List Char) → List Char
  | [] => []
  | [last] => last
  | part :: rest =>
    let spaced := part ++ [' ']
    let reached := cell + Text.extent spaced
    let gap := (8 - reached % 8) % 8
    spaced ++ List.replicate gap ' ' ++ alignParts (reached + gap) rest

/-- A line with spaces instead of tabs. -/
def expandTabs (line : List Char) : List Char := alignParts 0 (line.splitOn '\t')

/-- The characters that a terminal would act on instead of showing. -/
def isTerminalControl (c : Char) : Bool := [7, 8, 11, 12, 13].contains c.toNat

/-- The lines that a label takes. -/
def labelLines (label : String) : List String :=
  ((label.toList.filter fun c => !isTerminalControl c).splitOn '\n').map
    fun line => String.ofList (expandTabs line)

/-- Lines behind guides, one for the first line and one for all others. -/
def behind (first others : String) : List String → List String
  | [] => []
  | line :: rest => (first ++ line) :: rest.map (others ++ ·)

mutual

/-- The lines below a node, behind a lead of guides. -/
def branchLines (labelOf : Nat → List String) (fuel : Nat) (lead : String) (i : Nat) :
    List String :=
  match fuel with
  | 0 => []
  | fuel + 1 =>
    siblingLines labelOf fuel lead (((chart.node? i).map Node.children).getD [])

/-- The lines of siblings, each with the lines below it. -/
def siblingLines (labelOf : Nat → List String) (fuel : Nat) (lead : String) :
    List Nat → List String
  | [] => []
  | [child] =>
    behind (lead ++ "└── ") (lead ++ "    ") (labelOf child)
      ++ branchLines labelOf fuel (lead ++ "    ") child
  | child :: rest =>
    behind (lead ++ "├── ") (lead ++ "│   ") (labelOf child)
      ++ branchLines labelOf fuel (lead ++ "│   ") child
      ++ siblingLines labelOf fuel lead rest

end

/-- The lines of a diagram. -/
def diagramLines (highlight : Option Highlight) : List String :=
  let active := chart.activeNodes highlight
  let labelOf (i : Nat) : List String :=
    ((chart.node? i).map fun n => labelLines (chart.label highlight active n)).getD []
  labelOf 0 ++ chart.branchLines labelOf chart.nodes.size "" 0

/-- A chart as a tree of text. -/
def diagram (highlight : Option Highlight) : String :=
  String.join ((chart.diagramLines highlight).map (· ++ "\n"))

end Chart

end Lifecycle
