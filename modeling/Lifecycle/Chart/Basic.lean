import Lifecycle.Chart.Action

/-!
# Charts

A chart is a table of nodes that form a tree: the root comes first, and every other node knows its
parent, which stands before it. Nodes are named by their index. The functions here walk that tree:
`Chart.ancestors` from a node to the root, `Chart.pathTo` the other way, `Chart.descend` along
initial children down to a leaf.
-/

namespace Lifecycle

/-- The kinds of nodes. -/
inductive Kind where
  | atomic
  | compound
  | final
  | history
deriving DecidableEq

namespace Kind

/-- The word for a kind in declarations. -/
def word : Kind → String
  | .atomic => "atomic"
  | .compound => "compound"
  | .final => "final"
  | .history => "history"

/-- The kind of a word. -/
def ofWord? : String → Option Kind
  | "atomic" => some .atomic
  | "compound" => some .compound
  | "final" => some .final
  | "history" => some .history
  | _ => none

/-- Whether an active path may end at a node of this kind. -/
def isLeaf : Kind → Bool
  | .atomic => true
  | .compound => false
  | .final => true
  | .history => false

@[simp] theorem ofWord?_word (kind : Kind) : ofWord? kind.word = some kind := by
  cases kind <;> rfl

end Kind

/-- What a node does on an event. Without a target only the actions run. -/
structure Transition where
  event : String
  source : Nat
  target : Option Nat
  actions : List Action
  /-- The target as it was declared, empty when there is none. -/
  reference : String

/-- A node of a chart. -/
structure Node where
  index : Nat
  key : String
  id : String
  kind : Kind
  parent : Option Nat
  depth : Nat
  children : List Nat
  /-- The child entered first, of a compound node. -/
  initial : Option Nat
  /-- The history child, of a compound node that has one. -/
  history : Option Nat
  transitions : List Transition
  /-- Taken when a final child is entered. -/
  onDone : Option Transition
  entry : List Action
  exit : List Action
  tags : List String
  description : String

/-- A chart: its table of nodes, the defaults of its context, and its event vocabulary, if it is
restricted to one. -/
structure Chart where
  id : String
  nodes : Array Node
  context : Context
  events : Option (List String)

namespace Chart

variable (chart : Chart)

/-- The node at an index. -/
def node? (i : Nat) : Option Node := chart.nodes[i]?

/-- The node of a qualified id. -/
def find? (id : String) : Option Node := chart.nodes.find? (fun n => n.id == id)

/-- The key of the node at an index. -/
def keyAt (i : Nat) : String := ((chart.node? i).map Node.key).getD ""

/-- The kind of the node at an index. -/
def kindAt? (i : Nat) : Option Kind := (chart.node? i).map Node.kind

/-- The parent of the node at an index. -/
def parent? (i : Nat) : Option Nat := (chart.node? i).bind Node.parent

/-- The child of a node with a key. -/
def child? (parent : Nat) (key : String) : Option Nat :=
  match chart.node? parent with
  | some n => n.children.find? (fun c => (chart.node? c).any (fun child => child.key == key))
  | none => none

/-- The indices from a node up to the root, both included. -/
def ancestors (i : Nat) : List Nat :=
  match chart.parent? i with
  | some p => if p < i then i :: ancestors p else [i]
  | none => [i]
termination_by i

/-- The indices from the root down to a node. -/
def pathTo (i : Nat) : List Nat := (chart.ancestors i).reverse

/-- The indices above a node, from its parent to the root. -/
def properAncestors (i : Nat) : List Nat := (chart.ancestors i).drop 1

/-- Whether a node lies strictly below another. -/
def isBelow (i ancestor : Nat) : Bool := (chart.properAncestors i).contains ancestor

/-- The initial children below a node, down to the first node that is not compound. -/
def descend (i : Nat) : List Nat :=
  match chart.node? i with
  | some n =>
    if n.kind = .compound then
      match n.initial with
      | some child =>
        if i < child ∧ child < chart.nodes.size then child :: descend child else [child]
      | none => []
    else []
  | none => []
termination_by chart.nodes.size - i

/-- The tags of the nodes of a path, each once. -/
def tagsOn (path : List Nat) : List String :=
  (path.flatMap fun i => ((chart.node? i).map Node.tags).getD []).eraseDups

theorem ancestors_eq (i : Nat) :
    chart.ancestors i =
      i :: match chart.parent? i with
        | some p => if p < i then chart.ancestors p else []
        | none => [] := by
  rw [ancestors]
  split
  · split <;> rfl
  · rfl

/-- Every chain of ancestors starts at its node. -/
@[simp] theorem head?_ancestors (i : Nat) : (chart.ancestors i).head? = some i := by
  rw [ancestors_eq]; rfl

/-- Every path ends at its node. -/
@[simp] theorem getLast?_pathTo (i : Nat) : (chart.pathTo i).getLast? = some i := by
  simp [pathTo]

/-- No ancestor stands after its node. -/
theorem le_of_mem_ancestors {i j : Nat} (h : j ∈ chart.ancestors i) : j ≤ i := by
  induction i using Nat.strongRecOn with
  | _ i ih =>
    rw [ancestors_eq] at h
    rcases List.mem_cons.mp h with rfl | h
    · exact Nat.le_refl _
    · split at h
      · split at h
        · rename_i p _ hp
          exact Nat.le_of_lt (Nat.lt_of_le_of_lt (ih p hp h) hp)
        · cases h
      · cases h

end Chart

end Lifecycle
