import Lifecycle.Interpreter.Restore

/-!
# The shape of a chart

What a chart is apart from what its actions do: with other actions in the place of its own
(`Chart.withActions`) its tree, its ids and its schema are the same. Restoring looks at nothing else
(`Interpreter.resume_withActions`), so it runs no action: whatever the actions would do, even fail,
the restored run is the same. First stands what two charts have in common that agree in parents,
children or schema.
-/

namespace Lifecycle

namespace Chart

variable {chart chart' : Chart}

theorem ancestors_congr (h : ∀ i, chart'.parent? i = chart.parent? i) (i : Nat) :
    chart'.ancestors i = chart.ancestors i := by
  induction i using Nat.strongRecOn with
  | _ i ih =>
    rw [ancestors, ancestors, h]
    split
    · split
      · rename_i p _ hlt
        rw [ih p hlt]
      · rfl
    · rfl

theorem walk_congr (hchild : ∀ p key, chart'.stateChild? p key = chart.stateChild? p key)
    (hid : ∀ i, chart'.idAt i = chart.idAt i) (i : Nat) (keys : List Json) :
    chart'.walk i keys = chart.walk i keys := by
  induction keys generalizing i with
  | nil => rfl
  | cons key rest ih => simp only [walk, hchild, hid, ih]

section Schema

variable (h : chart'.context = chart.context)

include h

theorem checkKeys_congr (keys : List Json.Key) : chart'.checkKeys keys = chart.checkKeys keys := by
  rw [checkKeys, checkKeys, h]

theorem fitContext_congr (context : Context) :
    chart'.fitContext context = chart.fitContext context := by
  have hkinds : chart'.checkKinds context = chart.checkKinds context := by
    induction context with
    | nil => rfl
    | cons entry rest ih => rw [checkKinds, checkKinds, ih, h]
  rw [fitContext, fitContext, checkKeys_congr h, hkinds, h]

theorem fitGiven_congr (given : Json) : chart'.fitGiven given = chart.fitGiven given := by
  unfold fitGiven
  simp only [fitContext_congr h, checkKeys_congr h]

end Schema

end Chart

variable (f : Action → Action)

/-- The transition with other actions. -/
def Transition.withActions (t : Transition) : Transition := { t with actions := t.actions.map f }

/-- The node with other actions. -/
def Node.withActions (n : Node) : Node :=
  { n with
    entry := n.entry.map f
    exit := n.exit.map f
    transitions := n.transitions.map (Transition.withActions f)
    onDone := n.onDone.map (Transition.withActions f) }

namespace Chart

variable (chart : Chart)

/-- The chart with other actions. -/
def withActions : Chart := { chart with nodes := chart.nodes.map (Node.withActions f) }

@[simp] theorem id_withActions : (chart.withActions f).id = chart.id := rfl

@[simp] theorem node?_withActions (i : Nat) :
    (chart.withActions f).node? i = (chart.node? i).map (Node.withActions f) :=
  Array.getElem?_map

@[simp] theorem keyAt_withActions (i : Nat) : (chart.withActions f).keyAt i = chart.keyAt i := by
  simp [keyAt, Function.comp_def, Node.withActions]

@[simp] theorem idAt_withActions (i : Nat) : (chart.withActions f).idAt i = chart.idAt i := by
  simp [idAt, Function.comp_def, Node.withActions]

@[simp] theorem kindAt?_withActions (i : Nat) :
    (chart.withActions f).kindAt? i = chart.kindAt? i := by
  simp [kindAt?, Function.comp_def, Node.withActions]

@[simp] theorem isHistory_withActions (i : Nat) :
    (chart.withActions f).isHistory i = chart.isHistory i := by
  simp [isHistory]

@[simp] theorem parent?_withActions (i : Nat) :
    (chart.withActions f).parent? i = chart.parent? i := by
  simp [parent?, Option.bind_map, Function.comp_def, Node.withActions]

@[simp] theorem child?_withActions (p : Nat) (key : String) :
    (chart.withActions f).child? p key = chart.child? p key := by
  rw [child?, child?, node?_withActions]
  rcases chart.node? p with _ | n
  · rfl
  · simp [Node.withActions, Option.any_map]

@[simp] theorem ancestors_withActions (i : Nat) :
    (chart.withActions f).ancestors i = chart.ancestors i :=
  ancestors_congr (chart.parent?_withActions f) i

@[simp] theorem pathTo_withActions (i : Nat) :
    (chart.withActions f).pathTo i = chart.pathTo i := by
  rw [pathTo, ancestors_withActions, pathTo]

@[simp] theorem tagsOn_withActions (path : List Nat) :
    (chart.withActions f).tagsOn path = chart.tagsOn path := by
  simp [tagsOn, Function.comp_def, Node.withActions]

@[simp] theorem find?_withActions (id : String) :
    (chart.withActions f).find? id = (chart.find? id).map (Node.withActions f) := by
  simp [find?, withActions, Array.find?_map, Function.comp_def, Node.withActions]

@[simp] theorem doneTransition?_withActions (i : Nat) :
    (chart.withActions f).doneTransition? i =
      (chart.doneTransition? i).map (Transition.withActions f) := by
  rw [doneTransition?, doneTransition?, kindAt?_withActions, parent?_withActions]
  split
  · rcases chart.parent? i with _ | p
    · rfl
    · rcases h : chart.node? p with _ | n <;> simp [h, Node.withActions]
  · rfl

@[simp] theorem stateChild?_withActions (p : Nat) (key : Json) :
    (chart.withActions f).stateChild? p key = chart.stateChild? p key := by
  have hchild : (chart.withActions f).child? p = chart.child? p :=
    funext (chart.child?_withActions f p)
  simp only [stateChild?, hchild, isHistory_withActions]

@[simp] theorem walk_withActions (i : Nat) (keys : List Json) :
    (chart.withActions f).walk i keys = chart.walk i keys :=
  walk_congr (chart.stateChild?_withActions f) (chart.idAt_withActions f) i keys

@[simp] theorem leafOf_withActions (path : Json) :
    (chart.withActions f).leafOf path = chart.leafOf path := by
  simp [leafOf]

@[simp] theorem fitHistory_withActions (members : List (String × Json)) :
    (chart.withActions f).fitHistory members = chart.fitHistory members := by
  induction members with
  | nil => rfl
  | cons member rest ih =>
    obtain ⟨id, key⟩ := member
    rw [fitHistory, fitHistory, find?_withActions, ih]
    rcases chart.find? id with _ | n
    · rfl
    · by_cases howner : n.history.isSome = true <;>
        simp [Option.filter_some, Node.withActions, howner]

theorem fitContext_withActions (context : Context) :
    (chart.withActions f).fitContext context = chart.fitContext context :=
  fitContext_congr (show (chart.withActions f).context = chart.context from rfl) context

end Chart

/-- Restoring depends on the shape of the chart only. -/
theorem Interpreter.resume_withActions (chart : Chart) (path : Json) (history : Entries Json)
    (context : Context) (name : Option String) :
    resume (chart.withActions f) path history context name =
      (resume chart path history context name).map fun m =>
        { m with chart := chart.withActions f } := by
  unfold resume
  rw [Chart.leafOf_withActions, Chart.fitHistory_withActions, Chart.fitContext_withActions]
  rcases chart.leafOf path with error | leaf
  · rfl
  · rcases chart.fitHistory history with error | history
    · rfl
    · rcases chart.fitContext context with error | context
      · rfl
      · simp only [bind, Except.bind, pure, Except.pure, Except.map]
        simp [publish, observe, Interpreter.path, fresh]

end Lifecycle
