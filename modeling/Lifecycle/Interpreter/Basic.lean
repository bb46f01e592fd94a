import Lifecycle.Interpreter.Record
import Lifecycle.Microstep
import Lifecycle.Response
import Lifecycle.Snapshot.Basic

/-!
# Interpreters

An interpreter is one run of a chart: the active leaf, the context and the history records, beside
the snapshot that it shows. `take` executes a microstep: it writes the history first and moves the
leaf only after all actions have succeeded. `settle` follows the `onDone` transitions of final
leaves; a leaf that comes up again ends the run.
-/

namespace Lifecycle

/-- The state of one run of a chart. -/
structure Interpreter where
  chart : Chart
  name : String
  status : Status
  leaf : Option Nat
  context : Context
  /-- How many changes the context has seen. -/
  version : Nat
  history : Entries String
  /-- The snapshot that is shown. -/
  snapshot : Option Snapshot
  /-- How many snapshots have been shown. -/
  publications : Nat
  log : List Record

namespace Interpreter

/-- A run of a chart that has not begun. -/
def fresh (chart : Chart) (context : Context) (name : Option String) : Interpreter :=
  { chart := chart
    name := match name with
      | some given => if given = "" then chart.id else given
      | none => chart.id
    status := .notStarted
    leaf := none
    context := context
    version := 0
    history := []
    snapshot := none
    publications := 0
    log := [] }

/-- The indices of the active path, none before the start. -/
def path (m : Interpreter) : List Nat := (m.leaf.map m.chart.pathTo).getD []

/-- The snapshot of the state as it is. -/
def observe (m : Interpreter) : Snapshot :=
  { path := m.path.map m.chart.keyAt
    context := m.context
    history := m.history
    tags := m.chart.tagsOn m.path
    status := m.status
    version := m.version }

/-- Shows a snapshot of the state as it is. -/
def publish (m : Interpreter) : Interpreter :=
  { m with snapshot := some m.observe, publications := m.publications + 1 }

/-- Takes over a context; one that is equal by value changes nothing. -/
def adopt (m : Interpreter) (context : Context) : Interpreter :=
  if context.same m.context then m
  else { m with context := context, version := m.version + 1 }

/-- Executes a microstep. If an action fails, the history is written and nothing else. -/
def take (m : Interpreter) (step : Microstep) : Interpreter × Option Fault :=
  let recorded := { m with history := Entries.overlay m.history step.history }
  match Action.runAll (m.chart.stepActions step) m.context with
  | .ok context => ({ recorded.adopt context with leaf := some step.leaf }, none)
  | .error fault => (recorded, some fault)

/-- Executes the microstep of a transition taken at a leaf. -/
def follow (m : Interpreter) (leaf : Nat) (transition : Transition) : Interpreter × Option Fault :=
  match m.chart.resolve leaf transition m.history with
  | .ok step => m.take step
  | .error fault => (m, some fault)

/-- Follows the `onDone` transitions of final leaves, each leaf at most once; `unseen` are the
leaves that have not come up. A final leaf without such a transition, or seen before, ends the
run. -/
def settleFrom (unseen : List Nat) (m : Interpreter) : Response Interpreter Unit :=
  match m.leaf with
  | none => ⟨m, [], .ok ()⟩
  | some leaf =>
    if m.chart.kindAt? leaf = some .final then
      match m.chart.doneTransition? leaf with
      | none => ⟨{ m with status := .done }, [], .ok ()⟩
      | some transition =>
        if _h : leaf ∈ unseen then
          match m.follow leaf transition with
          | (next, none) => settleFrom (unseen.erase leaf) next
          | (next, some fault) => ⟨next, [], .error fault⟩
        else ⟨{ m with status := .done }, [.log (.doneCycle m.name leaf)], .ok ()⟩
    else ⟨m, [], .ok ()⟩
termination_by unseen.length
decreasing_by
  have := List.length_pos_of_mem _h
  rw [List.length_erase_of_mem _h]
  omega

/-- Follows the `onDone` transitions of final leaves. -/
def settle (m : Interpreter) : Response Interpreter Unit :=
  m.settleFrom (List.range m.chart.nodes.size)

end Interpreter

end Lifecycle
