import Lifecycle.Interpreter.Basic

/-!
# Running interpreters

The three operations on a run. `start` enters the initial path; `dispatch` hands an event to the
innermost node that declares it and runs to completion; `stop` ends the run. An event that nothing
handles leaves everything but the records as it was, and comes back as a diagnostic (`Verdict`).
Where calls are nested too deeply for an event to be handled, `strain` is what it still does.
-/

namespace Lifecycle

/-- Why an event was ignored. -/
structure Diagnostic where
  event : String
  path : List String
  reason : String

/-- What became of an event. -/
inductive Verdict where
  /-- It was handled; `changed` tells whether the path or the context changed. -/
  | handled (snapshot : Snapshot) (changed : Bool)
  /-- It was ignored, and the snapshot stayed. -/
  | ignored (snapshot : Snapshot) (diagnostic : Diagnostic)

/-- The snapshot after the event. -/
def Verdict.snapshot : Verdict → Snapshot
  | .handled snapshot _ => snapshot
  | .ignored snapshot _ => snapshot

namespace Interpreter

/-- The snapshot that is shown. -/
def shown (m : Interpreter) : Except Fault Snapshot :=
  match m.snapshot with
  | some s => .ok s
  | none => .error (.notStarted m.name)

/-- The entry actions of the initial path, from the root to the leaf. -/
def initialActions (chart : Chart) : List Action :=
  chart.initialPath.flatMap fun i => ((chart.node? i).map Node.entry).getD []

/-- Enters the chart along its initial path. A run that has begun only shows its snapshot. -/
def start (m : Interpreter) : Response Interpreter Snapshot :=
  if m.status ≠ .notStarted then ⟨m, [], m.shown⟩
  else
    match Action.runAll (initialActions m.chart) m.context with
    | .error fault => ⟨m, [], .error fault⟩
    | .ok context =>
      let entered := { m.adopt context with
        leaf := m.chart.initialPath.getLast?
        status := .running }
      let settled := entered.settle
      match settled.result with
      | .error fault => ⟨settled.state, settled.signals, .error fault⟩
      | .ok () =>
        let shown := settled.state.publish
        ⟨shown, settled.signals ++ [.log (.started m.name shown.observe.value)],
          .ok shown.observe⟩

/-- Ends the run. -/
def stop (m : Interpreter) : Response Interpreter Unit :=
  if m.status = .notStarted then ⟨{ m with status := .stopped }, [], .ok ()⟩
  else ⟨{ m with status := .stopped }.publish, [.log (.stopped m.name)], .ok ()⟩

/-- The labels of the metrics of a run. -/
def labels (m : Interpreter) : Labels := [("lead", m.name)]

/-- Records an ignored event. -/
def ignore (m : Interpreter) (now : Json) (snapshot : Snapshot) (event reason : String)
    (signals : List Signal) : Response Interpreter Verdict :=
  match Record.stamp now with
  | .error fault => ⟨m, signals, .error fault⟩
  | .ok time =>
    let record : Record := ⟨event, snapshot.value, snapshot.value, false, reason, time⟩
    ⟨{ m with log := Record.append m.log record }, signals,
      .ok (.ignored snapshot ⟨event, snapshot.path, reason⟩)⟩

/-- Takes the transition for an event, settles and shows the new snapshot; a record of the event
needs a moment. -/
def react (m : Interpreter) (now : Json) (snapshot : Snapshot) (event : String) (leaf : Nat)
    (transition : Transition) : Response Interpreter Verdict :=
  match m.follow leaf transition with
  | (taken, some fault) => ⟨taken, [], .error fault⟩
  | (taken, none) =>
    let settled := taken.settle
    match settled.result, Record.stamp now with
    | .error fault, _ => ⟨settled.state, settled.signals, .error fault⟩
    | .ok (), .error fault => ⟨settled.state.publish, settled.signals, .error fault⟩
    | .ok (), .ok time =>
      let shown := settled.state.publish
      let after := shown.observe
      let record : Record := ⟨event, snapshot.value, after.value, true, "", time⟩
      ⟨{ shown with log := Record.append shown.log record },
        settled.signals ++
          [.count "transition.ok" m.labels,
            .log (.moved m.name snapshot.value after.value event (shown.status = .done))],
        .ok (.handled after (after.path != snapshot.path || shown.version != m.version))⟩

/-- The transition for an event that the run knows, with the leaf it is taken at. -/
def handler? (m : Interpreter) (event : String) : Option (Nat × Transition) :=
  m.leaf.bind fun leaf => (m.chart.findTransition? leaf event).map (leaf, ·)

/-- Whether an event is outside the vocabulary. -/
def isUnknown (m : Interpreter) (event : String) : Bool :=
  m.chart.events.any fun events => !events.contains event

/-- Hands an event to the run. -/
def dispatch (m : Interpreter) (now : Json) (event : String) : Response Interpreter Verdict :=
  match m.snapshot with
  | none => ⟨m, [], .error (.notStarted m.name)⟩
  | some snapshot =>
    if m.status ≠ .running then
      m.ignore now snapshot event m.status.word [.count "transition.absorbed" m.labels]
    else if m.isUnknown event then
      m.ignore now snapshot event "unknown_event" [.log (.unknownEvent m.name event)]
    else
      match m.handler? event with
      | none =>
        m.ignore now snapshot event "no_handler"
          [.log (.noHandler m.name event snapshot.value),
            .count "transition.unhandled" m.labels]
      | some (leaf, transition) => m.react now snapshot event leaf transition

/-- Moves along a transition without room for actions that do something, for the transition of a
final leaf or for a record: what comes before the first of these is done. -/
def strainTo (m : Interpreter) (leaf : Nat) (transition : Transition) : Interpreter :=
  match m.chart.resolve leaf transition m.history with
  | .error _ => m
  | .ok step =>
    let recorded := { m with history := Entries.overlay m.history step.history }
    if (m.chart.stepActions step).all Action.isIdle then
      let moved := { recorded with leaf := some step.leaf }
      if m.chart.kindAt? step.leaf = some .final then
        if (m.chart.doneTransition? step.leaf).isSome then moved
        else { moved with status := .done }.publish
      else moved.publish
    else recorded

/-- What an event does where calls are nested too deeply for it to be handled. That nothing handles
it is counted after it was logged, for which there is room only when nobody listens. -/
def strain (m : Interpreter) (heard : Bool) (event : String) : Interpreter × List Signal :=
  if m.snapshot.isNone then (m, [])
  else if m.status ≠ .running then (m, [.count "transition.absorbed" m.labels])
  else if m.isUnknown event then (m, [])
  else
    match m.handler? event with
    | some (leaf, transition) => (m.strainTo leaf transition, [])
    | none => (m, if heard then [] else [.count "transition.unhandled" m.labels])

/-- An ignored event changes nothing but the records. -/
theorem ignore_state (m : Interpreter) (now : Json) (snapshot : Snapshot)
    (event reason : String) (signals : List Signal) :
    ∃ log, (m.ignore now snapshot event reason signals).state = { m with log := log } := by
  unfold ignore
  cases Record.stamp now with
  | error fault => exact ⟨m.log, rfl⟩
  | ok time => exact ⟨_, rfl⟩

end Interpreter

end Lifecycle
