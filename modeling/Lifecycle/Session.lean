import Lifecycle.Interpreter.Restore
import Lifecycle.Interpreter.Run
import Lifecycle.Snapshot.Envelope

/-!
# Sessions

A session is an interpreter with its observers. An observer is known by a label and reacts to a
snapshot with commands: it may fail, give up its subscription, send an event or stop the run. All
observers registered when an event was handled hear of the change, in the order of registration,
each after the reactions of those before it are over; what an observer fails with is logged and goes
no further. Events sent by observers nest, up to a limit; beyond it an event is not handled, but may
have moved the run. At the limit there is no room for a message that someone hears. Registering a
label twice makes it hear twice.
-/

namespace Lifecycle

/-- One thing that an observer does on hearing of a change. -/
inductive Command where
  | fail (text : String)
  /-- Calls the cancellation that the label got at its last registration. -/
  | leave (label : String)
  | send (event : String)
  | stop

/-- What an observer does, given the snapshot it is shown. -/
abbrev Reaction := Snapshot → List Command

/-- What a callback has heard. -/
inductive Note where
  | changed (label value : String) (version : Nat)
  | unhandled (event path reason : String)

/-- An interpreter with its observers. -/
structure Session where
  interpreter : Interpreter
  /-- How many interpreters were there before the current one. -/
  generation : Nat
  /-- The labels registered on the current interpreter, in order. -/
  observers : List String
  reactions : Entries Reaction
  /-- For each label, the generation in which it was registered last. -/
  tokens : Entries Nat
  /-- Called with each ignored event; may fail. -/
  onUnhandled : Option (Diagnostic → Option Fault)
  telemetry : Telemetry
  /-- What callbacks have heard, in order. -/
  notes : List Note
  /-- What the clock shows. -/
  now : Json

namespace Session

/-- How deep events may nest that are sent from inside notifications. -/
def nestingLimit : Nat := 329

/-- A session without observers. -/
def fresh (interpreter : Interpreter) (telemetry : Telemetry) : Session :=
  { interpreter := interpreter
    generation := 0
    observers := []
    reactions := []
    tokens := []
    onUnhandled := none
    telemetry := telemetry
    notes := []
    now := .int 0 }

/-- Takes in signals. -/
def report (s : Session) (signals : List Signal) : Session :=
  { s with telemetry := s.telemetry.absorb signals }

/-- Puts a restored interpreter in the place of the current one; the observers stay with the old
one. -/
def replace (s : Session) (interpreter : Interpreter) : Session :=
  { s with
    interpreter := interpreter
    generation := s.generation + 1
    observers := []
    onUnhandled := none }

/-- Registers a label; a label that is known keeps its reaction. -/
def subscribe (s : Session) (label : String) (reaction : Reaction) : Session :=
  { s with
    observers := s.observers ++ [label]
    reactions := if Entries.has s.reactions label then s.reactions
      else Entries.set s.reactions label reaction
    tokens := Entries.set s.tokens label s.generation }

/-- Calls the cancellation that a label got last: it removes the first registration of the label
from the interpreter it was registered on, if there is one left. -/
def unsubscribe (s : Session) (label : String) : Session × Option Fault :=
  match Entries.get? s.tokens label with
  | none => (s, some (.missingKey (.text label)))
  | some generation =>
    if generation = s.generation then ({ s with observers := s.observers.erase label }, none)
    else (s, none)

/-- Enters the chart. -/
def start (s : Session) : Session × Except Fault Snapshot :=
  let response := s.interpreter.start
  ({ s with interpreter := response.state }.report response.signals, response.result)

/-- Ends the run. A run that had begun loses its observers. -/
def stop (s : Session) : Session :=
  let response := s.interpreter.stop
  let stopped := { s with interpreter := response.state }.report response.signals
  if s.interpreter.status = .notStarted then stopped
  else { stopped with observers := [], onUnhandled := none }

/-- Whether there is room to log something with this many levels of events left. -/
def canLog (s : Session) (levels : Nat) : Bool := levels != 0 || !s.telemetry.heard

/-- Tells the callback for ignored events, and logs what it fails with; where that cannot be logged,
it is a failure. -/
def tellUnhandled (levels : Nat) (s : Session) (diagnostic : Diagnostic) :
    Session × Option Fault :=
  match s.onUnhandled with
  | none => (s, none)
  | some callback =>
    let noted := { s with
      notes := s.notes ++
        [.unhandled diagnostic.event (Text.dotted diagnostic.path) diagnostic.reason] }
    match callback diagnostic with
    | none => (noted, none)
    | some fault =>
      if s.canLog levels then
        (noted.report [.log (.unhandledCallbackFailed s.interpreter.name fault.message)], none)
      else (noted, some .nestedTooDeeply)

/-- How an event is sent from inside a notification. -/
abbrev Sender := String → Session → Session × Except Fault Snapshot

/-- Carries out commands until one fails. -/
def perform (send : Sender) : List Command → Session → Session × Option Fault
  | [], s => (s, none)
  | .fail text :: _, s => (s, some (.raised text))
  | .leave label :: rest, s =>
    match s.unsubscribe label with
    | (s, none) => perform send rest s
    | (s, some fault) => (s, some fault)
  | .send event :: rest, s =>
    match send event s with
    | (s, .ok _) => perform send rest s
    | (s, .error fault) => (s, some fault)
  | .stop :: rest, s => perform send rest s.stop

/-- Shows a snapshot to one observer; what comes back is how it failed. -/
def tell (send : Sender) (snapshot : Snapshot) (label : String) (s : Session) :
    Session × Option Fault :=
  let noted := { s with notes := s.notes ++ [.changed label snapshot.value snapshot.version] }
  let commands := ((Entries.get? s.reactions label).map fun reaction => reaction snapshot).getD []
  perform send commands noted

/-- Shows a snapshot to observers, one after the other, and logs what they fail with; where that
cannot be logged, it ends the notification. -/
def notify (send : Sender) (levels : Nat) (snapshot : Snapshot) :
    List String → Session → Session × Except Fault Snapshot
  | [], s => (s, .ok snapshot)
  | label :: rest, s =>
    match tell send snapshot label s with
    | (s, none) => notify send levels snapshot rest s
    | (s, some fault) =>
      if s.canLog levels then
        notify send levels snapshot rest
          (s.report [.log (.observerFailed s.interpreter.name fault.message)])
      else (s, .error .nestedTooDeeply)

/-- Sends an event, with at most this many levels of events nested. -/
def sendWithin : Nat → Sender
  | 0, event, s =>
    let (strained, signals) := s.interpreter.strain s.telemetry.heard event
    ({ s with interpreter := strained }.report signals, .error .nestedTooDeeply)
  | levels + 1, event, s =>
    let response := s.interpreter.dispatch s.now event
    let s := { s with interpreter := response.state }.report response.signals
    match response.result with
    | .error fault => (s, .error fault)
    | .ok (.ignored snapshot diagnostic) =>
      match s.tellUnhandled levels diagnostic with
      | (s, none) => (s, .ok snapshot)
      | (s, some fault) => (s, .error fault)
    | .ok (.handled snapshot false) => (s, .ok snapshot)
    | .ok (.handled snapshot true) =>
      notify (sendWithin levels) levels snapshot s.observers s

/-- Sends an event; the result is the snapshot that it led to. -/
def send (event : String) (s : Session) : Session × Except Fault Snapshot :=
  sendWithin nestingLimit event s

/-- Puts an interpreter, if it could be restored, in the place of the current one. -/
def takeOver (s : Session) (restored : Except Corruption Interpreter) :
    Session × Option Corruption :=
  match restored with
  | .ok interpreter => ((s.replace interpreter).report interpreter.restoredSignals, none)
  | .error corruption => (s, some corruption)

/-- Puts the interpreter that a value describes in the place of the current one. -/
def restore (s : Session) (value : Json) : Session × Option Corruption :=
  s.takeOver (Interpreter.restore s.interpreter.chart value (some s.interpreter.name))

/-- Puts the snapshot that is shown through an envelope and back. -/
def reload (s : Session) (snapshot : Snapshot) : Session × Option Corruption :=
  s.takeOver do
    let text ← Envelope.encodeSnapshot (.int Settings.persistVersion) snapshot
    let layout ← Envelope.decode (.int Settings.persistVersion) text
    Interpreter.ofLayout s.interpreter.chart layout (some s.interpreter.name)

end Session

end Lifecycle
