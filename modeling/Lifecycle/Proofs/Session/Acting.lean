import Lifecycle.Proofs.Session.Quiet

/-!
# Callbacks that act on the run

The callback for ignored events may do what observers do: fail, cancel registrations, send events
and stop the run. What it does on hearing of an ignored event is its conduct; with the conduct that
does nothing, events and requests are those of a session (`sendActing_idle`, `serveActing_idle`).

What happens in the course of a request is told by its trace: which observers are called, who stands
behind each of them to be called next, when each of them is over with it, and when the run is
stopped. Whom an observer calls upon in between stands between its call and its return, to any
depth.
-/

namespace Lifecycle

/-- What the callback for ignored events does, given the event that was ignored. -/
abbrev Conduct := Diagnostic → List Command

/-- What happens in the course of a run. -/
inductive Happening where
  /-- An observer is called; behind it stand others who are to be shown the same. -/
  | calls (label : String) (snapshot : Snapshot) (others : List String)
  /-- The observer that was called last is over with it. -/
  | returns
  /-- A run that has begun is stopped. -/
  | stops
  /-- A notification ends before all are called, since there is no room for a message. -/
  | cutOff

namespace Session

variable {conduct : Conduct} {levels : Nat}

/-! ## Acting -/

/-- Notes an event that was ignored. -/
def noteIgnored (s : Session) (diagnostic : Diagnostic) : Session :=
  { s with
    notes := s.notes ++
      [.unhandled diagnostic.event (Text.dotted diagnostic.path) diagnostic.reason] }

/-- Calls the callback for ignored events, which acts before it fails or not, and logs what it fails
with; where that cannot be logged, it is a failure. -/
def tellActing (conduct : Conduct) (send : Sender) (levels : Nat) (s : Session)
    (diagnostic : Diagnostic) : Session × Option Fault :=
  match s.onUnhandled with
  | none => (s, none)
  | some callback =>
    let (acted, fault) := perform send (conduct diagnostic) (s.noteIgnored diagnostic)
    match fault.or (callback diagnostic) with
    | none => (acted, none)
    | some fault =>
      if acted.canLog levels then
        (acted.report [.log (.unhandledCallbackFailed acted.interpreter.name fault.message)], none)
      else (acted, some .nestedTooDeeply)

/-- Sends an event that callbacks act on, with at most this many levels of events nested. -/
def sendActing (conduct : Conduct) : Nat → Sender
  | 0, event, s => sendWithin 0 event s
  | levels + 1, event, s =>
    match (s.interpreter.dispatch s.now event).result with
    | .error fault => (s.handled event, .error fault)
    | .ok (.ignored snapshot diagnostic) =>
      match tellActing conduct (sendActing conduct levels) levels (s.handled event) diagnostic with
      | (s, none) => (s, .ok snapshot)
      | (s, some fault) => (s, .error fault)
    | .ok (.handled snapshot false) => (s.handled event, .ok snapshot)
    | .ok (.handled snapshot true) =>
      notify (sendActing conduct levels) levels snapshot (s.handled event).observers
        (s.handled event)

/-- The session after a request, the callback for ignored events behaving in this way. -/
def serveActing (levels : Nat) (s : Session) : Conduct × Request → Session
  | (conduct, .send event) => (sendActing conduct levels event s).1
  | (_, request) => s.serve request

/-- The session after some requests, one after the other. -/
def serveAllActing (levels : Nat) (s : Session) (asked : List (Conduct × Request)) : Session :=
  asked.foldl (serveActing levels) s

theorem tellActing_idle (send : Sender) (levels : Nat) (s : Session) (diagnostic : Diagnostic) :
    tellActing (fun _ => []) send levels s diagnostic = s.tellUnhandled levels diagnostic := by
  unfold tellActing tellUnhandled noteIgnored
  rcases s.onUnhandled with _ | callback
  · rfl
  · dsimp only [perform, Option.none_or]
    rcases callback diagnostic with _ | fault <;> rfl

/-- Where callbacks do nothing, events are those of a session. -/
theorem sendActing_idle (levels : Nat) : sendActing (fun _ => []) levels = sendWithin levels := by
  induction levels with
  | zero => rfl
  | succ levels ih =>
    funext event s
    rw [sendActing, sendWithin, ← handled, ih]
    rcases (s.interpreter.dispatch s.now event).result with
      fault | ⟨snapshot, _ | _⟩ | ⟨snapshot, diagnostic⟩
    · rfl
    · rfl
    · rfl
    · have htold := tellActing_idle (sendWithin levels) levels (s.handled event) diagnostic
      dsimp only
      generalize tellActing (fun _ => []) (sendWithin levels) levels (s.handled event) diagnostic =
        told at htold ⊢
      subst htold
      rfl

/-- Where callbacks do nothing, requests are those of a session. -/
theorem serveActing_idle (s : Session) (request : Request) :
    s.serveActing nestingLimit (fun _ => [], request) = s.serve request := by
  cases request with
  | send event => exact congrArg Prod.fst (congrFun (congrFun (sendActing_idle _) event) s)
  | _ => rfl

/-! ## Traces -/

/-- What happens when an event is sent. -/
abbrev Tracer := String → Session → List Happening

/-- What happens when the run is stopped. -/
def traceStop (s : Session) : List Happening :=
  if s.interpreter.status = .notStarted then [] else [.stops]

/-- What happens while commands are carried out. -/
def tracePerform (send : Sender) (trace : Tracer) : List Command → Session → List Happening
  | [], _ => []
  | .fail _ :: _, _ => []
  | .leave label :: rest, s =>
    match s.unsubscribe label with
    | (s, none) => tracePerform send trace rest s
    | (_, some _) => []
  | .send event :: rest, s =>
    trace event s ++
      match send event s with
      | (s, .ok _) => tracePerform send trace rest s
      | (_, .error _) => []
  | .stop :: rest, s => s.traceStop ++ tracePerform send trace rest s.stop

/-- What an observer does who is shown a snapshot. -/
def traceTell (send : Sender) (trace : Tracer) (snapshot : Snapshot) (label : String)
    (s : Session) : List Happening :=
  tracePerform send trace (s.commandsOf snapshot label)
    { s with notes := s.notes ++ [.changed label snapshot.value snapshot.version] }

/-- What happens while observers are shown a snapshot. -/
def traceNotify (send : Sender) (trace : Tracer) (levels : Nat) (snapshot : Snapshot) :
    List String → Session → List Happening
  | [], _ => []
  | label :: rest, s =>
    .calls label snapshot rest :: traceTell send trace snapshot label s ++ .returns ::
      match tell send snapshot label s with
      | (s, none) => traceNotify send trace levels snapshot rest s
      | (s, some fault) =>
        if s.canLog levels then
          traceNotify send trace levels snapshot rest
            (s.report [.log (.observerFailed s.interpreter.name fault.message)])
        else [.cutOff]

/-- What the callback for ignored events does. -/
def traceUnhandled (conduct : Conduct) (send : Sender) (trace : Tracer) (s : Session)
    (diagnostic : Diagnostic) : List Happening :=
  match s.onUnhandled with
  | none => []
  | some _ => tracePerform send trace (conduct diagnostic) (s.noteIgnored diagnostic)

/-- What happens in the course of an event, with at most this many levels of events nested. -/
def traceSend (conduct : Conduct) : Nat → Tracer
  | 0, _, _ => []
  | levels + 1, event, s =>
    match (s.interpreter.dispatch s.now event).result with
    | .ok (.ignored _ diagnostic) =>
      traceUnhandled conduct (sendActing conduct levels) (traceSend conduct levels)
        (s.handled event) diagnostic
    | .ok (.handled snapshot true) =>
      traceNotify (sendActing conduct levels) (traceSend conduct levels) levels snapshot
        (s.handled event).observers (s.handled event)
    | _ => []

/-- What happens in the course of a request. -/
def traceServe (levels : Nat) (s : Session) : Conduct × Request → List Happening
  | (conduct, .send event) => traceSend conduct levels event s
  | (_, .stop) => s.traceStop
  | _ => []

/-- What happens in the course of some requests, one after the other. -/
def traceServeAll (levels : Nat) : Session → List (Conduct × Request) → List Happening
  | _, [] => []
  | s, asked :: rest =>
    s.traceServe levels asked ++ traceServeAll levels (s.serveActing levels asked) rest

end Session

end Lifecycle
