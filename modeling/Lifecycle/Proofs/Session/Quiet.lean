import Lifecycle.Proofs.Interpreter.Requests
import Lifecycle.Proofs.Session.Notification

/-!
# Observers who leave the run alone

An observer is quiet who neither sends events nor stops the run, whatever it is shown; it may fail,
and it may give up its subscription. Where all observers are quiet, a session does to its
interpreter what is asked of it and nothing more (`interpreter_serve`), so the status only moves
forward (`stage_le_serveAll`). An event that is ignored leaves all as it was but the records, the
notes and what is reported (`overlooks_of_ignores`), also where the callback for ignored events
fails.
-/

namespace Lifecycle

/-- A command that does nothing to the run. -/
def Command.isQuiet : Command → Bool
  | .fail _ | .leave _ => true
  | .send _ | .stop => false

/-- A reaction does nothing to the run, whatever snapshot is shown. -/
def Reaction.Quiet (reaction : Reaction) : Prop :=
  ∀ snapshot, ∀ command ∈ reaction snapshot, command.isQuiet = true

namespace Session

variable {send : Sender} {s s' : Session} {levels : Nat}

/-- All observers are quiet. -/
def Quiet (s : Session) : Prop :=
  ∀ label reaction, Entries.get? s.reactions label = some reaction → Reaction.Quiet reaction

theorem Quiet.of_eq (h : s.Quiet) (heq : s'.reactions = s.reactions) : s'.Quiet := by
  intro label reaction
  rw [heq]
  exact h label reaction

theorem Quiet.commandsOf (h : s.Quiet) (snapshot : Snapshot) (label : String) {command : Command}
    (hcommand : command ∈ s.commandsOf snapshot label) : command.isQuiet = true := by
  unfold Session.commandsOf at hcommand
  rcases hreaction : Entries.get? s.reactions label with _ | reaction <;>
    rw [hreaction] at hcommand
  · cases hcommand
  · exact h label reaction hreaction snapshot command hcommand

/-! ## Notifications -/

theorem unsubscribe_frame (s : Session) (label : String) :
    ∃ observers, (s.unsubscribe label).1 = { s with observers := observers } := by
  unfold unsubscribe
  split
  · exact ⟨s.observers, rfl⟩
  · split
    · exact ⟨_, rfl⟩
    · exact ⟨s.observers, rfl⟩

theorem interpreter_unsubscribe (s : Session) (label : String) :
    (s.unsubscribe label).1.interpreter = s.interpreter := by
  obtain ⟨_, hframe⟩ := s.unsubscribe_frame label
  rw [hframe]

theorem interpreter_tellUnhandled (levels : Nat) (s : Session) (diagnostic : Diagnostic) :
    (s.tellUnhandled levels diagnostic).1.interpreter = s.interpreter := by
  unfold tellUnhandled
  split
  · rfl
  · dsimp only
    split
    · rfl
    · split <;> rfl

/-- Quiet commands change who is registered, and nothing else. -/
theorem perform_frame {commands : List Command}
    (h : ∀ command ∈ commands, command.isQuiet = true) (s : Session) :
    ∃ observers, (perform send commands s).1 = { s with observers := observers } := by
  induction commands generalizing s with
  | nil => exact ⟨s.observers, rfl⟩
  | cons command rest ih =>
    obtain ⟨hcommand, hrest⟩ := List.forall_mem_cons.mp h
    cases command with
    | fail text => exact ⟨s.observers, rfl⟩
    | leave label =>
      obtain ⟨observers, hleave⟩ := s.unsubscribe_frame label
      rw [perform]
      split <;> rename_i heq <;> rw [heq] at hleave <;> subst hleave
      · exact ih hrest _
      · exact ⟨observers, rfl⟩
    | send event => cases hcommand
    | stop => cases hcommand

/-- Quiet commands leave the interpreter alone. -/
theorem interpreter_perform {commands : List Command}
    (h : ∀ command ∈ commands, command.isQuiet = true) (s : Session) :
    (perform send commands s).1.interpreter = s.interpreter := by
  obtain ⟨observers, hframe⟩ :
      ∃ observers, (perform send commands s).1 = { s with observers := observers } :=
    perform_frame h s
  rw [hframe]

theorem interpreter_tell (send : Sender) (hquiet : s.Quiet) (snapshot : Snapshot) (label : String) :
    (tell send snapshot label s).1.interpreter = s.interpreter :=
  interpreter_perform (fun _ hcommand => hquiet.commandsOf snapshot label hcommand) _

/-- Quiet observers leave the interpreter alone. -/
theorem interpreter_notify (hsend : ∀ (event : String) (s : Session), s.Dwindles (send event s).1)
    (hquiet : s.Quiet) (snapshot : Snapshot) (labels : List String) :
    (notify send levels snapshot labels s).1.interpreter = s.interpreter := by
  induction labels generalizing s with
  | nil => rfl
  | cons label rest ih =>
    have htold := interpreter_tell send hquiet snapshot label
    have hreactions := (dwindles_tell hsend snapshot label s).reactions
    rw [notify]
    rcases htell : tell send snapshot label s with ⟨after, _ | fault⟩ <;>
      rw [htell] at htold hreactions
    · exact (ih (hquiet.of_eq hreactions)).trans htold
    · have hlogged : (after.report
          [.log (.observerFailed after.interpreter.name fault.message)]).Quiet :=
        hquiet.of_eq hreactions
      dsimp only
      split
      · exact (ih hlogged).trans htold
      · exact htold

/-- An event does to the interpreter what it does without observers. -/
theorem interpreter_send (hquiet : s.Quiet) (event : String) :
    (s.send event).1.interpreter = (s.interpreter.dispatch s.now event).state := by
  have hhandled := hquiet.of_eq (s.dwindles_handled event).reactions
  show (sendWithin (328 + 1) event s).1.interpreter = (s.handled event).interpreter
  rw [sendWithin, ← handled]
  split
  · rfl
  · rename_i diagnostic _
    have htold := (s.handled event).interpreter_tellUnhandled 328 diagnostic
    split <;> rename_i heq <;> rw [heq] at htold <;> exact htold
  · rfl
  · exact interpreter_notify (dwindles_sendWithin 328) hhandled _ _

/-! ## Requests -/

/-- What is asked of a session; the last three leave the interpreter alone. -/
inductive Request where
  | start
  | send (event : String)
  | stop
  | subscribe (label : String) (reaction : Reaction)
  | unsubscribe (label : String)
  | onUnhandled (callback : Option (Diagnostic → Option Fault))
  | clock (now : Json)

/-- The session after a request. -/
def serve (s : Session) : Request → Session
  | .start => s.start.1
  | .send event => (s.send event).1
  | .stop => s.stop
  | .subscribe label reaction => s.subscribe label reaction
  | .unsubscribe label => (s.unsubscribe label).1
  | .onUnhandled callback => { s with onUnhandled := callback }
  | .clock now => { s with now := now }

/-- The session after some requests, one after the other. -/
def serveAll (s : Session) (requests : List Request) : Session := requests.foldl serve s

/-- Nobody is registered by a request who is not quiet. -/
def Request.Quiet : Request → Prop
  | .subscribe _ reaction => Reaction.Quiet reaction
  | _ => True

/-- What a request to a session asks of the interpreter. -/
def asked (s : Session) : Request → List Interpreter.Request
  | .start => [.start]
  | .send event => [.send ⟨s.now, event⟩]
  | .stop => [.stop]
  | _ => []

theorem interpreter_stop (s : Session) : s.stop.interpreter = s.interpreter.stop.state := by
  unfold stop
  dsimp only
  split <;> rfl

/-- A request does to the interpreter what is asked of it, and nothing else. -/
theorem interpreter_serve (hquiet : s.Quiet) (request : Request) :
    (s.serve request).interpreter = s.interpreter.serveAll (s.asked request) := by
  cases request with
  | start => rfl
  | send event => exact interpreter_send hquiet event
  | stop => exact s.interpreter_stop
  | subscribe label reaction => rfl
  | unsubscribe label => exact s.interpreter_unsubscribe label
  | onUnhandled callback => rfl
  | clock now => rfl

theorem Quiet.subscribe (h : s.Quiet) (label : String) {reaction : Reaction}
    (hreaction : Reaction.Quiet reaction) : (s.subscribe label reaction).Quiet := by
  intro other found hfound
  unfold Session.subscribe at hfound
  dsimp only at hfound
  split at hfound
  · exact h other found hfound
  · rw [Entries.get?_set] at hfound
    split at hfound
    · obtain rfl := Option.some.inj hfound
      exact hreaction
    · exact h other found hfound

theorem Quiet.serve (h : s.Quiet) {request : Request} (hrequest : request.Quiet) :
    (s.serve request).Quiet := by
  cases request with
  | subscribe label reaction => exact h.subscribe label hrequest
  | send event => exact h.of_eq (dwindles_sendWithin nestingLimit event s).reactions
  | stop => exact h.of_eq s.dwindles_stop.reactions
  | unsubscribe label => exact h.of_eq (s.dwindles_unsubscribe label).reactions
  | _ => exact h

theorem Quiet.serveAll (h : s.Quiet) {requests : List Request}
    (hrequests : ∀ request ∈ requests, request.Quiet) : (s.serveAll requests).Quiet := by
  induction requests generalizing s with
  | nil => exact h
  | cons request rest ih =>
    obtain ⟨hrequest, hrest⟩ := List.forall_mem_cons.mp hrequests
    exact ih (h.serve hrequest) hrest

/-- The status of a session with quiet observers only moves forward. -/
theorem stage_le_serveAll (h : s.Quiet) {requests : List Request}
    (hrequests : ∀ request ∈ requests, request.Quiet) :
    s.interpreter.status.stage ≤ (s.serveAll requests).interpreter.status.stage := by
  induction requests generalizing s with
  | nil => exact Nat.le_refl _
  | cons request rest ih =>
    obtain ⟨hrequest, hrest⟩ := List.forall_mem_cons.mp hrequests
    have hserved := s.interpreter.stage_le_serveAll (s.asked request)
    rw [← interpreter_serve h request] at hserved
    exact hserved.trans (ih (h.serve hrequest) hrest)

/-! ## Ignored events -/

/-- An event leaves a session as it was, but for the records of the interpreter, what is reported,
and the notes that callbacks other than observers took; its result is the snapshot that is shown. -/
structure Overlooks (s : Session) (event : String) (snapshot : Snapshot) : Prop where
  result : (s.send event).2 = .ok snapshot
  state : ∃ log telemetry notes, (s.send event).1 = { s with
    interpreter := { s.interpreter with log := log }, telemetry := telemetry, notes := notes }
  heard (label : String) : (s.send event).1.heard label = s.heard label

/-- Where there is room to log, the callback for ignored events changes nothing but the notes and
what is reported, and does not fail. -/
theorem tellUnhandled_of_room (h : levels ≠ 0) (s : Session) (diagnostic : Diagnostic) :
    ∃ telemetry notes, s.tellUnhandled levels diagnostic =
      ({ s with telemetry := telemetry, notes := notes }, none) := by
  have hroom (s : Session) : s.canLog levels = true := by simp [canLog, h]
  unfold tellUnhandled
  split
  · exact ⟨_, _, rfl⟩
  · dsimp only
    split
    · exact ⟨_, _, rfl⟩
    · rw [if_pos (hroom _)]
      exact ⟨_, _, rfl⟩

/-- An event that the interpreter ignores leaves all as it was, whatever the callback for ignored
events does. -/
theorem overlooks_of_ignores {event : String} (h : s.interpreter.Ignores s.now event)
    {snapshot : Snapshot} {time : Number} (hshown : s.interpreter.snapshot = some snapshot)
    (htime : Record.stamp s.now = .ok time) : s.Overlooks event snapshot := by
  obtain ⟨log, hstate⟩ := h.state
  obtain ⟨reason, hresult⟩ := h.result hshown htime
  have hlevels : (328 : Nat) ≠ 0 := by decide
  obtain ⟨telemetry, notes, htold⟩ := tellUnhandled_of_room hlevels (s.handled event)
    ⟨event, snapshot.path, reason⟩
  have hheard := (s.handled event).heard_tellUnhandled 328 ⟨event, snapshot.path, reason⟩
  have hsend : s.send event =
      ({ s.handled event with telemetry := telemetry, notes := notes }, .ok snapshot) := by
    show sendWithin (328 + 1) event s = _
    rw [sendWithin, ← handled, hresult]
    dsimp only
    rw [htold]
  rw [htold] at hheard
  refine ⟨by rw [hsend], ⟨log, telemetry, notes, ?_⟩, fun label => ?_⟩
  · rw [hsend, handled, hstate]
    rfl
  · rw [hsend]
    exact hheard label

/-- **One way through the stages.** Where observers leave the run alone, the status only moves
forward, whatever is asked for in whatever order and whichever actions fail. Once there is a
snapshot, an event that there is nothing to be done for has it as its result, no observer hears of
it, and nothing is changed but the records and what is reported, even if the callback for ignored
events fails. -/
theorem serveAll_forward (hquiet : s.Quiet) {earlier later : List Request}
    (hrequests : ∀ request ∈ earlier ++ later, request.Quiet) :
    (s.serveAll earlier).interpreter.status.stage ≤
        (s.serveAll (earlier ++ later)).interpreter.status.stage ∧
      ∀ event snapshot time, (s.serveAll earlier).interpreter.snapshot = some snapshot →
        Record.stamp (s.serveAll earlier).now = .ok time →
          (s.serveAll earlier).interpreter.Idle event →
            (s.serveAll earlier).Overlooks event snapshot := by
  obtain ⟨hearlier, hlater⟩ := List.forall_mem_append.mp hrequests
  refine ⟨?_, fun event snapshot time hshown htime hidle => ?_⟩
  · have hforward := stage_le_serveAll (hquiet.serveAll hearlier) hlater
    rwa [serveAll, serveAll, ← List.foldl_append] at hforward
  · exact overlooks_of_ignores (Interpreter.ignores_of_idle hidle _) hshown htime

/-- A run whose callback for ignored events fails. -/
def muted : Session :=
  { fresh (Interpreter.fresh passing [] none) (.fresh true true) with
    onUnhandled := some fun _ => some (.raised "mute") }

/-- An observer who fails is registered, and the run moves on. -/
def hampered : List Request := [.subscribe "clerk" fun _ => [.fail "busy"], .start, .send "go"]

set_option maxRecDepth 10000 in
/-- Between failing observers and callbacks an event that nobody handles has the snapshot that is
shown as its result, and being stopped comes after running. -/
theorem serveAll_forward_muted :
    muted.Quiet ∧ (∀ request ∈ hampered ++ [.stop], request.Quiet) ∧
      (muted.serveAll hampered).interpreter.status.stage ≤
        (muted.serveAll (hampered ++ [.stop])).interpreter.status.stage ∧
      ∃ snapshot, (muted.serveAll hampered).interpreter.snapshot = some snapshot ∧
        snapshot.value = "b" ∧ (muted.serveAll hampered).interpreter.Idle "knock" ∧
        ((muted.serveAll hampered).send "knock").2 = .ok snapshot := by
  have hquiet : muted.Quiet := nofun
  have hrequests : ∀ request ∈ hampered ++ [.stop], request.Quiet := by
    rintro request (_ | ⟨_, _ | ⟨_, _ | ⟨_, _ | ⟨_, ⟨⟩⟩⟩⟩⟩)
    · rintro snapshot command (_ | ⟨_, ⟨⟩⟩)
      rfl
    · trivial
    · trivial
    · trivial
  obtain ⟨hforward, hoverlooks⟩ := serveAll_forward hquiet hrequests
  have hvalue : (muted.serveAll hampered).interpreter.snapshot.map Snapshot.value = some "b" := by
    decide +kernel
  obtain ⟨snapshot, hshown, hb⟩ := Option.map_eq_some_iff.mp hvalue
  have hstamp : (Record.stamp (muted.serveAll hampered).now).toOption.isSome = true := by
    decide +kernel
  obtain ⟨time, htime⟩ := exists_ok_of_isSome hstamp
  have hunheard : ((muted.serveAll hampered).interpreter.handler? "knock").isNone = true := by
    decide +kernel
  have hidle : (muted.serveAll hampered).interpreter.Idle "knock" :=
    .inr (.inr (Interpreter.handler?_eq_none_iff.mp (Option.isNone_iff_eq_none.mp hunheard)))
  exact ⟨hquiet, hrequests, hforward, snapshot, hshown, hb, hidle,
    (hoverlooks "knock" snapshot time hshown htime hidle).result⟩

end Session

end Lifecycle
