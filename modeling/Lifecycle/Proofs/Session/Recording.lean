import Lifecycle.Proofs.Interpreter.Beginning
import Lifecycle.Proofs.Session.Acting
import Lifecycle.Proofs.Session.Delivery
import Mathlib.Data.List.Chain
import Mathlib.Data.List.DropRight

/-!
# What the records tell of a run

Each event that a run is sent leaves one record, before anyone hears of the event
(`Reachable.dispatch_recounts`). So the records stand in the order of the sendings, also of those
that observers and callbacks make in the course of others, and between two sendings nothing changes
the value that is shown: each record goes on where the one before it ends (`Recounted`). Only the
oldest records are forgotten (`log_serveAllActing`).
-/

namespace Lifecycle

namespace Record

theorem append_eq_rtake (records : List Record) (r : Record) :
    append records r = (records ++ [r]).rtake Settings.logLength := rfl

/-- Records that are appended one after the other push out the oldest ones. -/
theorem foldl_append {records : List Record} (hlength : records.length ≤ Settings.logLength)
    (new : List Record) :
    new.foldl append records = (records ++ new).rtake Settings.logLength := by
  induction new using List.reverseRecOn with
  | nil =>
    rw [List.foldl_nil, List.append_nil, List.rtake, Nat.sub_eq_zero_of_le hlength, List.drop_zero]
  | append_singleton new r ih =>
    rw [List.foldl_concat, ih, append_eq_rtake, ← List.append_assoc]
    simp only [List.rtake_eq_reverse_take_reverse, List.reverse_append, List.reverse_reverse,
      List.reverse_singleton, List.singleton_append]
    rw [Settings.logLength, List.take_succ_cons, List.take_succ_cons, List.take_take,
      Nat.min_eq_left (Nat.le_succ _)]

/-- A record tells of an event that a run was sent: when that was, what the run showed before it and
after it, and whether there was something to be done for it. -/
structure Recounts (r : Record) (m : Interpreter) (call : Call) : Prop where
  event_eq : r.event = call.event
  time_eq : Record.stamp call.now = .ok r.time
  before_eq : m.snapshot.map Snapshot.value = some r.before
  after_eq : (m.dispatch call.now call.event).state.snapshot.map Snapshot.value = some r.after
  handled : ¬ m.Idle call.event → r.handled = true
  ignored : m.Idle call.event → r.handled = false ∧ r.after = r.before

end Record

namespace Interpreter

variable {chart : Chart} {m : Interpreter} {now : Json} {time : Number} {event : String}

/-! ## The record of an event -/

theorem follow_log (m : Interpreter) (leaf : Nat) (t : Transition) :
    (m.follow leaf t).1.log = m.log := by
  obtain ⟨_, _, _, _, hframe⟩ := m.follow_frame leaf t
  rw [hframe]

theorem settle_log (m : Interpreter) : m.settle.state.log = m.log := by
  obtain ⟨_, _, _, _, _, -, hframe⟩ := m.settleFrom_frame (List.range m.chart.nodes.size)
  rw [settle, hframe]

variable (m now event) in
/-- A transition leaves its record if it is handled, and none if it fails. -/
theorem react_log_cases (before : Snapshot) (leaf : Nat) (t : Transition) :
    (∃ fault, (m.react now before event leaf t).result = .error fault ∧
      (m.react now before event leaf t).state.log = m.log) ∨
    ∃ after changed time, (m.react now before event leaf t).result = .ok (.handled after changed) ∧
      Record.stamp now = .ok time ∧ (m.react now before event leaf t).state.log =
        Record.append m.log ⟨event, before.value, after.value, true, "", time⟩ := by
  have hlog := m.follow_log leaf t
  unfold react
  rcases hfollow : m.follow leaf t with ⟨taken, _ | fault⟩ <;> rw [hfollow] at hlog
  · rw [← hlog, ← taken.settle_log]
    dsimp only
    generalize taken.settle = settled, Record.stamp now = stamped
    obtain ⟨state, signals, fault | _⟩ := settled
    · exact .inl ⟨fault, rfl, rfl⟩
    · obtain fault | time := stamped
      · exact .inl ⟨fault, rfl, rfl⟩
      · exact .inr ⟨_, _, time, rfl, rfl, rfl⟩
  · exact .inl ⟨fault, rfl, hlog⟩

/-- The record of a transition is appended to those from before it. -/
theorem react_log {before after : Snapshot} {changed : Bool} {leaf : Nat} {t : Transition}
    (h : (m.react now before event leaf t).result = .ok (.handled after changed)) :
    ∃ time, Record.stamp now = .ok time ∧ (m.react now before event leaf t).state.log =
      Record.append m.log ⟨event, before.value, after.value, true, "", time⟩ := by
  rcases m.react_log_cases now event before leaf t with
    ⟨fault, hresult, -⟩ | ⟨after', changed', time, hresult, htime, hlog⟩
  · rw [hresult] at h
    cases h
  · obtain ⟨rfl, -⟩ := Verdict.handled.inj (Except.ok.inj (hresult.symm.trans h))
    exact ⟨time, htime, hlog⟩

section NeverFails

variable (tree : chart.Arena) (total : chart.NeverFails)

include tree total

/-- A run shows the path that it is at, where no action fails. -/
theorem Reachable.shows_path (h : Reachable chart m) :
    m.snapshot.map Snapshot.path = some m.observe.path := by
  induction h with
  | start hstart =>
    obtain ⟨-, _, s, -, -, hrests⟩ := start_spec tree total _ _
    rw [hrests.snapshot_eq]
    rfl
  | resume hresume => rw [(resume_spec hresume).1, Option.map_some]
  | @send m now event hm ih =>
    obtain ⟨s, halive⟩ := hm.exists_alive tree
    obtain ⟨snapshot, hshown⟩ := Option.isSome_iff_exists.mp halive.shown
    obtain ⟨_, _, -, -, -, hcases⟩ :=
      halive.toStands.dispatch tree halive.situated hshown now event
    rcases hcases with ⟨-, ⟨log, hstate⟩, -⟩ | ⟨-, ⟨log, hstate⟩, -⟩ | ⟨step, fault, hbreaks, -⟩
    · rw [hstate]
      exact ih
    · rw [hstate]
      rfl
    · exact absurd hbreaks (total.keeps.not_breaks tree trivial)
  | @stop m hm ih =>
    unfold Interpreter.stop
    split
    · exact ih
    · rfl

/-- A run that was started or restored has begun. -/
theorem Reachable.begun (h : Reachable chart m) : m.status ≠ .notStarted := by
  suffices hstage : 0 < m.status.stage by
    intro hstatus
    rw [hstatus] at hstage
    exact absurd hstage (Nat.lt_irrefl 0)
  induction h with
  | start hstart =>
    obtain ⟨-, _, s, -, -, hrests⟩ := start_spec tree total _ _
    rw [hrests.status_eq, Chart.statusAt]
    split <;> decide
  | resume hresume => exact (resume_spec hresume).2
  | send now event _ ih => exact ih.trans_le (stage_le_dispatch _ now event)
  | stop _ ih => exact ih.trans_le (stage_le_stop _)

/-- To stop a run does not change the value that it shows. -/
theorem Reachable.stop_value (h : Reachable chart m) :
    m.stop.state.snapshot.map Snapshot.value = m.snapshot.map Snapshot.value := by
  have hbefore := h.shows_path tree total
  have hafter := h.stop.shows_path tree total
  have hpath : m.stop.state.observe.path = m.observe.path := by
    unfold Interpreter.stop
    split <;> rfl
  have hvalue (shown : Option Snapshot) : shown.map Snapshot.value =
      (shown.map Snapshot.path).map fun path => Text.dotted (path.drop 1) := by
    rw [Option.map_map]
    rfl
  rw [hvalue, hvalue, hafter, hbefore, hpath]

/-- An event that is sent to a run leaves one record, which tells of it. -/
theorem Reachable.dispatch_recounts (h : Reachable chart m)
    (htime : Record.stamp now = .ok time) (event : String) :
    ∃ r : Record, (m.dispatch now event).state.log = Record.append m.log r ∧
      r.Recounts m ⟨now, event⟩ := by
  obtain ⟨s, halive⟩ := h.exists_alive tree
  obtain ⟨before, hshown⟩ := Option.isSome_iff_exists.mp halive.shown
  by_cases hevent : m.Idle event
  · obtain ⟨reason, signals, hdispatch⟩ := dispatch_of_idle hevent now hshown
    rw [ignore, htime] at hdispatch
    refine ⟨⟨event, before.value, before.value, false, reason, time⟩, by rw [hdispatch], rfl,
      htime, by rw [hshown]; rfl, ?_, fun hnot => absurd hevent hnot, fun _ => ⟨rfl, rfl⟩⟩
    rw [hdispatch]
    exact congrArg _ hshown
  · obtain ⟨after, hresult, -, hsnapshot⟩ :=
      dispatch_handled tree total halive hshown hevent htime
    obtain ⟨leaf, t, -, -, hdispatch⟩ := dispatch_of_not_idle hevent now hshown
    rw [hdispatch] at hresult
    obtain ⟨time, htime, hlog⟩ := react_log hresult
    refine ⟨⟨event, before.value, after.value, true, "", time⟩, by rw [hdispatch, hlog], rfl,
      htime, by rw [hshown]; rfl, by rw [hsnapshot]; rfl, fun _ => rfl,
      fun hidle => absurd hidle hevent⟩

end NeverFails

end Interpreter

/-! ## Sendings -/

/-- An event that is sent in the course of a run. -/
inductive Sending where
  /-- It comes to the run, which is in a state. -/
  | meets (m : Interpreter) (call : Call)
  /-- Events are nested too deeply for it. -/
  | refused

/-- The record of an event that is sent. -/
def Sending.Recorded : Sending → Record → Prop
  | .meets m call, r => r.Recounts m call
  | .refused, _ => False

/-- Sendings and their records, from a value that is shown to the one that is shown in the end.
Each begins with the value that the one before it ended with. -/
inductive Recounted : Option String → List Sending → List Record → Option String → Prop
  | nil (value : Option String) : Recounted value [] [] value
  | cons {m : Interpreter} {call : Call} {r : Record} {sendings : List Sending}
    {records : List Record} {value : Option String} :
    r.Recounts m call → Recounted (some r.after) sendings records value →
      Recounted (some r.before) (.meets m call :: sendings) (r :: records) value

namespace Recounted

variable {first middle last : Option String} {T T' : List Sending} {records records' : List Record}

theorem append (h : Recounted first T records middle) (h' : Recounted middle T' records' last) :
    Recounted first (T ++ T') (records ++ records') last := by
  induction h with
  | nil => exact h'
  | cons hr _ ih => exact .cons hr (ih h')

theorem recorded (h : Recounted first T records last) :
    List.Forall₂ Sending.Recorded T records := by
  induction h with
  | nil => exact .nil
  | cons hr _ ih => exact .cons hr ih

theorem head_eq (h : Recounted first T records last) {r : Record} (hr : records.head? = some r) :
    first = some r.before := by
  cases h with
  | nil => cases hr
  | cons => rw [Option.some.inj hr]

/-- Each record goes on where the one before it ends. -/
theorem isChain (h : Recounted first T records last) :
    records.IsChain fun r r' => r.after = r'.before := by
  induction h with
  | nil => exact .nil
  | cons _ h ih =>
    exact List.isChain_cons.mpr ⟨fun r hr => Option.some.inj (h.head_eq hr), ih⟩

/-- The last record ends with the value that is shown in the end. -/
theorem last_eq (h : Recounted first T records last) :
    last = (records.getLast?.map Record.after).or first := by
  induction h with
  | nil => rfl
  | @cons _ _ _ _ records _ _ _ ih =>
    rw [ih, List.getLast?_cons]
    cases records.getLast? <;> rfl

end Recounted

namespace Session

/-- The events that are sent when an event is. -/
abbrev Enumerator := String → Session → List Sending

/-- The events that are sent while commands are carried out. -/
def sendingsPerform (send : Sender) (sendings : Enumerator) :
    List Command → Session → List Sending
  | [], _ => []
  | .fail _ :: _, _ => []
  | .leave label :: rest, s =>
    match s.unsubscribe label with
    | (s, none) => sendingsPerform send sendings rest s
    | (_, some _) => []
  | .send event :: rest, s =>
    sendings event s ++
      match send event s with
      | (s, .ok _) => sendingsPerform send sendings rest s
      | (_, .error _) => []
  | .stop :: rest, s => sendingsPerform send sendings rest s.stop

/-- The events that are sent while observers are shown a snapshot. -/
def sendingsNotify (send : Sender) (sendings : Enumerator) (levels : Nat) (snapshot : Snapshot) :
    List String → Session → List Sending
  | [], _ => []
  | label :: rest, s =>
    sendingsPerform send sendings (s.commandsOf snapshot label)
        { s with notes := s.notes ++ [.changed label snapshot.value snapshot.version] } ++
      match tell send snapshot label s with
      | (s, none) => sendingsNotify send sendings levels snapshot rest s
      | (s, some fault) =>
        if s.canLog levels then
          sendingsNotify send sendings levels snapshot rest
            (s.report [.log (.observerFailed s.interpreter.name fault.message)])
        else []

/-- The events that the callback for ignored events sends. -/
def sendingsUnhandled (conduct : Conduct) (send : Sender) (sendings : Enumerator) (s : Session)
    (diagnostic : Diagnostic) : List Sending :=
  match s.onUnhandled with
  | none => []
  | some _ => sendingsPerform send sendings (conduct diagnostic) (s.noteIgnored diagnostic)

/-- An event that is sent, and those that are in its course, with at most this many levels of events
nested. -/
def sendingsOf (conduct : Conduct) : Nat → Enumerator
  | 0, _, _ => [.refused]
  | levels + 1, event, s =>
    .meets s.interpreter ⟨s.now, event⟩ ::
      match (s.interpreter.dispatch s.now event).result with
      | .ok (.ignored _ diagnostic) =>
        sendingsUnhandled conduct (sendActing conduct levels) (sendingsOf conduct levels)
          (s.handled event) diagnostic
      | .ok (.handled snapshot true) =>
        sendingsNotify (sendActing conduct levels) (sendingsOf conduct levels) levels snapshot
          (s.handled event).observers (s.handled event)
      | _ => []

/-- The events that are sent in the course of a request. -/
def sendingsServe (levels : Nat) (s : Session) : Conduct × Request → List Sending
  | (conduct, .send event) => sendingsOf conduct levels event s
  | _ => []

/-- The events that are sent in the course of some requests, one after the other. -/
def sendingsServeAll (levels : Nat) : Session → List (Conduct × Request) → List Sending
  | _, [] => []
  | s, asked :: rest =>
    s.sendingsServe levels asked ++ sendingsServeAll levels (s.serveActing levels asked) rest

/-- A clock that is set can be read. -/
def Request.Readable : Request → Prop
  | .clock now => ∃ time, Record.stamp now = .ok time
  | _ => True

variable {chart : Chart} {conduct : Conduct} {send : Sender} {sendings : Enumerator} {levels : Nat}
  {s s' s₁ s₂ : Session} {T T' : List Sending}

/-! ## Stretches of a run -/

/-- The value of the snapshot that is shown. -/
def value? (s : Session) : Option String := s.interpreter.snapshot.map Snapshot.value

/-- A run has begun, and its clock can be read. -/
def Ready (s : Session) (chart : Chart) : Prop :=
  Interpreter.Reachable chart s.interpreter ∧ ∃ time, Record.stamp s.now = .ok time

/-- In a stretch of a run in which events are not nested too deeply, each that is sent is recorded,
and nothing else. -/
def Records (chart : Chart) (s : Session) (T : List Sending) (s' : Session) : Prop :=
  .refused ∉ T → s.Ready chart → s'.Ready chart ∧ ∃ records,
    Recounted s.value? T records s'.value? ∧
      s'.interpreter.log = records.foldl Record.append s.interpreter.log

namespace Records

/-- A step that leaves the run and its clock alone. -/
theorem quiet (hrun : s'.interpreter = s.interpreter) (hclock : s'.now = s.now) :
    Records chart s [] s' := by
  rintro - ⟨hreachable, hstamped⟩
  refine ⟨⟨hrun ▸ hreachable, hclock ▸ hstamped⟩, [], ?_, congrArg _ hrun⟩
  rw [value?, value?, hrun]
  exact .nil _

theorem refl (s : Session) : Records chart s [] s := quiet rfl rfl

theorem trans (h : Records chart s T s₁) (h' : Records chart s₁ T' s₂) :
    Records chart s (T ++ T') s₂ := by
  intro hnested hready
  obtain ⟨hnested, hnested'⟩ := not_or.mp (List.mem_append.not.mp hnested)
  obtain ⟨hready, records, hrecounted, hlog⟩ := h hnested hready
  obtain ⟨hready', records', hrecounted', hlog'⟩ := h' hnested' hready
  refine ⟨hready', records ++ records', hrecounted.append hrecounted', ?_⟩
  rw [hlog', hlog, List.foldl_append]

theorem unsubscribe (s : Session) (label : String) :
    Records chart s [] (s.unsubscribe label).1 := by
  obtain ⟨_, hframe⟩ := s.unsubscribe_frame label
  rw [hframe]
  exact quiet rfl rfl

end Records

section NeverFails

variable (tree : chart.Arena) (total : chart.NeverFails)

include tree total

theorem records_stop (s : Session) : Records chart s [] s.stop := by
  have hnow : s.stop.now = s.now := by
    unfold stop
    dsimp only
    split <;> rfl
  have hlog : s.interpreter.stop.state.log = s.interpreter.log := by
    unfold Interpreter.stop
    split <;> rfl
  rintro - ⟨hreachable, hstamped⟩
  refine ⟨⟨?_, hnow ▸ hstamped⟩, [], ?_, ?_⟩
  · rw [interpreter_stop]
    exact hreachable.stop
  · rw [value?, value?, interpreter_stop, hreachable.stop_value tree total]
    exact .nil _
  · rw [interpreter_stop, hlog]
    rfl

theorem records_handled (event : String) (s : Session) :
    Records chart s [.meets s.interpreter ⟨s.now, event⟩] (s.handled event) := by
  rintro - ⟨hreachable, time, htime⟩
  obtain ⟨r, hlog, hr⟩ := hreachable.dispatch_recounts tree total htime event
  refine ⟨⟨hreachable.send s.now event, time, htime⟩, [r], ?_, hlog⟩
  rw [value?, hr.before_eq]
  refine .cons hr ?_
  rw [← hr.after_eq]
  exact .nil _

section Acting

variable (hsend : ∀ (event : String) (s : Session),
  Records chart s (sendings event s) (send event s).1)

include hsend

theorem records_perform (commands : List Command) (s : Session) :
    Records chart s (sendingsPerform send sendings commands s) (perform send commands s).1 := by
  induction commands generalizing s with
  | nil => exact .refl s
  | cons command rest ih =>
    cases command with
    | fail text => exact .refl s
    | leave label =>
      have hleave : Records chart s [] (s.unsubscribe label).1 := Records.unsubscribe s label
      rw [perform, sendingsPerform]
      generalize s.unsubscribe label = left at hleave ⊢
      obtain ⟨after, _ | fault⟩ := left
      · exact hleave.trans (ih after)
      · exact hleave
    | send event =>
      have hsent := hsend event s
      rw [perform, sendingsPerform]
      generalize send event s = sent at hsent ⊢
      obtain ⟨after, fault | shown⟩ := sent
      · exact hsent.trans (.refl after)
      · exact hsent.trans (ih after)
    | stop => exact (records_stop tree total s).trans (ih s.stop)

theorem records_notify (levels : Nat) (snapshot : Snapshot) (labels : List String) (s : Session) :
    Records chart s (sendingsNotify send sendings levels snapshot labels s)
      (notify send levels snapshot labels s).1 := by
  induction labels generalizing s with
  | nil => exact .refl s
  | cons label rest ih =>
    have htold : Records chart { s with
        notes := s.notes ++ [.changed label snapshot.value snapshot.version] }
        (sendingsPerform send sendings (s.commandsOf snapshot label) _)
        (tell send snapshot label s).1 :=
      records_perform tree total hsend (s.commandsOf snapshot label) _
    rw [notify, sendingsNotify]
    generalize tell send snapshot label s = told at htold ⊢
    obtain ⟨after, _ | fault⟩ := told
    · exact htold.trans (ih after)
    · dsimp only
      split
      · exact htold.trans (ih _)
      · exact htold.trans (.refl after)

theorem records_tellActing (conduct : Conduct) (levels : Nat) (s : Session)
    (diagnostic : Diagnostic) :
    Records chart s (sendingsUnhandled conduct send sendings s diagnostic)
      (tellActing conduct send levels s diagnostic).1 := by
  have hacted : Records chart s _ _ :=
    records_perform tree total hsend (conduct diagnostic) (s.noteIgnored diagnostic)
  unfold sendingsUnhandled tellActing
  generalize perform send (conduct diagnostic) (s.noteIgnored diagnostic) = performed at hacted ⊢
  obtain ⟨acted, fault⟩ := performed
  rcases s.onUnhandled with _ | callback
  · exact .refl s
  · dsimp only
    rcases fault.or (callback diagnostic) with _ | fault
    · exact hacted
    · dsimp only
      split <;> exact hacted

end Acting

/-- An event that is sent, and those that are in its course, are recorded. -/
theorem records_sendActing (conduct : Conduct) (levels : Nat) (event : String) (s : Session) :
    Records chart s (sendingsOf conduct levels event s) (sendActing conduct levels event s).1 := by
  induction levels generalizing event s with
  | zero => exact fun hnested => absurd List.mem_cons_self hnested
  | succ levels ih =>
    have hhandled := records_handled tree total event s
    rw [sendingsOf, sendActing]
    rcases (s.interpreter.dispatch s.now event).result with
      fault | ⟨snapshot, _ | _⟩ | ⟨snapshot, diagnostic⟩
    · exact hhandled
    · exact hhandled
    · exact hhandled.trans (records_notify tree total ih levels snapshot _ (s.handled event))
    · have hacted := hhandled.trans
        (records_tellActing tree total ih conduct levels (s.handled event) diagnostic)
      dsimp only
      generalize tellActing conduct _ levels (s.handled event) diagnostic = told at hacted ⊢
      obtain ⟨after, _ | fault⟩ := told <;> exact hacted

variable {asked : Conduct × Request}

theorem records_serveActing (levels : Nat) (s : Session) (hclock : asked.2.Readable) :
    Records chart s (s.sendingsServe levels asked) (s.serveActing levels asked) := by
  obtain ⟨conduct, request⟩ := asked
  cases request with
  | start =>
    intro hnested hready
    have hstart := Interpreter.start_of_begun (hready.1.begun tree total)
    exact Records.quiet (congrArg Response.state hstart) rfl hnested hready
  | send event => exact records_sendActing tree total conduct levels event s
  | stop => exact records_stop tree total s
  | unsubscribe label => exact .unsubscribe s label
  | clock now => exact fun _ hready => ⟨⟨hready.1, hclock⟩, [], .nil _, rfl⟩
  | _ => exact .quiet rfl rfl

theorem records_serveAllActing (levels : Nat) (s : Session) {asked : List (Conduct × Request)}
    (hclocks : ∀ request ∈ asked, request.2.Readable) :
    Records chart s (sendingsServeAll levels s asked) (s.serveAllActing levels asked) := by
  induction asked generalizing s with
  | nil => exact .refl s
  | cons first rest ih =>
    obtain ⟨hfirst, hrest⟩ := List.forall_mem_cons.mp hclocks
    exact (records_serveActing tree total levels s hfirst).trans (ih _ hrest)

end NeverFails

/-- **What the log holds.** A run of a built chart whose actions never fail was started or restored,
with no record yet, and its clock can be read. Observers and callbacks for ignored events may fail,
cancel registrations, send events and stop the run, as long as events are not nested too deeply.
Each event that is sent has its record, in the order in which they are sent, whether it is handled
or ignored and from wherever it is sent. The log holds the last of them. Each record goes on where
the one before it ends, and the last ends with the value that is shown. -/
theorem log_serveAllActing (hbuilt : chart.Built) (total : chart.NeverFails) (levels : Nat)
    {s : Session} (hrun : Interpreter.Reachable chart s.interpreter) (hlog : s.interpreter.log = [])
    (hclock : ∃ time, Record.stamp s.now = .ok time) {asked : List (Conduct × Request)}
    (hclocks : ∀ request ∈ asked, request.2.Readable)
    (hnested : .refused ∉ sendingsServeAll levels s asked) :
    ∃ records : List Record,
      List.Forall₂ Sending.Recorded (sendingsServeAll levels s asked) records ∧
      (s.serveAllActing levels asked).interpreter.log =
        records.drop (records.length - Settings.logLength) ∧
      (s.serveAllActing levels asked).interpreter.log.length =
        min (sendingsServeAll levels s asked).length Settings.logLength ∧
      (records.IsChain fun r r' => r.after = r'.before) ∧
      (s.serveAllActing levels asked).value? =
        (records.getLast?.map Record.after).or s.value? := by
  obtain ⟨-, records, hrecounted, hrecords⟩ :=
    records_serveAllActing hbuilt.arena total levels s hclocks hnested ⟨hrun, hclock⟩
  have hdrop : (s.serveAllActing levels asked).interpreter.log =
      records.drop (records.length - Settings.logLength) := by
    rw [hrecords, hlog, Record.foldl_append (Nat.zero_le _), List.nil_append, List.rtake]
  refine ⟨records, hrecounted.recorded, hdrop, ?_, hrecounted.isChain, hrecounted.last_eq⟩
  rw [hdrop, hrecounted.recorded.length_eq, List.length_drop]
  omega

/-- A run with an observer who sends each event again that it hears of. -/
def echoing : Session := { relaying ["relay"] with onUnhandled := some fun _ => none }

/-- The callback for ignored events sends another event when an unknown one comes. -/
def retry : Conduct := fun diagnostic => if diagnostic.event = "lost" then [.send "go"] else []

/-- Events of which some are sent again, some are ignored, and the last come after a stop. -/
def outing : List (Conduct × Request) :=
  [(retry, .send "go"), (retry, .send "lost"), (retry, .start), (retry, .stop)] ++
    List.replicate 29 (retry, .send "go")

set_option maxRecDepth 10000 in
/-- Three events are sent where one is asked for, and two where another is. The log forgets the
oldest four of them all. -/
theorem log_of_outing :
    passing.Built ∧ passing.NeverFails ∧
      Interpreter.Reachable passing echoing.interpreter ∧
      (sendingsServeAll nestingLimit echoing outing).length = 34 ∧
      ∃ records : List Record,
        records.length = 34 ∧
        (echoing.serveAllActing nestingLimit outing).interpreter.log = records.drop 4 ∧
        (records.IsChain fun r r' => r.after = r'.before) := by
  have hbuilt : passing.Built := Chart.built_ofDeclaration (by decide +kernel) (by decide +kernel)
  have htotal : passing.NeverFails := Chart.neverFails_of_isPlain (by decide +kernel)
  have hreachable : Interpreter.Reachable passing echoing.interpreter :=
    Interpreter.reachable_started (by decide +kernel)
  have hstamp : (Record.stamp echoing.now).toOption.isSome = true := by decide +kernel
  have hclocks : ∀ request ∈ outing, request.2.Readable := by
    simp [outing, Request.Readable, or_imp, forall_and]
  have hall : (sendingsServeAll nestingLimit echoing outing).all
      (fun sending => sending matches .meets ..) = true := by decide +kernel
  have hnested : .refused ∉ sendingsServeAll nestingLimit echoing outing :=
    fun hmem => Bool.false_ne_true (List.all_eq_true.mp hall _ hmem)
  have hlength : (sendingsServeAll nestingLimit echoing outing).length = 34 := by decide +kernel
  obtain ⟨records, hrecorded, hlog, -, hchain, -⟩ :=
    log_serveAllActing hbuilt htotal nestingLimit hreachable (by decide +kernel)
      (exists_ok_of_isSome hstamp) hclocks hnested
  have hrecords : records.length = 34 := hrecorded.length_eq.symm.trans hlength
  rw [hrecords] at hlog
  exact ⟨hbuilt, htotal, hreachable, hlength, records, hrecords, hlog, hchain⟩

end Session

end Lifecycle
