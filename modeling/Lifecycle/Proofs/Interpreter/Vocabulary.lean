import Lifecycle.Interpreter.Restore
import Lifecycle.Proofs.Chart.Vocabulary
import Lifecycle.Proofs.Interpreter.Requests

/-!
# Runs without a vocabulary

The vocabulary of a chart is looked at only when an event comes in, before its handler is looked
for, and no node handles an event outside. So a run goes on in the same way without it (`freed`):
its microsteps and its settling are the same (`settleFrom_freed`), each request leaves the two runs
alike but for the reasons in their records (`Mirrors.serve`), and so do all requests
(`Mirrors.serveAll`).
-/

namespace Lifecycle

/-- A record as another, or one of an ignored event outside a vocabulary for which it gives another
reason. -/
def Record.Mirrors (events : List String) (r r' : Record) : Prop :=
  r' = r ∨ r.event ∉ events ∧ r.handled = false ∧ r.reason = "unknown_event" ∧
    r' = { r with reason := "no_handler" }

theorem Record.forall₂_append {R : Record → Record → Prop} {log log' : List Record} {r r' : Record}
    (h : List.Forall₂ R log log') (hr : R r r') :
    List.Forall₂ R (append log r) (append log' r') := by
  have hall : List.Forall₂ R (log ++ [r]) (log' ++ [r']) := List.rel_append h (.cons hr .nil)
  unfold append
  dsimp only
  rw [hall.length_eq]
  exact List.forall₂_drop _ hall

namespace Interpreter

variable {chart : Chart} {events : List String} {m m' : Interpreter}

/-- The run without the vocabulary of its chart, with other records. -/
def freed (log : List Record) (m : Interpreter) : Interpreter :=
  { m with chart := m.chart.unrestricted, log := log }

/-! ## Microsteps and settling -/

@[simp] theorem chart_freed (log : List Record) (m : Interpreter) :
    (m.freed log).chart = m.chart.unrestricted := rfl

theorem leaf_freed (log : List Record) (m : Interpreter) : (m.freed log).leaf = m.leaf := rfl

theorem context_freed (log : List Record) (m : Interpreter) :
    (m.freed log).context = m.context := rfl

theorem observe_freed (log : List Record) (m : Interpreter) :
    (m.freed log).observe = m.observe := by
  have hpath : (m.freed log).path = m.path := by
    rw [path, chart_freed, Chart.pathTo_unrestricted]
    rfl
  rw [observe, hpath]
  rfl

theorem handler?_freed (log : List Record) (m : Interpreter) (event : String) :
    (m.freed log).handler? event = m.handler? event := by
  rw [handler?, handler?, chart_freed, Chart.findTransition?_unrestricted, leaf_freed]

theorem publish_freed (log : List Record) (m : Interpreter) :
    (m.freed log).publish = m.publish.freed log := by
  rw [publish, observe_freed]
  rfl

theorem adopt_freed (log : List Record) (m : Interpreter) (context : Context) :
    (m.freed log).adopt context = (m.adopt context).freed log := by
  unfold adopt
  rw [context_freed]
  split <;> rfl

theorem take_freed (log : List Record) (m : Interpreter) (step : Microstep) :
    (m.freed log).take step = ((m.take step).1.freed log, (m.take step).2) := by
  have hactions : (m.freed log).chart.stepActions step = m.chart.stepActions step := by
    rw [chart_freed, Chart.stepActions_unrestricted]
  rcases hrun : Action.runAll (m.chart.stepActions step) m.context with fault | context
  · rw [take_error hrun, take_error (m := m.freed log) (hactions ▸ hrun)]
    rfl
  · let recorded := { m with history := Entries.overlay m.history step.history }
    have hadopt : (recorded.freed log).adopt context = (recorded.adopt context).freed log :=
      recorded.adopt_freed log context
    rw [take, take, hactions, context_freed, hrun]
    exact congrArg (fun next => ({ next with leaf := some step.leaf }, none)) hadopt

theorem follow_freed (log : List Record) (m : Interpreter) (leaf : Nat) (t : Transition) :
    (m.freed log).follow leaf t = ((m.follow leaf t).1.freed log, (m.follow leaf t).2) := by
  have hresolve : (m.freed log).chart.resolve leaf t (m.freed log).history =
      m.chart.resolve leaf t m.history := by
    rw [chart_freed, Chart.resolve_unrestricted]
    rfl
  rw [follow, follow, hresolve]
  rcases m.chart.resolve leaf t m.history with fault | step
  · rfl
  · exact m.take_freed log step

/-- A run settles in the same way without the vocabulary. -/
theorem settleFrom_freed (log : List Record) (unseen : List Nat) (m : Interpreter) :
    (m.freed log).settleFrom unseen = ⟨(m.settleFrom unseen).state.freed log,
      (m.settleFrom unseen).signals, (m.settleFrom unseen).result⟩ := by
  fun_induction settleFrom unseen m with
  | case1 unseen m hleaf =>
    rw [settleFrom, leaf_freed, hleaf]
  | case2 unseen m leaf hleaf hfinal ht =>
    rw [settleFrom, leaf_freed, hleaf]
    simp [hfinal, ht, freed, hleaf]
  | case3 unseen m leaf hleaf hfinal t ht hmem next hfollow ih =>
    rw [settleFrom, leaf_freed, hleaf]
    simp [hfinal, ht, hmem, hfollow, follow_freed, ih]
  | case4 unseen m leaf hleaf hfinal t ht hmem next fault hfollow =>
    rw [settleFrom, leaf_freed, hleaf]
    simp [hfinal, ht, hmem, hfollow, follow_freed]
  | case5 unseen m leaf hleaf hfinal t ht hmem =>
    rw [settleFrom, leaf_freed, hleaf]
    simp [hfinal, ht, hmem, freed, hleaf]
  | case6 unseen m leaf hleaf hfinal =>
    rw [settleFrom, leaf_freed, hleaf]
    simp [hfinal]

theorem settle_freed (log : List Record) (m : Interpreter) :
    (m.freed log).settle =
      ⟨m.settle.state.freed log, m.settle.signals, m.settle.result⟩ :=
  m.settleFrom_freed log (List.range m.chart.nodes.size)

theorem begun_freed (log : List Record) (context : Context) (m : Interpreter) :
    (m.freed log).begun context = (m.begun context).freed log := by
  simp only [begun, adopt_freed, chart_freed, Chart.initialPath_unrestricted]
  rfl

theorem start_freed (log : List Record) (m : Interpreter) :
    (m.freed log).start = ⟨m.start.state.freed log, m.start.signals, m.start.result⟩ := by
  have hactions : initialActions m.chart.unrestricted = initialActions m.chart := by
    rw [initialActions, Chart.initialPath_unrestricted]
    rfl
  by_cases hfresh : m.status = .notStarted
  · rcases hrun : Action.runAll (initialActions m.chart) m.context with fault | context
    · rw [start_of_error hfresh hrun, start_of_error (m := m.freed log) hfresh (hactions ▸ hrun)]
    · rw [start_of_ok hfresh hrun, start_of_ok (m := m.freed log) hfresh (hactions ▸ hrun),
        begun_freed, settle_freed]
      dsimp only
      rcases (m.begun context).settle.result with fault | _
      · rfl
      · simp only [publish_freed, observe_freed]
        rfl
  · rw [start, start, if_pos hfresh, if_pos (show (m.freed log).status ≠ .notStarted from hfresh)]
    rfl

/-! ## Requests -/

/-- A run of a chart, and the run without the vocabulary of the chart: everything is the same but
for the reasons in records of events outside. -/
inductive Mirrors (chart : Chart) (events : List String) : Interpreter → Interpreter → Prop
  | freed {m : Interpreter} {log : List Record} : m.chart = chart →
    List.Forall₂ (Record.Mirrors events) m.log log → Mirrors chart events m (m.freed log)

/-- Two answers to an event are the same, or it is outside a vocabulary, and ignored as unknown in
the one and for want of a handler in the other. -/
inductive Echoes (events : List String) (m : Interpreter) (now : Json) (event : String)
    (r r' : Response Interpreter Verdict) : Prop
  | same : r'.signals = r.signals → r'.result = r.result → Echoes events m now event r r'
  | ignored (snapshot : Snapshot) : event ∉ events →
    r.signals = [.log (.unknownEvent m.name event)] →
    r.result = ((Record.stamp now).map fun _ =>
      .ignored snapshot ⟨event, snapshot.path, "unknown_event"⟩) →
    r'.signals = [.log (.noHandler m.name event snapshot.value),
      .count "transition.unhandled" m.labels] →
    r'.result = ((Record.stamp now).map fun _ =>
      .ignored snapshot ⟨event, snapshot.path, "no_handler"⟩) →
    Echoes events m now event r r'

/-- A run and the one without the vocabulary are in the same state, do the same from there on, and
both ignore every event outside the vocabulary. -/
structure Parallel (chart : Chart) (events : List String) (m m' : Interpreter) : Prop where
  mirrors : Mirrors chart events m m'
  observe_eq : m'.observe = m.observe
  start_eq : m'.start.signals = m.start.signals ∧ m'.start.result = m.start.result
  stop_eq : m'.stop.signals = m.stop.signals
  send (now : Json) (event : String) :
    Echoes events m now event (m.dispatch now event) (m'.dispatch now event)
  ignores (now : Json) {event : String} : event ∉ events →
    m.Ignores now event ∧ m'.Ignores now event

/-! What neither a microstep nor settling nor the start changes. -/

theorem follow_fixed (m : Interpreter) (leaf : Nat) (t : Transition) :
    (m.follow leaf t).1.chart = m.chart ∧ (m.follow leaf t).1.log = m.log := by
  obtain ⟨_, _, _, _, hframe⟩ := m.follow_frame leaf t
  rw [hframe]
  exact ⟨rfl, rfl⟩

theorem settle_fixed (m : Interpreter) :
    m.settle.state.chart = m.chart ∧ m.settle.state.log = m.log := by
  obtain ⟨_, _, _, _, _, -, hframe⟩ := m.settleFrom_frame (List.range m.chart.nodes.size)
  rw [settle, hframe]
  exact ⟨rfl, rfl⟩

theorem start_fixed (m : Interpreter) :
    m.start.state.chart = m.chart ∧ m.start.state.log = m.log := by
  by_cases hfresh : m.status = .notStarted
  · rcases hrun : Action.runAll (initialActions m.chart) m.context with fault | context
    · rw [start_of_error hfresh hrun]
      exact ⟨rfl, rfl⟩
    · have hbegun : (m.begun context).chart = m.chart ∧ (m.begun context).log = m.log := by
        obtain ⟨version, hadopt⟩ := m.adopt_eq context
        rw [begun, hadopt]
        exact ⟨rfl, rfl⟩
      have hsettled := settle_fixed (m.begun context)
      rw [hbegun.1, hbegun.2] at hsettled
      rw [start_of_ok hfresh hrun]
      split <;> exact hsettled
  · rw [start, if_pos hfresh]
    exact ⟨rfl, rfl⟩

namespace Mirrors

theorem of_fixed {next : Interpreter} {log : List Record}
    (hchart : m.chart = chart) (hlog : List.Forall₂ (Record.Mirrors events) m.log log)
    (hfixed : next.chart = m.chart ∧ next.log = m.log) :
    Mirrors chart events next (next.freed log) :=
  .freed (hfixed.1.trans hchart) (hfixed.2 ▸ hlog)

theorem leaf_eq (h : Mirrors chart events m m') : m'.leaf = m.leaf := by
  obtain ⟨-, -⟩ := h
  rfl

theorem start (h : Mirrors chart events m m') :
    m'.start.signals = m.start.signals ∧ m'.start.result = m.start.result ∧
      Mirrors chart events m.start.state m'.start.state := by
  obtain ⟨hchart, hlog⟩ := h
  rw [start_freed]
  exact ⟨rfl, rfl, of_fixed hchart hlog m.start_fixed⟩

theorem publish (h : Mirrors chart events m m') :
    Mirrors chart events m.publish m'.publish := by
  obtain ⟨hchart, hlog⟩ := h
  rw [publish_freed]
  exact .freed hchart hlog

theorem withStatus (h : Mirrors chart events m m') (status : Status) :
    Mirrors chart events { m with status := status } { m' with status := status } := by
  obtain ⟨hchart, hlog⟩ := h
  exact .freed hchart hlog

theorem withRecord (h : Mirrors chart events m m') {r r' : Record}
    (hr : Record.Mirrors events r r') : Mirrors chart events
      { m with log := Record.append m.log r } { m' with log := Record.append m'.log r' } := by
  obtain ⟨hchart, hlog⟩ := h
  exact .freed hchart (Record.forall₂_append hlog hr)

theorem stop (h : Mirrors chart events m m') :
    m'.stop.signals = m.stop.signals ∧ Mirrors chart events m.stop.state m'.stop.state := by
  have hstopped := h.withStatus .stopped
  obtain @⟨log, -, -⟩ := h
  have hstatus : (m.freed log).status = m.status := rfl
  unfold Interpreter.stop
  rw [hstatus]
  split
  · exact ⟨rfl, hstopped⟩
  · exact ⟨rfl, hstopped.publish⟩

theorem ignore (h : Mirrors chart events m m') (now : Json) (snapshot : Snapshot)
    {event reason reason' : String} (signals signals' : List Signal)
    (hreason : reason' = reason ∨ event ∉ events ∧ reason = "unknown_event" ∧
      reason' = "no_handler") :
    Mirrors chart events (m.ignore now snapshot event reason signals).state
      (m'.ignore now snapshot event reason' signals').state := by
  unfold Interpreter.ignore
  rcases Record.stamp now with fault | time
  · exact h
  · refine h.withRecord ?_
    rcases hreason with rfl | ⟨hevent, rfl, rfl⟩
    · exact .inl rfl
    · exact .inr ⟨hevent, rfl, rfl, rfl⟩

theorem react (h : Mirrors chart events m m') (now : Json) (snapshot : Snapshot) (event : String)
    (leaf : Nat) (t : Transition) :
    (m'.react now snapshot event leaf t).signals = (m.react now snapshot event leaf t).signals ∧
      (m'.react now snapshot event leaf t).result = (m.react now snapshot event leaf t).result ∧
      Mirrors chart events (m.react now snapshot event leaf t).state
        (m'.react now snapshot event leaf t).state := by
  obtain @⟨log, hchart, hlog⟩ := h
  have hfollowed := m.follow_fixed leaf t
  unfold Interpreter.react
  rw [follow_freed]
  rcases hfollow : m.follow leaf t with ⟨taken, _ | fault⟩ <;> rw [hfollow] at hfollowed
  · have hsettled := taken.settle_fixed
    rw [hfollowed.1, hfollowed.2] at hsettled
    have hmirrors := of_fixed hchart hlog hsettled
    dsimp only
    rw [settle_freed]
    dsimp only
    rcases taken.settle.result with fault | _
    · exact ⟨rfl, rfl, hmirrors⟩
    · have hpublished := hmirrors.publish
      rcases Record.stamp now with fault | time
      · exact ⟨rfl, rfl, hpublished⟩
      · dsimp only
        simp only [publish_freed, observe_freed] at hpublished ⊢
        exact ⟨rfl, rfl, hpublished.withRecord (.inl rfl)⟩
  · exact ⟨rfl, rfl, of_fixed hchart hlog hfollowed⟩

section Speaks

variable (hevents : chart.events = some events) (hspeaks : chart.Speaks events)

include hevents in
theorem isUnknown_iff (h : Mirrors chart events m m') (event : String) :
    m.isUnknown event = true ↔ event ∉ events := by
  obtain ⟨rfl, -⟩ := h
  simp [isUnknown, hevents]

include hspeaks in
theorem handler?_eq_none (h : Mirrors chart events m m') {event : String}
    (hevent : event ∉ events) : m.handler? event = none := by
  obtain ⟨rfl, -⟩ := h
  rcases hleaf : m.leaf with _ | leaf
  · rw [handler?, hleaf]; rfl
  · rw [handler?, hleaf, Option.bind_some, hspeaks.findTransition?_eq_none hevent]; rfl

include hevents hspeaks

/-- A run and the one without the vocabulary do the same on every event, but for the reason for
which an event outside is ignored. -/
theorem dispatch (h : Mirrors chart events m m') (now : Json) (event : String) :
    Echoes events m now event (m.dispatch now event) (m'.dispatch now event) ∧
      Mirrors chart events (m.dispatch now event).state (m'.dispatch now event).state := by
  have hignore (snapshot : Snapshot) (reason : String) (signals : List Signal) :
      Echoes events m now event (m.ignore now snapshot event reason signals)
          (m'.ignore now snapshot event reason signals) ∧
        Mirrors chart events (m.ignore now snapshot event reason signals).state
          (m'.ignore now snapshot event reason signals).state := by
    refine ⟨.same ?_ ?_, h.ignore now snapshot signals signals (.inl rfl)⟩
    · rw [ignore_signals, ignore_signals]
    · rw [ignore_result, ignore_result]
  have hunknown := h.isUnknown_iff hevents event
  have hunheard : event ∉ events → m.handler? event = none := h.handler?_eq_none hspeaks
  have hsame := h
  obtain @⟨log, -, -⟩ := h
  have hstatus : (m.freed log).status = m.status := rfl
  have hshown : (m.freed log).snapshot = m.snapshot := rfl
  have hknown : ¬ (m.freed log).isUnknown event = true := Bool.false_ne_true
  unfold Interpreter.dispatch
  rw [hshown, hstatus, handler?_freed]
  rcases m.snapshot with _ | snapshot
  · exact ⟨.same rfl rfl, hsame⟩
  · dsimp only
    by_cases hrunning : m.status = .running
    · rw [if_neg (not_not_intro hrunning), if_neg (not_not_intro hrunning), if_neg hknown]
      by_cases hevent : event ∈ events
      · rw [if_neg (hunknown.not.mpr (not_not_intro hevent))]
        rcases m.handler? event with _ | ⟨leaf, t⟩
        · exact hignore ..
        · obtain ⟨hsignals, hresult, hstate⟩ := hsame.react now snapshot event leaf t
          exact ⟨.same hsignals hresult, hstate⟩
      · rw [if_pos (hunknown.mpr hevent), hunheard hevent]
        refine ⟨.ignored snapshot hevent ?_ ?_ ?_ ?_,
          hsame.ignore now snapshot _ _ (.inr ⟨hevent, rfl, rfl⟩)⟩
        · rw [ignore_signals]
        · rw [ignore_result]
        · rw [ignore_signals]; rfl
        · rw [ignore_result]
    · rw [if_pos hrunning, if_pos hrunning]
      exact hignore ..

theorem serve (h : Mirrors chart events m m') (request : Request) :
    Mirrors chart events (m.serve request) (m'.serve request) := by
  cases request with
  | start => exact h.start.2.2
  | send call => exact (h.dispatch hevents hspeaks call.now call.event).2
  | stop => exact h.stop.2

theorem serveAll (h : Mirrors chart events m m') (requests : List Request) :
    Mirrors chart events (m.serveAll requests) (m'.serveAll requests) := by
  induction requests generalizing m m' with
  | nil => exact h
  | cons request rest ih => exact ih (h.serve hevents hspeaks request)

theorem parallel (h : Mirrors chart events m m') : Parallel chart events m m' where
  mirrors := h
  observe_eq := by
    obtain ⟨-, -⟩ := h
    exact observe_freed _ m
  start_eq := ⟨h.start.1, h.start.2.1⟩
  stop_eq := h.stop.1
  send now event := (h.dispatch hevents hspeaks now event).1
  ignores now event hevent := by
    have hunknown := (h.isUnknown_iff hevents event).mpr hevent
    have hnone := h.handler?_eq_none hspeaks hevent
    obtain @⟨log, -, -⟩ := h
    rw [← handler?_freed log] at hnone
    exact ⟨ignores_of_idle (.inr (.inl hunknown)) now,
      ignores_of_idle (.inr (.inr (handler?_eq_none_iff.mp hnone))) now⟩

end Speaks

end Mirrors

/-! ## Beginnings -/

theorem create_unrestricted (chart : Chart) (given : Json) (name : Option String) :
    create chart.unrestricted given name =
      (create chart given name).map fun m => m.freed m.log := by
  rw [create, create, Chart.fitGiven_unrestricted]
  rcases chart.fitGiven given with corruption | context <;> rfl

theorem resume_unrestricted (chart : Chart) (path : Json) (history : Entries Json)
    (context : Context) (name : Option String) :
    resume chart.unrestricted path history context name =
      (resume chart path history context name).map fun m => m.freed m.log := by
  unfold resume
  rw [Chart.leafOf_unrestricted, Chart.fitHistory_unrestricted, Chart.fitContext_unrestricted]
  rcases chart.leafOf path with corruption | leaf
  · rfl
  · rcases chart.fitHistory history with corruption | records
    · rfl
    · rcases chart.fitContext context with corruption | fitted
      · rfl
      · exact congrArg Except.ok (publish_freed [] { fresh chart fitted name with
          leaf := some leaf
          history := records
          status := if chart.kindAt? leaf = some .final ∧ (chart.doneTransition? leaf).isNone
            then Status.done else Status.running })

theorem restore_unrestricted (chart : Chart) (value : Json) (name : Option String) :
    restore chart.unrestricted value name =
      (restore chart value name).map fun m => m.freed m.log := by
  unfold restore
  split
  · rename_i fields
    rcases objectField fields "history" with corruption | history
    · rfl
    · rcases objectField fields "context" with corruption | context
      · rfl
      · exact resume_unrestricted chart _ history _ name
  · rfl

/-- **The vocabulary does not show in what runs do.** A declaration that is accepted with a
vocabulary is accepted without it. Runs of the two charts begin alike, and whatever they are asked
for, they go through the same states and answer alike; every event outside the vocabulary is ignored
by both, and only there they differ, in the reason that is reported. -/
theorem parallel_of_define {registry : Registry} {events : List String} {declaration : Json}
    {chart : Chart} (h : Chart.define registry (some events) declaration = .ok chart) :
    Chart.define registry none declaration = .ok chart.unrestricted ∧
      (∀ given name, create chart.unrestricted given name =
        (create chart given name).map fun m => m.freed m.log) ∧
      (∀ value name, restore chart.unrestricted value name =
        (restore chart value name).map fun m => m.freed m.log) ∧
      ∀ (m : Interpreter) (requests : List Request), m.chart = chart →
        Parallel chart events (m.serveAll requests) ((m.freed m.log).serveAll requests) := by
  have hevents : chart.events = some events := Chart.events_of_define h
  have hspeaks := Chart.speaks_of_define h
  refine ⟨Chart.define_none_of_define h, create_unrestricted chart, restore_unrestricted chart,
    fun m requests hchart => ?_⟩
  have hsame : List.Forall₂ (Record.Mirrors events) m.log m.log :=
    List.forall₂_same.mpr fun _ _ => .inl rfl
  have hmirrors := (Mirrors.freed hchart hsame).serveAll hevents hspeaks requests
  exact hmirrors.parallel hevents hspeaks

/-- Two states, and an event that leads from the one to the other. -/
def gate : Json :=
  .obj [("id", .str "m"), ("initial", .str "a"),
    ("states", .obj [("a", .obj [("on", .obj [("go", .str "b")])]), ("b", .obj [])])]

/-- The chart that knows this event only. -/
def gated : Chart :=
  match Chart.define [] (some ["go"]) gate with
  | .ok chart => chart
  | .error _ => ⟨"", #[], [], none⟩

/-- The start, an event that nobody knows, and the event that leads on. -/
def knocking : List Request := [.start, .send ⟨.int 0, "knock"⟩, .send ⟨.int 0, "go"⟩]

set_option maxRecDepth 10000 in
/-- With the vocabulary and without it a run is led on, and has ignored what nobody knows, each for
its own reason. -/
theorem parallel_of_define_gate :
    Chart.define [] (some ["go"]) gate = .ok gated ∧
      Chart.define [] none gate = .ok gated.unrestricted ∧
      ((fresh gated [] none).serveAll knocking).leaf = some 2 ∧
      ((fresh gated.unrestricted [] none).serveAll knocking).leaf = some 2 ∧
      ((fresh gated [] none).serveAll knocking).log.map Record.reason = ["unknown_event", ""] ∧
      ((fresh gated.unrestricted [] none).serveAll knocking).log.map Record.reason =
        ["no_handler", ""] := by
  have hok : (Chart.define [] (some ["go"]) gate).toOption.isSome = true := by decide +kernel
  have hdefine : Chart.define [] (some ["go"]) gate = .ok gated := by
    obtain ⟨chart, hchart⟩ := exists_ok_of_isSome hok
    rw [gated, hchart]
  have hleaf : ((fresh gated [] none).serveAll knocking).leaf = some 2 := by decide +kernel
  obtain ⟨hnone, -, -, hparallel⟩ := parallel_of_define hdefine
  have hmirrors := (hparallel (fresh gated [] none) knocking rfl).mirrors
  refine ⟨hdefine, hnone, hleaf, ?_, by decide +kernel, by decide +kernel⟩
  exact hmirrors.leaf_eq.trans hleaf

end Interpreter

end Lifecycle
