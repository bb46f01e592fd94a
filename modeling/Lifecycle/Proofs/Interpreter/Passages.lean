import Lifecycle.Proofs.Interpreter.Situation

/-!
# The passages of a run

A run is started and then handed one event after the other (`Interpreter.run`). Beside it stands the
list of its passages, which follows the same course: those of settling (`settlePassages`), of an
event (`sendPassages`) and of all calls (`passages`). A run stands in a situation (`Stands`), and
between two calls it is at rest there (`Rests`). A microstep that succeeds leads it on (`take_ok`),
one that fails writes its records alone (`take_error`), and settling takes one microstep at a time
(`settle_of_ok`).
-/

namespace Lifecycle

/-- An event that is sent, and the time that the clock shows. -/
structure Call where
  now : Json
  event : String

namespace Chart

/-- The status of a run that has settled at a leaf. -/
def statusAt (chart : Chart) (leaf : Nat) : Status :=
  if chart.kindAt? leaf = some .final then .done else .running

theorem statusAt_eq_done {chart : Chart} {leaf : Nat} :
    chart.statusAt leaf = .done ↔ chart.kindAt? leaf = some .final := by
  unfold statusAt
  split <;> simp_all

theorem statusAt_eq_running {chart : Chart} {leaf : Nat} :
    chart.statusAt leaf = .running ↔ chart.kindAt? leaf ≠ some .final := by
  unfold statusAt
  split <;> simp_all

/-- A run begins with a context in a situation: the initial path is entered, and nothing is on
record. -/
structure Begins (chart : Chart) (context : Context) (s : Situation) : Prop where
  path_eq : chart.initialPath = chart.pathTo s.leaf
  performed : ∃ next, Action.runAll (chart.initialPath.flatMap chart.entryOf) context = .ok next ∧
    s.context = context.adopted next
  history_eq : s.history = []

/-- The initial path runs from the root to a leaf. -/
theorem Arena.initialPath_spec {chart : Chart} (tree : chart.Arena) :
    chart.initialPath = chart.pathTo (chart.leafBelow 0) ∧ chart.IsLeaf (chart.leafBelow 0) := by
  obtain ⟨n, hn, hkind, -⟩ := tree.root
  have hstate : chart.isHistory 0 = false :=
    isHistory_of_kindAt? ((kindAt?_eq hn).trans (congrArg some hkind)) (by decide)
  obtain ⟨hpath, hleaf, -⟩ := tree.pathTo_leafBelow hn hstate
  refine ⟨?_, hleaf⟩
  rw [hpath, initialPath, enterAlong, tree.pathTo_zero]
  simp [hstate]

theorem Begins.situated {chart : Chart} {context : Context} {s : Situation} (tree : chart.Arena)
    (h : chart.Begins context s) : chart.Situated s := by
  obtain ⟨hpath, hleaf⟩ := tree.initialPath_spec
  have hlast : s.leaf = chart.leafBelow 0 := by
    have := congrArg List.getLast? (h.path_eq.symm.trans hpath)
    rw [getLast?_pathTo, getLast?_pathTo] at this
    exact Option.some.inj this
  refine ⟨?_, ?_⟩
  · rw [hlast]; exact hleaf
  · rw [h.history_eq]; exact fits_nil chart

/-- Passages that complete the parents of final leaves lead from one situation to another. -/
structure Completes (chart : Chart) (s : Situation) (passages : List Passage) (s' : Situation) :
    Prop where
  leadsTo : chart.LeadsTo s passages s'
  done {p : Passage} : p ∈ passages → chart.doneTransition? p.leaf = some p.step.transition

/-- Completions at different leaves lead from one situation to another, where nothing is pending or
the leaf has come up. -/
structure Settles (chart : Chart) (s : Situation) (passages : List Passage) (s' : Situation) :
    Prop extends chart.Completes s passages s' where
  distinct : (passages.map Passage.leaf).Nodup
  rested : chart.doneTransition? s'.leaf = none ∨ s'.leaf ∈ passages.map Passage.leaf

/-- A passage that an event triggers leads from a situation, and completions on to another. -/
def Reacts (chart : Chart) (event : String) (s : Situation) (passages : List Passage)
    (s' : Situation) : Prop :=
  ∃ passage rest middle, passages = passage :: rest ∧
    chart.findTransition? s.leaf event = some passage.step.transition ∧
    chart.Leads s passage middle ∧ chart.Settles middle rest s'

theorem Completes.refl (chart : Chart) (s : Situation) : chart.Completes s [] s :=
  ⟨.refl s, nofun⟩

theorem Completes.cons {chart : Chart} {s middle s' : Situation} {passage : Passage}
    {rest : List Passage} (h : chart.Completes middle rest s')
    (hleads : chart.Leads s passage middle)
    (hdone : chart.doneTransition? passage.leaf = some passage.step.transition) :
    chart.Completes s (passage :: rest) s' := by
  refine ⟨.cons hleads h.leadsTo, fun hp => ?_⟩
  rcases List.mem_cons.mp hp with rfl | hp
  · exact hdone
  · exact h.done hp

end Chart

namespace Interpreter

/-! ## Runs -/

/-- The passages of settling. -/
def settlePassages (unseen : List Nat) (m : Interpreter) : List Passage :=
  match m.leaf with
  | none => []
  | some leaf =>
    match m.chart.doneTransition? leaf with
    | none => []
    | some transition =>
      if _h : leaf ∈ unseen then
        match m.chart.resolve leaf transition m.history, m.follow leaf transition with
        | .ok step, (next, none) => ⟨leaf, step⟩ :: settlePassages (unseen.erase leaf) next
        | _, _ => []
      else []
termination_by unseen.length
decreasing_by exact (List.length_erase_add_one _h).le

/-- The passages of a transition that is taken at a leaf, and of settling after it. -/
def followPassages (m : Interpreter) (leaf : Nat) (transition : Transition) : List Passage :=
  match m.chart.resolve leaf transition m.history, m.follow leaf transition with
  | .ok step, (next, none) =>
    ⟨leaf, step⟩ :: next.settlePassages (List.range next.chart.nodes.size)
  | _, _ => []

/-- The passages of an event. -/
def sendPassages (m : Interpreter) (event : String) : List Passage :=
  if m.snapshot.isNone ∨ m.status ≠ .running ∨ m.isUnknown event = true then []
  else match m.handler? event with
    | none => []
    | some (leaf, transition) => m.followPassages leaf transition

/-- A run at its first leaf, before it settles. -/
def entered (chart : Chart) (name : Option String) (context next : Context) : Interpreter :=
  { (fresh chart context name).adopt next with
    leaf := chart.initialPath.getLast?
    status := .running }

/-- The passages of the start. -/
def startPassages (chart : Chart) (context : Context) (name : Option String) : List Passage :=
  match Action.runAll (initialActions chart) context with
  | .error _ => []
  | .ok next =>
    (entered chart name context next).settlePassages (List.range chart.nodes.size)

/-- A run that is started. -/
def started (chart : Chart) (context : Context) (name : Option String) : Interpreter :=
  (fresh chart context name).start.state

/-- The run after some calls. -/
def run (m : Interpreter) : List Call → Interpreter
  | [] => m
  | call :: rest => run (m.dispatch call.now call.event).state rest

/-- The passages of some calls. -/
def passages (m : Interpreter) : List Call → List Passage
  | [] => []
  | call :: rest =>
    m.sendPassages call.event ++ passages (m.dispatch call.now call.event).state rest

/-- The passages of a run, from its start on. -/
def course (chart : Chart) (context : Context) (name : Option String) (calls : List Call) :
    List Passage :=
  startPassages chart context name ++ (started chart context name).passages calls

/-- The status of a run that settles at a leaf: it is done where the leaf is final. -/
def settledStatus (m : Interpreter) (leaf : Nat) : Status :=
  if m.chart.kindAt? leaf = some .final then .done else m.status

/-- The run after the microsteps of some passages. -/
def taken (m : Interpreter) (passages : List Passage) : Interpreter :=
  passages.foldl (fun m passage => (m.take passage.step).1) m

/-! ## Where a run is -/

/-- A run of a chart is in a situation. -/
structure Stands (m : Interpreter) (chart : Chart) (s : Situation) : Prop where
  chart_eq : m.chart = chart
  leaf_eq : m.leaf = some s.leaf
  context_eq : m.context = s.context
  history_eq : m.history = s.history

/-- A run between two calls: it has settled, and it shows the state that it is in. -/
structure Rests (m : Interpreter) (chart : Chart) (s : Situation) : Prop extends
    m.Stands chart s where
  situated : chart.Situated s
  status_eq : m.status = chart.statusAt s.leaf
  snapshot_eq : m.snapshot = some m.observe

/-- Passages tell the course of a run: they lead from the situation in which it began to the one
that it rests in. -/
def IsCourse (m : Interpreter) (chart : Chart) (context : Context) (passages : List Passage) :
    Prop :=
  ∃ s₀ s, chart.Begins context s₀ ∧ chart.LeadsTo s₀ passages s ∧ m.Rests chart s

/-- An operation succeeds, and its result is what the run shows after it. -/
def Shows {α : Type} (response : Response Interpreter α) (result : α → Snapshot) : Prop :=
  ∃ value, response.result = .ok value ∧ response.state.snapshot = some (result value)

variable {m : Interpreter} {chart : Chart} {s s' : Situation} {t : Transition}

theorem Stands.path_eq (h : m.Stands chart s) : m.path = chart.pathTo s.leaf := by
  rw [path, h.leaf_eq, h.chart_eq]; rfl

theorem adopt_eq (m : Interpreter) (context : Context) :
    ∃ version, m.adopt context =
      { m with context := m.context.adopted context, version := version } := by
  unfold adopt Context.adopted
  split
  · exact ⟨m.version, rfl⟩
  · exact ⟨m.version + 1, rfl⟩

theorem take_ok {step : Microstep} {context : Context}
    (h : Action.runAll (m.chart.stepActions step) m.context = .ok context) :
    ∃ version, m.take step = ({ m with
      leaf := some step.leaf
      context := m.context.adopted context
      version := version
      history := Entries.overlay m.history step.history }, none) := by
  obtain ⟨version, hadopt⟩ :=
    adopt_eq { m with history := Entries.overlay m.history step.history } context
  exact ⟨version, by simp only [take, h, hadopt]⟩

theorem take_error {step : Microstep} {fault : Fault}
    (h : Action.runAll (m.chart.stepActions step) m.context = .error fault) :
    m.take step =
      ({ m with history := Entries.overlay m.history step.history }, some fault) := by
  simp only [take, h]

/-- A microstep changes the situation and the version of the context, and nothing else. -/
theorem take_frame (m : Interpreter) (step : Microstep) :
    ∃ leaf context version history, (m.take step).1 =
      { m with leaf := leaf, context := context, version := version, history := history } := by
  rcases h : Action.runAll (m.chart.stepActions step) m.context with fault | context
  · exact ⟨_, _, _, _, by rw [take_error h]⟩
  · obtain ⟨version, htake⟩ := take_ok h
    exact ⟨_, _, _, _, by rw [htake]⟩

theorem take_status (m : Interpreter) (step : Microstep) : (m.take step).1.status = m.status := by
  obtain ⟨_, _, _, _, hframe⟩ := m.take_frame step
  rw [hframe]

theorem follow_frame (m : Interpreter) (leaf : Nat) (t : Transition) :
    ∃ leaf' context version history, (m.follow leaf t).1 =
      { m with leaf := leaf', context := context, version := version, history := history } := by
  unfold follow
  rcases m.chart.resolve leaf t m.history with fault | step
  · exact ⟨_, _, _, _, rfl⟩
  · exact m.take_frame step

/-- Settling changes the situation and the version of the context, and may end the run. -/
theorem settleFrom_frame (unseen : List Nat) (m : Interpreter) :
    ∃ status leaf context version history, (status = m.status ∨ status = .done) ∧
      (m.settleFrom unseen).state = { m with
        status := status, leaf := leaf, context := context, version := version
        history := history } := by
  fun_induction settleFrom unseen m with
  | case3 unseen m leaf _ _ t _ _ next hfollow ih =>
    obtain ⟨_, _, _, _, hframe⟩ := m.follow_frame leaf t
    rw [hfollow] at hframe
    obtain rfl := hframe
    exact ih
  | case4 unseen m leaf _ _ t _ _ next fault hfollow =>
    obtain ⟨_, _, _, _, hframe⟩ := m.follow_frame leaf t
    rw [hfollow] at hframe
    exact ⟨_, _, _, _, _, .inl rfl, hframe⟩
  | case1 => exact ⟨_, _, _, _, _, .inl rfl, rfl⟩
  | case6 => exact ⟨_, _, _, _, _, .inl rfl, rfl⟩
  | _ => exact ⟨_, _, _, _, _, .inr rfl, rfl⟩

theorem taken_frame (m : Interpreter) (passages : List Passage) :
    ∃ leaf context version history, m.taken passages =
      { m with leaf := leaf, context := context, version := version, history := history } := by
  induction passages generalizing m with
  | nil => exact ⟨_, _, _, _, rfl⟩
  | cons passage rest ih =>
    obtain ⟨leaf, context, version, history, hrest⟩ := ih (m.take passage.step).1
    obtain ⟨_, _, _, _, hfirst⟩ := m.take_frame passage.step
    exact ⟨leaf, context, version, history, by rw [taken, List.foldl_cons, ← taken, hrest, hfirst]⟩

/-- A record of an event leaves a run at rest. -/
theorem Rests.withLog (h : m.Rests chart s) (log : List Record) :
    ({ m with log := log } : Interpreter).Rests chart s :=
  ⟨⟨h.chart_eq, h.leaf_eq, h.context_eq, h.history_eq⟩, h.situated, h.status_eq, h.snapshot_eq⟩

theorem shows_ignore {snapshot : Snapshot} (h : m.snapshot = some snapshot)
    (event reason : String) (signals : List Signal) {now : Json} {time : Number}
    (htime : Record.stamp now = .ok time) :
    Shows (m.ignore now snapshot event reason signals) Verdict.snapshot := by
  unfold Interpreter.ignore
  rw [htime]
  exact ⟨_, rfl, h⟩

/-- What is shown after settling is the state at rest. -/
theorem rests_publish {s' : Situation} (h : m.Stands chart s') (hs : chart.Situated s') :
    ({ m with status := chart.statusAt s'.leaf } : Interpreter).publish.Rests chart s' :=
  ⟨⟨h.chart_eq, h.leaf_eq, h.context_eq, h.history_eq⟩, hs, rfl, rfl⟩

/-- A run that begins with a context, before it settles. -/
def begun (context : Context) (m : Interpreter) : Interpreter :=
  { m.adopt context with leaf := m.chart.initialPath.getLast?, status := .running }

theorem start_of_error {fault : Fault} (hfresh : m.status = .notStarted)
    (hrun : Action.runAll (initialActions m.chart) m.context = .error fault) :
    m.start = ⟨m, [], .error fault⟩ := by
  rw [start, if_neg (not_not_intro hfresh), hrun]

/-- A start settles once the first context is made. -/
theorem start_of_ok {context : Context} (hfresh : m.status = .notStarted)
    (hrun : Action.runAll (initialActions m.chart) m.context = .ok context) :
    m.start =
      match (m.begun context).settle.result with
      | .error fault =>
        ⟨(m.begun context).settle.state, (m.begun context).settle.signals, .error fault⟩
      | .ok () => ⟨(m.begun context).settle.state.publish, (m.begun context).settle.signals ++
          [.log (.started m.name (m.begun context).settle.state.publish.observe.value)],
          .ok (m.begun context).settle.state.publish.observe⟩ := by
  rw [start, if_neg (not_not_intro hfresh), hrun]
  rfl

/-- The start of a fresh run. -/
theorem start_fresh (name : Option String) {context next : Context}
    (hrun : Action.runAll (initialActions chart) context = .ok next) :
    (fresh chart context name).start =
      let settled := (entered chart name context next).settle
      match settled.result with
      | .error fault => ⟨settled.state, settled.signals, .error fault⟩
      | .ok () => ⟨settled.state.publish, settled.signals ++ [.log (.started
          (fresh chart context name).name settled.state.publish.observe.value)],
          .ok settled.state.publish.observe⟩ :=
  start_of_ok rfl hrun

/-- An event is ignored, or it triggers a transition of a run that is going on. -/
theorem Stands.dispatch_cases (h : m.Stands chart s) {snapshot : Snapshot}
    (hshown : m.snapshot = some snapshot) (now : Json) (event : String) :
    (m.sendPassages event = [] ∧ ∃ reason signals,
        m.dispatch now event = m.ignore now snapshot event reason signals) ∨
      ∃ t, m.status = .running ∧ chart.findTransition? s.leaf event = some t ∧
        m.sendPassages event = m.followPassages s.leaf t ∧
        m.dispatch now event = m.react now snapshot event s.leaf t := by
  unfold Interpreter.dispatch sendPassages
  rw [hshown]
  dsimp only
  by_cases hrunning : m.status = .running
  · rw [if_neg (not_not_intro hrunning)]
    by_cases hunknown : m.isUnknown event = true
    · rw [if_pos hunknown, if_pos (.inr (.inr hunknown))]
      exact .inl ⟨rfl, _, _, rfl⟩
    · rw [if_neg hunknown, if_neg (by simp [hrunning, hunknown])]
      have hhandler : m.handler? event = (chart.findTransition? s.leaf event).map (s.leaf, ·) := by
        rw [handler?, h.leaf_eq, h.chart_eq]; rfl
      rw [hhandler]
      rcases ht : chart.findTransition? s.leaf event with _ | t
      · exact .inl ⟨rfl, _, _, rfl⟩
      · exact .inr ⟨t, hrunning, rfl, rfl, rfl⟩
  · rw [if_pos hrunning, if_pos (.inr (.inl hrunning))]
    exact .inl ⟨rfl, _, _, rfl⟩

/-! ## Settling -/

section Settling

variable {leaf : Nat} {unseen : List Nat} {step : Microstep} {next : Interpreter} {fault : Fault}

theorem settledStatus_of_running (h : m.status = .running) (leaf : Nat) :
    m.settledStatus leaf = m.chart.statusAt leaf := by
  rw [settledStatus, Chart.statusAt, h]

/-- Where nothing is pending, or the leaf has come up, settling stops. -/
theorem settle_of_rested (hleaf : m.leaf = some leaf)
    (h : m.chart.doneTransition? leaf = none ∨ leaf ∉ unseen) :
    m.settlePassages unseen = [] ∧ ∃ signals, m.settleFrom unseen =
      ⟨{ m with status := m.settledStatus leaf }, signals, .ok ()⟩ := by
  rw [Interpreter.settleFrom, settlePassages, hleaf, settledStatus]
  by_cases hfinal : m.chart.kindAt? leaf = some .final
  · simp only [if_pos hfinal]
    rcases ht : m.chart.doneTransition? leaf with _ | t
    · exact ⟨rfl, _, by rw [← hleaf]⟩
    · have hseen : leaf ∉ unseen := h.resolve_left (by rw [ht]; exact Option.some_ne_none t)
      simp only [dif_neg hseen]
      exact ⟨trivial, _, by rw [← hleaf]⟩
  · have hnone : m.chart.doneTransition? leaf = none := if_neg hfinal
    simp only [if_neg hfinal, hnone]
    exact ⟨trivial, [], by rw [← hleaf]⟩

theorem settle_of_ok (hleaf : m.leaf = some leaf) (ht : m.chart.doneTransition? leaf = some t)
    (hmem : leaf ∈ unseen) (hstep : m.chart.resolve leaf t m.history = .ok step)
    (hfollow : m.follow leaf t = (next, none)) :
    m.settlePassages unseen = ⟨leaf, step⟩ :: next.settlePassages (unseen.erase leaf) ∧
      m.settleFrom unseen = next.settleFrom (unseen.erase leaf) := by
  have hfinal := (Chart.exists_parent_of_doneTransition? ht).1
  rw [Interpreter.settleFrom, settlePassages, hleaf]
  simp only [if_pos hfinal, ht, dif_pos hmem, hstep, hfollow]
  trivial

theorem settle_of_error (hleaf : m.leaf = some leaf) (ht : m.chart.doneTransition? leaf = some t)
    (hmem : leaf ∈ unseen) (hfollow : m.follow leaf t = (next, some fault)) :
    m.settlePassages unseen = [] ∧ m.settleFrom unseen = ⟨next, [], .error fault⟩ := by
  have hfinal := (Chart.exists_parent_of_doneTransition? ht).1
  rw [Interpreter.settleFrom, settlePassages, hleaf]
  simp only [if_pos hfinal, ht, dif_pos hmem, hfollow, and_true]
  split
  · rename_i heq
    cases heq
  · rfl

end Settling

end Interpreter

end Lifecycle
