import Lifecycle.Proofs.Interpreter.Failure
import Lifecycle.Proofs.Interpreter.Requests

/-!
# Starts that fail

A start runs the entry actions of the initial path before it changes anything; then the run has
begun, and it settles before it shows what has come of it. So a start that fails in an entry action
leaves the run as it was, to be started again, and one that fails in a completion (`BreaksOff`)
leaves it going on at a leaf, with nothing to show (`start_of_error_result`). Nothing but a stop
leads out of that: for want of a snapshot neither a start nor an event does anything.

A run that is asked for anything in any order, whichever requests fail, is in one of four phases
(`Phase`, `Phase.serveAll`). Hence a run that has not started is as it was made, and what became of
its start if it failed is known (`start_failed`).
-/

namespace Lifecycle

namespace Chart

variable {chart : Chart} {s₀ s : Situation} {passages : List Passage}

/-- A start fails after the run has begun: completions lead from the end of the initial path to a
leaf where one more is pending, of which an action fails. -/
structure BreaksOff (chart : Chart) (context : Context) (s : Situation) (step : Microstep)
    (fault : Fault) : Prop where
  begun : ∃ s₀ passages, chart.Begins context s₀ ∧ chart.Completes s₀ passages s
  pending : chart.doneTransition? s.leaf = some step.transition
  breaks : chart.Breaks s step fault

/-- Where completions are followed by one that is pending, one is pending at the first leaf. -/
theorem Completes.pending_first (h : chart.Completes s₀ passages s)
    (hpending : chart.doneTransition? s.leaf ≠ none) : chart.doneTransition? s₀.leaf ≠ none := by
  obtain ⟨hleads, hdone⟩ := h
  cases hleads with
  | refl => exact hpending
  | cons hpassage _ =>
    rw [← hpassage.leaf_eq, hdone List.mem_cons_self]
    exact Option.some_ne_none _

theorem BreaksOff.situated (tree : chart.Arena) {context : Context} {step : Microstep}
    {fault : Fault} (h : chart.BreaksOff context s step fault) :
    chart.Situated { s with history := Entries.overlay s.history step.history } := by
  obtain ⟨s₀, passages, hbegins, hcompletes⟩ := h.begun
  have hs := tree.situated_of_leadsTo (hbegins.situated tree) hcompletes.leadsTo
  exact tree.situated_of_breaks hs h.breaks

/-- A start breaks off only where a completion is pending at the end of the initial path. -/
theorem BreaksOff.pending_initial {context : Context} {step : Microstep} {fault : Fault}
    (h : chart.BreaksOff context s step fault) :
    ∃ leaf, chart.initialPath.getLast? = some leaf ∧ chart.doneTransition? leaf ≠ none := by
  obtain ⟨s₀, passages, hbegins, hcompletes⟩ := h.begun
  refine ⟨s₀.leaf, by rw [hbegins.path_eq, getLast?_pathTo], hcompletes.pending_first ?_⟩
  rw [h.pending]
  exact Option.some_ne_none _

end Chart

namespace Interpreter

variable {chart : Chart} {context : Context} {name : Option String} {m : Interpreter}

/-- What a start leaves that has broken off in a situation: a run that goes on there, with the
records of the microstep that failed, and shows nothing that it did not show before. -/
def Strands (m : Interpreter) (s : Situation) (step : Microstep) (m' : Interpreter) : Prop :=
  ∃ version, m' = { m with
    status := .running
    leaf := some s.leaf
    context := s.context
    version := version
    history := Entries.overlay s.history step.history }

theorem Strands.stands {s : Situation} {step : Microstep}
    (h : (fresh chart context name).Strands s step m) :
    m.Stands chart { s with history := Entries.overlay s.history step.history } := by
  obtain ⟨version, rfl⟩ := h
  exact ⟨rfl, rfl, rfl, rfl⟩

theorem Strands.begun {s : Situation} {step : Microstep} {m' : Interpreter}
    (h : m.Strands s step m') (hunshown : m.snapshot = none) :
    m'.status ≠ .notStarted ∧ m'.snapshot = none := by
  obtain ⟨version, rfl⟩ := h
  exact ⟨Status.noConfusion, hunshown⟩

/-- A start that fails has failed in an entry action and done nothing, or it has broken off. -/
theorem start_of_error_result (tree : chart.Arena) {fault : Fault}
    (h : (fresh chart context name).start.result = .error fault) :
    (Action.runAll (initialActions chart) context = .error fault ∧
        started chart context name = fresh chart context name) ∨
      ∃ s step, chart.BreaksOff context s step fault ∧
        (fresh chart context name).Strands s step (started chart context name) := by
  rcases hnext : Action.runAll (initialActions chart) context with fault' | next
  · have hstart :
        (fresh chart context name).start = ⟨fresh chart context name, [], .error fault'⟩ :=
      start_of_error rfl hnext
    rw [hstart] at h
    exact .inl ⟨congrArg _ (Except.error.inj h), congrArg Response.state hstart⟩
  · obtain ⟨s₀, hbegins, hstands⟩ := stands_entered tree context name hnext
    have hunseen : (List.range (entered chart name context next).chart.nodes.size).Nodup :=
      List.nodup_range
    obtain ⟨s, passages, -, hcompletes, -, -, hstands', hend⟩ :=
      hstands.settleFrom tree (hbegins.situated tree) hunseen
    have hstart := start_fresh name hnext
    rcases hend with ⟨signals, hsettle, -⟩ | ⟨-, -, step, fault', hpending, hbreaks, hsettle⟩
    -- A start that settles does not fail.
    · simp only [settle, hsettle] at hstart
      rw [hstart] at h
      cases h
    · simp only [settle, hsettle] at hstart
      rw [hstart] at h
      obtain rfl := Except.error.inj h
      refine .inr ⟨s, step, ⟨⟨s₀, passages, hbegins, hcompletes⟩, hpending, hbreaks⟩, ?_⟩
      obtain ⟨leaf, context', version, history, hframe⟩ :=
        (entered chart name context next).taken_frame passages
      obtain ⟨_, hadopt⟩ := (fresh chart context name).adopt_eq next
      refine ⟨version, ?_⟩
      rw [started, hstart, ← hstands'.leaf_eq, ← hstands'.context_eq, hframe, entered, hadopt]

/-! ## What a run comes to -/

theorem observe_path_eq_nil (h : m.leaf = none) : m.observe.path = [] := by
  rw [observe, path, h]
  rfl

theorem observe_path_ne_nil {leaf : Nat} (h : m.leaf = some leaf) : m.observe.path ≠ [] := by
  rw [observe, path, h]
  intro hnil
  have hlast := Chart.getLast?_pathTo m.chart leaf
  rw [show m.chart.pathTo leaf = [] from List.map_eq_nil_iff.mp hnil] at hlast
  cases hlast

/-- A run that shows nothing refuses an event. -/
theorem dispatch_of_unshown (h : m.snapshot = none) (now : Json) (event : String) :
    m.dispatch now event = ⟨m, [], .error (.notStarted m.name)⟩ := by
  rw [dispatch, h]

/-- A run that has begun is not started again. -/
theorem start_of_begun (h : m.status ≠ .notStarted) : m.start = ⟨m, [], m.shown⟩ := if_pos h

theorem stop_of_begun (h : m.status ≠ .notStarted) :
    m.stop.state = { m with status := .stopped }.publish := by
  rw [stop, if_neg h]

theorem serve_begun (h : m.status ≠ .notStarted) (request : Request) :
    (m.serve request).status ≠ .notStarted := by
  have hstage := m.stage_le_serve request
  intro hfresh
  rw [hfresh] at hstage
  revert h hstage
  cases m.status <;> decide

/-- A run has begun: it is at a leaf, where its chart can go on, and it shows paths down to leaves.
-/
structure Begun (chart : Chart) (m : Interpreter) : Prop where
  status_ne : m.status ≠ .notStarted
  alive : ∃ s, m.Alive chart s
  path_ne {shown : Snapshot} : m.snapshot = some shown → shown.path ≠ []

/-- A run was stopped before it could begin: it is nowhere, and what it shows, if anything, is no
path. -/
structure Cancelled (m : Interpreter) : Prop where
  status_eq : m.status = .stopped
  leaf_eq : m.leaf = none
  path_eq {shown : Snapshot} : m.snapshot = some shown → shown.path = []

theorem Rests.begun {s : Situation} (h : m.Rests chart s) : Begun chart m where
  status_ne := by
    rw [h.status_eq, Chart.statusAt]
    split <;> exact Status.noConfusion
  alive := ⟨s, h.alive⟩
  path_ne hshown := by
    rw [h.snapshot_eq] at hshown
    obtain rfl := Option.some.inj hshown
    exact observe_path_ne_nil h.leaf_eq

/-- A run that is restored has begun. -/
theorem begun_of_resume (tree : chart.Arena) {path : Json} {history : Entries Json}
    (h : resume chart path history context name = .ok m) : Begun chart m := by
  obtain ⟨s, halive⟩ := alive_of_resume tree h
  obtain ⟨leaf, -, h⟩ := bind_eq_ok.mp h
  obtain ⟨records, -, h⟩ := bind_eq_ok.mp h
  obtain ⟨fitted, -, h⟩ := bind_eq_ok.mp h
  cases h
  refine ⟨?_, ⟨s, halive⟩, fun hshown => ?_⟩
  · show (if _ then Status.done else Status.running) ≠ .notStarted
    split <;> exact Status.noConfusion
  · obtain rfl := Option.some.inj hshown
    exact observe_path_ne_nil halive.leaf_eq

/-- A stop shows where the run has come to. -/
theorem begun_stop {s : Situation} (hbegun : m.status ≠ .notStarted) (hstands : m.Stands chart s)
    (hs : chart.Situated s) : Begun chart m.stop.state := by
  rw [stop_of_begun hbegun]
  refine ⟨Status.noConfusion, ⟨s, ⟨hstands.chart_eq, hstands.leaf_eq, hstands.context_eq,
    hstands.history_eq⟩, hs, rfl⟩, fun h => ?_⟩
  obtain rfl := Option.some.inj h
  exact observe_path_ne_nil hstands.leaf_eq

/-- A run that has begun goes on so. -/
theorem Begun.serve (tree : chart.Arena) (h : Begun chart m) (request : Request) :
    Begun chart (m.serve request) := by
  obtain ⟨s, halive⟩ := h.alive
  cases request with
  | start => rwa [Interpreter.serve, start_of_begun h.status_ne]
  | send call =>
    obtain ⟨s', halive', -, hsnapshot⟩ := halive.dispatch_spec tree call.now call.event
    refine ⟨serve_begun h.status_ne (.send call), ⟨s', halive'⟩, fun hshown => ?_⟩
    rw [Interpreter.serve] at hshown
    rcases hsnapshot with heq | heq <;> rw [heq] at hshown
    · exact h.path_ne hshown
    · obtain rfl := Option.some.inj hshown
      exact observe_path_ne_nil halive'.leaf_eq
  | stop => exact begun_stop h.status_ne halive.toStands halive.situated

theorem Begun.serveAll (tree : chart.Arena) (h : Begun chart m) (requests : List Request) :
    Begun chart (m.serveAll requests) :=
  serveAll_of_serve (fun _ request h => h.serve tree request) h requests

theorem Cancelled.status_ne (h : Cancelled m) : m.status ≠ .notStarted := by
  rw [h.status_eq]
  exact Status.noConfusion

theorem Cancelled.idle (h : Cancelled m) (event : String) : m.Idle event :=
  .inl (by rw [h.status_eq]; exact Status.noConfusion)

/-- A run that was stopped before it could begin never does. -/
theorem Cancelled.serve (h : Cancelled m) (request : Request) : Cancelled (m.serve request) := by
  cases request with
  | start => rwa [Interpreter.serve, start_of_begun h.status_ne]
  | send call =>
    obtain ⟨log, hstate⟩ := (ignores_of_idle (h.idle call.event) call.now).state
    rw [Interpreter.serve, hstate]
    exact ⟨h.status_eq, h.leaf_eq, h.path_eq⟩
  | stop =>
    rw [Interpreter.serve, stop_of_begun h.status_ne]
    refine ⟨rfl, h.leaf_eq, fun hshown => ?_⟩
    obtain rfl := Option.some.inj hshown
    exact observe_path_eq_nil h.leaf_eq

/-- For a run with nothing to show only a stop does anything. -/
theorem serve_of_unshown (hbegun : m.status ≠ .notStarted) (hunshown : m.snapshot = none)
    {request : Request} (hrequest : request ≠ .stop) : m.serve request = m := by
  cases request with
  | start => rw [serve, start_of_begun hbegun]
  | send call => rw [serve, dispatch_of_unshown hunshown]
  | stop => exact absurd rfl hrequest

/-- The phases of a run: it has not begun, its start has broken off, it has begun, or it was stopped
before it could begin. -/
inductive Phase (chart : Chart) (context : Context) (name : Option String) : Interpreter → Prop
  | waiting : Phase chart context name (fresh chart context name)
  | stranded {s : Situation} {step : Microstep} {fault : Fault} :
    (fresh chart context name).start.result = .error fault → chart.BreaksOff context s step fault →
      (fresh chart context name).Strands s step (started chart context name) →
        Phase chart context name (started chart context name)
  | begun {m : Interpreter} : Begun chart m → Phase chart context name m
  | cancelled {m : Interpreter} : Cancelled m → Phase chart context name m

/-- A start that succeeds begins the run; one that fails does nothing, or breaks off. -/
theorem phase_started (tree : chart.Arena) :
    Phase chart context name (started chart context name) := by
  rcases start_cases tree context name with ⟨-, _, s, -, -, hrests⟩ | ⟨fault, hfault, -⟩
  · exact .begun hrests.begun
  · rcases start_of_error_result tree hfault with ⟨-, hsame⟩ | ⟨s, step, hbreaks, hstrands⟩
    · rw [hsame]
      exact .waiting
    · exact .stranded hfault hbreaks hstrands

/-- Whatever is asked of it, a run is in one of its phases. -/
theorem Phase.serve (tree : chart.Arena) (h : Phase chart context name m) (request : Request) :
    Phase chart context name (m.serve request) := by
  cases h with
  | waiting =>
    cases request with
    | start => exact phase_started tree
    | send call => exact .waiting
    | stop => exact .cancelled ⟨rfl, rfl, nofun⟩
  | stranded hfault hbreaks hstrands =>
    obtain ⟨hbegun, hunshown⟩ := hstrands.begun rfl
    by_cases hstop : request = .stop
    · subst hstop
      exact .begun (begun_stop hbegun hstrands.stands (hbreaks.situated tree))
    · rw [serve_of_unshown hbegun hunshown hstop]
      exact .stranded hfault hbreaks hstrands
  | begun h => exact .begun (h.serve tree request)
  | cancelled h => exact .cancelled (h.serve request)

theorem Phase.serveAll (tree : chart.Arena) (h : Phase chart context name m)
    (requests : List Request) : Phase chart context name (m.serveAll requests) :=
  serveAll_of_serve (fun _ request h => h.serve tree request) h requests

/-- The states of a run that is asked for anything in any order. -/
def Asked (chart : Chart) (context : Context) (name : Option String) (m : Interpreter) : Prop :=
  ∃ requests, m = (fresh chart context name).serveAll requests

theorem Asked.phase (tree : chart.Arena) (h : Asked chart context name m) :
    Phase chart context name m := by
  obtain ⟨requests, rfl⟩ := h
  exact Phase.waiting.serveAll tree requests

/-- **What a failing start leaves.** However a run of a built chart has been asked to start, to
handle events and to stop: if it has not begun, it is as it was made, and a start that fails then
has failed in an entry action of the initial path and left it so, to be started again, or it has
broken off in a completion, as it can only where one is pending at the end of the initial path.
Then, and in no other way, the run goes on and shows nothing: it has come to the leaf, the context
and the records at which it broke off, and both to start and to send it an event are refused, as if
it had not been started. -/
theorem start_failed (hbuilt : chart.Built) (hm : Asked chart context name m) :
    (m.status = .notStarted → m = fresh chart context name ∧
      ∀ fault, m.start.result = .error fault →
        (Action.runAll (initialActions chart) m.context = .error fault ∧ m.start.state = m) ∨
        ((∃ s step, chart.BreaksOff m.context s step fault ∧ m.Strands s step m.start.state) ∧
          ∃ leaf, chart.initialPath.getLast? = some leaf ∧ chart.doneTransition? leaf ≠ none)) ∧
    (m.status = .running → m.snapshot = none →
      (∃ s step fault, (fresh chart context name).start.result = .error fault ∧
        chart.BreaksOff context s step fault ∧ (fresh chart context name).Strands s step m) ∧
      m.start = ⟨m, [], .error (.notStarted m.name)⟩ ∧
      ∀ now event, m.dispatch now event = ⟨m, [], .error (.notStarted m.name)⟩) := by
  have tree := hbuilt.arena
  have hphase := hm.phase tree
  refine ⟨fun hfresh => ?_, fun hrunning hunshown => ?_⟩
  · obtain rfl : m = fresh chart context name := by
      cases hphase with
      | waiting => rfl
      | stranded _ _ hstrands => exact absurd hfresh (hstrands.begun rfl).1
      | begun h => exact absurd hfresh h.status_ne
      | cancelled h => exact absurd hfresh h.status_ne
    refine ⟨rfl, fun fault hfault => (start_of_error_result tree hfault).imp_right ?_⟩
    rintro ⟨s, step, hbreaks, hstrands⟩
    exact ⟨⟨s, step, hbreaks, hstrands⟩, hbreaks.pending_initial⟩
  · have hbegun : m.status ≠ .notStarted := by
      rw [hrunning]
      exact Status.noConfusion
    refine ⟨?_, ?_, dispatch_of_unshown hunshown⟩
    · cases hphase with
      | waiting => cases hrunning
      | stranded hfault hbreaks hstrands => exact ⟨_, _, _, hfault, hbreaks, hstrands⟩
      | begun h =>
        obtain ⟨s, halive⟩ := h.alive
        have hshown := halive.shown
        rw [hunshown] at hshown
        cases hshown
      | cancelled h => cases hrunning.symm.trans h.status_eq
    · rw [start_of_begun hbegun, shown, hunshown]

/-- A chart with an entry action that counts, and then an action that fails when the first leaf is
completed. -/
def fragile : Chart :=
  .ofDeclaration [("count", .assign [("n", .int 1)]), ("break", .fail "broken")] <|
    .obj [("id", .str "m"), ("initial", .str "p"), ("context", .obj [("n", .int 0)]),
      ("states", .obj [
        ("p", .obj [("initial", .str "l"), ("entry", .str "count"),
          ("on_done", .obj [("target", .str "d"), ("actions", .str "break")]),
          ("states", .obj [("l", .obj [("type", .str "final")]),
            ("h", .obj [("type", .str "history")])])]),
        ("d", .obj [])])]

set_option maxRecDepth 10000 in
theorem fragile_built : fragile.Built :=
  Chart.built_ofDeclaration (by decide +kernel) (by decide +kernel)

set_option maxRecDepth 10000 in
theorem fragile_breaks : (fresh fragile fragile.context none).start.result =
    .error (.raised "broken") := by
  have hfault : (match (fresh fragile fragile.context none).start.result with
      | .error fault => some fault
      | .ok _ => none) = some (.raised "broken") := by decide +kernel
  split at hfault
  · rename_i heq
    rw [heq, Option.some.inj hfault]
  · cases hfault

set_option maxRecDepth 10000 in
/-- The start breaks off, and then it and an event are refused. -/
theorem start_failed_completing :
    fragile.Built ∧ Asked fragile fragile.context none (started fragile fragile.context none) ∧
      (started fragile fragile.context none).status = .running ∧
      (started fragile fragile.context none).snapshot.isNone = true ∧
      (∃ s step fault, fragile.BreaksOff fragile.context s step fault ∧
        (fresh fragile fragile.context none).Strands s step
          (started fragile fragile.context none)) ∧
      (started fragile fragile.context none).start.result = .error (.notStarted "m") := by
  have hasked : Asked fragile fragile.context none (started fragile fragile.context none) :=
    ⟨[.start], rfl⟩
  have hends : (started fragile fragile.context none).status = .running ∧
      (started fragile fragile.context none).snapshot.isNone = true ∧
      (started fragile fragile.context none).name = "m" := by decide +kernel
  obtain ⟨hrunning, hunshown, hname⟩ := hends
  obtain ⟨⟨s, step, fault, -, hbreaks, hstrands⟩, hstart, -⟩ :=
    (start_failed fragile_built hasked).2 hrunning (Option.isNone_iff_eq_none.mp hunshown)
  exact ⟨fragile_built, hasked, hrunning, hunshown, ⟨s, step, fault, hbreaks, hstrands⟩,
    by rw [hstart, hname]⟩

set_option maxRecDepth 10000 in
/-- After a start that failed the run goes on, at another leaf than before, with another context and
other records, and it can neither be started nor be sent an event. -/
theorem start_leaves_traces :
    fragile.Built ∧
      (fresh fragile fragile.context none).start.result = .error (.raised "broken") ∧
      (started fragile fragile.context none).status = .running ∧
      (fresh fragile fragile.context none).leaf = none ∧
      (started fragile fragile.context none).leaf = some 2 ∧
      (fresh fragile fragile.context none).version = 0 ∧
      (started fragile fragile.context none).version = 1 ∧
      (started fragile fragile.context none).history = [("m.p", "l")] ∧
      (∀ snapshot, (started fragile fragile.context none).start.result ≠ .ok snapshot) ∧
      ∀ now event verdict,
        ((started fragile fragile.context none).dispatch now event).result ≠ .ok verdict := by
  have hends : (started fragile fragile.context none).status = .running ∧
      (started fragile fragile.context none).leaf = some 2 ∧
      (started fragile fragile.context none).version = 1 ∧
      (started fragile fragile.context none).history = [("m.p", "l")] ∧
      (started fragile fragile.context none).snapshot.isNone = true := by decide +kernel
  obtain ⟨hrunning, hleaf, hversion, hhistory, hunshown⟩ := hends
  have hnone := Option.isNone_iff_eq_none.mp hunshown
  have hbegun : (started fragile fragile.context none).status ≠ .notStarted := by
    rw [hrunning]
    exact Status.noConfusion
  refine ⟨fragile_built, fragile_breaks, hrunning, rfl, hleaf, rfl, hversion, hhistory,
    fun snapshot => ?_, fun now event verdict => ?_⟩
  · rw [start_of_begun hbegun, shown, hnone]
    exact nofun
  · rw [dispatch_of_unshown hnone]
    exact nofun

end Interpreter

end Lifecycle
