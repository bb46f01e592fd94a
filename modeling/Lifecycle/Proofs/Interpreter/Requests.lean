import Lifecycle.Proofs.Interpreter.Passages

/-!
# Requests

A run is asked to start, to handle an event or to stop (`Request`), in any order and any number of
times, also after a request that failed halfway. Whichever chart it runs and whatever its actions
do, its status goes through its stages one way: no request leads back to an earlier one
(`stage_le_serve`), hence no sequence of requests does (`stage_le_serveAll`). An event that nothing
is to be done for is ignored (`ignores_of_idle`).
-/

namespace Lifecycle

/-- How far the life of an interpreter has come at a status. -/
def Status.stage : Status → Nat
  | .notStarted => 0
  | .running => 1
  | .done => 2
  | .stopped => 3

namespace Interpreter

/-- What a run is asked for. -/
inductive Request where
  | start
  | send (call : Call)
  | stop

/-- The run after a request. -/
def serve (m : Interpreter) : Request → Interpreter
  | .start => m.start.state
  | .send call => (m.dispatch call.now call.event).state
  | .stop => m.stop.state

/-- The run after some requests, one after the other. -/
def serveAll (m : Interpreter) (requests : List Request) : Interpreter := requests.foldl serve m

variable {m : Interpreter}

/-- Settling may end a run that is going on. -/
theorem stage_le_settle (h : m.status = .running) :
    m.status.stage ≤ m.settle.state.status.stage := by
  obtain ⟨status, _, _, _, _, hstatus, hframe⟩ := m.settleFrom_frame (List.range m.chart.nodes.size)
  rw [settle, hframe]
  rcases hstatus with rfl | rfl
  · exact Nat.le_refl _
  · rw [h]
    exact Nat.le_succ 1

theorem stage_le_start (m : Interpreter) : m.status.stage ≤ m.start.state.status.stage := by
  unfold start
  by_cases hfresh : m.status = .notStarted
  · rw [hfresh]
    exact Nat.zero_le _
  · rw [if_pos hfresh]

theorem stop_status (m : Interpreter) : m.stop.state.status = .stopped := by
  unfold stop
  split <;> rfl

theorem stage_le_stop (m : Interpreter) : m.status.stage ≤ m.stop.state.status.stage := by
  rw [m.stop_status]
  cases m.status <;> decide

theorem stage_le_react (h : m.status = .running) (now : Json) (snapshot : Snapshot)
    (event : String) (leaf : Nat) (t : Transition) :
    m.status.stage ≤ (m.react now snapshot event leaf t).state.status.stage := by
  have hstatus : (m.follow leaf t).1.status = m.status := by
    obtain ⟨_, _, _, _, hframe⟩ := m.follow_frame leaf t
    rw [hframe]
  unfold react
  rcases hfollow : m.follow leaf t with ⟨taken, _ | fault⟩ <;> rw [hfollow] at hstatus
  · have hsettled := stage_le_settle (hstatus.trans h)
    rw [hstatus] at hsettled
    dsimp only
    split <;> exact hsettled
  · exact (congrArg Status.stage hstatus).ge

/-- No event leads back to an earlier stage. -/
theorem stage_le_dispatch (m : Interpreter) (now : Json) (event : String) :
    m.status.stage ≤ (m.dispatch now event).state.status.stage := by
  have hignore (snapshot : Snapshot) (reason : String) (signals : List Signal) :
      m.status.stage ≤ (m.ignore now snapshot event reason signals).state.status.stage := by
    obtain ⟨log, hstate⟩ := m.ignore_state now snapshot event reason signals
    rw [hstate]
  unfold dispatch
  rcases m.snapshot with _ | snapshot
  · exact Nat.le_refl _
  · dsimp only
    by_cases hrunning : m.status = .running
    · rw [if_neg (not_not_intro hrunning)]
      split
      · exact hignore ..
      · rcases m.handler? event with _ | ⟨leaf, t⟩
        · exact hignore ..
        · exact stage_le_react hrunning now snapshot event leaf t
    · rw [if_pos hrunning]
      exact hignore ..

theorem stage_le_serve (m : Interpreter) (request : Request) :
    m.status.stage ≤ (m.serve request).status.stage := by
  cases request with
  | start => exact m.stage_le_start
  | send call => exact m.stage_le_dispatch call.now call.event
  | stop => exact m.stage_le_stop

/-- A run that is stopped stays so. -/
theorem serve_of_stopped (h : m.status = .stopped) (request : Request) :
    (m.serve request).status = .stopped := by
  have hstage := m.stage_le_serve request
  rw [h] at hstage
  generalize (m.serve request).status = status at hstage ⊢
  cases status with
  | stopped => rfl
  | _ => exact absurd hstage (by decide)

/-- What every request preserves is preserved whatever is asked for. -/
theorem serveAll_of_serve {P : Interpreter → Prop}
    (hserve : ∀ m request, P m → P (m.serve request)) (h : P m) (requests : List Request) :
    P (m.serveAll requests) := by
  induction requests generalizing m with
  | nil => exact h
  | cons request rest ih => exact ih (hserve m request h)

/-- Whatever a run is asked for, it does not go back to an earlier stage. -/
theorem stage_le_serveAll (m : Interpreter) (requests : List Request) :
    m.status.stage ≤ (m.serveAll requests).status.stage :=
  serveAll_of_serve (P := fun later => m.status.stage ≤ later.status.stage)
    (fun later request h => h.trans (later.stage_le_serve request)) (Nat.le_refl _) requests

/-! ## Ignored events -/

theorem ignore_signals (m : Interpreter) (now : Json) (snapshot : Snapshot)
    (event reason : String) (signals : List Signal) :
    (m.ignore now snapshot event reason signals).signals = signals := by
  unfold ignore
  cases Record.stamp now <;> rfl

theorem ignore_result (m : Interpreter) (now : Json) (snapshot : Snapshot)
    (event reason : String) (signals : List Signal) :
    (m.ignore now snapshot event reason signals).result =
      (Record.stamp now).map fun _ => .ignored snapshot ⟨event, snapshot.path, reason⟩ := by
  unfold ignore
  cases Record.stamp now <;> rfl

/-- An event is ignored: nothing is changed but the records, and where the clock can be read the
result is the snapshot that is shown. -/
structure Ignores (m : Interpreter) (now : Json) (event : String) : Prop where
  state : ∃ log, (m.dispatch now event).state = { m with log := log }
  result {snapshot : Snapshot} {time : Number} : m.snapshot = some snapshot →
    Record.stamp now = .ok time → ∃ reason,
      (m.dispatch now event).result = .ok (.ignored snapshot ⟨event, snapshot.path, reason⟩)

/-- There is nothing to be done for an event: the run is not going on, the event is outside the
vocabulary, or neither the active leaf nor a node above it handles it. -/
def Idle (m : Interpreter) (event : String) : Prop :=
  m.status ≠ .running ∨ m.isUnknown event = true ∨
    ∀ leaf, m.leaf = some leaf → ∀ i ∈ m.chart.ancestors leaf, m.chart.handlerAt? event i = none

theorem handler?_eq_none_iff {event : String} : m.handler? event = none ↔
    ∀ leaf, m.leaf = some leaf → ∀ i ∈ m.chart.ancestors leaf,
      m.chart.handlerAt? event i = none := by
  rcases hleaf : m.leaf with _ | leaf
  · rw [handler?, hleaf, Option.bind_none]
    exact iff_of_true rfl fun _ hnone => absurd hnone (Option.some_ne_none _).symm
  · rw [handler?, hleaf, Option.bind_some, Option.map_eq_none_iff, Chart.findTransition?,
      List.findSome?_eq_none_iff]
    exact ⟨fun h other hother => Option.some.inj hother ▸ h, fun h => h leaf rfl⟩

section Idle

variable {event : String} (h : m.Idle event) (now : Json)

include h

theorem dispatch_of_idle {snapshot : Snapshot} (hshown : m.snapshot = some snapshot) :
    ∃ reason signals, m.dispatch now event = m.ignore now snapshot event reason signals := by
  simp only [dispatch, hshown]
  by_cases hrunning : m.status = .running
  · rw [if_neg (not_not_intro hrunning)]
    by_cases hunknown : m.isUnknown event = true
    · rw [if_pos hunknown]
      exact ⟨_, _, rfl⟩
    · have hnone := (h.resolve_left (not_not_intro hrunning)).resolve_left hunknown
      rw [if_neg hunknown, handler?_eq_none_iff.mpr hnone]
      exact ⟨_, _, rfl⟩
  · rw [if_pos hrunning]
    exact ⟨_, _, rfl⟩

/-- An event that there is nothing to be done for is ignored. -/
theorem ignores_of_idle : m.Ignores now event where
  state := by
    rcases hshown : m.snapshot with _ | snapshot
    · have hsame : (m.dispatch now event).state = m := by rw [dispatch, hshown]
      exact ⟨m.log, by rw [hsame, ← hshown]⟩
    · obtain ⟨reason, signals, hdispatch⟩ := dispatch_of_idle h now hshown
      obtain ⟨log, hstate⟩ := m.ignore_state now snapshot event reason signals
      exact ⟨log, by rw [hdispatch, hstate, ← hshown]⟩
  result hshown htime := by
    obtain ⟨reason, signals, hdispatch⟩ := dispatch_of_idle h now hshown
    exact ⟨reason, by rw [hdispatch, ignore_result, htime]; rfl⟩

end Idle

/-- An event that there is something to be done for comes to its transition. -/
theorem dispatch_of_not_idle {event : String} (h : ¬ m.Idle event) (now : Json)
    {snapshot : Snapshot} (hshown : m.snapshot = some snapshot) :
    ∃ leaf t, m.status = .running ∧ m.handler? event = some (leaf, t) ∧
      m.dispatch now event = m.react now snapshot event leaf t := by
  simp only [Idle, not_or, not_not] at h
  obtain ⟨hrunning, hknown, hhandler⟩ := h
  rw [← handler?_eq_none_iff] at hhandler
  obtain ⟨⟨leaf, t⟩, hhandler⟩ := Option.ne_none_iff_exists'.mp hhandler
  refine ⟨leaf, t, hrunning, hhandler, ?_⟩
  simp only [dispatch, hshown, hhandler, if_neg (not_not_intro hrunning), if_neg hknown]

/-- An event is handled only if there is something to be done for it. -/
theorem not_idle_of_handled {now : Json} {event : String} {snapshot : Snapshot} {changed : Bool}
    (h : (m.dispatch now event).result = .ok (.handled snapshot changed)) : ¬ m.Idle event := by
  intro hidle
  rcases hshown : m.snapshot with _ | shown
  · rw [dispatch, hshown] at h
    cases h
  · obtain ⟨reason, signals, hdispatch⟩ := dispatch_of_idle hidle now hshown
    rw [hdispatch, ignore_result] at h
    generalize Record.stamp now = stamped at h
    cases stamped <;> cases h

end Interpreter

end Lifecycle
