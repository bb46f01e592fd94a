import Lifecycle.Proofs.Interpreter.Course
import Lifecycle.Proofs.Interpreter.Requests

/-!
# How situations succeed one another

In a chart that completes nothing and whose actions never fail, an event leads from one situation to
one other: that after the microstep of its transition, or the same one if the event is ignored
(`Chart.successor`). So a run between two calls rests in the situation that its events lead to, one
after the other (`Interpreter.Rests.run_successors`), which is computed without the run.
-/

namespace Lifecycle

namespace Chart

variable {chart : Chart} {s s' : Situation} {passage : Passage} {passages : List Passage}

/-- Where nothing is completed settling takes no microstep. -/
theorem CompletesNothing.eq_of_settles (h : chart.CompletesNothing)
    (hsettles : chart.Settles s passages s') : s' = s := by
  obtain ⟨hleads, hdone⟩ := hsettles.toCompletes
  cases hleads with
  | refl => rfl
  | cons hpassage _ =>
    have hpending := hdone List.mem_cons_self
    rw [h] at hpending
    cases hpending

/-- The situation after the microstep of a transition; without effect if there is no such
microstep. -/
def taking (chart : Chart) (s : Situation) (t : Transition) : Situation :=
  match chart.resolve s.leaf t s.history with
  | .error _ => s
  | .ok step =>
    match Action.runAll (chart.stepActions step) s.context with
    | .error _ => s
    | .ok context =>
      ⟨step.leaf, s.context.adopted context, Entries.overlay s.history step.history⟩

theorem Leads.taking_eq (h : chart.Leads s passage s') :
    chart.taking s passage.step.transition = s' := by
  obtain ⟨context, hcontext, heq⟩ := h.performed
  have hactions : Action.runAll (chart.stepActions passage.step) s.context = .ok context := hcontext
  rw [taking, h.resolved]
  simp only [hactions]
  rw [← heq, ← h.leaf_after, ← h.history_after]

/-- The transition that an event triggers at a leaf: none where the run is over, and none for an
event outside the vocabulary. -/
def transitionFor? (chart : Chart) (leaf : Nat) (event : String) : Option Transition :=
  if chart.statusAt leaf = .running ∧ chart.events.all (·.contains event) = true then
    chart.findTransition? leaf event
  else none

/-- The situation after an event. -/
def successor (chart : Chart) (s : Situation) (event : String) : Situation :=
  ((chart.transitionFor? s.leaf event).map (chart.taking s)).getD s

end Chart

namespace Interpreter

variable {chart : Chart} {m : Interpreter} {s : Situation}

/-- A run at rest has nothing to do for an event that triggers no transition. -/
theorem Rests.idle_iff (h : m.Rests chart s) (event : String) :
    m.Idle event ↔ chart.transitionFor? s.leaf event = none := by
  have hunknown : m.isUnknown event = true ↔ ¬ chart.events.all (·.contains event) = true := by
    rw [isUnknown, h.chart_eq]
    cases chart.events <;> simp
  rw [Idle, ← handler?_eq_none_iff, handler?, hunknown, h.leaf_eq, h.chart_eq, h.status_eq,
    Option.bind_some, Option.map_eq_none_iff, Chart.transitionFor?]
  by_cases hcond : chart.statusAt s.leaf = .running ∧ chart.events.all (·.contains event) = true
  · rw [if_pos hcond]
    simp only [ne_eq, hcond, not_true, false_or]
  · rw [if_neg hcond]
    refine iff_of_true ?_ rfl
    exact (not_and_or.mp hcond).imp_right .inl

section Succession

variable (tree : chart.Arena) (total : chart.NeverFails) (complete : chart.CompletesNothing)

include tree total complete

/-- A run at rest is at rest again after an event, in the situation that succeeds. -/
theorem Rests.dispatch_successor (h : m.Rests chart s) (now : Json) (event : String) :
    (m.dispatch now event).state.Rests chart (chart.successor s event) := by
  by_cases hidle : m.Idle event
  · obtain ⟨log, hstate⟩ := (ignores_of_idle hidle now).state
    rw [hstate, Chart.successor, (h.idle_iff event).mp hidle]
    exact h.withLog log
  · obtain ⟨leaf, t, hrunning, hhandler, hdispatch⟩ := dispatch_of_not_idle hidle now h.snapshot_eq
    rw [handler?, h.leaf_eq, h.chart_eq, Option.bind_some, Option.map_eq_some_iff] at hhandler
    obtain ⟨_, ht, ⟨⟩⟩ := hhandler
    have htriggered : chart.transitionFor? s.leaf event = some t := by
      have hsome := mt (h.idle_iff event).mpr hidle
      unfold Chart.transitionFor? at hsome ⊢
      split at hsome
      · rw [if_pos ‹_›, ht]
      · exact absurd rfl hsome
    rw [hdispatch, Chart.successor, htriggered, Option.map_some, Option.getD_some]
    obtain ⟨s', passages, -, hleads, hstands, hreacted | ⟨step, fault, hbreaks, -⟩⟩ :=
      h.toStands.react tree h.situated hrunning ht now m.observe
    · obtain ⟨⟨passage, rest, middle, rfl, hfind, hfirst, hsettles⟩, ⟨log, hstate⟩, -⟩ := hreacted
      obtain rfl := complete.eq_of_settles hsettles
      obtain rfl := Option.some.inj (ht.symm.trans hfind)
      rw [hstate, hfirst.taking_eq]
      exact (rests_publish hstands (tree.situated_of_leadsTo h.situated hleads)).withLog log
    · exact absurd hbreaks (total.keeps.not_breaks tree trivial)

/-- After some calls a run rests in the situation that their events lead to. -/
theorem Rests.run_successors (h : m.Rests chart s) (calls : List Call) :
    (m.run calls).Rests chart ((calls.map Call.event).foldl chart.successor s) := by
  induction calls generalizing m s with
  | nil => exact h
  | cons call rest ih =>
    exact ih (h.dispatch_successor tree total complete call.now call.event)

/-- A run whose initial path runs no action starts at the end of it, with the context given. -/
theorem started_rests (hquiet : initialActions chart = []) (context : Context)
    (name : Option String) :
    (started chart context name).Rests chart ⟨chart.leafBelow 0, context, []⟩ := by
  obtain ⟨-, s, s', hbegins, -, hsettles, hrests⟩ :=
    start_keeps tree total.keeps context trivial name
  rw [complete.eq_of_settles hsettles] at hrests
  obtain ⟨next, hnext, hcontext⟩ := hbegins.performed
  have hactions : Action.runAll (initialActions chart) context = .ok next := hnext
  rw [hquiet] at hactions
  obtain rfl := Except.ok.inj hactions
  have hleaf : s.leaf = chart.leafBelow 0 := by
    have hlast := congrArg List.getLast? (hbegins.path_eq.symm.trans tree.initialPath_spec.1)
    rwa [Chart.getLast?_pathTo, Chart.getLast?_pathTo, Option.some.injEq] at hlast
  have hsame : s.context = context := by
    rw [hcontext]
    exact Context.adopted_mem (P := (· = context)) rfl rfl
  have hs : s = ⟨chart.leafBelow 0, context, []⟩ := by
    rw [← hleaf, ← hbegins.history_eq]
    exact congrArg (Situation.mk s.leaf · s.history) hsame
  exact hs ▸ hrests

end Succession

end Interpreter

end Lifecycle
