import Lifecycle.Interpreter.Run
import Lifecycle.Proofs.Microstep.Shift
import Lifecycle.Proofs.Chart.Actions

/-!
# Situations and passages

What determines how a run goes on is its situation: the active leaf, the context and the history
records. A passage is a microstep taken at a leaf, and leads from one situation to the next
(`Leads`), unless one of its actions fails (`Breaks`). From a situation that a chart can go on from
(`Situated`) passages lead to others (`Arena.situated_of_leadsTo`), and where the actions keep a
property of contexts no microstep breaks (`Keeps.not_breaks`) and the property stays
(`Keeps.of_leadsTo`).
-/

namespace Lifecycle

/-- A context after another is written over it; one that is equal by value changes nothing. -/
def Context.adopted (old new : Context) : Context := if new.same old then old else new

theorem Context.adopted_mem {old new : Context} {P : Context → Prop} (hold : P old)
    (hnew : P new) : P (old.adopted new) := by
  unfold adopted
  split
  · exact hold
  · exact hnew

/-- What determines how a run goes on. -/
structure Situation where
  leaf : Nat
  context : Context
  history : Entries String

/-- A microstep and the leaf that it is taken at. -/
structure Passage where
  leaf : Nat
  step : Microstep

namespace Chart

variable (chart : Chart)

/-- A situation in which a chart can go on: an active leaf, and records that fit. -/
structure Situated (s : Situation) : Prop where
  isLeaf : chart.IsLeaf s.leaf
  fits : chart.Fits s.history

/-- A passage leads from one situation to another: at the active leaf the microstep of a triggered
transition is taken. Its actions run in their order, exits from the leaf outwards, the transition's
own, and entries towards the new leaf. -/
structure Leads (s : Situation) (passage : Passage) (s' : Situation) : Prop where
  leaf_eq : passage.leaf = s.leaf
  triggered : chart.Triggered s.leaf passage.step.transition
  resolved : chart.resolve s.leaf passage.step.transition s.history = .ok passage.step
  performed : ∃ context, Action.runAll (passage.step.exited.flatMap chart.exitOf
    ++ passage.step.transition.actions ++ passage.step.entered.flatMap chart.entryOf) s.context =
      .ok context ∧ s'.context = s.context.adopted context
  leaf_after : s'.leaf = passage.step.leaf
  history_after : s'.history = Entries.overlay s.history passage.step.history

/-- The microstep of a triggered transition is begun in a situation, and an action of it fails. -/
structure Breaks (s : Situation) (step : Microstep) (fault : Fault) : Prop where
  triggered : chart.Triggered s.leaf step.transition
  resolved : chart.resolve s.leaf step.transition s.history = .ok step
  failed : Action.runAll (chart.stepActions step) s.context = .error fault

/-- Passages lead, one after the other, from one situation to another. -/
inductive LeadsTo : Situation → List Passage → Situation → Prop
  | refl (s : Situation) : LeadsTo s [] s
  | cons {s middle s' : Situation} {passage : Passage} {passages : List Passage} :
    chart.Leads s passage middle → LeadsTo middle passages s' → LeadsTo s (passage :: passages) s'

variable {chart} {s s' middle : Situation} {passage : Passage} {passages rest : List Passage}
  {P : Context → Prop}

theorem LeadsTo.trans (h : chart.LeadsTo s passages middle) (h' : chart.LeadsTo middle rest s') :
    chart.LeadsTo s (passages ++ rest) s' := by
  induction h with
  | refl => exact h'
  | cons hpassage _ ih => exact .cons hpassage (ih h')

theorem hasAction_of_declares {t : Transition} {a : Action} (ht : chart.Declares t)
    (ha : a ∈ t.actions) : chart.HasAction a := by
  obtain ⟨i, n, hn, ht⟩ := ht
  refine ⟨i, n, hn, List.mem_append_right _ (List.mem_flatMap.mpr ⟨t, ?_, ha⟩)⟩
  rcases ht with ht | ht
  · exact List.mem_append_left _ ht
  · exact List.mem_append_right _ (Option.mem_toList.mpr ht)

/-- The actions of a microstep are actions of the chart. -/
theorem hasAction_of_stepActions {step : Microstep} {a : Action}
    (ht : chart.Declares step.transition) (ha : a ∈ chart.stepActions step) :
    chart.HasAction a := by
  rw [stepActions, List.mem_append, List.mem_append, List.mem_flatMap, List.mem_flatMap] at ha
  rcases ha with (⟨i, -, ha⟩ | ha) | ⟨i, -, ha⟩
  · exact hasAction_of_exitOf ha
  · exact hasAction_of_declares ht ha
  · exact hasAction_of_entryOf ha

/-- The shift of a passage between good situations. -/
theorem Arena.shift_of_leads (tree : chart.Arena) (hs : chart.Situated s)
    (h : chart.Leads s passage s') :
    chart.Shift s.leaf passage.step.transition s.history passage.step := by
  obtain ⟨step, hstep, hshift⟩ := tree.resolve_triggered hs.isLeaf h.triggered hs.fits
  obtain rfl : passage.step = step := Except.ok.inj (h.resolved.symm.trans hstep)
  exact hshift

/-- A passage leaves the run in a good situation. -/
theorem Arena.situated_of_leads (tree : chart.Arena) (hs : chart.Situated s)
    (h : chart.Leads s passage s') : chart.Situated s' := by
  have hshift := tree.shift_of_leads hs h
  constructor
  · rw [h.leaf_after]; exact hshift.isLeaf
  · rw [h.history_after]
    exact hshift.records.fits tree hs.isLeaf (fun _ => hshift.mem_ancestors) hs.fits

theorem Arena.situated_of_leadsTo (tree : chart.Arena) (hs : chart.Situated s)
    (h : chart.LeadsTo s passages s') : chart.Situated s' := by
  induction h with
  | refl => exact hs
  | cons hpassage _ ih => exact ih (tree.situated_of_leads hs hpassage)

/-! ## Actions that keep a property -/

section Keeps

variable (tree : chart.Arena) (keeps : chart.Keeps P) (hP : P s.context)

include tree keeps hP

theorem Keeps.stepActions {step : Microstep} (ht : chart.Triggered s.leaf step.transition) :
    ∃ next, Action.runAll (chart.stepActions step) s.context = .ok next ∧ P next := by
  refine Action.runAll_keeps (fun a ha => keeps a ?_) hP
  exact hasAction_of_stepActions (tree.declares_of_triggered ht).1 ha

theorem Keeps.not_breaks {step : Microstep} {fault : Fault} : ¬ chart.Breaks s step fault := by
  intro h
  obtain ⟨next, hnext, -⟩ := keeps.stepActions tree hP h.triggered
  rw [h.failed] at hnext
  cases hnext

theorem Keeps.of_leads (h : chart.Leads s passage s') : P s'.context := by
  obtain ⟨next, hnext, hP'⟩ := keeps.stepActions tree hP h.triggered
  obtain ⟨context, hcontext, heq⟩ := h.performed
  obtain rfl := Except.ok.inj (hnext.symm.trans hcontext)
  rw [heq]
  exact Context.adopted_mem hP hP'

theorem Keeps.of_leadsTo (h : chart.LeadsTo s passages s') : P s'.context := by
  induction h with
  | refl => exact hP
  | cons hpassage _ ih => exact ih (keeps.of_leads tree hP hpassage)

/-- A triggered transition leads to another situation. -/
theorem Keeps.exists_leads (hs : chart.Situated s) {t : Transition}
    (ht : chart.Triggered s.leaf t) : ∃ step s', step.transition = t ∧
      chart.resolve s.leaf t s.history = .ok step ∧ chart.Leads s ⟨s.leaf, step⟩ s' := by
  obtain ⟨step, hstep, hshift⟩ := tree.resolve_triggered hs.isLeaf ht hs.fits
  obtain rfl := hshift.transition_eq
  obtain ⟨next, hnext, -⟩ := keeps.stepActions tree hP ht
  exact ⟨step, ⟨step.leaf, s.context.adopted next, Entries.overlay s.history step.history⟩, rfl,
    hstep, rfl, ht, hstep, ⟨next, hnext, rfl⟩, rfl, rfl⟩

end Keeps

end Chart

end Lifecycle
