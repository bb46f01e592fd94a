import Lifecycle.Proofs.Chart.Shape
import Lifecycle.Proofs.Interpreter.Lockstep
import Lifecycle.Proofs.Interpreter.Settling
import Lifecycle.Proofs.Lead.Chart

/-!
# What survives being saved

A run that goes on is restored from its snapshot in the state that it was in, and from then on the
two do the same (`run_restored`). A run that is done is restored done where nothing is pending, and
stays as it is (`run_restored_done`). Where it was ended at a leaf that had come up before, with the
completion of the parent pending, it goes on again.
-/

namespace Lifecycle

/-- Two snapshots show the same state; contexts are compared as mappings. -/
structure Snapshot.Matches (a b : Snapshot) : Prop where
  path_eq : a.path = b.path
  context : Entries.Agrees a.context b.context
  history_eq : a.history = b.history
  tags_eq : a.tags = b.tags

/-- Two snapshots show the same state and status, and versions of the context that differ by a
number. -/
structure Snapshot.MatchesUpTo (lag : Nat) (a b : Snapshot) : Prop extends a.Matches b where
  status_eq : a.status = b.status
  version_eq : a.version = b.version + lag

namespace Interpreter

variable {chart : Chart} {lag : Nat} {m m' : Interpreter} {s : Situation} {context : Context}
  {given : Json}

theorem matches_observe (hchart : m.chart = m'.chart) (hleaf : m.leaf = m'.leaf)
    (hcontext : Entries.Agrees m.context m'.context) (hhistory : m.history = m'.history) :
    m.observe.Matches m'.observe := by
  have hpath : m.path = m'.path := by rw [path, path, hleaf, hchart]
  refine ⟨?_, hcontext, hhistory, ?_⟩
  · show m.path.map m.chart.keyAt = m'.path.map m'.chart.keyAt
    rw [hpath, hchart]
  · show m.chart.tagsOn m.path = m'.chart.tagsOn m'.path
    rw [hpath, hchart]

theorem Lockstep.observe (h : Lockstep chart lag m m') : m.observe.MatchesUpTo lag m'.observe :=
  ⟨matches_observe (h.chart_eq.trans h.chart_eq'.symm) h.leaf_eq h.alike.agrees h.history_eq,
    h.status_eq, h.version_eq⟩

/-- A run that does not go on ignores every event. -/
theorem run_of_not_running (calls : List Call) (h : m.status ≠ .running)
    (hshown : m.snapshot.isSome = true) : ∃ log, m.run calls = { m with log := log } := by
  induction calls generalizing m with
  | nil => exact ⟨m.log, rfl⟩
  | cons call rest ih =>
    obtain ⟨snapshot, hsnapshot⟩ := Option.isSome_iff_exists.mp hshown
    have hdispatch : m.dispatch call.now call.event = m.ignore call.now snapshot call.event
        m.status.word [.count "transition.absorbed" m.labels] := by
      rw [dispatch, hsnapshot]
      exact if_pos h
    obtain ⟨log, hlog⟩ := m.ignore_state call.now snapshot call.event m.status.word
      [.count "transition.absorbed" m.labels]
    rw [run, hdispatch, hlog]
    exact ih h hshown

/-- The run restored in a situation in which nothing is final is at rest. -/
theorem rests_resumed (hs : chart.Situated s) (hfinal : chart.kindAt? s.leaf ≠ some .final)
    (name : Option String) : (resumed chart s name).Rests chart s := by
  have hrunning : (resumed chart s name).status = .running :=
    Chart.restoredStatus_eq_running_iff.mpr fun h => hfinal h.1
  exact ⟨stands_resumed chart s name, hs,
    hrunning.trans (Chart.statusAt_eq_running.mpr hfinal).symm, rfl⟩

/-- A run that goes on is in lockstep with the one restored in its situation. -/
theorem Rests.lockstep (h : m.Rests chart s) (hrunning : m.status = .running) {fitted : Context}
    (halike : chart.Alike s.context fitted) (name : Option String) :
    Lockstep chart m.version m (resumed chart ⟨s.leaf, fitted, s.history⟩ name) := by
  have hfinal : chart.kindAt? s.leaf ≠ some .final :=
    Chart.statusAt_eq_running.mp (h.status_eq.symm.trans hrunning)
  have hstatus : (resumed chart ⟨s.leaf, fitted, s.history⟩ name).status = .running :=
    Chart.restoredStatus_eq_running_iff.mpr fun h => hfinal h.1
  refine ⟨h.chart_eq, rfl, h.leaf_eq, hrunning.trans hstatus.symm, h.history_eq,
    h.context_eq ▸ halike, (Nat.zero_add _).symm, ?_⟩
  rw [h.snapshot_eq]
  rfl

section Restored

variable (hbuilt : chart.Built) (hkeys : ∀ key ∈ Entries.keys chart.context, (key == key) = true)
  (hgiven : chart.fitGiven given = .ok context) (name name' : Option String) (calls : List Call)

include hbuilt hkeys hgiven

/-- A run that is started with a restorable context and sent events can be restored. -/
theorem exists_ofLayout (keeps : chart.Keeps chart.Restorable) :
    ∃ s fitted, ((started chart context name).run calls).Rests chart s ∧
      chart.Alike s.context fitted ∧
      ofLayout chart ((started chart context name).run calls).observe.layout name' =
        .ok (resumed chart ⟨s.leaf, fitted, s.history⟩ name') := by
  have schema := hbuilt.isMap_context hkeys
  obtain ⟨s₀, s, hbegins, hleads, hrests, hcontext⟩ := rests_run hbuilt.arena keeps context
    (Chart.restorable_of_fitGiven schema hgiven) name calls
  have hnodup := hbegins.nodup_keys hleads
  obtain ⟨fitted, halike, hlayout⟩ := hrests.ofLayout hbuilt.arena schema hcontext hnodup name'
  exact ⟨s, fitted, hrests, halike, hlayout⟩

/-- **Restoring a run that is done.** In a built chart whose actions do not fail on restorable
contexts and keep them so, a run that is done is restored from its snapshot at the same leaf in the
same state. It is done again, and ignores every event, where nothing is pending at the leaf; it goes
on where the completion of the parent is. -/
theorem run_restored_done (keeps : chart.Keeps chart.Restorable)
    (hdone : ((started chart context name).run calls).status = .done) :
    ∃ shown restored again leaf, ((started chart context name).run calls).snapshot = some shown ∧
      ((started chart context name).run calls).leaf = some leaf ∧
      ofLayout chart shown.layout name' = .ok restored ∧
      restored.leaf = some leaf ∧ restored.snapshot = some again ∧ shown.Matches again ∧
      (chart.doneTransition? leaf = none → restored.status = .done ∧
        ∀ more, ∃ log, restored.run more = { restored with log := log }) ∧
      (chart.doneTransition? leaf ≠ none → restored.status = .running) := by
  obtain ⟨s, fitted, hrests, halike, hlayout⟩ :=
    exists_ofLayout hbuilt hkeys hgiven name name' calls keeps
  generalize (started chart context name).run calls = m at hrests hlayout hdone
  have hfinal : chart.kindAt? s.leaf = some .final :=
    Chart.statusAt_eq_done.mp (hrests.status_eq.symm.trans hdone)
  refine ⟨m.observe, _, _, s.leaf, hrests.snapshot_eq, hrests.leaf_eq, hlayout, rfl, rfl, ?_,
    fun hnone => ?_, fun hpending => ?_⟩
  · exact matches_observe hrests.chart_eq hrests.leaf_eq (hrests.context_eq ▸ halike.agrees)
      hrests.history_eq
  · have hstatus : (resumed chart ⟨s.leaf, fitted, s.history⟩ name').status = .done :=
      Chart.restoredStatus_eq_done_iff.mpr ⟨hfinal, hnone⟩
    exact ⟨hstatus, fun more => run_of_not_running more (by rw [hstatus]; exact nofun) rfl⟩
  · exact Chart.restoredStatus_eq_running_iff.mpr fun h => hpending h.2

end Restored

set_option maxRecDepth 10000 in
/-- A lead that has reached its goal is restored done, and is not paused any more. -/
theorem run_restored_done_goal :
    Lead.chart.Built ∧ (∀ key ∈ Entries.keys Lead.chart.context, (key == key) = true) ∧
      Lead.chart.Keeps Lead.chart.Restorable ∧
      Lead.chart.fitGiven .null = .ok Lead.chart.context ∧
      ((started Lead.chart Lead.chart.context none).run [⟨.int 0, "goal.hit"⟩]).status = .done ∧
      ∃ shown restored, ((started Lead.chart Lead.chart.context none).run
          [⟨.int 0, "goal.hit"⟩]).snapshot = some shown ∧
        ofLayout Lead.chart shown.layout none = .ok restored ∧ restored.status = .done ∧
        (restored.run [⟨.int 0, "conversation.paused"⟩]).leaf = restored.leaf := by
  have hdone : ((started Lead.chart Lead.chart.context none).run
      [⟨.int 0, "goal.hit"⟩]).status = .done := by decide +kernel
  have hleaf : ((started Lead.chart Lead.chart.context none).run
      [⟨.int 0, "goal.hit"⟩]).leaf = some 15 := by decide +kernel
  have hnone : (Lead.chart.doneTransition? 15).isNone = true := by decide +kernel
  have keeps := Lead.chart_mapsContexts.keeps
  obtain ⟨shown, restored, again, leaf, hshown, hleaf', hrestored, -, -, -, hnothing, -⟩ :=
    run_restored_done Lead.chart_built Lead.refl_of_mem_context (Chart.fitGiven_null Lead.chart)
      none none _ keeps hdone
  obtain rfl := Option.some.inj (hleaf.symm.trans hleaf')
  obtain ⟨hstatus, hstays⟩ := hnothing (Option.isNone_iff_eq_none.mp hnone)
  obtain ⟨log, hrun⟩ := hstays [⟨.int 0, "conversation.paused"⟩]
  exact ⟨Lead.chart_built, Lead.refl_of_mem_context, keeps, Chart.fitGiven_null Lead.chart, hdone,
    shown, restored, hshown, hrestored, hstatus, by rw [hrun]⟩

set_option maxRecDepth 10000 in
/-- A run that is done at a leaf that has come up before is restored as one that goes on: an event
moves it that the run itself would ignore. -/
theorem restored_goes_on :
    pendulum.Built ∧ pendulum.Keeps pendulum.Restorable ∧
      pendulum.fitGiven .null = .ok pendulum.context ∧
      (started pendulum pendulum.context none).status = .done ∧
      ∃ shown restored, (started pendulum pendulum.context none).snapshot = some shown ∧
        ofLayout pendulum shown.layout none = .ok restored ∧ restored.status = .running ∧
        restored.leaf = some 2 ∧ (restored.run [⟨.int 0, "go"⟩]).leaf = some 5 := by
  have keeps : pendulum.MapsContexts := Chart.mapsContexts_of_isTyped (by decide +kernel)
  have hdone : (started pendulum pendulum.context none).status = .done := by decide +kernel
  have hrestored : ((started pendulum pendulum.context none).snapshot.bind fun shown =>
      (ofLayout pendulum shown.layout none).toOption).map (fun restored =>
        (restored.status, restored.leaf, (restored.run [⟨.int 0, "go"⟩]).leaf)) =
      some (.running, some 2, some 5) := by decide +kernel
  obtain ⟨restored, hrestored, heq⟩ := Option.map_eq_some_iff.mp hrestored
  obtain ⟨shown, hshown, hrestored⟩ := Option.bind_eq_some_iff.mp hrestored
  simp only [Prod.mk.injEq] at heq
  exact ⟨pendulum_built, keeps.keeps, Chart.fitGiven_null pendulum, hdone, shown, restored, hshown,
    eq_ok_of_toOption hrestored, heq⟩

end Interpreter

end Lifecycle
