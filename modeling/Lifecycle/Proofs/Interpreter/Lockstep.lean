import Lifecycle.Proofs.Interpreter.Resumption

/-!
# Runs in lockstep

What a run does next depends on its leaf, its status, its records and the values of its context,
and on nothing else. So two runs that agree in these (`Lockstep`) go on agreeing: each operation
preserves it, from one microstep (`Lockstep.take`) over settling (`Lockstep.settleFrom`) to one
event (`Lockstep.dispatch`) and any number of events (`Lockstep.run`). Their versions stay apart by
the same number.
-/

namespace Lifecycle.Interpreter

variable {chart : Chart} {lag : Nat} {m m' : Interpreter} {c c' : Context} {step : Microstep}
  {leaf : Nat} {t : Transition}

/-- Two runs agree in everything that determines how they go on; the contexts as mappings, the
versions up to a number. -/
structure Lockstep (chart : Chart) (lag : Nat) (m m' : Interpreter) : Prop where
  chart_eq : m.chart = chart
  chart_eq' : m'.chart = chart
  leaf_eq : m.leaf = m'.leaf
  status_eq : m.status = m'.status
  history_eq : m.history = m'.history
  alike : chart.Alike m.context m'.context
  version_eq : m.version = m'.version + lag
  shown_eq : m.snapshot.isSome = m'.snapshot.isSome

theorem transition_of_resolve {history : Entries String}
    (h : chart.resolve leaf t history = .ok step) : step.transition = t := by
  unfold Chart.resolve at h
  split at h
  · cases h; rfl
  · dsimp only at h
    split at h
    · cases h
    · split at h <;> cases h
      rfl

namespace Lockstep

theorem withLeaf (h : Lockstep chart lag m m') (leaf : Option Nat) :
    Lockstep chart lag { m with leaf := leaf } { m' with leaf := leaf } :=
  ⟨h.chart_eq, h.chart_eq', rfl, h.status_eq, h.history_eq, h.alike, h.version_eq, h.shown_eq⟩

theorem withLog (h : Lockstep chart lag m m') (log log' : List Record) :
    Lockstep chart lag { m with log := log } { m' with log := log' } :=
  ⟨h.chart_eq, h.chart_eq', h.leaf_eq, h.status_eq, h.history_eq, h.alike, h.version_eq,
    h.shown_eq⟩

theorem publish (h : Lockstep chart lag m m') : Lockstep chart lag m.publish m'.publish :=
  ⟨h.chart_eq, h.chart_eq', h.leaf_eq, h.status_eq, h.history_eq, h.alike, h.version_eq, rfl⟩

theorem adopt (h : Lockstep chart lag m m') (hc : chart.Alike c c') :
    Lockstep chart lag (m.adopt c) (m'.adopt c') := by
  have hsame : c.same m.context = c'.same m'.context :=
    Context.same_congr hc.left.isMap hc.right.isMap h.alike.left.isMap h.alike.right.isMap
      hc.agrees h.alike.agrees
  unfold Interpreter.adopt
  rw [hsame]
  split
  · exact h
  · refine ⟨h.chart_eq, h.chart_eq', h.leaf_eq, h.status_eq, h.history_eq, hc, ?_, h.shown_eq⟩
    have := h.version_eq
    dsimp only
    omega

theorem take (h : Lockstep chart lag m m')
    (hactions : ∀ a ∈ chart.stepActions step, a.Maps chart.Alike) :
    ∃ next next', m.take step = (next, none) ∧ m'.take step = (next', none) ∧
      Lockstep chart lag next next' := by
  obtain ⟨c, c', hc, hc', halike⟩ := Action.runAll_maps hactions h.alike
  rw [← h.chart_eq] at hc
  rw [← h.chart_eq'] at hc'
  have hrecorded : Lockstep chart lag
      { m with history := Entries.overlay m.history step.history }
      { m' with history := Entries.overlay m'.history step.history } :=
    ⟨h.chart_eq, h.chart_eq', h.leaf_eq, h.status_eq, by rw [h.history_eq], h.alike, h.version_eq,
      h.shown_eq⟩
  unfold Interpreter.take
  rw [hc, hc']
  exact ⟨_, _, rfl, rfl, (hrecorded.adopt halike).withLeaf (some step.leaf)⟩

theorem ignore (h : Lockstep chart lag m m') (now : Json) (snapshot snapshot' : Snapshot)
    (event reason reason' : String) (signals signals' : List Signal) :
    Lockstep chart lag (m.ignore now snapshot event reason signals).state
      (m'.ignore now snapshot' event reason' signals').state := by
  unfold Interpreter.ignore
  rcases Record.stamp now with fault | time
  · exact h
  · exact h.withLog _ _

section Actions

variable (tree : chart.Arena) (maps : chart.MapsContexts)

include maps

theorem follow (h : Lockstep chart lag m m') (leaf : Nat) (ht : chart.Declares t) :
    ∃ fault next next', m.follow leaf t = (next, fault) ∧ m'.follow leaf t = (next', fault) ∧
      Lockstep chart lag next next' := by
  unfold Interpreter.follow
  rw [h.chart_eq, h.chart_eq', h.history_eq]
  rcases hstep : chart.resolve leaf t m'.history with fault | step
  · exact ⟨some fault, m, m', rfl, rfl, h⟩
  · have hactions : ∀ a ∈ chart.stepActions step, a.Maps chart.Alike := by
      intro a ha
      refine maps a (Chart.hasAction_of_stepActions ?_ ha)
      rwa [transition_of_resolve hstep]
    exact ⟨none, h.take hactions⟩

include tree

theorem settleFrom (h : Lockstep chart lag m m') (unseen : List Nat) :
    (m.settleFrom unseen).result = (m'.settleFrom unseen).result ∧
      Lockstep chart lag (m.settleFrom unseen).state (m'.settleFrom unseen).state := by
  induction hlength : unseen.length using Nat.strongRecOn generalizing unseen m m' with
  | _ length ih =>
    rw [Interpreter.settleFrom, Interpreter.settleFrom, h.chart_eq, h.chart_eq', ← h.leaf_eq]
    rcases hleaf : m.leaf with _ | leaf
    · exact ⟨rfl, h⟩
    · have hdone : Lockstep chart lag
          { m with chart := chart, leaf := some leaf, status := .done }
          { m' with chart := chart, leaf := some leaf, status := .done } :=
        ⟨rfl, rfl, rfl, rfl, h.history_eq, h.alike, h.version_eq, h.shown_eq⟩
      dsimp only
      split
      · split
        · exact ⟨rfl, hdone⟩
        · rename_i t ht
          split
          · rename_i hmem
            have hlt : (unseen.erase leaf).length < length :=
              ((List.length_erase_add_one hmem).trans hlength).le
            obtain ⟨fault, next, next', hfollow, hfollow', hnext⟩ :=
              h.follow maps leaf (tree.declares_of_doneTransition? ht).2.1
            rw [hfollow, hfollow']
            rcases fault with _ | fault
            · exact ih _ hlt hnext (unseen.erase leaf) rfl
            · exact ⟨rfl, hnext⟩
          · exact ⟨rfl, hdone⟩
      · exact ⟨rfl, h⟩

theorem react (h : Lockstep chart lag m m') (ht : chart.Declares t) (now : Json)
    (snapshot snapshot' : Snapshot) (event : String) :
    Lockstep chart lag (m.react now snapshot event leaf t).state
      (m'.react now snapshot' event leaf t).state := by
  obtain ⟨fault, next, next', hfollow, hfollow', hnext⟩ := h.follow maps leaf ht
  unfold Interpreter.react
  rw [hfollow, hfollow']
  rcases fault with _ | fault
  · have hsize : List.range next.chart.nodes.size = List.range next'.chart.nodes.size := by
      rw [hnext.chart_eq, hnext.chart_eq']
    obtain ⟨hresult, hsettled⟩ := hnext.settleFrom tree maps (List.range next.chart.nodes.size)
    rw [← settle, hsize, ← settle] at hresult hsettled
    dsimp only at hsettled ⊢
    rw [← hresult]
    rcases next.settle.result with fault | _
    · exact hsettled
    · rcases Record.stamp now with fault | time
      · exact hsettled.publish
      · exact hsettled.publish.withLog _ _
  · exact hnext

/-- An event does the same to both runs. -/
theorem dispatch (h : Lockstep chart lag m m') (now : Json) (event : String) :
    Lockstep chart lag (m.dispatch now event).state (m'.dispatch now event).state := by
  have hshown := h.shown_eq
  have hunknown : m.isUnknown event = m'.isUnknown event := by
    rw [isUnknown, isUnknown, h.chart_eq, h.chart_eq']
  have hhandler : m.handler? event = m'.handler? event := by
    rw [handler?, handler?, h.chart_eq, h.chart_eq', h.leaf_eq]
  unfold Interpreter.dispatch
  rcases hsnapshot : m.snapshot with _ | snapshot <;>
    rcases hsnapshot' : m'.snapshot with _ | snapshot' <;> rw [hsnapshot, hsnapshot'] at hshown
  · exact h
  · cases hshown
  · cases hshown
  · dsimp only
    rw [h.status_eq, hunknown, hhandler]
    split
    · exact h.ignore ..
    · split
      · exact h.ignore ..
      · split
        · exact h.ignore ..
        · rename_i leaf t ht
          obtain ⟨leaf', -, ht⟩ := Option.bind_eq_some_iff.mp ht
          obtain ⟨t', ht, heq⟩ := Option.map_eq_some_iff.mp ht
          cases heq
          rw [h.chart_eq'] at ht
          exact h.react tree maps (tree.declares_of_findTransition? ht).1 now snapshot snapshot'
            event

/-- Events do the same to both runs. -/
theorem run (h : Lockstep chart lag m m') (calls : List Call) :
    Lockstep chart lag (m.run calls) (m'.run calls) := by
  induction calls generalizing m m' with
  | nil => exact h
  | cons call rest ih => exact ih (h.dispatch tree maps call.now call.event)

end Actions

end Lockstep

end Lifecycle.Interpreter
