import Lifecycle.Proofs.Interpreter.Failure
import Lifecycle.Proofs.Interpreter.Settling

/-!
# How long a run settles

Settling completes the parent of a final leaf and goes on from the leaf that this leads to. A
completion may lead back to a final leaf, from whatever branch, so neither depth nor order bounds
how often this happens; but no leaf is completed twice, and so there are at most as many completions
as there are final nodes whose parent declares one (`Chart.completing`). When settling is over the
run is at a leaf that is not final, or done, unless an action has failed (`settle_bounded`).
-/

namespace Lifecycle

namespace Chart

variable {chart : Chart} {s s' : Situation} {passages : List Passage} {leaf : Nat}

/-- The final nodes whose parent declares a completion. -/
def completing (chart : Chart) : List Nat :=
  (List.range chart.nodes.size).filter fun i =>
    chart.kindAt? i = some .final ∧
      ((chart.parent? i).bind chart.node?).any fun parent => parent.onDone.isSome

theorem mem_completing : leaf ∈ chart.completing ↔ chart.doneTransition? leaf ≠ none := by
  rw [completing, List.mem_filter, List.mem_range, doneTransition?]
  by_cases hfinal : chart.kindAt? leaf = some .final
  · obtain ⟨n, hn, -⟩ := exists_node_of_kindAt? hfinal
    have hlt : leaf < chart.nodes.size := (Array.getElem?_eq_some_iff.mp hn).1
    rcases (chart.parent? leaf).bind chart.node? with _ | parent
    · simp [hlt, hfinal]
    · simp [hlt, hfinal, Option.isSome_iff_ne_none]
  · simp [hfinal]

theorem Completes.subset_completing (h : chart.Completes s passages s') :
    passages.map Passage.leaf ⊆ chart.completing := by
  intro leaf hleaf
  obtain ⟨p, hp, rfl⟩ := List.mem_map.mp hleaf
  rw [mem_completing, h.done hp]
  exact Option.some_ne_none _

/-- Completions at different leaves are no more than there are nodes to be completed from. -/
theorem Completes.length_le (h : chart.Completes s passages s')
    (hdistinct : (passages.map Passage.leaf).Nodup) :
    passages.length ≤ chart.completing.length := by
  have hle := hdistinct.length_le_of_subset h.subset_completing
  rwa [List.length_map] at hle

/-- They are fewer where one more is pending at another leaf. -/
theorem Completes.length_lt (h : chart.Completes s passages s')
    (hdistinct : (passages.map Passage.leaf).Nodup) (hleaf : s'.leaf ∉ passages.map Passage.leaf)
    (hpending : chart.doneTransition? s'.leaf ≠ none) :
    passages.length < chart.completing.length := by
  have hsub : s'.leaf :: passages.map Passage.leaf ⊆ chart.completing :=
    List.cons_subset.mpr ⟨mem_completing.mpr hpending, h.subset_completing⟩
  have hle := (List.nodup_cons.mpr ⟨hleaf, hdistinct⟩).length_le_of_subset hsub
  rwa [List.length_cons, List.length_map] at hle

end Chart

namespace Interpreter

variable {chart : Chart} {m : Interpreter} {s s' : Situation} {passages : List Passage}

/-- Settling is over and no action has failed: the run is at a leaf that is not final and has the
status that it had, or it is done. -/
structure Halts (m : Interpreter) (passages : List Passage) (s' : Situation) : Prop where
  result_eq : m.settle.result = .ok ()
  state_eq : m.settle.state = { m.taken passages with status := m.settle.state.status }
  ends : (m.chart.kindAt? s'.leaf ≠ some .final ∧ m.settle.state.status = m.status) ∨
    m.settle.state.status = .done

/-- Settling is over because an action has failed: at the final leaf that the run is at a completion
is pending, of which an action fails, and the status is the one that it had. -/
structure Fails (m : Interpreter) (passages : List Passage) (s' : Situation) (step : Microstep)
    (fault : Fault) : Prop where
  pending : m.chart.doneTransition? s'.leaf = some step.transition
  breaks : m.chart.Breaks s' step fault
  result_eq : m.settle.result = .error fault
  state_eq : m.settle.state =
    { m.taken passages with history := Entries.overlay s'.history step.history }
  status_eq : m.settle.state.status = m.status

theorem halts_of_settle {signals : List Signal} (h : m.settle =
    ⟨{ m.taken passages with status := m.settledStatus s'.leaf }, signals, .ok ()⟩) :
    m.Halts passages s' := by
  refine ⟨by rw [h], by rw [h], ?_⟩
  rw [h]
  show (_ ∧ m.settledStatus s'.leaf = m.status) ∨ m.settledStatus s'.leaf = .done
  unfold settledStatus
  by_cases hfinal : m.chart.kindAt? s'.leaf = some .final
  · exact .inr (if_pos hfinal)
  · exact .inl ⟨hfinal, if_neg hfinal⟩

theorem fails_of_stuck (h : m.Stuck m.chart passages s' m.settle) :
    ∃ step fault, m.Fails passages s' step fault := by
  obtain ⟨step, fault, hpending, hbreaks, hsettle⟩ := h
  obtain ⟨_, _, _, _, hframe⟩ := m.taken_frame passages
  exact ⟨step, fault, hpending, hbreaks, by rw [hsettle], by rw [hsettle], by
    rw [hsettle, hframe]⟩

/-- **How long a run settles.** From every leaf of a built chart, with every context and with
records that fit, settling takes at most as many completions as there are final nodes whose parent
declares one. Then it has halted, or it took fewer and an action of the next one has failed. -/
theorem settle_bounded (hbuilt : chart.Built) (hchart : m.chart = chart) {leaf : Nat}
    (hleaf : m.leaf = some leaf) (hisLeaf : chart.IsLeaf leaf) {records : Entries Json}
    (hrecords : chart.fitHistory records = .ok m.history) :
    ∃ passages s', chart.Completes ⟨leaf, m.context, m.history⟩ passages s' ∧
      chart.IsLeaf s'.leaf ∧ (m.taken passages).Stands chart s' ∧
      ((passages.length ≤ chart.completing.length ∧ m.Halts passages s') ∨
        (passages.length < chart.completing.length ∧
          ∃ step fault, m.Fails passages s' step fault)) := by
  obtain rfl := hchart
  have tree := hbuilt.arena
  have hsituated : m.chart.Situated ⟨leaf, m.context, m.history⟩ :=
    ⟨hisLeaf, Chart.fits_of_fitHistory tree hrecords⟩
  have hstands : m.Stands m.chart ⟨leaf, m.context, m.history⟩ := ⟨rfl, hleaf, rfl, rfl⟩
  obtain ⟨s', passages, -, hcompletes, hdistinct, -, hstands', hend⟩ :=
    hstands.settleFrom tree hsituated List.nodup_range
  refine ⟨passages, s', hcompletes,
    (tree.situated_of_leadsTo hsituated hcompletes.leadsTo).isLeaf, hstands', ?_⟩
  rcases hend with ⟨signals, hsettle, -⟩ | ⟨-, hnew, hstuck⟩
  · exact .inl ⟨hcompletes.length_le hdistinct, halts_of_settle hsettle⟩
  · obtain ⟨step, fault, hfails⟩ := fails_of_stuck hstuck
    have hpending : m.chart.doneTransition? s'.leaf ≠ none := by
      rw [hfails.pending]
      exact Option.some_ne_none _
    exact .inr ⟨hcompletes.length_lt hdistinct hnew hpending, step, fault, hfails⟩

/-- A run of a chart that has entered a leaf. -/
def entering (chart : Chart) (leaf : Nat) : Interpreter :=
  { fresh chart chart.context none with leaf := some leaf, status := .running }

set_option maxRecDepth 10000 in
/-- Completions that go to and fro are taken once from each of the two final leaves. -/
theorem settle_bounded_to_and_fro :
    pendulum.Built ∧ pendulum.IsLeaf 2 ∧ pendulum.fitHistory [] = .ok [] ∧
      pendulum.completing = [2, 4] ∧ ∃ passages s', pendulum.Completes ⟨2, [], []⟩ passages s' ∧
        passages.length ≤ 2 ∧ (entering pendulum 2).Halts passages s' ∧
        (entering pendulum 2).settle.state.status = .done := by
  have hisLeaf : pendulum.IsLeaf 2 := by decide +kernel
  have hrecords : pendulum.fitHistory [] = .ok (entering pendulum 2).history := rfl
  have hcompleting : pendulum.completing = [2, 4] := by decide +kernel
  have hcontext : pendulum.context = [] := List.isEmpty_iff.mp (by decide +kernel)
  have hdone : (entering pendulum 2).settle.state.status = .done := by decide +kernel
  obtain ⟨passages, s', hcompletes, -, -, ⟨hlength, hhalts⟩ | ⟨-, step, fault, hfails⟩⟩ :=
    settle_bounded (m := entering pendulum 2) pendulum_built rfl rfl hisLeaf hrecords
  · have hstart : (entering pendulum 2).context = [] := hcontext
    rw [hstart] at hcompletes
    rw [hcompleting] at hlength
    exact ⟨pendulum_built, hisLeaf, rfl, hcompleting, passages, s', hcompletes, hlength, hhalts,
      hdone⟩
  · rw [hfails.status_eq] at hdone
    cases hdone

set_option maxRecDepth 10000 in
/-- Where an action of a completion fails, settling is over at a final leaf, and the run is not
done. -/
theorem settle_broken :
    brittle.Built ∧ brittle.IsLeaf 3 ∧ brittle.fitHistory [] = .ok [] ∧
      (entering brittle 3).settle.state.leaf = some 3 ∧ brittle.kindAt? 3 = some .final ∧
      (entering brittle 3).settle.state.status = .running :=
  ⟨brittle_built, by decide +kernel, rfl, by decide +kernel⟩

end Interpreter

end Lifecycle
