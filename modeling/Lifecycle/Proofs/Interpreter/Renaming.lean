import Lifecycle.Proofs.Interpreter.Passages
import Lifecycle.Proofs.Microstep.Renaming

/-!
# Runs of renamed charts

Two runs of charts that differ in the indices of their nodes may be the same run but for these
indices (`Interpreter.Renamed`). Then each operation leaves them so and has the same result, from
one microstep (`Renamed.take`) over settling (`Renamed.settleFrom`) to one event
(`Renamed.dispatch`) and any number of events (`Renamed.run`). What a run shows names nodes by keys
and ids, so the two show the same (`Renamed.observe_eq`), and what is shown of one restores the
other (`resume_rename`).
-/

namespace Lifecycle.Interpreter

variable {σ : Equiv.Perm Nat} {chart chart' : Chart} {m m' : Interpreter}

/-- The run with its nodes renamed, as a run of another chart. -/
def rename (σ : Nat → Nat) (chart' : Chart) (m : Interpreter) : Interpreter :=
  { m with chart := chart', leaf := m.leaf.map σ }

/-- One run is the other with its nodes renamed. -/
structure Renamed (σ : Equiv.Perm Nat) (chart chart' : Chart) (m m' : Interpreter) : Prop where
  chart_eq : m.chart = chart
  eq : m' = m.rename σ chart'

theorem renamed_fresh (names : chart.Renames σ chart') (context : Context)
    (name : Option String) :
    Renamed σ chart chart' (fresh chart context name) (fresh chart' context name) := by
  refine ⟨rfl, ?_⟩
  simp only [fresh, rename, names.id_eq, Option.map_none]

namespace Renamed

variable (names : chart.Renames σ chart') (h : Renamed σ chart chart' m m')

/-! ## One microstep -/

include h

theorem withLeaf {leaf leaf' : Option Nat} (heq : leaf' = leaf.map σ) :
    Renamed σ chart chart' { m with leaf := leaf } { m' with leaf := leaf' } := by
  obtain ⟨rfl, rfl⟩ := h
  rw [heq]
  exact ⟨rfl, rfl⟩

theorem withStatus (status : Status) :
    Renamed σ chart chart' { m with status := status } { m' with status := status } := by
  obtain ⟨rfl, rfl⟩ := h
  exact ⟨rfl, rfl⟩

theorem withLog (log : List Record) :
    Renamed σ chart chart' { m with log := log } { m' with log := log } := by
  obtain ⟨rfl, rfl⟩ := h
  exact ⟨rfl, rfl⟩

theorem withHistory (history : Entries String) :
    Renamed σ chart chart' { m with history := history } { m' with history := history } := by
  obtain ⟨rfl, rfl⟩ := h
  exact ⟨rfl, rfl⟩

theorem adopt (context : Context) :
    Renamed σ chart chart' (m.adopt context) (m'.adopt context) := by
  obtain ⟨rfl, rfl⟩ := h
  unfold Interpreter.adopt
  rw [show (m.rename σ chart').context = m.context from rfl]
  split <;> exact ⟨rfl, rfl⟩

include names

theorem take (step : Microstep) : ∃ fault next next', m.take step = (next, fault) ∧
    m'.take (step.rename σ) = (next', fault) ∧ Renamed σ chart chart' next next' := by
  obtain ⟨rfl, rfl⟩ := h
  have hactions : chart'.stepActions (step.rename σ) = m.chart.stepActions step :=
    names.stepActions_eq step
  have hrecorded : Renamed σ m.chart chart'
      { m with history := Entries.overlay m.history step.history }
      { m.rename σ chart' with history := Entries.overlay m.history step.history } := ⟨rfl, rfl⟩
  simp only [Interpreter.take, rename, hactions]
  rcases Action.runAll (m.chart.stepActions step) m.context with fault | context
  · exact ⟨some fault, _, _, rfl, rfl, hrecorded⟩
  · exact ⟨none, _, _, rfl, rfl, (hrecorded.adopt context).withLeaf rfl⟩

section Arena

variable (tree : chart.Arena) (tree' : chart'.Arena)

include tree tree'

theorem path_eq : m'.path = m.path.map σ := by
  obtain ⟨rfl, rfl⟩ := h
  unfold path
  rcases hleaf : m.leaf with _ | leaf
  · simp [rename, hleaf]
  · simp only [rename, hleaf, Option.map_some, Option.getD_some]
    exact names.pathTo_eq tree tree' leaf

/-- Both runs show the same. -/
theorem observe_eq : m'.observe = m.observe := by
  have hpath := h.path_eq names tree tree'
  obtain ⟨rfl, rfl⟩ := h
  unfold observe
  rw [hpath, List.map_map]
  have hkeys : (m.rename σ chart').chart.keyAt ∘ σ = m.chart.keyAt := funext names.keyAt_eq
  rw [hkeys, show (m.rename σ chart').chart = chart' from rfl, names.tagsOn_eq]
  rfl

theorem publish : Renamed σ chart chart' m.publish m'.publish := by
  have hobserve := h.observe_eq names tree tree'
  obtain ⟨rfl, rfl⟩ := h
  refine ⟨rfl, ?_⟩
  rw [Interpreter.publish, hobserve]
  rfl

theorem follow (leaf : Nat) {t : Transition} (ht : chart.Declares t) :
    ∃ fault next next', m.follow leaf t = (next, fault) ∧
      m'.follow (σ leaf) (t.rename σ) = (next', fault) ∧ Renamed σ chart chart' next next' := by
  have hhistory : m'.history = m.history := by rw [h.eq]; rfl
  have hchart : m'.chart = chart' := by rw [h.eq]; rfl
  have htarget : ∀ target, t.target = some target → ∃ n, chart.node? target = some n := by
    intro target htarget
    obtain ⟨p, hparent⟩ := tree.exists_parent?_of_declares ht htarget
    obtain ⟨n, hn, -⟩ := Chart.exists_node_of_parent? hparent
    exact ⟨n, hn⟩
  unfold Interpreter.follow
  rw [h.chart_eq, hchart, hhistory, names.resolve_eq tree tree' leaf htarget]
  rcases chart.resolve leaf t m.history with fault | step
  · exact ⟨some fault, m, m', rfl, rfl, h⟩
  · exact h.take names step

/-! ## Settling -/

theorem settleFrom {unseen unseen' : List Nat} (hunseen : unseen'.Perm (unseen.map σ)) :
    (m'.settleFrom unseen').result = (m.settleFrom unseen).result ∧
      Renamed σ chart chart' (m.settleFrom unseen).state (m'.settleFrom unseen').state := by
  induction hlength : unseen.length using Nat.strongRecOn generalizing unseen unseen' m m' with
  | _ length ih =>
    have hchart : m'.chart = chart' := by rw [h.eq]; rfl
    have hleaf' : m'.leaf = m.leaf.map σ := by rw [h.eq]; rfl
    rw [Interpreter.settleFrom, Interpreter.settleFrom, h.chart_eq, hchart, hleaf']
    rcases hleaf : m.leaf with _ | leaf
    · exact ⟨rfl, h⟩
    · have hdone : Renamed σ chart chart'
          { m with chart := chart, leaf := some leaf, status := .done }
          { m' with chart := chart', leaf := some (σ leaf), status := .done } :=
        ⟨rfl, by rw [h.eq]; rfl⟩
      simp only [Option.map_some, names.kindAt?_eq, names.doneTransition?_eq]
      split
      · rcases ht : chart.doneTransition? leaf with _ | t
        · exact ⟨rfl, hdone⟩
        · have hmem : σ leaf ∈ unseen' ↔ leaf ∈ unseen :=
            hunseen.mem_iff.trans (List.mem_map_of_injective σ.injective)
          simp only [Option.map_some, hmem]
          split
          · rename_i hnew
            have hlt : (unseen.erase leaf).length < length :=
              ((List.length_erase_add_one hnew).trans hlength).le
            have herase : (unseen'.erase (σ leaf)).Perm ((unseen.erase leaf).map σ) := by
              rw [List.map_erase σ.injective]
              exact hunseen.erase (σ leaf)
            obtain ⟨fault, next, next', hfollow, hfollow', hnext⟩ :=
              h.follow names tree tree' leaf (tree.declares_of_doneTransition? ht).2.1
            rw [hfollow, hfollow']
            rcases fault with _ | fault
            · exact ih _ hlt hnext herase rfl
            · exact ⟨rfl, hnext⟩
          · exact ⟨rfl, hdone⟩
      · exact ⟨rfl, h⟩

theorem settle : m'.settle.result = m.settle.result ∧
    Renamed σ chart chart' m.settle.state m'.settle.state := by
  have hunseen : (List.range m'.chart.nodes.size).Perm
      ((List.range m.chart.nodes.size).map σ) := by
    rw [h.chart_eq, h.eq]
    exact names.range_perm
  exact h.settleFrom names tree tree' hunseen

/-! ## Operations -/

theorem start : m'.start.result = m.start.result ∧
    Renamed σ chart chart' m.start.state m'.start.state := by
  have hactions : initialActions m'.chart = initialActions m.chart := by
    rw [h.chart_eq, h.eq, rename, initialActions, initialActions, names.initialPath_eq tree tree',
      List.flatMap_map]
    exact congrArg (List.flatMap · _) (funext names.entryOf_eq)
  have hcontext : m'.context = m.context := by rw [h.eq]; rfl
  have hstatus : m'.status = m.status := by rw [h.eq]; rfl
  have hleaf : m'.chart.initialPath.getLast? = (m.chart.initialPath.getLast?).map σ := by
    rw [h.chart_eq, h.eq, rename, names.initialPath_eq tree tree', List.getLast?_map]
  have hshown : m'.shown = m.shown := by rw [h.eq]; rfl
  unfold Interpreter.start
  rw [hactions, hcontext, hstatus, hshown]
  split
  · exact ⟨rfl, h⟩
  · rcases Action.runAll (initialActions m.chart) m.context with fault | context
    · exact ⟨rfl, h⟩
    · obtain ⟨hresult, hsettled⟩ :=
        (((h.adopt context).withLeaf hleaf).withStatus .running).settle names tree tree'
      dsimp only at hresult hsettled ⊢
      rw [hresult]
      split
      · exact ⟨rfl, hsettled⟩
      · have hpublished := hsettled.publish names tree tree'
        exact ⟨congrArg Except.ok (hpublished.observe_eq names tree tree'), hpublished⟩

omit names tree tree' in
theorem ignore (now : Json) (snapshot : Snapshot) (event reason : String)
    (signals signals' : List Signal) :
    (m'.ignore now snapshot event reason signals').result =
        (m.ignore now snapshot event reason signals).result ∧
      Renamed σ chart chart' (m.ignore now snapshot event reason signals).state
        (m'.ignore now snapshot event reason signals').state := by
  have hlog : m'.log = m.log := by rw [h.eq]; rfl
  unfold Interpreter.ignore
  rcases Record.stamp now with fault | time
  · exact ⟨rfl, h⟩
  · rw [hlog]
    exact ⟨rfl, h.withLog _⟩

theorem react (now : Json) (snapshot : Snapshot) (event : String) (leaf : Nat) {t : Transition}
    (ht : chart.Declares t) :
    (m'.react now snapshot event (σ leaf) (t.rename σ)).result =
        (m.react now snapshot event leaf t).result ∧
      Renamed σ chart chart' (m.react now snapshot event leaf t).state
        (m'.react now snapshot event (σ leaf) (t.rename σ)).state := by
  have hversion : m'.version = m.version := by rw [h.eq]; rfl
  obtain ⟨fault, next, next', hfollow, hfollow', hnext⟩ := h.follow names tree tree' leaf ht
  unfold Interpreter.react
  rw [hfollow, hfollow', hversion]
  rcases fault with _ | fault
  · obtain ⟨hresult, hsettled⟩ := hnext.settle names tree tree'
    dsimp only
    rw [hresult]
    rcases next.settle.result with fault | _
    · exact ⟨rfl, hsettled⟩
    · have hshown := hsettled.publish names tree tree'
      rcases Record.stamp now with fault | time
      · exact ⟨rfl, hshown⟩
      · have hobserve := hshown.observe_eq names tree tree'
        have hlog : next'.settle.state.publish.log = next.settle.state.publish.log := by
          rw [hshown.eq]; rfl
        have hafter : next'.settle.state.publish.version = next.settle.state.publish.version := by
          rw [hshown.eq]; rfl
        constructor
        · dsimp only
          rw [hobserve, hafter]
        · dsimp only
          rw [hobserve, hlog]
          exact hshown.withLog _
  · exact ⟨rfl, hnext⟩

/-- An event does the same to both runs. -/
theorem dispatch (now : Json) (event : String) :
    (m'.dispatch now event).result = (m.dispatch now event).result ∧
      Renamed σ chart chart' (m.dispatch now event).state (m'.dispatch now event).state := by
  have hsnapshot : m'.snapshot = m.snapshot := by rw [h.eq]; rfl
  have hstatus : m'.status = m.status := by rw [h.eq]; rfl
  have hname : m'.name = m.name := by rw [h.eq]; rfl
  have hunknown : m'.isUnknown event = m.isUnknown event := by
    rw [isUnknown, isUnknown, h.chart_eq, h.eq, rename, names.events_eq]
  have hhandler : m'.handler? event =
      (m.handler? event).map fun found => (σ found.1, found.2.rename σ) := by
    rw [handler?, handler?, h.chart_eq, h.eq, rename]
    rcases m.leaf with _ | leaf
    · rfl
    · simp only [Option.map_some, Option.bind_some, names.findTransition?_eq tree tree',
        Option.map_map]
      rfl
  unfold Interpreter.dispatch
  rw [hsnapshot, hstatus, hunknown, hhandler]
  rcases m.snapshot with _ | snapshot
  · exact ⟨by rw [hname], h⟩
  · dsimp only
    split
    · exact h.ignore ..
    · split
      · exact h.ignore ..
      · rcases hfound : m.handler? event with _ | ⟨leaf, t⟩
        · exact h.ignore ..
        · obtain ⟨leaf', -, hfound⟩ := Option.bind_eq_some_iff.mp hfound
          obtain ⟨t', ht, heq⟩ := Option.map_eq_some_iff.mp hfound
          cases heq
          rw [h.chart_eq] at ht
          exact h.react names tree tree' now snapshot event leaf
            (tree.declares_of_findTransition? ht).1

/-- Events do the same to both runs. -/
theorem run (calls : List Call) : Renamed σ chart chart' (m.run calls) (m'.run calls) := by
  induction calls generalizing m m' with
  | nil => exact h
  | cons call rest ih => exact ih (h.dispatch names tree tree' call.now call.event).2

end Arena

end Renamed

/-- Restoring under one chart is restoring under the other, with the nodes renamed. -/
theorem resume_rename (names : chart.Renames σ chart') (tree : chart.Arena)
    (tree' : chart'.Arena) (path : Json) (history : Entries Json) (context : Context)
    (name : Option String) : resume chart' path history context name =
      (resume chart path history context name).map (rename σ chart') := by
  unfold resume
  rw [names.leafOf_eq tree tree', names.fitHistory_eq tree tree', names.fitContext_eq]
  rcases chart.leafOf path with error | leaf
  · rfl
  · rcases chart.fitHistory history with error | history
    · rfl
    · rcases chart.fitContext context with error | context
      · rfl
      · have hdone : (chart'.doneTransition? (σ leaf)).isNone =
            (chart.doneTransition? leaf).isNone := by
          rw [names.doneTransition?_eq, Option.isNone_map]
        let status :=
          if chart.kindAt? leaf = some .final ∧ (chart.doneTransition? leaf).isNone then
            Status.done
          else Status.running
        have hrun : Renamed σ chart chart'
            { fresh chart context name with
              leaf := some leaf, history := history, status := status }
            { fresh chart' context name with
              leaf := some (σ leaf), history := history, status := status } :=
          (((renamed_fresh names context name).withLeaf rfl).withStatus status).withHistory history
        simp only [bind, Except.bind, pure, Except.pure, Except.map, names.kindAt?_eq, hdone]
        exact congrArg Except.ok (hrun.publish names tree tree').eq

end Lifecycle.Interpreter
