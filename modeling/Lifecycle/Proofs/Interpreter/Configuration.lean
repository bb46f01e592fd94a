import Lifecycle.Proofs.Interpreter.Course
import Lifecycle.Proofs.Lead.Chart

/-!
# The configuration of a run

Between two calls a run is in a coherent state (`Coherent`): its active path leads from the root to
an atomic or final leaf past no history node, its status goes with that leaf, and the snapshot shows
just that state. This holds of every run at rest (`Rests.coherent`), hence between all calls.
-/

namespace Lifecycle

theorem Chart.mem_tagsOn (chart : Chart) {path : List Nat} {tag : String} :
    tag ∈ chart.tagsOn path ↔ ∃ i ∈ path, ∃ n, chart.node? i = some n ∧ tag ∈ n.tags := by
  rw [tagsOn, List.mem_eraseDups, List.mem_flatMap]
  refine exists_congr fun i => and_congr_right fun _ => ?_
  rcases chart.node? i with _ | n <;> simp

/-- A snapshot agrees with the state of a run; it has the tags of the nodes on the active path. -/
structure Snapshot.Agrees (snapshot : Snapshot) (m : Interpreter) : Prop where
  path_eq : snapshot.path = m.path.map m.chart.keyAt
  context_eq : snapshot.context = m.context
  history_eq : snapshot.history = m.history
  status_eq : snapshot.status = m.status
  version_eq : snapshot.version = m.version
  mem_tags {tag : String} :
    tag ∈ snapshot.tags ↔ ∃ i ∈ m.path, ∃ n, m.chart.node? i = some n ∧ tag ∈ n.tags

namespace Interpreter

/-- A run of a chart is in a coherent state with a leaf. -/
structure Coherent (m : Interpreter) (chart : Chart) (leaf : Nat) : Prop where
  chart_eq : m.chart = chart
  leaf_eq : m.leaf = some leaf
  path_eq : m.path = chart.pathTo leaf
  root : m.path.head? = some 0
  chain : m.path.IsChain fun p c => chart.parent? c = some p
  ends : m.path.getLast? = some leaf
  states : ∀ i ∈ m.path, chart.isHistory i = false
  kind : chart.kindAt? leaf = some .atomic ∨ chart.kindAt? leaf = some .final
  status : m.status = .running ∨ m.status = .done
  running : m.status = .running → chart.kindAt? leaf = some .atomic
  done : m.status = .done → chart.kindAt? leaf = some .final
  shown : ∃ snapshot, m.snapshot = some snapshot ∧ snapshot.Agrees m

variable {m : Interpreter} {chart : Chart} {s : Situation}

/-- The state shown agrees with the state of the run. -/
theorem agrees_observe (m : Interpreter) : m.observe.Agrees m :=
  ⟨rfl, rfl, rfl, rfl, rfl, Chart.mem_tagsOn m.chart⟩

/-- A run at rest is coherent. -/
theorem Rests.coherent (tree : chart.Arena) (h : m.Rests chart s) : m.Coherent chart s.leaf := by
  obtain ⟨n, hn⟩ := h.situated.isLeaf.exists_node
  have hpath := h.toStands.path_eq
  have hkind := Chart.isLeaf_iff.mp h.situated.isLeaf
  exact {
    chart_eq := h.chart_eq
    leaf_eq := h.leaf_eq
    path_eq := hpath
    root := by rw [hpath, tree.head?_pathTo hn]
    chain := hpath ▸ Chart.isChain_pathTo chart s.leaf
    ends := by rw [hpath, Chart.getLast?_pathTo]
    states := by
      intro i hi
      rw [hpath, Chart.mem_pathTo] at hi
      exact tree.isHistory_of_mem_ancestors h.situated.isLeaf hi
    kind := hkind
    status := by
      rw [h.status_eq, Chart.statusAt_eq_running, Chart.statusAt_eq_done]
      exact (em _).symm
    running := by
      intro hstatus
      rw [h.status_eq] at hstatus
      exact hkind.resolve_right (Chart.statusAt_eq_running.mp hstatus)
    done := by
      intro hstatus
      rw [h.status_eq] at hstatus
      exact Chart.statusAt_eq_done.mp hstatus
    shown := ⟨m.observe, h.snapshot_eq, m.agrees_observe⟩ }

/-- **Coherence of every run.** In a built chart whose actions never fail the start and every event
succeed, and after any calls the run is in a coherent state. -/
theorem run_coherent (hbuilt : chart.Built) (htotal : chart.NeverFails) (context : Context)
    (name : Option String) (calls : List Call) :
    Shows (fresh chart context name).start id ∧
      (∃ leaf, ((started chart context name).run calls).Coherent chart leaf) ∧
      ∀ now event time, Record.stamp now = .ok time →
        Shows (((started chart context name).run calls).dispatch now event) Verdict.snapshot := by
  have tree := hbuilt.arena
  obtain ⟨hstart, -⟩ := start_spec tree htotal context name
  obtain ⟨-, s, -, -, hrests⟩ := isCourse_run tree htotal context name calls
  refine ⟨hstart, ⟨s.leaf, hrests.coherent tree⟩, fun now event time htime => ?_⟩
  obtain ⟨-, -, hshows, -⟩ := hrests.dispatch tree htotal now event
  exact hshows time htime

set_option maxRecDepth 10000 in
/-- A lead is coherent when it is paused and an event is sent that it does not know. -/
theorem run_coherent_paused :
    Lead.chart.Built ∧ Lead.chart.NeverFails ∧
      ((started Lead.chart [] none).run [⟨.int 0, "meeting.booked"⟩,
        ⟨.int 0, "conversation.paused"⟩, ⟨.int 0, "nonsense"⟩]).Coherent Lead.chart 17 := by
  obtain ⟨-, ⟨leaf, hcoherent⟩, -⟩ := run_coherent Lead.chart_built Lead.chart_neverFails [] none
    [⟨.int 0, "meeting.booked"⟩, ⟨.int 0, "conversation.paused"⟩, ⟨.int 0, "nonsense"⟩]
  have hleaf : ((started Lead.chart [] none).run [⟨.int 0, "meeting.booked"⟩,
      ⟨.int 0, "conversation.paused"⟩, ⟨.int 0, "nonsense"⟩]).leaf = some 17 := by decide +kernel
  obtain rfl := Option.some.inj (hcoherent.leaf_eq.symm.trans hleaf)
  exact ⟨Lead.chart_built, Lead.chart_neverFails, hcoherent⟩

end Interpreter

end Lifecycle
