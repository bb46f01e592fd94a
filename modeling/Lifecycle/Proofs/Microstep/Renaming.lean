import Lifecycle.Proofs.Chart.Renaming
import Lifecycle.Proofs.Microstep.Shift

/-!
# Microsteps of renamed charts

A microstep is computed from the tree alone, so the same transition has the same microstep in two
charts that differ in the indices of their nodes, with its nodes renamed
(`Chart.Renames.resolve_eq`). Its records name nodes by ids and keys, so they are the same, and its
actions are too.
-/

namespace Lifecycle

/-- The microstep with its nodes renamed. -/
def Microstep.rename (σ : Nat → Nat) (step : Microstep) : Microstep where
  transition := step.transition.rename σ
  domain := step.domain.map σ
  exited := step.exited.map σ
  entered := step.entered.map σ
  history := step.history
  leaf := σ step.leaf

namespace Chart

/-- The domain of a transition is above its target. -/
theorem Arena.domain_mem_ancestors {chart : Chart} (tree : chart.Arena) {source target : Nat}
    {n : Node} (hn : chart.node? target = some n) :
    chart.domain source target ∈ chart.ancestors target := by
  unfold domain
  split
  · rename_i hbelow
    exact (isBelow_iff.mp hbelow).1
  · rcases hfind : (chart.properAncestors source).find? (chart.isBelow target) with _ | a
    · exact tree.zero_mem_ancestors hn
    · exact (isBelow_iff.mp (List.find?_some hfind)).1

namespace Renames

variable {σ : Equiv.Perm Nat} {chart chart' : Chart} (h : Renames σ chart chart')

include h

theorem stepActions_eq (step : Microstep) :
    chart'.stepActions (step.rename σ) = chart.stepActions step := by
  have hexit := funext h.exitOf_eq
  have hentry := funext h.entryOf_eq
  simp only [stepActions, Microstep.rename, List.flatMap_map]
  exact congrArg₂ (fun exit entry => step.exited.flatMap exit ++ step.transition.actions
    ++ step.entered.flatMap entry) hexit hentry

section Arena

variable (tree : chart.Arena) (tree' : chart'.Arena)

include tree tree'

theorem domain_eq (source target : Nat) :
    chart'.domain (σ source) (σ target) = σ (chart.domain source target) := by
  have hbelow : chart'.isBelow (σ target) ∘ σ = chart.isBelow target :=
    funext (h.isBelow_eq tree tree' target)
  rw [domain, domain, h.isBelow_eq tree tree', h.properAncestors_eq tree tree', List.find?_map,
    hbelow]
  split
  · rfl
  · rcases (chart.properAncestors source).find? (chart.isBelow target) with _ | a
    · exact h.root.symm
    · rfl

theorem remembered_eq (i : Nat) (history : Entries String) :
    chart'.remembered (σ i) history = (chart.remembered i history).map σ := by
  rw [remembered, remembered, h.parent?_eq]
  rcases chart.parent? i with _ | p
  · rfl
  · rcases h.node?_cases p with ⟨hn, hn'⟩ | ⟨n, n', hn, hn', hr⟩
    · simp [hn, hn']
    · have hchild : (Entries.get? history n.id).bind (chart'.child? (σ n.index)) =
          ((Entries.get? history n.id).bind (chart.child? n.index)).map σ := by
        rw [Option.map_bind]
        exact congrArg _ (funext (h.child?_eq tree tree' n.index))
      simp only [Option.map_some, Option.bind_some, hn, hn', hr.id_eq, hr.index_eq, hchild,
        hr.initial_eq]
      rcases (Entries.get? history n.id).bind (chart.child? n.index) with _ | child <;> rfl

theorem enterAlong_eq (path : List Nat) (target : Nat) (history : Entries String) :
    chart'.enterAlong (path.map σ) (σ target) history =
      (chart.enterAlong path target history).map σ := by
  have hdirect : (path.map σ).filter (fun i => !chart'.isHistory i) =
      (path.filter fun i => !chart.isHistory i).map σ := by
    rw [List.filter_map]
    simp only [Function.comp_def, h.isHistory_eq]
  unfold enterAlong
  rw [hdirect, h.isHistory_eq, h.remembered_eq tree tree', h.descend_eq tree tree']
  split
  · rcases chart.remembered target history with _ | child
    · rfl
    · simp [h.descend_eq tree tree']
  · rw [List.map_append]

theorem initialPath_eq : chart'.initialPath = chart.initialPath.map σ := by
  have hpath := h.pathTo_eq tree tree' 0
  have henter := h.enterAlong_eq tree tree' (chart.pathTo 0) 0 []
  rw [h.root] at hpath henter
  rw [initialPath, initialPath, hpath, henter]

theorem dropWhile_pathTo_eq (leaf i : Nat) : (chart'.pathTo (σ leaf)).dropWhile (· ≠ σ i) =
    ((chart.pathTo leaf).dropWhile (· ≠ i)).map σ := by
  rw [h.pathTo_eq tree tree', List.dropWhile_map]
  simp only [Function.comp_def, ne_eq, σ.injective.eq_iff]

theorem enter_eq {d target : Nat} (hd : d ∈ chart.ancestors target) (history : Entries String) :
    chart'.enter (some (σ d)) (σ target) history =
      (chart.enter (some d) target history).map (List.map σ) := by
  have hcontains : (chart.pathTo target).contains d = true :=
    List.contains_iff_mem.mpr (mem_pathTo.mpr hd)
  have hcontains' : (chart'.pathTo (σ target)).contains (σ d) = true := by
    rw [h.pathTo_eq tree tree', List.contains_iff_mem]
    exact List.mem_map_of_mem (mem_pathTo.mpr hd)
  rw [enter, enter, if_pos hcontains, if_pos hcontains', h.dropWhile_pathTo_eq tree tree',
    ← List.map_drop, h.enterAlong_eq tree tree']
  rfl

theorem exitSet_eq (leaf d : Nat) :
    chart'.exitSet (σ leaf) (σ d) = (chart.exitSet leaf d).map σ := by
  rw [exitSet, exitSet, h.ancestors_eq tree tree', List.filter_map]
  simp only [Function.comp_def, h.isBelow_eq tree tree']

theorem next?_eq (leaf i : Nat) :
    chart'.next? (σ leaf) (σ i) = (chart.next? leaf i).map σ := by
  rw [next?, next?, h.dropWhile_pathTo_eq tree tree', List.getElem?_map]

theorem recordsOf_eq (leaf : Nat) (nodes : List Nat) :
    chart'.recordsOf (σ leaf) (nodes.map σ) = chart.recordsOf leaf nodes := by
  induction nodes with
  | nil => rfl
  | cons i rest ih =>
    rw [List.map_cons, recordsOf, recordsOf, ih]
    rcases h.node?_cases i with ⟨hn, hn'⟩ | ⟨n, n', hn, hn', hr⟩
    · simp only [hn, hn']
    · simp only [hn, hn', hr.kind_eq, hr.history_eq, Option.isSome_map, hr.id_eq,
        h.next?_eq tree tree']
      rcases chart.next? leaf i with _ | child
      · rfl
      · simp only [Option.map_some, h.keyAt_eq]

/-- A transition whose target is a node has the same microstep, with its nodes renamed. -/
theorem resolve_eq (leaf : Nat) {t : Transition}
    (ht : ∀ target, t.target = some target → ∃ n, chart.node? target = some n)
    (history : Entries String) : chart'.resolve (σ leaf) (t.rename σ) history =
      (chart.resolve leaf t history).map (Microstep.rename σ) := by
  unfold resolve
  rcases htarget : t.target with _ | target
  · simp only [Transition.rename, htarget, Option.map_none, Except.map, Microstep.rename,
      List.map_nil]
  · obtain ⟨n, hn⟩ := ht target htarget
    have habove : chart.domain t.source target ∈ chart.ancestors target :=
      tree.domain_mem_ancestors hn
    simp only [Transition.rename, htarget, Option.map_some, h.domain_eq tree tree',
      h.exitSet_eq tree tree', h.recordsOf_eq tree tree']
    rcases chart.recordsOf leaf (chart.exitSet leaf (chart.domain t.source target)) with
      fault | records
    · rfl
    · simp only [h.enter_eq tree tree' habove]
      rcases chart.enter (some (chart.domain t.source target)) target
        (Entries.overlay history records) with fault | entered
      · rfl
      · simp only [Except.map, Microstep.rename, Transition.rename, htarget, Option.map_some,
          List.getLast?_map, Option.getD_map]

end Arena

end Renames

end Chart

end Lifecycle
