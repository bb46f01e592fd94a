import Lifecycle.Proofs.Microstep.Geometry

/-!
# What a microstep moves

Microsteps with and without a target have one form (`Shift`): the active path and the path to the
new leaf agree down to some node, the rest of the one is left, the rest of the other is entered, and
the owners of history that are left are recorded. The transitions that a run takes are those that an
event or a final leaf triggers (`Triggered`); they are declared on the active path, so each has such
a microstep (`Arena.resolve_triggered`).
-/

namespace Lifecycle.Chart

variable {chart : Chart} {leaf p target : Nat} {t : Transition} {history : Entries String}
  {step : Microstep}

/-- What a microstep taken at a leaf moves and records. -/
structure Shift (chart : Chart) (leaf : Nat) (t : Transition) (history : Entries String)
    (step : Microstep) : Prop where
  transition_eq : step.transition = t
  isLeaf : chart.IsLeaf step.leaf
  paths : ∃ d, chart.pathTo leaf = chart.pathTo d ++ step.exited.reverse ∧
    chart.pathTo step.leaf = chart.pathTo d ++ step.entered
  records : chart.RecordsLeft leaf step.exited step.history
  turns : ∀ target p, t.target = some target → chart.parent? target = some p →
    ∃ d x, chart.TurnsAt (Entries.overlay history step.history) target p x ∧
      step.entered = (chart.exitSet p d).reverse ++ x :: chart.descend x

theorem Shift.mem_ancestors (h : chart.Shift leaf t history step) {i : Nat}
    (hi : i ∈ step.exited) : i ∈ chart.ancestors leaf := by
  obtain ⟨d, hpath, -⟩ := h.paths
  rw [← mem_pathTo, hpath]
  exact List.mem_append_right _ (List.mem_reverse.mpr hi)

/-- An event, or the completion of the parent of a final leaf, triggers the transition. -/
def Triggered (chart : Chart) (leaf : Nat) (t : Transition) : Prop :=
  (∃ event, chart.findTransition? leaf event = some t) ∨ chart.doneTransition? leaf = some t

/-- Where a completion is pending, the leaf is final, and its parent declares the transition. -/
theorem exists_parent_of_doneTransition? (h : chart.doneTransition? leaf = some t) :
    chart.kindAt? leaf = some .final ∧ ∃ p n, chart.parent? leaf = some p ∧
      chart.node? p = some n ∧ n.onDone = some t := by
  unfold doneTransition? at h
  split at h
  · rename_i hfinal
    obtain ⟨n, hn, hdone⟩ := Option.bind_eq_some_iff.mp h
    obtain ⟨p, hp, hn⟩ := Option.bind_eq_some_iff.mp hn
    exact ⟨hfinal, p, n, hp, hn, hdone⟩
  · cases h

/-- No final leaf triggers a transition. -/
def CompletesNothing (chart : Chart) : Prop := ∀ leaf, chart.doneTransition? leaf = none

theorem completesNothing_of_onDone (h : ∀ n ∈ chart.nodes.toList, n.onDone.isNone = true) :
    chart.CompletesNothing := by
  intro leaf
  rcases ht : chart.doneTransition? leaf with _ | t
  · rfl
  · obtain ⟨-, p, n, -, hn, hdone⟩ := exists_parent_of_doneTransition? ht
    have hnone := h n (Array.mem_toList_iff.mpr (Array.mem_of_getElem? hn))
    rw [hdone] at hnone
    cases hnone

namespace Arena

variable (tree : chart.Arena)

include tree

/-- What an event triggers is declared on the active path. -/
theorem declares_of_findTransition? {event : String}
    (h : chart.findTransition? leaf event = some t) :
    chart.Declares t ∧ t.source ∈ chart.ancestors leaf := by
  obtain ⟨nearer, i, further, hsplit, hi, -⟩ := List.findSome?_eq_some_iff.mp h
  obtain ⟨n, hn, hfind⟩ := Option.bind_eq_some_iff.mp hi
  have hmem := List.mem_of_find?_eq_some hfind
  refine ⟨⟨i, n, hn, .inl hmem⟩, ?_⟩
  rw [(tree.transition hn hmem).1, hsplit]
  exact List.mem_append_right _ List.mem_cons_self

/-- What a final leaf triggers is declared by its parent. -/
theorem declares_of_doneTransition? (h : chart.doneTransition? leaf = some t) :
    chart.kindAt? leaf = some .final ∧ chart.Declares t ∧ t.source ∈ chart.ancestors leaf := by
  obtain ⟨hfinal, p, n, hp, hn, hdone⟩ := exists_parent_of_doneTransition? h
  refine ⟨hfinal, ⟨p, n, hn, .inr hdone⟩, ?_⟩
  rw [(tree.onDone hn hdone).1]
  exact tree.mem_ancestors_of_parent hp

theorem declares_of_triggered (h : chart.Triggered leaf t) :
    chart.Declares t ∧ t.source ∈ chart.ancestors leaf := by
  rcases h with ⟨event, h⟩ | h
  · exact tree.declares_of_findTransition? h
  · exact (tree.declares_of_doneTransition? h).2

/-- Every triggered transition has a microstep. -/
theorem resolve_triggered (hleaf : chart.IsLeaf leaf) (ht : chart.Triggered leaf t)
    (hfits : chart.Fits history) :
    ∃ step, chart.resolve leaf t history = .ok step ∧ chart.Shift leaf t history step := by
  obtain ⟨hdeclares, hsource⟩ := tree.declares_of_triggered ht
  rcases htarget : t.target with _ | target
  · refine ⟨⟨t, none, [], [], [], leaf⟩, by simp only [resolve, htarget], rfl, hleaf, ⟨leaf, ?_⟩,
      ?_, fun target p h => ?_⟩
    · exact ⟨(List.append_nil _).symm, (List.append_nil _).symm⟩
    · simp [RecordsLeft]
    · rw [htarget] at h; cases h
  · obtain ⟨p, hparent⟩ := tree.exists_parent?_of_declares hdeclares htarget
    obtain ⟨step, x, hstep, hgeometry, -, hrecords, hx, hentered⟩ :=
      tree.resolve_spec hleaf hsource htarget hparent hfits
    refine ⟨step, hstep, hgeometry.transition_eq, hgeometry.isLeaf,
      ⟨_, hgeometry.path_left, hgeometry.path_entered⟩, hrecords, fun target' p' h hp => ?_⟩
    obtain rfl := Option.some.inj (htarget.symm.trans h)
    obtain rfl := Option.some.inj (hparent.symm.trans hp)
    exact ⟨_, x, hx, hentered⟩

end Arena

end Lifecycle.Chart
