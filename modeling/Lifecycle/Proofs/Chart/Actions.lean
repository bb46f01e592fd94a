import Lifecycle.Chart.Basic

/-!
# What actions do to contexts

An action may succeed on every context (`Action.NeverFails`), or on those with a property that it
keeps (`Action.Keeps`), or take related contexts to related ones (`Action.Maps`). Each of these
passes from the actions of a chart (`Chart.HasAction`) to any sequence of them
(`Action.runAll_maps`). Assignments never fail (`Action.neverFails_of_isPlain`).
-/

namespace Lifecycle

/-- All actions that a node can run. -/
def Node.actions (n : Node) : List Action :=
  n.entry ++ n.exit ++ (n.transitions ++ n.onDone.toList).flatMap Transition.actions

/-- An action succeeds on every context. -/
def Action.NeverFails (action : Action) : Prop :=
  ∀ context, ∃ next, action.effect.apply context = .ok next

/-- Whether an action assigns or keeps values. -/
def Action.isPlain (action : Action) : Bool :=
  match action.effect with
  | .custom _ => false
  | _ => true

theorem Action.neverFails_of_isPlain {action : Action} (h : action.isPlain = true) :
    action.NeverFails := by
  intro context
  unfold isPlain at h
  rcases heffect : action.effect with updates | _ | change
  · exact ⟨_, rfl⟩
  · exact ⟨_, rfl⟩
  · rw [heffect] at h
    cases h

/-- An action succeeds on the contexts with a property, and they keep it. -/
def Action.Keeps (action : Action) (P : Context → Prop) : Prop :=
  ∀ context, P context → ∃ next, action.effect.apply context = .ok next ∧ P next

/-- An action succeeds on related contexts, and takes them to related ones. -/
def Action.Maps (action : Action) (R : Context → Context → Prop) : Prop :=
  ∀ c d, R c d → ∃ c' d',
    action.effect.apply c = .ok c' ∧ action.effect.apply d = .ok d' ∧ R c' d'

theorem Action.runAll_maps {actions : List Action} {R : Context → Context → Prop}
    (h : ∀ a ∈ actions, a.Maps R) {c d : Context} (hR : R c d) :
    ∃ c' d', Action.runAll actions c = .ok c' ∧ Action.runAll actions d = .ok d' ∧ R c' d' := by
  induction actions generalizing c d with
  | nil => exact ⟨c, d, rfl, rfl, hR⟩
  | cons action rest ih =>
    obtain ⟨c₁, d₁, hc, hd, hR₁⟩ := h action List.mem_cons_self c d hR
    rw [Action.runAll, Action.runAll, hc, hd]
    exact ih (fun a ha => h a (List.mem_cons_of_mem _ ha)) hR₁

theorem Action.Keeps.maps {action : Action} {P : Context → Prop} (h : action.Keeps P) :
    action.Maps fun c d => c = d ∧ P c := by
  rintro c _ ⟨rfl, hc⟩
  obtain ⟨next, hnext, hP⟩ := h c hc
  exact ⟨next, next, hnext, hnext, rfl, hP⟩

theorem Action.runAll_keeps {actions : List Action} {P : Context → Prop}
    (h : ∀ a ∈ actions, a.Keeps P) {context : Context} (hP : P context) :
    ∃ next, Action.runAll actions context = .ok next ∧ P next := by
  obtain ⟨next, _, hnext, -, -, hP'⟩ := Action.runAll_maps (fun a ha => (h a ha).maps) ⟨rfl, hP⟩
  exact ⟨next, hnext, hP'⟩

namespace Chart

/-- No action of the chart fails on any context. -/
def NeverFails (chart : Chart) : Prop :=
  ∀ i n, chart.node? i = some n → ∀ a ∈ n.actions, a.NeverFails

variable (chart : Chart)

/-- The entry actions of a node. -/
def entryOf (i : Nat) : List Action := ((chart.node? i).map Node.entry).getD []

/-- The exit actions of a node. -/
def exitOf (i : Nat) : List Action := ((chart.node? i).map Node.exit).getD []

/-- Some node can run the action. -/
def HasAction (a : Action) : Prop := ∃ i n, chart.node? i = some n ∧ a ∈ n.actions

/-- The actions of the chart succeed on the contexts with a property, and keep it. -/
def Keeps (P : Context → Prop) : Prop := ∀ a, chart.HasAction a → a.Keeps P

variable {chart}

theorem NeverFails.keeps (total : chart.NeverFails) : chart.Keeps fun _ => True := by
  rintro a ⟨i, n, hn, ha⟩ context -
  obtain ⟨next, hnext⟩ := total i n hn a ha context
  exact ⟨next, hnext, trivial⟩

/-- The actions of a chart are those of the nodes of its table. -/
theorem forall_hasAction {Q : Action → Prop} (h : ∀ n ∈ chart.nodes.toList, ∀ a ∈ n.actions, Q a) :
    ∀ a, chart.HasAction a → Q a := by
  rintro a ⟨i, n, hn, ha⟩
  exact h n (Array.mem_toList_iff.mpr (Array.mem_of_getElem? hn)) a ha

theorem neverFails_of_isPlain
    (h : ∀ n ∈ chart.nodes.toList, ∀ a ∈ n.actions, a.isPlain = true) : chart.NeverFails :=
  fun i n hn a ha => Action.neverFails_of_isPlain (forall_hasAction h a ⟨i, n, hn, ha⟩)

theorem hasAction_of_entryOf {i : Nat} {a : Action} (ha : a ∈ chart.entryOf i) :
    chart.HasAction a := by
  rcases hn : chart.node? i with _ | n
  · rw [Chart.entryOf, hn] at ha; cases ha
  · rw [Chart.entryOf, hn] at ha
    exact ⟨i, n, hn, List.mem_append_left _ (List.mem_append_left _ ha)⟩

theorem hasAction_of_exitOf {i : Nat} {a : Action} (ha : a ∈ chart.exitOf i) :
    chart.HasAction a := by
  rcases hn : chart.node? i with _ | n
  · rw [Chart.exitOf, hn] at ha; cases ha
  · rw [Chart.exitOf, hn] at ha
    exact ⟨i, n, hn, List.mem_append_left _ (List.mem_append_right _ ha)⟩

end Chart

end Lifecycle
