import Lifecycle.Microstep
import Lifecycle.Proofs.Chart.Built
import Lifecycle.Proofs.Chart.Shape

/-!
# Vocabularies

A chart may be restricted to a vocabulary of events. Without it (`Chart.unrestricted`) the nodes are
the same, and every microstep is resolved alike (`resolve_unrestricted`). A declaration that is
accepted with a vocabulary is accepted without it (`define_none_of_define`), and then every event
that a node of the chart handles is in the vocabulary (`Speaks`), since the handlers of all nodes
were checked.
-/

namespace Lifecycle

namespace Chart

variable {chart : Chart} {events : List String}

/-- The chart without its vocabulary. -/
def unrestricted (chart : Chart) : Chart := { chart with events := none }

/-- Every event that a node of the chart declares a transition for is in a vocabulary. -/
def Speaks (chart : Chart) (events : List String) : Prop :=
  ∀ i n t, chart.node? i = some n → t ∈ n.transitions → t.event ∈ events

/-- No leaf handles an event that the chart does not speak of. -/
theorem Speaks.findTransition?_eq_none (h : chart.Speaks events) {event : String}
    (hevent : event ∉ events) (leaf : Nat) : chart.findTransition? leaf event = none := by
  rw [findTransition?, List.findSome?_eq_none_iff]
  intro i _
  rcases hn : chart.node? i with _ | n
  · rw [handlerAt?, hn]; rfl
  · rw [handlerAt?, hn, Option.bind_some, List.find?_eq_none]
    intro t ht heq
    exact hevent (beq_iff_eq.mp heq ▸ h i n t hn ht)

/-! ## Microsteps without a vocabulary -/

@[simp] theorem unrestricted_nodes (chart : Chart) : chart.unrestricted.nodes = chart.nodes := rfl

@[simp] theorem node?_unrestricted (chart : Chart) : chart.unrestricted.node? = chart.node? := rfl

@[simp] theorem kindAt?_unrestricted (chart : Chart) :
    chart.unrestricted.kindAt? = chart.kindAt? := rfl

@[simp] theorem parent?_unrestricted (chart : Chart) :
    chart.unrestricted.parent? = chart.parent? := rfl

@[simp] theorem isHistory_unrestricted (chart : Chart) :
    chart.unrestricted.isHistory = chart.isHistory := rfl

@[simp] theorem remembered_unrestricted (chart : Chart) :
    chart.unrestricted.remembered = chart.remembered := rfl

@[simp] theorem stepActions_unrestricted (chart : Chart) :
    chart.unrestricted.stepActions = chart.stepActions := rfl

@[simp] theorem doneTransition?_unrestricted (chart : Chart) :
    chart.unrestricted.doneTransition? = chart.doneTransition? := rfl

@[simp] theorem ancestors_unrestricted (chart : Chart) :
    chart.unrestricted.ancestors = chart.ancestors :=
  funext (ancestors_congr (congrFun chart.parent?_unrestricted))

@[simp] theorem pathTo_unrestricted (chart : Chart) :
    chart.unrestricted.pathTo = chart.pathTo := by
  funext i
  simp only [pathTo, ancestors_unrestricted]

@[simp] theorem isBelow_unrestricted (chart : Chart) :
    chart.unrestricted.isBelow = chart.isBelow := by
  funext i ancestor
  simp only [isBelow, properAncestors, ancestors_unrestricted]

@[simp] theorem descend_unrestricted (chart : Chart) :
    chart.unrestricted.descend = chart.descend := by
  funext i
  induction hi : chart.nodes.size - i using Nat.strongRecOn generalizing i with
  | _ k ih =>
    rw [descend, descend, node?_unrestricted, unrestricted_nodes]
    rcases chart.node? i with _ | n
    · rfl
    · dsimp only
      split
      · rcases n.initial with _ | child
        · rfl
        · dsimp only
          split
          · rename_i hchild
            rw [ih _ (by omega) child rfl]
          · rfl
      · rfl

@[simp] theorem enterAlong_unrestricted (chart : Chart) :
    chart.unrestricted.enterAlong = chart.enterAlong := by
  funext path target history
  simp only [enterAlong, isHistory_unrestricted, remembered_unrestricted, descend_unrestricted]

@[simp] theorem initialPath_unrestricted (chart : Chart) :
    chart.unrestricted.initialPath = chart.initialPath := by
  simp only [initialPath, enterAlong_unrestricted, pathTo_unrestricted]

@[simp] theorem findTransition?_unrestricted (chart : Chart) :
    chart.unrestricted.findTransition? = chart.findTransition? := by
  funext leaf event
  simp only [findTransition?, ancestors_unrestricted]
  rfl

theorem recordsOf_unrestricted (chart : Chart) (leaf : Nat) (exited : List Nat) :
    chart.unrestricted.recordsOf leaf exited = chart.recordsOf leaf exited := by
  induction exited with
  | nil => rfl
  | cons i rest ih =>
    have hnext : chart.unrestricted.next? leaf i = chart.next? leaf i := by
      simp only [next?, pathTo_unrestricted]
    rw [recordsOf, recordsOf, node?_unrestricted, hnext, ih]
    rfl

/-- A transition is resolved alike without the vocabulary. -/
@[simp] theorem resolve_unrestricted (chart : Chart) :
    chart.unrestricted.resolve = chart.resolve := by
  have henter : chart.unrestricted.enter = chart.enter := by
    funext domain target history
    simp only [enter, enterAlong_unrestricted, pathTo_unrestricted]
  funext leaf t history
  simp only [resolve, domain, properAncestors, exitSet, ancestors_unrestricted,
    isBelow_unrestricted, recordsOf_unrestricted, henter]

/-! ## Layouts without a vocabulary -/

theorem fitGiven_unrestricted (chart : Chart) (given : Json) :
    chart.unrestricted.fitGiven given = chart.fitGiven given :=
  fitGiven_congr (show chart.unrestricted.context = chart.context from rfl) given

theorem fitContext_unrestricted (chart : Chart) (context : Context) :
    chart.unrestricted.fitContext context = chart.fitContext context :=
  fitContext_congr (show chart.unrestricted.context = chart.context from rfl) context

theorem leafOf_unrestricted (chart : Chart) (path : Json) :
    chart.unrestricted.leafOf path = chart.leafOf path := by
  have hchild (p : Nat) (key : Json) :
      chart.unrestricted.stateChild? p key = chart.stateChild? p key := rfl
  have hid (i : Nat) : chart.unrestricted.idAt i = chart.idAt i := rfl
  simp only [leafOf, walk_congr hchild hid]
  rfl

theorem fitHistory_unrestricted (chart : Chart) (members : List (String × Json)) :
    chart.unrestricted.fitHistory members = chart.fitHistory members := by
  induction members with
  | nil => rfl
  | cons member rest ih =>
    rw [fitHistory, fitHistory, ih]
    rfl

end Chart

/-! ## The second reading without a vocabulary -/

namespace Blueprint

variable {plan : Blueprint} {draft : Draft} {node : Node} {events : List String}

/-- What drafts are finished against when there is no vocabulary. -/
def unrestricted (plan : Blueprint) : Blueprint := { plan with events := none }

theorem onDone_unrestricted (plan : Blueprint) (draft : Draft) :
    plan.unrestricted.onDone draft = plan.onDone draft := by
  have hwithin : plan.unrestricted.within = plan.within :=
    funext₂ (within_congr fun _ => rfl)
  unfold onDone
  rw [hwithin]
  rfl

/-- A handler that is accepted is so without the vocabulary. -/
theorem handler_unrestricted {member : String × Json} {t : Transition}
    (h : plan.handler draft member = .ok t) :
    plan.unrestricted.handler draft member = .ok t := by
  show plan.transition draft member.1 member.2 = .ok t
  exact exists_transition_of_handler h

/-- The event of a handler that is accepted is in the vocabulary. -/
theorem event_mem_of_handler (hplan : plan.events = some events) {member : String × Json}
    {t : Transition} (h : plan.handler draft member = .ok t) : t.event ∈ events := by
  have hevent : t.event = member.1 := event_of_transition (exists_transition_of_handler h)
  unfold handler at h
  split at h
  · cases h
  · rename_i hknown
    rw [hplan] at hknown
    rw [hevent]
    simpa using hknown

/-- A draft that is finished with a vocabulary is finished alike without it. -/
theorem finish_unrestricted (h : plan.finish draft = .ok node) :
    plan.unrestricted.finish draft = .ok node := by
  unfold finish at h ⊢
  obtain ⟨defaults, hdefaults, h⟩ := bind_eq_ok.mp h
  obtain ⟨members, hmembers, h⟩ := bind_eq_ok.mp h
  obtain ⟨transitions, htransitions, h⟩ := bind_eq_ok.mp h
  have hall : members.mapM (plan.unrestricted.handler draft) = .ok transitions :=
    mapM_of_forall₂ ((forall₂_of_mapM htransitions).imp fun _ _ => handler_unrestricted)
  refine bind_eq_ok.mpr ⟨defaults, hdefaults, bind_eq_ok.mpr ⟨members, hmembers,
    bind_eq_ok.mpr ⟨transitions, hall, ?_⟩⟩⟩
  rw [onDone_unrestricted]
  exact h

end Blueprint

namespace Chart

variable {chart : Chart} {events : List String} {registry : Registry} {declaration : Json}

/-- A declaration that is accepted with a vocabulary is accepted without it, and describes the same
chart but for the vocabulary. -/
theorem define_none_of_define (h : define registry (some events) declaration = .ok chart) :
    define registry none declaration = .ok chart.unrestricted := by
  obtain ⟨fields, outline, rfl, described⟩ := define_eq_ok_iff.mp h
  have hall := Blueprint.finishAll_eq_ok_iff.mp described.finish_eq
  refine define_eq_ok_iff.mpr ⟨fields, outline, rfl, described.id_eq, rfl, described.context_eq,
    described.states, described.read_eq, Blueprint.finishAll_eq_ok_iff.mpr ?_⟩
  exact hall.imp fun _ _ => Blueprint.finish_unrestricted

theorem events_of_define {events : Option (List String)}
    (h : define registry events declaration = .ok chart) : chart.events = events := by
  obtain ⟨fields, outline, rfl, described⟩ := define_eq_ok_iff.mp h
  exact described.events_eq

/-- A chart that is described with a vocabulary speaks of no other events. -/
theorem speaks_of_define (h : define registry (some events) declaration = .ok chart) :
    chart.Speaks events := by
  obtain ⟨fields, outline, rfl, described⟩ := define_eq_ok_iff.mp h
  intro i n t hn ht
  obtain ⟨d, -, hfinish⟩ := described.exists_draft hn
  obtain ⟨members, -, htransitions⟩ := (Blueprint.finished_of_finish hfinish).transitions_eq
  obtain ⟨member, -, hhandler⟩ := exists_of_mem_mapM htransitions ht
  exact Blueprint.event_mem_of_handler described.events_eq hhandler

end Chart

end Lifecycle
