import Lifecycle.Proofs.Chart.Assignments
import Lifecycle.Proofs.Interpreter.Persistence

/-!
# Restoring what assignments leave

Building a chart looks at the keys that its actions assign, restoring looks at the kinds of the
values, too. So where all actions assign, a run is restored from its snapshot unless an assigned
value is of another kind than its default (`run_rehydrates`). This does happen: a text that is
assigned in place of a number is found only when the run is restored (`assigned_kind_refused`).
-/

namespace Lifecycle.Interpreter

section Rehydration

variable {chart : Chart} {context : Context} {given : Json} (hbuilt : chart.Built)
  (hkeys : ∀ key ∈ Entries.keys chart.context, (key == key) = true)
  (hplain : ∀ a, chart.HasAction a → a.isPlain = true)
  (hgiven : chart.fitGiven given = .ok context) (name name' : Option String) (calls : List Call)

include hbuilt hkeys hplain hgiven

/-- A run whose actions assign rests with the keys of the schema, each once in its records, and its
layout leads back to its situation up to the context. -/
theorem exists_rests_of_isPlain : ∃ s, ((started chart context name).run calls).Rests chart s ∧
    chart.Keyed s.context ∧
    ofLayout chart ((started chart context name).run calls).observe.layout name' =
      (chart.fitContext s.context).map fun fitted =>
        resumed chart ⟨s.leaf, fitted, s.history⟩ name' := by
  have schema := hbuilt.isMap_context hkeys
  obtain ⟨s₀, s, hbegins, hleads, hrests, hcontext⟩ := rests_run hbuilt.arena
    (hbuilt.keeps_keyed hplain) context (Chart.restorable_of_fitGiven schema hgiven).keyed name
    calls
  have hnodup := hbegins.nodup_keys hleads
  exact ⟨s, hrests, hcontext, hrests.ofLayout_eq hbuilt.arena hnodup name'⟩

/-- **What assignments leave is restored.** In a built chart in which all actions assign, the
snapshot of a run has the keys of the schema. Where its values are of the kinds of their defaults it
is restored in the same state, and a value that is not is all that is ever refused; assigned values
of the right kinds lead to no such value. The same holds of the layout written as an object, if the
keys of the schema are texts. -/
theorem run_rehydrates :
    ∃ shown, ((started chart context name).run calls).snapshot = some shown ∧
      (∀ key, Entries.has shown.context key = Entries.has chart.context key) ∧
      ((∀ entry ∈ shown.context,
          Chart.fitsKind ((Entries.get? chart.context entry.1).getD .null) entry.2 = true) →
        ∃ restored again, ofLayout chart shown.layout name' = .ok restored ∧
          restored.snapshot = some again ∧ shown.Matches again) ∧
      (∀ corruption, ofLayout chart shown.layout name' = .error corruption →
        ∃ entry ∈ shown.context,
          Chart.fitsKind ((Entries.get? chart.context entry.1).getD .null) entry.2 = false ∧
          corruption = .wrongKind entry.1
            ((Entries.get? chart.context entry.1).getD .null).kindName entry.2.kindName) ∧
      ((∀ a, chart.HasAction a → chart.isTyped a = true) → ∀ entry ∈ shown.context,
        Chart.fitsKind ((Entries.get? chart.context entry.1).getD .null) entry.2 = true) ∧
      ((∀ key ∈ Entries.keys chart.context, key.isText = true) →
        restore chart shown.layout.toJson name' = ofLayout chart shown.layout name') := by
  have schema := hbuilt.isMap_context hkeys
  obtain ⟨s, hrests, hcontext, hlayout⟩ :=
    exists_rests_of_isPlain hbuilt hkeys hplain hgiven name name' calls
  have htyped : (∀ a, chart.HasAction a → chart.isTyped a = true) → chart.Restorable s.context := by
    intro h
    have hmaps : chart.MapsContexts := fun a ha => Chart.maps_of_isTyped (h a ha)
    obtain ⟨-, r, -, -, hrests', hrestorable⟩ := rests_run hbuilt.arena hmaps.keeps context
      (Chart.restorable_of_fitGiven schema hgiven) name calls
    rw [← hrests.context_eq, hrests'.context_eq]
    exact hrestorable
  generalize (started chart context name).run calls = m at hrests hlayout
  have hshown : m.observe.context = s.context := hrests.context_eq
  refine ⟨m.observe, hrests.snapshot_eq, ?_, fun hkinds => ?_, fun corruption hrefused => ?_,
    fun h => ?_, fun htexts => ?_⟩
  · rw [hshown]
    exact hcontext.has_eq
  · rw [hshown] at hkinds
    obtain ⟨fitted, hfitted, halike⟩ :=
      (hcontext.restorable_iff.mpr hkinds).exists_fitContext schema
    rw [hfitted] at hlayout
    exact ⟨_, _, hlayout, rfl, matches_observe hrests.chart_eq hrests.leaf_eq
      (hrests.context_eq ▸ halike.agrees) hrests.history_eq⟩
  · rw [hshown]
    rcases hfit : chart.fitContext s.context with found | fitted
    · rw [hlayout, hfit] at hrefused
      obtain rfl := Except.error.inj hrefused
      exact hcontext.fitContext_error hfit
    · rw [hlayout, hfit] at hrefused
      cases hrefused
  · rw [hshown]
    exact hcontext.restorable_iff.mp (htyped h)
  · refine restore_toJson chart ?_ name'
    show ∀ key ∈ Entries.keys m.observe.context, key.isText = true
    rw [hshown]
    exact hcontext.isText htexts

end Rehydration

/-- A chart with a number in its context, and an action that assigns a value in its place. -/
def tallying (value : Json) : Chart :=
  .ofDeclaration [("set", .assign [("n", value)])] <| .obj [("id", .str "m"), ("initial", .str "s"),
    ("context", .obj [("n", .int 0)]),
    ("states", .obj [("s", .obj [("on", .obj [("go", .obj [("actions", .str "set")])])])])]

set_option maxRecDepth 10000 in
/-- A number that is assigned in place of a number is restored. -/
theorem run_rehydrates_number :
    (tallying (.int 5)).Built ∧
      (∀ key ∈ Entries.keys (tallying (.int 5)).context, (key == key) = true) ∧
      (∀ a, (tallying (.int 5)).HasAction a → a.isPlain = true) ∧
      (tallying (.int 5)).fitGiven .null = .ok (tallying (.int 5)).context ∧
      ∃ shown restored again, ((started (tallying (.int 5)) (tallying (.int 5)).context none).run
          [⟨.int 0, "go"⟩]).snapshot = some shown ∧
        ofLayout (tallying (.int 5)) shown.layout none = .ok restored ∧
        restored.snapshot = some again ∧
        (Entries.get? again.context (.text "n")).any (Json.same (.int 5)) = true := by
  have hbuilt : (tallying (.int 5)).Built :=
    Chart.built_ofDeclaration (by decide +kernel) (by decide +kernel)
  have hkeys : ∀ key ∈ Entries.keys (tallying (.int 5)).context, (key == key) = true := by
    decide +kernel
  have hplain : ∀ a, (tallying (.int 5)).HasAction a → a.isPlain = true :=
    Chart.forall_hasAction (by decide +kernel)
  have htyped : ∀ a, (tallying (.int 5)).HasAction a → (tallying (.int 5)).isTyped a = true :=
    Chart.forall_hasAction (by decide +kernel)
  have hvalue : (((started (tallying (.int 5)) (tallying (.int 5)).context none).run
      [⟨.int 0, "go"⟩]).snapshot.bind fun shown =>
        Entries.get? shown.context (.text "n")).any (Json.same (.int 5)) = true := by
    decide +kernel
  have hgiven := Chart.fitGiven_null (tallying (.int 5))
  obtain ⟨shown, hshown, -, hrestores, -, hkinds, -⟩ :=
    run_rehydrates hbuilt hkeys hplain hgiven none none [⟨.int 0, "go"⟩]
  obtain ⟨restored, again, hrestored, hagain, hmatches⟩ := hrestores (hkinds htyped)
  rw [hshown, Option.bind_some, hmatches.context] at hvalue
  exact ⟨hbuilt, hkeys, hplain, hgiven, shown, restored, again, hshown, hrestored, hagain, hvalue⟩

set_option maxRecDepth 10000 in
/-- A text that is assigned in place of a number passes the building of the chart, and the snapshot
that shows it is refused. -/
theorem assigned_kind_refused :
    (tallying (.str "many")).Built ∧
      (∀ a, (tallying (.str "many")).HasAction a → a.isPlain = true) ∧
      ∃ shown corruption, ((started (tallying (.str "many")) (tallying (.str "many")).context
          none).run [⟨.int 0, "go"⟩]).snapshot = some shown ∧
        restore (tallying (.str "many")) shown.layout.toJson none = .error corruption := by
  have hrefused : (((started (tallying (.str "many")) (tallying (.str "many")).context none).run
      [⟨.int 0, "go"⟩]).snapshot.map fun shown =>
        (restore (tallying (.str "many")) shown.layout.toJson none).toOption.isNone) =
      some true := by decide +kernel
  obtain ⟨shown, hshown, hnone⟩ := Option.map_eq_some_iff.mp hrefused
  obtain ⟨corruption, hrestore⟩ := exists_error_of_isNone hnone
  exact ⟨Chart.built_ofDeclaration (by decide +kernel) (by decide +kernel),
    Chart.forall_hasAction (by decide +kernel), shown, corruption, hshown, hrestore⟩

end Lifecycle.Interpreter
