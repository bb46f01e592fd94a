import Lifecycle.Lead.Stages
import Lifecycle.Proofs.Chart.Schema

/-!
# The chart of a lead is sound

The declaration of the lead chart is accepted (`Lead.chart_built`). Its actions only assign values
of the right kinds to keys of the schema, so they fail on no context (`Lead.chart_neverFails`) and
map contexts of the schema to such contexts (`Lead.chart_mapsContexts`).
-/

namespace Lifecycle.Lead

set_option maxRecDepth 10000 in
/-- The keys of the schema of a lead equal themselves. -/
theorem refl_of_mem_context : ∀ key ∈ Entries.keys chart.context, (key == key) = true := by
  decide +kernel

set_option maxRecDepth 10000 in
/-- The declaration of the lead chart is accepted. -/
theorem built_eq : built = .ok chart := by
  have hok : built.toOption.isSome = true := by decide +kernel
  obtain ⟨result, hresult⟩ := exists_ok_of_isSome hok
  rw [chart, hresult]

set_option maxRecDepth 10000 in
theorem chart_built : chart.Built :=
  ⟨registry, some LeadEvent.words, declaration, by decide +kernel, built_eq⟩

set_option maxRecDepth 10000 in
/-- The actions of the lead chart fail on no context. -/
theorem chart_neverFails : chart.NeverFails := Chart.neverFails_of_isPlain (by decide +kernel)

set_option maxRecDepth 10000 in
/-- The actions of the lead chart map contexts. -/
theorem chart_mapsContexts : chart.MapsContexts := Chart.mapsContexts_of_isTyped (by decide +kernel)

end Lifecycle.Lead
