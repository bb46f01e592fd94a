import Lifecycle.Telemetry.Metrics
import Lifecycle.Telemetry.Notice

/-!
# Signals

Operations are functions of their state; what they report beside it is a list of signals, in order.
A `Telemetry` absorbs them: it logs the notices and, where metrics are collected, counts.
-/

namespace Lifecycle

/-- One report of an operation. -/
inductive Signal where
  | log (notice : Notice)
  | count (name : String) (labels : Labels)
  | gauge (name : String) (value : Json) (labels : Labels)

/-- What the signals so far have added up to. -/
structure Telemetry where
  /-- Whether metrics are collected. -/
  enabled : Bool
  /-- Whether someone listens to what is logged. -/
  heard : Bool
  metrics : Metrics
  /-- The notices, the latest first. -/
  notices : List Notice

namespace Telemetry

/-- No reports yet. -/
def fresh (enabled heard : Bool) : Telemetry := ⟨enabled, heard, Metrics.empty, []⟩

/-- Takes in one signal. -/
def accept (t : Telemetry) : Signal → Telemetry
  | .log notice => { t with notices := notice :: t.notices }
  | .count name labels =>
    if t.enabled then { t with metrics := t.metrics.increment name labels (.int 1) } else t
  | .gauge name value labels =>
    if t.enabled then { t with metrics := t.metrics.setGauge name value labels } else t

/-- Takes in signals in order. -/
def absorb (t : Telemetry) (signals : List Signal) : Telemetry :=
  signals.foldl accept t

/-- The log lines so far, in order. -/
def lines (t : Telemetry) : List String :=
  t.notices.reverse.map fun notice => notice.level.word ++ " " ++ notice.text

theorem absorb_append (t : Telemetry) (first second : List Signal) :
    t.absorb (first ++ second) = (t.absorb first).absorb second := by
  simp [absorb, List.foldl_append]

end Telemetry

end Lifecycle
