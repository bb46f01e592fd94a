import Lifecycle.Fault

/-!
# Metrics

Counters and gauges by key. A key is a metric's name, followed by its labels in braces when it has
any, sorted by label. `Metrics.total` adds up the counters of one name whatever their labels.
Counters are numbers of either kind, so that some have no sum; a gauge holds whatever it was set to.
-/

namespace Lifecycle

/-- Labels of a metric. -/
abbrev Labels := List (String × String)

/-- The key of a metric: its name, and its labels sorted and in braces. -/
def metricKey (name : String) (labels : Labels) : String :=
  if labels.isEmpty then name
  else
    let sorted := labels.mergeSort
      (fun a b => a.1 < b.1 || (a.1 == b.1 && !(decide (b.2 < a.2))))
    name ++ "\x7b"
      ++ String.intercalate "," (sorted.map fun label => label.1 ++ "=" ++ label.2) ++ "\x7d"

/-- Counters and gauges by key. -/
structure Metrics where
  counters : Entries Number
  gauges : Entries Json

namespace Metrics

/-- No metric at all. -/
def empty : Metrics := ⟨[], []⟩

/-- The value of a counter, zero before its first increment. -/
def counter (m : Metrics) (name : String) (labels : Labels) : Number :=
  (Entries.get? m.counters (metricKey name labels)).getD (.int 0)

/-- The value of a gauge, zero before it is set. -/
def gaugeValue (m : Metrics) (name : String) (labels : Labels) : Json :=
  (Entries.get? m.gauges (metricKey name labels)).getD (.float .zero)

/-- Adds to a counter. -/
def increment (m : Metrics) (name : String) (labels : Labels) (value : Number) : Metrics :=
  { m with
    counters := Entries.set m.counters (metricKey name labels)
      ((m.counter name labels).add value) }

/-- Adds to a counter, unless the two numbers have no sum. -/
def add (m : Metrics) (name : String) (labels : Labels) (value : Number) : Except Fault Metrics :=
  match (m.counter name labels).add? value with
  | some _ => .ok (m.increment name labels value)
  | none => .error .beyondDouble

/-- Sets a gauge. -/
def setGauge (m : Metrics) (name : String) (value : Json) (labels : Labels) : Metrics :=
  { m with gauges := Entries.set m.gauges (metricKey name labels) value }

/-- Whether a key belongs to a metric, with whatever labels. -/
def belongs (name key : String) : Bool :=
  key == name || (name ++ "\x7b").toList.isPrefixOf key.toList

/-- The sum of numbers, one after the other. -/
def sumFrom : Number → List Number → Except Fault Number
  | sum, [] => .ok sum
  | sum, value :: rest =>
    match sum.add? value with
    | some next => sumFrom next rest
    | none => .error .beyondDouble

/-- The sum of all counters of a metric. -/
def total (m : Metrics) (name : String) : Except Fault Number :=
  sumFrom (.int 0) ((m.counters.filter fun entry => belongs name entry.1).map Prod.snd)

/-- An increment changes the counter of its own key and no other. -/
theorem counter_increment (m : Metrics) (name other : String) (labels others : Labels)
    (value : Number) :
    (m.increment name labels value).counter other others =
      if metricKey name labels = metricKey other others then (m.counter name labels).add value
      else m.counter other others := by
  simp only [counter, increment, Entries.get?_set, beq_iff_eq]
  split <;> rfl

end Metrics

end Lifecycle
