import Lifecycle.Telemetry.Signal
import Mathlib.Logic.Function.Iterate

/-!
# What is counted

Where metrics are collected, a counter has grown by one for each signal that counts it
(`Telemetry.counter_absorb`), and a gauge shows what the last signal sets it to
(`Telemetry.gaugeValue_absorb`); signals that only log leave them as they were.
-/

namespace Lifecycle

namespace Signal

/-- Whether a signal counts a metric. -/
def counts (name : String) (labels : Labels) : Signal → Bool
  | .count other others => metricKey other others == metricKey name labels
  | _ => false

/-- What a signal sets a gauge to. -/
def sets? (name : String) (labels : Labels) : Signal → Option Json
  | .gauge other value others =>
    if metricKey other others = metricKey name labels then some value else none
  | .log _ | .count .. => none

/-- Whether a signal is a notice. -/
def isLog : Signal → Bool
  | .log _ => true
  | _ => false

theorem countP_counts_of_isLog {signals : List Signal}
    (h : ∀ signal ∈ signals, signal.isLog = true) (name : String) (labels : Labels) :
    signals.countP (counts name labels) = 0 := by
  refine List.countP_eq_zero.mpr fun signal hsignal => ?_
  have := h signal hsignal
  cases signal with
  | log notice => exact Bool.false_ne_true
  | _ => cases this

end Signal

namespace Telemetry

variable (t : Telemetry) (signals : List Signal)

theorem absorb_cons (signal : Signal) :
    t.absorb (signal :: signals) = (t.accept signal).absorb signals := rfl

theorem enabled_accept (signal : Signal) : (t.accept signal).enabled = t.enabled := by
  cases signal with
  | log notice => rfl
  | _ => simp only [accept]; split <;> rfl

theorem counter_accept {t : Telemetry} (h : t.enabled = true) (signal : Signal) (name : String)
    (labels : Labels) : (t.accept signal).metrics.counter name labels =
      if signal.counts name labels then (t.metrics.counter name labels).add (.int 1)
      else t.metrics.counter name labels := by
  cases signal with
  | log notice => rfl
  | gauge other value others => simp only [accept, if_pos h]; rfl
  | count other others =>
    simp only [accept, if_pos h]
    refine (Metrics.counter_increment ..).trans ?_
    by_cases hkey : metricKey other others = metricKey name labels
    · have hcounter : t.metrics.counter other others = t.metrics.counter name labels := by
        rw [Metrics.counter, hkey]; rfl
      simp [Signal.counts, hkey, hcounter]
    · simp [Signal.counts, hkey]

/-- A counter grows by one for each signal that counts it. -/
theorem counter_absorb {t : Telemetry} (h : t.enabled = true) (signals : List Signal)
    (name : String) (labels : Labels) : (t.absorb signals).metrics.counter name labels =
      (fun count => count.add (.int 1))^[signals.countP (Signal.counts name labels)]
        (t.metrics.counter name labels) := by
  induction signals generalizing t with
  | nil => rfl
  | cons signal rest ih =>
    rw [absorb_cons, ih ((enabled_accept t signal).trans h), counter_accept h, List.countP_cons]
    split <;> rfl

theorem gaugeValue_accept {t : Telemetry} (h : t.enabled = true) (signal : Signal) (name : String)
    (labels : Labels) : (t.accept signal).metrics.gaugeValue name labels =
      (signal.sets? name labels).getD (t.metrics.gaugeValue name labels) := by
  cases signal with
  | log notice => rfl
  | count other others => simp only [accept, if_pos h]; rfl
  | gauge other value others =>
    simp only [accept, if_pos h, Metrics.setGauge, Metrics.gaugeValue, Entries.get?_set,
      beq_iff_eq, Signal.sets?]
    split <;> rfl

/-- A gauge shows what the last signal that sets it sets it to. -/
theorem gaugeValue_absorb {t : Telemetry} (h : t.enabled = true) (signals : List Signal)
    (name : String) (labels : Labels) : (t.absorb signals).metrics.gaugeValue name labels =
      (signals.filterMap (Signal.sets? name labels)).getLast?.getD
        (t.metrics.gaugeValue name labels) := by
  induction signals generalizing t with
  | nil => rfl
  | cons signal rest ih =>
    rw [absorb_cons, ih ((enabled_accept t signal).trans h), gaugeValue_accept h,
      List.filterMap_cons]
    cases signal.sets? name labels with
    | none => rfl
    | some value => rw [List.getLast?_cons]; rfl

theorem enabled_absorb (t : Telemetry) (signals : List Signal) :
    (t.absorb signals).enabled = t.enabled := by
  induction signals generalizing t with
  | nil => rfl
  | cons signal rest ih => rw [absorb_cons, ih, enabled_accept]

/-- Where metrics are not collected, nothing is counted. -/
theorem metrics_absorb {t : Telemetry} (h : t.enabled = false) (signals : List Signal) :
    (t.absorb signals).metrics = t.metrics := by
  induction signals generalizing t with
  | nil => rfl
  | cons signal rest ih =>
    rw [absorb_cons, ih ((enabled_accept t signal).trans h)]
    cases signal with
    | log notice => rfl
    | _ => simp [accept, h]

/-- A notice and a count after it: where metrics are collected, that counter grows by one and
nothing else changes. -/
theorem metrics_absorb_count {t : Telemetry} (h : t.enabled = true) (notice : Notice)
    (name : String) (labels : Labels) : (t.absorb [.log notice, .count name labels]).metrics =
      t.metrics.increment name labels (.int 1) :=
  congrArg Telemetry.metrics (if_pos h)

/-- Notices alone change no metric. -/
theorem metrics_absorb_log (t : Telemetry) (notice : Notice) :
    (t.absorb [.log notice]).metrics = t.metrics := rfl

/-- Counting by one adds whole numbers. -/
theorem iterate_add_one (k : Int) (n : Nat) :
    (fun count : Number => count.add (.int 1))^[n] (.int k) = .int (k + n) := by
  induction n generalizing k with
  | zero => exact congrArg Number.int (Int.add_zero k).symm
  | succ n ih =>
    have hstep : (Number.int k).add (.int 1) = .int (k + 1) := rfl
    rw [Function.iterate_succ_apply, hstep, ih]
    congr 1
    omega

end Telemetry

end Lifecycle
