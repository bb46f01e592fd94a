import Lifecycle.Decimal.Number

/-!
# Settings

The fixed numbers and names that the library works with.
-/

namespace Lifecycle.Settings

/-- How many records an interpreter keeps. -/
def logLength : Nat := 30

/-- How many events a queue holds before it drops some. -/
def queueCapacity : Int := 256

/-- The share of the capacity from which on a queue reports its depth: three quarters. -/
def queueWatermark : Number := .float (Double.ofRatio false 3 4)

/-- The events that a full queue never drops. -/
def protectedEvents : List String :=
  ["deal.closed", "goal.hit", "conversation.stopped", "lead.opted_out"]

/-- The version written into persisted texts. -/
def persistVersion : Int := 1

/-- The name of the file of persisted leads. -/
def leadsFile : String := "leads.json"

/-- What happens to a corrupt layout by default. -/
def corruptPolicy : String := "reset"

/-- The level from which on messages are logged by default. -/
def logLevel : String := "INFO"

/-- Whether metrics are collected by default. -/
def metricsEnabled : Bool := true

end Lifecycle.Settings
