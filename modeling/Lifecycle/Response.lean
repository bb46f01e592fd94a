import Lifecycle.Fault
import Lifecycle.Telemetry.Signal

/-!
# Responses

Every operation on a state answers with a response: the state it leaves, also when it fails, what it
reports on the way, and its result.
-/

namespace Lifecycle

/-- What an operation leaves: the state, its signals in order, and its result. -/
structure Response (σ α : Type) where
  state : σ
  signals : List Signal
  result : Except Fault α

end Lifecycle
