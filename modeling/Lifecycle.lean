import Lifecycle.Chart.Diagram
import Lifecycle.Lead.Persist
import Lifecycle.Lead.Worker
import Lifecycle.Session
import Lifecycle.Proofs.Chart.Declared
import Lifecycle.Proofs.Interpreter.Configuration
import Lifecycle.Proofs.Interpreter.Failure
import Lifecycle.Proofs.Interpreter.Memory
import Lifecycle.Proofs.Interpreter.Persistence
import Lifecycle.Proofs.Interpreter.Stack
import Lifecycle.Proofs.Decimal.ReadBack
import Lifecycle.Proofs.Lead.Persistence
import Lifecycle.Proofs.Lead.Removal
import Lifecycle.Proofs.Lead.Serial
import Lifecycle.Proofs.Interpreter.Rehydration
import Lifecycle.Proofs.Lead.Loading
import Lifecycle.Proofs.Session.Notification
import Lifecycle.Proofs.Interpreter.Reordering
import Lifecycle.Proofs.Chart.Spelling
import Lifecycle.Proofs.Interpreter.Completion
import Lifecycle.Proofs.Interpreter.Vocabulary
import Lifecycle.Proofs.Session.Quiet
import Lifecycle.Proofs.Lead.Retention
import Lifecycle.Proofs.Interpreter.Acceptance
import Lifecycle.Proofs.Session.Delivery
import Lifecycle.Proofs.Interpreter.Stopping
import Lifecycle.Proofs.Session.Registration
import Lifecycle.Proofs.Session.Farewell
import Lifecycle.Proofs.Session.Recording
import Lifecycle.Proofs.Chart.Carried
import Lifecycle.Proofs.Chart.Texts
import Lifecycle.Proofs.Store.Saving
import Lifecycle.Proofs.Store.Loading
import Lifecycle.Proofs.Lead.Isolation
import Lifecycle.Proofs.Lead.Capacity
import Lifecycle.Proofs.Lead.Inspection
import Lifecycle.Proofs.Lead.Announcements
import Lifecycle.Proofs.Lead.Gauges
import Lifecycle.Proofs.Interpreter.Adoption
import Lifecycle.Proofs.Lead.OptOut
import Lifecycle.Proofs.Snapshot.Matching
import Lifecycle.Proofs.Telemetry.Totals
import Lifecycle.Proofs.Snapshot.Drawing
