import Lifecycle.Proofs.Interpreter.Passages
import Lifecycle.Proofs.Lead.Queue
import Lifecycle.Lead.Worker
import Mathlib.Algebra.GroupWithZero.Nat

/-!
# Offices

An office is a manager, the workers that were hired, and a book of what became of every event. One
move at a time is made in it: an event is sent or put into a queue, a lead is removed, a worker is
hired, or one of the workers takes its next turn, in whatever order (`Office.act`).
-/

namespace Lifecycle

theorem filterMap_concat {α β : Type} (f : α → Option β) (items : List α) (item : α) :
    (items ++ [item]).filterMap f = items.filterMap f ++ (f item).toList := by
  rw [List.filterMap_append, List.filterMap_cons, List.filterMap_nil]
  cases f item <;> rfl

/-- What has become of a worker that was hired. -/
inductive Station where
  | working (worker : Worker)
  | done (count : Nat)
  | broken (fault : Fault)

namespace Station

/-- How many events the worker has sent on. -/
def count : Station → Nat
  | working worker => worker.count
  | done count => count
  | broken _ => 0

/-- Whether a worker has claimed the queue of a lead. -/
def isInside (lead : String) : Station → Bool
  | working worker => worker.claim.any fun claim => claim.1 == lead
  | _ => false

end Station

/-- What became of an event. Leads are named together with the tickets of their queues and
interpreters. -/
inductive Deed where
  /-- It was offered to the queue of a lead. -/
  | offered (lead : String) (mailbox : Nat) (event : String) (accepted : Bool)
  /-- It was sent to the interpreter of a lead at once. -/
  | sent (lead : String) (agent : Nat) (call : Call)
  /-- A worker took it from a queue and sent it to the interpreter of a lead. -/
  | handed (lead : String) (mailbox agent : Nat) (call : Call)

namespace Deed

/-- The event that was offered to a lead, and whether it was let in. -/
def offer? (lead : String) : Deed → Option (String × Bool)
  | offered other _ event accepted => if other = lead then some (event, accepted) else none
  | sent .. | handed .. => none

/-- The event that a worker sent to a lead. -/
def handed? (lead : String) : Deed → Option String
  | handed other _ _ call => if other = lead then some call.event else none
  | offered .. | sent .. => none

/-- The call of the interpreter of a lead. -/
def call? (lead : String) : Deed → Option Call
  | sent other _ call | handed other _ _ call => if other = lead then some call else none
  | offered .. => none

/-- Whether a worker sent the event. -/
def isHanded : Deed → Bool
  | handed .. => true
  | offered .. | sent .. => false

end Deed

/-- A manager with its workers, and the book of what became of the events so far. -/
structure Office where
  manager : Manager
  stations : List Station
  book : List Deed

namespace Office

/-- What can happen in an office. -/
inductive Move where
  | clock (now : Json)
  | create (lead : String)
  | send (lead event : String)
  | enqueue (lead event : String)
  | remove (lead : String)
  /-- A worker for a lead, or for all leads, is hired. -/
  | hire (target : Option String)
  /-- A worker takes its next turn. -/
  | turn (worker : Nat)

/-- A move that removes no lead and sets the clock to what can be read. -/
def Move.IsPlain : Move → Prop
  | clock now => ∃ time, Record.stamp now = .ok time
  | remove _ => False
  | create _ | send .. | enqueue .. | hire _ | turn _ => True

/-- The office of a new manager. -/
def opened (chart : Chart) (policy : Policy) (telemetry : Telemetry)
    (onChange : Option (String → Snapshot → List ChangeCommand))
    (onIgnored : Option (IgnoredEvent → Option Fault)) : Office :=
  ⟨{ Manager.fresh chart policy telemetry with onChange := onChange, onIgnored := onIgnored },
    [], []⟩

/-- The note of an event that is sent at once. -/
def sending (m : Manager) (lead event : String) : Option Deed :=
  (m.getOrCreate lead).2.toOption.map fun agent => .sent lead agent.ticket ⟨m.now, event⟩

/-- The note of an event that is put into a queue. -/
def offering (m : Manager) (lead event : String) : Option Deed :=
  match m.getOrCreate lead with
  | (m, .ok _) => (m.mailbox? lead).map fun box =>
    .offered lead box.ticket event (EventQueue.letIn (box.queue.enqueue event).result)
  | (_, .error _) => none

/-- The note of the event that a worker sends on in its turn: the oldest one in the queue that it
has claimed then. -/
def handing (m : Manager) (after : Worker) : Option Deed := do
  let (lead, ticket) ← after.claim
  let mailbox ← m.mailboxOf? ticket
  let event ← mailbox.queue.items.head?
  let agent ← m.agent? lead
  return .handed lead ticket agent.ticket ⟨m.now, event⟩

/-- Of an event that is taken for a lead without an interpreter there is no note. -/
theorem handing_eq_map {m : Manager} {after : Worker} {lead event : String} {ticket : Nat}
    {box : Mailbox} (hclaim : after.claim = some (lead, ticket))
    (hbox : m.mailboxOf? ticket = some box) (hevent : box.queue.items.head? = some event) :
    handing m after = (m.agent? lead).map fun agent =>
      .handed lead ticket agent.ticket ⟨m.now, event⟩ := by
  unfold handing
  simp only [hclaim, hbox, hevent, Option.bind_eq_bind, Option.bind_some]
  cases m.agent? lead <;> rfl

/-- A worker that is still at it takes a turn. -/
def turn (o : Office) (i : Nat) : Office :=
  match o.stations[i]? with
  | some (.working worker) =>
    match Worker.advance o.manager worker with
    | (m, after, .yielded) =>
      ⟨m, o.stations.set i (.working after), o.book ++ (handing o.manager after).toList⟩
    | (m, after, .finished) => ⟨m, o.stations.set i (.done after.count), o.book⟩
    | (m, _, .failed fault) => ⟨m, o.stations.set i (.broken fault), o.book⟩
  | _ => o

/-- Makes a move. -/
def act (o : Office) : Move → Office
  | .clock now => { o with manager := { o.manager with now := now } }
  | .create lead => { o with manager := (o.manager.getOrCreate lead).1 }
  | .send lead event =>
    { o with
      manager := (o.manager.send lead event).1
      book := o.book ++ (sending o.manager lead event).toList }
  | .enqueue lead event =>
    { o with
      manager := (o.manager.enqueue lead event).1
      book := o.book ++ (offering o.manager lead event).toList }
  | .remove lead => { o with manager := o.manager.remove lead }
  | .hire target => { o with stations := o.stations ++ [.working (Worker.fresh target)] }
  | .turn i => o.turn i

/-- Makes some moves. -/
def run (o : Office) (moves : List Move) : Office := moves.foldl act o

/-- The events that were offered to a lead, with whether they were let in. -/
def offers (o : Office) (lead : String) : List (String × Bool) :=
  o.book.filterMap (Deed.offer? lead)

/-- The events that workers sent to a lead. -/
def handed (o : Office) (lead : String) : List String := o.book.filterMap (Deed.handed? lead)

/-- The calls of the interpreter of a lead. -/
def calls (o : Office) (lead : String) : List Call := o.book.filterMap (Deed.call? lead)

/-- How many workers have claimed the queue of a lead. -/
def inside (o : Office) (lead : String) : Nat := o.stations.countP (Station.isInside lead)

/-- How many events all workers together have sent on. -/
def total (o : Office) : Nat := (o.stations.map Station.count).sum

end Office

end Lifecycle
