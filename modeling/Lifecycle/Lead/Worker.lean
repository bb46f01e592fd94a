import Lifecycle.Lead.Manager

/-!
# Workers

A worker takes the waiting events of one lead or of all leads and sends them on, one event in a
turn. It claims a queue before it takes events from it and gives it back when it finds it empty, so
that no other worker takes events meanwhile. Workers that run together take turns; when one fails,
the others take three turns more before they are called off.
-/

namespace Lifecycle

/-- How far a worker is. -/
structure Worker where
  /-- The lead it works for, all of them for none. -/
  target : Option String
  /-- The leads to come, none before its first turn. -/
  remaining : Option (List String)
  /-- The lead whose queue it has claimed, and the ticket of the queue. -/
  claim : Option (String × Nat)
  /-- How many events it has sent on. -/
  count : Nat

/-- How a turn ended. -/
inductive Turn where
  | yielded
  | finished
  | failed (fault : Fault)

namespace Worker

/-- A worker for one lead, or for all leads when the lead is absent or empty. -/
def fresh (target : Option String) : Worker :=
  ⟨target.filter fun lead => lead != "", none, none, 0⟩

/-- The leads that a worker has before it, which is settled on its first turn. -/
def agenda (w : Worker) (m : Manager) : List String :=
  match w.remaining, w.target with
  | some leads, _ => leads
  | none, some lead => [lead]
  | none, none => Entries.keys m.mailboxes

/-- Marks the queue of a ticket as claimed or free. -/
def mark (m : Manager) (ticket : Nat) (processing : Bool) : Manager :=
  match m.mailboxOf? ticket with
  | none => m
  | some mailbox =>
    m.putMailbox ⟨ticket, { mailbox.queue with processing := processing }⟩

/-- Gives the claimed queue back. -/
def release (m : Manager) (w : Worker) (ticket : Nat) : Manager × Worker :=
  (mark m ticket false, { w with claim := none })

/-- Sends on the next event of the claimed queue. Without one, or without an interpreter for it, the
queue is given back and the turn goes on. -/
def takeEvent (m : Manager) (w : Worker) (lead : String) (ticket : Nat) :
    Manager × Worker × Option Turn :=
  match (m.mailboxOf? ticket).map fun mailbox => mailbox.queue.dequeue with
  | none =>
    let (m, w) := release m w ticket
    (m, w, none)
  | some response =>
    let m := (m.putMailbox ⟨ticket, response.state⟩).report response.signals
    match response.result, m.agent? lead with
    | .ok (some event), some agent =>
      match m.deliver agent event with
      | (m, .ok _) => (m, { w with count := w.count + 1 }, some .yielded)
      | (m, .error fault) =>
        let (m, w) := release m w ticket
        (m, w, some (.failed fault))
    | _, _ =>
      let (m, w) := release m w ticket
      (m, w, none)

/-- Goes through the leads to come until an event is sent on. -/
def seek : List String → Manager → Worker → Manager × Worker × Turn
  | [], m, w => (m, { w with remaining := some [] }, .finished)
  | lead :: rest, m, w =>
    match m.mailbox? lead with
    | none => seek rest m w
    | some mailbox =>
      if mailbox.queue.processing then seek rest m w
      else
        let claimed := { w with claim := some (lead, mailbox.ticket), remaining := some rest }
        match takeEvent (mark m mailbox.ticket true) claimed lead mailbox.ticket with
        | (m, w, some turn) => (m, w, turn)
        | (m, w, none) => seek rest m w

/-- One turn. -/
def advance (m : Manager) (w : Worker) : Manager × Worker × Turn :=
  match w.claim with
  | none => seek (w.agenda m) m w
  | some (lead, ticket) =>
    match takeEvent m w lead ticket with
    | (m, w, some turn) => (m, w, turn)
    | (m, w, none) => seek (w.agenda m) m w

/-- Takes turns until the worker has finished or failed. -/
def runFor : Nat → Manager → Worker → Manager × Except Fault Nat
  | 0, m, w => (m, .ok w.count)
  | turns + 1, m, w =>
    match advance m w with
    | (m, w, .yielded) => runFor turns m w
    | (m, w, .finished) => (m, .ok w.count)
    | (m, _, .failed fault) => (m, .error fault)

end Worker

namespace Manager

/-- How many events are waiting. Every turn but a worker's last takes one of them. -/
def waiting (m : Manager) : Nat :=
  (m.mailboxes.map Prod.snd ++ m.formerMailboxes).foldr
    (fun mailbox rest => mailbox.queue.depth + rest) 0

/-- Sends on the waiting events of a lead, or of all leads; the result is how many. -/
def process (m : Manager) (target : Option String) : Manager × Except Fault Nat :=
  Worker.runFor (m.waiting + 1) m (Worker.fresh target)

/-- A worker among others that run together. -/
inductive Task where
  | live (worker : Worker)
  | over (count : Nat)

/-- One turn of each live worker, in order, and the first fault. -/
def round : List Task → Manager → Manager × List Task × Option Fault
  | [], m => (m, [], none)
  | .over count :: rest, m =>
    let (m, rest, fault) := round rest m
    (m, .over count :: rest, fault)
  | .live worker :: rest, m =>
    match worker.advance m with
    | (m, worker, .yielded) =>
      let (m, rest, fault) := round rest m
      (m, .live worker :: rest, fault)
    | (m, worker, .finished) =>
      let (m, rest, fault) := round rest m
      (m, .over worker.count :: rest, fault)
    | (m, worker, .failed fault) =>
      let (m, rest, _) := round rest m
      (m, .over worker.count :: rest, some fault)

/-- How many more turns the others take after a fault. -/
def turnsAfterFault : Nat := 3

/-- Rounds whose faults nobody hears of. -/
def windDown : Nat → List Task → Manager → Manager × List Task
  | 0, tasks, m => (m, tasks)
  | rounds + 1, tasks, m =>
    let (m, tasks, _) := round tasks m
    windDown rounds tasks m

/-- Gives back the queues that workers have claimed. -/
def callOff : List Task → Manager → Manager
  | [], m => m
  | .over _ :: rest, m => callOff rest m
  | .live worker :: rest, m =>
    match worker.claim with
    | some (_, ticket) => callOff rest (Worker.mark m ticket false)
    | none => callOff rest m

/-- The counts of workers. -/
def countsOf (tasks : List Task) : List Nat :=
  tasks.map fun task => match task with
    | .live worker => worker.count
    | .over count => count

/-- Whether a worker is still at it. -/
def Task.isLive : Task → Bool
  | .live _ => true
  | .over _ => false

/-- Rounds until all workers are over or one fails. -/
def rounds : Nat → List Task → Manager → Manager × Except Fault (List Nat)
  | 0, tasks, m => (m, .ok (countsOf tasks))
  | fuel + 1, tasks, m =>
    match round tasks m with
    | (m, tasks, some fault) =>
      let (m, tasks) := windDown turnsAfterFault tasks m
      (callOff tasks m, .error fault)
    | (m, tasks, none) =>
      if tasks.any Task.isLive then rounds fuel tasks m else (m, .ok (countsOf tasks))

/-- Lets a worker for each of the leads run together with the others; the result is how many events
each has sent on. -/
def processTogether (m : Manager) (targets : List (Option String)) :
    Manager × Except Fault (List Nat) :=
  rounds (m.waiting + 1) (targets.map fun target => .live (Worker.fresh target)) m

end Manager

end Lifecycle
