import Lifecycle.Interpreter.Restore
import Lifecycle.Interpreter.Run
import Lifecycle.Lead.Stages
import Lifecycle.Lead.Queue

/-!
# Managers

A manager looks after the leads of one chart: for each an interpreter and a queue of events. It
tells one callback of every change of a lead and another of every ignored event; what they fail with
is logged and goes no further. Interpreters and queues carry tickets, since whoever holds one keeps
it when its lead is removed or replaced: a removed interpreter is stopped and heard of no more.
-/

namespace Lifecycle

/-- What becomes of a lead whose persisted layout is corrupt. -/
inductive Policy where
  /-- It starts again. -/
  | reset
  /-- It is left as it was. -/
  | reject
deriving DecidableEq

namespace Policy

/-- The word for a policy. -/
def word : Policy → String
  | reset => "reset"
  | reject => "reject"

/-- The policy of a word. -/
def ofWord? : String → Option Policy
  | "reset" => some reset
  | "reject" => some reject
  | _ => none

/-- The policy that a setting chooses by its word. -/
def choose (setting : Json) : Except Fault Policy :=
  match setting.key?, setting.string?.bind ofWord? with
  | none, _ => .error (.flawed (.noKey setting.kindName))
  | _, some policy => .ok policy
  | _, none => .error (.raised ("unknown corrupt snapshot policy: " ++ setting.literal))

end Policy

/-- An interpreter with its ticket. -/
structure Agent where
  ticket : Nat
  interpreter : Interpreter

/-- A queue with its ticket. -/
structure Mailbox where
  ticket : Nat
  queue : EventQueue String

/-- One thing that the callback for changes does. -/
inductive ChangeCommand where
  | fail (text : String)
  | remove (lead : String)

/-- An event that a lead ignored. -/
structure IgnoredEvent where
  lead : String
  event : String
  reason : String
  value : String
  /-- How many events were waiting. -/
  depth : Nat

/-- An ignored event as an object. -/
def IgnoredEvent.toJson (e : IgnoredEvent) : Json :=
  .obj
    [("lead_id", .str e.lead), ("event", .str e.event), ("reason", .str e.reason),
      ("value", .str e.value), ("queue_depth", .int e.depth)]

/-- What the callbacks of a manager have heard. -/
inductive LeadNote where
  | changed (lead value : String)
  | ignored (event : IgnoredEvent)

/-- The leads of one chart. -/
structure Manager where
  chart : Chart
  policy : Policy
  agents : Entries Agent
  mailboxes : Entries Mailbox
  /-- Interpreters that were removed or replaced. -/
  formerAgents : List Agent
  /-- Queues that were removed. -/
  formerMailboxes : List Mailbox
  nextTicket : Nat
  onChange : Option (String → Snapshot → List ChangeCommand)
  onIgnored : Option (IgnoredEvent → Option Fault)
  telemetry : Telemetry
  /-- What callbacks have heard, in order. -/
  notes : List LeadNote
  /-- What the clock shows. -/
  now : Json

namespace Manager

/-- A manager without leads. -/
def fresh (chart : Chart) (policy : Policy) (telemetry : Telemetry) : Manager :=
  { chart := chart
    policy := policy
    agents := []
    mailboxes := []
    formerAgents := []
    formerMailboxes := []
    nextTicket := 0
    onChange := none
    onIgnored := none
    telemetry := telemetry
    notes := []
    now := .int 0 }

/-- Takes in signals. -/
def report (m : Manager) (signals : List Signal) : Manager :=
  { m with telemetry := m.telemetry.absorb signals }

/-- The leads that have an interpreter. -/
def leads (m : Manager) : List String := Entries.keys m.agents

/-- The interpreter of a lead. -/
def agent? (m : Manager) (lead : String) : Option Agent := Entries.get? m.agents lead

/-- The queue of a lead. -/
def mailbox? (m : Manager) (lead : String) : Option Mailbox := Entries.get? m.mailboxes lead

/-- The interpreter of a ticket, current or former. -/
def agentOf? (m : Manager) (ticket : Nat) : Option Agent :=
  (m.agents.map Prod.snd ++ m.formerAgents).find? fun a => a.ticket == ticket

/-- The queue of a ticket, current or former. -/
def mailboxOf? (m : Manager) (ticket : Nat) : Option Mailbox :=
  (m.mailboxes.map Prod.snd ++ m.formerMailboxes).find? fun b => b.ticket == ticket

/-- The lead whose current interpreter has a ticket. -/
def leadOf? (m : Manager) (ticket : Nat) : Option String :=
  (m.agents.find? fun entry => entry.2.ticket == ticket).map Prod.fst

/-- Puts an interpreter in the place of the one of the same ticket. -/
def putAgent (m : Manager) (agent : Agent) : Manager :=
  let place (old : Agent) : Agent := if old.ticket = agent.ticket then agent else old
  { m with
    agents := m.agents.map fun entry => (entry.1, place entry.2)
    formerAgents := m.formerAgents.map place }

/-- Puts a queue in the place of the one of the same ticket. -/
def putMailbox (m : Manager) (mailbox : Mailbox) : Manager :=
  let place (old : Mailbox) : Mailbox := if old.ticket = mailbox.ticket then mailbox else old
  { m with
    mailboxes := m.mailboxes.map fun entry => (entry.1, place entry.2)
    formerMailboxes := m.formerMailboxes.map place }

/-- A new queue for a lead. -/
def newQueue (lead : String) : EventQueue String :=
  EventQueue.shielding lead (.int Settings.queueCapacity) Settings.protectedEvents

/-- Makes an interpreter that of a lead; a lead without a queue gets one. -/
def attach (m : Manager) (lead : String) (interpreter : Interpreter) : Manager :=
  let seated := { m with
    agents := Entries.set m.agents lead ⟨m.nextTicket, interpreter⟩
    nextTicket := m.nextTicket + 1 }
  if Entries.has m.mailboxes lead then seated
  else { seated with
    mailboxes := m.mailboxes ++ [(lead, ⟨seated.nextTicket, newQueue lead⟩)]
    nextTicket := seated.nextTicket + 1 }

/-- Starts an interpreter for a lead. -/
def launch (m : Manager) (lead : String) : Manager × Except Fault Interpreter :=
  let response := (Interpreter.fresh m.chart m.chart.context (some lead)).start
  (m.report response.signals, response.result.map fun _ => response.state)

/-- The interpreter of a lead, which is created and started if there is none. -/
def getOrCreate (m : Manager) (lead : String) : Manager × Except Fault Agent :=
  match m.agent? lead with
  | some agent => (m, .ok agent)
  | none =>
    match m.launch lead with
    | (m, .error fault) => (m, .error fault)
    | (m, .ok interpreter) =>
      let attached := (m.attach lead interpreter).report [.log (.leadCreated lead)]
      (attached, .ok ⟨m.nextTicket, interpreter⟩)

/-- Stops the interpreter of a lead and puts it among the former ones. -/
def retire (m : Manager) (agent : Agent) : Manager :=
  let response := agent.interpreter.stop
  { m with formerAgents := ⟨agent.ticket, response.state⟩ :: m.formerAgents }.report
    response.signals

/-- Removes a lead with its queue. -/
def remove (m : Manager) (lead : String) : Manager :=
  let alone := match m.agent? lead with
    | some agent => { m with agents := Entries.erase m.agents lead }.retire agent
    | none => m
  let former := match m.mailbox? lead with
    | some mailbox => mailbox :: alone.formerMailboxes
    | none => alone.formerMailboxes
  { alone with
    mailboxes := Entries.erase alone.mailboxes lead
    formerMailboxes := former }.report [.log (.leadRemoved lead)]

/-- Carries out the commands of the callback for changes until one fails. -/
def perform : List ChangeCommand → Manager → Manager × Option Fault
  | [], m => (m, none)
  | .fail text :: _, m => (m, some (.raised text))
  | .remove lead :: rest, m => perform rest (m.remove lead)

/-- Tells the callback for changes. -/
def tellChange (m : Manager) (lead name : String) (snapshot : Snapshot) : Manager :=
  match m.onChange with
  | none => m
  | some callback =>
    let noted := { m with notes := m.notes ++ [.changed lead snapshot.value] }
    match perform (callback lead snapshot) noted with
    | (m, none) => m
    | (m, some fault) => m.report [.log (.observerFailed name fault.message)]

/-- Tells the callback for ignored events. -/
def tellIgnored (m : Manager) (lead name : String) (diagnostic : Diagnostic) : Manager :=
  match m.onIgnored with
  | none => m
  | some callback =>
    let event : IgnoredEvent :=
      { lead := lead
        event := diagnostic.event
        reason := diagnostic.reason
        value := Text.dotted (diagnostic.path.drop 1)
        depth := ((m.mailbox? lead).map fun b => b.queue.depth).getD 0 }
    let noted := { m with notes := m.notes ++ [.ignored event] }
    match callback event with
    | none => noted
    | some fault => noted.report [.log (.unhandledCallbackFailed name fault.message)]

/-- Sends an event to an interpreter; the callbacks hear of it when it is that of a lead. -/
def deliver (m : Manager) (agent : Agent) (event : String) : Manager × Except Fault Snapshot :=
  let response := agent.interpreter.dispatch m.now event
  let m := (m.putAgent ⟨agent.ticket, response.state⟩).report response.signals
  let name := agent.interpreter.name
  match response.result with
  | .error fault => (m, .error fault)
  | .ok (.handled snapshot false) => (m, .ok snapshot)
  | .ok (.handled snapshot true) =>
    match m.leadOf? agent.ticket with
    | some lead => (m.tellChange lead name snapshot, .ok snapshot)
    | none => (m, .ok snapshot)
  | .ok (.ignored snapshot diagnostic) =>
    match m.leadOf? agent.ticket with
    | some lead => (m.tellIgnored lead name diagnostic, .ok snapshot)
    | none => (m, .ok snapshot)

/-- Sends an event to a lead at once. -/
def send (m : Manager) (lead event : String) : Manager × Except Fault Snapshot :=
  match m.getOrCreate lead with
  | (m, .error fault) => (m, .error fault)
  | (m, .ok agent) => m.deliver agent event

/-- Puts an event into the queue of a lead. -/
def enqueue (m : Manager) (lead event : String) : Manager × Except Fault Bool :=
  match m.getOrCreate lead with
  | (m, .error fault) => (m, .error fault)
  | (m, .ok _) =>
    match m.mailbox? lead with
    | none => (m, .error (.missingKey (.text lead)))
    | some mailbox =>
      let response := mailbox.queue.enqueue event
      ((m.putMailbox ⟨mailbox.ticket, response.state⟩).report response.signals, response.result)

/-- The snapshot of a lead. -/
def snapshot (m : Manager) (lead : String) : Except Fault (Option Snapshot) :=
  match m.agent? lead with
  | none => .ok none
  | some agent => agent.interpreter.shown.map some

/-- What there is to know about a lead. -/
structure Inspection where
  lead : String
  snapshot : Snapshot
  depth : Nat
  dropped : Nat
  pending : List String
  records : List Record

/-- What there is to know about a lead, as an object. -/
def Inspection.toJson (i : Inspection) : Json :=
  .obj
    [("lead_id", .str i.lead), ("value", .str i.snapshot.value),
      ("status", .str i.snapshot.status.word),
      ("tags", .arr ((Json.sortKeys i.snapshot.tags).map .str)),
      ("context", i.snapshot.context.toJson), ("context_version", .int i.snapshot.version),
      ("history_records", .obj (i.snapshot.history.map fun entry => (entry.1, .str entry.2))),
      ("queue", .obj
        [("depth", .int i.depth), ("dropped", .int i.dropped),
          ("pending", .arr (i.pending.map .str))]),
      ("transitions", .arr (i.records.map fun record => .obj record.fields))]

/-- How many waiting events an inspection lists. -/
def pendingShown : Int := 10

/-- What there is to know about a lead, with its latest records. -/
def inspect (m : Manager) (lead : String) (records : Option Int) :
    Except Fault (Option Inspection) :=
  match m.agent? lead, m.mailbox? lead with
  | some agent, some mailbox =>
    agent.interpreter.shown.map fun snapshot =>
      some
        { lead := lead
          snapshot := snapshot
          depth := mailbox.queue.depth
          dropped := mailbox.queue.dropped
          pending := mailbox.queue.pending pendingShown
          records := Record.latest agent.interpreter.log records }
  | _, _ => .ok none

end Manager

end Lifecycle
