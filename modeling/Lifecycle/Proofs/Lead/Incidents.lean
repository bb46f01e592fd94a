import Lifecycle.Proofs.Lead.Storage

/-!
# What happens to a manager

Whatever is done with a manager comes down to a few steps (`Manager.Step`): signals are reported, a
lead gets an interpreter or is removed, a queue is marked, an event comes into a queue or out of it,
an interpreter is handed an event, a callback is told or complains. The steps that somebody may ask
about are listed as incidents, and what incidents an operation consists of is computed beside it:
those of a delivery (`Delivery.incidents`), of a worker's turn (`Worker.incidents`), of whatever is
done in an office (`Office.history`). An operation takes just these steps (`steps_deliver`,
`steps_turn`, `Office.steps_attend`), so that what each step keeps holds after any course of things
(`Office.keeps_attendAll`).
-/

namespace Lifecycle

/-! ## Deliveries -/

/-- An event that an interpreter is handed, with the manager's side of it. -/
structure Delivery where
  /-- The lead whose current interpreter it is, if it is one. -/
  lead : Option String
  /-- The interpreter as it stands before. -/
  agent : Agent
  call : Call
  /-- The callback for changes. -/
  listener : Option (String → Snapshot → List ChangeCommand)

/-- The text that a command of the callback for changes fails with. -/
def ChangeCommand.failure? : ChangeCommand → Option String
  | fail text => some text
  | remove _ => none

/-- What happens to a manager that somebody may ask about. -/
inductive Incident where
  /-- An interpreter was handed an event. -/
  | called (delivery : Delivery)
  /-- The callback for changes was told of the new snapshot of a lead. -/
  | told (lead : String) (snapshot : Snapshot)
  /-- The callback for changes failed with a text. -/
  | complained (name text : String)
  /-- An event was offered to the queue of a ticket, which goes by the name of a lead. -/
  | offered (name : String) (ticket : Nat) (accepted : Bool)
  /-- An event was taken from the queue of a ticket. -/
  | taken (name : String) (ticket : Nat)

/-- The delivery of an incident. -/
def Incident.delivery? : Incident → Option Delivery
  | called delivery => some delivery
  | told .. | complained .. | offered .. | taken .. => none

namespace Delivery

/-- The delivery of an event by a manager. -/
def of (m : Manager) (agent : Agent) (event : String) : Delivery :=
  ⟨m.leadOf? agent.ticket, agent, ⟨m.now, event⟩, m.onChange⟩

/-- What the interpreter makes of the event. -/
def response (d : Delivery) : Response Interpreter Verdict :=
  d.agent.interpreter.dispatch d.call.now d.call.event

/-- The interpreter as it stands afterwards. -/
def after (d : Delivery) : Agent := ⟨d.agent.ticket, d.response.state⟩

/-- The lead that the event has changed, and its new snapshot. -/
def change? (d : Delivery) : Option (String × Snapshot) :=
  match d.lead, d.response.result with
  | some lead, .ok (.handled snapshot true) => some (lead, snapshot)
  | _, _ => none

/-- What a callback for changes is told of a lead, and the text that it fails with. -/
def echo (name lead : String) (snapshot : Snapshot) :
    Option (String → Snapshot → List ChangeCommand) → List Incident
  | none => []
  | some callback =>
    .told lead snapshot ::
      (((callback lead snapshot).findSome? ChangeCommand.failure?).map (.complained name)).toList

/-- What the callback for changes is told after the event, and the text that it fails with. -/
def echoes (d : Delivery) : List Incident :=
  match d.change? with
  | none => []
  | some (lead, snapshot) => echo d.agent.interpreter.name lead snapshot d.listener

/-- The incidents of a delivery. -/
def incidents (d : Delivery) : List Incident := .called d :: d.echoes

end Delivery

/-! ## Steps -/

namespace Manager

variable {m m' m₁ m₂ m₃ : Manager} {past xs ys : List Incident} {lead event : String}
  {agent : Agent} {interpreter : Interpreter} {signals : List Signal}

/-- All interpreters, those of leads and former ones. -/
def staff (m : Manager) : List Agent := m.agents.map Prod.snd ++ m.formerAgents

/-- An interpreter that a lead may be given: one that was started, or one that was restored from a
layout without repeated keys. -/
inductive Candidate (chart : Chart) (lead : String) : Interpreter → Prop
  | started {shown : Snapshot}
      (result_eq : (Interpreter.fresh chart chart.context (some lead)).start.result = .ok shown) :
      Candidate chart lead (Interpreter.started chart chart.context (some lead))
  | revived {layout : Json} {interpreter : Interpreter} (unrepeated : layout.unrepeated = true)
      (revive_eq : revive chart lead layout = .ok interpreter) : Candidate chart lead interpreter

/-- One thing that happens to a manager, with the incident that it is, if it is one. -/
inductive Step (m : Manager) : List Incident → Manager → Prop
  | report {signals : List Signal} (plain : ∀ signal ∈ signals, signal.IsPlain) :
      Step m [] (m.report signals)
  | install {lead : String} {interpreter : Interpreter}
      (candidate : Candidate m.chart lead interpreter) : Step m [] (m.install lead interpreter)
  | remove (lead : String) : Step m [] (m.remove lead)
  | mark {box : Mailbox} (mailboxOf?_eq : m.mailboxOf? box.ticket = some box) (processing : Bool) :
      Step m [] (m.putMailbox ⟨box.ticket, { box.queue with processing := processing }⟩)
  | ignored (event : IgnoredEvent) : Step m [] { m with notes := m.notes ++ [.ignored event] }
  | call {agent : Agent} (mem_staff : agent ∈ m.staff) (event : String) :
      Step m [.called (.of m agent event)]
        ((m.putAgent (Delivery.of m agent event).after).report
          (Delivery.of m agent event).response.signals)
  | tell (lead : String) (snapshot : Snapshot) :
      Step m [.told lead snapshot] { m with notes := m.notes ++ [.changed lead snapshot.value] }
  | complain (name text : String) :
      Step m [.complained name text] (m.report [.log (.observerFailed name text)])
  | offer {lead : String} {box : Mailbox} (mailbox?_eq : m.mailbox? lead = some box)
      (event : String) :
      Step m
        [.offered box.queue.lead box.ticket (EventQueue.letIn (box.queue.enqueue event).result)]
        ((m.putMailbox ⟨box.ticket, (box.queue.enqueue event).state⟩).report
          (box.queue.enqueue event).signals)
  | take {box : Mailbox} {event : String} (mailboxOf?_eq : m.mailboxOf? box.ticket = some box)
      (result_eq : box.queue.dequeue.result = .ok (some event)) :
      Step m [.taken box.queue.lead box.ticket]
        ((m.putMailbox ⟨box.ticket, box.queue.dequeue.state⟩).report box.queue.dequeue.signals)

/-- Some things that happen to a manager one after the other, with the incidents that they are. -/
inductive Steps : Manager → List Incident → Manager → Prop
  | refl (m : Manager) : Steps m [] m
  | cons {m₁ m₂ m₃ : Manager} {xs ys : List Incident} (first : m₁.Step xs m₂)
      (rest : Steps m₂ ys m₃) : Steps m₁ (xs ++ ys) m₃

theorem Step.steps (h : m.Step xs m') : m.Steps xs m' := by
  simpa using Steps.cons h (.refl m')

namespace Steps

theorem trans (h : m₁.Steps xs m₂) (h' : m₂.Steps ys m₃) : m₁.Steps (xs ++ ys) m₃ := by
  induction h with
  | refl => exact h'
  | cons first _ ih =>
    rw [List.append_assoc]
    exact .cons first (ih h')

/-- Steps that are no incidents may come before others. -/
theorem before (h : m₁.Steps [] m₂) (h' : m₂.Steps xs m₃) : m₁.Steps xs m₃ := h.trans h'

/-- Steps that are no incidents may follow on others. -/
theorem after (h : m₁.Steps xs m₂) (h' : m₂.Steps [] m₃) : m₁.Steps xs m₃ := by
  simpa using h.trans h'

/-- What each step keeps, some steps keep. -/
theorem keeps {Inv : List Incident → Manager → Prop}
    (step : ∀ {past m xs m'}, Inv past m → m.Step xs m' → Inv (past ++ xs) m')
    (h : m.Steps xs m') (hinv : Inv past m) : Inv (past ++ xs) m' := by
  induction h generalizing past with
  | refl => rwa [List.append_nil]
  | cons first _ ih =>
    rw [← List.append_assoc]
    exact ih (step hinv first)

end Steps

theorem steps_report (m : Manager) (h : ∀ signal ∈ signals, signal.IsPlain) :
    m.Steps [] (m.report signals) :=
  (Step.report h).steps

/-- A notice that is no complaint is plain. -/
theorem steps_log (m : Manager) {notice : Notice} (h : (Signal.log notice).IsPlain) :
    m.Steps [] (m.report [.log notice]) :=
  m.steps_report (List.forall_mem_singleton.mpr h)

theorem mem_staff_of_agent? (h : m.agent? lead = some agent) : agent ∈ m.staff := by
  obtain ⟨key, hmem, -⟩ := Entries.exists_mem_of_get? h
  exact List.mem_append_left _ (List.mem_map_of_mem (f := Prod.snd) hmem)

theorem mem_staff_of_agentOf? {ticket : Nat} (h : m.agentOf? ticket = some agent) :
    agent ∈ m.staff :=
  List.mem_of_find?_eq_some h

/-! ## Deliveries -/

theorem steps_perform (commands : List ChangeCommand) (m : Manager) :
    m.Steps [] (perform commands m).1 := by
  induction commands generalizing m with
  | nil => exact .refl m
  | cons command rest ih =>
    cases command with
    | fail text => exact .refl m
    | remove lead => exact (Step.remove lead).steps.before (ih _)

/-- Commands fail with what the first one fails with that does. -/
theorem perform_snd (commands : List ChangeCommand) (m : Manager) :
    (perform commands m).2 = (commands.findSome? ChangeCommand.failure?).map .raised := by
  induction commands generalizing m with
  | nil => rfl
  | cons command rest ih =>
    cases command with
    | fail text => rfl
    | remove lead => exact ih _

theorem steps_tellChange (m : Manager) (lead name : String) (snapshot : Snapshot) :
    m.Steps (Delivery.echo name lead snapshot m.onChange) (m.tellChange lead name snapshot) := by
  have htold := (Step.tell (m := m) lead snapshot).steps
  rcases hcallback : m.onChange with _ | callback
  · simp only [tellChange, hcallback]
    exact .refl m
  · have hperform := steps_perform (callback lead snapshot)
      { m with notes := m.notes ++ [.changed lead snapshot.value] }
    have hfault := perform_snd (callback lead snapshot)
      { m with notes := m.notes ++ [.changed lead snapshot.value] }
    simp only [hcallback] at htold hperform hfault
    simp only [tellChange, hcallback, Delivery.echo]
    generalize perform (callback lead snapshot) _ = performed at hperform hfault ⊢
    obtain ⟨m', fault⟩ := performed
    generalize (callback lead snapshot).findSome? ChangeCommand.failure? = text at hfault ⊢
    obtain rfl : fault = _ := hfault
    cases text with
    | none => exact htold.after hperform
    | some text => exact htold.trans (hperform.before (Step.complain name text).steps)

theorem steps_tellIgnored (m : Manager) (lead name : String) (diagnostic : Diagnostic) :
    m.Steps [] (m.tellIgnored lead name diagnostic) := by
  unfold tellIgnored
  split
  · exact .refl m
  · dsimp only
    split
    · exact (Step.ignored _).steps
    · exact (Step.ignored _).steps.before (steps_log _ trivial)

/-- An interpreter keeps its ticket, hence its lead. -/
theorem leadOf?_putAgent (m : Manager) (agent : Agent) (ticket : Nat) :
    (m.putAgent agent).leadOf? ticket = m.leadOf? ticket := by
  have hticket : ((fun entry : String × Agent => entry.2.ticket == ticket) ∘
      fun entry : String × Agent =>
        (entry.1, if entry.2.ticket = agent.ticket then agent else entry.2)) =
      fun entry => entry.2.ticket == ticket := by
    funext entry
    simp only [Function.comp_apply]
    split
    · rename_i heq
      rw [heq]
    · rfl
  simp only [leadOf?, putAgent, List.find?_map, hticket, Option.map_map]
  rfl

theorem leadOf?_report (m : Manager) (signals : List Signal) (ticket : Nat) :
    (m.report signals).leadOf? ticket = m.leadOf? ticket := rfl

/-- What a delivery does, told by the delivery. -/
theorem deliver_eq (m : Manager) (agent : Agent) (event : String) :
    m.deliver agent event =
      let d := Delivery.of m agent event
      let m := (m.putAgent d.after).report d.response.signals
      match d.response.result, d.lead with
      | .error fault, _ => (m, .error fault)
      | .ok (.handled snapshot true), some lead =>
        (m.tellChange lead agent.interpreter.name snapshot, .ok snapshot)
      | .ok (.ignored snapshot diagnostic), some lead =>
        (m.tellIgnored lead agent.interpreter.name diagnostic, .ok snapshot)
      | .ok verdict, _ => (m, .ok verdict.snapshot) := by
  have hresult : (Delivery.of m agent event).response.result =
    (agent.interpreter.dispatch m.now event).result := rfl
  have hlead : (Delivery.of m agent event).lead = m.leadOf? agent.ticket := rfl
  dsimp only
  simp only [deliver, leadOf?_report, leadOf?_putAgent, hresult, hlead]
  rcases (agent.interpreter.dispatch m.now event).result with
    fault | ⟨snapshot, _ | _⟩ | ⟨snapshot, diagnostic⟩ <;>
    cases m.leadOf? agent.ticket <;> rfl

/-- An interpreter is handed an event. -/
theorem steps_deliver (hmem : agent ∈ m.staff) (event : String) :
    m.Steps (Delivery.of m agent event).incidents (m.deliver agent event).1 := by
  have hcall := (Step.call hmem event).steps
  have htell := steps_tellChange ((m.putAgent (Delivery.of m agent event).after).report
    (Delivery.of m agent event).response.signals)
  have hignored := steps_tellIgnored ((m.putAgent (Delivery.of m agent event).after).report
    (Delivery.of m agent event).response.signals)
  rw [deliver_eq]
  unfold Delivery.incidents Delivery.echoes Delivery.change?
  dsimp only
  rcases (Delivery.of m agent event).response.result with
    fault | ⟨snapshot, _ | _⟩ | ⟨snapshot, diagnostic⟩ <;>
    rcases (Delivery.of m agent event).lead with _ | lead
  case ok.handled.true.some => exact hcall.trans (htell lead _ snapshot)
  case ok.ignored.some => exact hcall.after (hignored lead _ diagnostic)
  all_goals exact hcall

/-! ## Leads that come, and events that arrive -/

theorem agents_install (m : Manager) (lead : String) (interpreter : Interpreter) :
    (m.install lead interpreter).agents =
      Entries.set m.agents lead ⟨m.nextTicket, interpreter⟩ := by
  unfold install
  rcases m.agent? lead with _ | old <;> exact agents_attach _ lead interpreter

/-- An interpreter that a lead without one is given is installed. -/
theorem attach_eq_install (h : m.agent? lead = none) (interpreter : Interpreter) :
    m.attach lead interpreter = m.install lead interpreter := by
  rw [install, h]

theorem steps_launch (m : Manager) (lead : String) :
    m.Steps [] (m.launch lead).1 ∧
      ∀ interpreter, (m.launch lead).2 = .ok interpreter → Candidate m.chart lead interpreter := by
  refine ⟨m.steps_report (Interpreter.plain_start _), fun interpreter h => ?_⟩
  dsimp only [launch] at h
  rcases hresult : (Interpreter.fresh m.chart m.chart.context (some lead)).start.result with
    fault | shown <;> rw [hresult] at h
  · cases h
  · cases h
    exact .started hresult

/-- A lead has an interpreter afterwards. -/
theorem steps_getOrCreate (m : Manager) (lead : String) :
    m.Steps [] (m.getOrCreate lead).1 ∧
      ∀ agent, (m.getOrCreate lead).2 = .ok agent →
        (m.getOrCreate lead).1.agent? lead = some agent := by
  unfold getOrCreate
  rcases hagent : m.agent? lead with _ | agent
  · obtain ⟨hlaunch, hcandidate⟩ := m.steps_launch lead
    have hfree : (m.launch lead).1.agent? lead = none := hagent
    have hchart : (m.launch lead).1.chart = m.chart := rfl
    generalize m.launch lead = launched at hlaunch hcandidate hfree hchart
    obtain ⟨launched, fault | interpreter⟩ := launched
    · exact ⟨hlaunch, nofun⟩
    · dsimp only
      rw [attach_eq_install hfree]
      have hinstall := Step.install (hchart ▸ hcandidate interpreter rfl)
      refine ⟨(hlaunch.before hinstall.steps).before (steps_log _ trivial), fun agent h => ?_⟩
      have hget : (launched.install lead interpreter).agent? lead =
          some ⟨launched.nextTicket, interpreter⟩ := by
        rw [agent?, agents_install, Entries.get?_set, if_pos (beq_self_eq_true lead)]
      rw [← Except.ok.inj h]
      exact hget
  · refine ⟨.refl m, fun found h => ?_⟩
    rw [hagent, Except.ok.inj h]

/-- The incidents of an event that is sent at once. -/
def sends (m : Manager) (lead event : String) : List Incident :=
  match m.getOrCreate lead with
  | (_, .error _) => []
  | (m, .ok agent) => (Delivery.of m agent event).incidents

theorem steps_send (m : Manager) (lead event : String) :
    m.Steps (m.sends lead event) (m.send lead event).1 := by
  obtain ⟨hcreate, hagent⟩ := m.steps_getOrCreate lead
  unfold send sends
  generalize m.getOrCreate lead = created at hcreate hagent
  obtain ⟨created, fault | agent⟩ := created
  · exact hcreate
  · exact hcreate.before (steps_deliver (mem_staff_of_agent? (hagent agent rfl)) event)

/-- The incidents of an event that is put into a queue. -/
def offers (m : Manager) (lead event : String) : List Incident :=
  match m.getOrCreate lead with
  | (_, .error _) => []
  | (m, .ok _) =>
    match m.mailbox? lead with
    | none => []
    | some box =>
      [.offered box.queue.lead box.ticket (EventQueue.letIn (box.queue.enqueue event).result)]

theorem steps_enqueue (m : Manager) (lead event : String) :
    m.Steps (m.offers lead event) (m.enqueue lead event).1 := by
  obtain ⟨hcreate, -⟩ := m.steps_getOrCreate lead
  unfold enqueue offers
  generalize m.getOrCreate lead = created at hcreate
  obtain ⟨created, fault | agent⟩ := created
  · exact hcreate
  · rcases hbox : created.mailbox? lead with _ | box
    · simp only [hbox]
      exact hcreate
    · simp only [hbox]
      exact hcreate.before (Step.offer hbox event).steps

/-! ## Files -/

theorem steps_loadLead (m : Manager) (lead : String) {layout : Json}
    (hun : layout.unrepeated = true) : m.Steps [] (m.loadLead lead layout).1 := by
  unfold loadLead
  split
  · rename_i interpreter hrevived
    have htold : m.Steps [] (m.report interpreter.restoredSignals) :=
      m.steps_report (List.forall_mem_singleton.mpr trivial)
    have hcandidate : Candidate (m.report interpreter.restoredSignals).chart lead interpreter :=
      .revived hun hrevived
    exact htold.before (Step.install hcandidate).steps
  · rename_i corruption _
    have hcount : (Signal.count "persist.error"
        [("op", "restore"), ("policy", m.policy.word)]).IsPlain :=
      Signal.isPlain_count 'p' (by decide) (by decide) _
    have htold : m.Steps [] (m.report [.log (.leadCorrupt lead corruption.message),
        .count "persist.error" [("op", "restore"), ("policy", m.policy.word)]]) :=
      m.steps_report (List.forall_mem_cons.mpr ⟨trivial, List.forall_mem_singleton.mpr hcount⟩)
    dsimp only
    split
    · exact htold
    · obtain ⟨hlaunch, hcandidate⟩ := steps_launch (m.report [.log (.leadCorrupt lead
        corruption.message), .count "persist.error" [("op", "restore"), ("policy", m.policy.word)]])
          lead
      split
      · rename_i m' fault hlaunched
        rw [hlaunched] at hlaunch
        exact htold.before hlaunch
      · rename_i m' interpreter hlaunched
        have hchart : m'.chart = m.chart :=
          congrArg (fun launched => launched.1.chart) hlaunched.symm
        rw [hlaunched] at hlaunch hcandidate
        have hinstall := Step.install (m := m') (hchart ▸ hcandidate interpreter rfl)
        exact (htold.before hlaunch).before hinstall.steps

theorem steps_load (m : Manager) (disk : Disk) (route : Route) :
    m.Steps [] (m.load disk route).1 :=
  load_induction (P := fun m' => m.Steps [] m')
    (fun lead _ hun h => h.before (steps_loadLead _ lead hun))
    (fun hplain h => h.before (steps_report _ hplain)) (.refl m) disk route

theorem steps_save (m : Manager) (disk : Disk) (route : Route) :
    m.Steps [] (m.save disk route).1 := by
  unfold save
  split
  · exact .refl m
  · exact m.steps_report (LeadsFile.plain_save _ _ _ _ _)

end Manager

/-! ## Workers -/

namespace Worker

open Manager

variable {m : Manager} {w : Worker}

/-- The incidents of the next event of a queue that has been claimed for a lead. -/
def takes (m : Manager) (lead : String) (ticket : Nat) : List Incident :=
  match m.mailboxOf? ticket with
  | none => []
  | some box =>
    match box.queue.items.head? with
    | none => []
    | some event =>
      .taken box.queue.lead ticket ::
        match m.agent? lead with
        | none => []
        | some agent => (Delivery.of m agent event).incidents

/-- The incidents of going through the leads to come until an event is sent on. -/
def seeks : List String → Manager → Worker → List Incident
  | [], _, _ => []
  | lead :: rest, m, w =>
    match m.mailbox? lead with
    | none => seeks rest m w
    | some box =>
      if box.queue.processing then seeks rest m w
      else
        let claimed := { w with claim := some (lead, box.ticket), remaining := some rest }
        takes (mark m box.ticket true) lead box.ticket ++
          match takeEvent (mark m box.ticket true) claimed lead box.ticket with
          | (_, _, some _) => []
          | (m, w, none) => seeks rest m w

/-- The incidents of a turn. -/
def incidents (m : Manager) (w : Worker) : List Incident :=
  match w.claim with
  | none => seeks (w.agenda m) m w
  | some (lead, ticket) =>
    takes m lead ticket ++
      match takeEvent m w lead ticket with
      | (_, _, some _) => []
      | (m, w, none) => seeks (w.agenda m) m w

theorem steps_mark (m : Manager) (ticket : Nat) (processing : Bool) :
    m.Steps [] (mark m ticket processing) := by
  unfold mark
  split
  · exact .refl m
  · rename_i box hbox
    obtain rfl := ticket_of_mailboxOf? hbox
    exact (Step.mark hbox processing).steps

theorem steps_takeEvent (m : Manager) (w : Worker) (lead : String) (ticket : Nat) :
    m.Steps (takes m lead ticket) (takeEvent m w lead ticket).1 := by
  unfold takes takeEvent release
  rcases hbox : m.mailboxOf? ticket with _ | box
  · exact steps_mark m ticket false
  · obtain rfl := ticket_of_mailboxOf? hbox
    dsimp only [Option.map_some]
    obtain ⟨hitems, hdequeue⟩ | ⟨line, event, hitems, hstate, hresult⟩ := box.queue.dequeue_cases
    · -- The queue is put back as it was.
      rw [hdequeue, hitems]
      exact (Step.mark hbox box.queue.processing).steps.before (steps_mark _ _ _)
    · have htaken := (Step.take hbox hresult).steps
      have hagent : ((m.putMailbox ⟨box.ticket, box.queue.dequeue.state⟩).report
        box.queue.dequeue.signals).agent? lead = m.agent? lead := rfl
      rw [hresult, hitems, List.head?_cons, hagent]
      dsimp only
      rcases hagent' : m.agent? lead with _ | agent
      · exact htaken.after (steps_mark _ _ _)
      · have hmem : agent ∈ ((m.putMailbox ⟨box.ticket, box.queue.dequeue.state⟩).report
            box.queue.dequeue.signals).staff := mem_staff_of_agent? hagent'
        have hdeliver := htaken.trans (steps_deliver hmem event)
        dsimp only
        generalize deliver _ agent event = delivered at hdeliver
        obtain ⟨m', fault | snapshot⟩ := delivered
        · exact hdeliver.after (steps_mark _ _ _)
        · exact hdeliver

theorem steps_seek (leads : List String) (m : Manager) (w : Worker) :
    m.Steps (seeks leads m w) (seek leads m w).1 := by
  induction leads generalizing m w with
  | nil => exact .refl m
  | cons lead rest ih =>
    unfold seek seeks
    rcases hbox : m.mailbox? lead with _ | box
    · exact ih m w
    · dsimp only
      split
      · exact ih m w
      · have htaken := (steps_mark m box.ticket true).before (steps_takeEvent _
          { w with claim := some (lead, box.ticket), remaining := some rest } lead box.ticket)
        generalize takeEvent _ _ lead box.ticket = taken at htaken
        obtain ⟨m', after, _ | turn⟩ := taken
        · exact htaken.trans (ih m' after)
        · exact htaken.trans (.refl m')

/-- A worker takes a turn. -/
theorem steps_advance (m : Manager) (w : Worker) : m.Steps (incidents m w) (advance m w).1 := by
  unfold advance incidents
  rcases w.claim with _ | ⟨lead, ticket⟩
  · exact steps_seek _ m w
  · have htaken := steps_takeEvent m w lead ticket
    dsimp only
    generalize takeEvent m w lead ticket = taken at htaken
    obtain ⟨m', after, _ | turn⟩ := taken
    · exact htaken.trans (steps_seek _ m' after)
    · exact htaken.trans (.refl m')

end Worker

/-! ## Offices -/

namespace Office

open Manager

/-- What is done with an office, or with an interpreter that somebody holds. -/
inductive Affair where
  | errand (errand : Errand)
  /-- An interpreter is handed an event by somebody who holds it, whether a lead still has it or
  not. -/
  | call (ticket : Nat) (event : String)

/-- Attends to an affair. -/
def attend (o : Office) : Affair → Office
  | .errand errand => o.carryOut errand
  | .call ticket event =>
    match o.manager.agentOf? ticket with
    | none => o
    | some agent => { o with manager := (o.manager.deliver agent event).1 }

/-- Attends to one affair after the other. -/
def attendAll (o : Office) (affairs : List Affair) : Office := affairs.foldl attend o

/-- The incidents of a worker's turn. -/
def turnIncidents (o : Office) (i : Nat) : List Incident :=
  match o.stations[i]? with
  | some (.working worker) => worker.incidents o.manager
  | _ => []

/-- The incidents of an affair. -/
def incidents (o : Office) : Affair → List Incident
  | .errand (.move (.send lead event)) => o.manager.sends lead event
  | .errand (.move (.enqueue lead event)) => o.manager.offers lead event
  | .errand (.move (.turn i)) => o.turnIncidents i
  | .errand _ => []
  | .call ticket event =>
    match o.manager.agentOf? ticket with
    | none => []
    | some agent => (Delivery.of o.manager agent event).incidents

/-- The incidents of affairs, in order. -/
def history (o : Office) : List Affair → List Incident
  | [] => []
  | affair :: rest => o.incidents affair ++ (o.attend affair).history rest

/-- The deliveries of affairs, in order. -/
def deliveries (o : Office) (affairs : List Affair) : List Delivery :=
  (o.history affairs).filterMap Incident.delivery?

variable {o : Office} {past : List Incident} {affairs : List Affair}

theorem steps_turn (o : Office) (i : Nat) :
    o.manager.Steps (o.turnIncidents i) (o.turn i).manager := by
  unfold Office.turn turnIncidents
  rcases o.stations[i]? with _ | ⟨worker⟩ | count | fault
  · exact .refl _
  · have hturn := worker.steps_advance o.manager
    dsimp only
    generalize worker.advance o.manager = result at hturn
    obtain ⟨m, after, _ | _ | fault⟩ := result <;> exact hturn
  · exact .refl _
  · exact .refl _

/-- Whatever is done comes down to steps, where it does not only set the clock or other
callbacks. -/
theorem keeps_attend (Inv : List Incident → Manager → Prop)
    (step : ∀ {past m xs m'}, Inv past m → m.Step xs m' → Inv (past ++ xs) m')
    (listen : ∀ {past m} onChange onIgnored, Inv past m →
      Inv past { m with onChange := onChange, onIgnored := onIgnored })
    (affair : Affair)
    (clock : ∀ {past m now}, affair = .errand (.move (.clock now)) → Inv past m →
      Inv past { m with now := now })
    (hinv : Inv past o.manager) : Inv (past ++ o.incidents affair) (o.attend affair).manager := by
  cases affair with
  | call ticket event =>
    rcases hagent : o.manager.agentOf? ticket with _ | agent
    · simp only [attend, incidents, hagent]
      exact (Steps.refl _).keeps step hinv
    · simp only [attend, incidents, hagent]
      exact (steps_deliver (mem_staff_of_agentOf? hagent) event).keeps step hinv
  | errand errand =>
    cases errand with
    | listen onChange onIgnored =>
      exact (List.append_nil past).symm ▸ listen onChange onIgnored hinv
    | save disk route => exact (o.manager.steps_save disk route).keeps step hinv
    | load disk route => exact (o.manager.steps_load disk route).keeps step hinv
    | move move =>
      cases move with
      | clock now => exact (List.append_nil past).symm ▸ clock rfl hinv
      | create lead => exact (o.manager.steps_getOrCreate lead).1.keeps step hinv
      | send lead event => exact (o.manager.steps_send lead event).keeps step hinv
      | enqueue lead event => exact (o.manager.steps_enqueue lead event).keeps step hinv
      | remove lead => exact (Step.remove lead).steps.keeps step hinv
      | hire target => exact (Steps.refl _).keeps step hinv
      | turn i => exact (o.steps_turn i).keeps step hinv

/-- What each step keeps, and settings do, holds after any affairs of their history. -/
theorem keeps_attendAll (Inv : List Incident → Manager → Prop)
    (step : ∀ {past m xs m'}, Inv past m → m.Step xs m' → Inv (past ++ xs) m')
    (listen : ∀ {past m} onChange onIgnored, Inv past m →
      Inv past { m with onChange := onChange, onIgnored := onIgnored })
    (clock : ∀ {past m now}, .errand (.move (.clock now)) ∈ affairs → Inv past m →
      Inv past { m with now := now })
    (hinv : Inv past o.manager) :
    Inv (past ++ o.history affairs) (o.attendAll affairs).manager := by
  induction affairs generalizing o past with
  | nil => rwa [history, List.append_nil]
  | cons affair rest ih =>
    rw [history, ← List.append_assoc]
    refine ih (fun hmem => clock (List.mem_cons_of_mem _ hmem)) ?_
    exact keeps_attend Inv step listen affair (fun heq => clock (heq ▸ List.mem_cons_self)) hinv

end Office

end Lifecycle
