import Lifecycle.Lead.Worker
import Lifecycle.Proofs.Entries
import Lifecycle.Proofs.Interpreter.Course
import Lifecycle.Proofs.Lead.Queue

/-!
# Managers that remove no lead

As long as no lead is removed or replaced, every lead keeps the interpreter and the queue that it
was given first, and the tickets tell them apart (`Manager.Orderly`). What a manager does is then
told by two functions: the queue of every lead (`Manager.queueOf`) and the interpreter of every lead
(`Manager.interpreterOf`), where a lead that is not there yet counts with what it would be given.
Creating a lead changes neither; an arrival changes one queue (`Orderly.enqueue_spec`), a call one
interpreter (`Orderly.send_spec`).
-/

namespace Lifecycle

/-! ## Entries with tickets -/

namespace Entries

theorem set_set {α : Type} (entries : Entries α) (key : String) (first second : α) :
    set (set entries key first) key second = set entries key second := by
  induction entries with
  | nil => simp [set]
  | cons entry rest ih =>
    by_cases h : (entry.1 == key) = true
    · simp [set, h]
    · simp [set, h, ih]

theorem set_self {α : Type} {entries : Entries α} {key : String} {value : α}
    (h : get? entries key = some value) : set entries key value = entries := by
  induction entries with
  | nil => cases h
  | cons entry rest ih =>
    rw [get?_cons] at h
    split at h
    · rename_i hkey
      obtain rfl := Option.some.inj h
      rw [set, if_pos hkey]
    · rename_i hkey
      rw [set, if_neg hkey, ih h]

/-- Writing at a key that is there is replacing its value. -/
theorem set_eq_map {α : Type} {entries : Entries α} {key : String} {value : α}
    (hkeys : (keys entries).Nodup) (h : (get? entries key).isSome = true) :
    set entries key value =
      entries.map fun entry => (entry.1, if entry.1 = key then value else entry.2) := by
  induction entries with
  | nil => cases h
  | cons entry rest ih =>
    obtain ⟨hnew, hrest⟩ := List.nodup_cons.mp hkeys
    by_cases hkey : entry.1 = key
    · subst hkey
      have hsame : (rest.map fun e => (e.1, if e.1 = entry.1 then value else e.2)) = rest := by
        refine (List.map_congr_left fun e he => ?_).trans (List.map_id rest)
        rw [if_neg fun heq : e.1 = entry.1 => hnew (heq ▸ List.mem_map_of_mem he)]; rfl
      rw [set, if_pos (beq_self_eq_true _), List.map_cons, if_pos rfl, hsame]
    · rw [get?_cons, if_neg (by simpa using hkey)] at h
      rw [set, if_neg (by simpa using hkey), List.map_cons, if_neg hkey, ih hrest h]

end Entries

/-- Entries under different keys whose values have different tickets, all of them given out. -/
structure Ticketed {α : Type} (ticket : α → Nat) (next : Nat) (entries : Entries α) : Prop where
  nodup_keys : (Entries.keys entries).Nodup
  nodup_tickets : (entries.map fun entry => ticket entry.2).Nodup
  ticket_lt : ∀ number ∈ entries.map fun entry => ticket entry.2, number < next

namespace Ticketed

variable {α : Type} {ticket : α → Nat} {next : Nat} {entries : Entries α} {lead : String}
  {old new : α}

/-- The entry of a ticket is that of the key. -/
theorem key_eq (h : Ticketed ticket next entries) (hget : Entries.get? entries lead = some old)
    {entry : String × α} (hmem : entry ∈ entries) (hticket : ticket entry.2 = ticket old) :
    entry = (lead, old) := by
  obtain ⟨key, hold, hkey⟩ := Entries.exists_mem_of_get? hget
  obtain rfl := eq_of_beq hkey
  exact List.inj_on_of_nodup_map h.nodup_tickets hmem hold hticket

/-- Looking for a ticket finds the value with the ticket. -/
theorem find?_ticket (h : Ticketed ticket next entries)
    (hget : Entries.get? entries lead = some old) :
    (entries.map Prod.snd).find? (fun a => ticket a == ticket old) = some old := by
  obtain ⟨key, hold, -⟩ := Entries.exists_mem_of_get? hget
  rcases hfind : (entries.map Prod.snd).find? (fun a => ticket a == ticket old) with _ | found
  · have := List.find?_eq_none.mp hfind old (List.mem_map_of_mem hold)
    simp at this
  · obtain ⟨entry, hentry, rfl⟩ := List.mem_map.mp (List.mem_of_find?_eq_some hfind)
    have hticket : ticket entry.2 = ticket old := by simpa using List.find?_some hfind
    rw [h.key_eq hget hentry hticket]

/-- Replacing the value of a ticket is writing at its key. -/
theorem map_eq_set (h : Ticketed ticket next entries)
    (hget : Entries.get? entries lead = some old) (hnew : ticket new = ticket old) :
    (entries.map fun entry => (entry.1, if ticket entry.2 = ticket new then new else entry.2)) =
      Entries.set entries lead new := by
  rw [Entries.set_eq_map h.nodup_keys (hget ▸ rfl)]
  refine List.map_congr_left fun entry hentry => ?_
  by_cases hticket : ticket entry.2 = ticket new
  · obtain rfl := h.key_eq hget hentry (hticket.trans hnew)
    rw [if_pos hticket, if_pos rfl]
  · have hne : entry.1 ≠ lead := by
      rintro rfl
      have hold := Entries.get?_of_mem h.nodup_keys hentry
      rw [hget] at hold
      exact hticket (hnew ▸ congrArg ticket (Option.some.inj hold).symm)
    rw [if_neg hticket, if_neg hne]

theorem map_ticket_set (hget : Entries.get? entries lead = some old)
    (hnew : ticket new = ticket old) :
    ((Entries.set entries lead new).map fun entry => ticket entry.2) =
      entries.map fun entry => ticket entry.2 := by
  induction entries with
  | nil => cases hget
  | cons entry rest ih =>
    rw [Entries.get?_cons] at hget
    split at hget
    · rename_i hkey
      obtain rfl := Option.some.inj hget
      rw [Entries.set, if_pos hkey, List.map_cons, List.map_cons, hnew]
    · rename_i hkey
      rw [Entries.set, if_neg hkey, List.map_cons, List.map_cons, ih hget]

theorem set (h : Ticketed ticket next entries) (hget : Entries.get? entries lead = some old)
    (hnew : ticket new = ticket old) : Ticketed ticket next (Entries.set entries lead new) := by
  have hkey : lead ∈ Entries.keys entries :=
    (Entries.get?_isSome_iff entries lead).mp (by rw [hget]; rfl)
  refine ⟨?_, ?_, ?_⟩
  · rw [Entries.keys_set, if_pos hkey]; exact h.nodup_keys
  · rw [map_ticket_set hget hnew]; exact h.nodup_tickets
  · rw [map_ticket_set hget hnew]; exact h.ticket_lt

/-- A new key gets a value with a new ticket. -/
theorem add {later : Nat} (h : Ticketed ticket next entries)
    (hget : Entries.get? entries lead = none) (hle : next ≤ ticket new) (hlt : ticket new < later) :
    Ticketed ticket later (Entries.set entries lead new) := by
  rw [Entries.set_of_get?_none new hget]
  refine ⟨?_, ?_, ?_⟩
  · rw [Entries.keys, List.map_append]
    refine List.nodup_append.mpr ⟨h.nodup_keys, List.nodup_singleton _, ?_⟩
    rintro key hkey _ hlead rfl
    obtain rfl := List.mem_singleton.mp hlead
    rw [← Entries.keys, ← Entries.get?_isSome_iff, hget] at hkey
    cases hkey
  · rw [List.map_append]
    refine List.nodup_append.mpr ⟨h.nodup_tickets, List.nodup_singleton _, ?_⟩
    rintro number hold _ hnumber rfl
    have := h.ticket_lt number hold
    rw [List.mem_singleton.mp hnumber] at this
    exact Nat.lt_irrefl _ (Nat.lt_of_lt_of_le this hle)
  · intro number hnumber
    rw [List.map_append] at hnumber
    rcases List.mem_append.mp hnumber with hold | hnumber
    · exact Nat.lt_trans (h.ticket_lt number hold) (Nat.lt_of_le_of_lt hle hlt)
    · rw [List.mem_singleton.mp hnumber]
      exact hlt

end Ticketed

namespace Manager

/-! ## Queues and interpreters by lead -/

/-- The queue of a lead; for a lead without one, the queue that it would be given. -/
def queueOf (m : Manager) (lead : String) : EventQueue String :=
  ((m.mailbox? lead).map Mailbox.queue).getD (newQueue lead)

/-- The interpreter of a lead; for a lead without one, the interpreter that it would be given. -/
def interpreterOf (m : Manager) (lead : String) : Interpreter :=
  ((m.agent? lead).map Agent.interpreter).getD
    (Interpreter.started m.chart m.chart.context (some lead))

/-- No lead was removed or replaced. -/
structure Orderly (m : Manager) : Prop where
  agents : Ticketed Agent.ticket m.nextTicket m.agents
  mailboxes : Ticketed Mailbox.ticket m.nextTicket m.mailboxes
  isSome_eq (lead : String) : (m.agent? lead).isSome = (m.mailbox? lead).isSome
  formerAgents_eq : m.formerAgents = []
  formerMailboxes_eq : m.formerMailboxes = []

/-- The callback for changes removes no leads. It may fail. -/
def Calm (m : Manager) : Prop :=
  ∀ callback, m.onChange = some callback → ∀ lead snapshot,
    ∀ command ∈ callback lead snapshot, ∃ text, command = .fail text

/-- A manager that has gone on from another one without removing a lead. -/
structure Follows (m m' : Manager) : Prop where
  orderly : m'.Orderly
  chart_eq : m'.chart = m.chart
  onChange_eq : m'.onChange = m.onChange
  now_eq : m'.now = m.now
  /-- Every lead keeps its queue. -/
  mailbox {lead : String} {box : Mailbox} : m.mailbox? lead = some box →
    ∃ box', m'.mailbox? lead = some box' ∧ box'.ticket = box.ticket

theorem Follows.refl {m : Manager} (h : m.Orderly) : m.Follows m :=
  ⟨h, rfl, rfl, rfl, fun hbox => ⟨_, hbox, rfl⟩⟩

theorem Follows.trans {m₁ m₂ m₃ : Manager} (h : m₁.Follows m₂) (h' : m₂.Follows m₃) :
    m₁.Follows m₃ where
  orderly := h'.orderly
  chart_eq := h'.chart_eq.trans h.chart_eq
  onChange_eq := h'.onChange_eq.trans h.onChange_eq
  now_eq := h'.now_eq.trans h.now_eq
  mailbox hbox := by
    obtain ⟨box', hbox', hticket⟩ := h.mailbox hbox
    obtain ⟨box'', hbox'', hticket'⟩ := h'.mailbox hbox'
    exact ⟨box'', hbox'', hticket'.trans hticket⟩

theorem Follows.calm {m m' : Manager} (h : m.Follows m') (hcalm : m.Calm) : m'.Calm :=
  fun callback hcallback => hcalm callback (h.onChange_eq ▸ hcallback)

/-- Gives a lead a queue with a ticket. -/
def setQueue (m : Manager) (lead : String) (ticket : Nat) (queue : EventQueue String) : Manager :=
  { m with mailboxes := Entries.set m.mailboxes lead ⟨ticket, queue⟩ }

/-- Gives a lead an interpreter with a ticket. -/
def setInterpreter (m : Manager) (lead : String) (ticket : Nat) (interpreter : Interpreter) :
    Manager :=
  { m with agents := Entries.set m.agents lead ⟨ticket, interpreter⟩ }

variable {m : Manager} {lead event : String} {box : Mailbox} {agent : Agent}
  {queue : EventQueue String} {interpreter : Interpreter}

theorem queueOf_eq (h : m.mailbox? lead = some box) : m.queueOf lead = box.queue := by
  rw [queueOf, h]; rfl

theorem interpreterOf_eq (h : m.agent? lead = some agent) :
    m.interpreterOf lead = agent.interpreter := by
  rw [interpreterOf, h]; rfl

/-! ### Writing at a lead -/

theorem mailbox?_setQueue (m : Manager) (lead other : String) (ticket : Nat)
    (queue : EventQueue String) : (m.setQueue lead ticket queue).mailbox? other =
      if lead = other then some ⟨ticket, queue⟩ else m.mailbox? other := by
  rw [mailbox?, setQueue, Entries.get?_set, mailbox?]
  by_cases h : lead = other <;> simp [h]

theorem queueOf_setQueue (m : Manager) (lead : String) (ticket : Nat) (queue : EventQueue String) :
    (m.setQueue lead ticket queue).queueOf = Function.update m.queueOf lead queue := by
  funext other
  rw [queueOf, mailbox?_setQueue, Function.update_apply]
  by_cases h : lead = other
  · rw [if_pos h, if_pos h.symm]; rfl
  · rw [if_neg h, if_neg (Ne.symm h), queueOf]

theorem agent?_setInterpreter (m : Manager) (lead other : String) (ticket : Nat)
    (interpreter : Interpreter) : (m.setInterpreter lead ticket interpreter).agent? other =
      if lead = other then some ⟨ticket, interpreter⟩ else m.agent? other := by
  rw [agent?, setInterpreter, Entries.get?_set, agent?]
  by_cases h : lead = other <;> simp [h]

theorem interpreterOf_setInterpreter (m : Manager) (lead : String) (ticket : Nat)
    (interpreter : Interpreter) : (m.setInterpreter lead ticket interpreter).interpreterOf =
      Function.update m.interpreterOf lead interpreter := by
  funext other
  rw [interpreterOf, agent?_setInterpreter, Function.update_apply]
  by_cases h : lead = other
  · rw [if_pos h, if_pos h.symm]; rfl
  · rw [if_neg h, if_neg (Ne.symm h), interpreterOf]; rfl

theorem Orderly.follows_setQueue (h : m.Orderly) (hbox : m.mailbox? lead = some box)
    (queue : EventQueue String) : m.Follows (m.setQueue lead box.ticket queue) where
  orderly :=
    { agents := h.agents
      mailboxes := h.mailboxes.set hbox rfl
      isSome_eq := fun other => by
        rw [mailbox?_setQueue, show (m.setQueue lead box.ticket queue).agent? other =
          m.agent? other from rfl, h.isSome_eq other]
        split
        · rename_i heq
          rw [← heq, hbox]; rfl
        · rfl
      formerAgents_eq := h.formerAgents_eq
      formerMailboxes_eq := h.formerMailboxes_eq }
  chart_eq := rfl
  onChange_eq := rfl
  now_eq := rfl
  mailbox {other _} hother := by
    rw [mailbox?_setQueue]
    split
    · rename_i heq
      rw [← heq, hbox] at hother
      have hticket := congrArg Mailbox.ticket (Option.some.inj hother)
      exact ⟨_, rfl, hticket⟩
    · exact ⟨_, hother, rfl⟩

theorem Orderly.follows_setInterpreter (h : m.Orderly) (hagent : m.agent? lead = some agent)
    (interpreter : Interpreter) : m.Follows (m.setInterpreter lead agent.ticket interpreter) where
  orderly :=
    { agents := h.agents.set hagent rfl
      mailboxes := h.mailboxes
      isSome_eq := fun other => by
        rw [agent?_setInterpreter, show (m.setInterpreter lead agent.ticket interpreter).mailbox?
          other = m.mailbox? other from rfl, ← h.isSome_eq other]
        split
        · rename_i heq
          rw [← heq, hagent]; rfl
        · rfl
      formerAgents_eq := h.formerAgents_eq
      formerMailboxes_eq := h.formerMailboxes_eq }
  chart_eq := rfl
  onChange_eq := rfl
  now_eq := rfl
  mailbox hother := ⟨_, hother, rfl⟩

/-! ### Tickets -/

theorem Orderly.mailboxOf?_eq (h : m.Orderly) (hbox : m.mailbox? lead = some box) :
    m.mailboxOf? box.ticket = some box := by
  rw [mailboxOf?, h.formerMailboxes_eq, List.append_nil]
  exact h.mailboxes.find?_ticket hbox

theorem Orderly.putMailbox_eq (h : m.Orderly) (hbox : m.mailbox? lead = some box)
    (queue : EventQueue String) :
    m.putMailbox ⟨box.ticket, queue⟩ = m.setQueue lead box.ticket queue := by
  rw [putMailbox, setQueue, h.formerMailboxes_eq, List.map_nil,
    ← h.mailboxes.map_eq_set hbox (rfl : Mailbox.ticket ⟨box.ticket, queue⟩ = _)]

theorem Orderly.putAgent_eq (h : m.Orderly) (hagent : m.agent? lead = some agent)
    (interpreter : Interpreter) :
    m.putAgent ⟨agent.ticket, interpreter⟩ = m.setInterpreter lead agent.ticket interpreter := by
  rw [putAgent, setInterpreter, h.formerAgents_eq, List.map_nil,
    ← h.agents.map_eq_set hagent (rfl : Agent.ticket ⟨agent.ticket, interpreter⟩ = _)]

/-! ## Operations -/

/-- Two managers differ in what callbacks and listeners have heard at most. -/
def Alike (m m' : Manager) : Prop :=
  ∃ notes telemetry, m' = { m with notes := notes, telemetry := telemetry }

theorem Alike.follows {m m' : Manager} (h : m.Alike m') (horderly : m.Orderly) : m.Follows m' := by
  obtain ⟨notes, telemetry, rfl⟩ := h
  exact ⟨⟨horderly.agents, horderly.mailboxes, horderly.isSome_eq, horderly.formerAgents_eq,
    horderly.formerMailboxes_eq⟩, rfl, rfl, rfl, fun hbox => ⟨_, hbox, rfl⟩⟩

theorem Alike.queueOf_eq {m m' : Manager} (h : m.Alike m') : m'.queueOf = m.queueOf := by
  obtain ⟨notes, telemetry, rfl⟩ := h
  rfl

theorem Alike.interpreterOf_eq {m m' : Manager} (h : m.Alike m') :
    m'.interpreterOf = m.interpreterOf := by
  obtain ⟨notes, telemetry, rfl⟩ := h
  rfl

theorem alike_report (m : Manager) (signals : List Signal) : m.Alike (m.report signals) :=
  ⟨m.notes, m.telemetry.absorb signals, rfl⟩

/-- Commands that remove no lead change nothing. -/
theorem perform_of_forall {commands : List ChangeCommand}
    (h : ∀ command ∈ commands, ∃ text, command = .fail text) (m : Manager) :
    ∃ fault, perform commands m = (m, fault) := by
  cases commands with
  | nil => exact ⟨none, rfl⟩
  | cons command rest =>
    obtain ⟨text, rfl⟩ := h command List.mem_cons_self
    exact ⟨_, rfl⟩

theorem Calm.alike_tellChange (h : m.Calm) (lead name : String) (snapshot : Snapshot) :
    m.Alike (m.tellChange lead name snapshot) := by
  unfold tellChange
  split
  · exact ⟨m.notes, m.telemetry, rfl⟩
  · rename_i callback hcallback
    obtain ⟨fault, hperform⟩ := perform_of_forall (h callback hcallback lead snapshot)
      { m with notes := m.notes ++ [.changed lead snapshot.value] }
    simp only [hperform]
    cases fault <;> exact ⟨_, _, rfl⟩

theorem alike_tellIgnored (m : Manager) (lead name : String) (diagnostic : Diagnostic) :
    m.Alike (m.tellIgnored lead name diagnostic) := by
  unfold tellIgnored
  split
  · exact ⟨m.notes, m.telemetry, rfl⟩
  · dsimp only
    split <;> exact ⟨_, _, rfl⟩

theorem Alike.trans {m₁ m₂ m₃ : Manager} (h : m₁.Alike m₂) (h' : m₂.Alike m₃) : m₁.Alike m₃ := by
  obtain ⟨notes, telemetry, rfl⟩ := h
  obtain ⟨notes', telemetry', rfl⟩ := h'
  exact ⟨notes', telemetry', rfl⟩

/-- A call of the interpreter of a lead changes that interpreter, and nothing else. -/
theorem Orderly.deliver_spec (h : m.Orderly) (hcalm : m.Calm) (hagent : m.agent? lead = some agent)
    (hshows : Interpreter.Shows (agent.interpreter.dispatch m.now event) Verdict.snapshot) :
    (m.setInterpreter lead agent.ticket (agent.interpreter.dispatch m.now event).state).Alike
        (m.deliver agent event).1 ∧
      ∃ snapshot, (m.deliver agent event).2 = .ok snapshot := by
  obtain ⟨verdict, hresult, -⟩ := hshows
  unfold deliver
  simp only [hresult, h.putAgent_eq hagent]
  have halike := alike_report (m.setInterpreter lead agent.ticket
    (agent.interpreter.dispatch m.now event).state) (agent.interpreter.dispatch m.now event).signals
  have hcalm' : Calm (report (m.setInterpreter lead agent.ticket
    (agent.interpreter.dispatch m.now event).state)
      (agent.interpreter.dispatch m.now event).signals) := hcalm
  rcases verdict with ⟨snapshot, _ | _⟩ | ⟨snapshot, diagnostic⟩
  · exact ⟨halike, snapshot, rfl⟩
  · dsimp only
    split
    · exact ⟨halike.trans (hcalm'.alike_tellChange _ _ _), snapshot, rfl⟩
    · exact ⟨halike, snapshot, rfl⟩
  · dsimp only
    split
    · exact ⟨halike.trans (alike_tellIgnored _ _ _ _), snapshot, rfl⟩
    · exact ⟨halike, snapshot, rfl⟩

/-- Marking the queue of a lead changes its mark. -/
theorem Orderly.mark_eq (h : m.Orderly) (hbox : m.mailbox? lead = some box) (processing : Bool) :
    Worker.mark m box.ticket processing =
      m.setQueue lead box.ticket { box.queue with processing := processing } := by
  rw [Worker.mark, h.mailboxOf?_eq hbox]
  exact h.putMailbox_eq hbox _

/-- A manager with a lead that has an interpreter and a queue, as far as another one tells. -/
structure Seats (m m' : Manager) (lead : String) (agent : Agent) : Prop where
  follows : m.Follows m'
  queueOf_eq : m'.queueOf = m.queueOf
  interpreterOf_eq : m'.interpreterOf = m.interpreterOf
  agent_eq : m'.agent? lead = some agent

theorem Seats.exists_mailbox {m m' : Manager} (h : m.Seats m' lead agent) :
    ∃ box, m'.mailbox? lead = some box := by
  have hsome := h.follows.orderly.isSome_eq lead
  rw [h.agent_eq] at hsome
  exact Option.isSome_iff_exists.mp hsome.symm

theorem Seats.between {m₁ m₂ m₃ : Manager} (h : m₁.Seats m₂ lead agent) (hbefore : m.Alike m₁)
    (hafter : m₂.Alike m₃) (horderly : m.Orderly) : m.Seats m₃ lead agent where
  follows := ((hbefore.follows horderly).trans h.follows).trans (hafter.follows h.follows.orderly)
  queueOf_eq := hafter.queueOf_eq.trans (h.queueOf_eq.trans hbefore.queueOf_eq)
  interpreterOf_eq :=
    hafter.interpreterOf_eq.trans (h.interpreterOf_eq.trans hbefore.interpreterOf_eq)
  agent_eq := by
    obtain ⟨notes, telemetry, rfl⟩ := hafter
    exact h.agent_eq

/-- A lead is given an interpreter, and a queue if it has none. -/
theorem attach_eq (m : Manager) (lead : String) (interpreter : Interpreter) :
    m.attach lead interpreter = { m with
      agents := Entries.set m.agents lead ⟨m.nextTicket, interpreter⟩
      mailboxes := if (m.mailbox? lead).isSome then m.mailboxes
        else Entries.set m.mailboxes lead ⟨m.nextTicket + 1, newQueue lead⟩
      nextTicket := if (m.mailbox? lead).isSome then m.nextTicket + 1 else m.nextTicket + 2 } := by
  have hhas : Entries.has m.mailboxes lead = (m.mailbox? lead).isSome := rfl
  unfold attach
  rw [hhas]
  rcases hbox : m.mailbox? lead with _ | box
  · rw [Entries.set_of_get?_none _ hbox]
    rfl
  · rfl

theorem agents_attach (m : Manager) (lead : String) (interpreter : Interpreter) :
    (m.attach lead interpreter).agents = Entries.set m.agents lead ⟨m.nextTicket, interpreter⟩ := by
  rw [attach_eq]

theorem agent?_attach (m : Manager) (lead other : String) (interpreter : Interpreter) :
    (m.attach lead interpreter).agent? other =
      if lead = other then some ⟨m.nextTicket, interpreter⟩ else m.agent? other := by
  rw [agent?, agents_attach]
  exact m.agent?_setInterpreter lead other m.nextTicket interpreter

/-- A lead that is given an interpreter keeps its queue, or is given a new one. -/
theorem mailbox?_attach (m : Manager) (lead other : String) (interpreter : Interpreter) :
    (m.attach lead interpreter).mailbox? other =
      if lead = other ∧ m.mailbox? lead = none then some ⟨m.nextTicket + 1, newQueue lead⟩
      else m.mailbox? other := by
  rw [attach_eq, mailbox?]
  dsimp only
  rcases hbox : m.mailbox? lead with _ | box
  · refine (m.mailbox?_setQueue lead other (m.nextTicket + 1) (newQueue lead)).trans ?_
    simp only [and_true]
  · rw [Option.isSome_some, if_pos rfl, if_neg fun h => Option.some_ne_none _ h.2, mailbox?]

theorem nextTicket_lt_attach (m : Manager) (lead : String) (interpreter : Interpreter) :
    m.nextTicket < (m.attach lead interpreter).nextTicket := by
  rw [attach_eq]
  dsimp only
  split <;> omega

theorem Orderly.attach (h : m.Orderly) (hagent : m.agent? lead = none)
    (interpreter : Interpreter) : (m.attach lead interpreter).Orderly := by
  have hbox : m.mailbox? lead = none := by
    have hsome := h.isSome_eq lead
    rw [hagent] at hsome
    exact Option.not_isSome_iff_eq_none.mp (by rw [← hsome]; exact Bool.false_ne_true)
  exact {
    agents := by
      rw [attach_eq, hbox]
      exact h.agents.add hagent (Nat.le_refl _) (Nat.lt_add_of_pos_right Nat.two_pos)
    mailboxes := by
      rw [attach_eq, hbox]
      exact h.mailboxes.add hbox (Nat.le_succ _) (Nat.lt_succ_self _)
    isSome_eq other := by
      rw [agent?_attach, mailbox?_attach]
      by_cases heq : lead = other
      · rw [if_pos heq, if_pos ⟨heq, hbox⟩]
        rfl
      · rw [if_neg heq, if_neg fun h => heq h.1]
        exact h.isSome_eq other
    formerAgents_eq := by
      rw [attach_eq]
      exact h.formerAgents_eq
    formerMailboxes_eq := by
      rw [attach_eq]
      exact h.formerMailboxes_eq }

theorem Orderly.seats_attach (h : m.Orderly) (hagent : m.agent? lead = none)
    (hinterpreter : interpreter = Interpreter.started m.chart m.chart.context (some lead)) :
    m.Seats (m.attach lead interpreter) lead ⟨m.nextTicket, interpreter⟩ where
  follows := by
    refine ⟨h.attach hagent interpreter, ?_, ?_, ?_, fun {other box} hother => ⟨box, ?_, rfl⟩⟩
    · rw [attach_eq]
    · rw [attach_eq]
    · rw [attach_eq]
    · rw [mailbox?_attach, if_neg]
      · exact hother
      · rintro ⟨rfl, hnone⟩
        exact Option.some_ne_none _ (hother.symm.trans hnone)
  queueOf_eq := by
    funext other
    rw [queueOf, mailbox?_attach, queueOf]
    split
    · rename_i hnew
      obtain ⟨rfl, hnone⟩ := hnew
      rw [hnone]
      rfl
    · rfl
  interpreterOf_eq := by
    have hchart : (m.attach lead interpreter).chart = m.chart := by rw [attach_eq]
    funext other
    rw [interpreterOf, agent?_attach, interpreterOf, hchart]
    split
    · rename_i heq
      obtain rfl := heq
      rw [hagent, hinterpreter]
      rfl
    · rfl
  agent_eq := (agent?_attach ..).trans (if_pos rfl)

section Started

variable (tree : m.chart.Arena) (total : m.chart.NeverFails)

include tree total

/-- Every lead can be given an interpreter. -/
theorem Orderly.getOrCreate_spec (h : m.Orderly) (lead : String) :
    ∃ m' agent, m.getOrCreate lead = (m', .ok agent) ∧ m.Seats m' lead agent := by
  unfold getOrCreate
  rcases hagent : m.agent? lead with _ | agent
  · obtain ⟨⟨snapshot, hresult, -⟩, -⟩ :=
      Interpreter.start_spec tree total m.chart.context (some lead)
    unfold launch
    simp only [hresult, Except.map]
    set started := m.report (Interpreter.fresh m.chart m.chart.context (some lead)).start.signals
    have hbefore : m.Alike started := alike_report m _
    have hseats : started.Seats _ lead _ :=
      (hbefore.follows h).orderly.seats_attach hagent rfl
    exact ⟨_, _, rfl, hseats.between hbefore (alike_report _ _) h⟩
  · exact ⟨m, agent, rfl, .refl h, rfl, rfl, hagent⟩

/-- An event that arrives for a lead changes its queue, and nothing else. -/
theorem Orderly.enqueue_spec (h : m.Orderly) (lead event : String) :
    m.Follows (m.enqueue lead event).1 ∧
      (m.enqueue lead event).1.queueOf =
        Function.update m.queueOf lead ((m.queueOf lead).enqueue event).state ∧
      (m.enqueue lead event).1.interpreterOf = m.interpreterOf ∧
      (m.enqueue lead event).2 = ((m.queueOf lead).enqueue event).result := by
  obtain ⟨m', agent, hcreate, hseats⟩ := h.getOrCreate_spec tree total lead
  obtain ⟨box, hbox⟩ := hseats.exists_mailbox
  have hqueue : m.queueOf lead = box.queue := by
    rw [← hseats.queueOf_eq]; exact queueOf_eq hbox
  have horderly := hseats.follows.orderly
  have hfollows := horderly.follows_setQueue hbox (box.queue.enqueue event).state
  have halike := alike_report (m'.setQueue lead box.ticket (box.queue.enqueue event).state)
    (box.queue.enqueue event).signals
  unfold enqueue
  simp only [hcreate, hbox, horderly.putMailbox_eq hbox]
  refine ⟨(hseats.follows.trans hfollows).trans (halike.follows hfollows.orderly), ?_, ?_, ?_⟩
  · rw [halike.queueOf_eq, queueOf_setQueue, hseats.queueOf_eq, hqueue]
  · rw [halike.interpreterOf_eq, ← hseats.interpreterOf_eq]; rfl
  · rw [hqueue]

/-- An event that is sent to a lead changes its interpreter, and nothing else. -/
theorem Orderly.send_spec (h : m.Orderly) (hcalm : m.Calm)
    (hshows : Interpreter.Shows ((m.interpreterOf lead).dispatch m.now event) Verdict.snapshot) :
    m.Follows (m.send lead event).1 ∧ (m.send lead event).1.queueOf = m.queueOf ∧
      (m.send lead event).1.interpreterOf =
        Function.update m.interpreterOf lead ((m.interpreterOf lead).dispatch m.now event).state ∧
      ∃ snapshot, (m.send lead event).2 = .ok snapshot := by
  obtain ⟨m', agent, hcreate, hseats⟩ := h.getOrCreate_spec tree total lead
  have hinterpreter : m.interpreterOf lead = agent.interpreter := by
    rw [← hseats.interpreterOf_eq]; exact interpreterOf_eq hseats.agent_eq
  have horderly := hseats.follows.orderly
  rw [hinterpreter, ← hseats.follows.now_eq] at hshows
  obtain ⟨halike, hresult⟩ :=
    horderly.deliver_spec (hseats.follows.calm hcalm) hseats.agent_eq hshows
  have hfollows := horderly.follows_setInterpreter hseats.agent_eq
    (agent.interpreter.dispatch m'.now event).state
  unfold send
  simp only [hcreate]
  refine ⟨(hseats.follows.trans hfollows).trans (halike.follows hfollows.orderly), ?_, ?_, hresult⟩
  · rw [halike.queueOf_eq, ← hseats.queueOf_eq]; rfl
  · rw [halike.interpreterOf_eq, interpreterOf_setInterpreter, hseats.interpreterOf_eq,
      hinterpreter, hseats.follows.now_eq]

end Started

end Manager

end Lifecycle
