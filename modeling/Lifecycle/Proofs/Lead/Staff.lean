import Lifecycle.Proofs.Lead.Incidents

/-!
# Interpreters and queues from step to step

What one step does to the interpreters that there are, those of leads and former ones
(`Manager.Step.staff_cases`), and to the queues (`Manager.Step.box_cases`); and that it leaves every
lead with both an interpreter and a queue, or with neither (`Manager.Step.paired`).
-/

namespace Lifecycle

/-- An interpreter that is stopped. -/
def Agent.retired (agent : Agent) : Agent := ⟨agent.ticket, agent.interpreter.stop.state⟩

namespace Manager

variable {m m' : Manager} {xs : List Incident} {lead : String} {agent : Agent} {box : Mailbox}
  {interpreter : Interpreter}

/-! ## What installing and removing do -/

/-- A lead is given an interpreter in the place of the one that it had, and a queue if it had
none. -/
theorem exists_install_eq (m : Manager) (lead : String) (interpreter : Interpreter) :
    ∃ signals, (∀ signal ∈ signals, signal.IsPlain) ∧ m.install lead interpreter =
      { m with
        agents := Entries.set m.agents lead ⟨m.nextTicket, interpreter⟩
        formerAgents := ((m.agent? lead).map Agent.retired).toList ++ m.formerAgents
        mailboxes := if (m.mailbox? lead).isSome then m.mailboxes
          else Entries.set m.mailboxes lead ⟨m.nextTicket + 1, newQueue lead⟩
        nextTicket := if (m.mailbox? lead).isSome then m.nextTicket + 1 else m.nextTicket + 2
        telemetry := m.telemetry.absorb signals } := by
  unfold install
  rcases m.agent? lead with _ | old
  · exact ⟨[], List.forall_mem_nil _, attach_eq m lead interpreter⟩
  · exact ⟨old.interpreter.stop.signals, Interpreter.plain_stop _,
      attach_eq (m.retire old) lead interpreter⟩

/-- A lead loses its interpreter and its queue, which are former ones from then on. -/
theorem exists_remove_eq (m : Manager) (lead : String) :
    ∃ signals, (∀ signal ∈ signals, signal.IsPlain) ∧ m.remove lead =
      { m with
        agents := Entries.erase m.agents lead
        formerAgents := ((m.agent? lead).map Agent.retired).toList ++ m.formerAgents
        mailboxes := Entries.erase m.mailboxes lead
        formerMailboxes := (m.mailbox? lead).toList ++ m.formerMailboxes
        telemetry := m.telemetry.absorb signals } := by
  have hremoved : ∀ signal ∈ [Signal.log (.leadRemoved lead)], signal.IsPlain :=
    List.forall_mem_singleton.mpr trivial
  rcases hagent : m.agent? lead with _ | old
  · refine ⟨_, hremoved, ?_⟩
    rw [Entries.erase_of_get?_none hagent]
    unfold remove
    rw [hagent]
    rcases m.mailbox? lead with _ | box <;> rfl
  · refine ⟨old.interpreter.stop.signals ++ [.log (.leadRemoved lead)],
      List.forall_mem_append.mpr ⟨Interpreter.plain_stop _, hremoved⟩, ?_⟩
    rw [Telemetry.absorb_append]
    unfold remove
    rw [hagent]
    rcases m.mailbox? lead with _ | box <;> rfl

theorem nextTicket_lt_install (m : Manager) (lead : String) (interpreter : Interpreter) :
    m.nextTicket < (m.install lead interpreter).nextTicket := by
  unfold install
  rcases m.agent? lead with _ | old
  · exact m.nextTicket_lt_attach lead interpreter
  · exact (m.retire old).nextTicket_lt_attach lead interpreter

theorem agent?_install (m : Manager) (lead other : String) (interpreter : Interpreter) :
    (m.install lead interpreter).agent? other =
      if lead = other then some ⟨m.nextTicket, interpreter⟩ else m.agent? other := by
  rw [agent?, agents_install]
  exact m.agent?_setInterpreter lead other m.nextTicket interpreter

theorem agent?_remove (m : Manager) (lead other : String) :
    (m.remove lead).agent? other = if lead = other then none else m.agent? other := by
  obtain ⟨signals, -, heq⟩ := m.exists_remove_eq lead
  rw [heq]
  exact Entries.get?_erase ..

/-- A lead that is given an interpreter keeps its queue, or is given a new one. -/
theorem mailbox?_install (m : Manager) (lead other : String) (interpreter : Interpreter) :
    (m.install lead interpreter).mailbox? other =
      if lead = other ∧ m.mailbox? lead = none then some ⟨m.nextTicket + 1, newQueue lead⟩
      else m.mailbox? other := by
  unfold install
  rcases m.agent? lead with _ | old <;> exact mailbox?_attach _ lead other interpreter

/-- An interpreter that is there when a lead is given one was there before, or is that of the lead
before, which is stopped, or is the one that the lead is given. -/
theorem mem_staff_install (h : agent ∈ (m.install lead interpreter).staff) :
    agent ∈ m.staff ∨ (∃ old ∈ m.staff, agent = old.retired) ∨
      agent = ⟨m.nextTicket, interpreter⟩ := by
  obtain ⟨signals, -, heq⟩ := m.exists_install_eq lead interpreter
  rw [heq] at h
  rcases List.mem_append.mp h with hcurrent | hformer
  · obtain ⟨entry, hentry, rfl⟩ := List.mem_map.mp hcurrent
    rcases Entries.mem_set hentry with hold | hnew
    · exact .inl (List.mem_append_left _ (List.mem_map_of_mem hold))
    · exact .inr (.inr hnew)
  · rcases List.mem_append.mp hformer with hretired | hformer
    · obtain ⟨old, hold, rfl⟩ := Option.map_eq_some_iff.mp (Option.mem_toList.mp hretired)
      exact .inr (.inl ⟨old, mem_staff_of_agent? hold, rfl⟩)
    · exact .inl (List.mem_append_right _ hformer)

/-- An interpreter that is there when a lead is removed was there before, or is that of the lead,
which is stopped. -/
theorem mem_staff_remove (h : agent ∈ (m.remove lead).staff) :
    agent ∈ m.staff ∨ ∃ old ∈ m.staff, agent = old.retired := by
  obtain ⟨signals, -, heq⟩ := m.exists_remove_eq lead
  rw [heq] at h
  rcases List.mem_append.mp h with hcurrent | hformer
  · obtain ⟨entry, hentry, rfl⟩ := List.mem_map.mp hcurrent
    exact .inl (List.mem_append_left _ (List.mem_map_of_mem (List.mem_of_mem_filter hentry)))
  · rcases List.mem_append.mp hformer with hretired | hformer
    · obtain ⟨old, hold, rfl⟩ := Option.map_eq_some_iff.mp (Option.mem_toList.mp hretired)
      exact .inr ⟨old, mem_staff_of_agent? hold, rfl⟩
    · exact .inl (List.mem_append_right _ hformer)

/-- A queue that is there when a lead is given an interpreter was there before, or is new. -/
theorem mem_boxes_install (h : box ∈ (m.install lead interpreter).boxes) :
    box ∈ m.boxes ∨ box = ⟨m.nextTicket + 1, newQueue lead⟩ := by
  unfold install at h
  rcases hagent : m.agent? lead with _ | old <;> rw [hagent] at h <;>
    exact (mem_boxes_attach h).imp_right And.left

/-- What stands in the place of an interpreter when another one is put there. -/
def settle (agent old : Agent) : Agent := if old.ticket = agent.ticket then agent else old

theorem agent?_putAgent (m : Manager) (agent : Agent) (lead : String) :
    (m.putAgent agent).agent? lead = (m.agent? lead).map (settle agent) :=
  Entries.get?_map m.agents lead (settle agent)

theorem staff_putAgent (m : Manager) (agent : Agent) :
    (m.putAgent agent).staff = m.staff.map (settle agent) := by
  rw [staff, staff, List.map_append, List.map_map]
  exact congrArg (· ++ _) List.map_map

/-! ## One step -/

/-- A lead has both an interpreter and a queue, or neither. -/
def Paired (m : Manager) : Prop :=
  ∀ lead, (m.agent? lead).isSome = (m.mailbox? lead).isSome

namespace Step

/-- A step keeps the chart and the clock, and takes no ticket back. -/
theorem frame (h : m.Step xs m') :
    m'.chart = m.chart ∧ m'.now = m.now ∧ m.nextTicket ≤ m'.nextTicket := by
  cases h with
  | @install lead interpreter _ =>
    have hle := Nat.le_of_lt (m.nextTicket_lt_install lead interpreter)
    obtain ⟨signals, -, heq⟩ := m.exists_install_eq lead interpreter
    rw [heq] at hle ⊢
    exact ⟨rfl, rfl, hle⟩
  | remove lead =>
    obtain ⟨signals, -, heq⟩ := m.exists_remove_eq lead
    rw [heq]
    exact ⟨rfl, rfl, Nat.le_refl _⟩
  | _ => exact ⟨rfl, rfl, Nat.le_refl _⟩

/-- What is handed an event is an interpreter that there is. -/
theorem exists_of_called {d : Delivery} (h : m.Step xs m') (hd : .called d ∈ xs) :
    d.agent ∈ m.staff ∧ ∃ event, d = .of m d.agent event := by
  cases h with
  | @call agent hmem event =>
    cases List.mem_singleton.mp hd
    exact ⟨hmem, event, rfl⟩
  | tell | complain | offer | take => cases List.mem_singleton.mp hd
  | report | install | remove | mark | ignored => cases hd

/-- Leads get and lose interpreters and queues together. -/
theorem paired (h : m.Step xs m') (hpaired : m.Paired) : m'.Paired := by
  cases h with
  | @install lead interpreter _ =>
    intro other
    rw [agent?_install, mailbox?_install]
    by_cases hlead : lead = other
    · subst hlead
      cases hbox : m.mailbox? lead <;> simp
    · rw [if_neg hlead, if_neg fun h => hlead h.1]
      exact hpaired other
  | remove lead =>
    intro other
    rw [agent?_remove, mailbox?_remove]
    split
    · rfl
    · exact hpaired other
  | call hmem event =>
    intro other
    refine Eq.trans ?_ (hpaired other)
    exact (congrArg Option.isSome (m.agent?_putAgent _ other)).trans Option.isSome_map
  | mark | offer | take =>
    intro other
    refine (hpaired other).trans (Eq.symm ?_)
    exact (congrArg Option.isSome (m.mailbox?_putMailbox _ other)).trans Option.isSome_map
  | report | ignored | tell | complain => exact hpaired

/-- An interpreter that is there after a step was there before it and was handed no event, or was
handed the event that the step is about, or was stopped, or is new. -/
theorem staff_cases (h : m.Step xs m') (hmem : agent ∈ m'.staff) :
    (agent ∈ m.staff ∧ ∀ d, .called d ∈ xs → d.agent.ticket ≠ agent.ticket) ∨
      (∃ d, xs = [.called d] ∧ d.agent ∈ m.staff ∧ agent = d.after) ∨
      (xs = [] ∧ ∃ old ∈ m.staff, agent = old.retired) ∨
      xs = [] ∧ ∃ lead interpreter, Candidate m.chart lead interpreter ∧
        agent = ⟨m.nextTicket, interpreter⟩ ∧ m.nextTicket < m'.nextTicket := by
  have hkept (hold : agent ∈ m.staff) :
      agent ∈ m.staff ∧ ∀ d, Incident.called d ∈ [] → d.agent.ticket ≠ agent.ticket :=
    ⟨hold, fun _ hd => absurd hd List.not_mem_nil⟩
  cases h with
  | @install lead interpreter hcandidate =>
    rcases mem_staff_install hmem with hold | hretired | hnew
    · exact .inl (hkept hold)
    · exact .inr (.inr (.inl ⟨rfl, hretired⟩))
    · exact .inr (.inr (.inr ⟨rfl, lead, interpreter, hcandidate, hnew,
        m.nextTicket_lt_install lead interpreter⟩))
  | remove lead =>
    rcases mem_staff_remove hmem with hold | hretired
    · exact .inl (hkept hold)
    · exact .inr (.inr (.inl ⟨rfl, hretired⟩))
  | @call called hcalled event =>
    have hmem' : agent ∈ (m.putAgent (Delivery.of m called event).after).staff := hmem
    rw [staff_putAgent] at hmem'
    obtain ⟨old, hold, rfl⟩ := List.mem_map.mp hmem'
    unfold settle
    split
    · exact .inr (.inl ⟨_, rfl, hcalled, rfl⟩)
    · rename_i hne
      refine .inl ⟨hold, fun d hd heq => hne ?_⟩
      cases List.mem_singleton.mp hd
      exact heq.symm
  | mark | offer | take | report | ignored | tell | complain =>
    exact .inl ⟨hmem, by simp⟩

/-- A queue that is there after a step was there before it, and has kept all but its line, its drops
and its mark, or it is new. -/
theorem box_cases (h : m.Step xs m') (hmem : box ∈ m'.boxes) :
    (∃ old ∈ m.boxes, ∃ line dropped processing, box = ⟨old.ticket,
      { old.queue with line := line, dropped := dropped, processing := processing }⟩) ∨
      ∃ ticket lead, box = ⟨ticket, newQueue lead⟩ := by
  have hkept (hold : box ∈ m.boxes) : ∃ old ∈ m.boxes, ∃ line dropped processing,
      box = ⟨old.ticket,
        { old.queue with line := line, dropped := dropped, processing := processing }⟩ :=
    ⟨box, hold, box.queue.line, box.queue.dropped, box.queue.processing, rfl⟩
  cases h with
  | @install lead interpreter _ =>
    rcases mem_boxes_install hmem with hold | hnew
    · exact .inl (hkept hold)
    · exact .inr ⟨_, lead, hnew⟩
  | remove lead => exact .inl (hkept (mem_boxes_of_remove hmem))
  | @mark old hold processing =>
    rcases mem_boxes_putMailbox hmem with rfl | ⟨hmem, -⟩
    · exact .inl ⟨old, mem_boxes_of_mailboxOf? hold, _, _, processing, rfl⟩
    · exact .inl (hkept hmem)
  | @offer lead old hold event =>
    rcases mem_boxes_putMailbox hmem with rfl | ⟨hmem, -⟩
    · obtain ⟨line, dropped, hstate⟩ := old.queue.enqueue_frame event
      exact .inl ⟨old, mem_boxes_of_mailbox? hold, line, dropped, old.queue.processing,
        congrArg (Mailbox.mk old.ticket) hstate⟩
    · exact .inl (hkept hmem)
  | @take old event hold hresult =>
    rcases mem_boxes_putMailbox hmem with rfl | ⟨hmem, -⟩
    · rcases old.queue.dequeue_cases with ⟨-, hdequeue⟩ | ⟨line, first, -, hstate, -⟩
      · rw [hdequeue] at hresult
        cases hresult
      · exact .inl ⟨old, mem_boxes_of_mailboxOf? hold, line, _, _,
          congrArg (Mailbox.mk old.ticket) hstate⟩
    · exact .inl (hkept hmem)
  | report | ignored | call | tell | complain => exact .inl (hkept hmem)

end Step

/-- All queues have the usual capacity and the usual share of it. -/
def Regular (m : Manager) : Prop :=
  ∀ box ∈ m.boxes, box.queue.capacity = .int Settings.queueCapacity ∧
    box.queue.watermark = .ofNumber Settings.queueWatermark

theorem Regular.step (h : m.Regular) (hstep : m.Step xs m') : m'.Regular := by
  intro box hmem
  rcases hstep.box_cases hmem with ⟨old, hold, line, dropped, processing, rfl⟩ | ⟨ticket, lead, rfl⟩
  · exact h old hold
  · exact ⟨rfl, rfl⟩

end Manager

end Lifecycle
