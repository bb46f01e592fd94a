import Lifecycle.Proofs.Lead.Staff

/-!
# Tickets

No two interpreters and no two queues have the same ticket, whether they are those of leads or
former ones, and tickets are not given out again (`Manager.Numbered.step`). So a ticket tells its
interpreter (`Manager.Numbered.eq_of_ticket`) and its queue (`Manager.Numbered.mailboxOf?_eq_some`),
and the lead that an interpreter belongs to, if it still belongs to one
(`Manager.Numbered.leadOf?_of_agent?`, `Manager.Numbered.leadOf?_of_former`).
-/

namespace Lifecycle

namespace Entries

variable {α : Type} {entries : Entries α}

/-- A value that is written takes the place of the one that was there. -/
theorem perm_set (entries : Entries α) (key : String) (value : α) :
    ((set entries key value).map Prod.snd ++ (get? entries key).toList).Perm
      (value :: entries.map Prod.snd) := by
  induction entries with
  | nil => exact .refl _
  | cons entry rest ih =>
    obtain ⟨k, v⟩ := entry
    rw [set, get?_cons]
    split
    · exact (List.perm_append_singleton v _).cons value
    · exact (ih.cons v).trans (.swap value v _)

/-- A value that is erased leaves the others. -/
theorem perm_erase (h : (keys entries).Nodup) (key : String) :
    ((erase entries key).map Prod.snd ++ (get? entries key).toList).Perm
      (entries.map Prod.snd) := by
  induction entries with
  | nil => exact .refl _
  | cons entry rest ih =>
    obtain ⟨k, v⟩ := entry
    obtain ⟨hnew, hrest⟩ := List.nodup_cons.mp h
    by_cases heq : k = key
    · subst heq
      have hnone : get? rest k = none := by
        rwa [← Option.not_isSome_iff_eq_none, get?_isSome_iff]
      have herase : erase ((k, v) :: rest) k = rest := by
        rw [← erase_of_get?_none hnone, erase, erase, List.filter_cons_of_neg (by simp),
          List.filter_filter]
        simp
      rw [herase, get?_cons, if_pos (beq_self_eq_true k)]
      exact List.perm_append_singleton v _
    · rw [erase, List.filter_cons_of_pos (by simpa using heq), get?_cons,
        if_neg (by simpa using heq)]
      exact (ih hrest).cons v

end Entries

namespace Manager

variable {m m' : Manager} {xs : List Incident} {lead : String} {agent other : Agent} {box : Mailbox}

/-! ## Comings and goings -/

theorem boxes_install (m : Manager) (lead : String) (interpreter : Interpreter) :
    (m.install lead interpreter).boxes.Perm (if (m.mailbox? lead).isSome then m.boxes
      else ⟨m.nextTicket + 1, newQueue lead⟩ :: m.boxes) := by
  obtain ⟨signals, -, heq⟩ := m.exists_install_eq lead interpreter
  rw [heq, boxes]
  dsimp only
  split
  · exact .refl _
  · rename_i hnone
    have hset := Entries.perm_set m.mailboxes lead ⟨m.nextTicket + 1, newQueue lead⟩
    have hnone' : Entries.get? m.mailboxes lead = none := Option.not_isSome_iff_eq_none.mp hnone
    rw [hnone', Option.toList_none, List.append_nil] at hset
    exact hset.append_right m.formerMailboxes

theorem boxes_remove (h : (Entries.keys m.mailboxes).Nodup) (lead : String) :
    (m.remove lead).boxes.Perm m.boxes := by
  obtain ⟨hmailboxes, hformer, -⟩ := remove_eq m lead
  rw [boxes, hmailboxes, hformer, ← List.append_assoc]
  exact (Entries.perm_erase h lead).append_right m.formerMailboxes

/-- To be retired changes no ticket. -/
theorem map_ticket_retired (agent? : Option Agent) :
    (agent?.map Agent.retired).toList.map Agent.ticket = agent?.toList.map Agent.ticket := by
  cases agent? <;> rfl

theorem tickets_install (m : Manager) (lead : String) (interpreter : Interpreter) :
    ((m.install lead interpreter).staff.map Agent.ticket).Perm
      (m.nextTicket :: m.staff.map Agent.ticket) := by
  obtain ⟨signals, -, heq⟩ := m.exists_install_eq lead interpreter
  have hset := (Entries.perm_set m.agents lead ⟨m.nextTicket, interpreter⟩).map Agent.ticket
  rw [List.map_append] at hset
  rw [heq, staff]
  dsimp only
  rw [List.map_append, List.map_append, map_ticket_retired, ← List.append_assoc, staff,
    List.map_append]
  exact hset.append_right _

theorem tickets_remove (h : (Entries.keys m.agents).Nodup) (lead : String) :
    ((m.remove lead).staff.map Agent.ticket).Perm (m.staff.map Agent.ticket) := by
  obtain ⟨signals, -, heq⟩ := m.exists_remove_eq lead
  have herase := (Entries.perm_erase h lead).map Agent.ticket
  rw [List.map_append] at herase
  rw [heq, staff]
  dsimp only
  rw [List.map_append, List.map_append, map_ticket_retired, ← List.append_assoc, staff,
    List.map_append]
  exact herase.append_right _

theorem ticket_settle (agent old : Agent) : (settle agent old).ticket = old.ticket := by
  unfold settle
  split
  · rename_i heq
    exact heq.symm
  · rfl

theorem tickets_putAgent (m : Manager) (agent : Agent) :
    (m.putAgent agent).staff.map Agent.ticket = m.staff.map Agent.ticket := by
  rw [staff_putAgent, List.map_map]
  exact List.map_congr_left fun old _ => ticket_settle agent old

theorem tickets_putMailbox (m : Manager) (box : Mailbox) :
    (m.putMailbox box).boxes.map Mailbox.ticket = m.boxes.map Mailbox.ticket := by
  rw [boxes_putMailbox, List.map_map]
  exact List.map_congr_left fun old _ => ticket_place box old

/-! ## One ticket, one interpreter or queue -/

/-- Leads and tickets are told apart. -/
structure Numbered (m : Manager) : Prop where
  agentKeys : (Entries.keys m.agents).Nodup
  boxKeys : (Entries.keys m.mailboxes).Nodup
  agents : (m.staff.map Agent.ticket).Nodup
  boxes : (m.boxes.map Mailbox.ticket).Nodup
  agent_lt : ∀ ticket ∈ m.staff.map Agent.ticket, ticket < m.nextTicket
  box_lt : ∀ ticket ∈ m.boxes.map Mailbox.ticket, ticket < m.nextTicket

/-- A manager without leads has given out no ticket. -/
theorem numbered_fresh (chart : Chart) (policy : Policy) (telemetry : Telemetry) :
    (fresh chart policy telemetry).Numbered :=
  ⟨.nil, .nil, .nil, .nil, List.forall_mem_nil _, List.forall_mem_nil _⟩

namespace Numbered

/-- A lead gets an interpreter with a new ticket, and a queue with another one if it had none. -/
theorem install (h : m.Numbered) (lead : String) (interpreter : Interpreter) :
    (m.install lead interpreter).Numbered := by
  have htickets := m.tickets_install lead interpreter
  have hboxes := (m.boxes_install lead interpreter).map Mailbox.ticket
  have hlt := m.nextTicket_lt_install lead interpreter
  obtain ⟨signals, -, heq⟩ := m.exists_install_eq lead interpreter
  exact {
    agentKeys := by
      rw [heq]
      exact Entries.nodup_keys_overlay [(lead, _)] h.agentKeys
    boxKeys := by
      rw [heq]
      dsimp only
      split
      · exact h.boxKeys
      · exact Entries.nodup_keys_overlay [(lead, _)] h.boxKeys
    agents := by
      have hnew : m.nextTicket ∉ m.staff.map Agent.ticket := fun hmem =>
        Nat.lt_irrefl _ (h.agent_lt _ hmem)
      exact htickets.nodup_iff.mpr (List.nodup_cons.mpr ⟨hnew, h.agents⟩)
    boxes := by
      refine hboxes.nodup_iff.mpr ?_
      split
      · exact h.boxes
      · refine List.nodup_cons.mpr ⟨fun hmem => ?_, h.boxes⟩
        exact absurd (h.box_lt _ hmem) (Nat.not_lt.mpr (Nat.le_succ _))
    agent_lt ticket hticket := by
      rcases List.mem_cons.mp (htickets.mem_iff.mp hticket) with rfl | hold
      · exact hlt
      · exact (h.agent_lt ticket hold).trans hlt
    box_lt ticket hticket := by
      have hticket := hboxes.mem_iff.mp hticket
      split at hticket
      · exact (h.box_lt ticket hticket).trans hlt
      · rename_i hnone
        rcases List.mem_cons.mp hticket with rfl | hold
        · rw [heq]
          dsimp only
          rw [if_neg hnone]
          exact Nat.lt_succ_self _
        · exact (h.box_lt ticket hold).trans hlt }

/-- A lead that is removed takes its tickets along. -/
theorem remove (h : m.Numbered) (lead : String) : (m.remove lead).Numbered := by
  have htickets := tickets_remove h.agentKeys lead
  have hboxes := (boxes_remove h.boxKeys lead).map Mailbox.ticket
  obtain ⟨signals, -, heq⟩ := m.exists_remove_eq lead
  have hnext : (m.remove lead).nextTicket = m.nextTicket := by rw [heq]
  refine ⟨?_, ?_, htickets.nodup_iff.mpr h.agents, hboxes.nodup_iff.mpr h.boxes,
    fun ticket hticket => ?_, fun ticket hticket => ?_⟩
  · rw [heq]
    exact h.agentKeys.sublist (List.filter_sublist.map _)
  · rw [heq]
    exact h.boxKeys.sublist (List.filter_sublist.map _)
  · rw [hnext]
    exact h.agent_lt ticket (htickets.mem_iff.mp hticket)
  · rw [hnext]
    exact h.box_lt ticket (hboxes.mem_iff.mp hticket)

theorem putAgent (h : m.Numbered) (agent : Agent) : (m.putAgent agent).Numbered := by
  have htickets := m.tickets_putAgent agent
  have hkeys : Entries.keys (m.putAgent agent).agents = Entries.keys m.agents := List.map_map
  refine ⟨hkeys ▸ h.agentKeys, h.boxKeys, htickets ▸ h.agents, h.boxes, ?_, h.box_lt⟩
  rw [htickets]
  exact h.agent_lt

theorem putMailbox (h : m.Numbered) (box : Mailbox) : (m.putMailbox box).Numbered := by
  have htickets := m.tickets_putMailbox box
  have hkeys : Entries.keys (m.putMailbox box).mailboxes = Entries.keys m.mailboxes := List.map_map
  refine ⟨h.agentKeys, hkeys ▸ h.boxKeys, h.agents, htickets ▸ h.boxes, h.agent_lt, ?_⟩
  rw [htickets]
  exact h.box_lt

/-- What happens to anything but the interpreters and queues. -/
theorem of_eq (h : m.Numbered) (hagents : m'.agents = m.agents)
    (hmailboxes : m'.mailboxes = m.mailboxes) (hformer : m'.formerAgents = m.formerAgents)
    (hformer' : m'.formerMailboxes = m.formerMailboxes) (hnext : m'.nextTicket = m.nextTicket) :
    m'.Numbered := by
  have hstaff : m'.staff = m.staff := by rw [staff, hagents, hformer, staff]
  have hboxes : m'.boxes = m.boxes := by rw [Manager.boxes, hmailboxes, hformer', Manager.boxes]
  refine ⟨hagents ▸ h.agentKeys, hmailboxes ▸ h.boxKeys, hstaff ▸ h.agents, hboxes ▸ h.boxes,
    ?_, ?_⟩
  · rw [hstaff, hnext]
    exact h.agent_lt
  · rw [hboxes, hnext]
    exact h.box_lt

theorem step (h : m.Numbered) (hstep : m.Step xs m') : m'.Numbered := by
  cases hstep with
  | install _ => exact h.install _ _
  | remove lead => exact h.remove lead
  | call _ event => exact (h.putAgent _).of_eq rfl rfl rfl rfl rfl
  | mark => exact h.putMailbox _
  | offer | take => exact (h.putMailbox _).of_eq rfl rfl rfl rfl rfl
  | report | ignored | tell | complain => exact h.of_eq rfl rfl rfl rfl rfl

/-- A ticket tells the interpreter. -/
theorem eq_of_ticket (h : m.Numbered) (hagent : agent ∈ m.staff) (hother : other ∈ m.staff)
    (heq : agent.ticket = other.ticket) : agent = other :=
  List.inj_on_of_nodup_map h.agents hagent hother heq

/-- A ticket tells the queue. -/
theorem mailboxOf?_eq_some (h : m.Numbered) (hbox : box ∈ m.boxes) :
    m.mailboxOf? box.ticket = some box := by
  rcases hfind : m.mailboxOf? box.ticket with _ | found
  · exact absurd (beq_self_eq_true box.ticket) (List.find?_eq_none.mp hfind box hbox)
  · exact congrArg some (List.inj_on_of_nodup_map h.boxes (mem_boxes_of_mailboxOf? hfind) hbox
      (ticket_of_mailboxOf? hfind))

/-- The interpreter of a lead tells the lead. -/
theorem leadOf?_of_agent? (h : m.Numbered) (hagent : m.agent? lead = some agent) :
    m.leadOf? agent.ticket = some lead := by
  obtain ⟨key, hmem, hkey⟩ := Entries.exists_mem_of_get? hagent
  obtain rfl := eq_of_beq hkey
  rcases hfind : m.agents.find? fun entry => entry.2.ticket == agent.ticket with _ | found
  · exact absurd (beq_self_eq_true agent.ticket) (List.find?_eq_none.mp hfind _ hmem)
  · have hfound := List.mem_of_find?_eq_some hfind
    have hticket : found.2.ticket = agent.ticket := by simpa using List.find?_some hfind
    have hnodup : (m.agents.map fun entry => entry.2.ticket).Nodup := by
      have := h.agents
      rw [staff, List.map_append, List.map_map] at this
      exact this.of_append_left
    obtain rfl := List.inj_on_of_nodup_map hnodup hfound hmem hticket
    rw [leadOf?, hfind]
    rfl

/-- A former interpreter has the ticket of no lead's. -/
theorem ticket_ne_of_former (h : m.Numbered) (hagent : agent ∈ m.formerAgents) :
    ∀ entry ∈ m.agents, entry.2.ticket ≠ agent.ticket := by
  have hapart := h.agents
  rw [staff, List.map_append, List.nodup_append] at hapart
  exact fun entry hentry => hapart.2.2 _ (List.mem_map_of_mem (List.mem_map_of_mem hentry)) _
    (List.mem_map_of_mem hagent)

/-- A former interpreter belongs to no lead. -/
theorem leadOf?_of_former (h : m.Numbered) (hagent : agent ∈ m.formerAgents) :
    m.leadOf? agent.ticket = none := by
  rw [leadOf?, Option.map_eq_none_iff, List.find?_eq_none]
  intro entry hentry heq
  exact h.ticket_ne_of_former hagent entry hentry (eq_of_beq heq)

/-- A former interpreter is put in no lead's place. -/
theorem agents_putAgent (h : m.Numbered) (hagent : agent ∈ m.formerAgents)
    (interpreter : Interpreter) : (m.putAgent ⟨agent.ticket, interpreter⟩).agents = m.agents := by
  refine (List.map_congr_left fun entry hentry => ?_).trans (List.map_id _)
  exact congrArg (Prod.mk entry.1) (if_neg (h.ticket_ne_of_former hagent entry hentry))

end Numbered

end Manager

end Lifecycle
