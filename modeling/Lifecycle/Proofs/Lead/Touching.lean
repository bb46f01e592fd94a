import Lifecycle.Proofs.Lead.Storage
import Mathlib.Data.Set.Basic

/-!
# What touches some leads

What is done for some leads leaves the others alone: they keep their interpreters and queues, and
come to own no queue that is there (`Manager.Touches`). Each operation names the leads that it
touches, to which those belong that the callback for changes removes (`Manager.Confines`). The
tickets tell the interpreters of leads apart, and their queues, before and after
(`Manager.Distinct`).
-/

namespace Lifecycle

namespace Manager

/-- Interpreters of different leads have different tickets, and so have their queues. -/
structure Distinct (m : Manager) : Prop where
  agents : Ticketed Agent.ticket m.nextTicket m.agents
  mailboxes : Ticketed Mailbox.ticket m.nextTicket m.mailboxes

/-- The callback for changes removes none but some leads. -/
def Confines (leads : Set String) (m : Manager) : Prop :=
  ∀ callback, m.onChange = some callback → ∀ lead snapshot other,
    .remove other ∈ callback lead snapshot → other ∈ leads

/-- A manager has gone on from another one by what concerns some leads; the others keep their
interpreters and queues. -/
structure Touches (leads : Set String) (m m' : Manager) : Prop where
  distinct : m'.Distinct
  onChange_eq : m'.onChange = m.onChange
  /-- Leads come to own new queues only. -/
  owns {lead : String} {ticket : Nat} : m'.Owns lead ticket → m.Owns lead ticket
  agent?_eq {other : String} : other ∉ leads → m'.agent? other = m.agent? other
  mailbox?_eq {other : String} : other ∉ leads → m'.mailbox? other = m.mailbox? other

variable {leads : Set String} {m m' : Manager} {lead : String} {agent : Agent} {ticket : Nat}

theorem Touches.trans {m₁ m₂ m₃ : Manager} (h : m₁.Touches leads m₂) (h' : m₂.Touches leads m₃) :
    m₁.Touches leads m₃ where
  distinct := h'.distinct
  onChange_eq := h'.onChange_eq.trans h.onChange_eq
  owns howns := h.owns (h'.owns howns)
  agent?_eq hother := (h'.agent?_eq hother).trans (h.agent?_eq hother)
  mailbox?_eq hother := (h'.mailbox?_eq hother).trans (h.mailbox?_eq hother)

theorem Touches.confines (h : m.Touches leads m') (hcalls : m.Confines leads) :
    m'.Confines leads :=
  fun callback hcallback => hcalls callback (h.onChange_eq ▸ hcallback)

theorem confines_univ (m : Manager) : m.Confines Set.univ := fun _ _ _ _ _ _ => trivial

theorem Calm.confines (h : m.Calm) (leads : Set String) : m.Confines leads := by
  intro callback hcallback lead snapshot other hother
  obtain ⟨text, heq⟩ := h callback hcallback lead snapshot _ hother
  cases heq

namespace Distinct

/-- What happens to anything but the interpreters and queues of leads. -/
theorem touches_of_eq (h : m.Distinct) (hagents : m'.agents = m.agents)
    (hmailboxes : m'.mailboxes = m.mailboxes) (hnext : m'.nextTicket = m.nextTicket)
    (honChange : m'.onChange = m.onChange) : m.Touches leads m' where
  distinct := by
    obtain ⟨hagents', hmailboxes'⟩ := h
    exact ⟨by rwa [hagents, hnext], by rwa [hmailboxes, hnext]⟩
  onChange_eq := honChange
  owns howns := by rwa [Owns, mailbox?, hmailboxes, hnext] at howns
  agent?_eq _ := by rw [agent?, agent?, hagents]
  mailbox?_eq _ := by rw [mailbox?, mailbox?, hmailboxes]

theorem touches_of_alike (h : m.Distinct) (halike : m.Alike m') : m.Touches leads m' := by
  obtain ⟨notes, telemetry, rfl⟩ := halike
  exact h.touches_of_eq rfl rfl rfl rfl

theorem refl (h : m.Distinct) : m.Touches leads m := h.touches_of_eq rfl rfl rfl rfl

theorem touches_report (h : m.Distinct) (signals : List Signal) :
    m.Touches leads (m.report signals) := h.touches_of_eq rfl rfl rfl rfl

end Distinct

theorem Touches.report (h : m.Touches leads m') (signals : List Signal) :
    m.Touches leads (m'.report signals) := h.trans (h.distinct.touches_report signals)

namespace Distinct

/-! ## Interpreters and queues that are put in a place -/

theorem touches_putAgent (h : m.Distinct) (hlead : lead ∈ leads)
    (hagent : m.agent? lead = some agent) (interpreter : Interpreter) :
    m.Touches leads (m.putAgent ⟨agent.ticket, interpreter⟩) where
  distinct := ⟨h.agents.replace ⟨agent.ticket, interpreter⟩, h.mailboxes⟩
  onChange_eq := rfl
  owns := id
  agent?_eq {other} hother := by
    refine (Entries.get?_map m.agents other fun old : Agent =>
      if old.ticket = agent.ticket then ⟨agent.ticket, interpreter⟩ else old).trans ?_
    rw [agent?]
    rcases hget : Entries.get? m.agents other with _ | old
    · rfl
    · have hne : other ≠ lead := fun heq => hother (heq ▸ hlead)
      exact congrArg some (if_neg (h.agents.ticket_ne hagent hget hne))
  mailbox?_eq _ := rfl

end Distinct

/-- No lead but some owns the queue of a ticket. -/
def Spares (leads : Set String) (m : Manager) (ticket : Nat) : Prop :=
  ∀ other ∉ leads, ¬ m.Owns other ticket

theorem Spares.mono (h : m.Spares leads ticket)
    (howns : ∀ {lead ticket}, m'.Owns lead ticket → m.Owns lead ticket) :
    m'.Spares leads ticket :=
  fun other hother hown => h other hother (howns hown)

theorem Spares.subset {reach : Set String} (h : m.Spares leads ticket) (hsub : leads ⊆ reach) :
    m.Spares reach ticket :=
  fun other hother => h other fun hmem => hother (hsub hmem)

namespace Distinct

theorem spares (h : m.Distinct) (hlead : lead ∈ leads) {box : Mailbox}
    (hbox : m.mailbox? lead = some box) : m.Spares leads box.ticket := by
  rintro other hother (⟨found, hfound, heq⟩ | hnew)
  · have hne : other ≠ lead := fun heq => hother (heq ▸ hlead)
    exact h.mailboxes.ticket_ne hbox hfound hne heq
  · obtain ⟨key, hmem, -⟩ := Entries.exists_mem_of_get? hbox
    have hlt := h.mailboxes.ticket_lt _ (List.mem_map_of_mem hmem)
    exact Nat.lt_irrefl _ (Nat.lt_of_lt_of_le hlt hnew)

theorem touches_putMailbox (h : m.Distinct) (hticket : m.Spares leads ticket)
    (queue : EventQueue String) : m.Touches leads (m.putMailbox ⟨ticket, queue⟩) where
  distinct := ⟨h.agents, h.mailboxes.replace ⟨ticket, queue⟩⟩
  onChange_eq := rfl
  owns := owns_of_putMailbox
  agent?_eq _ := rfl
  mailbox?_eq {other} hother := by
    rw [mailbox?_putMailbox]
    rcases hbox : m.mailbox? other with _ | old
    · rfl
    · have hne : old.ticket ≠ ticket := fun heq => hticket other hother (.inl ⟨old, hbox, heq⟩)
      rw [Option.map_some, place, if_neg hne]

/-! ## Leads that come and go -/

theorem touches_attach (h : m.Distinct) (hlead : lead ∈ leads) (interpreter : Interpreter) :
    m.Touches leads (m.attach lead interpreter) where
  distinct := by
    have hagents : Ticketed Agent.ticket (m.nextTicket + 1)
        (Entries.set m.agents lead ⟨m.nextTicket, interpreter⟩) :=
      h.agents.renew (Nat.le_refl _) (Nat.lt_succ_self _)
    rw [attach_eq]
    rcases m.mailbox? lead with _ | box
    · exact ⟨hagents.mono (Nat.le_succ _),
        h.mailboxes.renew (Nat.le_succ _) (Nat.lt_succ_self _)⟩
    · exact ⟨hagents, h.mailboxes.mono (Nat.le_succ _)⟩
  onChange_eq := by rw [attach_eq]
  owns := (drains_attach m lead interpreter).owns
  agent?_eq hother := by
    rw [agent?_attach, if_neg]
    rintro rfl
    exact hother hlead
  mailbox?_eq hother := by
    rw [mailbox?_attach, if_neg]
    rintro ⟨rfl, -⟩
    exact hother hlead

theorem touches_launch (h : m.Distinct) (lead : String) : m.Touches leads (m.launch lead).1 :=
  h.touches_report _

theorem touches_getOrCreate (h : m.Distinct) (hlead : lead ∈ leads) :
    m.Touches leads (m.getOrCreate lead).1 := by
  unfold getOrCreate
  rcases m.agent? lead with _ | agent
  · have hlaunch : m.Touches leads (m.launch lead).1 := h.touches_launch lead
    generalize m.launch lead = launched at hlaunch
    obtain ⟨launched, fault | interpreter⟩ := launched
    · exact hlaunch
    · have hattach := hlaunch.trans (hlaunch.distinct.touches_attach hlead interpreter)
      exact hattach.report _
  · exact h.refl

theorem touches_remove (h : m.Distinct) (hlead : lead ∈ leads) :
    m.Touches leads (m.remove lead) := by
  obtain ⟨hmailboxes, -, hnext⟩ := remove_eq m lead
  have hagents : (m.remove lead).agents = Entries.erase m.agents lead := by
    unfold remove
    cases hagent : m.agent? lead with
    | none => exact (Entries.erase_of_get?_none hagent).symm
    | some agent => rfl
  have hne {other : String} (hother : other ∉ leads) : lead ≠ other :=
    fun heq => hother (heq ▸ hlead)
  refine ⟨⟨?_, ?_⟩, ?_, (drains_remove m lead).owns, fun {other} hother => ?_,
    fun {other} hother => ?_⟩
  · rw [hagents, hnext]
    exact h.agents.sublist List.filter_sublist
  · rw [hmailboxes, hnext]
    exact h.mailboxes.sublist List.filter_sublist
  · unfold remove
    cases m.agent? lead <;> rfl
  · rw [agent?, hagents, Entries.get?_erase, if_neg (hne hother), agent?]
  · rw [mailbox?_remove, if_neg (hne hother)]

/-! ## Callbacks and events -/

theorem touches_perform {commands : List ChangeCommand}
    (hleads : ∀ other, .remove other ∈ commands → other ∈ leads) (h : m.Distinct) :
    m.Touches leads (perform commands m).1 := by
  induction commands generalizing m with
  | nil => exact h.refl
  | cons command rest ih =>
    cases command with
    | fail text => exact h.refl
    | remove other =>
      have hremove := h.touches_remove (hleads other List.mem_cons_self)
      have hrest other (hother : .remove other ∈ rest) : other ∈ leads :=
        hleads other (List.mem_cons_of_mem _ hother)
      exact hremove.trans (ih hrest hremove.distinct)

theorem touches_tellChange (h : m.Distinct) (hcalls : m.Confines leads) (lead name : String)
    (snapshot : Snapshot) : m.Touches leads (m.tellChange lead name snapshot) := by
  unfold tellChange
  split
  · exact h.refl
  · rename_i callback hcallback
    have hnoted : m.Touches leads { m with notes := m.notes ++ [.changed lead snapshot.value] } :=
      h.touches_of_eq rfl rfl rfl rfl
    have hperform := hnoted.trans
      (hnoted.distinct.touches_perform (hcalls callback hcallback lead snapshot))
    dsimp only
    split
    · rename_i after hafter
      rwa [hafter] at hperform
    · rename_i after fault hafter
      rw [hafter] at hperform
      exact hperform.report _

theorem touches_deliver (h : m.Distinct) (hcalls : m.Confines leads) (hlead : lead ∈ leads)
    (hagent : m.agent? lead = some agent) (event : String) :
    m.Touches leads (m.deliver agent event).1 := by
  have hput := h.touches_putAgent hlead hagent (agent.interpreter.dispatch m.now event).state
  have hcall := hput.report (agent.interpreter.dispatch m.now event).signals
  unfold deliver
  dsimp only
  split
  · exact hcall
  · exact hcall
  · split
    · exact hcall.trans (hcall.distinct.touches_tellChange (hcall.confines hcalls) _ _ _)
    · exact hcall
  · split
    · exact hcall.trans (hcall.distinct.touches_of_alike (alike_tellIgnored _ _ _ _))
    · exact hcall

end Distinct

/-- The interpreter that is got or created is that of the lead. -/
theorem agent?_getOrCreate (h : (m.getOrCreate lead).2 = .ok agent) :
    (m.getOrCreate lead).1.agent? lead = some agent := by
  unfold getOrCreate at h ⊢
  rcases hagent : m.agent? lead with _ | old
  · simp only [hagent] at h ⊢
    generalize m.launch lead = launched at h
    obtain ⟨launched, fault | interpreter⟩ := launched
    · cases h
    · cases h
      exact (launched.agent?_attach lead lead interpreter).trans (if_pos rfl)
  · simp only [hagent] at h ⊢
    cases h
    rfl

namespace Distinct

theorem touches_send (h : m.Distinct) (hcalls : m.Confines leads) (hlead : lead ∈ leads)
    (event : String) : m.Touches leads (m.send lead event).1 := by
  have hcreate := h.touches_getOrCreate hlead
  have hagent (agent : Agent) : (m.getOrCreate lead).2 = .ok agent → _ := agent?_getOrCreate
  unfold send
  generalize m.getOrCreate lead = created at hcreate hagent
  obtain ⟨created, fault | agent⟩ := created
  · exact hcreate
  · exact hcreate.trans
      (hcreate.distinct.touches_deliver (hcreate.confines hcalls) hlead (hagent agent rfl) event)

theorem touches_enqueue (h : m.Distinct) (hlead : lead ∈ leads) (event : String) :
    m.Touches leads (m.enqueue lead event).1 := by
  have hcreate := h.touches_getOrCreate hlead
  unfold enqueue
  generalize m.getOrCreate lead = created at hcreate
  obtain ⟨created, fault | agent⟩ := created
  · exact hcreate
  · dsimp only
    split
    · exact hcreate
    · rename_i box hbox
      have hput := hcreate.trans (hcreate.distinct.touches_putMailbox
        (hcreate.distinct.spares hlead hbox) (box.queue.enqueue event).state)
      exact hput.report _

/-! ## Files -/

theorem touches_install (h : m.Distinct) (hlead : lead ∈ leads) (interpreter : Interpreter) :
    m.Touches leads (m.install lead interpreter) := by
  unfold install
  split
  · rename_i agent _
    have hretire : m.Touches leads (m.retire agent) := h.touches_of_eq rfl rfl rfl rfl
    exact hretire.trans (hretire.distinct.touches_attach hlead interpreter)
  · exact h.touches_attach hlead interpreter

theorem touches_loadLead (h : m.Distinct) (hlead : lead ∈ leads) (layout : Json) :
    m.Touches leads (m.loadLead lead layout).1 := by
  unfold loadLead
  split
  · rename_i interpreter _
    have htold : m.Touches leads (m.report interpreter.restoredSignals) := h.touches_report _
    exact htold.trans (htold.distinct.touches_install hlead interpreter)
  · rename_i corruption _
    have htold : m.Touches leads (m.report [.log (.leadCorrupt lead corruption.message),
      .count "persist.error" [("op", "restore"), ("policy", m.policy.word)]]) := h.touches_report _
    dsimp only
    split
    · exact htold
    · have hlaunch := htold.trans (htold.distinct.touches_launch lead)
      generalize launch _ lead = launched at hlaunch
      obtain ⟨launched, fault | interpreter⟩ := launched
      · exact hlaunch
      · exact hlaunch.trans (hlaunch.distinct.touches_install hlead interpreter)

theorem touches_load (h : m.Distinct) (disk : Disk) (route : Route) :
    m.Touches Set.univ (m.load disk route).1 :=
  load_induction (P := fun m' => m.Touches Set.univ m')
    (fun _ layout _ htold => htold.trans (htold.distinct.touches_loadLead (Set.mem_univ _) layout))
    (fun _ htold => htold.report _) h.refl disk route

theorem touches_save (h : m.Distinct) (disk : Disk) (route : Route) :
    m.Touches ∅ (m.save disk route).1 := by
  unfold save
  split
  · exact h.refl
  · exact h.touches_report _

end Distinct

end Manager

end Lifecycle
