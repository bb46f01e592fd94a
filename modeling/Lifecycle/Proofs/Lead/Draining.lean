import Lifecycle.Lead.Worker
import Lifecycle.Proofs.Lead.Manager

/-!
# Draining queues

Everything that a manager does but `Manager.enqueue` puts no event into a queue: queues lose events,
new ones are empty, and a lead comes to own only new ones (`Manager.Drains`). This holds of any
chart and any callbacks, whether leads are removed or not. A worker that sends an event on in its
turn has taken it from the queue that it has claimed (`Worker.passes_advance`).
-/

namespace Lifecycle

namespace Entries

variable {α : Type} (entries : Entries α) (key other : String)

theorem get?_erase :
    get? (erase entries key) other = if key = other then none else get? entries other := by
  induction entries with
  | nil => simp [erase]
  | cons entry rest ih =>
    rw [erase] at ih ⊢
    by_cases hkey : entry.1 = key
    · rw [List.filter_cons_of_neg (by simpa using hkey), ih, get?_cons, hkey]
      by_cases hother : key = other
      · rw [if_pos hother, if_pos hother]
      · rw [if_neg hother, if_neg hother, if_neg (by simpa using hother)]
    · rw [List.filter_cons_of_pos (by simpa using hkey), get?_cons, get?_cons, ih]
      by_cases hother : key = other
      · rw [if_pos hother, if_pos hother, if_neg (by simpa [← hother] using hkey)]
      · rw [if_neg hother, if_neg hother]

variable {entries key} in
theorem erase_of_get?_none (h : get? entries key = none) : erase entries key = entries := by
  refine List.filter_eq_self.mpr fun entry hentry => ?_
  by_contra hfound
  have hkey : entry.1 = key := by simpa using hfound
  have hmem : key ∈ keys entries := hkey ▸ List.mem_map_of_mem hentry
  rw [← get?_isSome_iff, h] at hmem
  cases hmem

theorem get?_map (f : α → α) :
    get? (entries.map fun entry => (entry.1, f entry.2)) key = (get? entries key).map f := by
  induction entries with
  | nil => rfl
  | cons entry rest ih =>
    rw [List.map_cons, get?_cons, get?_cons, ih]
    split <;> rfl

end Entries

/-- A queue has lost events at most. -/
structure Mailbox.Drains (box box' : Mailbox) : Prop where
  ticket_eq : box'.ticket = box.ticket
  capacity_eq : box'.queue.capacity = box.queue.capacity
  items : box'.queue.items.Sublist box.queue.items

theorem Mailbox.Drains.refl (box : Mailbox) : box.Drains box := ⟨rfl, rfl, .refl _⟩

theorem Mailbox.Drains.trans {box₁ box₂ box₃ : Mailbox} (h : box₁.Drains box₂)
    (h' : box₂.Drains box₃) : box₁.Drains box₃ :=
  ⟨h'.ticket_eq.trans h.ticket_eq, h'.capacity_eq.trans h.capacity_eq, h'.items.trans h.items⟩

namespace Manager

variable {m m' : Manager} {lead : String} {box box' : Mailbox} {ticket : Nat}

/-- All queues, those of leads and former ones. -/
def boxes (m : Manager) : List Mailbox := m.mailboxes.map Prod.snd ++ m.formerMailboxes

/-- The ticket is that of the queue of a lead, or one that the lead may still be given. -/
def Owns (m : Manager) (lead : String) (ticket : Nat) : Prop :=
  (∃ box, m.mailbox? lead = some box ∧ box.ticket = ticket) ∨ m.nextTicket ≤ ticket

/-- The queue is new in a manager that comes from another one. -/
structure Adds (m m' : Manager) (box : Mailbox) : Prop where
  next_le : m.nextTicket ≤ box.ticket
  lt_next : box.ticket < m'.nextTicket
  capacity_eq : box.queue.capacity = .int Settings.queueCapacity
  items_eq : box.queue.items = []

/-- One manager comes from another by operations that put no event into a queue. -/
structure Drains (m m' : Manager) : Prop where
  next_le : m.nextTicket ≤ m'.nextTicket
  /-- A queue has lost events at most, or it is new. -/
  boxes : ∀ box' ∈ m'.boxes, (∃ box ∈ m.boxes, box.Drains box') ∨ m.Adds m' box'
  owns {lead : String} {ticket : Nat} : m'.Owns lead ticket → m.Owns lead ticket

theorem Drains.trans {m₁ m₂ m₃ : Manager} (h : m₁.Drains m₂) (h' : m₂.Drains m₃) :
    m₁.Drains m₃ where
  next_le := Nat.le_trans h.next_le h'.next_le
  owns howns := h.owns (h'.owns howns)
  boxes box hbox := by
    rcases h'.boxes box hbox with ⟨box', hbox', hdrains⟩ | hadds
    · rcases h.boxes box' hbox' with ⟨box'', hbox'', hdrains'⟩ | hadds
      · exact .inl ⟨box'', hbox'', hdrains'.trans hdrains⟩
      · have hlt := Nat.lt_of_lt_of_le hadds.lt_next h'.next_le
        refine .inr ⟨hdrains.ticket_eq ▸ hadds.next_le, hdrains.ticket_eq ▸ hlt,
          hdrains.capacity_eq.trans hadds.capacity_eq, ?_⟩
        exact List.sublist_nil.mp (hadds.items_eq ▸ hdrains.items)
    · exact .inr ⟨Nat.le_trans h.next_le hadds.next_le, hadds.lt_next, hadds.capacity_eq,
        hadds.items_eq⟩

/-- What changes no queue drains none. -/
theorem drains_of_eq (hmailboxes : m'.mailboxes = m.mailboxes)
    (hformer : m'.formerMailboxes = m.formerMailboxes) (hnext : m.nextTicket ≤ m'.nextTicket) :
    m.Drains m' where
  next_le := hnext
  boxes box hbox := by
    rw [Manager.boxes, hmailboxes, hformer] at hbox
    exact .inl ⟨box, hbox, .refl box⟩
  owns howns := by
    rw [Owns, mailbox?, hmailboxes] at howns
    exact howns.imp_right (Nat.le_trans hnext)

theorem Drains.refl (m : Manager) : m.Drains m := drains_of_eq rfl rfl (Nat.le_refl _)

theorem Alike.drains (h : m.Alike m') : m.Drains m' := by
  obtain ⟨notes, telemetry, rfl⟩ := h
  exact drains_of_eq rfl rfl (Nat.le_refl _)

theorem mem_boxes_of_mailbox? (h : m.mailbox? lead = some box) : box ∈ m.boxes := by
  obtain ⟨key, hmem, -⟩ := Entries.exists_mem_of_get? h
  exact List.mem_append_left _ (List.mem_map_of_mem (f := Prod.snd) hmem)

theorem mem_boxes_of_mailboxOf? (h : m.mailboxOf? ticket = some box) : box ∈ m.boxes :=
  List.mem_of_find?_eq_some h

theorem ticket_of_mailboxOf? (h : m.mailboxOf? ticket = some box) : box.ticket = ticket := by
  simpa using List.find?_some h

/-! ## Leads that come and go -/

theorem remove_eq (m : Manager) (lead : String) :
    (m.remove lead).mailboxes = Entries.erase m.mailboxes lead ∧
      (m.remove lead).formerMailboxes = (m.mailbox? lead).toList ++ m.formerMailboxes ∧
      (m.remove lead).nextTicket = m.nextTicket := by
  unfold remove
  cases m.agent? lead <;> cases hbox : m.mailbox? lead <;> exact ⟨rfl, rfl, rfl⟩

theorem mailbox?_remove (m : Manager) (lead other : String) :
    (m.remove lead).mailbox? other = if lead = other then none else m.mailbox? other := by
  rw [mailbox?, (remove_eq m lead).1, Entries.get?_erase, mailbox?]

/-- A lead that is removed owns no queue that is there. -/
theorem next_le_of_owns_remove (h : (m.remove lead).Owns lead ticket) : m.nextTicket ≤ ticket := by
  rw [Owns, mailbox?_remove, if_pos rfl, (remove_eq m lead).2.2] at h
  rcases h with ⟨box, hbox, -⟩ | hle
  · cases hbox
  · exact hle

/-- A queue that is there when a lead is removed was there before. -/
theorem mem_boxes_of_remove (h : box ∈ (m.remove lead).boxes) : box ∈ m.boxes := by
  obtain ⟨hmailboxes, hformer, -⟩ := remove_eq m lead
  rw [boxes, hmailboxes, hformer] at h
  rcases List.mem_append.mp h with h | h
  · obtain ⟨entry, hentry, rfl⟩ := List.mem_map.mp h
    exact List.mem_append_left _ (List.mem_map_of_mem (List.mem_of_mem_filter hentry))
  · rcases List.mem_append.mp h with h | h
    · exact mem_boxes_of_mailbox? (Option.mem_toList.mp h)
    · exact List.mem_append_right _ h

theorem drains_remove (m : Manager) (lead : String) : m.Drains (m.remove lead) := by
  obtain ⟨-, -, hnext⟩ := remove_eq m lead
  refine ⟨Nat.le_of_eq hnext.symm,
    fun box hbox => .inl ⟨box, mem_boxes_of_remove hbox, .refl box⟩,
    fun {other ticket} howns => ?_⟩
  rw [Owns, mailbox?_remove, hnext] at howns
  refine howns.imp_left fun ⟨box, hbox, hticket⟩ => ⟨box, ?_, hticket⟩
  split at hbox
  · cases hbox
  · exact hbox

/-- A queue that is there when a lead is given an interpreter was there before, or is new. -/
theorem mem_boxes_attach (h : box ∈ (m.attach lead interpreter).boxes) :
    box ∈ m.boxes ∨ (box = ⟨m.nextTicket + 1, newQueue lead⟩ ∧
      (m.attach lead interpreter).nextTicket = m.nextTicket + 2) := by
  rw [attach_eq] at h ⊢
  rcases hbox : m.mailbox? lead with _ | old <;> simp only [hbox] at h ⊢
  · rcases List.mem_append.mp h with hcurrent | hformer
    · obtain ⟨entry, hentry, rfl⟩ := List.mem_map.mp hcurrent
      rcases Entries.mem_set hentry with hold | hnew
      · exact .inl (List.mem_append_left _ (List.mem_map_of_mem hold))
      · exact .inr ⟨hnew, rfl⟩
    · exact .inl (List.mem_append_right _ hformer)
  · exact .inl h

theorem drains_attach (m : Manager) (lead : String) (interpreter : Interpreter) :
    m.Drains (m.attach lead interpreter) where
  next_le := (m.nextTicket_lt_attach lead interpreter).le
  boxes box hbox := by
    rcases mem_boxes_attach hbox with hold | ⟨rfl, hnext⟩
    · exact .inl ⟨box, hold, .refl box⟩
    · exact .inr ⟨Nat.le_succ _, hnext ▸ Nat.lt_succ_self _, rfl, rfl⟩
  owns {other ticket} howns := by
    rw [Owns, mailbox?_attach] at howns
    rcases howns with ⟨box, hbox, rfl⟩ | hle
    · split at hbox
      · obtain rfl := Option.some.inj hbox
        exact .inr (Nat.le_succ _)
      · exact .inl ⟨box, hbox, rfl⟩
    · exact .inr ((m.nextTicket_lt_attach lead interpreter).le.trans hle)

theorem drains_getOrCreate (m : Manager) (lead : String) : m.Drains (m.getOrCreate lead).1 := by
  unfold getOrCreate
  rcases m.agent? lead with _ | agent
  · have hlaunch : m.Drains (m.launch lead).1 := (alike_report m _).drains
    generalize m.launch lead = launched at hlaunch
    obtain ⟨launched, fault | interpreter⟩ := launched
    · exact hlaunch
    · exact (hlaunch.trans (drains_attach _ _ _)).trans (alike_report _ _).drains
  · exact .refl m

theorem drains_perform (commands : List ChangeCommand) (m : Manager) :
    m.Drains (perform commands m).1 := by
  induction commands generalizing m with
  | nil => exact .refl m
  | cons command rest ih =>
    cases command with
    | fail text => exact .refl m
    | remove lead => exact (drains_remove m lead).trans (ih _)

theorem drains_tellChange (m : Manager) (lead name : String) (snapshot : Snapshot) :
    m.Drains (m.tellChange lead name snapshot) := by
  unfold tellChange
  split
  · exact .refl m
  · rename_i callback hcallback
    have hnoted : m.Drains { m with notes := m.notes ++ [.changed lead snapshot.value] } :=
      Alike.drains ⟨_, m.telemetry, rfl⟩
    have hperform := hnoted.trans (drains_perform (callback lead snapshot) _)
    dsimp only
    split
    · rename_i after hafter
      rwa [hafter] at hperform
    · rename_i after fault hafter
      rw [hafter] at hperform
      exact hperform.trans (alike_report _ _).drains

theorem drains_deliver (m : Manager) (agent : Agent) (event : String) :
    m.Drains (m.deliver agent event).1 := by
  unfold deliver
  have hcall : m.Drains ((m.putAgent ⟨agent.ticket,
      (agent.interpreter.dispatch m.now event).state⟩).report
        (agent.interpreter.dispatch m.now event).signals) :=
    drains_of_eq rfl rfl (Nat.le_refl _)
  dsimp only
  split
  · exact hcall
  · exact hcall
  · split
    · exact hcall.trans (drains_tellChange _ _ _ _)
    · exact hcall
  · split
    · exact hcall.trans (alike_tellIgnored _ _ _ _).drains
    · exact hcall

theorem drains_send (m : Manager) (lead event : String) : m.Drains (m.send lead event).1 := by
  have hcreate := drains_getOrCreate m lead
  unfold send
  generalize m.getOrCreate lead = created at hcreate
  obtain ⟨created, fault | agent⟩ := created
  · exact hcreate
  · exact hcreate.trans (drains_deliver created agent event)

/-! ## Queues that are put in a place -/

/-- What stands in the place of a queue when another one is put there. -/
def place (box old : Mailbox) : Mailbox := if old.ticket = box.ticket then box else old

theorem ticket_place (box old : Mailbox) : (place box old).ticket = old.ticket := by
  unfold place
  split
  · rename_i heq
    exact heq.symm
  · rfl

theorem boxes_putMailbox (m : Manager) (box : Mailbox) :
    (m.putMailbox box).boxes = m.boxes.map (place box) := by
  rw [boxes, boxes, List.map_append, List.map_map]
  exact congrArg (· ++ _) List.map_map

theorem mem_boxes_putMailbox (h : box' ∈ (m.putMailbox box).boxes) :
    box' = box ∨ box' ∈ m.boxes ∧ box'.ticket ≠ box.ticket := by
  rw [boxes_putMailbox] at h
  obtain ⟨old, hold, rfl⟩ := List.mem_map.mp h
  unfold place
  split
  · exact .inl rfl
  · rename_i hne
    exact .inr ⟨hold, hne⟩

theorem mailbox?_putMailbox (m : Manager) (box : Mailbox) (lead : String) :
    (m.putMailbox box).mailbox? lead = (m.mailbox? lead).map (place box) :=
  Entries.get?_map m.mailboxes lead (place box)

theorem mailboxOf?_putMailbox (m : Manager) (box : Mailbox) (ticket : Nat) :
    (m.putMailbox box).mailboxOf? ticket = (m.mailboxOf? ticket).map (place box) := by
  have hticket : (fun old : Mailbox => old.ticket == ticket) ∘ place box =
      fun old => old.ticket == ticket := by
    funext old
    exact congrArg (· == ticket) (ticket_place box old)
  change List.find? _ (m.putMailbox box).boxes = _
  rw [boxes_putMailbox, List.find?_map, hticket]
  rfl

theorem owns_of_putMailbox (h : (m.putMailbox box).Owns lead ticket) : m.Owns lead ticket := by
  rw [Owns, mailbox?_putMailbox] at h
  rcases h with ⟨found, hfound, rfl⟩ | hle
  · obtain ⟨old, hold, rfl⟩ := Option.map_eq_some_iff.mp hfound
    exact .inl ⟨old, hold, (ticket_place box old).symm⟩
  · exact .inr hle

/-- A manager goes on by operations that leave every queue at its place and put no event into it.
That tickets tell queues apart is not assumed, so the look-up by ticket is stated beside the
queues. -/
structure Idles (m m' : Manager) : Prop extends m.Drains m' where
  mailboxOf {ticket : Nat} {box' : Mailbox} : m'.mailboxOf? ticket = some box' →
    ∃ box, m.mailboxOf? ticket = some box ∧ box.Drains box'

theorem Idles.refl (m : Manager) : m.Idles m := ⟨.refl m, fun h => ⟨_, h, .refl _⟩⟩

theorem Idles.trans {m₁ m₂ m₃ : Manager} (h : m₁.Idles m₂) (h' : m₂.Idles m₃) : m₁.Idles m₃ := by
  refine ⟨h.toDrains.trans h'.toDrains, fun {ticket box₃} hbox₃ => ?_⟩
  obtain ⟨box₂, hbox₂, hdrains⟩ := h'.mailboxOf hbox₃
  obtain ⟨box₁, hbox₁, hdrains'⟩ := h.mailboxOf hbox₂
  exact ⟨box₁, hbox₁, hdrains'.trans hdrains⟩

theorem Alike.idles (h : m.Alike m') : m.Idles m' := by
  refine ⟨h.drains, fun {ticket box'} hbox' => ⟨box', ?_, .refl box'⟩⟩
  obtain ⟨notes, telemetry, rfl⟩ := h
  exact hbox'

/-- A queue that has lost events at most is put in its place. -/
theorem idles_putMailbox (hbox : m.mailboxOf? box'.ticket = some box) (h : box.Drains box') :
    m.Idles (m.putMailbox box') := by
  refine ⟨⟨Nat.le_refl _, fun found hfound => .inl ?_, owns_of_putMailbox⟩,
    fun {ticket found} hfound => ?_⟩
  · rcases mem_boxes_putMailbox hfound with rfl | ⟨hmem, -⟩
    · exact ⟨box, mem_boxes_of_mailboxOf? hbox, h⟩
    · exact ⟨found, hmem, .refl found⟩
  · rw [mailboxOf?_putMailbox] at hfound
    obtain ⟨old, hold, rfl⟩ := Option.map_eq_some_iff.mp hfound
    refine ⟨old, hold, ?_⟩
    unfold place
    split
    · rename_i heq
      rw [← heq, ticket_of_mailboxOf? hold, hold] at hbox
      cases hbox
      exact h
    · exact .refl old

/-- A manager goes on by operations that begin with taking the oldest event from the queue of a
ticket. -/
structure Hands (m m' : Manager) (ticket : Nat) : Prop extends m.Drains m' where
  taken : ∃ box first rest, m.mailboxOf? ticket = some box ∧ box.queue.items = first :: rest ∧
    ∀ box' ∈ m'.boxes, box'.ticket = ticket → box'.queue.items.Sublist rest

theorem Idles.hands {m₁ m₂ m₃ : Manager} (h : m₁.Idles m₂) (h' : m₂.Hands m₃ ticket) :
    m₁.Hands m₃ ticket := by
  obtain ⟨box₂, first, rest, hbox₂, hitems, hrest⟩ := h'.taken
  obtain ⟨box₁, hbox₁, hdrains⟩ := h.mailboxOf hbox₂
  refine ⟨h.toDrains.trans h'.toDrains, box₁, ?_⟩
  have hsublist := hitems ▸ hdrains.items
  cases hitems₁ : box₁.queue.items with
  | nil =>
    rw [hitems₁] at hsublist
    cases hsublist
  | cons first₁ rest₁ =>
    rw [hitems₁] at hsublist
    have hrest₁ : rest.Sublist rest₁ := by simpa using hsublist.tail
    exact ⟨first₁, rest₁, hbox₁, rfl, fun box' hbox' hticket =>
      (hrest box' hbox' hticket).trans hrest₁⟩

end Manager

/-! ## Turns -/

namespace Worker

open Manager

variable {m m' : Manager} {w : Worker} {lead : String} {ticket : Nat}

theorem idles_mark (m : Manager) (ticket : Nat) (processing : Bool) :
    m.Idles (mark m ticket processing) := by
  unfold mark
  split
  · exact .refl m
  · rename_i box hbox
    obtain rfl := ticket_of_mailboxOf? hbox
    exact idles_putMailbox hbox ⟨rfl, rfl, .refl _⟩

/-- How a worker fares with the queue of a ticket. -/
inductive Takes (m : Manager) (w : Worker) (ticket : Nat) : Manager × Worker × Option Turn → Prop
  /-- It sends on the oldest event. -/
  | sent {m' : Manager} {after : Worker} (claim_eq : after.claim = w.claim)
      (hands : m.Hands m' ticket) : Takes m w ticket (m', after, some .yielded)
  | failed {m' : Manager} {after : Worker} {fault : Fault} (drains : m.Drains m') :
      Takes m w ticket (m', after, some (.failed fault))
  /-- It gives the queue back. -/
  | gave {m' : Manager} {after : Worker} (claim_eq : after.claim = none) (idles : m.Idles m') :
      Takes m w ticket (m', after, none)

/-- Taking an event leaves the others. -/
theorem drains_dequeue (box : Mailbox) : box.Drains ⟨box.ticket, box.queue.dequeue.state⟩ := by
  rcases box.queue.dequeue_cases with ⟨-, hdequeue⟩ | ⟨line, first, hitems, hstate, -⟩
  · rw [hdequeue]
    exact .refl box
  · rw [hstate]
    exact ⟨rfl, rfl, hitems ▸ List.sublist_cons_self _ _⟩

theorem takes_takeEvent (m : Manager) (w : Worker) (lead : String) (ticket : Nat) :
    Takes m w ticket (takeEvent m w lead ticket) := by
  unfold takeEvent release
  rcases hbox : m.mailboxOf? ticket with _ | box
  · exact .gave rfl (idles_mark m ticket false)
  · obtain rfl := ticket_of_mailboxOf? hbox
    have hplaced : m.Idles (m.putMailbox ⟨box.ticket, box.queue.dequeue.state⟩) :=
      idles_putMailbox hbox (drains_dequeue box)
    have hput := hplaced.trans (alike_report _ box.queue.dequeue.signals).idles
    have hgave := hput.trans (idles_mark _ box.ticket false)
    dsimp only [Option.map_some]
    split
    · rename_i event agent hresult hagent
      obtain ⟨-, hnone⟩ | ⟨line, first, hitems, hstate, -⟩ := box.queue.dequeue_cases
      · rw [hnone] at hresult
        cases hresult
      · have hdeliver := drains_deliver (report (m.putMailbox ⟨box.ticket, box.queue.dequeue.state⟩)
          box.queue.dequeue.signals) agent event
        generalize deliver _ agent event = delivered at hdeliver
        obtain ⟨m', fault | snapshot⟩ := delivered
        · exact .failed ((hput.toDrains.trans hdeliver).trans (idles_mark _ _ _).toDrains)
        · refine .sent rfl ⟨hput.toDrains.trans hdeliver, box, first, line.toList, hbox, hitems,
            fun box' hbox' hticket => ?_⟩
          -- The callbacks may remove leads meanwhile, which moves the queue but puts nothing into it.
          rcases hdeliver.boxes box' hbox' with ⟨old, hold, hdrains⟩ | hadds
          · rcases mem_boxes_putMailbox hold with rfl | ⟨-, hne⟩
            · rw [hstate] at hdrains
              exact hdrains.items
            · exact absurd (hdrains.ticket_eq.symm.trans hticket) hne
          · rw [hadds.items_eq]
            exact List.nil_sublist _
    · exact .gave rfl hgave

/-- How a worker fares in a turn. -/
inductive Passes (m : Manager) (w : Worker) : Manager × Worker × Turn → Prop
  | yielded {m' : Manager} {after : Worker} {lead : String} {ticket : Nat}
      (claim_eq : after.claim = some (lead, ticket))
      (owned : w.claim = some (lead, ticket) ∨ m.Owns lead ticket) (hands : m.Hands m' ticket) :
      Passes m w (m', after, .yielded)
  | finished {m' : Manager} {after : Worker} (drains : m.Drains m') :
      Passes m w (m', after, .finished)
  | failed {m' : Manager} {after : Worker} {fault : Fault} (drains : m.Drains m') :
      Passes m w (m', after, .failed fault)

/-- A turn may begin with looking in vain. -/
theorem Passes.of_idles {w₁ w₂ : Worker} {result : Manager × Worker × Turn} (h : m.Idles m')
    (hclaim : w₂.claim = none) (hpasses : Passes m' w₂ result) : Passes m w₁ result := by
  cases hpasses with
  | yielded hafter howned hhands =>
    refine .yielded hafter (.inr (h.owns (howned.resolve_left fun heq => ?_))) (h.hands hhands)
    rw [hclaim] at heq
    cases heq
  | finished hdrains => exact .finished (h.toDrains.trans hdrains)
  | failed hdrains => exact .failed (h.toDrains.trans hdrains)

theorem passes_seek (leads : List String) (m : Manager) (hclaim : w.claim = none) :
    Passes m w (seek leads m w) := by
  induction leads generalizing m w with
  | nil => exact .finished (.refl m)
  | cons lead rest ih =>
    unfold seek
    split
    · exact ih m hclaim
    · rename_i box hbox
      split
      · exact ih m hclaim
      · have hmark := idles_mark m box.ticket true
        have htakes := takes_takeEvent (mark m box.ticket true)
          { w with claim := some (lead, box.ticket), remaining := some rest } lead box.ticket
        dsimp only
        generalize takeEvent _ _ lead box.ticket = result at htakes
        cases htakes with
        | sent hclaim' hhands =>
          exact .yielded hclaim' (.inr (.inl ⟨box, hbox, rfl⟩)) (hmark.hands hhands)
        | failed hdrains => exact .failed (hmark.toDrains.trans hdrains)
        | gave hclaim' hidles => exact (ih _ hclaim').of_idles (hmark.trans hidles) hclaim'

theorem passes_advance (m : Manager) (w : Worker) : Passes m w (advance m w) := by
  unfold advance
  split
  · rename_i hclaim
    exact passes_seek _ m hclaim
  · rename_i lead ticket hclaim
    have htakes := takes_takeEvent m w lead ticket
    generalize takeEvent m w lead ticket = result at htakes
    cases htakes with
    | sent hclaim' hhands => exact .yielded (hclaim'.trans hclaim) (.inl hclaim) hhands
    | failed hdrains => exact .failed hdrains
    | gave hclaim' hidles => exact (passes_seek _ _ hclaim').of_idles hidles hclaim'

end Worker

end Lifecycle
