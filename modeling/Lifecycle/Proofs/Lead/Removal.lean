import Lifecycle.Proofs.Lead.Chart
import Lifecycle.Proofs.Lead.Draining
import Lifecycle.Proofs.Lead.Office

/-!
# Leads that are removed

A lead that is created again gets a queue of its own, with a new ticket. Where no worker has claimed
the queue of a lead when the lead is removed, workers send to the lead afterwards only what was
offered to it afterwards (`Office.run_removed`): from then on, the office is as good as new for the
lead (`Office.Anew`). But a worker that has claimed the old queue goes on with it, and looks for the
interpreter of the lead again for each event: waiting events of a removed lead reach the interpreter
that it is given later (`Office.removed_returns`).
-/

namespace Lifecycle

namespace Deed

/-- The event that was offered to a queue, and whether it was let in. -/
def offerTo? (mailbox : Nat) : Deed → Option (String × Bool)
  | offered _ other event accepted => if other = mailbox then some (event, accepted) else none
  | sent .. | handed .. => none

/-- The event that a worker took from a queue and sent on. -/
def handedFrom? (mailbox : Nat) : Deed → Option String
  | handed _ other _ call => if other = mailbox then some call.event else none
  | offered .. | sent .. => none

/-- What workers sent on from a queue, and what waits in it, was offered to it and let in, in this
order, by the book. -/
def Covers (book : List Deed) (mailbox : Nat) (waiting : List String) : Prop :=
  (book.filterMap (handedFrom? mailbox) ++ waiting).Sublist
    (EventQueue.accepted (book.filterMap (offerTo? mailbox)))

variable {book : List Deed} {deed : Deed} {mailbox agent : Nat} {lead event : String} {call : Call}
  {accepted : Bool} {waiting waiting' rest : List String}

theorem Covers.mono (h : Covers book mailbox waiting) (hwaiting : waiting'.Sublist waiting) :
    Covers book mailbox waiting' := ((List.Sublist.refl _).append hwaiting).trans h

theorem Covers.of_none (h : Covers book mailbox waiting) (hoffer : deed.offerTo? mailbox = none)
    (hhanded : deed.handedFrom? mailbox = none) : Covers (book ++ [deed]) mailbox waiting := by
  rw [Covers, filterMap_concat, filterMap_concat, hoffer, hhanded, Option.toList_none,
    List.append_nil, Option.toList_none, List.append_nil]
  exact h

theorem Covers.offered (h : Covers book mailbox waiting) :
    Covers (book ++ [.offered lead mailbox event accepted]) mailbox
      (waiting ++ EventQueue.accepted [(event, accepted)]) := by
  rw [Covers, filterMap_concat, filterMap_concat, offerTo?, if_pos rfl, handedFrom?,
    Option.toList_none, List.append_nil, Option.toList_some, EventQueue.accepted_append,
    ← List.append_assoc]
  exact h.append (List.Sublist.refl _)

theorem Covers.handed (h : Covers book mailbox (call.event :: rest)) :
    Covers (book ++ [.handed lead mailbox agent call]) mailbox rest := by
  rw [Covers, filterMap_concat, filterMap_concat, offerTo?, handedFrom?, if_pos rfl,
    Option.toList_none, List.append_nil, Option.toList_some, List.append_assoc]
  exact h

end Deed

namespace Office

open Deed

/-- The book goes on from what stands in it. -/
theorem act_eq (m : Manager) (stations : List Station) (book : List Deed) (move : Move) :
    act ⟨m, stations, book⟩ move =
      { act ⟨m, stations, []⟩ move with book := book ++ (act ⟨m, stations, []⟩ move).book } := by
  cases move with
  | turn i =>
    simp only [act, turn]
    split
    · split <;> simp
    · simp
  | _ => simp [act]

/-- The book goes on from what stands in it. -/
theorem run_eq (m : Manager) (stations : List Station) (book : List Deed) (moves : List Move) :
    run ⟨m, stations, book⟩ moves =
      { run ⟨m, stations, []⟩ moves with book := book ++ (run ⟨m, stations, []⟩ moves).book } := by
  induction moves generalizing m stations book with
  | nil => simp [run]
  | cons move rest ih =>
    change run (act ⟨m, stations, book⟩ move) rest = _
    rw [act_eq, ih, show run ⟨m, stations, []⟩ (move :: rest) =
      run (act ⟨m, stations, []⟩ move) rest from rfl]
    rcases act ⟨m, stations, []⟩ move with ⟨m', stations', book'⟩
    rw [ih m' stations' book']
    simp

/-- From a moment on, all that workers send to a lead has come to it since then. The book begins at
the moment, and queues that came later have tickets from a bound on. -/
structure Anew (o : Office) (lead : String) (bound : Nat) : Prop where
  owns {ticket : Nat} : o.manager.Owns lead ticket → bound ≤ ticket
  claims {worker : Worker} {ticket : Nat} : .working worker ∈ o.stations →
    worker.claim = some (lead, ticket) → bound ≤ ticket
  handed {mailbox agent : Nat} {call : Call} : .handed lead mailbox agent call ∈ o.book →
    bound ≤ mailbox
  ticket_lt : ∀ box ∈ o.manager.boxes, box.ticket < o.manager.nextTicket
  capacity_eq : ∀ box ∈ o.manager.boxes, bound ≤ box.ticket →
    box.queue.capacity = .int Settings.queueCapacity
  covers {ticket : Nat} : bound ≤ ticket → Covers o.book ticket []
  covers_box : ∀ box ∈ o.manager.boxes, bound ≤ box.ticket →
    Covers o.book box.ticket box.queue.items

variable {o : Office} {lead : String} {bound : Nat} {m' : Manager} {stations : List Station}

theorem Anew.drain (h : o.Anew lead bound) (hdrains : o.manager.Drains m')
    (hclaims : ∀ worker ticket, .working worker ∈ stations →
      worker.claim = some (lead, ticket) → bound ≤ ticket) :
    Anew ⟨m', stations, o.book⟩ lead bound where
  owns howns := h.owns (hdrains.owns howns)
  claims {worker ticket} := hclaims worker ticket
  handed := h.handed
  ticket_lt box hbox := by
    rcases hdrains.boxes box hbox with ⟨old, hold, hdrain⟩ | hadds
    · rw [hdrain.ticket_eq]
      exact Nat.lt_of_lt_of_le (h.ticket_lt old hold) hdrains.next_le
    · exact hadds.lt_next
  capacity_eq box hbox hle := by
    rcases hdrains.boxes box hbox with ⟨old, hold, hdrain⟩ | hadds
    · rw [hdrain.capacity_eq]
      exact h.capacity_eq old hold (hdrain.ticket_eq ▸ hle)
    · exact hadds.capacity_eq
  covers := h.covers
  covers_box box hbox hle := by
    rcases hdrains.boxes box hbox with ⟨old, hold, hdrain⟩ | hadds
    · rw [hdrain.ticket_eq] at hle ⊢
      exact (h.covers_box old hold hle).mono hdrain.items
    · -- Nothing waits in a new queue, and of its ticket the book tells nothing wrong yet.
      rw [hadds.items_eq]
      exact h.covers hle

/-- What happens in the manager alone. -/
theorem Anew.stay (h : o.Anew lead bound) (hdrains : o.manager.Drains m') :
    Anew { o with manager := m' } lead bound :=
  h.drain hdrains fun _ _ => h.claims

/-- An event that is sent at once. -/
theorem Anew.call (h : o.Anew lead bound) (other : String) (agent : Nat) (call : Call) :
    Anew { o with book := o.book ++ [.sent other agent call] } lead bound where
  owns := h.owns
  claims := h.claims
  handed hmem := by
    rcases List.mem_append.mp hmem with hmem | hmem
    · exact h.handed hmem
    · cases List.mem_singleton.mp hmem
  ticket_lt := h.ticket_lt
  capacity_eq := h.capacity_eq
  covers hle := (h.covers hle).of_none rfl rfl
  covers_box box hbox hle := (h.covers_box box hbox hle).of_none rfl rfl

/-- An event that is offered to a queue. -/
theorem Anew.offer {box : Mailbox} (h : o.Anew lead bound) (hbox : box ∈ o.manager.boxes)
    (other event : String) :
    Anew ⟨o.manager.putMailbox ⟨box.ticket, (box.queue.enqueue event).state⟩, o.stations,
      o.book ++ [.offered other box.ticket event
        (EventQueue.letIn (box.queue.enqueue event).result)]⟩ lead bound where
  owns howns := h.owns (Manager.owns_of_putMailbox howns)
  claims := h.claims
  handed hmem := by
    rcases List.mem_append.mp hmem with hmem | hmem
    · exact h.handed hmem
    · cases List.mem_singleton.mp hmem
  ticket_lt found hfound := by
    rcases Manager.mem_boxes_putMailbox hfound with rfl | ⟨hmem, -⟩
    · exact h.ticket_lt box hbox
    · exact h.ticket_lt found hmem
  capacity_eq found hfound hle := by
    rcases Manager.mem_boxes_putMailbox hfound with rfl | ⟨hmem, -⟩
    · have hcapacity := h.capacity_eq box hbox hle
      obtain ⟨line, dropped, hframe⟩ := (EventQueue.answers_enqueue hcapacity event).frame
      exact (congrArg EventQueue.capacity hframe).trans hcapacity
    · exact h.capacity_eq found hmem hle
  covers {ticket} hle := by
    by_cases hticket : box.ticket = ticket
    · subst hticket
      exact (h.covers hle).offered.mono (List.nil_sublist _)
    · exact (h.covers hle).of_none (if_neg hticket) rfl
  covers_box found hfound hle := by
    rcases Manager.mem_boxes_putMailbox hfound with rfl | ⟨hmem, hne⟩
    · have hanswer := EventQueue.answers_enqueue (h.capacity_eq box hbox hle) event
      exact (h.covers_box box hbox hle).offered.mono hanswer.items_sublist
    · exact (h.covers_box found hmem hle).of_none (if_neg (Ne.symm hne)) rfl

/-- A worker sends on what it has taken from a queue. -/
theorem Anew.hand {ticket agent : Nat} {other event : String} {rest : List String}
    {now : Json} {box : Mailbox} (h : o.Anew lead bound) (hdrains : o.manager.Drains m')
    (hclaims : ∀ worker ticket, .working worker ∈ stations →
      worker.claim = some (lead, ticket) → bound ≤ ticket)
    (hlead : other = lead → bound ≤ ticket) (hbox : box ∈ o.manager.boxes)
    (hticket : box.ticket = ticket) (hitems : box.queue.items = event :: rest)
    (hrest : ∀ box' ∈ m'.boxes, box'.ticket = ticket → box'.queue.items.Sublist rest) :
    Anew ⟨m', stations, o.book ++ [.handed other ticket agent ⟨now, event⟩]⟩ lead bound := by
  have hdrained := h.drain hdrains hclaims
  have hcovers : bound ≤ ticket →
      Covers (o.book ++ [.handed other ticket agent ⟨now, event⟩]) ticket rest := by
    subst hticket
    intro hle
    have hbefore := h.covers_box box hbox hle
    rw [hitems] at hbefore
    exact Covers.handed hbefore
  exact
    { owns := hdrained.owns
      claims := hdrained.claims
      handed := fun hmem => by
        rcases List.mem_append.mp hmem with hmem | hmem
        · exact h.handed hmem
        · cases List.mem_singleton.mp hmem
          exact hlead rfl
      ticket_lt := hdrained.ticket_lt
      capacity_eq := hdrained.capacity_eq
      covers := fun {number} hle => by
        by_cases heq : ticket = number
        · subst heq
          exact (hcovers hle).mono (List.nil_sublist _)
        · exact (h.covers hle).of_none rfl (if_neg heq)
      covers_box := fun found hfound hle => by
        by_cases heq : ticket = found.ticket
        · rw [← heq] at hle ⊢
          exact (hcovers hle).mono (hrest found hfound heq.symm)
        · exact (hdrained.covers_box found hfound hle).of_none rfl (if_neg heq) }

/-- All claims are new enough if that of the worker that goes on is. -/
theorem Anew.claims_set (h : o.Anew lead bound) {i : Nat} {after : Station}
    (hafter : ∀ worker ticket, after = .working worker →
      worker.claim = some (lead, ticket) → bound ≤ ticket) (worker : Worker) (ticket : Nat)
    (hmem : .working worker ∈ o.stations.set i after)
    (hclaim : worker.claim = some (lead, ticket)) : bound ≤ ticket :=
  (List.mem_or_eq_of_mem_set hmem).elim (fun hmem => h.claims hmem hclaim) fun heq =>
    hafter worker ticket heq.symm hclaim

/-- A turn leaves the office as good as new. -/
theorem Anew.turn (h : o.Anew lead bound) (i : Nat) : (o.turn i).Anew lead bound := by
  unfold Office.turn
  split
  · rename_i w hw
    have hpasses := Worker.passes_advance o.manager w
    generalize Worker.advance o.manager w = result at hpasses
    cases hpasses with
    | @yielded m' after other ticket hclaim howned hhands =>
      have hlead : other = lead → bound ≤ ticket := by
        rintro rfl
        exact howned.elim (h.claims (List.mem_of_getElem? hw)) h.owns
      have hafter : ∀ worker number, Station.working after = .working worker →
          worker.claim = some (lead, number) → bound ≤ number := fun worker number heq hnumber => by
        cases heq
        cases hclaim.symm.trans hnumber
        exact hlead rfl
      have hstations := h.claims_set hafter (i := i)
      obtain ⟨box, event, rest, hbox, hitems, hrest⟩ := hhands.taken
      dsimp only
      rw [handing_eq_map hclaim hbox (by rw [hitems]; rfl)]
      rcases o.manager.agent? other with _ | agent
      · rw [Option.map_none, Option.toList_none, List.append_nil]
        exact h.drain hhands.toDrains hstations
      · exact h.hand hhands.toDrains hstations hlead (Manager.mem_boxes_of_mailboxOf? hbox)
          (Manager.ticket_of_mailboxOf? hbox) hitems hrest
    | finished hdrains => exact h.drain hdrains (h.claims_set nofun)
    | failed hdrains => exact h.drain hdrains (h.claims_set nofun)
  · exact h

/-- A move leaves the office as good as new. -/
theorem Anew.act (h : o.Anew lead bound) (move : Move) : (o.act move).Anew lead bound := by
  cases move with
  | clock now => exact h.stay (Manager.drains_of_eq rfl rfl (Nat.le_refl _))
  | create other => exact h.stay (Manager.drains_getOrCreate o.manager other)
  | remove other => exact h.stay (Manager.drains_remove o.manager other)
  | send other event =>
    have hsent := h.stay (Manager.drains_send o.manager other event)
    rw [Office.act, sending]
    rcases (o.manager.getOrCreate other).2.toOption with _ | agent
    · simpa using hsent
    · exact hsent.call other agent.ticket _
  | enqueue other event =>
    have hcreated := h.stay (Manager.drains_getOrCreate o.manager other)
    rw [Office.act, Manager.enqueue, offering]
    generalize o.manager.getOrCreate other = created at hcreated
    obtain ⟨m', fault | agent⟩ := created
    · simpa using hcreated
    · rcases hbox : m'.mailbox? other with _ | box
      · simpa [hbox] using hcreated
      · have hoffered := hcreated.offer (Manager.mem_boxes_of_mailbox? hbox) other event
        have hreported := hoffered.stay
          (Manager.alike_report _ (box.queue.enqueue event).signals).drains
        simpa [hbox] using hreported
  | hire target =>
    refine h.drain (.refl _) fun worker ticket hmem hclaim => ?_
    rcases List.mem_append.mp hmem with hmem | hmem
    · exact h.claims hmem hclaim
    · cases List.mem_singleton.mp hmem
      cases hclaim
  | turn i => exact h.turn i

theorem Anew.run (h : o.Anew lead bound) (moves : List Move) : (o.run moves).Anew lead bound := by
  induction moves generalizing o with
  | nil => exact h
  | cons move rest ih => exact ih (h.act move)

/-- Of a new office nothing is old. -/
theorem anew_opened (chart : Chart) (policy : Policy) (telemetry : Telemetry)
    (onChange : Option (String → Snapshot → List ChangeCommand))
    (onIgnored : Option (IgnoredEvent → Option Fault)) (lead : String) :
    (opened chart policy telemetry onChange onIgnored).Anew lead 0 :=
  ⟨fun _ => Nat.zero_le _, nofun, nofun, nofun, nofun, fun _ => List.nil_sublist _, nofun⟩

/-- A lead that is removed while no worker has claimed its queue. -/
theorem Anew.removed (h : o.Anew lead bound) (hfree : o.inside lead = 0) :
    Anew ⟨o.manager.remove lead, o.stations, []⟩ lead o.manager.nextTicket := by
  have hdrains := Manager.drains_remove o.manager lead
  have hold : ∀ box ∈ (o.manager.remove lead).boxes, box.ticket < o.manager.nextTicket := by
    intro box hbox
    rcases hdrains.boxes box hbox with ⟨old, hmem, hdrain⟩ | hadds
    · rw [hdrain.ticket_eq]
      exact h.ticket_lt old hmem
    · have hnext := (Manager.remove_eq o.manager lead).2.2
      exact absurd hadds.lt_next (Nat.not_lt.mpr (hnext ▸ hadds.next_le))
  refine ⟨Manager.next_le_of_owns_remove, fun {worker ticket} hmem hclaim => ?_, nofun,
    fun box hbox => Nat.lt_of_lt_of_le (hold box hbox) hdrains.next_le,
    fun box hbox hle => absurd hle (Nat.not_le.mpr (hold box hbox)),
    fun _ => List.nil_sublist _,
    fun box hbox hle => absurd hle (Nat.not_le.mpr (hold box hbox))⟩
  have hinside : (Station.working worker).isInside lead = true := by
    simp [Station.isInside, hclaim]
  exact absurd hinside (List.countP_eq_zero.mp hfree _ hmem)

/-- **Leads that are removed while nobody is busy with them.** Whatever moves are made in an office,
of whatever chart and with whatever callbacks: if no worker has claimed the queue of a lead when the
lead is removed, then all that workers send to the lead afterwards comes from queues that it was
given afterwards, and was let in there afterwards, in this order. -/
theorem run_removed (chart : Chart) (policy : Policy) (telemetry : Telemetry)
    (onChange : Option (String → Snapshot → List ChangeCommand))
    (onIgnored : Option (IgnoredEvent → Option Fault)) (before after : List Move) (lead : String)
    (hfree : inside (run (opened chart policy telemetry onChange onIgnored) before) lead = 0) :
    let o := run (opened chart policy telemetry onChange onIgnored) before
    ∃ later, ((o.act (.remove lead)).run after).book = o.book ++ later ∧
      ∀ mailbox agent call, .handed lead mailbox agent call ∈ later →
        o.manager.nextTicket ≤ mailbox ∧ Covers later mailbox [] := by
  intro o
  have hanew := ((anew_opened chart policy telemetry onChange onIgnored lead).run before).removed
    hfree
  have hlater := hanew.run after
  refine ⟨_, congrArg book (run_eq (o.manager.remove lead) o.stations o.book after), ?_⟩
  intro mailbox agent call hmem
  have hle := hlater.handed hmem
  exact ⟨hle, hlater.covers hle⟩

set_option maxRecDepth 10000 in
/-- Two events wait when a lead is removed, and one that comes later is sent on. -/
theorem run_removed_waiting :
    ∃ before after : List Move,
      let o := run (opened Lead.chart .reset (.fresh true false) none none) before
      o.inside "ada" = 0 ∧
        (∃ later, ((o.act (.remove "ada")).run after).book = o.book ++ later ∧
          ∀ mailbox agent call, .handed "ada" mailbox agent call ∈ later →
            o.manager.nextTicket ≤ mailbox ∧ Covers later mailbox []) ∧
        ((o.act (.remove "ada")).run after).handed "ada" = ["meeting.booked"] := by
  let before : List Move :=
    [.enqueue "ada" "meeting.booked", .enqueue "ada" "conversation.paused", .hire none]
  let after : List Move := [.enqueue "ada" "meeting.booked", .turn 0, .turn 0]
  have hfree : inside (run (opened Lead.chart .reset (.fresh true false) none none) before)
      "ada" = 0 := by decide +kernel
  refine ⟨before, after, hfree, ?_, by decide +kernel⟩
  exact run_removed Lead.chart .reset (.fresh true false) none none before after "ada" hfree

set_option maxRecDepth 10000 in
/-- **A removed lead's events return.** An event that waits when its lead is removed can be sent to
the interpreter that the lead is given afterwards, by a worker that has claimed the queue. -/
theorem removed_returns :
    ¬ ∀ (before after : List Move) (lead : String),
      let o := run (opened Lead.chart .reset (.fresh true false) none none) before
      ∀ later, ((o.act (.remove lead)).run after).book = o.book ++ later →
        ∀ mailbox agent call, .handed lead mailbox agent call ∈ later →
          o.manager.nextTicket ≤ agent → o.manager.nextTicket ≤ mailbox := by
  intro hnone
  let before : List Move :=
    [.enqueue "ada" "meeting.booked", .enqueue "ada" "conversation.paused", .hire (some "ada"),
      .turn 0]
  let after : List Move := [.create "ada", .turn 0]
  let o := run (opened Lead.chart .reset (.fresh true false) none none) before
  let later := (run ⟨o.manager.remove "ada", o.stations, []⟩ after).book
  have hbook : ((o.act (.remove "ada")).run after).book = o.book ++ later :=
    congrArg book (run_eq (o.manager.remove "ada") o.stations o.book after)
  have hnext : o.manager.nextTicket = 2 := by decide +kernel
  have hlater : later.any (fun
      | .handed lead mailbox agent _ => lead == "ada" && mailbox == 1 && agent == 2
      | _ => false) = true := by decide +kernel
  obtain ⟨deed, hdeed, htickets⟩ := List.any_eq_true.mp hlater
  cases deed with
  | offered | sent => cases htickets
  | handed lead mailbox agent call =>
    obtain ⟨⟨rfl, rfl⟩, rfl⟩ : (lead = "ada" ∧ mailbox = 1) ∧ agent = 2 := by simpa using htickets
    have hle := hnone before after "ada" later hbook 1 2 call hdeed (Nat.le_of_eq hnext)
    exact absurd (Nat.le_trans (Nat.le_of_eq hnext.symm) hle) (by decide)

end Office

end Lifecycle
