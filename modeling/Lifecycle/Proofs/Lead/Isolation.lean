import Lifecycle.Proofs.Lead.Touching

/-!
# Leads that are left alone

A worker touches the leads that it looks through and no other (`Worker.touches_advance`), which for
a worker that was hired for a lead is this lead (`Office.Assigned`). So all that is done for one
lead leaves the others alone, whatever was done before (`Office.isolated`), but for one name: a
worker for the empty name goes through all leads, as if it had been hired for none in particular.
-/

namespace Lifecycle

/-! ## Workers -/

namespace Worker

open Manager

variable {leads reach : Set String} {m m' : Manager} {w : Worker} {lead : String} {ticket : Nat}

/-- The queue that a worker has claimed is none of a lead but some. -/
def Holds (leads : Set String) (m : Manager) (w : Worker) : Prop :=
  ∀ lead ticket, w.claim = some (lead, ticket) → lead ∈ leads ∧ m.Spares leads ticket

/-- A worker goes about some leads only. -/
structure Within (leads : Set String) (m : Manager) (w : Worker) : Prop where
  agenda (m' : Manager) : ∀ lead ∈ w.agenda m', lead ∈ leads
  holds : w.Holds leads m

theorem within_univ (m : Manager) (w : Worker) : w.Within Set.univ m :=
  ⟨fun _ _ _ => trivial, fun _ _ _ => ⟨trivial, fun _ hother => absurd trivial hother⟩⟩

/-- A worker that is hired for a lead with a name goes about this lead. -/
theorem within_fresh (m : Manager) (hlead : lead ≠ "") :
    (fresh (some lead)).Within {lead} m := by
  have htarget : (fresh (some lead)).target = some lead := by simp [fresh, hlead]
  refine ⟨fun m' other hother => ?_, nofun⟩
  rw [agenda, htarget] at hother
  exact List.mem_singleton.mp hother

theorem touches_mark (h : m.Distinct) (hticket : m.Spares leads ticket) (processing : Bool) :
    m.Touches leads (mark m ticket processing) := by
  unfold mark
  split
  · exact h.refl
  · exact h.touches_putMailbox hticket _

/-- A worker touches the lead whose queue it has claimed. -/
theorem touches_takeEvent (h : m.Distinct) (hcalls : m.Confines leads) (hlead : lead ∈ leads)
    (hticket : m.Spares leads ticket) (w : Worker) :
    m.Touches leads (takeEvent m w lead ticket).1 := by
  unfold takeEvent release
  split
  · exact touches_mark h hticket false
  · rename_i response _
    have hplaced := h.touches_putMailbox hticket response.state
    have hput := hplaced.report response.signals
    dsimp only
    split
    · rename_i event agent _ hagent
      have hdelivered := hput.trans
        (hput.distinct.touches_deliver (hput.confines hcalls) hlead hagent event)
      generalize deliver _ agent event = delivered at hdelivered
      obtain ⟨m', fault | snapshot⟩ := delivered
      · exact hdelivered.trans
          (touches_mark hdelivered.distinct (hticket.mono hdelivered.owns) false)
      · exact hdelivered
    · exact hput.trans (touches_mark hput.distinct (hticket.mono hput.owns) false)

/-- A worker has the same leads to come as another one, and the same claim or none. -/
structure Stays (w w' : Worker) : Prop where
  target_eq : w'.target = w.target
  remaining_eq : w'.remaining = w.remaining
  claim_cases : w'.claim = none ∨ w'.claim = w.claim

theorem stays_takeEvent (m : Manager) (w : Worker) (lead : String) (ticket : Nat) :
    w.Stays (takeEvent m w lead ticket).2.1 := by
  unfold takeEvent release
  split
  · exact ⟨rfl, rfl, .inl rfl⟩
  · dsimp only
    split
    · generalize deliver _ _ _ = delivered
      obtain ⟨m', fault | snapshot⟩ := delivered
      · exact ⟨rfl, rfl, .inl rfl⟩
      · exact ⟨rfl, rfl, .inr rfl⟩
    · exact ⟨rfl, rfl, .inl rfl⟩

theorem Stays.agenda_eq {w' : Worker} (h : w.Stays w') (m : Manager) :
    w'.agenda m = w.agenda m := by
  rw [agenda, agenda, h.target_eq, h.remaining_eq]

theorem Stays.holds {w' : Worker} (h : w.Stays w') (hholds : w.Holds leads m) :
    w'.Holds leads m := by
  intro lead ticket heq
  rcases h.claim_cases with hnone | hsame
  · rw [hnone] at heq
    cases heq
  · exact hholds lead ticket (hsame ▸ heq)

theorem target_seek (list : List String) (m : Manager) (w : Worker) :
    (seek list m w).2.1.target = w.target := by
  induction list generalizing m w with
  | nil => rfl
  | cons lead rest ih =>
    unfold seek
    split
    · exact ih m w
    · rename_i box _
      split
      · exact ih m w
      · have hstays := stays_takeEvent (mark m box.ticket true)
          { w with claim := some (lead, box.ticket), remaining := some rest } lead box.ticket
        dsimp only
        generalize takeEvent _ _ lead box.ticket = taken at hstays
        obtain ⟨m', after, _ | turn⟩ := taken
        · exact (ih m' after).trans hstays.target_eq
        · exact hstays.target_eq

/-- A worker keeps the lead that it was hired for. -/
theorem target_advance (m : Manager) (w : Worker) : (advance m w).2.1.target = w.target := by
  unfold advance
  split
  · exact target_seek _ m w
  · rename_i lead ticket _
    have hstays := stays_takeEvent m w lead ticket
    generalize takeEvent m w lead ticket = taken at hstays
    obtain ⟨m', after, _ | turn⟩ := taken
    · exact (target_seek _ m' after).trans hstays.target_eq
    · exact hstays.target_eq

theorem Holds.mono (h : w.Holds leads m)
    (howns : ∀ {lead ticket}, m'.Owns lead ticket → m.Owns lead ticket) : w.Holds leads m' :=
  fun lead ticket hclaim => (h lead ticket hclaim).imp_right fun hticket => hticket.mono howns

section Turns

/-! What callbacks remove may reach further than what the worker goes about. -/

variable (hsub : leads ⊆ reach)

include hsub

/-- A worker touches the leads that it looks through. -/
theorem touches_seek {list : List String} (hleads : ∀ lead ∈ list, lead ∈ leads) (h : m.Distinct)
    (hcalls : m.Confines reach) (hholds : w.Holds leads m) :
    m.Touches reach (seek list m w).1 ∧
      (seek list m w).2.1.Within leads (seek list m w).1 := by
  induction list generalizing m w with
  | nil => exact ⟨h.refl, nofun, hholds⟩
  | cons lead rest ih =>
    obtain ⟨hlead, hrest⟩ := List.forall_mem_cons.mp hleads
    unfold seek
    split
    · exact ih hrest h hcalls hholds
    · rename_i box hbox
      split
      · exact ih hrest h hcalls hholds
      · have hticket := h.spares hlead hbox
        have hmarked := touches_mark h (hticket.subset hsub) true
        have hclaimed : Holds leads m
            { w with claim := some (lead, box.ticket), remaining := some rest } := by
          rintro _ _ ⟨⟩
          exact ⟨hlead, hticket⟩
        have htouches := hmarked.trans (touches_takeEvent hmarked.distinct
          (hmarked.confines hcalls) (hsub hlead) ((hticket.subset hsub).mono hmarked.owns)
          { w with claim := some (lead, box.ticket), remaining := some rest })
        have hstays := stays_takeEvent (mark m box.ticket true)
          { w with claim := some (lead, box.ticket), remaining := some rest } lead box.ticket
        dsimp only
        generalize takeEvent _ _ lead box.ticket = taken at htouches hstays
        obtain ⟨m', after, turn⟩ := taken
        have hafter := (hstays.holds hclaimed).mono htouches.owns
        cases turn with
        | none =>
          obtain ⟨hlater, hwithin⟩ :=
            ih hrest htouches.distinct (htouches.confines hcalls) hafter
          exact ⟨htouches.trans hlater, hwithin⟩
        | some turn =>
          exact ⟨htouches, fun m'' => (hstays.agenda_eq m'').symm ▸ hrest, hafter⟩

/-- A turn of a worker touches the leads that the worker goes about. -/
theorem touches_advance (h : m.Distinct) (hcalls : m.Confines reach) (hw : w.Within leads m) :
    m.Touches reach (advance m w).1 ∧ (advance m w).2.1.Within leads (advance m w).1 := by
  unfold advance
  split
  · exact touches_seek hsub (hw.agenda m) h hcalls hw.holds
  · rename_i lead ticket hclaim
    obtain ⟨hlead, hticket⟩ := hw.holds lead ticket hclaim
    have htouches := touches_takeEvent h hcalls (hsub hlead) (hticket.subset hsub) w
    have hstays := stays_takeEvent m w lead ticket
    generalize takeEvent m w lead ticket = taken at htouches hstays
    obtain ⟨m', after, turn⟩ := taken
    have hafter := (hstays.holds hw.holds).mono htouches.owns
    have hagenda (m'' : Manager) : ∀ lead ∈ after.agenda m'', lead ∈ leads :=
      hstays.agenda_eq m'' ▸ hw.agenda m''
    cases turn with
    | none =>
      obtain ⟨hlater, hwithin⟩ :=
        touches_seek hsub (hagenda m') htouches.distinct (htouches.confines hcalls) hafter
      exact ⟨htouches.trans hlater, hwithin⟩
    | some turn => exact ⟨htouches, hagenda, hafter⟩

/-- However many turns a worker takes, it touches the leads that it goes about. -/
theorem touches_runFor (turns : Nat) (h : m.Distinct) (hcalls : m.Confines reach)
    (hw : w.Within leads m) : m.Touches reach (runFor turns m w).1 := by
  induction turns generalizing m w with
  | zero => exact h.refl
  | succ turns ih =>
    have hadvanced := touches_advance hsub h hcalls hw
    unfold runFor
    generalize advance m w = advanced at hadvanced
    obtain ⟨m', after, turn⟩ := advanced
    obtain ⟨htouches, hwithin⟩ := hadvanced
    cases turn with
    | yielded => exact htouches.trans (ih htouches.distinct (htouches.confines hcalls) hwithin)
    | finished => exact htouches
    | failed fault => exact htouches

end Turns

end Worker

/-! ## What is asked for one lead -/

namespace Manager

/-- What a manager is asked to do for a lead. -/
inductive Service where
  | create
  | send (event : String)
  | enqueue (event : String)
  | process
  | remove

/-- Does something for a lead. -/
def serve (m : Manager) (lead : String) : Service → Manager
  | .create => (m.getOrCreate lead).1
  | .send event => (m.send lead event).1
  | .enqueue event => (m.enqueue lead event).1
  | .process => (m.process (some lead)).1
  | .remove => m.remove lead

/-- A lead has the same interpreter and the same queue in two managers, so that they show the same
of it. -/
structure Keeps (m m' : Manager) (lead : String) : Prop where
  agent? : m'.agent? lead = m.agent? lead
  mailbox? : m'.mailbox? lead = m.mailbox? lead
  snapshot : m'.snapshot lead = m.snapshot lead
  inspect (records : Option Int) : m'.inspect lead records = m.inspect lead records

variable {leads : Set String} {m m' : Manager} {lead other : String}

theorem Touches.keeps (h : m.Touches leads m') (hother : other ∉ leads) : m.Keeps m' other where
  agent? := h.agent?_eq hother
  mailbox? := h.mailbox?_eq hother
  snapshot := by rw [Manager.snapshot, h.agent?_eq hother, Manager.snapshot]
  inspect records := by
    rw [Manager.inspect, h.agent?_eq hother, h.mailbox?_eq hother, Manager.inspect]

/-- What is done for a lead touches this lead, and those that callbacks remove. -/
theorem Distinct.touches_serve (h : m.Distinct) (hcalls : m.Confines leads) (hlead : lead ∈ leads)
    (service : Service) (hname : service = .process → lead ≠ "") :
    m.Touches leads (m.serve lead service) := by
  cases service with
  | create => exact h.touches_getOrCreate hlead
  | send event => exact h.touches_send hcalls hlead event
  | enqueue event => exact h.touches_enqueue hlead event
  | process =>
    exact Worker.touches_runFor (Set.singleton_subset_iff.mpr hlead) _ h hcalls
      (Worker.within_fresh m (hname rfl))
  | remove => exact h.touches_remove hlead

end Manager

/-! ## Offices -/

namespace Office

open Manager

variable {o : Office}

/-- Tickets tell interpreters and queues apart, and a worker that was hired for a lead goes about
this lead. -/
structure Assigned (o : Office) : Prop where
  distinct : o.manager.Distinct
  within {w : Worker} {lead : String} : .working w ∈ o.stations → w.target = some lead →
    w.Within {lead} o.manager

namespace Assigned

/-- What happens in the manager alone. -/
theorem stay (h : o.Assigned) {leads : Set String} {m' : Manager} (book : List Deed)
    (htouches : o.manager.Touches leads m') : Assigned ⟨m', o.stations, book⟩ where
  distinct := htouches.distinct
  within hw htarget :=
    ⟨(h.within hw htarget).agenda, (h.within hw htarget).holds.mono htouches.owns⟩

/-- A turn of a worker touches the lead that the worker was hired for. -/
theorem touches_turn (h : o.Assigned) {lead : String} (hcalls : o.manager.Confines {lead}) {i : Nat}
    {w : Worker} (hw : o.stations[i]? = some (.working w)) (htarget : w.target = some lead) :
    o.manager.Touches {lead} (o.turn i).manager := by
  have hadvanced := (Worker.touches_advance subset_rfl h.distinct hcalls
    (h.within (List.mem_of_getElem? hw) htarget)).1
  unfold Office.turn
  simp only [hw]
  generalize Worker.advance o.manager w = result at hadvanced
  obtain ⟨m', after, _ | _ | fault⟩ := result <;> exact hadvanced

theorem turn (h : o.Assigned) (i : Nat) : (o.turn i).Assigned := by
  unfold Office.turn
  split
  · rename_i w hw
    have hmem := List.mem_of_getElem? hw
    have hadvanced := (Worker.touches_advance subset_rfl h.distinct (confines_univ _)
      (Worker.within_univ _ w)).1
    have hafter : ∀ lead, (Worker.advance o.manager w).2.1.target = some lead →
        (Worker.advance o.manager w).2.1.Within {lead} (Worker.advance o.manager w).1 := by
      intro lead htarget
      rw [Worker.target_advance] at htarget
      exact (Worker.touches_advance (Set.subset_univ _) h.distinct (confines_univ _)
        (h.within hmem htarget)).2
    have hstations (station : Station) (book : List Deed)
        (hstation : ∀ after, station = .working after →
          after = (Worker.advance o.manager w).2.1) :
        Assigned ⟨(Worker.advance o.manager w).1, o.stations.set i station, book⟩ := by
      refine ⟨hadvanced.distinct, fun {after lead} hafter' htarget => ?_⟩
      rcases List.mem_or_eq_of_mem_set hafter' with hold | hnew
      · exact (h.stay book hadvanced).within hold htarget
      · obtain rfl := hstation after hnew.symm
        exact hafter lead htarget
    generalize Worker.advance o.manager w = result at hstations
    obtain ⟨m', after, _ | _ | fault⟩ := result
    · exact hstations _ _ fun _ heq => (Station.working.inj heq).symm
    · exact hstations _ _ nofun
    · exact hstations _ _ nofun
  · exact h

theorem act (h : o.Assigned) (move : Move) : (o.act move).Assigned := by
  have hcalls := confines_univ o.manager
  cases move with
  | clock now =>
    have htouches : o.manager.Touches ∅ { o.manager with now := now } :=
      h.distinct.touches_of_eq rfl rfl rfl rfl
    exact h.stay o.book htouches
  | create lead => exact h.stay o.book (h.distinct.touches_getOrCreate (Set.mem_univ lead))
  | send lead event => exact h.stay _ (h.distinct.touches_send hcalls (Set.mem_univ lead) event)
  | enqueue lead event => exact h.stay _ (h.distinct.touches_enqueue (Set.mem_univ lead) event)
  | remove lead => exact h.stay o.book (h.distinct.touches_remove (Set.mem_univ lead))
  | hire target =>
    refine ⟨h.distinct, fun {w lead} hw htarget => ?_⟩
    rcases List.mem_append.mp hw with hold | hnew
    · exact h.within hold htarget
    · cases List.mem_singleton.mp hnew
      obtain ⟨rfl, hname⟩ := Option.filter_eq_some_iff.mp htarget
      exact Worker.within_fresh _ (by simpa using hname)
  | turn i => exact h.turn i

theorem carryOut (h : o.Assigned) (errand : Errand) : (o.carryOut errand).Assigned := by
  cases errand with
  | move move => exact h.act move
  | listen onChange onIgnored => exact ⟨⟨h.distinct.agents, h.distinct.mailboxes⟩,
      fun hw htarget => ⟨(h.within hw htarget).agenda, (h.within hw htarget).holds⟩⟩
  | save disk route => exact h.stay o.book (h.distinct.touches_save disk route)
  | load disk route => exact h.stay o.book (h.distinct.touches_load disk route)

theorem carryOutAll (h : o.Assigned) (errands : List Errand) :
    (o.carryOutAll errands).Assigned := by
  induction errands generalizing o with
  | nil => exact h
  | cons errand rest ih => exact ih (h.carryOut errand)

end Assigned

/-- In a new office there is nothing to tell apart. -/
theorem assigned_opened (chart : Chart) (policy : Policy) (telemetry : Telemetry)
    (onChange : Option (String → Snapshot → List ChangeCommand))
    (onIgnored : Option (IgnoredEvent → Option Fault)) :
    (opened chart policy telemetry onChange onIgnored).Assigned :=
  ⟨⟨⟨.nil, .nil, nofun⟩, ⟨.nil, .nil, nofun⟩⟩, nofun⟩

/-- **Leads are independent.** Whatever was done in an office before, what a manager is asked to do
for one lead leaves every other lead as it is, and so does each turn of a worker that was hired for
this lead, whoever takes turns meanwhile. The callback for changes must not remove another lead, and
the lead whose queue is to be processed must have a name. -/
theorem isolated (chart : Chart) (policy : Policy) (telemetry : Telemetry)
    (onChange : Option (String → Snapshot → List ChangeCommand))
    (onIgnored : Option (IgnoredEvent → Option Fault)) (errands : List Errand)
    (ho : (opened chart policy telemetry onChange onIgnored).carryOutAll errands = o)
    {lead other : String} (hcalls : o.manager.Confines {lead}) (hother : other ≠ lead) :
    (∀ service, (service = .process → lead ≠ "") →
      o.manager.Keeps (o.manager.serve lead service) other) ∧
    ∀ i w, o.stations[i]? = some (.working w) → w.target = some lead →
      o.manager.Keeps (o.turn i).manager other := by
  have h : o.Assigned :=
    ho ▸ (assigned_opened chart policy telemetry onChange onIgnored).carryOutAll errands
  have hother' : other ∉ ({lead} : Set String) := hother
  refine ⟨fun service hname => ?_, fun i w hw htarget => ?_⟩
  · exact (h.distinct.touches_serve hcalls rfl service hname).keeps hother'
  · exact (h.touches_turn hcalls hw htarget).keeps hother'

/-- Two leads with an event each, and a worker that was hired for one of them. -/
def waitingForTwo : List Errand :=
  [.move (.enqueue "ada" "meeting.booked"), .move (.enqueue "bob" "meeting.booked"),
    .move (.hire (some "ada")), .listen (some fun _ _ => [.fail "busy"]) none]

set_option maxRecDepth 10000 in
/-- The queue of one lead is emptied, at once or by a worker, while the callback for changes fails;
the event of the other one goes on waiting. -/
theorem isolated_waiting :
    let o := (opened Lead.chart .reset (.fresh true false) none none).carryOutAll waitingForTwo
    o.manager.Keeps (o.manager.serve "ada" .process) "bob" ∧
      o.manager.Keeps (o.turn 0).manager "bob" ∧
      ((o.manager.serve "ada" .process).mailbox? "ada").map (·.queue.depth) = some 0 ∧
      ((o.turn 0).manager.mailbox? "ada").map (·.queue.depth) = some 0 ∧
      (o.manager.mailbox? "bob").map (·.queue.depth) = some 1 := by
  intro o
  have hcalm : o.manager.Calm := by
    rintro callback ⟨⟩ lead snapshot command hcommand
    exact ⟨_, List.mem_singleton.mp hcommand⟩
  have hisolated := isolated Lead.chart .reset (.fresh true false) none none waitingForTwo
    (rfl : _ = o) (hcalm.confines {"ada"}) (by decide : "bob" ≠ "ada")
  refine ⟨hisolated.1 .process fun _ => by decide, ?_, by decide +kernel, by decide +kernel,
    by decide +kernel⟩
  exact hisolated.2 0 (Worker.fresh (some "ada")) rfl rfl

set_option maxRecDepth 10000 in
/-- **The empty name stands for all leads.** A manager that is asked to process the queue of the
empty name sends on what waits for other leads. -/
theorem process_nameless :
    ¬ ∀ (errands : List Errand) (lead other : String) (service : Service),
      let o := (opened Lead.chart .reset (.fresh true false) none none).carryOutAll errands
      o.manager.Calm → other ≠ lead → o.manager.Keeps (o.manager.serve lead service) other := by
  intro hall
  let o := (opened Lead.chart .reset (.fresh true false) none none).carryOutAll
    [.move (.enqueue "ada" "meeting.booked")]
  have hcalm : o.manager.Calm := by
    have hnone : o.manager.onChange = none := Option.isNone_iff_eq_none.mp (by decide +kernel)
    intro callback hcallback
    rw [hnone] at hcallback
    cases hcallback
  have hkeeps := hall _ "" "ada" .process hcalm (by decide)
  have hdepth := congrArg (Option.map fun box => box.queue.depth) hkeeps.mailbox?
  exact absurd hdepth (by decide +kernel)

end Office

end Lifecycle
