import Lifecycle.Proofs.Chart.Built
import Lifecycle.Proofs.Lead.Chart
import Lifecycle.Proofs.Lead.Office
import Lifecycle.Proofs.Lead.Worker

/-!
# Serial handling

As long as no lead is removed, the leads of an office are served one event at a time, and nothing is
lost on the way (`Office.Serial`), in whatever order the workers take their turns
(`Office.run_serial`). A turn is made of parts, each of which leaves the office sound: a worker
claims a queue or gives it back (`Sound.mark`), sends an event on (`Sound.hand`), or is done
(`Sound.retire`).
-/

namespace Lifecycle

/-- The last of some calls is made after the others. -/
theorem Interpreter.run_concat (m : Interpreter) (calls : List Call) (call : Call) :
    m.run (calls ++ [call]) = ((m.run calls).dispatch call.now call.event).state := by
  induction calls generalizing m with
  | nil => rfl
  | cons first rest ih => exact ih _

/-- A manager of a chart whose leads all stay, whose callbacks remove none, and whose clock can be
read. -/
structure Manager.Serves (m : Manager) (chart : Chart) : Prop where
  orderly : m.Orderly
  chart_eq : m.chart = chart
  calm : m.Calm
  readable : ∃ time, Record.stamp m.now = .ok time

theorem Manager.Serves.follows {m m' : Manager} {chart : Chart} (h : m.Serves chart)
    (hfollows : m.Follows m') : m'.Serves chart :=
  ⟨hfollows.orderly, hfollows.chart_eq.trans h.chart_eq, hfollows.calm h.calm,
    hfollows.now_eq ▸ h.readable⟩

namespace Office

/-- The events of each lead are handled one after the other, and none of them gets lost. -/
structure Serial (o : Office) (chart : Chart) : Prop where
  unbroken : ∀ fault, .broken fault ∉ o.stations
  /-- A claim is one on the queue that the lead has. -/
  claims {worker : Worker} {lead : String} {ticket : Nat} : .working worker ∈ o.stations →
    worker.claim = some (lead, ticket) →
      ∃ box, o.manager.mailbox? lead = some box ∧ box.ticket = ticket
  /-- At most one worker has claimed a queue, and the queue is marked as claimed exactly then. -/
  inside_eq (lead : String) : o.inside lead = (o.manager.queueOf lead).processing.toNat
  /-- The events that were let in are sent on in their order, wait, or were dropped. -/
  accounts (lead : String) : (o.manager.queueOf lead).Accounts Settings.queueCapacity
    (o.offers lead) (o.handed lead)
  /-- The interpreter of a lead has gone through just the calls in the book. -/
  interpreter_eq (lead : String) : o.manager.interpreterOf lead =
    (Interpreter.started chart chart.context (some lead)).run (o.calls lead)
  /-- The counts of the workers add up to the number of events that were sent on. -/
  total_eq : o.total = o.book.countP Deed.isHanded

/-- What holds after every move: the office is serial, and its manager goes on as it began. -/
structure Sound (o : Office) (chart : Chart) : Prop extends o.Serial chart where
  serves : o.manager.Serves chart
  capacity_eq (lead : String) : (o.manager.queueOf lead).capacity = .int Settings.queueCapacity

section Book

variable (o : Office) (m : Manager) (stations : List Station) (deed : Deed) (lead : String)

theorem offers_concat : offers ⟨m, stations, o.book ++ [deed]⟩ lead =
    o.offers lead ++ (deed.offer? lead).toList := filterMap_concat _ _ _

theorem handed_concat : handed ⟨m, stations, o.book ++ [deed]⟩ lead =
    o.handed lead ++ (deed.handed? lead).toList := filterMap_concat _ _ _

theorem calls_concat : calls ⟨m, stations, o.book ++ [deed]⟩ lead =
    o.calls lead ++ (deed.call? lead).toList := filterMap_concat _ _ _

end Book

variable {o : Office} {chart : Chart} {m' : Manager} {lead event : String} {w : Worker} {i : Nat}
  {box : Mailbox} {agent : Agent}

/-- A claim stays a claim on the queue that the lead has. -/
theorem Sound.claimed (h : o.Sound chart) (hfollows : o.manager.Follows m') {ticket : Nat}
    (hw : .working w ∈ o.stations) (hclaim : w.claim = some (lead, ticket)) :
    ∃ box, m'.mailbox? lead = some box ∧ box.ticket = ticket := by
  obtain ⟨box, hbox, rfl⟩ := h.claims hw hclaim
  exact hfollows.mailbox hbox

/-- Moves that leave all queues and interpreters as they are, and all workers at their places. -/
theorem Sound.frame (h : o.Sound chart) (hfollows : o.manager.Follows m')
    (hqueues : m'.queueOf = o.manager.queueOf)
    (hinterpreters : m'.interpreterOf = o.manager.interpreterOf) :
    Sound { o with manager := m' } chart where
  unbroken := h.unbroken
  claims := h.claimed hfollows
  inside_eq lead := by rw [hqueues]; exact h.inside_eq lead
  accounts lead := by rw [hqueues]; exact h.accounts lead
  interpreter_eq lead := by rw [hinterpreters]; exact h.interpreter_eq lead
  total_eq := h.total_eq
  serves := h.serves.follows hfollows
  capacity_eq lead := by rw [hqueues]; exact h.capacity_eq lead

/-- What a new queue of one lead shares with the old one is the same for all leads. -/
theorem apply_queueOf {α : Type} {m : Manager} {queue : EventQueue String}
    (hqueues : m'.queueOf = Function.update m.queueOf lead queue) (f : EventQueue String → α)
    (hf : f queue = f (m.queueOf lead)) (other : String) :
    f (m'.queueOf other) = f (m.queueOf other) := by
  rw [hqueues, Function.update_apply]
  split
  · rename_i heq
    rw [heq, hf]
  · rfl

/-- The interpreter of a lead has gone through one more call, which the book tells. -/
theorem Sound.interpreterOf_concat (h : o.Sound chart) {deed : Deed}
    (hinterpreters : m'.interpreterOf = Function.update o.manager.interpreterOf lead
      ((o.manager.interpreterOf lead).dispatch o.manager.now event).state)
    (hdeed : ∀ other, deed.call? other =
      if lead = other then some ⟨o.manager.now, event⟩ else none)
    (stations : List Station) (other : String) :
    m'.interpreterOf other = (Interpreter.started chart chart.context (some other)).run
      (calls ⟨m', stations, o.book ++ [deed]⟩ other) := by
  have hrun := h.interpreter_eq other
  rw [hinterpreters, calls_concat, hdeed]
  by_cases heq : lead = other
  · subst heq
    rw [Function.update_self, if_pos rfl, Option.toList_some, Interpreter.run_concat, ← hrun]
  · rw [Function.update_of_ne (Ne.symm heq), if_neg heq, Option.toList_none, List.append_nil, hrun]

/-- An event that is offered to a queue. -/
theorem Sound.offer (h : o.Sound chart) (hfollows : o.manager.Follows m')
    (hqueues : m'.queueOf =
      Function.update o.manager.queueOf lead ((o.manager.queueOf lead).enqueue event).state)
    (hinterpreters : m'.interpreterOf = o.manager.interpreterOf) (mailbox : Nat) :
    Sound ⟨m', o.stations, o.book ++ [.offered lead mailbox event
      (EventQueue.letIn ((o.manager.queueOf lead).enqueue event).result)]⟩ chart where
  unbroken := h.unbroken
  claims := h.claimed hfollows
  inside_eq other := by
    obtain ⟨line, dropped, hframe⟩ := (o.manager.queueOf lead).enqueue_frame event
    have hsame := apply_queueOf hqueues EventQueue.processing (by rw [hframe]) other
    exact (h.inside_eq other).trans (congrArg Bool.toNat hsame.symm)
  accounts other := by
    have hsame := h.accounts other
    rw [hqueues, offers_concat, handed_concat]
    by_cases heq : lead = other
    · subst heq
      rw [Function.update_self]
      simpa [Deed.offer?, Deed.handed?] using
        hsame.enqueue (EventQueue.answers_enqueue (h.capacity_eq lead) event)
    · rw [Function.update_of_ne (Ne.symm heq)]
      simpa [Deed.offer?, Deed.handed?, heq] using hsame
  interpreter_eq other := by
    rw [hinterpreters, h.interpreter_eq, calls_concat]
    simp [Deed.call?]
  total_eq := by
    rw [total, List.countP_append]
    exact h.total_eq
  serves := h.serves.follows hfollows
  capacity_eq other := by
    obtain ⟨line, dropped, hframe⟩ := (o.manager.queueOf lead).enqueue_frame event
    have hsame := apply_queueOf hqueues EventQueue.capacity (by rw [hframe]) other
    exact hsame.trans (h.capacity_eq other)

/-- An event that is sent at once. -/
theorem Sound.call (h : o.Sound chart) (hfollows : o.manager.Follows m')
    (hqueues : m'.queueOf = o.manager.queueOf)
    (hinterpreters : m'.interpreterOf = Function.update o.manager.interpreterOf lead
      ((o.manager.interpreterOf lead).dispatch o.manager.now event).state) (agent : Nat) :
    Sound ⟨m', o.stations, o.book ++ [.sent lead agent ⟨o.manager.now, event⟩]⟩ chart where
  unbroken := h.unbroken
  claims := h.claimed hfollows
  inside_eq lead := by rw [hqueues]; exact h.inside_eq lead
  accounts lead := by
    rw [hqueues, offers_concat, handed_concat]
    simpa [Deed.offer?, Deed.handed?] using h.accounts lead
  interpreter_eq := h.interpreterOf_concat hinterpreters (fun _ => rfl) o.stations
  total_eq := by
    rw [total, List.countP_append]
    exact h.total_eq
  serves := h.serves.follows hfollows
  capacity_eq lead := by rw [hqueues]; exact h.capacity_eq lead

/-! ## The parts of a turn -/

section Stations

variable {before : Station}

theorem countP_set_add {stations : List Station} (p : Station → Bool) (after : Station)
    (h : stations[i]? = some before) :
    (stations.set i after).countP p + (p before).toNat = stations.countP p + (p after).toNat := by
  induction stations generalizing i with
  | nil => cases h
  | cons station rest ih =>
    cases i with
    | zero =>
      obtain rfl := Option.some.inj h
      simp only [List.set_cons_zero, List.countP_cons]
      cases p station <;> cases p after <;> simp
    | succ i =>
      have := ih h
      simp only [List.set_cons_succ, List.countP_cons]
      omega

theorem sum_map_set_add {stations : List Station} (f : Station → Nat) (after : Station)
    (h : stations[i]? = some before) :
    ((stations.set i after).map f).sum + f before = (stations.map f).sum + f after := by
  induction stations generalizing i with
  | nil => cases h
  | cons station rest ih =>
    cases i with
    | zero =>
      obtain rfl := Option.some.inj h
      simp only [List.set_cons_zero, List.map_cons, List.sum_cons]
      omega
    | succ i =>
      have := ih h
      simp only [List.set_cons_succ, List.map_cons, List.sum_cons]
      omega

variable (m : Manager) (book : List Deed) (after : Station)

theorem inside_set (h : o.stations[i]? = some before) (lead : String) :
    inside ⟨m, o.stations.set i after, book⟩ lead + (before.isInside lead).toNat =
      o.inside lead + (after.isInside lead).toNat :=
  countP_set_add (Station.isInside lead) after h

theorem total_set (h : o.stations[i]? = some before) :
    total ⟨m, o.stations.set i after, book⟩ + before.count = o.total + after.count :=
  sum_map_set_add Station.count after h

theorem unbroken_set (h : ∀ fault, .broken fault ∉ o.stations)
    (hafter : ∀ fault, after ≠ .broken fault) (i : Nat) (fault : Fault) :
    .broken fault ∉ o.stations.set i after := fun hmem =>
  (List.mem_or_eq_of_mem_set hmem).elim (h fault) fun heq => hafter fault heq.symm

end Stations

theorem isInside_working (w : Worker) (lead : String) :
    (Station.working w).isInside lead = w.claim.any fun claim => claim.1 == lead := rfl

/-- A worker that has claimed a queue is the one that it is marked for. -/
theorem Sound.processing_of_claim (h : o.Sound chart) (hw : o.stations[i]? = some (.working w))
    {ticket : Nat} (hclaim : w.claim = some (lead, ticket)) :
    (o.manager.queueOf lead).processing = true := by
  have hinside : (Station.working w).isInside lead = true := by
    rw [isInside_working, hclaim]
    simp
  have hpos : 0 < o.inside lead :=
    List.countP_pos_iff.mpr ⟨_, List.mem_of_getElem? hw, hinside⟩
  rw [h.inside_eq] at hpos
  cases hprocessing : (o.manager.queueOf lead).processing with
  | true => rfl
  | false => rw [hprocessing] at hpos; cases hpos

/-- A worker of which the only claim may be that on the queue of one lead. -/
theorem Sound.claimed_set (h : o.Sound chart) (hfollows : o.manager.Follows m')
    (hbox : o.manager.mailbox? lead = some box) {after : Worker}
    (hafter : ∀ claim, after.claim = some claim → claim = (lead, box.ticket)) {worker : Worker}
    {other : String} {ticket : Nat} (hw : .working worker ∈ o.stations.set i (.working after))
    (hclaim : worker.claim = some (other, ticket)) :
    ∃ box, m'.mailbox? other = some box ∧ box.ticket = ticket := by
  rcases List.mem_or_eq_of_mem_set hw with hmem | heq
  · exact h.claimed hfollows hmem hclaim
  · cases heq
    cases hafter _ hclaim
    exact hfollows.mailbox hbox

/-- A worker of which the only claim may be on the queue of one lead is inside no other. -/
theorem isInside_eq_false {after : Worker} {ticket : Nat}
    (hafter : ∀ claim, after.claim = some claim → claim = (lead, ticket)) {other : String}
    (hne : lead ≠ other) : (Station.working after).isInside other = false := by
  rw [isInside_working]
  cases hclaim : after.claim with
  | none => rfl
  | some claim =>
    rw [hafter claim hclaim]
    simpa using hne

/-- A worker claims a queue or gives it back, and the queue is marked for it. -/
theorem Sound.mark (h : o.Sound chart) (hw : o.stations[i]? = some (.working w))
    (hbox : o.manager.mailbox? lead = some box) (after : Worker) (hcount : after.count = w.count)
    (hafter : ∀ claim, after.claim = some claim → claim = (lead, box.ticket))
    (hothers : ∀ other, lead ≠ other → (Station.working w).isInside other = false)
    (hbefore : (Station.working w).isInside lead = box.queue.processing) :
    Sound ⟨o.manager.setQueue lead box.ticket
        { box.queue with processing := (Station.working after).isInside lead },
      o.stations.set i (.working after), o.book⟩ chart := by
  generalize hmarked :
    { box.queue with processing := (Station.working after).isInside lead } = queue
  have hfollows := h.serves.orderly.follows_setQueue hbox queue
  have hqueues := Manager.queueOf_setQueue o.manager lead box.ticket queue
  have hqueue := Manager.queueOf_eq hbox
  exact {
    unbroken := unbroken_set _ h.unbroken (by simp) i
    claims := h.claimed_set hfollows hbox hafter
    inside_eq other := by
      have hset := inside_set (o.manager.setQueue lead box.ticket queue) o.book (.working after) hw
        other
      have hinside := h.inside_eq other
      rw [hqueues]
      by_cases heq : lead = other
      · subst heq
        have hprocessing : queue.processing = (Station.working after).isInside lead :=
          congrArg EventQueue.processing hmarked.symm
        rw [hqueue, ← hbefore] at hinside
        rw [Function.update_self, hprocessing]
        omega
      · rw [hothers other heq, isInside_eq_false hafter heq] at hset
        rw [Function.update_of_ne (Ne.symm heq)]
        omega
    accounts other := by
      rw [hqueues]
      by_cases heq : lead = other
      · subst heq
        rw [Function.update_self, ← hmarked, ← hqueue]
        exact (h.accounts lead).mark _
      · rw [Function.update_of_ne (Ne.symm heq)]
        exact h.accounts other
    interpreter_eq := h.interpreter_eq
    total_eq := by
      have hset := total_set (o.manager.setQueue lead box.ticket queue) o.book (.working after) hw
      exact (Nat.add_right_cancel (hset.trans (congrArg _ hcount))).trans h.total_eq
    serves := h.serves.follows hfollows
    capacity_eq other := by
      have hsame := apply_queueOf hqueues EventQueue.capacity (by rw [← hmarked, hqueue]) other
      exact hsame.trans (h.capacity_eq other) }

/-- A worker sends on the oldest event of the queue that it has claimed. -/
theorem Sound.hand (h : o.Sound chart) (hw : o.stations[i]? = some (.working w))
    (hclaim : w.claim = some (lead, box.ticket)) (hbox : o.manager.mailbox? lead = some box)
    (hresult : box.queue.dequeue.result = .ok (some event)) (hfollows : o.manager.Follows m')
    (hqueues : m'.queueOf = Function.update o.manager.queueOf lead box.queue.dequeue.state)
    (hinterpreters : m'.interpreterOf = Function.update o.manager.interpreterOf lead
      ((o.manager.interpreterOf lead).dispatch o.manager.now event).state) (agent : Nat) :
    Sound ⟨m', o.stations.set i (.working { w with count := w.count + 1 }),
      o.book ++ [.handed lead box.ticket agent ⟨o.manager.now, event⟩]⟩ chart := by
  have hqueue := Manager.queueOf_eq hbox
  obtain ⟨-, hdequeue⟩ | ⟨line, first, hitems, hstate, hresult'⟩ := box.queue.dequeue_cases
  · rw [hdequeue] at hresult
    cases hresult
  rw [hresult'] at hresult
  cases hresult
  have hafter : ∀ claim, ({ w with count := w.count + 1 } : Worker).claim = some claim →
      claim = (lead, box.ticket) :=
    fun _ heq => (Option.some.inj (hclaim.symm.trans heq)).symm
  exact {
    unbroken := unbroken_set _ h.unbroken (by simp) i
    claims := h.claimed_set hfollows hbox hafter
    inside_eq other := by
      have hset := inside_set m' (o.book ++ [.handed lead box.ticket agent ⟨o.manager.now, event⟩])
        (.working { w with count := w.count + 1 }) hw other
      have hsame := apply_queueOf hqueues EventQueue.processing (by rw [hstate, hqueue]) other
      have hinside := (h.inside_eq other).trans (congrArg Bool.toNat hsame.symm)
      exact (Nat.add_right_cancel hset).trans hinside
    accounts other := by
      have hsame := h.accounts other
      rw [hqueues, offers_concat, handed_concat]
      by_cases heq : lead = other
      · subst heq
        rw [hqueue] at hsame
        rw [Function.update_self, hstate]
        simpa [Deed.offer?, Deed.handed?] using hsame.dequeue hitems
      · rw [Function.update_of_ne (Ne.symm heq)]
        simpa [Deed.offer?, Deed.handed?, heq] using hsame
    interpreter_eq := h.interpreterOf_concat hinterpreters (fun _ => rfl) _
    total_eq := by
      have hset := total_set m' (o.book ++ [.handed lead box.ticket agent ⟨o.manager.now, event⟩])
        (.working { w with count := w.count + 1 }) hw
      have htotal := h.total_eq
      simp only [Station.count] at hset
      rw [List.countP_append]
      simp only [List.countP_singleton, Deed.isHanded, if_true]
      omega
    serves := h.serves.follows hfollows
    capacity_eq other := by
      have hsame := apply_queueOf hqueues EventQueue.capacity (by rw [hstate, hqueue]) other
      exact hsame.trans (h.capacity_eq other) }

/-- A worker that has claimed no queue is done. -/
theorem Sound.retire (h : o.Sound chart) (hw : o.stations[i]? = some (.working w))
    (hclaim : w.claim = none) :
    Sound ⟨o.manager, o.stations.set i (.done w.count), o.book⟩ chart where
  unbroken := unbroken_set _ h.unbroken (by simp) i
  claims hworker hclaim' := by
    rcases List.mem_or_eq_of_mem_set hworker with hmem | heq
    · exact h.claims hmem hclaim'
    · cases heq
  inside_eq other := by
    have hset := inside_set o.manager o.book (.done w.count) hw other
    have hfree : (Station.working w).isInside other = false := by rw [isInside_working, hclaim]; rfl
    rw [hfree] at hset
    exact (Nat.add_right_cancel hset).trans (h.inside_eq other)
  accounts := h.accounts
  interpreter_eq := h.interpreter_eq
  total_eq := by
    have hset := total_set o.manager o.book (.done w.count) hw
    exact (Nat.add_right_cancel hset).trans h.total_eq
  serves := h.serves
  capacity_eq := h.capacity_eq

/-! ## Moves -/

theorem handing_eq (h : o.manager.Orderly) (hbox : o.manager.mailbox? lead = some box)
    (hevent : box.queue.items.head? = some event) (hagent : o.manager.agent? lead = some agent)
    {after : Worker} (hclaim : after.claim = some (lead, box.ticket)) :
    handing o.manager after =
      some (.handed lead box.ticket agent.ticket ⟨o.manager.now, event⟩) := by
  rw [handing_eq_map hclaim (h.mailboxOf?_eq hbox) hevent, hagent, Option.map_some]

/-- A turn in which a worker sends on the oldest event of a queue that it has claimed. -/
structure Hands (o : Office) (chart : Chart) (i : Nat) (lead event : String) (box : Mailbox)
    (agent : Agent) (m' : Manager) (after : Worker) : Prop where
  mailbox_eq : o.manager.mailbox? lead = some box
  head?_eq : box.queue.items.head? = some event
  agent_eq : o.manager.agent? lead = some agent
  claim_eq : after.claim = some (lead, box.ticket)
  sound : Sound ⟨m', o.stations.set i (.working after),
    o.book ++ [.handed lead box.ticket agent.ticket ⟨o.manager.now, event⟩]⟩ chart

/-- How a turn may end. -/
inductive Turned (o : Office) (chart : Chart) (i : Nat) : Manager × Worker × Turn → Prop where
  | finished {m' : Manager} {after : Worker}
      (sound : Sound ⟨m', o.stations.set i (.done after.count), o.book⟩ chart) :
      Turned o chart i (m', after, .finished)
  | yielded {m' : Manager} {after : Worker} {lead event : String} {box : Mailbox} {agent : Agent}
      (hands : o.Hands chart i lead event box agent m' after) :
      Turned o chart i (m', after, .yielded)

/-- A turn that begins with giving back an empty queue ends as it would without the queue. -/
theorem Turned.of_released {result : Manager × Worker × Turn} (hitems : box.queue.items = [])
    (h : Turned ⟨o.manager.setQueue lead box.ticket { box.queue with processing := false },
      o.stations.set i (.working w), o.book⟩ chart i result) : o.Turned chart i result := by
  have hboxes other := Manager.mailbox?_setQueue o.manager lead other box.ticket
    { box.queue with processing := false }
  cases h with
  | finished hsound =>
    dsimp only at hsound
    rw [List.set_set] at hsound
    exact .finished hsound
  | @yielded m' after other event box' agent hands =>
    obtain ⟨hmailbox, hevent, hagent, hclaim, hsound⟩ := hands
    rw [hboxes] at hmailbox
    dsimp only at hsound
    rw [List.set_set] at hsound
    split at hmailbox
    · -- The queue that was given back has no event to send on.
      cases hmailbox
      rw [EventQueue.items] at hitems hevent
      rw [hitems] at hevent
      cases hevent
    · exact .yielded ⟨hmailbox, hevent, hagent, hclaim, hsound⟩

section Started

variable (tree : chart.Arena) (total : chart.NeverFails)

include tree total

/-- Every lead can be sent an event. -/
theorem Sound.shows (h : o.Sound chart) (lead event : String) : Interpreter.Shows
    ((o.manager.interpreterOf lead).dispatch o.manager.now event) Verdict.snapshot := by
  obtain ⟨time, htime⟩ := h.serves.readable
  obtain ⟨-, s, -, -, hrests⟩ :=
    Interpreter.isCourse_run tree total chart.context (some lead) (o.calls lead)
  rw [h.interpreter_eq lead]
  obtain ⟨-, -, hshows, -⟩ := hrests.dispatch tree total o.manager.now event
  exact hshows time htime

/-- A worker that has claimed a queue with an event in it sends the event on. -/
theorem Sound.exists_hands (h : o.Sound chart) (hw : o.stations[i]? = some (.working w))
    (hbox : o.manager.mailbox? lead = some box) (hclaim : w.claim = some (lead, box.ticket))
    (hitems : box.queue.items ≠ []) :
    ∃ m' after event agent,
      Worker.takeEvent o.manager w lead box.ticket = (m', after, some .yielded) ∧
      o.Hands chart i lead event box agent m' after := by
  obtain ⟨agent, hagent⟩ : ∃ agent, o.manager.agent? lead = some agent := by
    refine Option.isSome_iff_exists.mp ?_
    rw [h.serves.orderly.isSome_eq, hbox]; rfl
  obtain ⟨hnil, -⟩ | ⟨line, event, hcons, -, hresult⟩ := box.queue.dequeue_cases
  · exact absurd hnil hitems
  have hinterpreter := Manager.interpreterOf_eq hagent
  have hshows := h.shows tree total lead event
  rw [hinterpreter] at hshows
  obtain ⟨m', htake, hfollows, hqueues, hinterpreters⟩ :=
    Worker.takeEvent_of_some h.serves.orderly h.serves.calm hbox hresult hagent hshows w
  rw [← hinterpreter] at hinterpreters
  exact ⟨m', _, event, agent, htake, hbox, by rw [hcons]; rfl, hagent, hclaim,
    h.hand hw hclaim hbox hresult hfollows hqueues hinterpreters agent.ticket⟩

/-- A worker without a claim claims a queue and sends an event on, or is done. -/
theorem Sound.seek (h : o.Sound chart) (hw : o.stations[i]? = some (.working w))
    (hclaim : w.claim = none) (leads : List String) :
    o.Turned chart i (Worker.seek leads o.manager w) := by
  rcases Worker.seek_cases h.serves.orderly hclaim leads with hdone |
    ⟨lead, box, rest, hbox, hfree, hitems, htake⟩
  · rw [hdone]
    have hsound := h.retire hw hclaim
    exact .finished hsound
  · let claiming : Worker := { w with claim := some (lead, box.ticket), remaining := some rest }
    have hinside : (Station.working claiming).isInside lead = true := by
      rw [isInside_working]
      exact beq_self_eq_true lead
    have hnone (other : String) : (Station.working w).isInside other = false := by
      rw [isInside_working, hclaim]; rfl
    have hmarked := h.mark hw hbox claiming rfl (fun _ heq => (Option.some.inj heq).symm)
      (fun other _ => hnone other) ((hnone lead).trans hfree.symm)
    rw [hinside] at hmarked
    have hi := (List.getElem?_eq_some_iff.mp hw).1
    have hbox' := (Manager.mailbox?_setQueue o.manager lead lead box.ticket
      { box.queue with processing := true }).trans (if_pos rfl)
    obtain ⟨m', after, event, agent, htake', hands⟩ := hmarked.exists_hands tree total
      (List.getElem?_set_self hi) hbox' rfl hitems
    have hsound := hands.sound
    dsimp only at hsound
    rw [List.set_set] at hsound
    rw [htake m' after _ htake']
    exact .yielded ⟨hbox, hands.head?_eq, hands.agent_eq, hands.claim_eq, hsound⟩

theorem Sound.advance (h : o.Sound chart) (hw : o.stations[i]? = some (.working w)) :
    o.Turned chart i (Worker.advance o.manager w) := by
  rcases hclaim : w.claim with _ | ⟨lead, ticket⟩
  · rw [Worker.advance, hclaim]
    exact h.seek tree total hw hclaim _
  · obtain ⟨box, hbox, rfl⟩ := h.claims (List.mem_of_getElem? hw) hclaim
    rw [Worker.advance, hclaim]
    by_cases hitems : box.queue.items = []
    · have hinside : (Station.working w).isInside lead = box.queue.processing := by
        rw [← Manager.queueOf_eq hbox, h.processing_of_claim hw hclaim, isInside_working, hclaim]
        exact beq_self_eq_true lead
      have hfree := h.mark hw hbox { w with claim := none } rfl nofun
        (fun other hne => by rw [isInside_working, hclaim]; simpa using hne) hinside
      have hi := (List.getElem?_eq_some_iff.mp hw).1
      simp only [Worker.takeEvent_of_nil h.serves.orderly hbox hitems w]
      exact .of_released hitems
        (hfree.seek tree total (List.getElem?_set_self hi) rfl _)
    · obtain ⟨m', after, event, agent, htake, hands⟩ :=
        h.exists_hands tree total hw hbox hclaim hitems
      simp only [htake]
      exact .yielded hands

/-- A turn leaves the office sound. -/
theorem Sound.turn (h : o.Sound chart) (i : Nat) : (o.turn i).Sound chart := by
  unfold Office.turn
  rcases hw : o.stations[i]? with _ | w | count | fault
  · exact h
  · have hturned := h.advance tree total hw
    dsimp only
    generalize Worker.advance o.manager w = result at hturned
    cases hturned with
    | finished hsound => exact hsound
    | yielded hands =>
      dsimp only
      rw [handing_eq h.serves.orderly hands.mailbox_eq hands.head?_eq hands.agent_eq
        hands.claim_eq]
      exact hands.sound
  · exact h
  · exact h

end Started

/-- A new worker is hired. -/
theorem Sound.hire (h : o.Sound chart) (target : Option String) :
    Sound ⟨o.manager, o.stations ++ [.working (Worker.fresh target)], o.book⟩ chart := by
  refine ⟨⟨?_, ?_, ?_, h.accounts, h.interpreter_eq, ?_⟩, h.serves, h.capacity_eq⟩
  · intro fault hmem
    rcases List.mem_append.mp hmem with hmem | hmem
    · exact h.unbroken fault hmem
    · cases List.mem_singleton.mp hmem
  · intro w lead ticket hmem hclaim
    rcases List.mem_append.mp hmem with hmem | hmem
    · exact h.claims hmem hclaim
    · cases List.mem_singleton.mp hmem
      cases hclaim
  · intro lead
    rw [inside, List.countP_append]
    exact h.inside_eq lead
  · rw [total, List.map_append, List.sum_append]
    exact h.total_eq

/-- The clock shows another time. -/
theorem Sound.clock (h : o.Sound chart) {now : Json} (hnow : ∃ time, Record.stamp now = .ok time) :
    Sound { o with manager := { o.manager with now := now } } chart where
  unbroken := h.unbroken
  claims := h.claims
  inside_eq := h.inside_eq
  accounts := h.accounts
  interpreter_eq := h.interpreter_eq
  total_eq := h.total_eq
  capacity_eq := h.capacity_eq
  serves := by
    obtain ⟨⟨hagents, hmailboxes, hsome, hformer, hformer'⟩, hchart, hcalm, -⟩ := h.serves
    exact ⟨⟨hagents, hmailboxes, hsome, hformer, hformer'⟩, hchart, hcalm, hnow⟩

section Started

variable (tree : chart.Arena) (total : chart.NeverFails)

include tree total

/-- A move leaves the office sound. -/
theorem Sound.act (h : o.Sound chart) {move : Move} (hmove : move.IsPlain) :
    (o.act move).Sound chart := by
  have hserves := h.serves
  obtain rfl := hserves.chart_eq
  cases move with
  | clock now => exact h.clock hmove
  | create lead =>
    obtain ⟨m', agent, hcreate, hseats⟩ := hserves.orderly.getOrCreate_spec tree total lead
    have hframe := h.frame hseats.follows hseats.queueOf_eq hseats.interpreterOf_eq
    simpa only [Office.act, hcreate] using hframe
  | send lead event =>
    obtain ⟨m', agent, hcreate, -⟩ := hserves.orderly.getOrCreate_spec tree total lead
    obtain ⟨hfollows, hqueues, hinterpreters, -⟩ :=
      hserves.orderly.send_spec tree total hserves.calm (h.shows tree total lead event)
    have hcall := h.call hfollows hqueues hinterpreters agent.ticket
    have hsending : sending o.manager lead event =
        some (.sent lead agent.ticket ⟨o.manager.now, event⟩) := by
      rw [sending, hcreate]; rfl
    rw [Office.act, hsending]
    exact hcall
  | enqueue lead event =>
    obtain ⟨m', agent, hcreate, hseats⟩ := hserves.orderly.getOrCreate_spec tree total lead
    obtain ⟨box, hbox⟩ := hseats.exists_mailbox
    obtain ⟨hfollows, hqueues, hinterpreters, -⟩ :=
      hserves.orderly.enqueue_spec tree total lead event
    have hoffer := h.offer hfollows hqueues hinterpreters box.ticket
    have hqueue : o.manager.queueOf lead = box.queue := by
      rw [← hseats.queueOf_eq]
      exact Manager.queueOf_eq hbox
    have hoffering : offering o.manager lead event = some (.offered lead box.ticket event
        (EventQueue.letIn ((o.manager.queueOf lead).enqueue event).result)) := by
      simp only [offering, hcreate, hbox, Option.map_some, hqueue]
    rw [Office.act, hoffering]
    exact hoffer
  | remove lead => exact hmove.elim
  | hire target => exact h.hire target
  | turn i => exact h.turn tree total i

theorem Sound.run (h : o.Sound chart) {moves : List Move} (hmoves : ∀ move ∈ moves, move.IsPlain) :
    (o.run moves).Sound chart := by
  induction moves generalizing o with
  | nil => exact h
  | cons move rest ih =>
    obtain ⟨hmove, hrest⟩ := List.forall_mem_cons.mp hmoves
    exact ih (h.act tree total hmove) hrest

end Started

/-- A new office is sound. -/
theorem sound_opened {onChange : Option (String → Snapshot → List ChangeCommand)}
    (hcalm : ∀ callback, onChange = some callback → ∀ lead snapshot,
      ∀ command ∈ callback lead snapshot, ∃ text, command = .fail text)
    (policy : Policy) (telemetry : Telemetry) (onIgnored : Option (IgnoredEvent → Option Fault)) :
    (opened chart policy telemetry onChange onIgnored).Sound chart := by
  have haccounts lead :=
    (Ledger.sound_opened lead Settings.queueCapacity Settings.protectedEvents).accounts
  exact ⟨⟨nofun, nofun, fun _ => rfl, haccounts, fun _ => rfl, rfl⟩,
    ⟨⟨⟨.nil, .nil, nofun⟩, ⟨.nil, .nil, nofun⟩, fun _ => rfl, rfl, rfl⟩, rfl, hcalm, ⟨_, rfl⟩⟩,
    fun _ => rfl⟩

/-- **Serial handling of all leads.** Whatever moves are made in an office of a built chart whose
actions never fail, in whatever order the workers take their turns: as long as no lead is removed,
no worker fails, at most one at a time takes events from a queue, and the events that were let in
are sent on in their order, each once, unless they still wait or were dropped. -/
theorem run_serial (hbuilt : chart.Built) (htotal : chart.NeverFails) (policy : Policy)
    (telemetry : Telemetry) (onChange : Option (String → Snapshot → List ChangeCommand))
    (hcalm : ∀ callback, onChange = some callback → ∀ lead snapshot,
      ∀ command ∈ callback lead snapshot, ∃ text, command = .fail text)
    (onIgnored : Option (IgnoredEvent → Option Fault)) (moves : List Move)
    (hmoves : ∀ move ∈ moves, move.IsPlain) :
    ((opened chart policy telemetry onChange onIgnored).run moves).Serial chart :=
  ((sound_opened hcalm policy telemetry onIgnored).run hbuilt.arena htotal hmoves).toSerial

set_option maxRecDepth 10000 in
/-- Two workers take turns while an event arrives and another one is sent at once; the callback for
changes fails each time. -/
theorem run_serial_turns :
    ∃ moves : List Move, (∀ move ∈ moves, move.IsPlain) ∧ Lead.chart.Built ∧
      Lead.chart.NeverFails ∧
      let office := (opened Lead.chart .reset (.fresh true false)
        (some fun _ _ => [.fail "busy"]) none).run moves
      office.Serial Lead.chart ∧
        office.handed "ada" = ["meeting.booked", "conversation.paused", "meeting.booked"] ∧
        office.total = 4 := by
  let moves : List Move :=
    [.enqueue "ada" "meeting.booked", .enqueue "ada" "conversation.paused",
      .enqueue "bob" "meeting.booked", .hire none, .hire (some "ada"), .turn 0, .turn 1,
      .enqueue "ada" "meeting.booked", .clock (.int 5), .send "bob" "conversation.paused",
      .turn 0, .turn 0, .turn 0, .turn 0]
  have hmoves : ∀ move ∈ moves, move.IsPlain := by
    simp [moves, Move.IsPlain]
    exact ⟨_, rfl⟩
  refine ⟨moves, hmoves, Lead.chart_built, Lead.chart_neverFails, ?_, ?_, ?_⟩
  · refine run_serial Lead.chart_built Lead.chart_neverFails .reset (.fresh true false) _ ?_ none
      moves hmoves
    rintro _ ⟨⟩ lead snapshot command hcommand
    exact ⟨_, List.mem_singleton.mp hcommand⟩
  · decide +kernel
  · decide +kernel

end Office

end Lifecycle
