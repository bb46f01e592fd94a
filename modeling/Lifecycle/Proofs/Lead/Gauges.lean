import Lifecycle.Proofs.Lead.Tickets
import Lifecycle.Proofs.Telemetry

/-!
# What metrics tell of queues

The metrics of a queue are labelled with the first characters of the name that it goes by, so that
queues of different leads may share them. What is collected under a label is the number of drops of
all queues that go by it, those that are no lead's any more included, and the depth of the one that
an event came into or out of last (`Manager.Gauged`), whatever is done
(`Office.metrics_attendAll`). So the metrics of a lead are those of its queue as long as no other
queue goes by the label, and not if one does (`Office.metrics_mix_leads`).
-/

namespace Lifecycle

/-! ## Keys -/

/-- Different leads have different keys. -/
theorem metricKey_lead_inj {name first second : String} :
    metricKey name [("lead", first)] = metricKey name [("lead", second)] ↔ first = second := by
  refine ⟨fun h => ?_, fun h => h ▸ rfl⟩
  have hkey (lead : String) : (metricKey name [("lead", lead)]).toList =
      name.toList ++ ['\x7b'] ++ ("lead=".toList ++ lead.toList) ++ ['\x7d'] := by
    simp [metricKey, String.toList_append]
  have hlist := congrArg String.toList h
  rw [hkey, hkey] at hlist
  exact String.toList_inj.mp (List.append_cancel_left
    (List.append_cancel_left (List.append_cancel_right hlist)))

/-- What a queue reports under the key of a label, it reports if it goes by the label. -/
theorem EventQueue.metricKey_labels {α : Type} (q : EventQueue α) (name label : String) :
    metricKey name q.labels = metricKey name [("lead", label)] ↔ Notice.short q.lead = label :=
  metricKey_lead_inj

/-! ## What signals do to the metrics of a label -/

namespace Signal

variable {signals : List Signal}

/-- Signals that neither count a drop nor set the depth of a queue. -/
def SparesQueues (signals : List Signal) : Prop :=
  ∀ label, signals.countP (counts "queue.dropped" [("lead", label)]) = 0 ∧
    signals.filterMap (sets? "queue.depth" [("lead", label)]) = []

theorem sparesQueues_of_isPlain (h : ∀ signal ∈ signals, signal.IsPlain) :
    SparesQueues signals := by
  refine fun label => ⟨List.countP_eq_zero.mpr fun signal hsignal => ?_,
    List.filterMap_eq_nil_iff.mpr fun signal hsignal => ?_⟩
  · have hplain := h signal hsignal
    cases signal with
    | count name labels => simpa [counts] using hplain label
    | log | gauge => exact Bool.false_ne_true
  · have hplain := h signal hsignal
    cases signal with
    | gauge => exact hplain.elim
    | log | count => rfl

/-- Notices are no metrics. -/
theorem sparesQueues_map_log (notices : List Notice) : SparesQueues (notices.map log) := by
  refine fun label => ⟨List.countP_eq_zero.mpr ?_, List.filterMap_eq_nil_iff.mpr ?_⟩ <;>
    exact List.forall_mem_map.mpr fun _ _ => by simp [counts, sets?]

end Signal

namespace EventQueue

variable {α : Type} {q : EventQueue α} {capacity : Int}

/-- The arrival of an event counts the drop that it costs under the label of the queue. -/
theorem countP_enqueue (hcapacity : q.capacity = .int capacity) (item : α) (label : String) :
    (q.enqueue item).signals.countP (Signal.counts "queue.dropped" [("lead", label)]) =
      if Notice.short q.lead = label then (q.enqueue item).state.dropped - q.dropped else 0 := by
  obtain ⟨before, after, -, hsignals⟩ := signals_enqueue hcapacity item
  have hdepth : (if letIn (q.enqueue item).result then [(q.enqueue item).state.depthSignal]
      else []).countP (Signal.counts "queue.dropped" [("lead", label)]) = 0 := by
    split <;> rfl
  have hkey : Signal.counts "queue.dropped" [("lead", label)] (.count "queue.dropped" q.labels) =
      decide (Notice.short q.lead = label) := by
    rw [Bool.eq_iff_iff, decide_eq_true_iff, ← q.metricKey_labels "queue.dropped" label]
    exact beq_iff_eq
  rw [hsignals, List.countP_append, List.countP_append, List.countP_append, hdepth,
    (Signal.sparesQueues_map_log before label).1, (Signal.sparesQueues_map_log after label).1,
    List.countP_replicate, hkey]
  simp

/-- The arrival of an event sets the gauge to the depth, if the event is let in. -/
theorem sets?_enqueue (hcapacity : q.capacity = .int capacity) (item : α) (label : String) :
    (q.enqueue item).signals.filterMap (Signal.sets? "queue.depth" [("lead", label)]) =
      if Notice.short q.lead = label ∧ letIn (q.enqueue item).result = true then
        [.int (q.enqueue item).state.depth] else [] := by
  obtain ⟨before, after, -, hsignals⟩ := signals_enqueue hcapacity item
  obtain ⟨line, dropped, hstate⟩ := q.enqueue_frame item
  have hlead : (q.enqueue item).state.lead = q.lead := by rw [hstate]
  have hdrops (n : Nat) : (List.replicate n (Signal.count "queue.dropped" q.labels)).filterMap
      (Signal.sets? "queue.depth" [("lead", label)]) = [] :=
    List.filterMap_eq_nil_iff.mpr fun signal hsignal => by
      rw [List.eq_of_mem_replicate hsignal]
      rfl
  rw [hsignals, List.filterMap_append, List.filterMap_append, List.filterMap_append,
    (Signal.sparesQueues_map_log before label).2, (Signal.sparesQueues_map_log after label).2,
    hdrops]
  by_cases hname : Notice.short q.lead = label <;>
    cases letIn (q.enqueue item).result <;>
      simp [depthSignal, Signal.sets?, metricKey_labels, hlead, hname]

/-- To take an event sets the gauge to the depth. -/
theorem signals_dequeue {first : α} (h : q.dequeue.result = .ok (some first)) :
    q.dequeue.signals = [q.dequeue.state.depthSignal] := by
  unfold dequeue at h ⊢
  split
  · rename_i hpop
    rw [hpop] at h
    cases h
  · rfl

end EventQueue

/-! ## The drops of a label, and the queue that was touched last -/

/-- The ticket of a queue that an event came into or out of, if the queue goes by a label. -/
def Incident.touched? (label : String) : Incident → Option Nat
  | offered name ticket true | taken name ticket =>
    if Notice.short name = label then some ticket else none
  | offered _ _ false | called _ | told .. | complained .. => none

/-- The queue of a label that an event came into or out of last. -/
def lastTouched? (label : String) (xs : List Incident) : Option Nat :=
  (xs.filterMap (Incident.touched? label)).getLast?

theorem lastTouched?_concat (label : String) (past : List Incident) (x : Incident) :
    lastTouched? label (past ++ [x]) = (x.touched? label).or (lastTouched? label past) := by
  rw [lastTouched?, filterMap_concat, List.getLast?_append, lastTouched?]
  cases x.touched? label <;> rfl

namespace Manager

variable {m m' : Manager} {past past' xs : List Incident} {label : String} {old new : Mailbox}

/-- How many drops a queue adds to those of a label. -/
def dropsOf (label : String) (box : Mailbox) : Nat :=
  if Notice.short box.queue.lead = label then box.queue.dropped else 0

/-- How many events the queues that go by a label have dropped. -/
def drops (m : Manager) (label : String) : Nat := (m.boxes.map (dropsOf label)).sum

/-- A queue that is put in the place of another one adds its own drops. -/
theorem sum_map_place {boxes : List Mailbox} (h : (boxes.map Mailbox.ticket).Nodup)
    {old new : Mailbox} (hold : old ∈ boxes) (hticket : new.ticket = old.ticket)
    (f : Mailbox → Nat) :
    ((boxes.map (place new)).map f).sum + f old = (boxes.map f).sum + f new := by
  induction boxes with
  | nil => cases hold
  | cons first rest ih =>
    obtain ⟨hfirst, hrest⟩ := List.nodup_cons.mp h
    simp only [List.map_cons, List.sum_cons]
    rcases List.mem_cons.mp hold with rfl | hmem
    · have hothers : rest.map (place new) = rest := by
        refine (List.map_congr_left fun box hbox => if_neg ?_).trans (List.map_id _)
        intro heq
        exact hfirst (hticket ▸ heq ▸ List.mem_map_of_mem hbox)
      have hplace : place new old = new := if_pos hticket.symm
      rw [hothers, hplace]
      omega
    · have hplace : place new first = first := by
        refine if_neg fun heq => hfirst ?_
        exact heq.trans hticket ▸ List.mem_map_of_mem hmem
      have := ih hrest hmem
      rw [hplace]
      omega

theorem drops_putMailbox (h : m.Numbered) (hold : old ∈ m.boxes) (hticket : new.ticket = old.ticket)
    (hlead : new.queue.lead = old.queue.lead) (hle : old.queue.dropped ≤ new.queue.dropped)
    (label : String) :
    (m.putMailbox new).drops label = m.drops label +
      if Notice.short old.queue.lead = label then new.queue.dropped - old.queue.dropped else 0 := by
  have hsum := sum_map_place h.boxes hold hticket (dropsOf label)
  rw [drops, boxes_putMailbox, drops]
  unfold dropsOf at hsum ⊢
  rw [hlead] at hsum
  split_ifs at hsum ⊢ <;> omega

/-! ## What the gauge of a label shows -/

/-- The gauge of a label shows the depth of the queue of a ticket, which goes by the label; it shows
nothing if there is no ticket. -/
def Shows (m : Manager) (label : String) : Option Nat → Prop
  | none => m.telemetry.metrics.gaugeValue "queue.depth" [("lead", label)] = .float .zero
  | some ticket => ∃ box ∈ m.boxes, box.ticket = ticket ∧ Notice.short box.queue.lead = label ∧
      m.telemetry.metrics.gaugeValue "queue.depth" [("lead", label)] = .int box.queue.depth

/-- A gauge that is not set goes on showing the depth of a queue, if the queues that go by its label
stay and keep their depths. -/
theorem Shows.kept {ticket? : Option Nat} (h : m.Shows label ticket?)
    (hgauge : m'.telemetry.metrics.gaugeValue "queue.depth" [("lead", label)] =
      m.telemetry.metrics.gaugeValue "queue.depth" [("lead", label)])
    (hboxes : ∀ box ∈ m.boxes, Notice.short box.queue.lead = label →
      ∃ later ∈ m'.boxes, later.ticket = box.ticket ∧ later.queue.lead = box.queue.lead ∧
        later.queue.depth = box.queue.depth) :
    m'.Shows label ticket? := by
  cases ticket? with
  | none => exact hgauge.trans h
  | some ticket =>
    obtain ⟨box, hbox, rfl, hlabel, hdepth⟩ := h
    obtain ⟨later, hlater, hticket, hlead, heq⟩ := hboxes box hbox hlabel
    exact ⟨later, hlater, hticket, by rw [hlead, hlabel], by rw [hgauge, hdepth, heq]⟩

/-- The metrics of each label tell the drops of all its queues, and the depth of the one that was
touched last. -/
structure Gauged (past : List Incident) (m : Manager) : Prop where
  numbered : m.Numbered
  regular : m.Regular
  /-- The queue of a lead goes by the name of the lead. -/
  named : ∀ lead box, m.mailbox? lead = some box → box.queue.lead = lead
  enabled : m.telemetry.enabled = true
  counter_eq (label : String) :
    m.telemetry.metrics.counter "queue.dropped" [("lead", label)] = .int (m.drops label)
  shows_touched (label : String) : m.Shows label (lastTouched? label past)

/-! ## One step -/

namespace Gauged

/-- Anything else may be reported where queues come without a drop, and none goes. -/
theorem still (h : Gauged past m) (hnumbered : m'.Numbered) (hregular : m'.Regular)
    (signals : List Signal) (hspares : Signal.SparesQueues signals)
    (htelemetry : m'.telemetry = m.telemetry.absorb signals)
    (hnamed : ∀ lead box, m'.mailbox? lead = some box → box.queue.lead = lead)
    (hdrops : ∀ label, m'.drops label = m.drops label)
    (hboxes : ∀ box ∈ m.boxes, box ∈ m'.boxes)
    (hlast : ∀ label, lastTouched? label past' = lastTouched? label past) :
    Gauged past' m' := by
  refine ⟨hnumbered, hregular, hnamed, ?_, fun label => ?_, fun label => ?_⟩
  · rw [htelemetry, Telemetry.enabled_absorb, h.enabled]
  · rw [htelemetry, Telemetry.counter_absorb h.enabled, (hspares label).1, hdrops]
    exact h.counter_eq label
  · rw [hlast]
    refine (h.shows_touched label).kept ?_ fun box hbox _ => ⟨box, hboxes box hbox, rfl, rfl, rfl⟩
    rw [htelemetry, Telemetry.gaugeValue_absorb h.enabled, (hspares label).2]
    rfl

/-- What changes no queue leaves the metrics of queues as they are. -/
theorem aside (h : Gauged past m) (hnumbered : m'.Numbered) (hregular : m'.Regular)
    (signals : List Signal) (hspares : Signal.SparesQueues signals)
    (htelemetry : m'.telemetry = m.telemetry.absorb signals)
    (hmailboxes : m'.mailboxes = m.mailboxes)
    (hformer : m'.formerMailboxes = m.formerMailboxes)
    (hlast : ∀ label, lastTouched? label past' = lastTouched? label past) :
    Gauged past' m' := by
  have hboxes : m'.boxes = m.boxes := by rw [boxes, hmailboxes, hformer, boxes]
  refine h.still hnumbered hregular signals hspares htelemetry ?_
    (fun label => by rw [drops, hboxes, drops]) (fun box hbox => hboxes ▸ hbox) hlast
  simp only [mailbox?, hmailboxes]
  exact h.named

/-- A new queue has dropped nothing. -/
theorem install (h : Gauged past m) (lead : String) (interpreter : Interpreter)
    (hregular : (m.install lead interpreter).Regular) :
    Gauged past (m.install lead interpreter) := by
  have hboxes := m.boxes_install lead interpreter
  obtain ⟨signals, hplain, heq⟩ := m.exists_install_eq lead interpreter
  refine h.still (h.numbered.install lead interpreter) hregular signals
    (Signal.sparesQueues_of_isPlain hplain) (congrArg Manager.telemetry heq)
    (fun other box hbox => ?_) (fun label => ?_) (fun box hbox => hboxes.mem_iff.mpr ?_)
    fun _ => rfl
  · rw [mailbox?_install] at hbox
    split at hbox
    · rename_i hnew
      obtain rfl := Option.some.inj hbox
      exact hnew.1
    · exact h.named other box hbox
  · rw [drops, (hboxes.map (dropsOf label)).sum_nat, drops]
    split
    · rfl
    · have hnone : dropsOf label ⟨m.nextTicket + 1, newQueue lead⟩ = 0 := ite_self 0
      rw [List.map_cons, List.sum_cons, hnone, Nat.zero_add]
  · split
    · exact hbox
    · exact List.mem_cons_of_mem _ hbox

/-- The queue of a lead that is removed is left behind. -/
theorem remove (h : Gauged past m) (lead : String) (hregular : (m.remove lead).Regular) :
    Gauged past (m.remove lead) := by
  have hboxes := boxes_remove h.numbered.boxKeys lead
  obtain ⟨signals, hplain, heq⟩ := m.exists_remove_eq lead
  refine h.still (h.numbered.remove lead) hregular signals
    (Signal.sparesQueues_of_isPlain hplain) (congrArg Manager.telemetry heq)
    (fun other box hbox => ?_) (fun label => (hboxes.map (dropsOf label)).sum_nat)
    (fun box => hboxes.mem_iff.mpr) fun _ => rfl
  rw [mailbox?_remove] at hbox
  split at hbox
  · cases hbox
  · exact h.named other box hbox

/-- A queue is put in the place of another one, whose name it goes by, with a report of its drops
and, if it was touched, of its depth. -/
theorem put (h : Gauged past m) (hold : old ∈ m.boxes) (new : Mailbox)
    (hticket : new.ticket = old.ticket) (hlead : new.queue.lead = old.queue.lead)
    (signals : List Signal) (touched : Bool)
    (hregular : ((m.putMailbox new).report signals).Regular)
    (hle : old.queue.dropped ≤ new.queue.dropped)
    (hcounts : ∀ label, signals.countP (Signal.counts "queue.dropped" [("lead", label)]) =
      if Notice.short old.queue.lead = label then new.queue.dropped - old.queue.dropped else 0)
    (hsets : ∀ label, signals.filterMap (Signal.sets? "queue.depth" [("lead", label)]) =
      if Notice.short old.queue.lead = label ∧ touched = true then [.int new.queue.depth] else [])
    (hdepth : touched = false → new.queue.depth = old.queue.depth)
    (hlast : ∀ label, lastTouched? label past' =
      if Notice.short old.queue.lead = label ∧ touched = true then some old.ticket
      else lastTouched? label past) :
    Gauged past' ((m.putMailbox new).report signals) := by
  have hboxes : ((m.putMailbox new).report signals).boxes = m.boxes.map (place new) :=
    boxes_putMailbox ..
  have hnew : new ∈ ((m.putMailbox new).report signals).boxes := by
    rw [hboxes]
    exact List.mem_map.mpr ⟨old, hold, if_pos hticket.symm⟩
  refine ⟨(h.numbered.putMailbox new).of_eq rfl rfl rfl rfl rfl, hregular, fun lead box hbox => ?_,
    (Telemetry.enabled_absorb _ _).trans h.enabled, fun label => ?_, fun label => ?_⟩
  · have hbox : (m.putMailbox new).mailbox? lead = some box := hbox
    rw [mailbox?_putMailbox] at hbox
    obtain ⟨found, hfound, rfl⟩ := Option.map_eq_some_iff.mp hbox
    have hname := h.named lead found hfound
    unfold place
    split
    · rename_i heq
      obtain rfl := List.inj_on_of_nodup_map h.numbered.boxes (mem_boxes_of_mailbox? hfound) hold
        (heq.trans hticket)
      exact hlead.trans hname
    · exact hname
  · have hcounter := Telemetry.counter_absorb h.enabled signals "queue.dropped"
      [("lead", label)]
    rw [h.counter_eq, hcounts, Telemetry.iterate_add_one] at hcounter
    refine hcounter.trans (congrArg (fun number : Nat => Number.int number) ?_)
    exact (drops_putMailbox h.numbered hold hticket hlead hle label).symm
  · have hgauge := Telemetry.gaugeValue_absorb h.enabled signals "queue.depth"
      [("lead", label)]
    rw [hsets] at hgauge
    rw [hlast]
    by_cases htouch : Notice.short old.queue.lead = label ∧ touched = true
    · rw [if_pos htouch] at hgauge ⊢
      exact ⟨new, hnew, hticket, by rw [hlead, htouch.1], hgauge⟩
    · rw [if_neg htouch] at hgauge ⊢
      refine (h.shows_touched label).kept hgauge fun box hbox hlabel => ?_
      by_cases hsame : box.ticket = old.ticket
      · obtain rfl := List.inj_on_of_nodup_map h.numbered.boxes hbox hold hsame
        have huntouched : touched = false :=
          Bool.eq_false_iff.mpr fun htrue => htouch ⟨hlabel, htrue⟩
        exact ⟨new, hnew, hticket, hlead, hdepth huntouched⟩
      · refine ⟨box, ?_, rfl, rfl, rfl⟩
        rw [hboxes]
        exact List.mem_map.mpr ⟨box, hbox, if_neg (hticket ▸ hsame)⟩

/-- To claim a queue or to give it back does not touch it. -/
theorem mark (h : Gauged past m) (hold : old ∈ m.boxes) (processing : Bool)
    (hregular : (m.putMailbox
      ⟨old.ticket, { old.queue with processing := processing }⟩).Regular) :
    Gauged past (m.putMailbox ⟨old.ticket, { old.queue with processing := processing }⟩) := by
  refine h.put hold ⟨old.ticket, { old.queue with processing := processing }⟩ rfl rfl [] false
    hregular (Nat.le_refl _) (fun label => ?_) (fun label => ?_) (fun _ => rfl) fun label => ?_
  · rw [Nat.sub_self, ite_self]
    rfl
  all_goals exact (if_neg fun hboth => Bool.false_ne_true hboth.2).symm

/-- An event that is offered to a queue touches it if it is let in. -/
theorem offer (h : Gauged past m) (hold : old ∈ m.boxes) (event : String)
    (hregular : ((m.putMailbox ⟨old.ticket, (old.queue.enqueue event).state⟩).report
      (old.queue.enqueue event).signals).Regular) :
    Gauged (past ++ [.offered old.queue.lead old.ticket
        (EventQueue.letIn (old.queue.enqueue event).result)])
      ((m.putMailbox ⟨old.ticket, (old.queue.enqueue event).state⟩).report
        (old.queue.enqueue event).signals) := by
  have hcapacity := (h.regular old hold).1
  have hanswer := EventQueue.answers_enqueue hcapacity event
  obtain ⟨line, dropped, hframe⟩ := old.queue.enqueue_frame event
  refine h.put hold ⟨old.ticket, (old.queue.enqueue event).state⟩ rfl (by rw [hframe]) _
    (EventQueue.letIn (old.queue.enqueue event).result) hregular ?_
    (EventQueue.countP_enqueue hcapacity event) (EventQueue.sets?_enqueue hcapacity event) ?_
    fun label => ?_
  · generalize (old.queue.enqueue event).state = after,
      EventQueue.letIn (old.queue.enqueue event).result = accept at hanswer
    cases hanswer with
    | joins => exact Nat.le_refl _
    | displaces | refuses => exact Nat.le_succ _
  · generalize (old.queue.enqueue event).state = after,
      EventQueue.letIn (old.queue.enqueue event).result = accept at hanswer
    intro hrefused
    cases hanswer with
    | joins | displaces => cases hrefused
    | refuses => rfl
  · rw [lastTouched?_concat]
    cases EventQueue.letIn (old.queue.enqueue event).result <;>
      by_cases hname : Notice.short old.queue.lead = label <;> simp [Incident.touched?, hname]

/-- An event that is taken from a queue touches it. -/
theorem take (h : Gauged past m) (hold : old ∈ m.boxes) {event : String}
    (hresult : old.queue.dequeue.result = .ok (some event))
    (hregular : ((m.putMailbox ⟨old.ticket, old.queue.dequeue.state⟩).report
      old.queue.dequeue.signals).Regular) :
    Gauged (past ++ [.taken old.queue.lead old.ticket])
      ((m.putMailbox ⟨old.ticket, old.queue.dequeue.state⟩).report
        old.queue.dequeue.signals) := by
  obtain ⟨-, hdequeue⟩ | ⟨line, first, -, hstate, -⟩ := old.queue.dequeue_cases
  · rw [hdequeue] at hresult
    cases hresult
  refine h.put hold ⟨old.ticket, old.queue.dequeue.state⟩ rfl (by rw [hstate]) _ true hregular
    (by rw [hstate]) (fun label => ?_) (fun label => ?_)
    (fun hfalse => absurd hfalse.symm Bool.false_ne_true) fun label => ?_
  · rw [EventQueue.signals_dequeue hresult, hstate, Nat.sub_self, ite_self]
    rfl
  · rw [EventQueue.signals_dequeue hresult, hstate]
    by_cases hname : Notice.short old.queue.lead = label <;>
      simp [EventQueue.depthSignal, Signal.sets?, EventQueue.metricKey_labels, hname]
  · rw [lastTouched?_concat]
    by_cases hname : Notice.short old.queue.lead = label <;> simp [Incident.touched?, hname]

theorem step (h : Gauged past m) (hstep : m.Step xs m') : Gauged (past ++ xs) m' := by
  have hnumbered := h.numbered.step hstep
  have hregular := h.regular.step hstep
  cases hstep with
  | report hplain =>
    rw [List.append_nil]
    exact h.aside hnumbered hregular _ (Signal.sparesQueues_of_isPlain hplain) rfl rfl rfl
      fun _ => rfl
  | install _ =>
    rw [List.append_nil]
    exact h.install _ _ hregular
  | remove lead =>
    rw [List.append_nil]
    exact h.remove lead hregular
  | mark hbox processing =>
    rw [List.append_nil]
    exact h.mark (mem_boxes_of_mailboxOf? hbox) processing hregular
  | ignored event =>
    rw [List.append_nil]
    exact h.aside hnumbered hregular [] (Signal.sparesQueues_map_log []) rfl rfl rfl fun _ => rfl
  | call hmem event =>
    exact h.aside hnumbered hregular _
      (Signal.sparesQueues_of_isPlain (Interpreter.plain_dispatch _ _ _)) rfl rfl rfl
      fun label => lastTouched?_concat ..
  | tell lead snapshot =>
    exact h.aside hnumbered hregular [] (Signal.sparesQueues_map_log []) rfl rfl rfl
      fun label => lastTouched?_concat ..
  | complain name text =>
    exact h.aside hnumbered hregular _ (Signal.sparesQueues_map_log [.observerFailed name text])
      rfl rfl rfl fun label => lastTouched?_concat ..
  | offer hbox event => exact h.offer (mem_boxes_of_mailbox? hbox) event hregular
  | take hbox hresult => exact h.take (mem_boxes_of_mailboxOf? hbox) hresult hregular

end Gauged

/-- Where one queue alone goes by a label, the drops of the label are its own. -/
theorem Numbered.drops_eq (h : m.Numbered) {box : Mailbox} (hbox : box ∈ m.boxes)
    (hlabel : Notice.short box.queue.lead = label)
    (honly : ∀ other ∈ m.boxes, Notice.short other.queue.lead = label → other.ticket = box.ticket) :
    m.drops label = box.queue.dropped := by
  have hboxes := h.boxes
  unfold drops
  obtain ⟨before, after, heq⟩ := List.append_of_mem hbox
  rw [heq] at hboxes honly ⊢
  have hnone : ∀ other ∈ before ++ after, dropsOf label other = 0 := by
    intro other hother
    refine if_neg fun hname => ?_
    rw [List.map_append, List.map_cons, List.nodup_middle, ← List.map_append,
      List.nodup_cons] at hboxes
    refine hboxes.1 (honly other ?_ hname ▸ List.mem_map_of_mem hother)
    rw [List.mem_append, List.mem_cons]
    exact (List.mem_append.mp hother).imp_right .inr
  have hzero {others : List Mailbox} (hothers : ∀ other ∈ others, other ∈ before ++ after) :
      (others.map (dropsOf label)).sum = 0 :=
    List.sum_eq_zero_iff_forall_eq_nat.mpr (List.forall_mem_map.mpr fun other hother =>
      hnone other (hothers other hother))
  rw [List.map_append, List.map_cons, List.sum_append, List.sum_cons,
    hzero fun _ => List.mem_append_left _, hzero fun _ => List.mem_append_right _, dropsOf,
    if_pos hlabel, Nat.zero_add, Nat.add_zero]

end Manager

namespace Office

open Manager

/-- **What metrics tell of queues.** Whatever is done in an office where metrics are collected, of
whatever chart and with whatever callbacks: under a label there stand the drops of all queues that
go by it, and the depth of the one that an event came into or out of last. These are the drops and
the depth of the queue of a lead if no other queue, of a lead or left behind by one, goes by the
label. -/
theorem metrics_attendAll (chart : Chart) (policy : Policy) (heard : Bool)
    (onChange : Option (String → Snapshot → List ChangeCommand))
    (onIgnored : Option (IgnoredEvent → Option Fault)) (affairs : List Affair) (label : String) :
    let o := opened chart policy (.fresh true heard) onChange onIgnored
    let m := (o.attendAll affairs).manager
    let dropped := m.telemetry.metrics.counter "queue.dropped" [("lead", label)]
    let depth := m.telemetry.metrics.gaugeValue "queue.depth" [("lead", label)]
    dropped = .int (m.drops label) ∧ m.Shows label (lastTouched? label (o.history affairs)) ∧
      ∀ lead box, m.mailbox? lead = some box → Notice.short lead = label →
        (∀ other ∈ m.boxes, Notice.short other.queue.lead = label → other.ticket = box.ticket) →
        dropped = .int box.queue.dropped ∧
          ((∃ x ∈ o.history affairs, x.touched? label = some box.ticket) →
            depth = .int box.queue.depth) := by
  intro o m dropped depth
  have hopened : Gauged [] o.manager :=
    ⟨(numbered_fresh chart policy (.fresh true heard)).of_eq rfl rfl rfl rfl rfl,
      List.forall_mem_nil _, nofun, rfl, fun _ => rfl, fun _ => rfl⟩
  have hgauged : Gauged (o.history affairs) m := by
    refine keeps_attendAll Gauged (fun h hstep => h.step hstep) ?_ ?_ hopened
    · exact fun _ _ h => ⟨h.numbered.of_eq rfl rfl rfl rfl rfl, h.regular, h.named, h.enabled,
        h.counter_eq, h.shows_touched⟩
    · exact fun _ h => ⟨h.numbered.of_eq rfl rfl rfl rfl rfl, h.regular, h.named, h.enabled,
        h.counter_eq, h.shows_touched⟩
  refine ⟨hgauged.counter_eq label, hgauged.shows_touched label, ?_⟩
  intro lead box hbox hlabel honly
  have hmem := mem_boxes_of_mailbox? hbox
  have hname : Notice.short box.queue.lead = label := by rw [hgauged.named lead box hbox, hlabel]
  refine ⟨(hgauged.counter_eq label).trans ?_, fun ⟨x, hx, htouched⟩ => ?_⟩
  · rw [hgauged.numbered.drops_eq hmem hname honly]
  · have hshows := hgauged.shows_touched label
    rcases hlast : lastTouched? label (o.history affairs) with _ | ticket
    · have hnone := List.getLast?_eq_none_iff.mp hlast
      rw [List.filterMap_eq_nil_iff] at hnone
      cases (hnone x hx).symm.trans htouched
    · rw [hlast] at hshows
      obtain ⟨other, hother, -, hother', hdepth⟩ := hshows
      obtain rfl := List.inj_on_of_nodup_map hgauged.numbered.boxes hother hmem
        (honly other hother hother')
      exact hdepth

/-- Events of two leads whose names begin alike. -/
def alike : List Affair :=
  [.errand (.move (.enqueue "customer-1" "meeting.booked")),
    .errand (.move (.enqueue "customer-1" "goal.hit")),
    .errand (.move (.enqueue "customer-2" "meeting.booked"))]

set_option maxRecDepth 10000 in
/-- **Leads may share a label.** Two events of one lead wait, and the gauge of its label shows one:
that is the event of another lead. -/
theorem metrics_mix_leads :
    ¬ ∀ (affairs : List Affair) (lead : String) (box : Mailbox),
      let o := opened Lead.chart .reset (.fresh true false) none none
      let m := (o.attendAll affairs).manager
      let label := Notice.short lead
      m.mailbox? lead = some box →
      (∃ x ∈ o.history affairs, x.touched? label = some box.ticket) →
      m.telemetry.metrics.gaugeValue "queue.depth" [("lead", label)] = .int box.queue.depth ∧
        ((∀ removed, .errand (.move (.remove removed)) ∉ affairs) →
          m.telemetry.metrics.counter "queue.dropped" [("lead", label)] =
            .int box.queue.dropped) := by
  intro hall
  let m := ((opened Lead.chart .reset (.fresh true false) none none).attendAll alike).manager
  have hthere : (m.mailbox? "customer-1").map (fun box => (box.ticket, box.queue.depth)) =
      some (1, 2) := by decide +kernel
  obtain ⟨box, hbox, hfields⟩ := Option.map_eq_some_iff.mp hthere
  obtain ⟨hticket, hdepth⟩ := Prod.mk.inj hfields
  have htouched : 1 ∈ ((opened Lead.chart .reset (.fresh true false) none none).history
      alike).filterMap (Incident.touched? (Notice.short "customer-1")) := by decide +kernel
  obtain ⟨x, hx, hx'⟩ := List.mem_filterMap.mp htouched
  obtain ⟨hgauge, -⟩ := hall alike "customer-1" box hbox ⟨x, hx, hx'.trans (by rw [hticket])⟩
  rw [hdepth] at hgauge
  have hshown : (m.telemetry.metrics.gaugeValue "queue.depth"
      [("lead", Notice.short "customer-1")]).same (.int 2) = false := by decide +kernel
  rw [hgauge] at hshown
  cases hshown

end Office

end Lifecycle
