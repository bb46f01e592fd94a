import Lifecycle.Proofs.Lead.Capacity
import Lifecycle.Proofs.Lead.Changes
import Lifecycle.Proofs.Lead.Tickets
import Lifecycle.Proofs.Telemetry

/-!
# What the callback for changes hears

The callback for changes hears of nothing but deliveries (`Office.echoing_history`), and what it has
heard and how it has failed is on record (`Manager.Heard`). On the chart of leads every lead has an
interpreter that can be stored and a queue that lets events in or turns them away, and whatever is
no lead's any more is stopped (`Manager.Tended`). So the callback is told of each event after which
the path or the context of a lead's interpreter is another one than before, once, with the name of
the lead and its new snapshot, and of no other event (`Manager.attendAll_announces`).
-/

namespace Lifecycle

/-! ## What is on record -/

/-- The change that a callback has heard of: a lead, and its value since then. -/
def LeadNote.change? : LeadNote → Option (String × String)
  | changed lead value => some (lead, value)
  | ignored _ => none

/-- The name and the text of a complaint about the callback for changes. -/
def Notice.complaint? : Notice → Option (String × String)
  | observerFailed name text => some (name, text)
  | _ => none

/-- The complaint that a signal reports. -/
def Signal.complaint? : Signal → Option (String × String)
  | log notice => notice.complaint?
  | count .. | gauge .. => none

theorem Signal.IsPlain.complaint?_eq_none {signal : Signal} (h : signal.IsPlain) :
    signal.complaint? = none := by
  cases signal with
  | log notice => cases notice <;> first | rfl | cases h
  | count | gauge => rfl

/-- The complaints so far, in order. -/
def Telemetry.complaints (t : Telemetry) : List (String × String) :=
  t.notices.reverse.filterMap Notice.complaint?

theorem Telemetry.complaints_absorb (t : Telemetry) (signals : List Signal) :
    (t.absorb signals).complaints = t.complaints ++ signals.filterMap Signal.complaint? := by
  induction signals generalizing t with
  | nil => exact (List.append_nil _).symm
  | cons signal rest ih =>
    have hfirst : (t.accept signal).complaints = t.complaints ++ signal.complaint?.toList := by
      cases signal with
      | log notice =>
        rw [complaints, accept, List.reverse_cons, filterMap_concat]
        rfl
      | count | gauge =>
        rw [accept, Signal.complaint?, Option.toList_none, List.append_nil]
        split <;> rfl
    rw [absorb_cons, ih, hfirst, List.append_assoc, List.filterMap_cons]
    cases signal.complaint? <;> rfl

/-- What complains of nothing leaves the complaints as they are. -/
theorem Telemetry.complaints_absorb_of_none {t : Telemetry} {signals : List Signal}
    (h : ∀ signal ∈ signals, signal.complaint? = none) :
    (t.absorb signals).complaints = t.complaints := by
  rw [complaints_absorb, List.filterMap_eq_nil_iff.mpr h, List.append_nil]

namespace EventQueue

variable {α : Type} {q : EventQueue α} {capacity : Int}

/-- Queues do not complain of callbacks. -/
theorem complaint?_enqueue (hcapacity : q.capacity = .int capacity) (item : α) :
    ∀ signal ∈ (q.enqueue item).signals, signal.complaint? = none := by
  obtain ⟨before, after, hplain, hsignals⟩ := signals_enqueue hcapacity item
  obtain ⟨hbefore, hafter⟩ := List.forall_mem_append.mp hplain
  rw [hsignals]
  refine List.forall_mem_append.mpr ⟨List.forall_mem_map.mpr fun notice hmem =>
    (hbefore notice hmem).complaint?_eq_none, List.forall_mem_append.mpr ⟨fun signal hmem => ?_,
      List.forall_mem_append.mpr ⟨fun signal hmem => ?_, List.forall_mem_map.mpr fun notice hmem =>
        (hafter notice hmem).complaint?_eq_none⟩⟩⟩
  · rw [List.eq_of_mem_replicate hmem]
    rfl
  · split at hmem
    · rw [List.mem_singleton.mp hmem]
      rfl
    · cases hmem

theorem complaint?_dequeue (q : EventQueue α) :
    ∀ signal ∈ q.dequeue.signals, signal.complaint? = none := by
  unfold dequeue
  split
  · exact List.forall_mem_nil _
  · exact List.forall_mem_singleton.mpr rfl

end EventQueue

/-! ## Nothing but deliveries is heard of -/

namespace Incident

/-- What the callback for changes is told: a lead, and its value. -/
def told? : Incident → Option (String × String)
  | told lead snapshot => some (lead, snapshot.value)
  | called _ | complained .. | offered .. | taken .. => none

/-- What the callback for changes fails with, and the name under which this is logged. -/
def complained? : Incident → Option (String × String)
  | complained name text => some (name, text)
  | called _ | told .. | offered .. | taken .. => none

/-- Whether the callback for changes is told, or fails. -/
def isEcho : Incident → Bool
  | told .. | complained .. => true
  | called _ | offered .. | taken .. => false

end Incident

/-- What the callback for changes is told is what follows on the deliveries. -/
def Echoing (xs : List Incident) : Prop :=
  xs.filter Incident.isEcho = (xs.filterMap Incident.delivery?).flatMap Delivery.echoes

namespace Echoing

variable {xs ys : List Incident}

theorem nil : Echoing [] := rfl

theorem append (h : Echoing xs) (h' : Echoing ys) : Echoing (xs ++ ys) := by
  rw [Echoing, List.filter_append, List.filterMap_append, List.flatMap_append, h, h']

theorem cons {x : Incident} (hecho : x.isEcho = false) (hdelivery : x.delivery? = none)
    (h : Echoing xs) : Echoing (x :: xs) := by
  rw [Echoing, List.filter_cons_of_neg (Bool.eq_false_iff.mp hecho),
    List.filterMap_cons_none hdelivery]
  exact h

theorem of_delivery (d : Delivery) : Echoing d.incidents := by
  have hechoes : ∀ x ∈ d.echoes, x.isEcho = true ∧ x.delivery? = none := by
    unfold Delivery.echoes Delivery.echo
    intro x hx
    split at hx
    · cases hx
    · split at hx
      · cases hx
      · rcases List.mem_cons.mp hx with rfl | hx
        · exact ⟨rfl, rfl⟩
        · obtain ⟨text, -, rfl⟩ := Option.map_eq_some_iff.mp (Option.mem_toList.mp hx)
          exact ⟨rfl, rfl⟩
  rw [Echoing, Delivery.incidents, List.filter_cons_of_neg (by exact Bool.false_ne_true),
    List.filterMap_cons_some (by exact rfl), List.filter_eq_self.mpr fun x hx => (hechoes x hx).1,
    List.filterMap_eq_nil_iff.mpr fun x hx => (hechoes x hx).2, List.flatMap_singleton]

/-- What is computed of echoes is computed of deliveries. -/
theorem filterMap_eq (h : Echoing xs) {β : Type} {f : Incident → Option β} {g : Delivery → Option β}
    (hf : ∀ x, x.isEcho = false → f x = none)
    (hg : ∀ d, .called d ∈ xs → d.echoes.filterMap f = (g d).toList) :
    xs.filterMap f = (xs.filterMap Incident.delivery?).filterMap g := by
  have hechoes : xs.filterMap f = (xs.filter Incident.isEcho).filterMap f := by
    rw [List.filterMap_filter]
    refine List.filterMap_congr fun x _ => ?_
    split
    · rfl
    · rename_i hecho
      exact hf x (Bool.eq_false_iff.mpr hecho)
  rw [hechoes, h, List.filterMap_flatMap, List.filterMap_eq_flatMap_toList g]
  refine List.flatMap_congr fun d hd => hg d ?_
  obtain ⟨x, hx, hdelivery⟩ := List.mem_filterMap.mp hd
  cases x with
  | called d' => exact Option.some.inj hdelivery ▸ hx
  | told | complained | offered | taken => cases hdelivery

end Echoing

namespace Manager

theorem echoing_sends (m : Manager) (lead event : String) : Echoing (m.sends lead event) := by
  unfold sends
  split
  · exact .nil
  · exact .of_delivery _

theorem echoing_offers (m : Manager) (lead event : String) : Echoing (m.offers lead event) := by
  unfold offers
  split
  · exact .nil
  · split
    · exact .nil
    · exact .cons rfl rfl .nil

end Manager

namespace Worker

theorem echoing_takes (m : Manager) (lead : String) (ticket : Nat) :
    Echoing (takes m lead ticket) := by
  unfold takes
  split
  · exact .nil
  · split
    · exact .nil
    · refine .cons rfl rfl ?_
      split
      · exact .nil
      · exact .of_delivery _

theorem echoing_seeks (leads : List String) (m : Manager) (w : Worker) :
    Echoing (seeks leads m w) := by
  induction leads generalizing m w with
  | nil => exact .nil
  | cons lead rest ih =>
    unfold seeks
    split
    · exact ih m w
    · split
      · exact ih m w
      · refine (echoing_takes _ _ _).append ?_
        split
        · exact .nil
        · exact ih _ _

theorem echoing_incidents (m : Manager) (w : Worker) : Echoing (incidents m w) := by
  unfold incidents
  split
  · exact echoing_seeks _ m w
  · refine (echoing_takes _ _ _).append ?_
    split
    · exact .nil
    · exact echoing_seeks _ _ _

end Worker

namespace Office

theorem echoing_incidents (o : Office) (affair : Affair) : Echoing (o.incidents affair) := by
  unfold incidents
  split
  · exact o.manager.echoing_sends _ _
  · exact o.manager.echoing_offers _ _
  · unfold turnIncidents
    split
    · exact Worker.echoing_incidents _ _
    · exact .nil
  · exact .nil
  · split
    · exact .nil
    · exact .of_delivery _

/-- Whatever is done, the callback for changes hears of nothing but deliveries. -/
theorem echoing_history (o : Office) (affairs : List Affair) : Echoing (o.history affairs) := by
  induction affairs generalizing o with
  | nil => exact .nil
  | cons affair rest ih => exact (o.echoing_incidents affair).append (ih _)

end Office

/-- An interpreter that is stopped stays as it is, but for its records. -/
theorem Delivery.exists_after_of_stopped {d : Delivery}
    (h : d.agent.interpreter.status = .stopped) : d.change? = none ∧
      ∃ log, d.after = ⟨d.agent.ticket, { d.agent.interpreter with log := log }⟩ := by
  have hidle : d.agent.interpreter.Idle d.call.event := .inl (h ▸ nofun)
  obtain ⟨log, hstate⟩ := (Interpreter.ignores_of_idle hidle d.call.now).state
  exact ⟨Delivery.change?_of_idle hidle, log, congrArg (Agent.mk d.agent.ticket) hstate⟩

namespace Delivery

variable {d : Delivery}

/-- What the callback for changes is to hear of the event: the lead whose path or context differs,
and what it shows then. -/
def heard? (d : Delivery) : Option (String × Snapshot) := d.listener.bind fun _ => d.news?

/-- What the callback for changes fails with when it hears this, and the name under which it is
logged. -/
def complaint? (d : Delivery) : Option (String × String) :=
  d.listener.bind fun callback => d.news?.bind fun news =>
    ((callback news.1 news.2).findSome? ChangeCommand.failure?).map (d.agent.interpreter.name, ·)

/-- Where a change is what differs, the callback hears what it is to hear, and complains of it. -/
theorem filterMap_echoes (h : d.change? = d.news?) :
    d.echoes.filterMap Incident.told? =
        (d.heard?.map fun news => (news.1, news.2.value)).toList ∧
      d.echoes.filterMap Incident.complained? = d.complaint?.toList := by
  rw [echoes, h, heard?, complaint?]
  rcases d.news? with _ | ⟨lead, snapshot⟩
  · rcases d.listener with _ | callback <;> exact ⟨rfl, rfl⟩
  · rcases d.listener with _ | callback
    · exact ⟨rfl, rfl⟩
    · dsimp only [echo, Option.bind_some, Option.map_some]
      cases (callback lead snapshot).findSome? ChangeCommand.failure? <;> exact ⟨rfl, rfl⟩

end Delivery

/-! ## What has been heard -/

namespace Manager

variable {m m' : Manager} {past xs : List Incident} {lead : String} {agent : Agent}

/-- What the callback for changes has heard is on record, and what it has failed with. -/
structure Heard (past : List Incident) (m : Manager) : Prop where
  notes_eq : m.notes.filterMap LeadNote.change? = past.filterMap Incident.told?
  complaints_eq : m.telemetry.complaints = past.filterMap Incident.complained?

/-- What nobody hears of. -/
theorem Heard.silent (h : Heard past m) (hnotes : m'.notes = m.notes)
    (hcomplaints : m'.telemetry.complaints = m.telemetry.complaints)
    (htold : xs.filterMap Incident.told? = [])
    (hcomplained : xs.filterMap Incident.complained? = []) : Heard (past ++ xs) m' := by
  refine ⟨?_, ?_⟩
  · rw [hnotes, List.filterMap_append, htold, List.append_nil, h.notes_eq]
  · rw [hcomplaints, List.filterMap_append, hcomplained, List.append_nil, h.complaints_eq]

theorem Heard.step (h : Heard past m) (hregular : m.Regular) (hstep : m.Step xs m') :
    Heard (past ++ xs) m' := by
  have hplain {signals : List Signal} (hplain : ∀ signal ∈ signals, signal.IsPlain) :
      (m.telemetry.absorb signals).complaints = m.telemetry.complaints :=
    Telemetry.complaints_absorb_of_none fun signal hmem => (hplain signal hmem).complaint?_eq_none
  cases hstep with
  | report hsignals => exact h.silent rfl (hplain hsignals) rfl rfl
  | @install lead interpreter _ =>
    obtain ⟨signals, hsignals, heq⟩ := m.exists_install_eq lead interpreter
    rw [heq]
    exact h.silent rfl (hplain hsignals) rfl rfl
  | remove lead =>
    obtain ⟨signals, hsignals, heq⟩ := m.exists_remove_eq lead
    rw [heq]
    exact h.silent rfl (hplain hsignals) rfl rfl
  | mark => exact h.silent rfl rfl rfl rfl
  | ignored event =>
    refine ⟨?_, (List.append_nil past).symm ▸ h.complaints_eq⟩
    rw [filterMap_concat, h.notes_eq, List.append_nil]
    exact List.append_nil _
  | call hmem event =>
    exact h.silent rfl (hplain (Interpreter.plain_dispatch _ _ _)) rfl rfl
  | tell lead snapshot =>
    refine ⟨?_, ?_⟩
    · rw [filterMap_concat, filterMap_concat, h.notes_eq]
      rfl
    · rw [filterMap_concat, ← h.complaints_eq]
      exact (List.append_nil _).symm
  | complain name text =>
    refine ⟨?_, ?_⟩
    · rw [filterMap_concat, ← h.notes_eq]
      exact (List.append_nil _).symm
    · rw [filterMap_concat, ← h.complaints_eq]
      exact Telemetry.complaints_absorb _ _
  | @offer lead box hbox event =>
    refine h.silent rfl (Telemetry.complaints_absorb_of_none ?_) rfl rfl
    exact EventQueue.complaint?_enqueue (hregular box (mem_boxes_of_mailbox? hbox)).1 event
  | @take box event hbox _ =>
    exact h.silent rfl (Telemetry.complaints_absorb_of_none box.queue.complaint?_dequeue) rfl rfl

/-! ## Leads that are looked after -/

section Storing

variable {chart : Chart} {interpreter : Interpreter}

theorem Candidate.storable (storing : chart.Storing) (h : Candidate chart lead interpreter) :
    interpreter.Storable chart := by
  cases h with
  | started => exact (Interpreter.storable_started storing (some lead)).2
  | revived hun hrevive =>
    obtain ⟨checked, hchecked, hlayout⟩ := bind_eq_ok.mp hrevive
    exact Interpreter.storable_ofLayout storing (Layout.nodup_history hun hchecked) hlayout

theorem Storable.step (storing : chart.Storing) (h : m.Storable chart) (hnumbered : m.Numbered)
    (hstep : m.Step xs m') : m'.Storable chart := by
  cases hstep with
  | install hcandidate =>
    exact h.install _ ((h.chart_eq ▸ hcandidate : Candidate chart _ _).storable storing)
  | remove lead => exact h.remove lead
  | @call agent hmem event =>
    rcases List.mem_append.mp hmem with hcurrent | hformer
    · obtain ⟨entry, hentry, rfl⟩ := List.mem_map.mp hcurrent
      exact (h.putAgent _ ((h.runs entry hentry).dispatch storing m.now event)).report _
    · exact h.of_eq rfl (hnumbered.agents_putAgent hformer _) (Nat.le_refl _)
  | report | mark | ignored | tell | complain | offer | take =>
    exact h.of_eq rfl rfl (Nat.le_refl _)

/-- Whatever is no lead's any more is stopped. -/
def Retired (m : Manager) : Prop :=
  ∀ agent ∈ m.formerAgents, agent.interpreter.status = .stopped

theorem Retired.step (h : m.Retired) (hnumbered : m.Numbered) (hstep : m.Step xs m') :
    m'.Retired := by
  have hretired (m : Manager) (lead : String) :
      ∀ agent ∈ ((m.agent? lead).map Agent.retired).toList,
        agent.interpreter.status = .stopped := by
    intro agent hagent
    obtain ⟨old, -, rfl⟩ := Option.map_eq_some_iff.mp (Option.mem_toList.mp hagent)
    exact Interpreter.stop_status old.interpreter
  cases hstep with
  | @install lead interpreter _ =>
    obtain ⟨signals, -, heq⟩ := m.exists_install_eq lead interpreter
    rw [heq]
    exact List.forall_mem_append.mpr ⟨hretired m lead, h⟩
  | remove lead =>
    obtain ⟨signals, -, heq⟩ := m.exists_remove_eq lead
    rw [heq]
    exact List.forall_mem_append.mpr ⟨hretired m lead, h⟩
  | @call called hcalled event =>
    refine List.forall_mem_map.mpr fun old hold => ?_
    split
    · rename_i heq
      -- The former interpreter with the ticket is the one that is called.
      obtain rfl := hnumbered.eq_of_ticket (List.mem_append_right _ hold) hcalled heq
      obtain ⟨-, log, hafter⟩ :=
        Delivery.exists_after_of_stopped (d := .of m old event) (h old hold)
      rw [hafter]
      exact h old hold
    · exact h old hold
  | report | mark | ignored | tell | complain | offer | take => exact h

/-- A manager whose leads have interpreters that can be stored and queues, and whose callback for
changes has heard what there was to hear. -/
structure Tended (chart : Chart) (past : List Incident) (m : Manager) : Prop where
  storable : m.Storable chart
  numbered : m.Numbered
  paired : m.Paired
  regular : m.Regular
  retired : m.Retired
  readable : ∃ time, Record.stamp m.now = .ok time
  heard : Heard past m
  /-- A change of a lead is what differs; an interpreter that is no lead's changes nothing. -/
  news : ∀ d, .called d ∈ past → d.change? = d.news? ∧
    (d.lead = none → d.after.interpreter.observe = d.agent.interpreter.observe)

theorem Tended.step (exact : chart.Exact) (h : Tended chart past m) (hstep : m.Step xs m') :
    Tended chart (past ++ xs) m' := by
  obtain ⟨time, htime⟩ := h.readable
  refine ⟨h.storable.step exact.toStoring h.numbered hstep, h.numbered.step hstep,
    hstep.paired h.paired, h.regular.step hstep, h.retired.step h.numbered hstep,
    ⟨time, hstep.frame.2.1 ▸ htime⟩, h.heard.step h.regular hstep, fun d hd => ?_⟩
  rcases List.mem_append.mp hd with hd | hd
  · exact h.news d hd
  obtain ⟨hmem, event, hof⟩ := hstep.exists_of_called hd
  have hlead : d.lead = m.leadOf? d.agent.ticket := congrArg Delivery.lead hof
  have hnow : d.call.now = m.now := congrArg (fun d => d.call.now) hof
  rcases List.mem_append.mp hmem with hcurrent | hformer
  · obtain ⟨entry, hentry, hagent⟩ := List.mem_map.mp hcurrent
    have hget : m.agent? entry.1 = some d.agent :=
      hagent ▸ Entries.get?_of_mem h.numbered.agentKeys hentry
    refine ⟨Delivery.change?_eq_news? exact (h.storable.run_of_agent? hget) (hnow ▸ htime), ?_⟩
    rw [hlead, h.numbered.leadOf?_of_agent? hget]
    exact nofun
  · obtain ⟨hnone, log, hafter⟩ := Delivery.exists_after_of_stopped (h.retired d.agent hformer)
    rw [h.numbered.leadOf?_of_former hformer] at hlead
    refine ⟨?_, fun _ => hafter ▸ rfl⟩
    rw [hnone, Delivery.news?, hlead, Option.map_none, ite_self]

end Storing

end Manager

/-! ## Whatever is done with leads -/

set_option maxRecDepth 10000 in
/-- The values of leads are booleans. -/
theorem Lead.chart_exact : Lead.chart.Exact where
  toStoring := Lead.chart_storing
  total := Lead.chart_neverFails
  isExact := List.all_eq_true.mp (by decide +kernel)

namespace Manager.Tended

variable {chart : Chart} {m : Manager} {past : List Incident}

/-- An event can be put into the queue of every lead: it is let in or turned away. -/
theorem exists_enqueue (exact : chart.Exact) (h : Tended chart past m) (lead event : String) :
    ∃ accepted, (m.enqueue lead event).2 = .ok accepted := by
  have hcreated : ∃ agent, (m.getOrCreate lead).2 = .ok agent := by
    unfold getOrCreate
    rcases m.agent? lead with _ | agent
    · obtain ⟨m', hlaunch, -⟩ := h.storable.launch_eq exact.toStoring lead
      simp only [hlaunch]
      exact ⟨_, rfl⟩
    · exact ⟨agent, rfl⟩
  obtain ⟨hsteps, hagent⟩ := m.steps_getOrCreate lead
  have htended := hsteps.keeps (fun h hstep => h.step exact hstep) h
  unfold enqueue
  generalize m.getOrCreate lead = created at hcreated hagent htended
  obtain ⟨created, result⟩ := created
  obtain ⟨agent, rfl⟩ := hcreated
  have hpaired := htended.paired lead
  rw [hagent agent rfl] at hpaired
  obtain ⟨box, hbox⟩ := Option.isSome_iff_exists.mp hpaired.symm
  obtain ⟨hcapacity, hshare⟩ := htended.regular box (mem_boxes_of_mailbox? hbox)
  have hresult := EventQueue.result_enqueue hcapacity hshare event
  have harrival : EventQueue.arrival Settings.queueCapacity Settings.queueWatermark = .ok true :=
    EventQueue.arrival_eq_ok_iff.mpr ⟨fun _ => by decide +kernel, by decide⟩
  simp only [hbox]
  rw [hresult, harrival]
  split <;> exact ⟨_, rfl⟩

/-- What can be inspected is what has an interpreter. -/
theorem map_isSome_inspect (h : Tended chart past m) (lead : String) (limit : Option Int) :
    (m.inspect lead limit).map Option.isSome = .ok (m.agent? lead).isSome := by
  have hpaired := h.paired lead
  unfold inspect
  rcases hagent : m.agent? lead with _ | agent
  · rfl
  · rw [hagent] at hpaired
    obtain ⟨box, hbox⟩ := Option.isSome_iff_exists.mp hpaired.symm
    obtain ⟨s, hrests, -⟩ := h.storable.run_of_agent? hagent
    rw [hbox]
    simp only [Interpreter.shown, hrests.snapshot_eq]
    rfl

/-- The leads that there are have an interpreter and a queue. -/
theorem mem_leads_iff (h : Tended chart past m) (lead : String) :
    lead ∈ m.leads ↔ (m.mailbox? lead).isSome = true := by
  have hleads : (m.agent? lead).isSome = true ↔ lead ∈ m.leads :=
    Entries.get?_isSome_iff m.agents lead
  rw [← hleads, h.paired]

/-- The interpreter of a lead is under way or has come to its end. -/
theorem status (h : Tended chart past m) {lead : String} {agent : Agent}
    (hagent : m.agent? lead = some agent) :
    agent.interpreter.status = .running ∨ agent.interpreter.status = .done := by
  obtain ⟨s, hrests, -⟩ := h.storable.run_of_agent? hagent
  rw [hrests.status_eq, Chart.statusAt]
  split
  · exact .inr rfl
  · exact .inl rfl

/-- Neither other callbacks nor another time, if it can be read, change what has been heard. -/
theorem renew (h : Tended chart past m)
    (onChange : Option (String → Snapshot → List ChangeCommand))
    (onIgnored : Option (IgnoredEvent → Option Fault)) {now : Json}
    (hnow : ∃ time, Record.stamp now = .ok time) :
    Tended chart past { m with onChange := onChange, onIgnored := onIgnored, now := now } where
  storable := h.storable.of_eq rfl rfl (Nat.le_refl _)
  numbered := h.numbered.of_eq rfl rfl rfl rfl rfl
  paired := h.paired
  regular := h.regular
  retired := h.retired
  readable := hnow
  heard := ⟨h.heard.notes_eq, h.heard.complaints_eq⟩
  news := h.news

end Manager.Tended

/-- A manager without leads has heard nothing. -/
theorem Manager.tended_fresh (chart : Chart) (policy : Policy) {telemetry : Telemetry}
    (htelemetry : telemetry.complaints = []) :
    Tended chart [] (fresh chart policy telemetry) where
  storable := storable_fresh chart policy telemetry
  numbered := numbered_fresh chart policy telemetry
  paired := fun _ => rfl
  regular := List.forall_mem_nil _
  retired := List.forall_mem_nil _
  readable := ⟨_, rfl⟩
  heard := ⟨rfl, htelemetry⟩
  news := fun _ hd => absurd hd List.not_mem_nil

namespace Office

open Manager

/-- Whatever is done in an office where the clock can be read, its leads are tended. -/
theorem tended_attendAll (policy : Policy) {telemetry : Telemetry}
    (htelemetry : telemetry.complaints = [])
    (onChange : Option (String → Snapshot → List ChangeCommand))
    (onIgnored : Option (IgnoredEvent → Option Fault)) (affairs : List Affair)
    (readable : ∀ now, .errand (.move (.clock now)) ∈ affairs →
      ∃ time, Record.stamp now = .ok time) :
    let o := opened Lead.chart policy telemetry onChange onIgnored
    Tended Lead.chart (o.history affairs) (o.attendAll affairs).manager := by
  intro o
  have hfresh := tended_fresh Lead.chart policy htelemetry
  have hopened : Tended Lead.chart [] o.manager := hfresh.renew onChange onIgnored hfresh.readable
  refine keeps_attendAll (Tended Lead.chart)
    (fun h hstep => h.step Lead.chart_exact hstep) (fun _ _ h => ?_) (fun hmem h => ?_) hopened
  · exact h.renew _ _ h.readable
  · exact h.renew _ _ (readable _ hmem)

/-- **Leads and who hears of them.** Whatever is done with the leads of an office, in whatever
order, by whichever workers and with whatever callbacks, these removing leads or failing: the leads
that have an interpreter are those that have a queue, so an event can be put into the queue of every
lead, and what there is no inspection of is no lead. The interpreter of a lead runs or is done; what
was removed or replaced is stopped, belongs to no lead, and is not changed by any event. The
callback for changes is told of the events that the interpreters of leads were handed and after
which their path or their context was another one, of each once and of no other, with the name of
the lead and its new snapshot; and what it fails with is logged. -/
theorem attendAll_announces (policy : Policy) (enabled heard : Bool)
    (onChange : Option (String → Snapshot → List ChangeCommand))
    (onIgnored : Option (IgnoredEvent → Option Fault)) (affairs : List Affair)
    (readable : ∀ now, .errand (.move (.clock now)) ∈ affairs →
      ∃ time, Record.stamp now = .ok time) :
    let o := opened Lead.chart policy (.fresh enabled heard) onChange onIgnored
    let m := (o.attendAll affairs).manager
    (∀ lead, (lead ∈ m.leads ↔ (m.mailbox? lead).isSome = true) ∧
      (∀ event, ∃ accepted, (m.enqueue lead event).2 = .ok accepted) ∧
      ∀ limit, (m.inspect lead limit).map Option.isSome = .ok (decide (lead ∈ m.leads))) ∧
    (∀ lead agent, m.agent? lead = some agent →
      (agent.interpreter.status = .running ∨ agent.interpreter.status = .done) ∧
        m.leadOf? agent.ticket = some lead) ∧
    (∀ agent ∈ m.formerAgents,
      agent.interpreter.status = .stopped ∧ m.leadOf? agent.ticket = none) ∧
    (∀ d ∈ o.deliveries affairs, d.lead = none →
      d.after.interpreter.observe = d.agent.interpreter.observe) ∧
    m.notes.filterMap LeadNote.change? =
      ((o.deliveries affairs).filterMap Delivery.heard?).map (fun news => (news.1, news.2.value)) ∧
    m.telemetry.complaints = (o.deliveries affairs).filterMap Delivery.complaint? := by
  intro o m
  have htended : Tended Lead.chart (o.history affairs) m :=
    tended_attendAll policy rfl onChange onIgnored affairs readable
  have hechoing := o.echoing_history affairs
  have hechoes (d : Delivery) (hd : .called d ∈ o.history affairs) :=
    d.filterMap_echoes (htended.news d hd).1
  refine ⟨fun lead => ⟨htended.mem_leads_iff lead, htended.exists_enqueue Lead.chart_exact lead,
      fun limit => ?_⟩,
    fun lead agent hagent => ⟨htended.status hagent, htended.numbered.leadOf?_of_agent? hagent⟩,
    fun agent hformer => ⟨htended.retired agent hformer,
      htended.numbered.leadOf?_of_former hformer⟩, fun d hd => ?_, ?_, ?_⟩
  · rw [htended.map_isSome_inspect, htended.paired, Except.ok.injEq, Bool.eq_iff_iff,
      decide_eq_true_iff, htended.mem_leads_iff]
  · obtain ⟨x, hx, hdelivery⟩ := List.mem_filterMap.mp hd
    cases x with
    | called d' => exact (htended.news d (Option.some.inj hdelivery ▸ hx)).2
    | told | complained | offered | taken => cases hdelivery
  · rw [htended.heard.notes_eq, List.map_filterMap]
    exact hechoing.filterMap_eq (by intro x hx; cases x <;> first | rfl | cases hx)
      fun d hd => (hechoes d hd).1
  · rw [htended.heard.complaints_eq]
    exact hechoing.filterMap_eq (by intro x hx; cases x <;> first | rfl | cases hx)
      fun d hd => (hechoes d hd).2

/-- A lead books a meeting twice and is removed; its interpreter is handed an event even then, and
the lead comes again. -/
def returning : List Affair :=
  [.errand (.move (.clock (.int 5))), .errand (.move (.send "ada" "meeting.booked")),
    .errand (.move (.send "ada" "meeting.booked")), .errand (.move (.remove "ada")),
    .call 0 "goal.hit", .errand (.move (.send "ada" "goal.hit"))]

set_option maxRecDepth 10000 in
/-- Of four events two are heard of: the second booking changes nothing, and a removed interpreter
is no lead's. The callback fails both times, which is logged. -/
theorem attendAll_announces_returning :
    let complaining : String → Snapshot → List ChangeCommand :=
      fun lead snapshot => [.fail (lead ++ " is " ++ snapshot.value)]
    let o := opened Lead.chart .reset (.fresh true false) (some complaining) none
    let heard := (o.deliveries returning).filterMap Delivery.heard?
    (∀ now, .errand (.move (.clock now)) ∈ returning → ∃ time, Record.stamp now = .ok time) ∧
      (o.deliveries returning).map Delivery.lead = [some "ada", some "ada", none, some "ada"] ∧
      heard.map (fun news => (news.1, news.2.value)) =
        [("ada", "active.conversion.meeting_booked"), ("ada", "goal_hit")] ∧
      (o.deliveries returning).filterMap Delivery.complaint? =
        [("ada", "ada is active.conversion.meeting_booked"), ("ada", "ada is goal_hit")] := by
  intro complaining o heard
  have hreadable : ∀ now, .errand (.move (.clock now)) ∈ returning →
      ∃ time, Record.stamp now = .ok time := by
    intro now hnow
    obtain rfl : now = .int 5 := by simpa [returning] using hnow
    exact ⟨_, rfl⟩
  obtain ⟨-, -, -, -, hnotes, hcomplaints⟩ :=
    attendAll_announces .reset true false (some complaining) none returning hreadable
  refine ⟨hreadable, by decide +kernel, hnotes.symm.trans ?_, hcomplaints.symm.trans ?_⟩ <;>
    decide +kernel

end Office

end Lifecycle
