import Lifecycle.Lead.Persist
import Lifecycle.Proofs.Interpreter.Storage
import Lifecycle.Proofs.Lead.Draining
import Lifecycle.Proofs.Lead.Office
import Lifecycle.Proofs.Lead.Reports
import Lifecycle.Proofs.Store.LeadsFile

/-!
# Managers whose leads can be stored

All interpreters of leads can be stored (`Manager.Storable`), whatever is done in an office: events
are sent, workers take turns, callbacks remove leads, and files are loaded that anybody may have
written (`Office.storable_carryOutAll`). Each operation keeps this, because each puts interpreters in
their places that can be stored.
-/

namespace Lifecycle

namespace Ticketed

variable {α : Type} {ticket : α → Nat} {next later : Nat} {entries : Entries α} {lead : String}
  {new : α}

theorem mono (h : Ticketed ticket next entries) (hle : next ≤ later) :
    Ticketed ticket later entries :=
  ⟨h.nodup_keys, h.nodup_tickets, fun number hnumber =>
    Nat.lt_of_lt_of_le (h.ticket_lt number hnumber) hle⟩

theorem sublist {others : Entries α} (h : Ticketed ticket next entries)
    (hsub : others.Sublist entries) : Ticketed ticket next others :=
  ⟨h.nodup_keys.sublist (hsub.map _), h.nodup_tickets.sublist (hsub.map _),
    fun number hnumber => h.ticket_lt number ((hsub.map _).subset hnumber)⟩

/-- A key, new or not, gets a value with a new ticket. -/
theorem renew (h : Ticketed ticket next entries) (hle : next ≤ ticket new)
    (hlt : ticket new < later) : Ticketed ticket later (Entries.set entries lead new) := by
  rcases hget : Entries.get? entries lead with _ | old
  · exact h.add hget hle hlt
  have hkeys := Entries.keys_set entries lead new
  rw [if_pos ((Entries.get?_isSome_iff entries lead).mp (hget ▸ rfl))] at hkeys
  have htickets : (Entries.set entries lead new).map (fun entry => ticket entry.2) =
      entries.map fun entry => if entry.1 = lead then ticket new else ticket entry.2 := by
    rw [Entries.set_eq_map h.nodup_keys (hget ▸ rfl), List.map_map]
    refine List.map_congr_left fun entry _ => ?_
    exact apply_ite ticket _ _ _
  have hlt' : ∀ entry ∈ entries, ticket entry.2 < next :=
    fun entry hentry => h.ticket_lt _ (List.mem_map_of_mem hentry)
  refine ⟨hkeys ▸ h.nodup_keys, ?_, ?_⟩
  · rw [htickets]
    refine List.Nodup.map_on (fun x hx y hy heq => ?_) (List.Nodup.of_map _ h.nodup_keys)
    have hx' := hlt' x hx
    have hy' := hlt' y hy
    split at heq <;> split at heq
    · rename_i hxlead hylead
      exact List.inj_on_of_nodup_map h.nodup_keys hx hy (hxlead.trans hylead.symm)
    · omega
    · omega
    · exact List.inj_on_of_nodup_map h.nodup_tickets hx hy heq
  · rw [htickets, List.forall_mem_map]
    intro entry hentry
    have := hlt' entry hentry
    split <;> omega

/-- Values at different keys have different tickets. -/
theorem ticket_ne {other : String} {old found : α} (h : Ticketed ticket next entries)
    (hold : Entries.get? entries lead = some old)
    (hfound : Entries.get? entries other = some found) (hne : other ≠ lead) :
    ticket found ≠ ticket old := by
  intro heq
  obtain ⟨key, hmem, hkey⟩ := Entries.exists_mem_of_get? hfound
  cases h.key_eq hold hmem heq
  exact hne (eq_of_beq hkey).symm

/-- A value is put in the place of the one with the same ticket. -/
theorem replace (h : Ticketed ticket next entries) (new : α) :
    Ticketed ticket next (entries.map fun entry =>
      (entry.1, if ticket entry.2 = ticket new then new else entry.2)) := by
  have hkeys : Entries.keys (entries.map fun entry =>
      (entry.1, if ticket entry.2 = ticket new then new else entry.2)) = Entries.keys entries := by
    rw [Entries.keys, List.map_map]
    rfl
  have htickets : (entries.map fun entry =>
      (entry.1, if ticket entry.2 = ticket new then new else entry.2)).map
        (fun entry => ticket entry.2) = entries.map fun entry => ticket entry.2 := by
    rw [List.map_map]
    refine List.map_congr_left fun entry _ => ?_
    simp only [Function.comp_apply]
    split
    · rename_i hticket
      exact hticket.symm
    · rfl
  exact ⟨hkeys ▸ h.nodup_keys, htickets ▸ h.nodup_tickets, htickets ▸ h.ticket_lt⟩

end Ticketed

namespace Manager

variable {chart : Chart} {m m' : Manager} {lead event : String} {agent : Agent}
  {interpreter : Interpreter}

/-! ## Loading -/

section Loading

variable {P : Manager → Prop}
  (takeOver : ∀ {m : Manager} (lead : String) {layout : Json}, layout.unrepeated = true → P m →
    P (m.loadLead lead layout).1)

include takeOver

theorem loadLeads_induction {leads : List (String × Json)}
    (hun : ∀ entry ∈ leads, entry.2.unrepeated = true) (h : P m) : P (loadLeads leads m).1 := by
  induction leads generalizing m with
  | nil => exact h
  | cons entry rest ih =>
    obtain ⟨hentry, hrest⟩ := List.forall_mem_cons.mp hun
    have hloaded := takeOver entry.1 hentry h
    rw [loadLeads]
    generalize m.loadLead entry.1 entry.2 = loaded at hloaded
    obtain ⟨m', _ | fault⟩ := loaded
    · exact ih hrest hloaded
    · exact hloaded

/-- What holds of a manager holds after it loads a file, whoever wrote it, if reports and leads that
are taken over keep it. -/
theorem load_induction
    (report : ∀ {m : Manager} {signals : List Signal}, (∀ signal ∈ signals, signal.IsPlain) →
      P m → P (m.report signals))
    (h : P m) (disk : Disk) (route : Route) : P (m.load disk route).1 := by
  have hloaded : ∀ leads,
      (LeadsFile.load disk route (.int Settings.persistVersion)).2 = .ok (some leads) →
        ∀ lead ∈ leads, lead.2.unrepeated = true :=
    fun _ => LeadsFile.unrepeated_of_load
  have hfound := report (LeadsFile.plain_load disk route (.int Settings.persistVersion)) h
  unfold load
  generalize LeadsFile.load disk route (.int Settings.persistVersion) = found at hloaded hfound
  obtain ⟨signals, fault | _ | leads⟩ := found
  · exact hfound
  · exact hfound
  · have hleads := loadLeads_induction takeOver (hloaded leads rfl) hfound
    dsimp only
    generalize loadLeads leads _ = taken at hleads
    obtain ⟨m', _ | fault⟩ := taken
    · exact report (List.forall_mem_singleton.mpr trivial) hleads
    · exact hleads

end Loading

/-! ## Interpreters that can be stored -/

/-- A manager of a chart all of whose interpreters can be stored. -/
structure Storable (m : Manager) (chart : Chart) : Prop where
  chart_eq : m.chart = chart
  agents : Ticketed Agent.ticket m.nextTicket m.agents
  runs : ∀ entry ∈ m.agents, entry.2.interpreter.Storable chart

/-- Where runs can be stored, one can be started for any lead. -/
theorem launch_eq_of_storing (storing : chart.Storing) (hchart : m.chart = chart) (lead : String) :
    m.launch lead = (m.report (Interpreter.fresh chart chart.context (some lead)).start.signals,
      .ok (Interpreter.started chart chart.context (some lead))) := by
  obtain ⟨⟨snapshot, hresult, -⟩, -⟩ := Interpreter.storable_started storing (some lead)
  rw [launch, hchart]
  simp only [hresult, Except.map]
  rfl

namespace Storable

/-- What happens to anything but the interpreters of leads. -/
theorem of_eq (h : m.Storable chart) (hchart : m'.chart = m.chart) (hagents : m'.agents = m.agents)
    (hnext : m.nextTicket ≤ m'.nextTicket) : m'.Storable chart := by
  obtain ⟨hchart', hticketed, hruns⟩ := h
  refine ⟨hchart.trans hchart', ?_, ?_⟩
  · rw [hagents]
    exact hticketed.mono hnext
  · rw [hagents]
    exact hruns

theorem alike (h : m.Storable chart) (halike : m.Alike m') : m'.Storable chart := by
  obtain ⟨notes, telemetry, rfl⟩ := halike
  exact h.of_eq rfl rfl (Nat.le_refl _)

theorem report (h : m.Storable chart) (signals : List Signal) : (m.report signals).Storable chart :=
  h.of_eq rfl rfl (Nat.le_refl _)

theorem run_of_agent? (h : m.Storable chart) (hagent : m.agent? lead = some agent) :
    agent.interpreter.Storable chart := by
  obtain ⟨key, hmem, -⟩ := Entries.exists_mem_of_get? hagent
  exact h.runs _ hmem

/-! ## Interpreters that come and go -/

theorem remove (h : m.Storable chart) (lead : String) : (m.remove lead).Storable chart := by
  have herased : ({ m with agents := Entries.erase m.agents lead } : Manager).Storable chart :=
    ⟨h.chart_eq, h.agents.sublist List.filter_sublist,
      fun entry hentry => h.runs entry (List.mem_of_mem_filter hentry)⟩
  unfold Manager.remove
  cases m.agent? lead with
  | none => exact h.of_eq rfl rfl (Nat.le_refl _)
  | some agent => exact herased.of_eq rfl rfl (Nat.le_refl _)

theorem attach (h : m.Storable chart) (lead : String) (hrun : interpreter.Storable chart) :
    (m.attach lead interpreter).Storable chart := by
  have hticketed : Ticketed Agent.ticket (m.nextTicket + 1)
      (Entries.set m.agents lead ⟨m.nextTicket, interpreter⟩) :=
    h.agents.renew (Nat.le_refl _) (Nat.lt_succ_self _)
  have hseated : ({ m with
      agents := Entries.set m.agents lead ⟨m.nextTicket, interpreter⟩
      nextTicket := m.nextTicket + 1 } : Manager).Storable chart := by
    refine ⟨h.chart_eq, hticketed, fun entry hentry => ?_⟩
    have hget := Entries.get?_of_mem hticketed.nodup_keys hentry
    rw [Entries.get?_set] at hget
    split at hget
    · rw [← Option.some.inj hget]
      exact hrun
    · exact h.run_of_agent? hget
  rw [attach_eq]
  exact hseated.of_eq rfl rfl (by dsimp only; split <;> omega)

/-- An interpreter is put in the place of another one. -/
theorem putAgent (h : m.Storable chart) (ticket : Nat) (hrun : interpreter.Storable chart) :
    (m.putAgent ⟨ticket, interpreter⟩).Storable chart := by
  refine ⟨h.chart_eq, h.agents.replace ⟨ticket, interpreter⟩, ?_⟩
  rw [Manager.putAgent, List.forall_mem_map]
  intro entry hentry
  dsimp only
  split
  · exact hrun
  · exact h.runs entry hentry

theorem install (h : m.Storable chart) (lead : String) (hrun : interpreter.Storable chart) :
    (m.install lead interpreter).Storable chart := by
  unfold Manager.install
  split
  · rename_i agent _
    have hretired : (m.retire agent).Storable chart := h.of_eq rfl rfl (Nat.le_refl _)
    exact hretired.attach lead hrun
  · exact h.attach lead hrun

/-! ## Callbacks -/

theorem perform (commands : List ChangeCommand) (h : m.Storable chart) :
    (perform commands m).1.Storable chart := by
  induction commands generalizing m with
  | nil => exact h
  | cons command rest ih =>
    cases command with
    | fail text => exact h
    | remove lead => exact ih (h.remove lead)

theorem tellChange (h : m.Storable chart) (lead name : String) (snapshot : Snapshot) :
    (m.tellChange lead name snapshot).Storable chart := by
  unfold Manager.tellChange
  split
  · exact h
  · rename_i callback _
    have hnoted : ({ m with notes := m.notes ++ [.changed lead snapshot.value] } : Manager).Storable
        chart := h.of_eq rfl rfl (Nat.le_refl _)
    have hperform := hnoted.perform (callback lead snapshot)
    dsimp only
    split
    · rename_i after hafter
      rwa [hafter] at hperform
    · rename_i after fault hafter
      rw [hafter] at hperform
      exact hperform.report _

/-! ## Events -/

section Storing

variable (storing : chart.Storing)

include storing

theorem deliver (h : m.Storable chart) (hrun : agent.interpreter.Storable chart) (event : String) :
    (m.deliver agent event).1.Storable chart := by
  have hcall := (h.putAgent agent.ticket (hrun.dispatch storing m.now event)).report
    (agent.interpreter.dispatch m.now event).signals
  unfold Manager.deliver
  dsimp only
  split
  · exact hcall
  · exact hcall
  · split
    · exact hcall.tellChange _ _ _
    · exact hcall
  · split
    · exact hcall.alike (alike_tellIgnored _ _ _ _)
    · exact hcall

/-- An interpreter can be started for every lead. -/
theorem launch_eq (h : m.Storable chart) (lead : String) :
    ∃ m', m.launch lead = (m', .ok (Interpreter.started chart chart.context (some lead))) ∧
      m.Alike m' ∧ (Interpreter.started chart chart.context (some lead)).Storable chart :=
  ⟨_, launch_eq_of_storing storing h.chart_eq lead, alike_report m _,
    (Interpreter.storable_started storing (some lead)).2⟩

/-- A lead is given an interpreter that can be stored. -/
theorem getOrCreate (h : m.Storable chart) (lead : String) :
    (m.getOrCreate lead).1.Storable chart ∧
      ∀ agent, (m.getOrCreate lead).2 = .ok agent → agent.interpreter.Storable chart := by
  unfold Manager.getOrCreate
  rcases hagent : m.agent? lead with _ | agent
  · obtain ⟨m', hlaunch, halike, hrun⟩ := h.launch_eq storing lead
    simp only [hlaunch]
    refine ⟨((h.alike halike).attach lead hrun).report _, fun agent heq => ?_⟩
    rw [← Except.ok.inj heq]
    exact hrun
  · refine ⟨h, fun found heq => ?_⟩
    rw [← Except.ok.inj heq]
    exact h.run_of_agent? hagent

theorem send (h : m.Storable chart) (lead event : String) :
    (m.send lead event).1.Storable chart := by
  obtain ⟨hcreate, hrun⟩ := h.getOrCreate storing lead
  unfold Manager.send
  generalize m.getOrCreate lead = created at hcreate hrun
  obtain ⟨created, fault | agent⟩ := created
  · exact hcreate
  · exact hcreate.deliver storing (hrun agent rfl) event

theorem enqueue (h : m.Storable chart) (lead event : String) :
    (m.enqueue lead event).1.Storable chart := by
  obtain ⟨hcreate, -⟩ := h.getOrCreate storing lead
  unfold Manager.enqueue
  generalize m.getOrCreate lead = created at hcreate
  obtain ⟨created, fault | agent⟩ := created
  · exact hcreate
  · dsimp only
    split
    · exact hcreate
    · exact hcreate.of_eq rfl rfl (Nat.le_refl _)

/-! ## Files -/

/-- A lead of a file is taken over, whatever its layout. -/
theorem loadLead (h : m.Storable chart) (lead : String) {layout : Json}
    (hun : layout.unrepeated = true) : (m.loadLead lead layout).1.Storable chart := by
  unfold Manager.loadLead
  split
  · rename_i interpreter hrevived
    refine (h.report _).install lead ?_
    rw [h.chart_eq] at hrevived
    obtain ⟨checked, hchecked, hlayout⟩ := bind_eq_ok.mp hrevived
    exact Interpreter.storable_ofLayout storing (Layout.nodup_history hun hchecked) hlayout
  · rename_i corruption _
    have htold := h.report [.log (.leadCorrupt lead corruption.message),
      .count "persist.error" [("op", "restore"), ("policy", m.policy.word)]]
    dsimp only
    split
    · exact htold
    · obtain ⟨m', hlaunch, halike, hrun⟩ := htold.launch_eq storing lead
      simp only [hlaunch]
      exact (htold.alike halike).install lead hrun

/-- A file is loaded, whoever wrote it. -/
theorem load (h : m.Storable chart) (disk : Disk) (route : Route) :
    (m.load disk route).1.Storable chart :=
  load_induction (P := fun m => m.Storable chart)
    (fun lead _ hun h => h.loadLead storing lead hun) (fun _ h => h.report _) h disk route

end Storing

theorem save (h : m.Storable chart) (disk : Disk) (route : Route) :
    (m.save disk route).1.Storable chart := by
  unfold Manager.save
  split
  · exact h
  · exact h.report _

end Storable

/-- A manager without leads has none that cannot be stored. -/
theorem storable_fresh (chart : Chart) (policy : Policy) (telemetry : Telemetry) :
    (fresh chart policy telemetry).Storable chart :=
  ⟨rfl, ⟨.nil, .nil, List.forall_mem_nil _⟩, List.forall_mem_nil _⟩

end Manager

namespace Worker

open Manager

variable {chart : Chart} {m : Manager} {w : Worker} (storing : chart.Storing)

theorem storable_mark (h : m.Storable chart) (ticket : Nat) (processing : Bool) :
    (mark m ticket processing).Storable chart := by
  unfold mark
  split
  · exact h
  · exact h.of_eq rfl rfl (Nat.le_refl _)

include storing

theorem storable_takeEvent (h : m.Storable chart) (w : Worker) (lead : String) (ticket : Nat) :
    (takeEvent m w lead ticket).1.Storable chart := by
  unfold takeEvent release
  split
  · exact storable_mark h ticket false
  · rename_i response _
    have hput : ((m.putMailbox ⟨ticket, response.state⟩).report response.signals).Storable chart :=
      h.of_eq rfl rfl (Nat.le_refl _)
    dsimp only
    split
    · rename_i event agent _ hagent
      have hdelivered := hput.deliver storing (hput.run_of_agent? hagent) event
      generalize deliver _ agent event = delivered at hdelivered
      obtain ⟨m', fault | snapshot⟩ := delivered
      · exact storable_mark hdelivered ticket false
      · exact hdelivered
    · exact storable_mark hput ticket false

theorem storable_seek (leads : List String) (h : m.Storable chart) :
    (seek leads m w).1.Storable chart := by
  induction leads generalizing m w with
  | nil => exact h
  | cons lead rest ih =>
    unfold seek
    split
    · exact ih h
    · rename_i box _
      split
      · exact ih h
      · have htaken := storable_takeEvent storing (storable_mark h box.ticket true)
          { w with claim := some (lead, box.ticket), remaining := some rest } lead box.ticket
        dsimp only
        generalize takeEvent _ _ lead box.ticket = taken at htaken
        obtain ⟨m', after, _ | turn⟩ := taken
        · exact ih htaken
        · exact htaken

/-- A turn leaves the leads storable. -/
theorem storable_advance (h : m.Storable chart) (w : Worker) :
    (advance m w).1.Storable chart := by
  unfold advance
  split
  · exact storable_seek storing _ h
  · rename_i lead ticket _
    have htaken := storable_takeEvent storing h w lead ticket
    generalize takeEvent m w lead ticket = taken at htaken
    obtain ⟨m', after, _ | turn⟩ := taken
    · exact storable_seek storing _ htaken
    · exact htaken

end Worker

namespace Office

variable {chart : Chart} {o : Office} (storing : chart.Storing)

/-- What is done with an office: a move is made in it, other callbacks are set, or its leads are
saved in a file or loaded from one. -/
inductive Errand where
  | move (move : Move)
  | listen (onChange : Option (String → Snapshot → List ChangeCommand))
      (onIgnored : Option (IgnoredEvent → Option Fault))
  | save (disk : Disk) (route : Route)
  | load (disk : Disk) (route : Route)

/-- Does one thing. -/
def carryOut (o : Office) : Errand → Office
  | .move move => o.act move
  | .listen onChange onIgnored =>
    { o with manager := { o.manager with onChange := onChange, onIgnored := onIgnored } }
  | .save disk route => { o with manager := (o.manager.save disk route).1 }
  | .load disk route => { o with manager := (o.manager.load disk route).1 }

/-- Does one thing after the other. -/
def carryOutAll (o : Office) (errands : List Errand) : Office := errands.foldl carryOut o

include storing

theorem storable_turn (h : o.manager.Storable chart) (i : Nat) :
    (o.turn i).manager.Storable chart := by
  unfold Office.turn
  split
  · rename_i w _
    have hadvanced := Worker.storable_advance storing h w
    generalize Worker.advance o.manager w = result at hadvanced
    obtain ⟨m, after, _ | _ | fault⟩ := result <;> exact hadvanced
  · exact h

theorem storable_act (h : o.manager.Storable chart) (move : Move) :
    (o.act move).manager.Storable chart := by
  cases move with
  | clock now => exact h.of_eq rfl rfl (Nat.le_refl _)
  | create lead => exact (h.getOrCreate storing lead).1
  | send lead event => exact h.send storing lead event
  | enqueue lead event => exact h.enqueue storing lead event
  | remove lead => exact h.remove lead
  | hire target => exact h
  | turn i => exact storable_turn storing h i

/-- Whatever is done leaves the leads storable. -/
theorem storable_carryOut (h : o.manager.Storable chart) (errand : Errand) :
    (o.carryOut errand).manager.Storable chart := by
  cases errand with
  | move move => exact storable_act storing h move
  | listen onChange onIgnored => exact h.of_eq rfl rfl (Nat.le_refl _)
  | save disk route => exact h.save disk route
  | load disk route => exact h.load storing disk route

theorem storable_carryOutAll (h : o.manager.Storable chart) (errands : List Errand) :
    (o.carryOutAll errands).manager.Storable chart := by
  induction errands generalizing o with
  | nil => exact h
  | cons errand rest ih => exact ih (storable_carryOut storing h errand)

end Office

set_option maxRecDepth 10000 in
/-- Leads can be stored. -/
theorem Lead.chart_storing : Lead.chart.Storing where
  built := chart_built
  maps := chart_mapsContexts
  isText := by decide +kernel
  isBasic := List.all_eq_true.mp (by decide +kernel)
  ends leaf _ := Chart.completesNothing_of_onDone (by decide +kernel) leaf

end Lifecycle
