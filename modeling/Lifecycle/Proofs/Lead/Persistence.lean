import Lifecycle.Proofs.Lead.Storage

/-!
# Leads that are saved and loaded

Two managers whose leads are in lockstep (`Manager.Shadows`) show the same of every lead, and an
event that is sent to both keeps them so (`Shadows.send`). A new manager that loads what another one
has saved shadows it (`shadows_load`), so that from then on the two are told apart by no events
(`save_load`).
-/

namespace Lifecycle

namespace Manager

variable {chart : Chart} {m m' m₁ m₂ m₃ : Manager} {lead event : String} {agent : Agent}
  {interpreter : Interpreter}

/-! ## What an operation does to the leads -/

/-- One manager agrees with another in its leads, its chart, its callback for changes and its
clock. -/
structure Coincides (m m' : Manager) : Prop where
  agents_eq : m'.agents = m.agents
  chart_eq : m'.chart = m.chart
  onChange_eq : m'.onChange = m.onChange
  now_eq : m'.now = m.now

namespace Coincides

theorem refl (m : Manager) : m.Coincides m := ⟨rfl, rfl, rfl, rfl⟩

theorem trans (h : m₁.Coincides m₂) (h' : m₂.Coincides m₃) : m₁.Coincides m₃ :=
  ⟨h'.agents_eq.trans h.agents_eq, h'.chart_eq.trans h.chart_eq,
    h'.onChange_eq.trans h.onChange_eq, h'.now_eq.trans h.now_eq⟩

theorem leads_eq (h : m.Coincides m') : m'.leads = m.leads :=
  congrArg Entries.keys h.agents_eq

theorem interpreterOf_eq (h : m.Coincides m') : m'.interpreterOf = m.interpreterOf := by
  funext lead
  rw [interpreterOf, interpreterOf, agent?, agent?, h.agents_eq, h.chart_eq]

theorem setInterpreter (h : m.Coincides m') (lead : String) (ticket : Nat)
    (interpreter : Interpreter) :
    (m.setInterpreter lead ticket interpreter).Coincides
      (m'.setInterpreter lead ticket interpreter) :=
  ⟨congrArg (fun agents => Entries.set agents lead (⟨ticket, interpreter⟩ : Agent)) h.agents_eq,
    h.chart_eq, h.onChange_eq, h.now_eq⟩

end Coincides

theorem Alike.coincides (h : m.Alike m') : m.Coincides m' := by
  obtain ⟨notes, telemetry, rfl⟩ := h
  exact ⟨rfl, rfl, rfl, rfl⟩

theorem coincides_attach (m : Manager) (lead : String) (interpreter : Interpreter) :
    (m.setInterpreter lead m.nextTicket interpreter).Coincides (m.attach lead interpreter) := by
  rw [attach_eq]
  exact ⟨rfl, rfl, rfl, rfl⟩

theorem coincides_install (m : Manager) (lead : String) (interpreter : Interpreter) :
    (m.setInterpreter lead m.nextTicket interpreter).Coincides (m.install lead interpreter) := by
  unfold install
  split
  · rename_i agent _
    have hretire : m.Coincides (m.retire agent) := ⟨rfl, rfl, rfl, rfl⟩
    exact (hretire.setInterpreter lead m.nextTicket interpreter).trans
      (coincides_attach (m.retire agent) lead interpreter)
  · exact coincides_attach m lead interpreter

theorem leads_setInterpreter (m : Manager) (lead : String) (ticket : Nat)
    (interpreter : Interpreter) : (m.setInterpreter lead ticket interpreter).leads =
      if lead ∈ m.leads then m.leads else m.leads ++ [lead] :=
  Entries.keys_set m.agents lead ⟨ticket, interpreter⟩

theorem agent?_isSome_iff : (m.agent? lead).isSome = true ↔ lead ∈ m.leads :=
  Entries.get?_isSome_iff m.agents lead

section Storing

variable (storing : chart.Storing)

include storing

/-- A lead that is not there yet is started. -/
theorem Storable.getOrCreate_spec (h : m.Storable chart) (lead : String) :
    ∃ m' agent, m.getOrCreate lead = (m', .ok agent) ∧ m'.agent? lead = some agent ∧
      agent.interpreter = m.interpreterOf lead ∧
      (m.setInterpreter lead agent.ticket agent.interpreter).Coincides m' := by
  unfold Manager.getOrCreate
  rcases hagent : m.agent? lead with _ | agent
  · obtain ⟨started, hlaunch, halike, -⟩ := h.launch_eq storing lead
    have hcoincides := halike.coincides
    set run := Interpreter.started chart chart.context (some lead)
    have hattach : (m.setInterpreter lead started.nextTicket run).Coincides
        ((started.attach lead run).report [.log (.leadCreated lead)]) :=
      ((hcoincides.setInterpreter lead started.nextTicket run).trans
        (coincides_attach started lead run)).trans (alike_report _ _).coincides
    simp only [hlaunch]
    refine ⟨_, _, rfl, ?_, ?_, hattach⟩
    · rw [agent?, hattach.agents_eq]
      exact (agent?_setInterpreter m lead lead started.nextTicket run).trans (if_pos rfl)
    · rw [interpreterOf, hagent, h.chart_eq]
      rfl
  · refine ⟨m, agent, rfl, hagent, (interpreterOf_eq hagent).symm, ?_, rfl, rfl, rfl⟩
    exact (Entries.set_self hagent).symm

omit storing in
/-- A call changes the interpreter of its lead, whatever comes of it. -/
theorem Storable.deliver_spec (h : m.Storable chart) (hcalm : m.Calm)
    (hagent : m.agent? lead = some agent) (event : String) :
    (m.setInterpreter lead agent.ticket (agent.interpreter.dispatch m.now event).state).Coincides
      (m.deliver agent event).1 := by
  have hput : (m.setInterpreter lead agent.ticket
      (agent.interpreter.dispatch m.now event).state).Coincides
        ((m.putAgent ⟨agent.ticket, (agent.interpreter.dispatch m.now event).state⟩).report
          (agent.interpreter.dispatch m.now event).signals) :=
    ⟨h.agents.map_eq_set hagent rfl, rfl, rfl, rfl⟩
  have hcalm' : Calm ((m.putAgent ⟨agent.ticket,
      (agent.interpreter.dispatch m.now event).state⟩).report
        (agent.interpreter.dispatch m.now event).signals) := hcalm
  unfold Manager.deliver
  dsimp only
  split
  · exact hput
  · exact hput
  · split
    · exact hput.trans (hcalm'.alike_tellChange _ _ _).coincides
    · exact hput
  · split
    · exact hput.trans (alike_tellIgnored _ _ _ _).coincides
    · exact hput

/-- An event that is sent changes the interpreter of its lead, whatever comes of it. -/
theorem Storable.send_spec (h : m.Storable chart) (hcalm : m.Calm) (lead event : String) :
    ∃ ticket, (m.setInterpreter lead ticket
        ((m.interpreterOf lead).dispatch m.now event).state).Coincides (m.send lead event).1 := by
  obtain ⟨m', agent, hcreate, hagent, hrun, hcoincides⟩ := h.getOrCreate_spec storing lead
  have hstorable : m'.Storable chart := by
    have := (h.getOrCreate storing lead).1
    rwa [hcreate] at this
  have hcalm' : m'.Calm := fun callback hcallback =>
    hcalm callback (hcoincides.onChange_eq ▸ hcallback)
  have hdeliver := hstorable.deliver_spec hcalm' hagent event
  refine ⟨agent.ticket, ?_⟩
  unfold Manager.send
  rw [hcreate, ← hrun]
  refine Coincides.trans ?_ hdeliver
  have hnow : m'.now = m.now := hcoincides.now_eq
  rw [hnow]
  have hset := hcoincides.setInterpreter lead agent.ticket
    (agent.interpreter.dispatch m.now event).state
  rwa [Manager.setInterpreter, Manager.setInterpreter, Entries.set_set] at hset

end Storing

/-! ## Managers in lockstep -/

/-- Two managers have the same leads, and their interpreters are in lockstep. -/
structure Shadows (chart : Chart) (m m' : Manager) : Prop where
  leads_eq : m'.leads = m.leads
  lockstep (lead : String) :
    ∃ lag, Interpreter.Lockstep chart lag (m.interpreterOf lead) (m'.interpreterOf lead)

/-- Two managers show the same leads, with the same paths, contexts, histories, tags and statuses. -/
structure Mirrors (m m' : Manager) : Prop where
  leads_eq : m'.leads = m.leads
  snapshot {lead : String} : lead ∈ m.leads → ∃ a b, m.snapshot lead = .ok (some a) ∧
    m'.snapshot lead = .ok (some b) ∧ a.Matches b ∧ a.status = b.status

/-- Sends events to leads, each with what the clock shows then. -/
def sendAll (m : Manager) (sends : List (String × Call)) : Manager :=
  sends.foldl (fun m sent => (({ m with now := sent.2.now } : Manager).send sent.1 sent.2.event).1) m

theorem Shadows.coincides {n n' : Manager} (h : Shadows chart m m') (hm : m.Coincides n)
    (hm' : m'.Coincides n') : Shadows chart n n' := by
  refine ⟨(hm'.leads_eq.trans h.leads_eq).trans hm.leads_eq.symm, fun lead => ?_⟩
  rw [hm.interpreterOf_eq, hm'.interpreterOf_eq]
  exact h.lockstep lead

theorem Shadows.setInterpreter {run run' : Interpreter} {lag : Nat} (h : Shadows chart m m')
    (hrun : Interpreter.Lockstep chart lag run run') (lead : String) (ticket ticket' : Nat) :
    Shadows chart (m.setInterpreter lead ticket run) (m'.setInterpreter lead ticket' run') := by
  refine ⟨?_, fun other => ?_⟩
  · rw [leads_setInterpreter, leads_setInterpreter, h.leads_eq]
  · rw [interpreterOf_setInterpreter, interpreterOf_setInterpreter]
    rcases eq_or_ne other lead with rfl | hne
    · rw [Function.update_self, Function.update_self]
      exact ⟨lag, hrun⟩
    · rw [Function.update_of_ne hne, Function.update_of_ne hne]
      exact h.lockstep other

theorem calm_of_onChange (h : m.onChange = none) : m.Calm := by
  intro callback hcallback
  rw [h] at hcallback
  cases hcallback

theorem Storable.shown (h : m.Storable chart) (hlead : lead ∈ m.leads) :
    m.snapshot lead = .ok (some (m.interpreterOf lead).observe) := by
  obtain ⟨agent, hagent⟩ := Option.isSome_iff_exists.mp (agent?_isSome_iff.mpr hlead)
  obtain ⟨s, hrests, -⟩ := h.run_of_agent? hagent
  rw [snapshot, hagent, interpreterOf_eq hagent]
  show agent.interpreter.shown.map some = _
  rw [Interpreter.shown, hrests.snapshot_eq]
  rfl

/-- Managers in lockstep show the same. -/
theorem Shadows.mirrors (h : Shadows chart m m') (hm : m.Storable chart) (hm' : m'.Storable chart) :
    m.Mirrors m' := by
  refine ⟨h.leads_eq, fun {lead} hlead => ?_⟩
  obtain ⟨lag, hlockstep⟩ := h.lockstep lead
  have hmatches := hlockstep.observe
  exact ⟨_, _, hm.shown hlead, hm'.shown (h.leads_eq ▸ hlead), hmatches.toMatches,
    hmatches.status_eq⟩

section Storing

variable (storing : chart.Storing)

include storing

/-- An event that is sent to both keeps two managers in lockstep. -/
theorem Shadows.send (h : Shadows chart m m') (hm : m.Storable chart) (hm' : m'.Storable chart)
    (hcalm : m.Calm) (hcalm' : m'.Calm) (hnow : m'.now = m.now) (lead event : String) :
    Shadows chart (m.send lead event).1 (m'.send lead event).1 := by
  obtain ⟨ticket, hsend⟩ := hm.send_spec storing hcalm lead event
  obtain ⟨ticket', hsend'⟩ := hm'.send_spec storing hcalm' lead event
  obtain ⟨lag, hlockstep⟩ := h.lockstep lead
  have hdispatch := hlockstep.dispatch storing.built.arena storing.maps m.now event
  rw [hnow] at hsend'
  exact (h.setInterpreter hdispatch lead ticket ticket').coincides hsend hsend'

/-- Events that are sent to both keep two managers in lockstep. -/
theorem Shadows.sendAll (h : Shadows chart m m') (hm : m.Storable chart) (hm' : m'.Storable chart)
    (hcalm : m.Calm) (hcalm' : m'.Calm) (sends : List (String × Call)) :
    (m.sendAll sends).Mirrors (m'.sendAll sends) := by
  induction sends generalizing m m' with
  | nil => exact h.mirrors hm hm'
  | cons sent rest ih =>
    obtain ⟨lead, now, event⟩ := sent
    let n : Manager := { m with now := now }
    let n' : Manager := { m' with now := now }
    have hn : n.Storable chart := hm.of_eq rfl rfl (Nat.le_refl _)
    have hn' : n'.Storable chart := hm'.of_eq rfl rfl (Nat.le_refl _)
    have hshadows : Shadows chart n n' := ⟨h.leads_eq, h.lockstep⟩
    obtain ⟨_, hsend⟩ := hn.send_spec storing hcalm lead event
    obtain ⟨_, hsend'⟩ := hn'.send_spec storing hcalm' lead event
    exact ih (hshadows.send storing hn hn' hcalm hcalm' rfl lead event) (hn.send storing lead event)
      (hn'.send storing lead event)
      (fun callback hcallback => hcalm callback (hsend.onChange_eq ▸ hcallback))
      (fun callback hcallback => hcalm' callback (hsend'.onChange_eq ▸ hcallback))

/-! ## Loading what was saved -/

/-- A lead that was saved is revived in lockstep. -/
theorem exists_revive (hrun : interpreter.Storable chart) (lead : String) :
    ∃ revived, revive chart lead interpreter.observe.layout.toJson = .ok revived ∧
      Interpreter.Lockstep chart interpreter.version interpreter revived := by
  obtain ⟨revived, hlayout, hlockstep⟩ := hrun.exists_ofLayout storing (some lead)
  obtain ⟨hplain, -⟩ := hrun.layout_spec storing
  exact ⟨revived, bind_eq_ok.mpr ⟨_, Layout.check_toJson hplain, hlayout⟩, hlockstep⟩

/-- New leads are taken over one after the other, all in lockstep with those that were saved. -/
theorem loadLeads_spec {agents : Entries Agent} (hchart : m.chart = chart)
    (hruns : ∀ entry ∈ agents, entry.2.interpreter.Storable chart)
    (hkeys : (Entries.keys agents).Nodup) (hnew : ∀ lead ∈ Entries.keys agents, lead ∉ m.leads) :
    ∃ m', loadLeads (agents.map fun entry =>
        (entry.1, entry.2.interpreter.observe.layout.toJson)) m = (m', none) ∧
      m'.chart = chart ∧ m'.onChange = m.onChange ∧ m'.leads = m.leads ++ Entries.keys agents ∧
      (∀ entry ∈ agents, ∃ lag,
        Interpreter.Lockstep chart lag entry.2.interpreter (m'.interpreterOf entry.1)) ∧
      ∀ lead ∉ Entries.keys agents, m'.interpreterOf lead = m.interpreterOf lead := by
  induction agents generalizing m with
  | nil =>
    exact ⟨m, rfl, hchart, rfl, (List.append_nil _).symm, List.forall_mem_nil _, fun _ _ => rfl⟩
  | cons entry rest ih =>
    obtain ⟨lead, agent⟩ := entry
    obtain ⟨hrun, hruns⟩ := List.forall_mem_cons.mp hruns
    obtain ⟨hlead, hkeys⟩ := List.nodup_cons.mp hkeys
    obtain ⟨hleadNew, hnew⟩ := List.forall_mem_cons.mp hnew
    obtain ⟨revived, hrevive, hlockstep⟩ := exists_revive storing hrun lead
    have hload : m.loadLead lead agent.interpreter.observe.layout.toJson =
        ((m.report revived.restoredSignals).install lead revived, none) := by
      rw [loadLead, hchart, hrevive]
    have hreport := (alike_report m revived.restoredSignals).coincides
    have hinstall := (hreport.setInterpreter lead m.nextTicket revived).trans
      (coincides_install (m.report revived.restoredSignals) lead revived)
    generalize (m.report revived.restoredSignals).install lead revived = installed
      at hload hinstall
    have hleads : installed.leads = m.leads ++ [lead] :=
      hinstall.leads_eq.trans ((leads_setInterpreter m lead _ revived).trans (if_neg hleadNew))
    have hinterpreter :=
      hinstall.interpreterOf_eq.trans (interpreterOf_setInterpreter m lead _ revived)
    obtain ⟨m', hloads, hchart', honChange, hleads', hrest, hothers⟩ :=
      ih (hinstall.chart_eq.trans hchart) hruns hkeys fun other hother hmem => by
        rw [hleads] at hmem
        rcases List.mem_append.mp hmem with hmem | hmem
        · exact hnew other hother hmem
        · exact hlead (List.mem_singleton.mp hmem ▸ hother)
    refine ⟨m', ?_, hchart', honChange.trans hinstall.onChange_eq, ?_, ?_, fun other hother => ?_⟩
    · rw [List.map_cons, loadLeads, hload]
      exact hloads
    · rw [hleads', hleads, List.append_assoc]
      rfl
    · refine List.forall_mem_cons.mpr ⟨⟨agent.interpreter.version, ?_⟩, hrest⟩
      rw [hothers lead hlead, hinterpreter, Function.update_self]
      exact hlockstep
    · obtain ⟨hne, hother⟩ := not_or.mp (fun hor => hother (List.mem_cons.mpr hor))
      rw [hothers other hother, hinterpreter, Function.update_of_ne hne]

/-- A new manager that loads the leads of another one is in lockstep with it. -/
theorem shadows_load (h : m.Storable chart) (policy : Policy) (telemetry : Telemetry) {disk : Disk}
    {route : Route} {signals : List Signal}
    (hload : LeadsFile.load disk route (.int Settings.persistVersion) = (signals, .ok (some
      (m.agents.map fun entry => (entry.1, entry.2.interpreter.observe.layout.toJson))))) :
    ∃ loaded, (fresh chart policy telemetry).load disk route = (loaded, .ok true) ∧
      Shadows chart m loaded ∧ loaded.onChange = none := by
  let empty := (fresh chart policy telemetry).report signals
  obtain ⟨m', hloads, hchart, honChange, hleads, hruns, hothers⟩ :=
    loadLeads_spec (m := empty) storing rfl h.runs h.agents.nodup_keys fun _ _ => List.not_mem_nil
  have hreport := (alike_report m' [.log (.leadsLoaded m'.agents.length)]).coincides
  refine ⟨m'.report [.log (.leadsLoaded m'.agents.length)], ?_, ⟨hleads, fun lead => ?_⟩, honChange⟩
  · rw [Manager.load, hload]
    dsimp only
    rw [hloads]
  · rw [hreport.interpreterOf_eq]
    rcases hagent : m.agent? lead with _ | agent
    · have hlead : lead ∉ Entries.keys m.agents := fun hmem => by
        have := agent?_isSome_iff.mpr hmem
        rw [hagent] at this
        cases this
      have hstarted : m.interpreterOf lead = empty.interpreterOf lead := by
        rw [interpreterOf, hagent, h.chart_eq]
        rfl
      rw [hothers lead hlead, hstarted]
      exact ⟨0, (Interpreter.storable_started storing (some lead)).2.lockstep_refl⟩
    · obtain ⟨key, hmem, hkey⟩ := Entries.exists_mem_of_get? hagent
      obtain rfl := eq_of_beq hkey
      rw [interpreterOf_eq hagent]
      exact hruns _ hmem

/-- The layouts that leads show. -/
def shownLayouts (agents : Entries Agent) : Entries Layout :=
  agents.map fun entry => (entry.1, entry.2.interpreter.observe.layout)

/-- Leads as they are saved. -/
def savedLeads (agents : Entries Agent) : Entries LeadsFile.Saved :=
  (shownLayouts agents).map fun entry => (entry.1, .ofLayout entry.2)

omit storing in
theorem values_savedLeads (agents : Entries Agent) : LeadsFile.values (savedLeads agents) =
    agents.map fun entry => (entry.1, entry.2.interpreter.observe.layout.toJson) := by
  rw [LeadsFile.values, savedLeads, shownLayouts, List.map_map, List.map_map]
  rfl

omit storing in
theorem layouts_eq {agents : Entries Agent}
    (hruns : ∀ entry ∈ agents, entry.2.interpreter.Storable chart) :
    layouts agents = .ok (savedLeads agents) := by
  induction agents with
  | nil => rfl
  | cons entry rest ih =>
    obtain ⟨⟨s, hrests, -⟩, hrest⟩ := List.forall_mem_cons.mp hruns
    have hshown : entry.2.interpreter.shown = .ok entry.2.interpreter.observe := by
      rw [Interpreter.shown, hrests.snapshot_eq]
    rw [layouts, hshown, ih hrest]
    rfl

/-- What storable leads show can be saved and stays within the limits of reading. -/
theorem Storable.shownLayouts_spec (h : m.Storable chart) :
    ∀ entry ∈ shownLayouts m.agents, entry.2.Plain ∧ entry.2.toJson.unrepeated = true ∧
      entry.2.toJson.nesting ≤ 2 :=
  List.forall_mem_map.mpr fun entry hentry => (h.runs entry hentry).layout_spec storing

theorem Storable.isCanonical_savedLeads (h : m.Storable chart) :
    ∀ lead ∈ savedLeads m.agents, lead.2.IsCanonical :=
  List.forall_mem_map.mpr fun entry hentry =>
    LeadsFile.Saved.isCanonical_ofLayout (h.shownLayouts_spec storing entry hentry).1.isText

theorem Storable.nesting_savedLeads (h : m.Storable chart) : ∀ lead ∈ savedLeads m.agents,
    LeadsFile.leadDepth + lead.2.value.nesting ≤ LeadsFile.coverLimit :=
  List.forall_mem_map.mpr fun entry hentry =>
    Nat.le_trans (Nat.add_le_add_left (h.shownLayouts_spec storing entry hentry).2.2 2) (by decide)

theorem Storable.unrepeated_savedLeads (h : m.Storable chart) :
    (Json.obj (LeadsFile.values (savedLeads m.agents))).unrepeated = true := by
  rw [values_savedLeads]
  refine Json.unrepeated_obj_iff.mpr ⟨?_, List.forall_mem_map.mpr fun entry hentry =>
    ((h.runs entry hentry).layout_spec storing).2.1⟩
  rw [Entries.keys, List.map_map]
  exact h.agents.nodup_keys

omit storing in
/-- All leads are saved as what they show. -/
theorem Storable.save_eq (h : m.Storable chart) (disk : Disk) (route : Route) :
    m.save disk route =
      let response := LeadsFile.save disk route (.int Settings.persistVersion) m.now
        (savedLeads m.agents)
      (m.report response.signals, response.state, response.result) := by
  rw [Manager.save, layouts_eq h.runs]

/-- Saving succeeds where the disk takes any file, if everything that the leads show can be
written. -/
theorem Storable.exists_save (h : m.Storable chart) {disk : Disk} {route : Route}
    (hplace : ∀ bytes, (disk.replace route bytes).2 = none)
    (hleads : ∀ entry ∈ shownLayouts m.agents, entry.2.toJson.isWritable = true)
    (hnow : m.now.isWritable = true) :
    ∃ left, m.save disk route = (m.report [.log (.saved m.agents.length)], left, .ok true) := by
  have hvalues : ((LeadsFile.values (savedLeads m.agents)).all fun lead => lead.2.isWritable) =
      true :=
    List.all_eq_true.mpr (List.forall_mem_map.mpr (List.forall_mem_map.mpr hleads))
  have hwritable := LeadsFile.isWritable_sealed (.int Settings.persistVersion) m.now
    (LeadsFile.values (savedLeads m.agents))
  have hversion : (Json.int Settings.persistVersion).isWritable = true := by decide +kernel
  rw [hvalues, hnow, hversion] at hwritable
  have htext := (LeadsFile.textOf_eq_ok_iff (h.isCanonical_savedLeads storing)).mpr
    ⟨⟨hwritable, h.nesting_savedLeads storing⟩, rfl⟩
  obtain ⟨left, hreplace⟩ : ∃ left, disk.replace route (Json.render .file (.obj (LeadsFile.sealed
      (.int Settings.persistVersion) m.now (LeadsFile.values (savedLeads m.agents)))
        )).toUTF8.toList = (left, none) :=
    ⟨_, Prod.ext rfl (hplace _)⟩
  refine ⟨left, ?_⟩
  rw [h.save_eq, LeadsFile.save_eq_true_iff.mpr ⟨_, htext, hreplace, rfl⟩, savedLeads, shownLayouts,
    List.length_map, List.length_map]

/-- What is saved of storable leads is loaded by a new manager, in lockstep. -/
theorem Storable.load_saved (h : m.Storable chart) (policy : Policy) (telemetry : Telemetry)
    (hnow : m.now.isLenientDouble = true) {disk left : Disk} {route : Route}
    (hsave : m.save disk route = (m', left, .ok true)) :
    m.Coincides m' ∧ ∃ loaded,
      (fresh chart policy telemetry).load left route = (loaded, .ok true) ∧
        Shadows chart m loaded ∧ loaded.onChange = none := by
  rw [h.save_eq] at hsave
  generalize hresponse : LeadsFile.save disk route (.int Settings.persistVersion) m.now
    (savedLeads m.agents) = response at hsave
  obtain ⟨state, signals, result⟩ := response
  simp only [Prod.mk.injEq] at hsave
  obtain ⟨rfl, rfl, rfl⟩ := hsave
  have hobjects : ∀ lead ∈ LeadsFile.values (savedLeads m.agents), lead.2.members?.isSome := by
    rw [values_savedLeads]
    exact List.forall_mem_map.mpr fun _ _ => rfl
  have hload := LeadsFile.load_save (h.isCanonical_savedLeads storing) hobjects
    (h.unrepeated_savedLeads storing) hnow hresponse Settings.persistVersion
  rw [if_pos rfl, values_savedLeads] at hload
  exact ⟨(alike_report m signals).coincides,
    shadows_load storing h policy telemetry (Prod.ext rfl hload)⟩

end Storing

/-! ## Leads of the lead chart -/

/-- **Leads survive being saved.** Whatever has been done with the leads of an office, whose callbacks
may have removed some and which may have loaded files that anybody wrote: when all leads are saved,
a new manager loads them all, and shows the same paths, contexts, histories, tags and statuses. If
the callback for changes removes no lead from then on, the two go on showing the same, whatever
events are sent to both. The clock has to show a number. -/
theorem save_load (policy policy' : Policy) (telemetry telemetry' : Telemetry)
    (errands : List Office.Errand) {disk left : Disk} {route : Route}
    (hm : ((Office.opened Lead.chart policy telemetry none none).carryOutAll errands).manager = m)
    (hnow : m.now.isLenientDouble = true) (hsave : m.save disk route = (m', left, .ok true)) :
    ∃ loaded, (fresh Lead.chart policy' telemetry').load left route = (loaded, .ok true) ∧
      m.Mirrors loaded ∧
      (m'.Calm → ∀ sends, (m'.sendAll sends).Mirrors (loaded.sendAll sends)) := by
  have storing := Lead.chart_storing
  have hstorable : m.Storable Lead.chart :=
    hm ▸ Office.storable_carryOutAll storing (storable_fresh Lead.chart policy telemetry) errands
  obtain ⟨hcoincides, loaded, hload, hshadows, honChange⟩ :=
    hstorable.load_saved storing policy' telemetry' hnow hsave
  have hstorable' : m'.Storable Lead.chart := by
    have := hstorable.save disk route
    rwa [hsave] at this
  have hloaded : loaded.Storable Lead.chart := by
    have := (storable_fresh Lead.chart policy' telemetry').load storing left route
    rwa [hload] at this
  refine ⟨loaded, hload, hshadows.mirrors hstorable hloaded, fun hcalm sends => ?_⟩
  refine (hshadows.coincides hcoincides (.refl loaded)).sendAll storing hstorable' hloaded hcalm ?_ sends
  exact fun callback hcallback => by rw [honChange] at hcallback; cases hcallback

/-- What was done with a lead that is in a conversation about a meeting, which is paused. -/
def pausing : List Office.Errand :=
  [.move (.send "ada" "meeting.booked"), .move (.send "ada" "conversation.paused")]

set_option maxRecDepth 10000 in
/-- A lead whose conversation is paused when it is saved takes the conversation up again after it was
loaded. -/
theorem save_load_paused :
    ∃ left loaded,
      (((Office.opened Lead.chart .reset (.fresh true false) none none).carryOutAll
        pausing).manager.save (.empty "leads") ["f"]).2 = (left, .ok true) ∧
      (fresh Lead.chart .reset (.fresh true false)).load left ["f"] = (loaded, .ok true) ∧
      loaded.leads = ["ada"] ∧
      ((loaded.sendAll [("ada", ⟨.int 0, "conversation.resumed"⟩)]).snapshot "ada").map
          (Option.map Snapshot.path) =
        .ok (some ["lead", "active", "conversion", "meeting_booked"]) := by
  generalize hm : ((Office.opened Lead.chart .reset (.fresh true false) none none).carryOutAll
    pausing).manager = m
  have hstorable : m.Storable Lead.chart := hm ▸ Office.storable_carryOutAll Lead.chart_storing
    (storable_fresh Lead.chart .reset (.fresh true false)) pausing
  obtain ⟨hnow, htime, hwritable, honChange, hleads⟩ : m.now.isLenientDouble = true ∧
      m.now.isWritable = true ∧
      ((shownLayouts m.agents).all fun entry => entry.2.toJson.isWritable) = true ∧
      m.onChange = none ∧ m.leads = ["ada"] := by
    subst hm
    decide +kernel
  have hplace : ∀ bytes, ((Disk.empty "leads").replace ["f"] bytes).2 = none := fun _ => rfl
  obtain ⟨left, hsave⟩ := hstorable.exists_save Lead.chart_storing hplace
    (List.all_eq_true.mp hwritable) htime
  obtain ⟨loaded, hload, hmirrors, hsends⟩ :=
    save_load .reset .reset (.fresh true false) (.fresh true false) pausing hm hnow hsave
  refine ⟨left, loaded, congrArg Prod.snd hsave, hload, hmirrors.leads_eq.trans hleads, ?_⟩
  let resuming : List (String × Call) := [("ada", ⟨.int 0, "conversation.resumed"⟩)]
  let saved := m.report [.log (.saved m.agents.length)]
  obtain ⟨hstill, hpath⟩ : "ada" ∈ (saved.sendAll resuming).leads ∧
      ((saved.sendAll resuming).snapshot "ada").toOption.join.map Snapshot.path =
        some ["lead", "active", "conversion", "meeting_booked"] := by
    subst hm
    decide +kernel
  obtain ⟨a, b, ha, hb, hmatches, -⟩ :=
    (hsends (calm_of_onChange honChange) resuming).snapshot hstill
  rw [ha] at hpath
  rw [hb]
  exact congrArg (Except.ok ∘ some) (hmatches.path_eq.symm.trans (Option.some.inj hpath))

end Manager

end Lifecycle
