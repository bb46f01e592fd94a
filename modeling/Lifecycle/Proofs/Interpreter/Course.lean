import Lifecycle.Proofs.Interpreter.Passages

/-!
# The course of a run

The state after an operation is that after its passages: the run has settled there, or an action of
one more microstep has failed (`Stands.settleFrom`, `Stands.dispatch`). In a chart whose actions
keep a property of contexts no action fails: every call succeeds and leaves the run at rest, and its
passages lead from the situation in which the run begins to the one that it rests in (`rests_run`,
`isCourse_run`).
-/

namespace Lifecycle.Interpreter

variable {m : Interpreter} {chart : Chart} {s s' : Situation} {t : Transition}

/-- An operation fails: in the situation that its passages lead to, an action of one more microstep
fails, whose records are written. -/
def Broke {α : Type} (m : Interpreter) (chart : Chart) (passages : List Passage) (s' : Situation)
    (response : Response Interpreter α) : Prop :=
  ∃ step fault, chart.Breaks s' step fault ∧ response =
    ⟨{ m.taken passages with history := Entries.overlay s'.history step.history }, [],
      .error fault⟩

/-- Settling fails: in the situation that its passages lead to, a completion is pending, and an
action of its microstep fails. -/
def Stuck (m : Interpreter) (chart : Chart) (passages : List Passage) (s' : Situation)
    (response : Response Interpreter Unit) : Prop :=
  ∃ step fault, chart.doneTransition? s'.leaf = some step.transition ∧
    chart.Breaks s' step fault ∧ response =
      ⟨{ m.taken passages with history := Entries.overlay s'.history step.history }, [],
        .error fault⟩

theorem Stuck.broke {passages : List Passage} {response : Response Interpreter Unit}
    (h : m.Stuck chart passages s' response) : m.Broke chart passages s' response := by
  obtain ⟨step, fault, -, hbreaks, hresponse⟩ := h
  exact ⟨step, fault, hbreaks, hresponse⟩

/-- Settling completes the parents of final leaves, one after the other, each of certain leaves at
most once, until nothing more is to be done, or an action fails at a leaf that has not come up. -/
structure SettlesBy (m : Interpreter) (chart : Chart) (s : Situation) (unseen : List Nat)
    (passages : List Passage) (s' : Situation) : Prop where
  passages_eq : m.settlePassages unseen = passages
  completes : chart.Completes s passages s'
  distinct : (passages.map Passage.leaf).Nodup
  leaf_mem : ∀ p ∈ passages, p.leaf ∈ unseen
  stands : (m.taken passages).Stands chart s'
  ends : (∃ signals, m.settleFrom unseen =
        ⟨{ m.taken passages with status := m.settledStatus s'.leaf }, signals, .ok ()⟩ ∧
      (chart.doneTransition? s'.leaf = none ∨ s'.leaf ∈ passages.map Passage.leaf ∨
        s'.leaf ∉ unseen)) ∨
    (s'.leaf ∈ unseen ∧ s'.leaf ∉ passages.map Passage.leaf ∧
      m.Stuck chart passages s' (m.settleFrom unseen))

/-- Settling goes on after a completion, with one leaf less. -/
theorem SettlesBy.cons {step : Microstep} {middle : Situation} {unseen : List Nat}
    {rest : List Passage}
    (h : (m.take step).1.SettlesBy m.chart middle (unseen.erase s.leaf) rest s')
    (hleaf : m.leaf = some s.leaf) (hnodup : unseen.Nodup) (hmem : s.leaf ∈ unseen)
    (hdone : m.chart.doneTransition? s.leaf = some step.transition)
    (hstep : m.chart.resolve s.leaf step.transition m.history = .ok step)
    (hfollow : m.follow s.leaf step.transition = ((m.take step).1, none))
    (hleads : m.chart.Leads s ⟨s.leaf, step⟩ middle) :
    m.SettlesBy m.chart s unseen (⟨s.leaf, step⟩ :: rest) s' := by
  obtain ⟨hpassages, hsettle⟩ := settle_of_ok hleaf hdone hmem hstep hfollow
  have hnotMem : s.leaf ∉ rest.map Passage.leaf := by
    intro hleaf
    obtain ⟨p, hp, heq⟩ := List.mem_map.mp hleaf
    exact hnodup.not_mem_erase (heq ▸ h.leaf_mem p hp)
  exact {
    passages_eq := by rw [hpassages, h.passages_eq]
    completes := h.completes.cons hleads hdone
    distinct := List.nodup_cons.mpr ⟨hnotMem, h.distinct⟩
    leaf_mem := List.forall_mem_cons.mpr
      ⟨hmem, fun p hp => List.mem_of_mem_erase (h.leaf_mem p hp)⟩
    stands := h.stands
    ends := by
      rw [hsettle]
      rcases h.ends with ⟨signals, hstate, hrested⟩ | ⟨hnew, hother, hstuck⟩
      · have hstatus : (m.take step).1.settledStatus s'.leaf = m.settledStatus s'.leaf := by
          obtain ⟨_, _, _, _, hframe⟩ := m.take_frame step
          rw [settledStatus, settledStatus, hframe]
        refine .inl ⟨signals, by rw [hstate, hstatus]; rfl, ?_⟩
        rcases hrested with hnone | hseen | hnew
        · exact .inl hnone
        · exact .inr (.inl (List.mem_cons_of_mem _ hseen))
        · by_cases heq : s'.leaf = s.leaf
          · exact .inr (.inl (heq ▸ List.mem_cons_self))
          · exact .inr (.inr fun h' => hnew ((List.mem_erase_of_ne heq).mpr h'))
      · have hne : s'.leaf ≠ s.leaf := fun heq => hnodup.not_mem_erase (heq ▸ hnew)
        refine .inr ⟨List.mem_of_mem_erase hnew, fun hleaf => ?_, hstuck⟩
        exact (List.mem_cons.mp hleaf).elim hne hother }

/-- A run reacts to an event: it takes a transition and settles, and what it shows then is the state
at rest. -/
structure Reacted (m : Interpreter) (chart : Chart) (event : String) (now : Json) (s : Situation)
    (passages : List Passage) (s' : Situation) (response : Response Interpreter Verdict) :
    Prop where
  reacts : chart.Reacts event s passages s'
  state_eq : ∃ log, response.state = { ({ m.taken passages with
    status := chart.statusAt s'.leaf } : Interpreter).publish with log := log }
  shows {time : Number} : Record.stamp now = .ok time → Shows response Verdict.snapshot

/-! ## What operations do -/

section Steps

variable (tree : chart.Arena)

include tree

/-- A triggered transition is taken, or an action of its microstep fails. -/
theorem Stands.follow (h : m.Stands chart s) (hs : chart.Situated s)
    (ht : chart.Triggered s.leaf t) :
    ∃ step, step.transition = t ∧ m.chart.resolve s.leaf t m.history = .ok step ∧
      ((∃ s', m.follow s.leaf t = ((m.take step).1, none) ∧ (m.take step).1.Stands chart s' ∧
          chart.Leads s ⟨s.leaf, step⟩ s') ∨
        ∃ fault, m.follow s.leaf t = ({ m with
            history := Entries.overlay s.history step.history }, some fault) ∧
          chart.Breaks s step fault) := by
  obtain ⟨step, hstep, hshift⟩ := tree.resolve_triggered hs.isLeaf ht hs.fits
  obtain rfl := hshift.transition_eq
  have hresolve : m.chart.resolve s.leaf step.transition m.history = .ok step := by
    rw [h.chart_eq, h.history_eq]; exact hstep
  have hrun : Action.runAll (m.chart.stepActions step) m.context =
      Action.runAll (chart.stepActions step) s.context := by rw [h.chart_eq, h.context_eq]
  have hfollow : m.follow s.leaf step.transition = m.take step := by
    rw [Interpreter.follow, hresolve]
  refine ⟨step, rfl, hresolve, ?_⟩
  rw [hfollow]
  rcases hactions : Action.runAll (chart.stepActions step) s.context with fault | context
  · refine .inr ⟨fault, ?_, ht, hstep, hactions⟩
    rw [take_error (hrun.trans hactions), h.history_eq]
  · obtain ⟨version, htake⟩ := take_ok (hrun.trans hactions)
    rw [htake, h.context_eq, h.history_eq]
    exact .inl ⟨⟨step.leaf, s.context.adopted context, Entries.overlay s.history step.history⟩,
      rfl, ⟨h.chart_eq, rfl, rfl, rfl⟩, ⟨rfl, ht, hstep, ⟨context, hactions, rfl⟩, rfl, rfl⟩⟩

/-- A run settles, with any leaves that have not come up. -/
theorem Stands.settleFrom (h : m.Stands chart s) (hs : chart.Situated s) {unseen : List Nat}
    (hnodup : unseen.Nodup) : ∃ s' passages, m.SettlesBy chart s unseen passages s' := by
  induction hlength : unseen.length using Nat.strongRecOn generalizing unseen m s with
  | _ length ih =>
    obtain rfl := h.chart_eq
    by_cases hrested : m.chart.doneTransition? s.leaf = none ∨ s.leaf ∉ unseen
    · obtain ⟨hpassages, signals, hsettle⟩ := settle_of_rested h.leaf_eq hrested
      exact ⟨s, [], hpassages, .refl _ s, .nil, nofun, h,
        .inl ⟨signals, hsettle, hrested.imp_right .inr⟩⟩
    · rw [not_or, not_not] at hrested
      obtain ⟨hpending, hmem⟩ := hrested
      obtain ⟨t, ht⟩ := Option.ne_none_iff_exists'.mp hpending
      obtain ⟨step, rfl, hstep, hcases⟩ := h.follow tree hs (.inr ht)
      rcases hcases with ⟨middle, hfollow, hstands, hleads⟩ | ⟨fault, hfollow, hbreaks⟩
      · have hlt : (unseen.erase s.leaf).length < length :=
          ((List.length_erase_add_one hmem).trans hlength).le
        obtain ⟨s', rest, hrest⟩ := ih _ hlt hstands (tree.situated_of_leads hs hleads)
          (hnodup.erase s.leaf) rfl
        exact ⟨s', _, hrest.cons h.leaf_eq hnodup hmem ht hstep hfollow hleads⟩
      · obtain ⟨hpassages, hsettle⟩ := settle_of_error h.leaf_eq ht hmem hfollow
        exact ⟨s, [], hpassages, .refl _ s, .nil, nofun, h,
          .inr ⟨hmem, List.not_mem_nil, step, fault, ht, hbreaks, hsettle⟩⟩

/-- Settling is over where nothing is pending or at a leaf that has come up, unless an action
fails. -/
theorem Stands.settle (h : m.Stands chart s) (hs : chart.Situated s)
    (hrunning : m.status = .running) :
    ∃ s' passages, m.settlePassages (List.range m.chart.nodes.size) = passages ∧
      chart.LeadsTo s passages s' ∧ (m.taken passages).Stands chart s' ∧
      ((∃ signals, chart.Settles s passages s' ∧ m.settle =
          ⟨{ m.taken passages with status := chart.statusAt s'.leaf }, signals, .ok ()⟩) ∨
        m.Broke chart passages s' m.settle) := by
  obtain ⟨s', passages, hpassages, hcompletes, hdistinct, -, hstands, hend⟩ :=
    h.settleFrom tree hs List.nodup_range
  refine ⟨s', passages, hpassages, hcompletes.leadsTo, hstands, hend.imp ?_ fun h => h.2.2.broke⟩
  rintro ⟨signals, hsettle, hrested⟩
  have hstatus := settledStatus_of_running hrunning s'.leaf
  rw [h.chart_eq] at hstatus
  rw [hstatus] at hsettle
  have hknown : s'.leaf ∈ List.range m.chart.nodes.size := by
    obtain ⟨n, hn⟩ := (tree.situated_of_leadsTo hs hcompletes.leadsTo).isLeaf.exists_node
    rw [h.chart_eq]
    exact List.mem_range.mpr (Array.getElem?_eq_some_iff.mp hn).1
  refine ⟨signals, ⟨hcompletes, hdistinct, hrested.imp_right ?_⟩, hsettle⟩
  exact fun hseen => hseen.resolve_right (not_not_intro hknown)

/-- Once the first context is made the run stands at the end of the initial path. -/
theorem stands_entered (context : Context) (name : Option String) {next : Context}
    (hnext : Action.runAll (initialActions chart) context = .ok next) :
    ∃ s₀, chart.Begins context s₀ ∧ (entered chart name context next).Stands chart s₀ := by
  obtain ⟨hpath, -⟩ := tree.initialPath_spec
  obtain ⟨version, hadopt⟩ := adopt_eq (fresh chart context name) next
  refine ⟨⟨chart.leafBelow 0, context.adopted next, []⟩, ⟨hpath, ⟨next, hnext, rfl⟩, rfl⟩, ?_⟩
  rw [entered, hadopt]
  refine ⟨rfl, ?_, rfl, rfl⟩
  show chart.initialPath.getLast? = some (chart.leafBelow 0)
  rw [hpath, Chart.getLast?_pathTo]

/-- The start leaves the run at rest, unless an action fails. -/
theorem start_cases (context : Context) (name : Option String) :
    (Shows (fresh chart context name).start id ∧ ∃ s₀ s, chart.Begins context s₀ ∧
        chart.Settles s₀ (startPassages chart context name) s ∧
        (started chart context name).Rests chart s) ∨
      ∃ fault, (fresh chart context name).start.result = .error fault ∧
        (Action.runAll (initialActions chart) context = .error fault ∨
          ∃ s₀ s passages step, chart.Begins context s₀ ∧ chart.LeadsTo s₀ passages s ∧
            chart.Breaks s step fault) := by
  rcases hnext : Action.runAll (initialActions chart) context with fault | next
  · refine .inr ⟨fault, ?_, .inl rfl⟩
    simp [start, fresh, hnext]
  · obtain ⟨s₀, hbegins, hstands⟩ := stands_entered tree context name hnext
    have hs := hbegins.situated tree
    obtain ⟨s, passages, hpassages, hleads, hstands', hend⟩ := hstands.settle tree hs rfl
    rw [hstands.chart_eq] at hpassages
    have hstartPassages : startPassages chart context name = passages := by
      rw [startPassages, hnext]; exact hpassages
    have hstart := start_fresh name hnext
    rcases hend with ⟨signals, hsettles, hsettle⟩ | ⟨step, fault, hbreaks, hsettle⟩
    · simp only [hsettle] at hstart
      refine .inl ⟨?_, s₀, s, hbegins, hstartPassages ▸ hsettles, ?_⟩
      · rw [hstart]; exact ⟨_, rfl, rfl⟩
      · rw [started, hstart]
        exact rests_publish hstands' (tree.situated_of_leadsTo hs hleads)
    · simp only [hsettle] at hstart
      exact .inr ⟨fault, by rw [hstart], .inr ⟨s₀, s, passages, step, hbegins, hleads, hbreaks⟩⟩

/-- The transition of an event is taken, and what is shown after it is the state at rest; unless an
action fails. -/
theorem Stands.react (h : m.Stands chart s) (hs : chart.Situated s) (hrunning : m.status = .running)
    {event : String} (ht : chart.findTransition? s.leaf event = some t) (now : Json)
    (snapshot : Snapshot) :
    ∃ s' passages, m.followPassages s.leaf t = passages ∧ chart.LeadsTo s passages s' ∧
      (m.taken passages).Stands chart s' ∧
      (m.Reacted chart event now s passages s' (m.react now snapshot event s.leaf t) ∨
        m.Broke chart passages s' (m.react now snapshot event s.leaf t)) := by
  obtain ⟨step, rfl, hstep, hcases⟩ := h.follow tree hs (.inl ⟨event, ht⟩)
  unfold Interpreter.react followPassages
  rcases hcases with ⟨middle, hfollow, hstands, hleads⟩ | ⟨fault, hfollow, hbreaks⟩
  · have hnext := (m.take_status step).trans hrunning
    obtain ⟨s', rest, hrest, hothers, hstands', hend⟩ :=
      hstands.settle tree (tree.situated_of_leads hs hleads) hnext
    simp only [hfollow, hstep, hrest]
    refine ⟨s', _, rfl, .cons hleads hothers, hstands', ?_⟩
    rcases hend with ⟨signals, hsettles, hsettle⟩ | ⟨step', fault, hbreaks, hsettle⟩
    · have hreacts : chart.Reacts event s (⟨s.leaf, step⟩ :: rest) s' :=
        ⟨_, rest, middle, rfl, ht, hleads, hsettles⟩
      simp only [hsettle]
      rcases hstamp : Record.stamp now with fault | time
      · exact .inl ⟨hreacts, ⟨_, rfl⟩, fun htime => by rw [hstamp] at htime; cases htime⟩
      · exact .inl ⟨hreacts, ⟨_, rfl⟩, fun _ => ⟨_, rfl, rfl⟩⟩
    · exact .inr ⟨step', fault, hbreaks, by rw [hsettle]; rfl⟩
  · simp only [hfollow, hstep]
    exact ⟨s, [], rfl, .refl s, h, .inr ⟨step, fault, hbreaks, rfl⟩⟩

/-- An event is ignored, or its transition is taken and the run settles, or an action fails. -/
theorem Stands.dispatch (h : m.Stands chart s) (hs : chart.Situated s) {snapshot : Snapshot}
    (hshown : m.snapshot = some snapshot) (now : Json) (event : String) :
    ∃ s' passages, m.sendPassages event = passages ∧ chart.LeadsTo s passages s' ∧
      (m.taken passages).Stands chart s' ∧
      ((passages = [] ∧ (∃ log, (m.dispatch now event).state = { m with log := log }) ∧
          ∀ time, Record.stamp now = .ok time → Shows (m.dispatch now event) Verdict.snapshot) ∨
        m.Reacted chart event now s passages s' (m.dispatch now event) ∨
        m.Broke chart passages s' (m.dispatch now event)) := by
  rcases h.dispatch_cases hshown now event with ⟨hpassages, reason, signals, hdispatch⟩ |
    ⟨t, hrunning, ht, hpassages, hdispatch⟩
  · rw [hdispatch]
    exact ⟨s, [], hpassages, .refl s, h, .inl ⟨rfl,
      m.ignore_state now snapshot event reason signals,
      fun _ htime => shows_ignore hshown event reason signals htime⟩⟩
  · obtain ⟨s', passages, hreact, hleads, hstands, hcases⟩ :=
      h.react tree hs hrunning ht now snapshot
    rw [hdispatch]
    exact ⟨s', passages, hpassages.trans hreact, hleads, hstands, .inr hcases⟩

end Steps

/-! ## Runs in which no action fails -/

section Keeps

variable (tree : chart.Arena) {P : Context → Prop} (keeps : chart.Keeps P)

include tree keeps

/-- The start succeeds. -/
theorem start_keeps (context : Context) (hP : P context) (name : Option String) :
    Shows (fresh chart context name).start id ∧ ∃ s₀ s, chart.Begins context s₀ ∧ P s₀.context ∧
      chart.Settles s₀ (startPassages chart context name) s ∧
      (started chart context name).Rests chart s := by
  have hinitial : ∀ a ∈ initialActions chart, a.Keeps P := by
    intro a ha
    obtain ⟨i, -, ha⟩ := List.mem_flatMap.mp ha
    exact keeps a (Chart.hasAction_of_entryOf ha)
  obtain ⟨next, hnext, hP'⟩ := Action.runAll_keeps hinitial hP
  have hbegun : ∀ s₀, chart.Begins context s₀ → P s₀.context := by
    rintro s₀ ⟨-, ⟨next', hnext', hcontext⟩, -⟩
    obtain rfl := Except.ok.inj (hnext.symm.trans hnext')
    rw [hcontext]
    exact Context.adopted_mem hP hP'
  rcases start_cases tree context name with ⟨hshows, s₀, s, hbegins, hrest⟩ |
    ⟨fault, -, hfault | ⟨s₀, s, passages, step, hbegins, hleads, hbreaks⟩⟩
  · exact ⟨hshows, s₀, s, hbegins, hbegun s₀ hbegins, hrest⟩
  · rw [hnext] at hfault; cases hfault
  · exact absurd hbreaks (keeps.not_breaks tree
      (keeps.of_leadsTo tree (hbegun s₀ hbegins) hleads))

/-- An event leaves the run at rest, and a run whose clock can be read has a result. -/
theorem Rests.dispatch_keeps (h : m.Rests chart s) (hP : P s.context) (now : Json)
    (event : String) :
    ∃ s', (m.dispatch now event).state.Rests chart s' ∧
      (∀ time, Record.stamp now = .ok time → Shows (m.dispatch now event) Verdict.snapshot) ∧
      chart.LeadsTo s (m.sendPassages event) s' ∧
      ((∃ log, (m.dispatch now event).state = { m with log := log }) ∨
        chart.Reacts event s (m.sendPassages event) s') := by
  obtain ⟨s', passages, rfl, hleads, hstands, hcases⟩ :=
    h.toStands.dispatch tree h.situated h.snapshot_eq now event
  rcases hcases with ⟨hnil, ⟨log, hstate⟩, hshows⟩ | ⟨hreacts, ⟨log, hstate⟩, hshows⟩ |
    ⟨step, fault, hbreaks, -⟩
  · rw [hnil] at hleads
    obtain _ | _ := hleads
    refine ⟨s, ?_, hshows, by rw [hnil]; exact .refl s, .inl ⟨log, hstate⟩⟩
    rw [hstate]
    exact h.withLog log
  · refine ⟨s', ?_, fun _ => hshows, hleads, .inr hreacts⟩
    rw [hstate]
    exact (rests_publish hstands (tree.situated_of_leadsTo h.situated hleads)).withLog log
  · exact absurd hbreaks (keeps.not_breaks tree (keeps.of_leadsTo tree hP hleads))

/-- Calls leave the run at rest. -/
theorem Rests.run_keeps (h : m.Rests chart s) (hP : P s.context) (calls : List Call) :
    ∃ s', (m.run calls).Rests chart s' ∧ chart.LeadsTo s (m.passages calls) s' := by
  induction calls generalizing m s with
  | nil => exact ⟨s, h, .refl s⟩
  | cons call rest ih =>
    obtain ⟨middle, hrests, -, hpassages, -⟩ := h.dispatch_keeps tree keeps hP call.now call.event
    obtain ⟨s', hrest, hothers⟩ := ih hrests (keeps.of_leadsTo tree hP hpassages)
    exact ⟨s', hrest, hpassages.trans hothers⟩

/-- A run that is started and sent events is at rest, and its context has the property. -/
theorem rests_run (context : Context) (hP : P context) (name : Option String)
    (calls : List Call) :
    ∃ s₀ s, chart.Begins context s₀ ∧ chart.LeadsTo s₀ (course chart context name calls) s ∧
      ((started chart context name).run calls).Rests chart s ∧ P s.context := by
  obtain ⟨-, s₀, middle, hbegins, hP₀, hsettles, hrests⟩ := start_keeps tree keeps context hP name
  have hmiddle := keeps.of_leadsTo tree hP₀ hsettles.leadsTo
  obtain ⟨s, hrest, hothers⟩ := hrests.run_keeps tree keeps hmiddle calls
  exact ⟨s₀, s, hbegins, hsettles.leadsTo.trans hothers, hrest,
    keeps.of_leadsTo tree hmiddle hothers⟩

end Keeps

section NeverFails

variable (tree : chart.Arena) (total : chart.NeverFails)

include tree total

theorem start_spec (context : Context) (name : Option String) :
    Shows (fresh chart context name).start id ∧
      (started chart context name).IsCourse chart context (startPassages chart context name) := by
  obtain ⟨hshows, s₀, s, hbegins, -, hsettles, hrests⟩ :=
    start_keeps tree total.keeps context trivial name
  exact ⟨hshows, s₀, s, hbegins, hsettles.leadsTo, hrests⟩

theorem Rests.dispatch (h : m.Rests chart s) (now : Json) (event : String) :
    ∃ s', (m.dispatch now event).state.Rests chart s' ∧
      (∀ time, Record.stamp now = .ok time → Shows (m.dispatch now event) Verdict.snapshot) ∧
      chart.LeadsTo s (m.sendPassages event) s' := by
  obtain ⟨s', hrests, hshows, hleads, -⟩ := h.dispatch_keeps tree total.keeps trivial now event
  exact ⟨s', hrests, hshows, hleads⟩

/-- The passages of a run tell its course. -/
theorem isCourse_run (context : Context) (name : Option String) (calls : List Call) :
    ((started chart context name).run calls).IsCourse chart context
      (course chart context name calls) := by
  obtain ⟨s₀, s, hbegins, hleads, hrests, -⟩ :=
    rests_run tree total.keeps context trivial name calls
  exact ⟨s₀, s, hbegins, hleads, hrests⟩

end NeverFails

end Lifecycle.Interpreter
