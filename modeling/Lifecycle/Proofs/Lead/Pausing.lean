import Lifecycle.Proofs.Lead.Standing

/-!
# What is always true of a lead

Two facts hold of every standing that events lead to (`Standing.Coherent`): no mark is set in a
conversation, and outside of the active node a branch is on record. A lead that is paused was in a
branch when an event paused it, and has waited since, so that this branch is on record, with the
mark that there was (`Standing.exists_pause`). Hence a lead shows consistent states, and the event
that ends a pause leads back to the branch that was interrupted (`run_consistent`).
-/

namespace Lifecycle.Lead

open LeadEvent (conversationPaused conversationResumed)

/-- Leaves and branches handle no event that leaves the active node. -/
theorem Stage.isOutside_of_own? {stage goal : Stage} {event : LeadEvent}
    (h : stage.own? event = some goal) : goal.isOutside = false := by
  unfold own? at h
  split at h <;> cases h <;> rfl

theorem Branch.isOutside_of_own? {branch : Branch} {goal : Stage} {event : LeadEvent}
    (h : branch.own? event = some goal) : goal.isOutside = false := by
  unfold own? at h
  split at h <;> cases h <;> rfl

theorem Branch.isOutside_first (branch : Branch) : branch.first.isOutside = false := by
  cases branch <;> rfl

theorem eq_of_active?_paused {event : LeadEvent} (h : active? event = some .paused) :
    event = conversationPaused := by
  cases event <;> first | rfl | cases h

namespace Standing

variable {standing : Standing} {event : LeadEvent} {goal : Stage} {text : String}
  {calls : List Call}

/-! ## Steps -/

/-- A text changes nothing, or it is an event that leads to another stage. -/
theorem hears_cases (standing : Standing) (text : String) :
    standing.hears text = standing ∨ ∃ event goal, event.word = text ∧
      standing.goal? event = some goal ∧ standing.hears text = standing.move event goal := by
  unfold hears after
  rcases hevent : LeadEvent.ofWord? text with _ | event
  · exact .inl rfl
  · rw [Option.map_some, Option.getD_some]
    rcases hgoal : standing.goal? event with _ | goal
    · exact .inl rfl
    · exact .inr ⟨event, goal, word_of_ofWord? hevent, hgoal, rfl⟩

/-- Only from a branch an event leads out of the active node, and it is one that this handles. -/
theorem exists_branch_of_goal? (h : standing.goal? event = some goal)
    (hout : goal.isOutside = true) :
    ∃ branch, standing.stage.branch? = some branch ∧ active? event = some goal := by
  have hinside {other : Stage} (hother : other.isOutside = false) (heq : other = goal) : False := by
    rw [heq, hout] at hother
    cases hother
  unfold goal? at h
  split at h
  · rename_i branch hbranch
    rw [Option.or_eq_some_iff, Option.or_eq_some_iff] at h
    rcases h with hleaf | ⟨-, hown | ⟨-, hactive⟩⟩
    · exact (hinside (Stage.isOutside_of_own? hleaf) rfl).elim
    · exact (hinside (Branch.isOutside_of_own? hown) rfl).elim
    · exact ⟨branch, hbranch, hactive⟩
  · split at h
    · exact (hinside (Branch.isOutside_first _) (Option.some.inj h)).elim
    · cases h

/-- What the standings of a lead have in common. -/
structure Coherent (standing : Standing) : Prop where
  unmuted : standing.stage = .engaged → standing.muted = false
  recorded : standing.stage.isOutside = true → standing.kept.isSome = true

theorem coherent_new (muted : Bool) : (new muted).Coherent := ⟨nofun, nofun⟩

theorem coherent_move (h : standing.goal? event = some goal) :
    (standing.move event goal).Coherent where
  unmuted hengaged := by
    have hgoal : goal = .engaged := hengaged
    rw [move, hgoal]
    rfl
  recorded hout := by
    obtain ⟨branch, hbranch, -⟩ := exists_branch_of_goal? h hout
    have hkept : (standing.move event goal).kept = standing.stage.branch? := if_pos hout
    rw [hkept, hbranch]
    rfl

theorem Coherent.hears (h : standing.Coherent) (text : String) :
    (standing.hears text).Coherent := by
  rcases standing.hears_cases text with hsame | ⟨event, goal, -, hgoal, hmove⟩
  · exact hsame.symm ▸ h
  · exact hmove.symm ▸ coherent_move hgoal

theorem Coherent.along (h : standing.Coherent) (calls : List Call) :
    (standing.along calls).Coherent := by
  induction calls generalizing standing with
  | nil => exact h
  | cons call rest ih => exact ih (h.hears call.event)

/-! ## Pauses -/

/-- A lead is paused already, or is paused now, in a branch. -/
theorem hears_eq_paused (h : (standing.hears text).stage = .paused) :
    (standing.stage = .paused ∧ standing.hears text = standing) ∨
      text = conversationPaused.word ∧ ∃ branch, standing.stage.branch? = some branch ∧
        standing.hears text = ⟨.paused, standing.muted, some branch⟩ := by
  rcases standing.hears_cases text with hsame | ⟨event, goal, rfl, hgoal, hmove⟩
  · exact .inl ⟨hsame ▸ h, hsame⟩
  · obtain rfl : goal = .paused := by rwa [hmove] at h
    obtain ⟨branch, hbranch, hactive⟩ := exists_branch_of_goal? hgoal rfl
    obtain rfl := eq_of_active?_paused hactive
    refine .inr ⟨rfl, branch, hbranch, hmove.trans ?_⟩
    rw [← hbranch]
    rfl

/-- A lead that is paused was paused by an event in a branch, and has been paused since. -/
theorem exists_pause (hbegin : standing.stage ≠ .paused)
    (h : (standing.along calls).stage = .paused) :
    ∃ before pause between branch, calls = before ++ pause :: between ∧
      pause.event = conversationPaused.word ∧
      (standing.along before).stage.branch? = some branch ∧
      ∀ front, front <+: between → standing.along (before ++ pause :: front) =
        ⟨.paused, (standing.along before).muted, some branch⟩ := by
  -- The last call found the lead paused and changed nothing, or it is the pause.
  induction calls using List.reverseRecOn with
  | nil => exact absurd h hbegin
  | append_singleton front call ih =>
    have hlast := standing.along_concat front call
    rw [hlast] at h
    rcases hears_eq_paused h with ⟨hpaused, hsame⟩ | ⟨hevent, branch, hbranch, hheard⟩
    · obtain ⟨before, pause, between, branch, rfl, hpause, hbranch, hsince⟩ := ih hpaused
      refine ⟨before, pause, between ++ [call], branch, by simp, hpause, hbranch, ?_⟩
      intro shorter hshorter
      rcases List.prefix_concat_iff.mp hshorter with rfl | hshorter
      · have hfull := hsince between (List.prefix_refl between)
        rw [← List.cons_append, ← List.append_assoc, hlast, hsame, hfull]
      · exact hsince shorter hshorter
    · refine ⟨front, call, [], branch, rfl, hevent, hbranch, fun shorter hshorter => ?_⟩
      rw [List.prefix_nil.mp hshorter, hlast, hheard]

/-- A lead that is paused waits for the event that ends the pause. -/
theorem hears_of_paused (h : standing.stage = .paused) (hne : text ≠ conversationResumed.word) :
    standing.hears text = standing := by
  rcases standing.hears_cases text with hsame | ⟨event, goal, rfl, hgoal, -⟩
  · exact hsame
  · rw [goal?, h] at hgoal
    dsimp only [Stage.branch?] at hgoal
    split at hgoal
    · rename_i heq
      exact absurd (congrArg LeadEvent.word heq.2) hne
    · cases hgoal

theorem along_of_paused (h : standing.stage = .paused)
    (hwait : ∀ call ∈ calls, call.event ≠ conversationResumed.word) :
    standing.along calls = standing := by
  induction calls with
  | nil => rfl
  | cons call rest ih =>
    obtain ⟨hcall, hrest⟩ := List.forall_mem_cons.mp hwait
    rw [along_cons, hears_of_paused h hcall, ih hrest]

/-- The end of a pause leads to the branch on record. -/
theorem hears_resumed (muted : Bool) (branch : Branch) :
    (⟨.paused, muted, some branch⟩ : Standing).hears "conversation.resumed" =
      ⟨branch.first, muted, some branch⟩ := by
  have hevent : LeadEvent.ofWord? "conversation.resumed" = some conversationResumed := by decide
  rw [hears, hevent]
  cases branch <;> rfl

end Standing

/-! ## Runs -/

set_option maxRecDepth 10000 in
theorem find?_active : (chart.find? "lead.active").map Node.index = some 1 := by decide +kernel

set_option maxRecDepth 10000 in
/-- The branches are children of the active node, and are entered along initial children. -/
theorem branch_table : ∀ branch ∈ Branch.all, chart.parent? branch.index = some 1 ∧
    chart.pathTo branch.first.index =
      chart.pathTo branch.index ++ chart.descend branch.index := by
  decide +kernel

/-- What a lead shows. -/
structure Consistent (shown : Snapshot) : Prop where
  /-- In a conversation no follow-ups are stopped. -/
  unmuted : shown.leaf? = some "engaged" →
    Entries.get? shown.context (.text "follow_ups_stopped") = some (.bool false)
  /-- At most one child of the active node is on record. -/
  records : shown.history = [] ∨ ∃ key ∈ ["lead_qualification", "human_intervention", "conversion"],
    shown.history = [("lead.active", key)]
  /-- Outside of the active node a child of it is on record. -/
  recorded : "active" ∉ shown.path → shown.history ≠ []
  /-- The run is over at three leaves. -/
  done_iff : shown.status = .done ↔
    ∃ key ∈ ["deal_closed", "goal_hit", "conversation_stopped"], shown.leaf? = some key

section Runs

variable {m fresh : Interpreter} {standing : Standing} {given : Json} {name : Option String}

theorem consistent_of_rests (h : m.Rests chart standing.situation) (hcoherent : standing.Coherent) :
    ∃ shown, m.snapshot = some shown ∧ Consistent shown := by
  have hleaf {stage : Stage} : m.observe.leaf? = some stage.key ↔ standing.stage = stage := by
    rw [← leafShown?_iff h, Interpreter.leafShown?, h.snapshot_eq, Option.bind_some]
  have hcontext : m.observe.context = Standing.flagContext standing.muted := h.context_eq
  have hhistory : m.observe.history = Standing.records standing.kept := h.history_eq
  obtain ⟨-, hactive, hdone, -⟩ := stage_table _ standing.stage.mem_all
  refine ⟨m.observe, h.snapshot_eq, ⟨fun hengaged => ?_, ?_, fun hout => ?_, ?_⟩⟩
  · rw [hcontext, hcoherent.unmuted (hleaf.mp hengaged)]
    rfl
  · rw [hhistory]
    rcases standing.kept with _ | branch
    · exact .inl rfl
    · exact .inr ⟨branch.key, by cases branch <;> decide, rfl⟩
  · have hpath : m.observe.path = (chart.pathTo standing.stage.index).map chart.keyAt := by
      rw [Interpreter.observe, h.path_eq, h.chart_eq]
      rfl
    rw [hpath, ← List.contains_iff_mem, hactive, Bool.not_eq_true', Bool.not_eq_false] at hout
    obtain ⟨branch, hbranch⟩ := Option.isSome_iff_exists.mp (hcoherent.recorded hout)
    rw [hhistory, hbranch]
    exact List.cons_ne_nil _ _
  · have hstatus : m.observe.status = chart.statusAt standing.stage.index := h.status_eq
    have hkeys : ["deal_closed", "goal_hit", "conversation_stopped"] =
        [Stage.closed, .succeeded, .stopped].map Stage.key := rfl
    rw [hstatus, hdone, hkeys]
    simp only [List.mem_map, exists_exists_and_eq_and, hleaf, exists_eq_right']

/-- **Leads.** Whatever is sent to a run of the chart, with any override that is accepted: what it
shows is consistent. While it is paused it waits for one event, since one that paused it in a child
of the active node; when this event comes, that child is entered as for the first time, with the
context that there was. -/
theorem run_consistent (hcreate : Interpreter.create chart given name = .ok fresh)
    (calls : List Call) :
    (∃ shown, (fresh.start.state.run calls).snapshot = some shown ∧ Consistent shown) ∧
    ((fresh.start.state.run calls).leafShown? = some "conversation_paused" →
      ∃ before pause between active child, calls = before ++ pause :: between ∧
        pause.event = "conversation.paused" ∧
        (∀ front, front <+: between →
          (fresh.start.state.run (before ++ pause :: front)).leafShown? =
            some "conversation_paused") ∧
        chart.find? "lead.active" = some active ∧ chart.parent? child = some active.index ∧
        child ∈ (fresh.start.state.run before).path ∧
        (fresh.start.state.run calls).context = (fresh.start.state.run before).context ∧
        ∀ waited resume, (∀ call ∈ waited, call.event ≠ "conversation.resumed") →
          resume.event = "conversation.resumed" →
          (fresh.start.state.run (calls ++ waited ++ [resume])).path =
            chart.pathTo child ++ chart.descend child ∧
          (fresh.start.state.run (calls ++ waited ++ [resume])).context =
            (fresh.start.state.run calls).context) := by
  obtain ⟨muted, hrests⟩ := exists_rests hcreate
  refine ⟨consistent_of_rests (hrests calls) ((Standing.coherent_new muted).along calls),
    fun hpaused => ?_⟩
  have hbegin : (Standing.new muted).stage ≠ .paused := nofun
  have hstage : ((Standing.new muted).along calls).stage = .paused :=
    (leafShown?_iff (hrests calls)).mp hpaused
  obtain ⟨before, pause, between, branch, rfl, hpause, hbranch, hsince⟩ :=
    Standing.exists_pause hbegin hstage
  have hnow := hsince between (List.prefix_refl between)
  obtain ⟨active, hactive, hindex⟩ := Option.map_eq_some_iff.mp find?_active
  obtain ⟨hparent, hdescend⟩ := branch_table branch branch.mem_all
  have hpausing := hrests (before ++ pause :: between)
  rw [hnow] at hpausing
  refine ⟨before, pause, between, active, branch.index, rfl, hpause, fun front hfront => ?_,
    hactive, hindex ▸ hparent, ?_, ?_, fun waited resume hwaited hresume => ?_⟩
  · rw [leafShown?_of_rests (hrests _), hsince front hfront]
    rfl
  · rw [path_of_rests (hrests before)]
    exact (stage_table _ (Stage.mem_all _)).2.2.2 branch hbranch
  · rw [hpausing.context_eq, (hrests before).context_eq]
    rfl
  · have hresumed := hrests (before ++ pause :: between ++ waited ++ [resume])
    rw [Standing.along_concat, Standing.along_append, hnow, Standing.along_of_paused rfl hwaited,
      hresume, Standing.hears_resumed] at hresumed
    refine ⟨(path_of_rests hresumed).trans hdescend, ?_⟩
    rw [hresumed.context_eq, hpausing.context_eq]
    rfl

end Runs

/-- A lead books a meeting, and is paused. -/
def pausing : List Call := [⟨.int 0, "meeting.booked"⟩, ⟨.int 0, "conversation.paused"⟩]

set_option maxRecDepth 10000 in
theorem pausing_shows :
    ((Interpreter.create chart (.obj [("follow_ups_stopped", .bool true)]) none).toOption.bind
      fun fresh => (fresh.start.state.run pausing).leafShown?) = some "conversation_paused" := by
  decide +kernel

/-- A lead that was paused, with its follow-ups stopped, is resumed with them stopped. -/
theorem run_consistent_override :
    ∃ fresh, Interpreter.create chart (.obj [("follow_ups_stopped", .bool true)]) none =
        .ok fresh ∧
      (fresh.start.state.run pausing).leafShown? = some "conversation_paused" ∧
      ∃ child, (fresh.start.state.run (pausing ++ [⟨.int 0, "conversation.resumed"⟩])).path =
          chart.pathTo child ++ chart.descend child ∧
        (fresh.start.state.run (pausing ++ [⟨.int 0, "conversation.resumed"⟩])).context =
          (fresh.start.state.run pausing).context := by
  obtain ⟨fresh, hcreate, hpaused⟩ := Option.bind_eq_some_iff.mp pausing_shows
  obtain ⟨-, hpause⟩ := run_consistent (eq_ok_of_toOption hcreate) pausing
  obtain ⟨before, pause, between, active, child, -, -, -, -, -, -, -, hresumed⟩ := hpause hpaused
  obtain ⟨hpath, hcontext⟩ := hresumed [] ⟨.int 0, "conversation.resumed"⟩ nofun rfl
  exact ⟨fresh, eq_ok_of_toOption hcreate, hpaused, child, hpath, hcontext⟩

end Lifecycle.Lead
