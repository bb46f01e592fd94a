import Lifecycle.Proofs.Interpreter.Succession
import Lifecycle.Proofs.Lead.Chart

/-!
# Where a lead stands

The chart of a lead has thirteen leaves, one mark in its context and one node with history. What a
run of it does is determined by these three (`Standing`), and an event leads from one standing to
another by a table of the leaf, the branch that the leaf is in, and the node that is active in all
branches (`Standing.goal?`). The chart does what the table says (`successor_situation`), so a run
rests in the situation of the standing that its events lead to (`exists_rests`).
-/

namespace Lifecycle

/-- The key of the leaf that a run shows. -/
def Interpreter.leafShown? (m : Interpreter) : Option String := m.snapshot.bind Snapshot.leaf?

namespace Lead

open LeadEvent (agentMessageSent voiceCallInitiated leadMessageSent followUpSequenceCompleted
  followUpStopped leadOptedOut meetingBooked dealClosed humanIntervened meetingAttended
  meetingMissed goalHit conversationStopped conversationPaused conversationResumed)

/-! ## Branches and stages -/

/-- The children of the active node that a pause can interrupt. -/
inductive Branch where
  | qualification
  | intervention
  | conversion
deriving DecidableEq

/-- The leaves of the chart. -/
inductive Stage where
  | idle
  | outreach
  | engaged
  | cold
  | optedOut
  | closed
  | intervened
  | booked
  | attended
  | missed
  | succeeded
  | stopped
  | paused
deriving DecidableEq

namespace Branch

/-- All branches. -/
def all : List Branch := [.qualification, .intervention, .conversion]

theorem mem_all (branch : Branch) : branch ∈ all := by
  cases branch <;> decide

/-- All records of a branch. -/
theorem mem_all_kept (kept : Option Branch) : kept ∈ none :: all.map some := by
  cases kept with
  | none => exact List.mem_cons_self
  | some branch => exact List.mem_cons_of_mem _ (List.mem_map_of_mem branch.mem_all)

/-- The key of the branch in the chart. -/
def key : Branch → String
  | qualification => "lead_qualification"
  | intervention => "human_intervention"
  | conversion => "conversion"

/-- The node of the branch in the chart. -/
def index : Branch → Nat
  | qualification => 2
  | intervention => 9
  | conversion => 11

/-- The stage at which the branch is entered. -/
def first : Branch → Stage
  | qualification => .idle
  | intervention => .intervened
  | conversion => .booked

/-- Where an event leads that the branch handles. -/
def own? : Branch → LeadEvent → Option Stage
  | qualification, meetingBooked => some .booked
  | qualification, dealClosed => some .closed
  | qualification, humanIntervened => some .intervened
  | intervention, meetingBooked => some .booked
  | intervention, dealClosed => some .closed
  | conversion, dealClosed => some .closed
  | conversion, humanIntervened => some .intervened
  | _, _ => none

end Branch

namespace Stage

/-- All stages. -/
def all : List Stage :=
  [.idle, .outreach, .engaged, .cold, .optedOut, .closed, .intervened, .booked, .attended, .missed,
    .succeeded, .stopped, .paused]

theorem mem_all (stage : Stage) : stage ∈ all := by
  cases stage <;> decide

/-- The key of the leaf. -/
def key : Stage → String
  | idle => "idle"
  | outreach => "outreach"
  | engaged => "engaged"
  | cold => "cold"
  | optedOut => "opted_out"
  | closed => "deal_closed"
  | intervened => "human_intervention"
  | booked => "meeting_booked"
  | attended => "meeting_attended"
  | missed => "meeting_missed"
  | succeeded => "goal_hit"
  | stopped => "conversation_stopped"
  | paused => "conversation_paused"

/-- The node of the leaf in the chart. -/
def index : Stage → Nat
  | idle => 3
  | outreach => 4
  | engaged => 5
  | cold => 6
  | optedOut => 7
  | closed => 8
  | intervened => 9
  | booked => 12
  | attended => 13
  | missed => 14
  | succeeded => 15
  | stopped => 16
  | paused => 17

/-- The branch that the leaf is in. -/
def branch? : Stage → Option Branch
  | idle | outreach | engaged | cold | optedOut => some .qualification
  | intervened => some .intervention
  | booked | attended | missed => some .conversion
  | closed | succeeded | stopped | paused => none

/-- Whether the leaf is outside of the active node. -/
def isOutside : Stage → Bool
  | succeeded | stopped | paused => true
  | _ => false

/-- Where an event leads that the leaf handles. -/
def own? : Stage → LeadEvent → Option Stage
  | idle, agentMessageSent => some outreach
  | idle, voiceCallInitiated => some outreach
  | idle, leadMessageSent => some engaged
  | outreach, leadMessageSent => some engaged
  | outreach, followUpSequenceCompleted => some cold
  | outreach, followUpStopped => some outreach
  | engaged, followUpSequenceCompleted => some cold
  | engaged, followUpStopped => some engaged
  | engaged, leadOptedOut => some optedOut
  | cold, leadMessageSent => some engaged
  | optedOut, leadMessageSent => some engaged
  | booked, meetingAttended => some attended
  | booked, meetingMissed => some missed
  | missed, leadMessageSent => some engaged
  | missed, meetingBooked => some booked
  | _, _ => none

end Stage

/-- Where an event leads that the active node handles. -/
def active? : LeadEvent → Option Stage
  | goalHit => some .succeeded
  | conversationStopped => some .stopped
  | conversationPaused => some .paused
  | _ => none

/-! ## Standings -/

/-- Where a lead stands: its leaf, whether follow-ups have been stopped, and the branch on record. -/
structure Standing where
  stage : Stage
  muted : Bool
  kept : Option Branch

namespace Standing

variable (standing : Standing) {event : LeadEvent}

/-- The stage that an event leads to, if it is handled: by the leaf, by its branch, or by the active
node. A pause handles one event, and resumes the branch on record. -/
def goal? (event : LeadEvent) : Option Stage :=
  match standing.stage.branch? with
  | some branch => (standing.stage.own? event).or ((branch.own? event).or (active? event))
  | none =>
    if standing.stage = .paused ∧ event = conversationResumed then
      some (standing.kept.getD .qualification).first
    else none

/-- The standing at another stage. Leaving the active node puts the branch on record; stopping the
follow-ups sets the mark, and entering a conversation after that clears it. -/
def move (event : LeadEvent) (goal : Stage) : Standing where
  stage := goal
  muted := goal != .engaged && (event == followUpStopped || standing.muted)
  kept := if goal.isOutside then standing.stage.branch? else standing.kept

/-- The standing after an event. -/
def after (event : LeadEvent) : Standing :=
  ((standing.goal? event).map (standing.move event)).getD standing

/-- The standing after a text is sent; one that is no event changes nothing. -/
def hears (text : String) : Standing := ((LeadEvent.ofWord? text).map standing.after).getD standing

/-- The standing after some calls. -/
def along (calls : List Call) : Standing := (calls.map Call.event).foldl hears standing

/-- The mark in the context of a lead. -/
def flagContext (muted : Bool) : Context := [(.text "follow_ups_stopped", .bool muted)]

/-- The history records of a lead. -/
def records (kept : Option Branch) : Entries String :=
  (kept.map fun branch => ("lead.active", branch.key)).toList

/-- The situation of a run. -/
def situation : Situation where
  leaf := standing.stage.index
  context := flagContext standing.muted
  history := records standing.kept

/-- A lead that nothing has happened to. -/
def new (muted : Bool) : Standing := ⟨.idle, muted, none⟩

theorem along_cons (call : Call) (calls : List Call) :
    standing.along (call :: calls) = (standing.hears call.event).along calls := rfl

theorem along_append (before after : List Call) :
    standing.along (before ++ after) = (standing.along before).along after := by
  rw [along, List.map_append, List.foldl_append]
  rfl

theorem along_concat (calls : List Call) (call : Call) :
    standing.along (calls ++ [call]) = (standing.along calls).hears call.event := by
  rw [along_append]
  rfl

end Standing

/-! ## The chart and the table -/

/-- The mark of a context that has nothing else. -/
def flag? : Context → Option Bool
  | [(.text key, .bool muted)] => if key = "follow_ups_stopped" then some muted else none
  | _ => none

theorem eq_of_flag? {context : Context} {muted : Bool} (h : flag? context = some muted) :
    context = Standing.flagContext muted := by
  unfold flag? at h
  split at h
  · split at h
    · rename_i hkey
      rw [Standing.flagContext, ← hkey, Option.some.inj h]
    · cases h
  · cases h

theorem eq_situation {s : Situation} {standing : Standing} (hleaf : s.leaf = standing.stage.index)
    (hflag : flag? s.context = some standing.muted)
    (hhistory : s.history = Standing.records standing.kept) : s = standing.situation := by
  obtain ⟨leaf, context, history⟩ := s
  obtain rfl := hleaf
  obtain rfl := eq_of_flag? hflag
  obtain rfl := hhistory
  rfl

set_option maxRecDepth 10000 in
/-- How a run of the chart begins, and that no leaf completes anything. -/
theorem chart_facts : flag? chart.context = some false ∧ chart.events = some LeadEvent.words ∧
    (Interpreter.initialActions chart).isEmpty = true ∧ chart.leafBelow 0 = Stage.idle.index ∧
    ∀ n ∈ chart.nodes.toList, n.onDone.isNone = true := by
  decide +kernel

theorem context_eq : chart.context = Standing.flagContext false := eq_of_flag? chart_facts.1

theorem events_eq : chart.events = some LeadEvent.words := chart_facts.2.1

theorem completesNothing : chart.CompletesNothing :=
  Chart.completesNothing_of_onDone chart_facts.2.2.2.2

/-- An override that is accepted sets the mark, and nothing else. -/
theorem exists_flagContext {given : Json} {fitted : Context}
    (h : chart.fitGiven given = .ok fitted) : ∃ muted, fitted = Standing.flagContext muted := by
  have schema := chart_built.isMap_context refl_of_mem_context
  have hkeys : Entries.keys fitted = [.text "follow_ups_stopped"] := by
    rw [Chart.keys_of_fitGiven h, context_eq]
    rfl
  -- There is one key, so there is one entry; its value is of the kind of the default.
  obtain ⟨⟨key, value⟩, rfl⟩ : ∃ entry, fitted = [entry] := by
    have hlength := congrArg List.length hkeys
    rw [Entries.keys, List.length_map] at hlength
    exact List.length_eq_one_iff.mp hlength
  obtain rfl : key = .text "follow_ups_stopped" := List.head_eq_of_cons_eq hkeys
  have hget : Entries.get? [(Json.Key.text "follow_ups_stopped", value)]
      (.text "follow_ups_stopped") = some value := rfl
  have hfits := (Chart.restorable_of_fitGiven schema h).fits hget
  rw [context_eq] at hfits
  cases value with
  | bool muted => exact ⟨muted, rfl⟩
  | _ => cases hfits

set_option maxRecDepth 10000 in
/-- The table, checked at all standings and events. -/
theorem successor_table : ∀ stage ∈ Stage.all, ∀ muted ∈ [true, false],
    ∀ kept ∈ none :: Branch.all.map some, ∀ event ∈ LeadEvent.all,
      let next := (Standing.mk stage muted kept).after event
      let s := chart.successor (Standing.mk stage muted kept).situation event.word
      s.leaf = next.stage.index ∧ flag? s.context = some next.muted ∧
        s.history = Standing.records next.kept := by
  decide +kernel

theorem word_of_ofWord? {text : String} {event : LeadEvent}
    (h : LeadEvent.ofWord? text = some event) : event.word = text :=
  eq_of_beq (List.find?_some (p := fun event : LeadEvent => event.word == text) h)

theorem notMem_words_of_ofWord? {text : String} (h : LeadEvent.ofWord? text = none) :
    text ∉ LeadEvent.words := by
  intro hmem
  obtain ⟨event, hevent, rfl⟩ := List.mem_map.mp hmem
  exact List.find?_eq_none.mp h event hevent (beq_self_eq_true _)

/-- The chart goes from standing to standing as the table says. -/
theorem successor_situation (standing : Standing) (text : String) :
    chart.successor standing.situation text = (standing.hears text).situation := by
  rw [Standing.hears]
  -- A text outside of the vocabulary triggers nothing; the others are in the table.
  rcases hevent : LeadEvent.ofWord? text with _ | event
  · have hforeign : chart.events.all (·.contains text) = false := by
      rw [events_eq, Option.all_some, List.contains_eq_mem]
      exact decide_eq_false (notMem_words_of_ofWord? hevent)
    rw [Chart.successor, Chart.transitionFor?, hforeign, if_neg (by simp)]
    rfl
  · obtain rfl := word_of_ofWord? hevent
    obtain ⟨stage, muted, kept⟩ := standing
    obtain ⟨hleaf, hflag, hhistory⟩ := successor_table stage stage.mem_all muted
      (by cases muted <;> decide) kept (Branch.mem_all_kept kept) event event.mem_all
    exact eq_situation hleaf hflag hhistory

/-! ## What is shown at a stage -/

set_option maxRecDepth 10000 in
/-- The leaves of the chart, checked at all stages. -/
theorem stage_table : ∀ stage ∈ Stage.all, chart.keyAt stage.index = stage.key ∧
    ((chart.pathTo stage.index).map chart.keyAt).contains "active" = !stage.isOutside ∧
    (chart.statusAt stage.index = .done ↔ stage ∈ [.closed, .succeeded, .stopped]) ∧
    ∀ branch ∈ stage.branch?, branch.index ∈ chart.pathTo stage.index := by
  decide +kernel

theorem Stage.key_inj {a b : Stage} (h : a.key = b.key) : a = b := by
  have hall : ∀ a ∈ Stage.all, ∀ b ∈ Stage.all, a.key = b.key → a = b := by decide
  exact hall a a.mem_all b b.mem_all h

/-! ## Runs -/

section Runs

variable {m fresh : Interpreter} {standing : Standing} {given : Json} {name : Option String}

/-- A run of the chart, with any override that is accepted, rests after some calls in the situation
of the standing that they lead to. -/
theorem exists_rests (hcreate : Interpreter.create chart given name = .ok fresh) :
    ∃ muted, ∀ calls, (fresh.start.state.run calls).Rests chart
      ((Standing.new muted).along calls).situation := by
  obtain ⟨fitted, hfitted, rfl⟩ := map_eq_ok.mp hcreate
  obtain ⟨muted, rfl⟩ := exists_flagContext hfitted
  refine ⟨muted, fun calls => ?_⟩
  obtain ⟨-, -, hquiet, hleaf, -⟩ := chart_facts
  have hstarted := Interpreter.started_rests chart_built.arena chart_neverFails completesNothing
    (List.isEmpty_iff.mp hquiet) (Standing.flagContext muted) name
  rw [hleaf, Interpreter.started] at hstarted
  have hrun := hstarted.run_successors chart_built.arena chart_neverFails completesNothing calls
  rwa [show (⟨Stage.idle.index, Standing.flagContext muted, []⟩ : Situation) =
    (Standing.new muted).situation from rfl,
    List.foldl_hom Standing.situation successor_situation] at hrun

variable (h : m.Rests chart standing.situation)

include h

theorem path_of_rests : m.path = chart.pathTo standing.stage.index := h.path_eq

/-- A run shows the stage that it is at. -/
theorem leafShown?_of_rests : m.leafShown? = some standing.stage.key := by
  rw [Interpreter.leafShown?, h.snapshot_eq, Option.bind_some, Snapshot.leaf?, Interpreter.observe,
    h.path_eq, h.chart_eq, List.getLast?_map, Chart.getLast?_pathTo, Option.map_some]
  exact congrArg some (stage_table _ standing.stage.mem_all).1

theorem leafShown?_iff {stage : Stage} :
    m.leafShown? = some stage.key ↔ standing.stage = stage := by
  rw [leafShown?_of_rests h, Option.some.injEq]
  exact ⟨Stage.key_inj, congrArg _⟩

end Runs

end Lead

end Lifecycle
