import Lifecycle.Proofs.Interpreter.Vocabulary
import Lifecycle.Proofs.Lead.Staff
import Lifecycle.Proofs.Session.Recording

/-!
# What an inspection shows

Every interpreter that there is remembers what it was handed since a lead was given it, the oldest
records dropped beyond the length that is kept (`Manager.Recorded`). So an inspection of a lead
lists the last records of its current interpreter, as many as were asked for
(`Manager.inspect_records`); where none were asked for, it lists all that are kept.
-/

namespace Lifecycle

/-! ## The record of a delivery -/

/-- The record of what became of an event. -/
def Verdict.record (event : String) (before : Snapshot) (time : Number) : Verdict → Record
  | handled after _ => ⟨event, before.value, after.value, true, "", time⟩
  | ignored snapshot diagnostic =>
    ⟨event, snapshot.value, snapshot.value, false, diagnostic.reason, time⟩

namespace Interpreter

variable {m : Interpreter} {now : Json} {event : String}

/-- The record that an event leaves, if it leaves one: what fails leaves none. -/
def record? (m : Interpreter) (now : Json) (event : String) : Option Record := do
  let before ← m.snapshot
  let verdict ← (m.dispatch now event).result.toOption
  let time ← (Record.stamp now).toOption
  return verdict.record event before time

/-- An event leaves its record. -/
theorem dispatch_log (m : Interpreter) (now : Json) (event : String) :
    (m.dispatch now event).state.log = (m.record? now event).toList.foldl Record.append m.log := by
  unfold record?
  rcases hshown : m.snapshot with _ | before
  · rw [dispatch_of_unshown hshown]
    rfl
  by_cases hidle : m.Idle event
  · obtain ⟨reason, signals, hdispatch⟩ := dispatch_of_idle hidle now hshown
    rw [hdispatch, ignore]
    cases Record.stamp now <;> rfl
  · obtain ⟨leaf, t, -, -, hdispatch⟩ := dispatch_of_not_idle hidle now hshown
    rw [hdispatch]
    rcases m.react_log_cases now event before leaf t with
      ⟨fault, hresult, hlog⟩ | ⟨after, changed, time, hresult, htime, hlog⟩
    · rw [hresult, hlog]
      rfl
    · rw [hresult, hlog, htime]
      rfl

/-- A transition takes nothing away from what is shown. -/
theorem isSome_snapshot_react (h : m.snapshot.isSome = true) (now : Json) (before : Snapshot)
    (event : String) (leaf : Nat) (t : Transition) :
    (m.react now before event leaf t).state.snapshot.isSome = true := by
  obtain ⟨_, _, _, _, hfollow⟩ := m.follow_frame leaf t
  obtain ⟨_, _, _, _, _, -, hsettle⟩ :=
    (m.follow leaf t).1.settleFrom_frame (List.range (m.follow leaf t).1.chart.nodes.size)
  have hsettled : (m.follow leaf t).1.settle.state.snapshot = m.snapshot := by
    rw [settle, hsettle, hfollow]
  unfold react
  split
  · rename_i taken fault htaken
    rw [show taken = (m.follow leaf t).1 by rw [htaken], hfollow]
    exact h
  · rename_i taken htaken
    rw [htaken] at hsettled
    dsimp only
    split
    · exact hsettled ▸ h
    · rfl
    · rfl

/-- A run that shows something goes on to show something. -/
theorem isSome_snapshot_dispatch (h : m.snapshot.isSome = true) (now : Json) (event : String) :
    (m.dispatch now event).state.snapshot.isSome = true := by
  obtain ⟨before, hshown⟩ := Option.isSome_iff_exists.mp h
  by_cases hidle : m.Idle event
  · obtain ⟨reason, signals, hdispatch⟩ := dispatch_of_idle hidle now hshown
    obtain ⟨log, hstate⟩ := m.ignore_state now before event reason signals
    rw [hdispatch, hstate]
    exact h
  · obtain ⟨leaf, t, -, -, hdispatch⟩ := dispatch_of_not_idle hidle now hshown
    rw [hdispatch]
    exact isSome_snapshot_react h ..

/-- A run that has started shows something. -/
theorem isSome_snapshot_start {shown : Snapshot} (hfresh : m.status = .notStarted)
    (h : m.start.result = .ok shown) : m.start.state.snapshot.isSome = true := by
  rcases hrun : Action.runAll (initialActions m.chart) m.context with fault | context
  · rw [start_of_error hfresh hrun] at h
    cases h
  · rw [start_of_ok hfresh hrun] at h ⊢
    split at h
    · cases h
    · rfl

/-- To stop a run keeps its records, and what it shows. -/
theorem stop_keeps (m : Interpreter) :
    m.stop.state.log = m.log ∧
      (m.snapshot.isSome = true → m.stop.state.snapshot.isSome = true) := by
  unfold stop
  split
  · exact ⟨rfl, id⟩
  · exact ⟨rfl, fun _ => rfl⟩

end Interpreter

/-! ## What interpreters remember -/

/-- The record that is left with the interpreter of a ticket. -/
def Incident.record? (ticket : Nat) : Incident → Option Record
  | called d =>
    if d.agent.ticket = ticket then d.agent.interpreter.record? d.call.now d.call.event else none
  | told .. | complained .. | offered .. | taken .. => none

/-- An event that is handed to other interpreters leaves no record. -/
theorem Incident.filterMap_record?_eq_nil {xs : List Incident} {ticket : Nat}
    (h : ∀ d, .called d ∈ xs → d.agent.ticket ≠ ticket) : xs.filterMap (record? ticket) = [] := by
  refine List.filterMap_eq_nil_iff.mpr fun x hx => ?_
  cases x with
  | called d => exact if_neg (h d hx)
  | _ => rfl

namespace Manager

variable {m m' : Manager} {past xs : List Incident} {lead : String} {chart : Chart}
  {interpreter : Interpreter}

/-- A new interpreter shows something and has no records. -/
theorem Candidate.shown (h : Candidate chart lead interpreter) :
    interpreter.snapshot.isSome = true ∧ interpreter.log = [] := by
  cases h with
  | started hresult =>
    refine ⟨?_, (Interpreter.fresh chart chart.context (some lead)).start_fixed.2⟩
    exact Interpreter.isSome_snapshot_start rfl hresult
  | revived hun hrevive =>
    obtain ⟨checked, -, hlayout⟩ := bind_eq_ok.mp hrevive
    obtain ⟨leaf, -, h⟩ := bind_eq_ok.mp hlayout
    obtain ⟨records, -, h⟩ := bind_eq_ok.mp h
    obtain ⟨fitted, -, h⟩ := bind_eq_ok.mp h
    cases h
    exact ⟨rfl, rfl⟩

/-- All interpreters remember what they have been handed. -/
structure Recorded (past : List Incident) (m : Manager) : Prop where
  paired : m.Paired
  shown : ∀ agent ∈ m.staff, agent.interpreter.snapshot.isSome = true
  log_eq : ∀ agent ∈ m.staff, agent.interpreter.log =
    (past.filterMap (Incident.record? agent.ticket)).foldl Record.append []
  ticket_lt : ∀ agent ∈ m.staff, agent.ticket < m.nextTicket
  /-- No ticket that is still to be given out is spoken of. -/
  called_lt : ∀ d, .called d ∈ past → d.agent.ticket < m.nextTicket

theorem Recorded.step (h : Recorded past m) (hstep : m.Step xs m') :
    Recorded (past ++ xs) m' := by
  have hnext := hstep.frame.2.2
  have hcalled : ∀ d, .called d ∈ xs → d.agent.ticket < m.nextTicket :=
    fun d hd => h.ticket_lt _ (hstep.exists_of_called hd).1
  refine ⟨hstep.paired h.paired, fun agent hagent => ?_, fun agent hagent => ?_,
    fun agent hagent => ?_, fun d hd => ?_⟩
  · rcases hstep.staff_cases hagent with ⟨hold, -⟩ | ⟨d, -, hd, rfl⟩ | ⟨-, old, hold, rfl⟩ |
      ⟨-, lead, interpreter, hcandidate, rfl, -⟩
    · exact h.shown agent hold
    · exact Interpreter.isSome_snapshot_dispatch (h.shown _ hd) _ _
    · exact (Interpreter.stop_keeps _).2 (h.shown old hold)
    · exact hcandidate.shown.1
  · rw [List.filterMap_append, List.foldl_append]
    rcases hstep.staff_cases hagent with ⟨hold, hother⟩ | ⟨d, rfl, hd, rfl⟩ |
      ⟨rfl, old, hold, rfl⟩ | ⟨rfl, lead, interpreter, hcandidate, rfl, -⟩
    · rw [Incident.filterMap_record?_eq_nil hother]
      exact h.log_eq agent hold
    · have hrecord : [Incident.called d].filterMap (Incident.record? d.agent.ticket) =
          (d.agent.interpreter.record? d.call.now d.call.event).toList := by
        rw [List.filterMap_cons, Incident.record?, if_pos rfl, List.filterMap_nil]
        cases d.agent.interpreter.record? d.call.now d.call.event <;> rfl
      have hticket : d.after.ticket = d.agent.ticket := rfl
      rw [hticket, hrecord, ← h.log_eq d.agent hd]
      exact d.agent.interpreter.dispatch_log d.call.now d.call.event
    · exact (Interpreter.stop_keeps _).1.trans (h.log_eq old hold)
    · rw [Incident.filterMap_record?_eq_nil fun d hd => (h.called_lt d hd).ne]
      exact hcandidate.shown.2
  · rcases hstep.staff_cases hagent with ⟨hold, -⟩ | ⟨d, -, hd, rfl⟩ | ⟨-, old, hold, rfl⟩ |
      ⟨-, lead, interpreter, hcandidate, rfl, hlt⟩
    · exact (h.ticket_lt agent hold).trans_le hnext
    · exact (h.ticket_lt d.agent hd).trans_le hnext
    · exact (h.ticket_lt old hold).trans_le hnext
    · exact hlt
  · rcases List.mem_append.mp hd with hd | hd
    · exact (h.called_lt d hd).trans_le hnext
    · exact (hcalled d hd).trans_le hnext

end Manager

namespace Record

/-- How many records are listed at most when a number of them is asked for: where none are, all that
are kept. -/
def listed : Option Nat → Nat
  | none | some 0 => Settings.logLength
  | some limit => min limit Settings.logLength

/-- The latest of the records that are kept are the last ones of all. -/
theorem latest_rtake (records : List Record) (limit : Option Nat) :
    latest (records.rtake Settings.logLength) (limit.map Int.ofNat) =
      records.rtake (listed limit) := by
  have hrtake (k n : Nat) : (records.rtake n).rtake k = records.rtake (min k n) := by
    simp only [List.rtake_eq_reverse_take_reverse, List.reverse_reverse, List.take_take]
  match limit with
  | none | some 0 => rfl
  | some (k + 1) =>
    have hpos : 0 < Int.ofNat (k + 1) := Int.natCast_pos.mpr k.succ_pos
    have hlisted : listed (some (k + 1)) = min (k + 1) Settings.logLength := rfl
    rw [hlisted, ← hrtake, Option.map_some, latest]
    simp only [if_neg hpos.ne', if_pos hpos]
    rfl

end Record

namespace Manager

/-- **What an inspection lists.** Whatever happens in an office, of whatever chart and with whatever
callbacks: an inspection of a lead shows the last records of what the current interpreter of the
lead has been handed, by whomever, as many of them as were asked for and as are kept; where none
were asked for, or none is the number, it shows all that are kept. A lead that there is not has no
inspection. -/
theorem inspect_records (chart : Chart) (policy : Policy) (telemetry : Telemetry)
    (onChange : Option (String → Snapshot → List ChangeCommand))
    (onIgnored : Option (IgnoredEvent → Option Fault)) (affairs : List Office.Affair)
    (lead : String) (limit : Option Nat) :
    let o := Office.opened chart policy telemetry onChange onIgnored
    let m := (o.attendAll affairs).manager
    (m.inspect lead (limit.map Int.ofNat)).map (Option.map Inspection.records) =
      .ok ((m.agent? lead).map fun agent =>
        ((o.history affairs).filterMap (Incident.record? agent.ticket)).rtake
          (Record.listed limit)) := by
  intro o m
  have hopened : Recorded [] o.manager :=
    ⟨fun _ => rfl, List.forall_mem_nil _, List.forall_mem_nil _, List.forall_mem_nil _,
      fun _ hd => absurd hd List.not_mem_nil⟩
  have hrecorded : Recorded (o.history affairs) m := by
    refine Office.keeps_attendAll Recorded (fun h hstep => h.step hstep) ?_ ?_ hopened
    · exact fun _ _ h => ⟨h.paired, h.shown, h.log_eq, h.ticket_lt, h.called_lt⟩
    · exact fun _ h => ⟨h.paired, h.shown, h.log_eq, h.ticket_lt, h.called_lt⟩
  have hpaired := hrecorded.paired lead
  unfold inspect
  rcases hagent : m.agent? lead with _ | agent
  · rfl
  · rw [hagent] at hpaired
    obtain ⟨box, hbox⟩ := Option.isSome_iff_exists.mp hpaired.symm
    have hmem := mem_staff_of_agent? hagent
    obtain ⟨shown, hshown⟩ := Option.isSome_iff_exists.mp (hrecorded.shown agent hmem)
    have hlog := hrecorded.log_eq agent hmem
    rw [Record.foldl_append (Nat.zero_le _), List.nil_append] at hlog
    rw [hbox]
    simp only [Interpreter.shown, hshown, Except.map, hlog, Record.latest_rtake, Option.map_some]

set_option maxRecDepth 10000 in
/-- **None are all.** An inspection that is to list no record lists the one that there is. -/
theorem inspect_lists_all :
    ¬ ∀ (affairs : List Office.Affair) (lead : String) (limit : Nat),
      let o := Office.opened Lead.chart .reset (.fresh true false) none none
      let m := (o.attendAll affairs).manager
      (m.inspect lead (some limit)).map (Option.map Inspection.records) =
        .ok ((m.agent? lead).map fun agent =>
          ((o.history affairs).filterMap (Incident.record? agent.ticket)).rtake
            (min limit Settings.logLength)) := by
  intro hall
  have hnone := hall [.errand (.move (.send "ada" "meeting.booked"))] "ada" 0
  rw [Nat.zero_min] at hnone
  have hlisted := congrArg (fun shown : Except Fault (Option (List Record)) =>
    shown.toOption.join.map List.length) hnone
  simp only [List.rtake_zero] at hlisted
  revert hlisted
  decide +kernel

end Manager

end Lifecycle
