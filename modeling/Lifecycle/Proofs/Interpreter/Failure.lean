import Lifecycle.Proofs.Interpreter.Resumption

/-!
# Actions that fail

A run that was started or restored stays in a situation that its chart can go on from, whatever
events it is sent and whichever actions fail (`Reachable.exists_alive`). When an action fails, the
microsteps of the event that were completed stay, the failing one has written its records, and
nothing else is changed (`dispatch_failed`): the run is not put back, and the snapshot that it shows
is the one from before the event.
-/

namespace Lifecycle

namespace Chart

variable {chart : Chart} {s : Situation} {leaf : Nat}

/-- The leaf that a layout leads to is a leaf. -/
theorem isLeaf_of_leafOf {path : Json} (h : chart.leafOf path = .ok leaf) : chart.IsLeaf leaf := by
  unfold leafOf at h
  split at h
  · split at h
    · obtain ⟨i, -, h⟩ := bind_eq_ok.mp h
      split at h
      · rename_i hleaf
        cases h
        exact hleaf
      · cases h
    · cases h
  · cases h

/-- The records of a microstep that breaks fit, too. -/
theorem Arena.situated_of_breaks (tree : chart.Arena) (hs : chart.Situated s) {step : Microstep}
    {fault : Fault} (h : chart.Breaks s step fault) :
    chart.Situated { s with history := Entries.overlay s.history step.history } := by
  obtain ⟨step', hstep, hshift⟩ := tree.resolve_triggered hs.isLeaf h.triggered hs.fits
  obtain rfl := Except.ok.inj (h.resolved.symm.trans hstep)
  exact ⟨hs.isLeaf, hshift.records.fits tree hs.isLeaf (fun _ => hshift.mem_ancestors) hs.fits⟩

end Chart

namespace Interpreter

variable {chart : Chart} {m : Interpreter} {s : Situation}

/-- The states of a run that was started or restored, and then sent events, or stopped. -/
inductive Reachable (chart : Chart) : Interpreter → Prop
  | start {context : Context} {name : Option String} {snapshot : Snapshot} :
    (fresh chart context name).start.result = .ok snapshot →
      Reachable chart (started chart context name)
  | resume {path : Json} {history : Entries Json} {context : Context} {name : Option String}
    {m : Interpreter} : resume chart path history context name = .ok m → Reachable chart m
  | send {m : Interpreter} (now : Json) (event : String) :
    Reachable chart m → Reachable chart (m.dispatch now event).state
  | stop {m : Interpreter} : Reachable chart m → Reachable chart m.stop.state

theorem reachable_started {context : Context} {name : Option String}
    (h : (fresh chart context name).start.result.toOption.isSome = true) :
    Reachable chart (started chart context name) := by
  obtain ⟨snapshot, hstart⟩ := exists_ok_of_isSome h
  exact .start hstart

/-- A run shows a snapshot, and its chart can go on from where it is. -/
structure Alive (m : Interpreter) (chart : Chart) (s : Situation) : Prop extends
    m.Stands chart s where
  situated : chart.Situated s
  shown : m.snapshot.isSome = true

theorem Rests.alive (h : m.Rests chart s) : m.Alive chart s :=
  ⟨h.toStands, h.situated, by rw [h.snapshot_eq]; rfl⟩

theorem alive_of_resume (tree : chart.Arena) {path : Json} {history : Entries Json}
    {context : Context} {name : Option String}
    (h : Interpreter.resume chart path history context name = .ok m) : ∃ s, m.Alive chart s := by
  obtain ⟨leaf, hleaf, h⟩ := bind_eq_ok.mp h
  obtain ⟨records, hrecords, h⟩ := bind_eq_ok.mp h
  obtain ⟨fitted, -, h⟩ := bind_eq_ok.mp h
  cases h
  exact ⟨⟨leaf, fitted, records⟩, ⟨rfl, rfl, rfl, rfl⟩,
    ⟨Chart.isLeaf_of_leafOf hleaf, Chart.fits_of_fitHistory tree hrecords⟩, rfl⟩

theorem Alive.stop (h : m.Alive chart s) : m.stop.state.Alive chart s := by
  unfold Interpreter.stop
  split
  · exact ⟨⟨h.chart_eq, h.leaf_eq, h.context_eq, h.history_eq⟩, h.situated, h.shown⟩
  · exact ⟨⟨h.chart_eq, h.leaf_eq, h.context_eq, h.history_eq⟩, h.situated, rfl⟩

/-- After an event a run can go on, no node has come up twice in its records, and what it shows is
what it showed or the state that it is in. -/
theorem Alive.dispatch_spec (h : m.Alive chart s) (tree : chart.Arena) (now : Json)
    (event : String) :
    ∃ s', (m.dispatch now event).state.Alive chart s' ∧
      ((Entries.keys s.history).Nodup → (Entries.keys s'.history).Nodup) ∧
      ((m.dispatch now event).state.snapshot = m.snapshot ∨
        (m.dispatch now event).state.snapshot = some (m.dispatch now event).state.observe) := by
  obtain ⟨snapshot, hshown⟩ := Option.isSome_iff_exists.mp h.shown
  obtain ⟨s', passages, -, hleads, hstands, hcases⟩ :=
    h.toStands.dispatch tree h.situated hshown now event
  have hs' := tree.situated_of_leadsTo h.situated hleads
  obtain ⟨_, _, _, _, hframe⟩ := m.taken_frame passages
  rcases hcases with ⟨-, ⟨log, hstate⟩, -⟩ | ⟨-, ⟨log, hstate⟩, -⟩ | ⟨step, fault, hbreaks, hbroke⟩
  · rw [hstate]
    exact ⟨s, ⟨⟨h.chart_eq, h.leaf_eq, h.context_eq, h.history_eq⟩, h.situated, h.shown⟩, id,
      .inl rfl⟩
  · rw [hstate]
    exact ⟨s', ⟨⟨hstands.chart_eq, hstands.leaf_eq, hstands.context_eq, hstands.history_eq⟩, hs',
      rfl⟩, hleads.nodup_keys, .inr rfl⟩
  · rw [hbroke]
    refine ⟨{ s' with history := Entries.overlay s'.history step.history },
      ⟨⟨hstands.chart_eq, hstands.leaf_eq, hstands.context_eq, rfl⟩,
        tree.situated_of_breaks hs' hbreaks, by rw [hframe]; exact h.shown⟩,
      fun hnodup => Entries.nodup_keys_overlay _ (hleads.nodup_keys hnodup), ?_⟩
    rw [hframe]
    exact .inl rfl

theorem Alive.dispatch (h : m.Alive chart s) (tree : chart.Arena) (now : Json) (event : String) :
    ∃ s', (m.dispatch now event).state.Alive chart s' := by
  obtain ⟨s', halive, -⟩ := h.dispatch_spec tree now event
  exact ⟨s', halive⟩

/-- A run that was started or restored can go on. -/
theorem Reachable.exists_alive (tree : chart.Arena) (h : Reachable chart m) :
    ∃ s, m.Alive chart s := by
  induction h with
  | start hstart =>
    rename_i context name snapshot
    rcases start_cases tree context name with ⟨-, s₀, s, -, -, hrests⟩ | ⟨fault, hfault, -⟩
    · exact ⟨s, hrests.alive⟩
    · rw [hstart] at hfault; cases hfault
  | resume hresume => exact alive_of_resume tree hresume
  | send now event _ ih =>
    obtain ⟨s, hs⟩ := ih
    exact hs.dispatch tree now event
  | stop _ ih =>
    obtain ⟨s, hs⟩ := ih
    exact ⟨s, hs.stop⟩

/-- **What a failing action leaves.** When an event to a run of a built chart fails while the clock
can be read, an action of a microstep has failed in the situation that the microsteps of the event
before it lead to. That situation stays, with the records of the failing microstep, and the version
of the context goes with it; all else is as it was, also the status, the snapshot and the log. -/
theorem dispatch_failed (hbuilt : chart.Built) (hreachable : Reachable chart m) {now : Json}
    {time : Number} (htime : Record.stamp now = .ok time) {event : String} {fault : Fault}
    (hfault : (m.dispatch now event).result = .error fault) :
    ∃ s s' step, m.Stands chart s ∧ chart.LeadsTo s (m.sendPassages event) s' ∧
      chart.Breaks s' step fault ∧ (m.dispatch now event).state = { m with
        leaf := some s'.leaf
        context := s'.context
        version := (m.taken (m.sendPassages event)).version
        history := Entries.overlay s'.history step.history } := by
  have tree := hbuilt.arena
  obtain ⟨s, halive⟩ := hreachable.exists_alive tree
  obtain ⟨snapshot, hshown⟩ := Option.isSome_iff_exists.mp halive.shown
  obtain ⟨s', passages, rfl, hleads, hstands, hcases⟩ :=
    halive.toStands.dispatch tree halive.situated hshown now event
  have hnot : ¬ Shows (m.dispatch now event) Verdict.snapshot := by
    rintro ⟨verdict, hverdict, -⟩
    rw [hfault] at hverdict
    cases hverdict
  rcases hcases with ⟨-, -, hshows⟩ | ⟨-, -, hshows⟩ | ⟨step, fault', hbreaks, hbroke⟩
  · exact absurd (hshows time htime) hnot
  · exact absurd (hshows htime) hnot
  · rw [hbroke] at hfault ⊢
    obtain rfl := Except.error.inj hfault
    obtain ⟨leaf, context, version, history, hframe⟩ := m.taken_frame (m.sendPassages event)
    refine ⟨s, s', step, halive.toStands, hleads, hbreaks, ?_⟩
    rw [← hstands.leaf_eq, ← hstands.context_eq, hframe]

/-- A chart with an event that counts, and then is to be completed by an action that fails. -/
def brittle : Chart :=
  .ofDeclaration [("count", .assign [("n", .int 1)]), ("break", .fail "broken")] <|
    .obj [("id", .str "m"), ("initial", .str "s"), ("context", .obj [("n", .int 0)]),
      ("states", .obj [
        ("s", .obj [("on", .obj [("go", .obj [("target", .str "p"), ("actions", .str "count")])])]),
        ("p", .obj [("initial", .str "l"),
          ("on_done", .obj [("target", .str "d"), ("actions", .str "break")]),
          ("states", .obj [("l", .obj [("type", .str "final")]),
            ("h", .obj [("type", .str "history")])])]),
        ("d", .obj [])])]

set_option maxRecDepth 10000 in
theorem brittle_built : brittle.Built :=
  Chart.built_ofDeclaration (by decide +kernel) (by decide +kernel)

set_option maxRecDepth 10000 in
theorem brittle_reachable : Reachable brittle (started brittle brittle.context none) :=
  reachable_started (by decide +kernel)

set_option maxRecDepth 10000 in
theorem brittle_breaks : ((started brittle brittle.context none).dispatch (.int 0) "go").result =
    .error (.raised "broken") := by
  have hfault : (match ((started brittle brittle.context none).dispatch (.int 0) "go").result with
      | .error fault => some fault
      | .ok _ => none) = some (.raised "broken") := by decide +kernel
  split at hfault
  · rename_i heq
    rw [heq, Option.some.inj hfault]
  · cases hfault

set_option maxRecDepth 10000 in
/-- An event whose completion fails: the run shows the snapshot from before it. -/
theorem dispatch_failed_completing :
    brittle.Built ∧ Reachable brittle (started brittle brittle.context none) ∧
      (∃ time, Record.stamp (.int 0) = .ok time) ∧
      ((started brittle brittle.context none).dispatch (.int 0) "go").result =
        .error (.raised "broken") ∧
      ((started brittle brittle.context none).dispatch (.int 0) "go").state.snapshot =
        (started brittle brittle.context none).snapshot := by
  have hstamp : (Record.stamp (.int 0)).toOption.isSome = true := by decide +kernel
  obtain ⟨time, htime⟩ := exists_ok_of_isSome hstamp
  obtain ⟨s, s', step, -, -, -, hstate⟩ :=
    dispatch_failed brittle_built brittle_reachable htime brittle_breaks
  exact ⟨brittle_built, brittle_reachable, ⟨time, htime⟩, brittle_breaks, by rw [hstate]⟩

set_option maxRecDepth 10000 in
/-- After an event that failed, the run is at another leaf than before, with another context and
other records, which the snapshot does not show. -/
theorem failure_leaves_traces :
    brittle.Built ∧ Reachable brittle (started brittle brittle.context none) ∧
      ((started brittle brittle.context none).dispatch (.int 0) "go").result =
        .error (.raised "broken") ∧
      (started brittle brittle.context none).leaf = some 1 ∧
      ((started brittle brittle.context none).dispatch (.int 0) "go").state.leaf = some 3 ∧
      (started brittle brittle.context none).version = 0 ∧
      ((started brittle brittle.context none).dispatch (.int 0) "go").state.version = 1 ∧
      (started brittle brittle.context none).history = [] ∧
      ((started brittle brittle.context none).dispatch (.int 0) "go").state.history =
        [("m.p", "l")] :=
  ⟨brittle_built, brittle_reachable, brittle_breaks, by decide +kernel⟩

end Interpreter

end Lifecycle
