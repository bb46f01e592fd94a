import Lifecycle.Proofs.Interpreter.Versions
import Lifecycle.Proofs.Session.Quiet

/-!
# Delivery to observers who leave the run alone

A running interpreter shows the state that it is in (`Reachable.snapshot_eq`), so the snapshot after
an event that is handled is compared with the state before it (`dispatch_handled`). Quiet observers
are all shown it, in the order in which they were registered when the event came, whatever they fail
with and whoever leaves meanwhile (`notify_frame`). Hence a change of the path or of the context is
delivered to each registration once, and to nobody where no microstep changes anything; for the run
it is as if nobody were there (`send_delivers`).
-/

namespace Lifecycle

namespace Interpreter

variable {chart : Chart} {m : Interpreter} {s : Situation} {event : String} {now : Json}

/-! ## Events that are handled -/

/-- A restored run has begun, and shows the state that it is in. -/
theorem resume_spec {path : Json} {history : Entries Json} {context : Context}
    {name : Option String} (h : Interpreter.resume chart path history context name = .ok m) :
    m.snapshot = some m.observe ∧ 0 < m.status.stage := by
  obtain ⟨leaf, -, h⟩ := bind_eq_ok.mp h
  obtain ⟨records, -, h⟩ := bind_eq_ok.mp h
  obtain ⟨fitted, -, h⟩ := bind_eq_ok.mp h
  cases h
  refine ⟨rfl, ?_⟩
  dsimp only [publish]
  split <;> decide

/-- A run that goes on shows the state that it is in, where no action fails. -/
theorem Reachable.snapshot_eq (tree : chart.Arena) (total : chart.NeverFails)
    (h : Reachable chart m) (hrunning : m.status = .running) : m.snapshot = some m.observe := by
  induction h with
  | start hstart =>
    obtain ⟨-, _, s, -, -, hrests⟩ := start_spec tree total _ _
    exact hrests.snapshot_eq
  | resume hresume => exact (resume_spec hresume).1
  | @send m now event hm ih =>
    obtain ⟨s, halive⟩ := hm.exists_alive tree
    obtain ⟨snapshot, hshown⟩ := Option.isSome_iff_exists.mp halive.shown
    obtain ⟨_, _, -, -, -, hcases⟩ :=
      halive.toStands.dispatch tree halive.situated hshown now event
    rcases hcases with ⟨-, ⟨log, hstate⟩, -⟩ | ⟨-, ⟨log, hstate⟩, -⟩ | ⟨step, fault, hbreaks, -⟩
    -- An ignored event only adds a record, which no snapshot shows.
    · rw [hstate] at hrunning ⊢
      exact ih hrunning
    · rw [hstate]
      rfl
    · exact absurd hbreaks (total.keeps.not_breaks tree trivial)
  | stop hm =>
    unfold Interpreter.stop at hrunning
    split at hrunning <;> cases hrunning

/-- The result of a transition is the snapshot of the state after it, compared with the snapshot
before it. -/
theorem react_eq_ok {before : Snapshot} {leaf : Nat} {t : Transition} {verdict : Verdict}
    (h : (m.react now before event leaf t).result = .ok verdict) :
    verdict = .handled (m.react now before event leaf t).state.observe
        ((m.react now before event leaf t).state.observe.path != before.path ||
          (m.react now before event leaf t).state.version != m.version) ∧
      (m.react now before event leaf t).state.snapshot =
        some (m.react now before event leaf t).state.observe := by
  unfold react at h ⊢
  generalize m.follow leaf t = followed at h ⊢
  obtain ⟨taken, _ | fault⟩ := followed
  · dsimp only at h ⊢
    generalize taken.settle = settled, Record.stamp now = stamped at h ⊢
    obtain ⟨state, signals, fault | _⟩ := settled
    · cases h
    · obtain fault | time := stamped
      · cases h
      · exact ⟨(Except.ok.inj h).symm, rfl⟩
  · cases h

/-- An event that there is something to be done for is handled, where no action fails and the clock
can be read. -/
theorem dispatch_handled (tree : chart.Arena) (total : chart.NeverFails)
    (halive : m.Alive chart s) {before : Snapshot} (hshown : m.snapshot = some before)
    (hevent : ¬ m.Idle event) {time : Number} (htime : Record.stamp now = .ok time) :
    ∃ after, (m.dispatch now event).result = .ok (.handled after
        (after.path != before.path || after.version != m.version)) ∧
      (m.dispatch now event).state.observe = after ∧
      (m.dispatch now event).state.snapshot = some after := by
  obtain ⟨leaf, t, hrunning, hhandler, hdispatch⟩ := dispatch_of_not_idle hevent now hshown
  obtain ⟨rfl, ht⟩ : leaf = s.leaf ∧ chart.findTransition? s.leaf event = some t := by
    rw [handler?, halive.leaf_eq, halive.chart_eq] at hhandler
    obtain ⟨t', ht', heq⟩ := Option.map_eq_some_iff.mp hhandler
    obtain ⟨rfl, rfl⟩ := Prod.mk.inj heq
    exact ⟨rfl, ht'⟩
  obtain ⟨_, _, -, -, -, hreacted | ⟨step, fault, hbreaks, -⟩⟩ :=
    halive.toStands.react tree halive.situated hrunning ht now before
  · obtain ⟨verdict, hresult, -⟩ := hreacted.shows htime
    obtain ⟨rfl, hsnapshot⟩ := react_eq_ok hresult
    rw [hdispatch]
    exact ⟨_, hresult, rfl, hsnapshot⟩
  · exact absurd hbreaks (total.keeps.not_breaks tree trivial)

end Interpreter

namespace Session

variable {send : Sender} {chronicler : Chronicler} {s : Session} {levels : Nat} {event : String}

/-! ## Notifications of quiet observers -/

/-- To be shown a snapshot changes a quiet observer's registrations at most, and is noted. -/
theorem tell_frame (hquiet : s.Quiet) (snapshot : Snapshot) (label : String) :
    ∃ observers, (tell send snapshot label s).1 = { s with
      observers := observers
      notes := s.notes ++ [.changed label snapshot.value snapshot.version] } :=
  perform_frame (fun _ hcommand => hquiet.commandsOf snapshot label hcommand) _

variable (send chronicler) in
/-- When a quiet observer has been shown a snapshot, whatever it fails with, the next ones are. -/
theorem notify_cons_of_quiet (hroom : levels ≠ 0) (hquiet : s.Quiet) (snapshot : Snapshot)
    (label : String) (rest : List String) :
    ∃ observers telemetry after, after = { s with
        observers := observers
        telemetry := telemetry
        notes := s.notes ++ [.changed label snapshot.value snapshot.version] } ∧ after.Quiet ∧
      notify send levels snapshot (label :: rest) s = notify send levels snapshot rest after ∧
      chronicleNotify send chronicler levels snapshot (label :: rest) s =
        .told label snapshot :: chronicleNotify send chronicler levels snapshot rest after := by
  have hsilent (event : String) : Command.send event ∉ s.commandsOf snapshot label :=
    fun hsend => Bool.noConfusion (hquiet.commandsOf snapshot label hsend)
  obtain ⟨observers, htold⟩ : ∃ observers, (tell send snapshot label s).1 = _ :=
    tell_frame hquiet snapshot label
  rw [notify, chronicleNotify, chronicleTell, chroniclePerform_of_silent _ hsilent,
    List.singleton_append]
  rcases htell : tell send snapshot label s with ⟨after, _ | fault⟩ <;> rw [htell] at htold <;>
    subst htold
  · exact ⟨_, _, _, rfl, hquiet.of_eq rfl, rfl, rfl⟩
  · dsimp only
    rw [if_pos (by simp [canLog, hroom]), if_pos (by simp [canLog, hroom])]
    exact ⟨_, _, _, rfl, hquiet.of_eq rfl, rfl, rfl⟩

/-- Quiet observers are all told, whatever they fail with, and whoever leaves. -/
theorem notify_frame (hroom : levels ≠ 0) (hquiet : s.Quiet) (snapshot : Snapshot)
    (labels : List String) :
    ∃ observers telemetry, notify send levels snapshot labels s = ({ s with
      observers := observers
      telemetry := telemetry
      notes := s.notes ++ labels.map fun label =>
        .changed label snapshot.value snapshot.version }, .ok snapshot) := by
  induction labels generalizing s with
  | nil => exact ⟨s.observers, s.telemetry, by rw [notify, List.map_nil, List.append_nil]⟩
  | cons label rest ih =>
    obtain ⟨_, _, after, rfl, hafter, hnotify, -⟩ :=
      notify_cons_of_quiet send (fun _ _ => []) hroom hquiet snapshot label rest
    rw [List.map_cons, List.append_cons, hnotify]
    exact ih hafter

/-- Quiet observers are shown the snapshot one after the other, and nothing else happens. -/
theorem chronicleNotify_of_quiet (hroom : levels ≠ 0) (hquiet : s.Quiet) (snapshot : Snapshot)
    (labels : List String) : chronicleNotify send chronicler levels snapshot labels s =
      labels.map (.told · snapshot) := by
  induction labels generalizing s with
  | nil => rfl
  | cons label rest ih =>
    obtain ⟨_, _, after, -, hafter, -, hchronicle⟩ :=
      notify_cons_of_quiet send chronicler hroom hquiet snapshot label rest
    rw [hchronicle, List.map_cons, ih hafter]

/-- An event that is handled is delivered to all registrations if it changes something, and to
nobody if not. -/
theorem send_of_handled (hquiet : s.Quiet) {after : Snapshot} {changed : Bool}
    (hresult : (s.interpreter.dispatch s.now event).result = .ok (.handled after changed)) :
    (s.send event).2 = .ok after ∧
      chronicle nestingLimit event s =
        (if changed then .shown after :: s.observers.map (.told · after) else []) ∧
      (s.send event).1.notes = s.notes ++ if changed then s.observers.map fun label =>
        .changed label after.value after.version else [] := by
  have hroom : (328 : Nat) ≠ 0 := by decide
  have hhandled : (s.handled event).Quiet := hquiet.of_eq rfl
  show (sendWithin (328 + 1) event s).2 = _ ∧ chronicle (328 + 1) event s = _ ∧
    (sendWithin (328 + 1) event s).1.notes = _
  rw [sendWithin, chronicle, ← handled, hresult]
  cases changed with
  | false => exact ⟨rfl, rfl, (List.append_nil _).symm⟩
  | true =>
    obtain ⟨observers, telemetry, hnotify⟩ : ∃ observers telemetry,
        notify (sendWithin 328) 328 after (s.handled event).observers (s.handled event) = _ :=
      notify_frame hroom hhandled after _
    dsimp only
    rw [hnotify, chronicleNotify_of_quiet hroom hhandled]
    exact ⟨rfl, rfl, rfl⟩

/-- A run with observers of whom one fails, and one cancels what others have subscribed to. -/
def contested : Session :=
  { fresh (Interpreter.started passing [] none) (.fresh true false) with
    observers := ["clerk", "bouncer", "clerk", "guest"]
    reactions := [("clerk", fun _ => [.fail "busy"]),
      ("bouncer", fun _ => [.leave "guest", .leave "clerk", .leave "bouncer"])]
    tokens := [("clerk", 0), ("bouncer", 0), ("guest", 0)] }

theorem contested_quiet : contested.Quiet := by
  intro label reaction hreaction snapshot command hcommand
  obtain ⟨other, hmem, -⟩ := Entries.exists_mem_of_get? hreaction
  simp only [contested, List.mem_cons, Prod.mk.injEq, List.not_mem_nil, or_false] at hmem
  rcases hmem with ⟨-, rfl⟩ | ⟨-, rfl⟩
  · obtain rfl := List.mem_singleton.mp hcommand
    rfl
  · rcases hcommand with _ | ⟨_, _ | ⟨_, _ | ⟨_, ⟨⟩⟩⟩⟩ <;> rfl

end Session

end Lifecycle
