import Lifecycle.Proofs.Interpreter.Beginning

/-!
# Stops

A stop ends a run that has begun and shows where it has come to; one that has not begun it ends
without a word. A further stop only shows where the run has come to (`stop_stop`), which has been
shown already if the run had begun (`publish_stop`). So the first stop of a run that has not begun
and the second are not alike: the second shows the path of a run that is nowhere. Which requests let
a run begin (`Enters`) and how many stops there are tells whether anything is shown, and whether it
is a path (`serveAll_stopped`).
-/

namespace Lifecycle.Interpreter

variable {chart : Chart} {context : Context} {name : Option String} {m : Interpreter}
  {requests : List Request}

/-- Whether a request is one to stop. -/
def Request.isStop : Request → Bool
  | .stop => true
  | _ => false

theorem Request.isStop_iff {request : Request} : request.isStop = true ↔ request = .stop := by
  cases request <;> simp [isStop]

/-- Requests let a run begin: its entry actions succeed, and it is asked to start before it is asked
to stop. -/
def Enters (chart : Chart) (context : Context) (requests : List Request) : Prop :=
  (∃ next, Action.runAll (initialActions chart) context = .ok next) ∧
    Request.start ∈ requests.takeWhile fun request => !request.isStop

theorem enters_start_cons {next : Context}
    (h : Action.runAll (initialActions chart) context = .ok next) (requests : List Request) :
    Enters chart context (.start :: requests) :=
  ⟨⟨next, h⟩, List.mem_cons_self⟩

theorem not_enters_stop_cons (requests : List Request) :
    ¬ Enters chart context (.stop :: requests) :=
  fun h => List.not_mem_nil h.2

@[simp] theorem enters_send_cons (call : Call) (requests : List Request) :
    Enters chart context (.send call :: requests) ↔ Enters chart context requests := by
  refine and_congr_right fun _ => ?_
  rw [List.takeWhile_cons_of_pos rfl, List.mem_cons, or_iff_right Request.noConfusion]

theorem not_enters_of_error {fault : Fault}
    (h : Action.runAll (initialActions chart) context = .error fault) (requests : List Request) :
    ¬ Enters chart context requests := by
  rintro ⟨⟨next, hnext⟩, -⟩
  rw [h] at hnext
  cases hnext

/-! ## Stopping again -/

/-- A second stop shows where the run has come to, and does nothing else. -/
theorem stop_stop (m : Interpreter) : m.stop.state.stop.state = m.stop.state.publish := by
  have hbegun : m.stop.state.status ≠ .notStarted := by
    rw [m.stop_status]
    exact Status.noConfusion
  rw [stop_of_begun hbegun, ← m.stop_status]

/-- If the run had begun, this is shown already. -/
theorem publish_stop (h : m.status ≠ .notStarted) : m.stop.state.publish =
    { m.stop.state with publications := m.stop.state.publications + 1 } := by
  rw [stop_of_begun h]
  rfl

/-- After a stop before the beginning something is shown exactly if there is another stop. -/
theorem Cancelled.isSome_serveAll (h : Cancelled m) (requests : List Request) :
    (m.serveAll requests).snapshot.isSome =
      (m.snapshot.isSome || requests.any Request.isStop) := by
  induction requests generalizing m with
  | nil => exact (Bool.or_false _).symm
  | cons request rest ih =>
    have hfirst : (m.serve request).snapshot.isSome = (m.snapshot.isSome || request.isStop) := by
      cases request with
      | start => rw [Interpreter.serve, start_of_begun h.status_ne]; exact (Bool.or_false _).symm
      | send call =>
        obtain ⟨log, hstate⟩ := (ignores_of_idle (h.idle call.event) call.now).state
        rw [Interpreter.serve, hstate]
        exact (Bool.or_false _).symm
      | stop =>
        rw [Interpreter.serve, stop_of_begun h.status_ne]
        exact (Bool.or_true _).symm
    rw [List.any_cons, ← Bool.or_assoc, ← hfirst]
    exact ih (h.serve request)

theorem Cancelled.serveAll (h : Cancelled m) (requests : List Request) :
    Cancelled (m.serveAll requests) :=
  serveAll_of_serve (fun _ request h => h.serve request) h requests

/-- A run whose start has broken off shows nothing until it is stopped, and then it has begun. -/
theorem Strands.serveAll (tree : chart.Arena) {s : Situation} {step : Microstep} {fault : Fault}
    (hbreaks : chart.BreaksOff context s step fault)
    (h : (fresh chart context name).Strands s step m) (requests : List Request) :
    if requests.any Request.isStop then Begun chart (m.serveAll requests)
    else m.serveAll requests = m := by
  obtain ⟨hbegun, hunshown⟩ := h.begun rfl
  induction requests with
  | nil => rfl
  | cons request rest ih =>
    by_cases hstop : request = .stop
    · subst hstop
      have hstopped := begun_stop hbegun h.stands (hbreaks.situated tree)
      exact hstopped.serveAll tree rest
    · have hsame := serve_of_unshown hbegun hunshown hstop
      rw [← Request.isStop_iff, Bool.not_eq_true] at hstop
      rw [List.any_cons, hstop, Bool.false_or, Interpreter.serveAll, List.foldl_cons, hsame]
      exact ih

/-! ## What is shown in the end -/

/-- Requests that let a run begin start it, and the others come after that. -/
theorem Enters.exists_rest (h : Enters chart context requests) (name : Option String) :
    ∃ rest, (fresh chart context name).serveAll requests =
        (started chart context name).serveAll rest ∧
      requests.any Request.isStop = rest.any Request.isStop := by
  induction requests with
  | nil => exact absurd h.2 List.not_mem_nil
  | cons request rest ih =>
    cases request with
    | start => exact ⟨rest, rfl, rfl⟩
    | send call =>
      obtain ⟨later, hserved, hstops⟩ := ih ((enters_send_cons call rest).mp h)
      exact ⟨later, hserved, hstops⟩
    | stop => exact absurd h (not_enters_stop_cons rest)

/-- A run that is asked for what lets it begin has begun in the end, if its start succeeds or a stop
comes after it, and otherwise shows nothing. -/
theorem Enters.begun (tree : chart.Arena) (h : Enters chart context requests)
    (name : Option String) :
    if (fresh chart context name).start.result.toOption.isSome || requests.any Request.isStop then
      Begun chart ((fresh chart context name).serveAll requests)
    else ((fresh chart context name).serveAll requests).snapshot = none := by
  obtain ⟨rest, hserved, hstops⟩ := h.exists_rest name
  rw [hserved, hstops]
  rcases start_cases tree context name with ⟨⟨shown, hshown, -⟩, _, s, -, -, hrests⟩ |
    ⟨fault, hfault, -⟩
  · rw [hshown]
    exact hrests.begun.serveAll tree rest
  · rcases start_of_error_result tree hfault with ⟨hentry, -⟩ | ⟨s, step, hbreaks, hstrands⟩
    · exact absurd h (not_enters_of_error hentry requests)
    · have hrest := hstrands.serveAll tree hbreaks rest
      rw [hfault]
      cases hany : rest.any Request.isStop <;> rw [hany] at hrest
      · have hsame :
            (started chart context name).serveAll rest = started chart context name := hrest
        rw [hsame]
        exact (hstrands.begun rfl).2
      · exact hrest

/-- A run that is not asked for what lets it begin shows nothing before the second stop, and then no
path. -/
theorem serveAll_of_not_enters (h : ¬ Enters chart context requests) :
    (((fresh chart context name).serveAll requests).snapshot.isSome = true ↔
        2 ≤ requests.countP Request.isStop) ∧
      ∀ shown, ((fresh chart context name).serveAll requests).snapshot = some shown →
        shown.path = [] := by
  induction requests with
  | nil => exact ⟨⟨nofun, nofun⟩, nofun⟩
  | cons request rest ih =>
    cases request with
    | start =>
      rcases hnext : Action.runAll (initialActions chart) context with fault | next
      · have hsame : (fresh chart context name).serve .start = fresh chart context name :=
          congrArg Response.state (start_of_error rfl hnext)
        rw [serveAll, List.foldl_cons, hsame, List.countP_cons_of_neg Bool.false_ne_true]
        exact ih (not_enters_of_error hnext rest)
      · exact absurd (enters_start_cons hnext rest) h
    | send call =>
      rw [List.countP_cons_of_neg Bool.false_ne_true]
      exact ih (mt (enters_send_cons call rest).mpr h)
    | stop =>
      have hcancelled : Cancelled { fresh chart context name with status := .stopped } :=
        ⟨rfl, rfl, nofun⟩
      refine ⟨?_, fun shown hshown => (hcancelled.serveAll rest).path_eq hshown⟩
      have hshown := hcancelled.isSome_serveAll rest
      rw [List.countP_cons_of_pos rfl, Nat.succ_le_succ_iff, Nat.one_le_iff_ne_zero,
        ← Nat.pos_iff_ne_zero, List.countP_pos_iff, ← List.any_eq_true]
      exact (Bool.eq_iff_iff.mp hshown)

/-- **What stops show.** A second stop only shows where the run has come to, so a run that has begun
is after two stops as after one. A run of a built chart that is asked to start, to handle events and
to stop, in any order, shows nothing as long as no start of it has succeeded, and then an event is
refused, until a stop of what has not begun is repeated, or a stop follows on a start that has
broken off. Of what is ever shown just this repeated stop shows no path: if the run is asked for
what lets it begin, all that is shown has a path, and otherwise nothing. All that a restored run
shows has a path. -/
theorem serveAll_stopped (hbuilt : chart.Built) (context : Context) (name : Option String)
    (requests : List Request) :
    (∀ m : Interpreter, m.stop.state.stop.state = m.stop.state.publish ∧
      (m.status ≠ .notStarted → m.stop.state.publish =
        { m.stop.state with publications := m.stop.state.publications + 1 })) ∧
    (Enters chart context requests →
      (∀ shown, ((fresh chart context name).serveAll requests).snapshot = some shown →
        shown.path ≠ []) ∧
      (((fresh chart context name).serveAll requests).snapshot.isSome = true ↔
        (fresh chart context name).start.result.toOption.isSome = true ∨
          1 ≤ requests.countP Request.isStop)) ∧
    (¬ Enters chart context requests →
      (∀ shown, ((fresh chart context name).serveAll requests).snapshot = some shown →
        shown.path = []) ∧
      (((fresh chart context name).serveAll requests).snapshot.isSome = true ↔
        2 ≤ requests.countP Request.isStop)) ∧
    (∀ now event, ((fresh chart context name).serveAll requests).snapshot = none →
      (((fresh chart context name).serveAll requests).dispatch now event).result =
        .error (.notStarted ((fresh chart context name).serveAll requests).name)) ∧
    ∀ path history m, resume chart path history context name = .ok m →
      ∀ shown, (m.serveAll requests).snapshot = some shown → shown.path ≠ [] := by
  have tree := hbuilt.arena
  refine ⟨fun m => ⟨m.stop_stop, publish_stop⟩, fun henters => ?_, fun hnot => ?_,
    fun now event hunshown => ?_, fun path history m hresume shown => ?_⟩
  · have hbegun := henters.begun tree name
    rw [Nat.one_le_iff_ne_zero, ← Nat.pos_iff_ne_zero, List.countP_pos_iff, ← List.any_eq_true,
      ← Bool.or_eq_true]
    split at hbegun <;> rename_i hcause
    · obtain ⟨s, halive⟩ := hbegun.alive
      exact ⟨fun shown => hbegun.path_ne, iff_of_true halive.shown hcause⟩
    · rw [hbegun]
      exact ⟨nofun, iff_of_false nofun hcause⟩
  · exact (serveAll_of_not_enters hnot).symm
  · rw [dispatch_of_unshown hunshown]
  · exact ((begun_of_resume tree hresume).serveAll tree requests).path_ne

set_option maxRecDepth 10000 in
/-- Two stops of a run that has not begun show no path; a start that breaks off shows nothing, and a
stop after it the path where it broke off. -/
theorem serveAll_stopped_unbegun :
    fragile.Built ∧ ¬ Enters fragile fragile.context [.stop, .start, .stop] ∧
      (∃ shown, ((fresh fragile fragile.context none).serveAll [.stop, .start, .stop]).snapshot =
        some shown ∧ shown.path = []) ∧
      Enters fragile fragile.context [.start, .stop] ∧
      ((fresh fragile fragile.context none).serveAll [.start]).snapshot = none ∧
      ∃ shown, ((fresh fragile fragile.context none).serveAll [.start, .stop]).snapshot =
        some shown ∧ shown.path ≠ [] := by
  have hnot : ¬ Enters fragile fragile.context [.stop, .start, .stop] := not_enters_stop_cons _
  have hentry :
      (Action.runAll (initialActions fragile) fragile.context).toOption.isSome = true := by
    decide +kernel
  obtain ⟨next, hnext⟩ := exists_ok_of_isSome hentry
  have henters (rest : List Request) : Enters fragile fragile.context (.start :: rest) :=
    enters_start_cons hnext rest
  have hfails : (fresh fragile fragile.context none).start.result.toOption.isSome = false := by
    rw [fragile_breaks]
    rfl
  obtain ⟨-, -, hunbegun, -⟩ :=
    serveAll_stopped fragile_built fragile.context none [.stop, .start, .stop]
  obtain ⟨hpath, hshown⟩ := hunbegun hnot
  obtain ⟨shown, htwice⟩ := Option.isSome_iff_exists.mp (hshown.mpr (Nat.le_refl 2))
  obtain ⟨-, hbroken, -⟩ := serveAll_stopped fragile_built fragile.context none [.start]
  obtain ⟨-, hbegun, -⟩ := serveAll_stopped fragile_built fragile.context none [.start, .stop]
  obtain ⟨hpath', hshown'⟩ := hbegun (henters _)
  obtain ⟨shown', honce⟩ := Option.isSome_iff_exists.mp (hshown'.mpr (.inr (Nat.le_refl 1)))
  refine ⟨fragile_built, hnot, ⟨shown, htwice, hpath shown htwice⟩, henters _, ?_, shown', honce,
    hpath' shown' honce⟩
  rw [← Option.not_isSome_iff_eq_none, (hbroken (henters _)).2, hfails]
  decide

set_option maxRecDepth 10000 in
/-- A run that has not begun shows nothing after one stop and no path after two, and then it does
not refuse an event. -/
theorem stop_shows_no_path :
    brittle.Built ∧
      (fresh brittle brittle.context none).stop.state.snapshot.isNone = true ∧
      (fresh brittle brittle.context none).stop.state.stop.state.snapshot.map Snapshot.path =
        some [] ∧
      ((fresh brittle brittle.context none).stop.state.stop.state.dispatch (.int 0)
        "go").result.toOption.isSome = true :=
  ⟨brittle_built, by decide +kernel⟩

end Lifecycle.Interpreter
