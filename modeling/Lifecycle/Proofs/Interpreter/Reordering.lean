import Lifecycle.Proofs.Chart.Realignment
import Lifecycle.Proofs.Interpreter.Failure
import Lifecycle.Proofs.Interpreter.Renaming

/-!
# Runs of reordered declarations

The order in which a declaration lists states and events decides on the indices of the nodes and on
nothing that a run shows. Declarations that differ in it are accepted together, their charts refuse
the same contexts and layouts, and runs of the two that are started or restored alike show the same
from then on (`define_reordered`). Whatever a run shows displays a leaf (`exists_displays`), so its
layout leads back there under both charts; only a context that does not fit the schema is refused,
and then under both.
-/

namespace Lifecycle.Interpreter

variable {chart chart' : Chart} {m m' : Interpreter} {s : Situation} {shown : Snapshot}

/-! ## What a run shows -/

/-- A run that can go on, and what it shows displays a leaf. -/
structure Displayed (m : Interpreter) (chart : Chart) (s : Situation) : Prop extends
    m.Alive chart s where
  nodup : (Entries.keys s.history).Nodup
  displays {shown : Snapshot} : m.snapshot = some shown → ∃ leaf, Displays chart shown leaf

theorem Rests.displayed (h : m.Rests chart s) (hnodup : (Entries.keys s.history).Nodup) :
    m.Displayed chart s := by
  refine ⟨h.alive, hnodup, fun hshown => ⟨s.leaf, ?_⟩⟩
  obtain rfl := Option.some.inj (h.snapshot_eq.symm.trans hshown)
  exact h.toStands.displays_observe h.situated hnodup

theorem Displayed.dispatch (h : m.Displayed chart s) (tree : chart.Arena) (now : Json)
    (event : String) : ∃ s', (m.dispatch now event).state.Displayed chart s' := by
  obtain ⟨s', halive, hkeys, hsnapshot⟩ := h.toAlive.dispatch_spec tree now event
  refine ⟨s', halive, hkeys h.nodup, fun hshown => ?_⟩
  rcases hsnapshot with hkept | hnew
  · exact h.displays (hkept.symm.trans hshown)
  · obtain rfl := Option.some.inj (hnew.symm.trans hshown)
    exact ⟨s'.leaf, halive.toStands.displays_observe halive.situated (hkeys h.nodup)⟩

theorem Displayed.run (h : m.Displayed chart s) (tree : chart.Arena) (calls : List Call) :
    ∃ s', (m.run calls).Displayed chart s' := by
  induction calls generalizing m s with
  | nil => exact ⟨s, h⟩
  | cons call rest ih =>
    obtain ⟨middle, hnext⟩ := h.dispatch tree call.now call.event
    exact ih hnext

/-- Settling shows nothing. -/
theorem settleFrom_snapshot (unseen : List Nat) (m : Interpreter) :
    (m.settleFrom unseen).state.snapshot = m.snapshot := by
  obtain ⟨_, _, _, _, _, -, hframe⟩ := m.settleFrom_frame unseen
  rw [hframe]

/-- A start that fails shows nothing. -/
theorem started_snapshot_of_error {context : Context} {name : Option String} {fault : Fault}
    (h : (fresh chart context name).start.result = .error fault) :
    (started chart context name).snapshot = none := by
  rcases hnext : Action.runAll (initialActions chart) context with fault' | next
  · have hstart : (fresh chart context name).start =
        ⟨fresh chart context name, [], .error fault'⟩ := by simp [start, fresh, hnext]
    rw [started, hstart]
    rfl
  · have hentered : (entered chart name context next).snapshot = none := by
      obtain ⟨version, hadopt⟩ := adopt_eq (fresh chart context name) next
      rw [entered, hadopt]
      rfl
    have hstart := start_fresh name hnext
    rcases hresult : (entered chart name context next).settle.result with fault' | _
    · simp only [hresult] at hstart
      rw [started, hstart]
      exact (settleFrom_snapshot _ _).trans hentered
    · simp only [hresult] at hstart
      rw [hstart] at h
      cases h

/-- A run that shows nothing does nothing. -/
theorem run_of_snapshot_eq_none (h : m.snapshot = none) (calls : List Call) : m.run calls = m := by
  induction calls with
  | nil => rfl
  | cons call rest ih =>
    have hstate : (m.dispatch call.now call.event).state = m := by rw [Interpreter.dispatch, h]
    rw [run, hstate, ih]

/-- Whatever a run shows displays a leaf. -/
theorem exists_displays (tree : chart.Arena) {context : Context} {name : Option String}
    {calls : List Call} (h : ((started chart context name).run calls).snapshot = some shown) :
    ∃ leaf, Displays chart shown leaf := by
  rcases start_cases tree context name with ⟨-, s₀, s, hbegins, hsettles, hrests⟩ |
    ⟨fault, hfault, -⟩
  · have hnodup := hbegins.nodup_keys hsettles.leadsTo
    obtain ⟨s', hdisplayed⟩ := (hrests.displayed hnodup).run tree calls
    exact hdisplayed.displays h
  -- A run that could not be started never shows anything.
  · have hnone := started_snapshot_of_error hfault
    rw [run_of_snapshot_eq_none hnone, hnone] at h
    cases h

/-! ## Runs that concur -/

/-- Two runs show the same, have the same records and answer the same, whatever events they are
sent. -/
structure Concurs (m m' : Interpreter) : Prop where
  observe_eq (calls : List Call) : (m'.run calls).observe = (m.run calls).observe
  snapshot_eq (calls : List Call) : (m'.run calls).snapshot = (m.run calls).snapshot
  log_eq (calls : List Call) : (m'.run calls).log = (m.run calls).log
  result_eq (calls : List Call) (call : Call) :
    ((m'.run calls).dispatch call.now call.event).result =
      ((m.run calls).dispatch call.now call.event).result

/-- Two attempts at a run are refused alike, or lead to runs that concur. -/
inductive Agreed : Except Corruption Interpreter → Except Corruption Interpreter → Prop where
  | refused (corruption : Corruption) : Agreed (.error corruption) (.error corruption)
  | granted {m m' : Interpreter} : Concurs m m' → Agreed (.ok m) (.ok m')

/-- The layout of what is shown leads a chart back to it. A context that fits the schema is taken
over, on the path, with the tags and records that are shown, and one that does not fit is all that
is refused. -/
structure LeadsBack (chart : Chart) (shown : Snapshot) (name : Option String) : Prop where
  restores : (∀ key ∈ Entries.keys shown.context, Entries.has chart.context key = true) →
    (∀ entry ∈ shown.context,
      Chart.fitsKind ((Entries.get? chart.context entry.1).getD .null) entry.2 = true) →
    ∃ restored again, ofLayout chart shown.layout name = .ok restored ∧
      restored.snapshot = some again ∧ again.path = shown.path ∧ again.tags = shown.tags ∧
      again.history = shown.history ∧
      again.context = Entries.overlay chart.context shown.context
  refused {corruption : Corruption} : ofLayout chart shown.layout name = .error corruption →
    chart.fitContext shown.context = .error corruption
  written : (∀ key ∈ Entries.keys shown.context, key.isText = true) →
    restore chart shown.layout.toJson name = ofLayout chart shown.layout name

/-- Two charts do the same for everyone who does not see the indices of their nodes. -/
structure Interchangeable (chart chart' : Chart) : Prop where
  fitGiven_eq (given : Json) : chart'.fitGiven given = chart.fitGiven given
  start_eq (context : Context) (name : Option String) :
    (fresh chart' context name).start.result = (fresh chart context name).start.result
  concurs (context : Context) (name : Option String) :
    Concurs (started chart context name) (started chart' context name)
  restore (value : Json) (name : Option String) :
    Agreed (restore chart value name) (restore chart' value name)
  ofLayout (layout : Layout) (name : Option String) :
    Agreed (ofLayout chart layout name) (ofLayout chart' layout name)
  /-- What a run of either chart shows leads both back; `concurs` makes it one of the first. -/
  leadsBack (context : Context) (name name' : Option String) (calls : List Call)
    {shown : Snapshot} : ((started chart context name).run calls).snapshot = some shown →
      LeadsBack chart shown name' ∧ LeadsBack chart' shown name'

theorem Displays.leadsBack {leaf : Nat} (h : Displays chart shown leaf) (tree : chart.Arena)
    (name : Option String) : LeadsBack chart shown name := by
  have hlayout := h.ofLayout_eq tree name
  refine ⟨fun hkeys hkinds => ?_, fun hrefused => ?_, fun htexts => ?_⟩
  · rw [Chart.fitContext_eq_ok.mpr ⟨hkeys, hkinds, rfl⟩] at hlayout
    exact ⟨_, _, hlayout, rfl, h.path_eq.symm, h.tags_eq.symm, rfl, rfl⟩
  · rw [hlayout] at hrefused
    rcases hfit : chart.fitContext shown.context with corruption | fitted
    · rw [hfit] at hrefused
      exact congrArg Except.error (Except.error.inj hrefused)
    · rw [hfit] at hrefused
      cases hrefused
  · exact restore_toJson chart htexts name

section Renaming

variable {σ : Equiv.Perm Nat} (names : chart.Renames σ chart') (tree : chart.Arena)
  (tree' : chart'.Arena)

include names tree tree'

theorem Renamed.concurs (h : Renamed σ chart chart' m m') : Concurs m m' where
  observe_eq calls := (h.run names tree tree' calls).observe_eq names tree tree'
  snapshot_eq calls := by rw [(h.run names tree tree' calls).eq]; rfl
  log_eq calls := by rw [(h.run names tree tree' calls).eq]; rfl
  result_eq calls call := ((h.run names tree tree' calls).dispatch names tree tree' _ _).1

theorem agreed_resume (path : Json) (history : Entries Json) (context : Context)
    (name : Option String) : Agreed (resume chart path history context name)
      (resume chart' path history context name) := by
  rw [resume_rename names tree tree']
  rcases hrun : resume chart path history context name with corruption | m
  · exact .refused corruption
  · obtain ⟨s, halive⟩ := alive_of_resume tree hrun
    exact .granted (Renamed.concurs names tree tree' ⟨halive.chart_eq, rfl⟩)

theorem agreed_restore (value : Json) (name : Option String) :
    Agreed (restore chart value name) (restore chart' value name) := by
  unfold restore
  split
  · rename_i fields
    rcases objectField fields "history" with corruption | history
    · exact .refused corruption
    · rcases objectField fields "context" with corruption | context
      · exact .refused corruption
      · exact agreed_resume names tree tree' _ history _ name
  · exact .refused .notObject

theorem LeadsBack.rename {name : Option String} (h : LeadsBack chart shown name) :
    LeadsBack chart' shown name := by
  have hlayout : ofLayout chart' shown.layout name =
      (ofLayout chart shown.layout name).map (Interpreter.rename σ chart') :=
    resume_rename names tree tree' _ _ _ name
  refine ⟨fun hkeys hkinds => ?_, fun hrefused => ?_,
    fun htexts => restore_toJson chart' htexts name⟩
  · rw [names.context_eq] at hkeys hkinds ⊢
    obtain ⟨restored, again, hrestored, hagain, hshown⟩ := h.restores hkeys hkinds
    exact ⟨restored.rename σ chart', again, by rw [hlayout, hrestored]; rfl, hagain, hshown⟩
  · rw [names.fitContext_eq]
    rcases hattempt : ofLayout chart shown.layout name with corruption | restored
    · rw [hlayout, hattempt] at hrefused
      obtain rfl := Except.error.inj hrefused
      exact h.refused hattempt
    · rw [hlayout, hattempt] at hrefused
      cases hrefused

/-- Charts that differ in the indices of their nodes are interchangeable. -/
theorem interchangeable_of_renames : Interchangeable chart chart' where
  fitGiven_eq := names.fitGiven_eq
  start_eq context name := ((renamed_fresh names context name).start names tree tree').1
  concurs context name :=
    ((renamed_fresh names context name).start names tree tree').2.concurs names tree tree'
  restore := agreed_restore names tree tree'
  ofLayout layout name := agreed_resume names tree tree' _ _ _ name
  leadsBack context name name' calls shown hshown := by
    obtain ⟨leaf, hdisplays⟩ := exists_displays tree hshown
    have hback := hdisplays.leadsBack tree name'
    exact ⟨hback, hback.rename names tree tree'⟩

end Renaming

/-! ## Declarations -/

/-- **The order of states and events does not show.** A declaration is accepted just when it is in
another order, and then its chart and that of the other are interchangeable: runs of the two show
the same, and a layout of the one leads the other back to what was shown. -/
theorem define_reordered (registry : Registry) (events : Option (List String))
    {declaration declaration' : Json} (hu : declaration.unrepeated = true)
    (h : Outline.Reordered declaration declaration') :
    ((∃ chart, Chart.define registry events declaration = .ok chart) ↔
        ∃ chart, Chart.define registry events declaration' = .ok chart) ∧
      ∀ chart chart', Chart.define registry events declaration = .ok chart →
        Chart.define registry events declaration' = .ok chart' →
          Interchangeable chart chart' := by
  have hu' := h.unrepeated hu
  refine ⟨⟨?_, ?_⟩, ?_⟩
  · rintro ⟨chart, hdefine⟩
    obtain ⟨chart', -, hdefine', -⟩ := Chart.exists_define_of_reordered hu h hdefine
    exact ⟨chart', hdefine'⟩
  · rintro ⟨chart', hdefine'⟩
    obtain ⟨chart, -, hdefine, -⟩ := Chart.exists_define_of_reordered hu' h.symm hdefine'
    exact ⟨chart, hdefine⟩
  · intro chart chart' hdefine hdefine'
    obtain ⟨chart₁, σ, hdefine₁, names⟩ := Chart.exists_define_of_reordered hu h hdefine
    obtain rfl := Except.ok.inj (hdefine₁.symm.trans hdefine')
    have hbuilt : chart.Built := ⟨registry, events, declaration, hu, hdefine⟩
    have hbuilt' : chart₁.Built := ⟨registry, events, declaration', hu', hdefine'⟩
    exact interchangeable_of_renames names hbuilt.arena hbuilt'.arena

/-- Two states, and events that write a value into the context. -/
def stepping (states : List (String × Json)) : Json :=
  .obj [("id", .str "m"), ("initial", .str "s"), ("context", .obj [("n", .int 0)]),
    ("states", .obj states)]

def going : String × Json := ("go", .obj [("target", .str "t"), ("actions", .str "set")])

def staying : String × Json := ("stay", .obj [("actions", .str "set")])

/-- The declaration in one order. -/
def forth : Json := stepping [("s", .obj [("on", .obj [going, staying])]), ("t", .obj [])]

/-- The declaration in another order. -/
def back : Json := stepping [("t", .obj []), ("s", .obj [("on", .obj [staying, going])])]

/-- An action that assigns a value. -/
def assigning (value : Json) : Registry := [("set", .assign [("n", value)])]

def ordered (value declaration : Json) : Chart := .ofDeclaration (assigning value) declaration

/-- A run that has gone on. -/
def gone (chart : Chart) : Interpreter :=
  (started chart chart.context none).run [⟨.int 0, "go"⟩]

theorem reordered_forth : Outline.Reordered forth back := by
  have hs : Outline.Reordered (.obj [("on", .obj [going, staying])])
      (.obj [("on", .obj [staying, going])]) :=
    .node (.cons (.on (.swap ..)) .nil)
  exact .node (.cons (.same ..) (.cons (.same ..) (.cons (.same ..)
    (.cons (.states (.cons hs (.cons (.refl _) .nil)) (.swap ..)) .nil))))

set_option maxRecDepth 10000 in
/-- A number that is assigned in one order is shown in the other, too, at a leaf of another index,
and restored there. -/
theorem define_reordered_number :
    forth.unrepeated = true ∧ Outline.Reordered forth back ∧
      Chart.define (assigning (.int 5)) none forth = .ok (ordered (.int 5) forth) ∧
      Chart.define (assigning (.int 5)) none back = .ok (ordered (.int 5) back) ∧
      (gone (ordered (.int 5) forth)).leaf = some 2 ∧
      (gone (ordered (.int 5) back)).leaf = some 1 ∧
      ∃ shown restored again, (gone (ordered (.int 5) forth)).snapshot = some shown ∧
        (gone (ordered (.int 5) back)).snapshot = some shown ∧
        ofLayout (ordered (.int 5) back) shown.layout none = .ok restored ∧
        restored.snapshot = some again ∧ again.path = ["m", "t"] ∧
        (Entries.get? again.context (.text "n")).any (Json.same (.int 5)) = true := by
  have hu : forth.unrepeated = true := by decide +kernel
  have hforth : Chart.define (assigning (.int 5)) none forth = .ok (ordered (.int 5) forth) :=
    Chart.define_ofDeclaration (by decide +kernel)
  have hback : Chart.define (assigning (.int 5)) none back = .ok (ordered (.int 5) back) :=
    Chart.define_ofDeclaration (by decide +kernel)
  have hsame :=
    (define_reordered (assigning (.int 5)) none hu reordered_forth).2 _ _ hforth hback
  have hlooks : (gone (ordered (.int 5) forth)).snapshot.any (fun shown => decide (
      shown.path = ["m", "t"] ∧
        (∀ key ∈ Entries.keys shown.context,
          Entries.has (ordered (.int 5) back).context key = true) ∧
        (∀ entry ∈ shown.context, Chart.fitsKind
          ((Entries.get? (ordered (.int 5) back).context entry.1).getD .null) entry.2 = true) ∧
        (Entries.get? (Entries.overlay (ordered (.int 5) back).context shown.context)
          (.text "n")).any (Json.same (.int 5)) = true)) = true := by decide +kernel
  obtain ⟨shown, hshown, hall⟩ := (Option.any_eq_true _ _).mp hlooks
  obtain ⟨hpath, hkeys, hkinds, hvalue⟩ := of_decide_eq_true hall
  have hcontext : (ordered (.int 5) back).context = (ordered (.int 5) forth).context :=
    Except.ok.inj (hsame.fitGiven_eq .null)
  have hshown' : (gone (ordered (.int 5) back)).snapshot = some shown := by
    rw [gone, hcontext, (hsame.concurs _ none).snapshot_eq]
    exact hshown
  obtain ⟨restored, again, hrestored, hagain, hpath', -, -, hcontext'⟩ :=
    (hsame.leadsBack _ none none _ hshown).2.restores hkeys hkinds
  exact ⟨hu, reordered_forth, hforth, hback, by decide +kernel, by decide +kernel, shown, restored,
    again, hshown, hshown', hrestored, hagain, hpath'.trans hpath, by rw [hcontext']; exact hvalue⟩

set_option maxRecDepth 10000 in
/-- A text that is assigned in place of a number in one order is refused in the other. -/
theorem reordered_kind_refused :
    forth.unrepeated = true ∧ Outline.Reordered forth back ∧
      Chart.define (assigning (.str "many")) none forth = .ok (ordered (.str "many") forth) ∧
      Chart.define (assigning (.str "many")) none back = .ok (ordered (.str "many") back) ∧
      ∃ shown corruption, (gone (ordered (.str "many") forth)).snapshot = some shown ∧
        restore (ordered (.str "many") back) shown.layout.toJson none = .error corruption := by
  have hrefused : ((gone (ordered (.str "many") forth)).snapshot.map fun shown =>
      (restore (ordered (.str "many") back) shown.layout.toJson none).toOption.isNone) =
      some true := by decide +kernel
  obtain ⟨shown, hshown, hnone⟩ := Option.map_eq_some_iff.mp hrefused
  obtain ⟨corruption, hrestore⟩ := exists_error_of_isNone hnone
  exact ⟨by decide +kernel, reordered_forth, Chart.define_ofDeclaration (by decide +kernel),
    Chart.define_ofDeclaration (by decide +kernel), shown, corruption, hshown, hrestore⟩

end Lifecycle.Interpreter
