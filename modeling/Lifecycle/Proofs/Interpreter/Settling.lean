import Lifecycle.Proofs.Interpreter.Course
import Lifecycle.Proofs.Lead.Chart

/-!
# Settling against its ideal

Ideally a run settles by completing the parent of its final leaf, and again at the leaf that it then
comes to, for as long as something is pending (`Chart.ideal?`). A run does the same up to the first
leaf that comes up twice, and there it ends (`Chart.Settles`). Where no completion leads to a
history node the next leaf depends on the leaf alone, so a leaf that comes up twice comes up for
ever, and the run ends as ideal settling does (`Settles.settlesIdeally`). Where one does, the
records may have changed in between, and a run may end early (`detour`).
-/

namespace Lifecycle

namespace Chart

variable {chart : Chart} {s s' : Situation} {passage : Passage} {passages : List Passage}
  {t : Transition} {n k : Nat}

/-- The situation after the parent of a final leaf is completed, if that is pending. -/
def complete? (chart : Chart) (s : Situation) : Option Situation :=
  (chart.doneTransition? s.leaf).bind fun t =>
    match chart.resolve s.leaf t s.history with
    | .error _ => none
    | .ok step => match Action.runAll (chart.stepActions step) s.context with
      | .error _ => none
      | .ok context =>
        some ⟨step.leaf, s.context.adopted context, Entries.overlay s.history step.history⟩

/-- The situation after a number of completions, if that many are pending one after the other. -/
def ideal? (chart : Chart) (s : Situation) : Nat → Option Situation
  | 0 => some s
  | n + 1 => (chart.complete? s).bind (ideal? chart · n)

/-- Ideal settling comes to a situation in which nothing is pending. -/
def EndsIdeally (chart : Chart) (s s' : Situation) : Prop :=
  (∃ n, chart.ideal? s n = some s') ∧ chart.doneTransition? s'.leaf = none

/-- Ideal settling never ends. -/
def Endless (chart : Chart) (s : Situation) : Prop := ∀ n, (chart.ideal? s n).isSome = true

/-- No completion leads to a history node. -/
def CompletesDirectly (chart : Chart) : Prop :=
  ∀ leaf t target, chart.doneTransition? leaf = some t → t.target = some target →
    chart.isHistory target = false

theorem ideal?_add (s : Situation) (n k : Nat) :
    chart.ideal? s (n + k) = (chart.ideal? s n).bind (chart.ideal? · k) := by
  induction n generalizing s with
  | zero => rw [Nat.zero_add]; rfl
  | succ n ih =>
    rw [Nat.succ_add, ideal?, ideal?, Option.bind_assoc]
    exact congrArg _ (funext ih)

/-- Nothing is completed where nothing is pending. -/
theorem ideal?_succ_of_none (h : chart.doneTransition? s.leaf = none) :
    chart.ideal? s (n + 1) = none := by
  rw [ideal?, complete?, h]; rfl

theorem complete?_of_leads (hleads : chart.Leads s passage s')
    (hdone : chart.doneTransition? s.leaf = some passage.step.transition) :
    chart.complete? s = some s' := by
  obtain ⟨context, hcontext, heq⟩ := hleads.performed
  have hactions : Action.runAll (chart.stepActions passage.step) s.context = .ok context := hcontext
  rw [complete?, hdone, Option.bind_some, hleads.resolved]
  simp only [hactions]
  rw [← heq, ← hleads.leaf_after, ← hleads.history_after]

theorem Completes.ideal?_eq (h : chart.Completes s passages s') :
    chart.ideal? s passages.length = some s' := by
  obtain ⟨hleads, hdone⟩ := h
  induction hleads with
  | refl => rfl
  | cons hpassage _ ih =>
    rename_i passage rest
    have hfirst := hdone (List.mem_cons_self)
    rw [hpassage.leaf_eq] at hfirst
    rw [List.length_cons, ideal?, complete?_of_leads hpassage hfirst, Option.bind_some]
    exact ih fun hp => hdone (List.mem_cons_of_mem _ hp)

/-- Ideal settling has one end. -/
theorem eq_of_endsIdeally {a b : Situation} (ha : chart.EndsIdeally s a)
    (hb : chart.EndsIdeally s b) : a = b := by
  have hlater : ∀ {a b : Situation} {n k : Nat}, chart.ideal? s n = some a →
      chart.doneTransition? a.leaf = none → chart.ideal? s (n + k) = some b → a = b := by
    intro a b n k hn hnone hk
    rw [ideal?_add, hn, Option.bind_some] at hk
    cases k with
    | zero => exact Option.some.inj hk
    | succ k => rw [ideal?_succ_of_none hnone] at hk; cases hk
  obtain ⟨⟨n, hn⟩, hnone⟩ := ha
  obtain ⟨⟨k, hk⟩, hnone'⟩ := hb
  rcases Nat.le_total n k with hle | hle <;> obtain ⟨j, rfl⟩ := Nat.exists_eq_add_of_le hle
  · exact hlater hn hnone hk
  · exact (hlater hk hnone' hn).symm

theorem EndsIdeally.not_endless (h : chart.EndsIdeally s s') : ¬ chart.Endless s := by
  obtain ⟨⟨n, hn⟩, hnone⟩ := h
  intro hendless
  have := hendless (n + 1)
  rw [ideal?_add, hn, Option.bind_some, ideal?_succ_of_none hnone] at this
  cases this

/-- Settling never ends where each of a class of situations is completed into another of it. -/
theorem endless_of_closed {P : Situation → Prop}
    (h : ∀ r, P r → ∃ r', chart.complete? r = some r' ∧ P r') (hs : P s) : chart.Endless s := by
  intro n
  induction n generalizing s with
  | zero => rfl
  | succ n ih =>
    obtain ⟨r', hr', hP⟩ := h s hs
    rw [ideal?, hr']
    exact ih hP

/-! ## Leaves that come up again -/

/-- Passages lead from the leaf of one to that of the next. -/
theorem LeadsTo.leaf_mem (h : chart.LeadsTo s passages s') :
    s.leaf ∈ passages.map Passage.leaf ++ [s'.leaf] := by
  obtain _ | ⟨hpassage, _⟩ := h
  · exact List.mem_cons_self
  · exact hpassage.leaf_eq ▸ List.mem_cons_self

theorem LeadsTo.step_mem (h : chart.LeadsTo s passages s') :
    ∀ p ∈ passages, p.step.leaf ∈ passages.map Passage.leaf ++ [s'.leaf] ∧
      ∃ history, chart.resolve p.leaf p.step.transition history = .ok p.step := by
  induction h with
  | refl => exact nofun
  | cons hpassage hrest ih =>
    rename_i s middle _ passage rest
    intro p hp
    rcases List.mem_cons.mp hp with rfl | hp
    · refine ⟨List.mem_cons_of_mem _ (hpassage.leaf_after ▸ hrest.leaf_mem), s.history, ?_⟩
      rw [hpassage.leaf_eq]
      exact hpassage.resolved
    · exact ⟨List.mem_cons_of_mem _ (ih p hp).1, (ih p hp).2⟩

/-- A transition that does not go to a history node has the same microstep whatever is on record. -/
theorem resolve_eq_of_direct {leaf : Nat}
    (hdirect : ∀ target, t.target = some target → chart.isHistory target = false)
    (history history' : Entries String) :
    chart.resolve leaf t history = chart.resolve leaf t history' := by
  unfold resolve
  split
  · rfl
  · rename_i target htarget
    simp only [enter, enterAlong, hdirect target htarget]
    rfl

theorem completesDirectly_of_onDone (h : ∀ n ∈ chart.nodes.toList, ∀ t ∈ n.onDone.toList,
    ∀ target ∈ t.target.toList, chart.isHistory target = false) : chart.CompletesDirectly := by
  intro leaf t target hdone htarget
  obtain ⟨-, p, n, -, hn, hdone⟩ := exists_parent_of_doneTransition? hdone
  exact h n (Array.mem_toList_iff.mpr (Array.mem_of_getElem? hn)) t (Option.mem_toList.mpr hdone)
    target (Option.mem_toList.mpr htarget)

section Direct

variable (tree : chart.Arena) (total : chart.NeverFails) (direct : chart.CompletesDirectly)

include tree total direct

/-- At the leaves of completions, the completion leads to the leaf that it led to before. -/
theorem Completes.exists_complete? (h : chart.Completes s passages s') {r : Situation}
    (hr : chart.Situated r) (hleaf : r.leaf ∈ passages.map Passage.leaf) :
    ∃ r', chart.complete? r = some r' ∧ chart.Situated r' ∧
      r'.leaf ∈ passages.map Passage.leaf ++ [s'.leaf] := by
  obtain ⟨p, hp, hpleaf⟩ := List.mem_map.mp hleaf
  have hdone := h.done hp
  rw [hpleaf] at hdone
  obtain ⟨hmem, history, hresolve⟩ := h.leadsTo.step_mem p hp
  obtain ⟨step, r', hstep, hresolve', hleads⟩ :=
    total.keeps.exists_leads tree trivial hr (.inr hdone)
  obtain rfl : step = p.step := by
    rw [hpleaf, resolve_eq_of_direct (direct _ _ · hdone) history r.history] at hresolve
    exact Except.ok.inj (hresolve'.symm.trans hresolve)
  exact ⟨r', complete?_of_leads hleads hdone, tree.situated_of_leads hr hleads,
    hleads.leaf_after ▸ hmem⟩

/-- Where completions lead from leaf to leaf alike, one that comes up again comes up for ever. -/
theorem Completes.endless (hs : chart.Situated s) (h : chart.Completes s passages s')
    (hseen : s'.leaf ∈ passages.map Passage.leaf) : chart.Endless s := by
  have hsub : passages.map Passage.leaf ++ [s'.leaf] ⊆ passages.map Passage.leaf :=
    List.append_subset.mpr ⟨List.Subset.refl _, List.cons_subset.mpr ⟨hseen, List.nil_subset _⟩⟩
  refine endless_of_closed
    (P := fun r => chart.Situated r ∧ r.leaf ∈ passages.map Passage.leaf) ?_
    ⟨hs, hsub h.leadsTo.leaf_mem⟩
  rintro r ⟨hr, hleaf⟩
  obtain ⟨r', hr', hsituated, hleaf'⟩ := h.exists_complete? tree total direct hr hleaf
  exact ⟨r', hr', hsituated, hsub hleaf'⟩

end Direct

/-! ## Runs -/

/-- A run has settled as it ideally does: where ideal settling ends, it is there; and it is done
with something pending only where ideal settling never ends. -/
structure SettlesIdeally (chart : Chart) (s : Situation) (m : Interpreter) : Prop where
  ends {s' : Situation} : chart.EndsIdeally s s' →
    m.Stands chart s' ∧ m.status = chart.statusAt s'.leaf
  endless {leaf : Nat} : m.status = .done → m.leaf = some leaf →
    chart.doneTransition? leaf ≠ none → chart.Endless s

/-- A run has settled from a situation: by completions at different leaves, up to where nothing is
pending or to a leaf that has come up; and as it ideally does, if no completion leads to a history
node. -/
structure Settled (chart : Chart) (s : Situation) (m : Interpreter) : Prop where
  settles : ∃ passages s', chart.Settles s passages s' ∧ m.Rests chart s'
  ideally : chart.CompletesDirectly → chart.SettlesIdeally s m

section Direct

variable (tree : chart.Arena) (total : chart.NeverFails)

include tree total

theorem Settles.settlesIdeally (direct : chart.CompletesDirectly) (hs : chart.Situated s)
    (h : chart.Settles s passages s') {m : Interpreter} (hrests : m.Rests chart s') :
    chart.SettlesIdeally s m := by
  have hreached := h.toCompletes.ideal?_eq
  have hendless : chart.doneTransition? s'.leaf ≠ none → chart.Endless s := fun hpending =>
    h.toCompletes.endless tree total direct hs (h.rested.resolve_left hpending)
  refine ⟨fun {t} hends => ?_, fun _ hleaf hpending => hendless ?_⟩
  · have hnone : chart.doneTransition? s'.leaf = none := by
      by_contra hpending
      exact hends.not_endless (hendless hpending)
    obtain rfl := eq_of_endsIdeally ⟨⟨_, hreached⟩, hnone⟩ hends
    exact ⟨hrests.toStands, hrests.status_eq⟩
  · obtain rfl := Option.some.inj (hrests.leaf_eq.symm.trans hleaf)
    exact hpending

theorem Settles.settled (hs : chart.Situated s) (h : chart.Settles s passages s')
    {m : Interpreter} (hrests : m.Rests chart s') : chart.Settled s m :=
  ⟨⟨passages, s', h, hrests⟩, fun direct => h.settlesIdeally tree total direct hs hrests⟩

end Direct

end Chart

namespace Interpreter

variable {chart : Chart}

/-- **Settling.** In a built chart whose actions never fail, the start and every event that is
handled settle from the situation that they first lead to. -/
theorem run_settles (hbuilt : chart.Built) (htotal : chart.NeverFails) (context : Context)
    (name : Option String) (calls : List Call) :
    (∃ s₀, chart.Begins context s₀ ∧ chart.Settled s₀ (started chart context name)) ∧
      ∃ s, ((started chart context name).run calls).Rests chart s ∧ ∀ now event,
        (∃ log, (((started chart context name).run calls).dispatch now event).state =
          { (started chart context name).run calls with log := log }) ∨
        ∃ passage first, chart.findTransition? s.leaf event = some passage.step.transition ∧
          chart.Leads s passage first ∧ chart.Settled first
            (((started chart context name).run calls).dispatch now event).state := by
  have tree := hbuilt.arena
  obtain ⟨-, s₀, s₁, hbegins, -, hsettles, hstarted⟩ :=
    start_keeps tree htotal.keeps context trivial name
  obtain ⟨-, s, -, -, hrests, -⟩ := rests_run tree htotal.keeps context trivial name calls
  refine ⟨⟨s₀, hbegins, hsettles.settled tree htotal (hbegins.situated tree) hstarted⟩, s, hrests,
    fun now event => ?_⟩
  obtain ⟨s', hafter, -, -, hignored | hreacts⟩ :=
    hrests.dispatch_keeps tree htotal.keeps trivial now event
  · exact .inl hignored
  · obtain ⟨passage, rest, first, -, ht, hleads, hsettles⟩ := hreacts
    exact .inr ⟨passage, first, ht, hleads,
      hsettles.settled tree htotal (tree.situated_of_leads hrests.situated hleads) hafter⟩

/-- A node with one final child, and what its completion goes to. -/
def swing (child goal : String) : Json :=
  .obj [("initial", .str child), ("on_done", .str goal),
    ("states", .obj [(child, .obj [("type", .str "final")])])]

/-- Two nodes of which each is completed into the other, and a way out. -/
def pendulum : Chart :=
  .ofDeclaration [] <| .obj [("id", .str "m"), ("initial", .str "p"),
    ("on", .obj [("go", .str "s")]),
    ("states", .obj [("p", swing "l" "q"), ("q", swing "k" "p"), ("s", .obj [])])]

set_option maxRecDepth 10000 in
theorem pendulum_built : pendulum.Built :=
  Chart.built_ofDeclaration (by decide +kernel) (by decide +kernel)

set_option maxRecDepth 10000 in
/-- Completions that go to and fro never end, and the run ends when they come back. -/
theorem run_settles_to_and_fro :
    pendulum.Built ∧ pendulum.NeverFails ∧ ∃ s₀, pendulum.Begins [] s₀ ∧ pendulum.Endless s₀ ∧
      (started pendulum [] none).status = .done ∧ (started pendulum [] none).leaf = some 2 := by
  have total : pendulum.NeverFails := Chart.neverFails_of_isPlain (by decide +kernel)
  have direct : pendulum.CompletesDirectly :=
    Chart.completesDirectly_of_onDone (by decide +kernel)
  have hdone : (started pendulum [] none).status = .done := by decide +kernel
  have hleaf : (started pendulum [] none).leaf = some 2 := by decide +kernel
  have hpending : (pendulum.doneTransition? 2).isSome = true := by decide +kernel
  obtain ⟨⟨s₀, hbegins, hsettled⟩, -⟩ := run_settles pendulum_built total [] none []
  exact ⟨pendulum_built, total, s₀, hbegins, (hsettled.ideally direct).endless hdone hleaf
    (Option.isSome_iff_ne_none.mp hpending), hdone, hleaf⟩

/-- A node whose completion goes to the history of another, which is then completed back. -/
def detour : Chart :=
  .ofDeclaration [] <| .obj [("id", .str "m"), ("initial", .str "p"),
    ("states", .obj [("p", swing "l" "c.h"),
      ("c", .obj [("initial", .str "x"),
        ("states", .obj [("x", swing "k" "r.f"),
          ("r", .obj [("initial", .str "a"), ("on_done", .str "#m.p"),
            ("states", .obj [("a", .obj []), ("f", .obj [("type", .str "final")])])]),
          ("h", .obj [("type", .str "history")])])])])]

set_option maxRecDepth 10000 in
/-- A run ends at a leaf that has come up before although ideal settling goes on from there, by what
is on record now, and ends at another. -/
theorem settles_early :
    detour.Built ∧ detour.NeverFails ∧ ∃ s₀ s', detour.Begins [] s₀ ∧ detour.EndsIdeally s₀ s' ∧
      s'.leaf = 7 ∧ detour.kindAt? 7 = some .atomic ∧
      (started detour [] none).status = .done ∧ (started detour [] none).leaf = some 2 := by
  have hbuilt : detour.Built :=
    Chart.built_ofDeclaration (by decide +kernel) (by decide +kernel)
  have hactions : detour.initialPath.flatMap detour.entryOf = [] :=
    List.isEmpty_iff.mp (by decide +kernel)
  have hideal : (detour.ideal? ⟨2, Context.adopted [] [], []⟩ 4).map Situation.leaf = some 7 := by
    decide +kernel
  obtain ⟨s', hs', hleaf⟩ := Option.map_eq_some_iff.mp hideal
  have hnone : (detour.doneTransition? s'.leaf).isNone = true := by
    rw [hleaf]; decide +kernel
  refine ⟨hbuilt, Chart.neverFails_of_isPlain (by decide +kernel), ⟨2, Context.adopted [] [], []⟩,
    s', ⟨by decide +kernel, ⟨[], by rw [hactions]; rfl, rfl⟩, rfl⟩,
    ⟨⟨4, hs'⟩, Option.isNone_iff_eq_none.mp hnone⟩, hleaf, ?_⟩
  decide +kernel

end Interpreter

end Lifecycle
