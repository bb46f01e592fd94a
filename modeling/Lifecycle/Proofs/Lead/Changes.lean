import Lifecycle.Proofs.Lead.Incidents
import Lifecycle.Proofs.Session.Delivery

/-!
# What counts as a change of a lead

An event counts as a change where it leaves another path or another version of the context. On a
chart that completes nothing an event takes one microstep at most
(`Interpreter.length_sendPassages_le`); so where values equal themselves the version is another one
exactly where the context is (`Interpreter.Storable.version_eq_iff`), and an interpreter of a lead
reports a change exactly where its path or its context differs from what it was before
(`Delivery.change?_eq_news?`).
-/

namespace Lifecycle

/-! ## Values that equal themselves -/

/-- Whether a value is a boolean, an integer or a text. -/
def Json.isExact : Json → Bool
  | .bool _ | .int _ | .str _ => true
  | .null | .float _ | .arr _ | .obj _ => false

theorem Json.same_self {value : Json} (h : value.isExact = true) : value.same value = true := by
  cases value with
  | bool b => simp [same, number?, Number.same]
  | int n => simp [same, number?, Number.same]
  | str s => simp [same]
  | null | float _ | arr _ | obj _ => cases h

/-- A context whose values equal themselves equals itself. -/
theorem Context.same_self {context : Context} (hmap : Entries.IsMap context)
    (h : ∀ entry ∈ context, entry.2.isExact = true) : context.same context = true := by
  refine (same_iff hmap).mpr ⟨rfl, fun key value hget => ⟨value, hget, ?_⟩⟩
  obtain ⟨_, hmem, -⟩ := Entries.exists_mem_of_get? hget
  exact Json.same_self (h _ hmem)

namespace Chart

variable {chart : Chart}

theorem isExact_of_fitsKind {default value : Json} (hdefault : default.isExact = true)
    (h : fitsKind default value = true) : value.isExact = true := by
  cases default with
  | null | float _ | arr _ | obj _ => cases hdefault
  | _ => cases value <;> first | rfl | simp [fitsKind, Json.kindName] at h

/-- A chart whose runs can be stored, whose actions never fail, and whose values equal
themselves. -/
structure Exact (chart : Chart) : Prop extends chart.Storing where
  total : chart.NeverFails
  isExact : ∀ entry ∈ chart.context, entry.2.isExact = true

/-- Restorable contexts equal themselves. -/
theorem Exact.same_self (exact : chart.Exact) {context : Context}
    (h : chart.Restorable context) : context.same context = true :=
  Context.same_self h.isMap (h.forall_value exact.isExact isExact_of_fitsKind)

theorem Storing.completesNothing (storing : chart.Storing) : chart.CompletesNothing := by
  intro leaf
  by_contra hpending
  obtain ⟨t, ht⟩ := Option.ne_none_iff_exists'.mp hpending
  exact hpending (storing.ends leaf (exists_parent_of_doneTransition? ht).1)

end Chart

/-! ## Changes of a run -/

namespace Interpreter

variable {chart : Chart} {m : Interpreter} {event : String}

/-- Where nothing is completed, nothing is to be settled. -/
theorem settlePassages_eq_nil (complete : m.chart.CompletesNothing) (unseen : List Nat) :
    m.settlePassages unseen = [] := by
  unfold settlePassages
  split
  · rfl
  · rw [complete]

/-- Where nothing is completed, an event takes one microstep at most. -/
theorem length_sendPassages_le (complete : m.chart.CompletesNothing) (event : String) :
    (m.sendPassages event).length ≤ 1 := by
  unfold sendPassages followPassages
  split
  · exact Nat.zero_le 1
  split
  · exact Nat.zero_le 1
  rename_i leaf t _
  split
  · rename_i step next _ hfollow
    obtain ⟨_, _, _, _, hframe⟩ := m.follow_frame leaf t
    rw [hfollow] at hframe
    subst hframe
    rw [settlePassages_eq_nil (by exact complete)]
    exact Nat.le_refl 1
  · exact Nat.zero_le 1

/-- Whether two states of a run differ in the path or, by value, in the context. -/
def differs (before after : Interpreter) : Bool :=
  after.observe.path != before.observe.path || !after.context.same before.context

/-- Records are no difference. -/
theorem differs_log (h : m.context.same m.context = true) (log : List Record) :
    m.differs { m with log := log } = false := by
  rw [differs, Bool.or_eq_false_iff, Bool.not_eq_false']
  exact ⟨bne_self_eq_false _, h⟩

section Exact

variable (exact : chart.Exact)

include exact

theorem Storable.same_self (h : m.Storable chart) : m.context.same m.context = true := by
  obtain ⟨s, hrests, hcontext, -⟩ := h
  exact exact.same_self (hrests.context_eq ▸ hcontext)

/-- The version stays exactly where the context does. -/
theorem Storable.version_eq_iff (h : m.Storable chart) (now : Json) (event : String) :
    (m.dispatch now event).state.version = m.version ↔
      (m.dispatch now event).state.context.same m.context = true := by
  have hself := h.same_self exact
  obtain ⟨s, hrests, -⟩ := h
  obtain ⟨-, -, -, -, hcontext, hversion⟩ :=
    dispatch_taken exact.built.arena hrests.alive now event
  have hone : m.alterations (m.sendPassages event) ≤ 1 := by
    refine (m.alterations_le_length _).trans (length_sendPassages_le ?_ event)
    rw [hrests.chart_eq]
    exact exact.completesNothing
  rw [hversion, hcontext, taken_version]
  rcases Nat.le_one_iff_eq_zero_or_eq_one.mp hone with hnone | hone
  · rw [hnone, taken_context hnone]
    exact iff_of_true rfl hself
  · rw [hone, taken_context_same hone]
    exact iff_of_false (Nat.succ_ne_self _) Bool.false_ne_true

/-- An event that is handled is reported as a change where the run differs from before. -/
theorem Storable.dispatch_handled (h : m.Storable chart) (hevent : ¬ m.Idle event) {now : Json}
    {time : Number} (htime : Record.stamp now = .ok time) :
    (m.dispatch now event).result = .ok (.handled (m.dispatch now event).state.observe
      (m.differs (m.dispatch now event).state)) := by
  have hversion := h.version_eq_iff exact now event
  obtain ⟨s, hrests, -⟩ := h
  obtain ⟨_, hresult, rfl, -⟩ := Interpreter.dispatch_handled exact.built.arena
    exact.total hrests.alive hrests.snapshot_eq hevent htime
  rw [hresult, differs]
  congr 3
  rw [Bool.eq_iff_iff, bne_iff_ne, Bool.not_eq_true', ← Bool.not_eq_true, ← hversion]
  rfl

end Exact

end Interpreter

/-! ## Changes of a lead -/

namespace Delivery

variable {chart : Chart} {d : Delivery}

/-- The lead whose path or context differs after the event, and what it shows then. -/
def news? (d : Delivery) : Option (String × Snapshot) :=
  if d.agent.interpreter.differs d.after.interpreter then
    d.lead.map (·, d.after.interpreter.observe)
  else none

/-- An event for which nothing is to be done changes nothing. -/
theorem change?_of_idle (hidle : d.agent.interpreter.Idle d.call.event) : d.change? = none := by
  have hignored : ∀ snapshot, d.response.result ≠ .ok (.handled snapshot true) := by
    intro snapshot hresult
    rw [response] at hresult
    rcases hshown : d.agent.interpreter.snapshot with _ | shown
    · rw [Interpreter.dispatch, hshown] at hresult
      cases hresult
    · obtain ⟨reason, signals, hdispatch⟩ :=
        Interpreter.dispatch_of_idle hidle d.call.now hshown
      rw [hdispatch, Interpreter.ignore_result] at hresult
      cases hstamp : Record.stamp d.call.now <;> rw [hstamp] at hresult <;> cases hresult
  unfold change?
  split
  · rename_i hresult
    exact absurd hresult (hignored _)
  · rfl

/-- What a change of a lead is, is told by what its interpreter was before and is afterwards. -/
theorem change?_eq_news? (exact : chart.Exact) (hrun : d.agent.interpreter.Storable chart)
    {time : Number} (htime : Record.stamp d.call.now = .ok time) : d.change? = d.news? := by
  by_cases hidle : d.agent.interpreter.Idle d.call.event
  · obtain ⟨log, hstate⟩ := (Interpreter.ignores_of_idle hidle d.call.now).state
    have hafter : d.after.interpreter = { d.agent.interpreter with log := log } := hstate
    rw [change?_of_idle hidle, news?, hafter, Interpreter.differs_log (hrun.same_self exact)]
    rfl
  · have hresult : d.response.result = .ok (.handled d.after.interpreter.observe
        (d.agent.interpreter.differs d.after.interpreter)) :=
      hrun.dispatch_handled exact hidle htime
    rw [change?, news?, hresult]
    cases d.agent.interpreter.differs d.after.interpreter <;> cases d.lead <;> rfl

end Delivery

end Lifecycle
