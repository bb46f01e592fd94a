import Lifecycle.Proofs.Chart.Schema

/-!
# Assigned keys and kinds

Two checks look at what charts put into contexts. When a chart is built, the keys that an action
assigns are looked up in the schema (`Blueprint.Binds`), and so all actions of a built chart that
assign keep the keys of a context (`Built.keeps_keyed`). When a context is restored, its keys and
the kinds of its values are looked up: of a context with the keys of the schema nothing is refused
but a value of another kind than its default (`Keyed.fitContext_error`).
-/

namespace Lifecycle

namespace Blueprint

variable {plan : Blueprint} {draft : Draft} {node : Node} {a : Action} {names declared : Json}
  {event : String} {t : Transition} {actions : List Action}

theorem sortedDistinct_eq_nil_iff {keys : List String} :
    Json.sortedDistinct keys = [] ↔ keys = [] := by
  have hlength : (Json.sortedDistinct keys).length = keys.eraseDups.length :=
    List.length_mergeSort _
  rw [← List.length_eq_zero_iff, hlength, List.length_eq_zero_iff]
  cases keys with
  | nil => simp
  | cons key rest => simp [List.eraseDups_cons]

/-- Nothing is outside the schema where the keys of an assignment are in it. -/
theorem outside_assign_eq_nil_iff {updates : Entries Json} :
    plan.outside (.assign updates) = [] ↔
      ∀ key ∈ Entries.keys updates, Entries.has plan.context (.text key) = true := by
  rw [outside, sortedDistinct_eq_nil_iff, List.filter_eq_nil_iff]
  simp

/-- The registry has the action under its name, and what it assigns is in the schema. -/
structure Binds (plan : Blueprint) (a : Action) : Prop where
  registered : Entries.get? plan.registry a.name = some a.effect
  inside : plan.outside a.effect = []

theorem binds_of_action (h : plan.action declared = .ok a) : plan.Binds a := by
  unfold action at h
  split at h
  · split at h
    · cases h
    · rename_i effect heffect
      split at h
      · rename_i hinside
        cases h
        exact ⟨heffect, List.isEmpty_iff.mp hinside⟩
      · cases h
  · cases h

theorem binds_of_actions (h : plan.actions names = .ok actions) : ∀ a ∈ actions, plan.Binds a := by
  obtain ⟨items, -, h⟩ := bind_eq_ok.mp h
  intro a ha
  obtain ⟨item, -, haction⟩ := exists_of_mem_mapM h ha
  exact binds_of_action haction

theorem binds_of_transitionTo {reference : Json}
    (h : plan.transitionTo draft event reference names = .ok t) :
    ∀ a ∈ t.actions, plan.Binds a := by
  unfold transitionTo at h
  obtain ⟨target, -, h⟩ := bind_eq_ok.mp h
  obtain ⟨actions, hactions, h⟩ := bind_eq_ok.mp h
  cases h
  exact binds_of_actions hactions

theorem binds_of_transition (h : plan.transition draft event declared = .ok t) :
    ∀ a ∈ t.actions, plan.Binds a := by
  unfold transition at h
  split at h
  · exact binds_of_transitionTo h
  · exact binds_of_transitionTo h
  · split at h
    · exact binds_of_transitionTo h
    · cases h
  · cases h

/-- All actions of a finished node are bound. -/
theorem Finished.binds (h : Finished plan draft node) : ∀ a ∈ node.actions, plan.Binds a := by
  intro a ha
  rw [Node.actions, List.mem_append, List.mem_append, List.mem_flatMap] at ha
  rcases ha with (hentry | hexit) | ⟨t, ht, ha⟩
  · exact binds_of_actions h.entry_eq a hentry
  · exact binds_of_actions h.exit_eq a hexit
  · rcases List.mem_append.mp ht with ht | ht
    · obtain ⟨members, -, hmapM⟩ := h.transitions_eq
      obtain ⟨member, -, hhandler⟩ := exists_of_mem_mapM hmapM ht
      exact binds_of_transition (exists_transition_of_handler hhandler) a ha
    · have hdone := h.onDone_eq.trans (congrArg _ (Option.mem_toList.mp ht))
      obtain ⟨_, _, _, htransition, -⟩ := exists_transition_of_onDone hdone
      exact binds_of_transition htransition a ha

end Blueprint

namespace Chart

variable {chart : Chart} {context : Context} {a : Action}

/-- What an action of a built chart assigns is in the schema. -/
theorem Built.has_of_assign (h : chart.Built) (ha : chart.HasAction a) {updates : Entries Json}
    (heffect : a.effect = .assign updates) :
    ∀ key ∈ Entries.keys updates, Entries.has chart.context (.text key) = true := by
  obtain ⟨registry, events, declaration, -, h⟩ := h
  obtain ⟨fields, outline, rfl, described⟩ := define_eq_ok_iff.mp h
  obtain ⟨i, n, hn, ha⟩ := ha
  obtain ⟨d, -, hfinish⟩ := described.exists_draft hn
  have hbinds := (Blueprint.finished_of_finish hfinish).binds a ha
  exact Blueprint.outside_assign_eq_nil_iff.mp (heffect ▸ hbinds.inside)

/-- In a built chart in which all actions assign, contexts have the keys of the schema. -/
theorem Built.keeps_keyed (h : chart.Built)
    (hplain : ∀ a, chart.HasAction a → a.isPlain = true) : chart.Keeps chart.Keyed := by
  intro a ha context hcontext
  have hplain := hplain a ha
  rcases heffect : a.effect with updates | _ | change
  · refine ⟨_, rfl, hcontext.overlay ?_⟩
    rw [Context.keys_ofMembers, List.forall_mem_map]
    exact h.has_of_assign ha heffect
  · exact ⟨context, rfl, hcontext⟩
  · rw [Action.isPlain, heffect] at hplain
    cases hplain

/-- The first value of another kind than its default is refused. -/
theorem checkKinds_error {corruption : Corruption}
    (h : chart.checkKinds context = .error corruption) :
    ∃ entry ∈ context,
      fitsKind ((Entries.get? chart.context entry.1).getD .null) entry.2 = false ∧
      corruption = .wrongKind entry.1 ((Entries.get? chart.context entry.1).getD .null).kindName
        entry.2.kindName := by
  induction context with
  | nil => cases h
  | cons entry rest ih =>
    rw [checkKinds] at h
    split at h
    · obtain ⟨e, he, hrefused⟩ := ih h
      exact ⟨e, List.mem_cons_of_mem _ he, hrefused⟩
    · rename_i hkind
      exact ⟨entry, List.mem_cons_self, Bool.eq_false_iff.mpr hkind, (Except.error.inj h).symm⟩

/-- Of a context with the keys of the schema only a value of another kind than its default is
refused. -/
theorem Keyed.fitContext_error (h : chart.Keyed context) {corruption : Corruption}
    (hrefused : chart.fitContext context = .error corruption) :
    ∃ entry ∈ context,
      fitsKind ((Entries.get? chart.context entry.1).getD .null) entry.2 = false ∧
      corruption = .wrongKind entry.1 ((Entries.get? chart.context entry.1).getD .null).kindName
        entry.2.kindName := by
  have hkeys := checkKeys_eq_ok.mpr h.has_of_mem
  rcases hkinds : chart.checkKinds context with found | _
  · have heq : chart.fitContext context = .error found := by rw [fitContext, hkeys, hkinds]; rfl
    obtain rfl := Except.error.inj (heq.symm.trans hrefused)
    exact checkKinds_error hkinds
  · rw [fitContext, hkeys, hkinds] at hrefused
    cases hrefused

end Chart

end Lifecycle
