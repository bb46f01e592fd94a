import Lifecycle.Proofs.Chart.Realization

/-!
# What a chart carries of its declaration

Each node of the chart that a declaration describes carries what the state declares that it stands
for, and no more: its initial child, its transitions in order, each with its event, target and
actions, its completion, its entry and exit actions in order, its tags and its description
(`Chart.carries_of_define`). A well-formed declaration describes a chart
(`Chart.WellFormed.exists_define`), so all that it declares is found there
(`Chart.WellFormed.exists_carries`).
-/

namespace Lifecycle

open Outline (field absent Stands IsChild)

/-- Actions are those that a value lists, in order, as they are registered. -/
def Performs (registry : Registry) (declared : Json) (actions : List Action) : Prop :=
  Lists declared (actions.map Action.name) ∧
    ∀ a ∈ actions, Entries.get? registry a.name = some a.effect

/-- The transitions that a state declares, by their events. -/
def DeclaredState.transitions (s : DeclaredState) : Entries Json :=
  match field s.fields "on" with
  | .obj members => members
  | _ => []

/-- The tags that a state declares, each once. -/
def DeclaredState.tags (s : DeclaredState) : List String :=
  if (field s.fields "tags").truthy then
    match Blueprint.listed (field s.fields "tags") with
    | .ok items => (items.map Json.display).eraseDups
    | .error _ => []
  else []

/-- The text that describes a state. -/
def DeclaredState.description (s : DeclaredState) : String :=
  ((Entries.get? s.fields "description").getD (.str "")).display

theorem Blueprint.membersOf_eq_ok {s : DeclaredState} {members : Entries Json}
    (h : Blueprint.membersOf (field s.fields "on") = .ok members) : members = s.transitions := by
  unfold DeclaredState.transitions
  cases hon : field s.fields "on" with
  | obj members' =>
    rw [hon] at h
    exact (Except.ok.inj h).symm
  | _ =>
    rw [hon, Blueprint.membersOf] at h
    · split at h
      · cases h
      · exact (Except.ok.inj h).symm
    · intro members' heq
      cases heq

theorem lists_of_listed {declared : Json} {names : List String}
    (h : Blueprint.listed declared = .ok (names.map .str)) : Lists declared names := by
  have hinj : Function.Injective Json.str := fun _ _ => Json.str.inj
  cases declared with
  | null =>
    obtain rfl : names = [] := List.map_eq_nil_iff.mp (Except.ok.inj h).symm
    exact .none
  | str name =>
    obtain rfl : [name] = names := List.map_injective_iff.mpr hinj (Except.ok.inj h)
    exact .one name
  | arr items =>
    obtain rfl := Except.ok.inj h
    exact .many names
  | obj members =>
    obtain rfl : Entries.keys members = names :=
      List.map_injective_iff.mpr hinj (Except.ok.inj h)
    exact .keys members
  | _ => cases h

namespace Blueprint

variable {plan : Blueprint} {draft : Draft} {s : DeclaredState}

theorem eq_str_of_action {declared : Json} {a : Action} (h : plan.action declared = .ok a) :
    declared = .str a.name := by
  unfold action at h
  split at h
  · split at h
    · cases h
    · split at h
      · cases h
        rfl
      · cases h
  · cases h

/-- The actions of a node are those that its field lists. -/
theorem performs_of_actions {declared : Json} {actions : List Action}
    (h : plan.actions declared = .ok actions) : Performs plan.registry declared actions := by
  obtain ⟨items, hlisted, hactions⟩ := bind_eq_ok.mp h
  have hitems : items = (actions.map Action.name).map .str := by
    have hall := forall₂_of_mapM hactions
    rw [List.map_map]
    exact List.forall₂_eq_eq_eq ▸ List.forall₂_map_right_iff.mpr
      (hall.imp fun _ _ => eq_str_of_action)
  exact ⟨lists_of_listed (hitems ▸ hlisted), fun a ha => (binds_of_actions h a ha).registered⟩

/-- The parts of a transition that is accepted. -/
theorem exists_parts_of_transition {event : String} {declared : Json} {t : Transition}
    (h : plan.transition draft event declared = .ok t) : ∃ reference names,
      Parts declared reference names ∧ plan.transitionTo draft event reference names = .ok t := by
  unfold transition at h
  split at h
  · exact ⟨_, _, .none, h⟩
  · exact ⟨_, _, .reference _, h⟩
  · split at h
    · rename_i fields hknown
      refine ⟨_, _, .object fun name hname => ?_, h⟩
      have hnone := sortedDistinct_eq_nil_iff.mp (List.isEmpty_iff.mp hknown)
      simpa using List.filter_eq_nil_iff.mp hnone name hname
    · cases h
  · cases h

/-- The tags of a node are those that its field lists, each once. -/
theorem tags_eq_of_tagsOf {tags : List String} (h : tagsOf (field s.fields "tags") = .ok tags) :
    tags = s.tags := by
  unfold tagsOf at h
  unfold DeclaredState.tags
  split
  · rename_i htruthy
    rw [if_pos htruthy] at h
    obtain ⟨items, hitems, h⟩ := bind_eq_ok.mp h
    obtain ⟨texts, htexts, h⟩ := bind_eq_ok.mp h
    have htext : texts = items.map Json.display := by
      refine (List.forall₂_eq_eq_eq ▸ List.forall₂_map_left_iff.mpr ?_ : items.map _ = texts).symm
      refine (forall₂_of_mapM htexts).imp fun item text hitem => ?_
      unfold tagText at hitem
      split at hitem
      · exact Except.ok.inj hitem
      · cases hitem
    rw [hitems, ← Except.ok.inj h, htext]
  · rename_i hfalsy
    rw [if_neg hfalsy] at h
    exact (Except.ok.inj h).symm

theorem description_of_finish {node : Node} (h : plan.finish draft = .ok node) :
    node.description = ((Entries.get? draft.fields "description").getD (.str "")).display := by
  unfold finish at h
  obtain ⟨⟨initial, history⟩, -, h⟩ := bind_eq_ok.mp h
  obtain ⟨members, -, h⟩ := bind_eq_ok.mp h
  obtain ⟨transitions, -, h⟩ := bind_eq_ok.mp h
  obtain ⟨done, -, h⟩ := bind_eq_ok.mp h
  obtain ⟨entry, -, h⟩ := bind_eq_ok.mp h
  obtain ⟨exit, -, h⟩ := bind_eq_ok.mp h
  obtain ⟨tags, -, h⟩ := bind_eq_ok.mp h
  cases h
  rfl

/-- An initial child is the child that a compound draft names. -/
theorem childAt?_of_defaults {initial history : Option Nat} (hkind : draft.kind = .compound)
    (h : plan.defaults draft = .ok (initial, history)) : ∃ c, initial = some c ∧
      Reference.childAt? plan.table draft.index (field draft.fields "initial").display =
        some c := by
  unfold defaults at h
  rw [if_pos hkind] at h
  obtain ⟨c, hc, h⟩ := bind_eq_ok.mp h
  refine ⟨c, ?_, ?_⟩
  · split at h
    · cases h
      rfl
    · cases h
      rfl
    · cases h
  · unfold Blueprint.initial at hc
    split at hc
    · cases hc
    · split at hc
      · cases hc
      · rename_i hchild
        split at hc
        · cases hc
        · rw [hchild, Except.ok.inj hc]

/-- A completion is the transition that a draft declares for it, under an event of its own. -/
theorem transition_of_onDone {done : Option Transition} (h : plan.onDone draft = .ok done) :
    (absent draft.fields "on_done" = true ∧ done = none) ∨
      absent draft.fields "on_done" = false ∧ ∃ t, done = some t ∧
        plan.transition draft ("done.state." ++ draft.id) (field draft.fields "on_done") =
          .ok t := by
  unfold onDone at h
  split at h
  · rename_i habsent
    exact .inl ⟨habsent, (Except.ok.inj h).symm⟩
  · rename_i hpresent
    obtain ⟨t, ht, h⟩ := bind_eq_ok.mp h
    refine .inr ⟨by simpa using hpresent, t, ?_, ht⟩
    split at h
    · cases h
    · split at h
      · cases h
      · exact (Except.ok.inj h).symm

end Blueprint

/-! ## What a node carries -/

namespace Chart

variable {registry : Registry} {events : Option (List String)} {declaration : Json} {chart : Chart}
  {i : Nat} {n : Node} {s : DeclaredState}

/-- Where a reference leads that is written on a node: to the node whose id it means, and to none if
it is absent. -/
def Means (chart : Chart) (i : Nat) (reference : Json) (target : Option Nat) : Prop :=
  (reference = .null ∧ target = none) ∨ ∃ text j m, reference = .str text ∧ target = some j ∧
    j ≠ 0 ∧ chart.node? j = some m ∧ chart.Refers i text m.id

/-- A transition is what a node declares for an event: it leads where the declared reference does,
and performs the declared actions. -/
structure Realizes (registry : Registry) (chart : Chart) (i : Nat) (event : String)
    (declared : Json) (t : Transition) : Prop where
  event_eq : t.event = event
  source_eq : t.source = i
  parts : ∃ reference names, Parts declared reference names ∧
    t.reference = reference.string?.getD "" ∧ chart.Means i reference t.target ∧
    Performs registry names t.actions

/-- A node carries what a state declares. -/
structure Carries (registry : Registry) (chart : Chart) (s : DeclaredState) (i : Nat) (n : Node) :
    Prop extends chart.Mirrors s i n where
  kind_eq : n.kind = s.kind
  /-- The initial child stands under the key that is declared. -/
  initial : s.kind = .compound → ∃ c, n.initial = some c ∧ chart.parent? c = some i ∧
    chart.keysTo c = s.path ++ [(field s.fields "initial").display]
  noInitial : s.kind ≠ .compound → n.initial = none
  /-- There is one transition for each declared event, in their order. -/
  transitions : List.Forall₂ (fun member t => chart.Realizes registry i member.1 member.2 t)
    s.transitions n.transitions
  completion : (absent s.fields "on_done" = true ∧ n.onDone = none) ∨
    absent s.fields "on_done" = false ∧ ∃ t, n.onDone = some t ∧
      chart.Realizes registry i ("done.state." ++ n.id) (field s.fields "on_done") t
  entry : Performs registry (field s.fields "entry") n.entry
  exit : Performs registry (field s.fields "exit") n.exit
  tags_eq : n.tags = s.tags
  description_eq : n.description = s.description

namespace Tabled

variable {plan : Blueprint} {drafts : List Draft} {d : Draft} (tabled : Tabled plan drafts chart)
  (hmachine : plan.machine = chart.id)

include tabled hmachine

theorem means_of_target (hd : drafts[i]? = some d) {reference : Json} {target : Option Nat}
    (h : plan.target d reference = .ok target) : chart.Means i reference target := by
  rcases target with _ | j
  · exact .inl ⟨Blueprint.target_eq_none_iff.mp h, rfl⟩
  · obtain ⟨text, rfl⟩ := Blueprint.exists_text_of_target h
    obtain ⟨hj, m, hm, hrefers⟩ := (tabled.resolving hmachine hd).denotes.mp h
    exact .inr ⟨text, j, m, rfl, rfl, hj, hm, hrefers⟩

/-- An accepted transition is what is declared. -/
theorem realizes_of_transition (hd : drafts[i]? = some d) {event : String} {declared : Json}
    {t : Transition} (h : plan.transition d event declared = .ok t) :
    chart.Realizes plan.registry i event declared t := by
  obtain ⟨reference, names, hparts, h⟩ := Blueprint.exists_parts_of_transition h
  obtain ⟨target, htarget, h⟩ := bind_eq_ok.mp h
  obtain ⟨actions, hactions, h⟩ := bind_eq_ok.mp h
  cases h
  exact ⟨rfl, tabled.numbered.index_eq hd, reference, names, hparts, rfl,
    tabled.means_of_target hmachine hd htarget, Blueprint.performs_of_actions hactions⟩

/-- The transitions of a node realize what is declared for them. -/
theorem forall₂_realizes (hd : drafts[i]? = some d) {members : Entries Json}
    {transitions : List Transition} (h : members.mapM (plan.handler d) = .ok transitions) :
    List.Forall₂ (fun member t => chart.Realizes plan.registry i member.1 member.2 t)
      members transitions :=
  (forall₂_of_mapM h).imp fun _ _ ht =>
    tabled.realizes_of_transition hmachine hd (Blueprint.exists_transition_of_handler ht)

omit hmachine in
/-- The initial child of a node is the child that its draft names. -/
theorem exists_initial (hd : drafts[i]? = some d) (hfin : Blueprint.Finished plan d n)
    (hkind : n.kind = .compound) : ∃ c, n.initial = some c ∧ chart.parent? c = some i ∧
      chart.keyAt c = (field d.fields "initial").display := by
  obtain ⟨c, hc, hchild⟩ :=
    Blueprint.childAt?_of_defaults (hfin.kind_eq ▸ hkind) hfin.defaults_eq
  rw [tabled.table_eq, tabled.numbered.index_eq hd, tabled.numbered.childAt?_eq_some_iff hd]
    at hchild
  obtain ⟨e, he, hchild, hkey⟩ := hchild
  obtain ⟨m, hm, hfin'⟩ := tabled.exists_node he
  exact ⟨c, hc, tabled.parent?_of_isChild hd he hchild,
    by rw [keyAt_eq hm, hfin'.key_eq, hkey]⟩

end Tabled

/-- **Nodes carry what is declared.** In the chart that a declaration describes, each node has the
kind, the initial child, the transitions, the completion, the actions, the tags and the description
that its state declares. -/
theorem carries_of_define (hu : declaration.unrepeated = true)
    (h : define registry events declaration = .ok chart) (hn : chart.node? i = some n)
    (hs : (Outline.declared [chart.id] declaration)[i]? = some s) :
    chart.Carries registry s i n := by
  have hmirrors := mirrors_of_define hu h hn hs
  obtain ⟨fields, outline, rfl, described⟩ := define_eq_ok_iff.mp h
  have tabled := described.tabled hu
  obtain ⟨d, hd, hfinish⟩ := described.exists_draft hn
  have hfin := Blueprint.finished_of_finish hfinish
  have hstands := rel_of_forall₂ (Outline.stands_of_read described.read_eq) hs hd
  have hkind : n.kind = s.kind := by
    obtain ⟨⟨root, hcheck⟩, -⟩ := tabled.numbered.node hd
    have hkindOf := Outline.kindOf_of_check hcheck
    rw [hstands.fields_eq] at hkindOf
    rw [hfin.kind_eq, DeclaredState.kind_eq_of_kindOf hkindOf]
  obtain ⟨members, hmembers, htransitions⟩ := hfin.transitions_eq
  have hentry := Blueprint.performs_of_actions hfin.entry_eq
  have hexit := Blueprint.performs_of_actions hfin.exit_eq
  have htags := hfin.tags_eq
  have hdone := Blueprint.transition_of_onDone hfin.onDone_eq
  rw [hstands.fields_eq] at hmembers hentry hexit htags hdone
  refine { hmirrors with
    kind_eq := hkind, entry := hentry, exit := hexit,
    tags_eq := Blueprint.tags_eq_of_tagsOf htags,
    initial := fun hcompound => ?_, noInitial := fun hne => ?_, transitions := ?_,
    completion := ?_, description_eq := ?_ }
  · obtain ⟨c, hc, hparent, hkey⟩ := tabled.exists_initial hd hfin (hkind.trans hcompound)
    refine ⟨c, hc, hparent, ?_⟩
    rw [tabled.arena.keysTo_of_parent hparent, hmirrors.path_eq, hkey, hstands.fields_eq]
  · exact (tabled.childless hn (hkind ▸ hne)).2
  · rw [← Blueprint.membersOf_eq_ok hmembers]
    exact tabled.forall₂_realizes rfl hd htransitions
  · refine hdone.imp_right ?_
    rintro ⟨hpresent, t, ht, htransition⟩
    refine ⟨hpresent, t, ht, ?_⟩
    rw [hfin.id_eq]
    exact tabled.realizes_of_transition rfl hd htransition
  · rw [Blueprint.description_of_finish hfinish, hstands.fields_eq]
    rfl

namespace WellFormed

variable {context : Context} {fields : Entries Json}

/-- The root is compound. -/
theorem kind_root (h : WellFormed registry events context fields) :
    (DeclaredState.mk [machineId fields] fields).kind = .compound := by
  have hroot := h.wellFormed ⟨[machineId fields], fields⟩
    (by rw [Outline.declared]; exact List.mem_cons_self)
  exact (Outline.compound_iff_of_kindOf hroot.kindOf_eq).mpr h.states

/-- A well-formed declaration describes a chart. -/
theorem exists_define (h : WellFormed registry events context fields) :
    ∃ chart, define registry events (.obj fields) = .ok chart := by
  obtain ⟨outline, hread⟩ := Outline.exists_read true (machineId fields) rfl (.obj fields)
    ⟨fields, rfl⟩ (fun _ heq _ => Json.obj.inj heq ▸ ⟨h.kind_root, h.root⟩) h.wellFormed
  set drafts := Outline.drafts none 0 0 (machineId fields) outline
  set scope : Scope := ⟨machineId fields,
    Outline.declared [machineId fields] (.obj fields), registry, events, context⟩
  have laid : Laid scope drafts :=
    ⟨Outline.numbered_of_read h.unrepeated hread, Outline.stands_of_read hread⟩
  obtain ⟨nodes, hnodes⟩ : ∃ nodes, (scope.plan drafts).finishAll drafts = .ok nodes := by
    refine Blueprint.exists_finishAll fun d hd => ?_
    obtain ⟨i, hi⟩ := List.mem_iff_getElem?.mp hd
    obtain ⟨s, hs, hstands⟩ := laid.exists_state hi
    exact laid.exists_finish hi hstands (h.wellFormed s (List.mem_of_getElem? hs))
  refine ⟨⟨machineId fields, nodes.toArray, context, events⟩, define_eq_ok_iff.mpr
    ⟨fields, outline, rfl, rfl, rfl, h.context_eq, h.states, hread, ?_⟩⟩
  exact hnodes

/-- The fields of a declaration: a state that does one thing and is done, and one after it. -/
def errandFields : Entries Json :=
  [("id", .str "m"), ("initial", .str "p"), ("context", .obj [("n", .int 0)]), ("states", .obj [
    ("p", .obj [("initial", .str "l"), ("tags", .str "busy"), ("description", .str "an errand"),
      ("on", .obj [("go", .obj [("target", .str "d"), ("actions", .arr [.str "bump"])])]),
      ("on_done", .str "#m.d"), ("states", .obj [("l", .obj [("type", .str "final")])])]),
    ("d", .obj [("entry", .str "bump")])])]

/-- What the states of the errand are judged against. -/
def errandScope : Scope where
  machine := machineId errandFields
  states := Outline.declared [machineId errandFields] (.obj errandFields)
  registry := [("bump", .assign [("n", .int 1)])]
  events := some ["go"]
  context := [(.text "n", .int 0)]

/-- The states of the errand by their places. -/
def errandState (i : Nat) : DeclaredState := errandScope.states[i]?.getD ⟨[], []⟩

theorem errandState_mem {i : Nat} (h : i < 4) : errandState i ∈ errandScope.states := by
  have hlength : errandScope.states.length = 4 := rfl
  rw [errandState, List.getElem?_eq_getElem (hlength ▸ h)]
  exact List.getElem_mem _

theorem states_errand :
    errandScope.states = [errandState 0, errandState 1, errandState 2, errandState 3] := rfl

theorem kind_ne_history_of_errand : ∀ t ∈ errandScope.states, t.kind ≠ .history := by
  rw [states_errand]
  simp only [List.forall_mem_cons, List.not_mem_nil, false_imp_iff, implies_true, and_true]
  exact ⟨by decide, by decide, by decide, by decide⟩

theorem registered_bump : errandScope.Registered "bump" :=
  ⟨_, rfl, by rintro updates ⟨⟩; exact List.forall_mem_singleton.mpr rfl⟩

theorem performable_null : errandScope.Performable .null := ⟨[], .none, nofun⟩

theorem wellFormed_errandState_zero : errandScope.WellFormed (errandState 0) where
  validKeys := by decide
  known := by decide
  children := .inr ⟨_, rfl, by simp⟩
  typed := .inl rfl
  initial _ := ⟨rfl, errandState 1, errandState_mem (by decide), rfl, nofun⟩
  oneHistory t ht _ _ _ _ h _ := absurd h (kind_ne_history_of_errand t ht)
  noInitial h := absurd rfl h
  noTransitions _ := rfl
  noActions _ := ⟨rfl, rfl⟩
  shallow _ := .inl rfl
  noDepth _ := rfl
  noCompletion _ := rfl
  transitions := .inl rfl
  completion := .inl rfl
  entry := performable_null
  exit := performable_null
  tags := .inl rfl

theorem wellFormed_errandState_one : errandScope.WellFormed (errandState 1) where
  validKeys := by decide
  known := by decide
  children := .inr ⟨_, rfl, by simp⟩
  typed := .inl rfl
  initial _ := ⟨rfl, errandState 2, errandState_mem (by decide), rfl, nofun⟩
  oneHistory t ht _ _ _ _ h _ := absurd h (kind_ne_history_of_errand t ht)
  noInitial h := absurd rfl h
  noTransitions h := nomatch h
  noActions := nofun
  shallow _ := .inl rfl
  noDepth _ := rfl
  noCompletion h := absurd rfl h
  transitions := by
    refine .inr ⟨_, rfl, List.forall_mem_singleton.mpr ⟨?_, ?_⟩⟩
    · rintro events ⟨⟩
      exact List.mem_singleton.mpr rfl
    · exact ⟨.str "d", .arr [.str "bump"], .object (by decide),
        ⟨["bump"], .many ["bump"], by simpa using registered_bump⟩,
        .inr ⟨"d", errandState 3, rfl, errandState_mem (by decide), by decide,
          .beside (by decide) (by decide) (by decide)⟩⟩
  completion := .inr ⟨"#m.d", .null, errandState 3, .reference _, performable_null,
    ⟨errandState_mem (by decide), by decide, .fromRoot "d"⟩, by decide⟩
  entry := performable_null
  exit := performable_null
  tags := .inr ⟨_, .one "busy"⟩

theorem wellFormed_errandState_two : errandScope.WellFormed (errandState 2) where
  validKeys := by decide
  known := by decide
  children := .inl rfl
  typed := .inr ⟨rfl, by decide⟩
  initial := nofun
  oneHistory t ht _ _ _ _ h _ := absurd h (kind_ne_history_of_errand t ht)
  noInitial _ := rfl
  noTransitions _ := rfl
  noActions _ := ⟨rfl, rfl⟩
  shallow _ := .inl rfl
  noDepth _ := rfl
  noCompletion _ := rfl
  transitions := .inl rfl
  completion := .inl rfl
  entry := performable_null
  exit := performable_null
  tags := .inl rfl

theorem wellFormed_errandState_three : errandScope.WellFormed (errandState 3) where
  validKeys := by decide
  known := by decide
  children := .inl rfl
  typed := .inl rfl
  initial := nofun
  oneHistory t ht _ _ _ _ h _ := absurd h (kind_ne_history_of_errand t ht)
  noInitial _ := rfl
  noTransitions _ := rfl
  noActions := nofun
  shallow _ := .inl rfl
  noDepth _ := rfl
  noCompletion _ := rfl
  transitions := .inl rfl
  completion := .inl rfl
  entry := ⟨_, .one "bump", by simpa using registered_bump⟩
  exit := performable_null
  tags := .inl rfl

theorem wellFormed_errand :
    WellFormed errandScope.registry errandScope.events errandScope.context errandFields where
  unrepeated := by decide
  context_eq := rfl
  states := rfl
  root := rfl
  wellFormed s hs := by
    change s ∈ errandScope.states at hs
    rw [states_errand] at hs
    simp only [List.mem_cons, List.not_mem_nil, or_false] at hs
    rcases hs with rfl | rfl | rfl | rfl
    · exact wellFormed_errandState_zero
    · exact wellFormed_errandState_one
    · exact wellFormed_errandState_two
    · exact wellFormed_errandState_three

end WellFormed

end Chart

end Lifecycle
