import Lifecycle.Proofs.Chart.WellFormed

/-!
# Charts of well-formed declarations

The drafts of a declaration stand for its states (`Laid`): a child stands at the end of the path to
its parent, and what lies within a state begins with the path to it. So the second reading finds all
that well-formed states name, and their declaration describes a chart.
-/

namespace Lifecycle

open Outline (field absent Stands IsChild)

/-- The drafts of a table stand for the states of a declaration. -/
structure Laid (scope : Scope) (drafts : List Draft) : Prop where
  numbered : Outline.Numbered scope.machine drafts
  stands : List.Forall₂ Stands scope.states drafts

/-- What the drafts of states are finished against. -/
def Scope.plan (scope : Scope) (drafts : List Draft) : Blueprint :=
  ⟨scope.machine, drafts.toArray, scope.registry, scope.events, scope.context⟩

theorem DeclaredState.kind_eq_of_kindOf {s : DeclaredState} {kind : Kind}
    (h : Outline.kindOf s.fields = .ok kind) : s.kind = kind := by
  unfold Outline.kindOf at h
  split at h
  · rename_i habsent
    rw [DeclaredState.kind, Outline.field_eq_null habsent]
    exact Except.ok.inj h
  · split at h
    · cases h
    · rename_i hword
      split at h
      · cases h
      · rw [DeclaredState.kind, hword]
        exact Except.ok.inj h

namespace Laid

variable {scope : Scope} {drafts : List Draft} {s t : DeclaredState} {d e : Draft} {i j : Nat}
  (laid : Laid scope drafts)

include laid

/-! ## Drafts and states -/

theorem exists_state (hd : drafts[i]? = some d) :
    ∃ s, scope.states[i]? = some s ∧ Stands s d :=
  exists_left_of_forall₂ laid.stands hd

theorem exists_draft (hs : s ∈ scope.states) :
    ∃ (i : Nat) (d : Draft), drafts[i]? = some d ∧ Stands s d := by
  obtain ⟨i, hi⟩ := List.mem_iff_getElem?.mp hs
  exact ⟨i, exists_right_of_forall₂ laid.stands hi⟩

theorem kind_eq (hd : drafts[i]? = some d) (hs : Stands s d) : d.kind = s.kind := by
  obtain ⟨⟨root, hcheck⟩, -⟩ := laid.numbered.node hd
  refine (DeclaredState.kind_eq_of_kindOf ?_).symm
  rw [← hs.fields_eq]
  exact Outline.kindOf_of_check hcheck

/-- A child stands at the end of the path to its parent. -/
theorem path_of_isChild (he : drafts[j]? = some e) (hs : Stands s d) (ht : Stands t e)
    (hchild : IsChild d e) : t.path = s.path ++ [e.key] := by
  refine Text.dotted_inj ht.dotFree (List.forall_mem_append.mpr ⟨hs.dotFree, ?_⟩) ht.path_ne
    (by simp) ?_
  · exact List.forall_mem_singleton.mpr (laid.numbered.dot_notMem_key he)
  · rw [← ht.id_eq, hchild.id_eq, hs.id_eq, Text.dotted_concat _ hs.path_ne]

theorem path_root {top : Draft} (htop : drafts[0]? = some top) (hs : Stands s top) :
    s.path = [scope.machine] := by
  obtain ⟨root, hroot, -, -, -, hid, -⟩ := laid.numbered.top
  obtain rfl := Option.some.inj (htop.symm.trans hroot)
  refine Text.dotted_inj hs.dotFree ?_ hs.path_ne (List.cons_ne_nil _ _) ?_
  · exact List.forall_mem_singleton.mpr laid.numbered.dot_notMem_machine
  · rw [← hs.id_eq, hid]
    rfl

/-- Different drafts stand at the ends of different paths. -/
theorem eq_of_path_eq (hd : drafts[i]? = some d) (he : drafts[j]? = some e) (hs : Stands s d)
    (ht : Stands t e) (h : s.path = t.path) : i = j := by
  refine laid.numbered.id_inj hd he ?_
  rw [hs.id_eq, ht.id_eq, h]

/-- The state beside which a state is stands at its outer path. -/
theorem exists_outer (hd : drafts[i]? = some d) (hs : Stands s d) :
    ∃ o, drafts[d.parent.getD d.index]? = some o ∧ o.id = Text.dotted s.outerPath := by
  by_cases hi : i = 0
  · subst hi
    obtain ⟨top, htop, -, hparent, -⟩ := laid.numbered.top
    obtain rfl := Option.some.inj (htop.symm.trans hd)
    refine ⟨top, by rw [hparent, Option.getD_none, laid.numbered.index_eq hd, hd], ?_⟩
    rw [hs.id_eq, DeclaredState.outerPath, if_pos (by rw [laid.path_root hd hs]; rfl)]
  · obtain ⟨p, o, -, ho, hchild⟩ := laid.numbered.parent hd hi
    obtain ⟨r, -, hr⟩ := laid.exists_state ho
    have hpath := laid.path_of_isChild hd hr hs hchild
    refine ⟨o, ?_, ?_⟩
    · rw [hchild.parent_eq, Option.getD_some, laid.numbered.index_eq ho, ho]
    · have hlength : s.path.length ≠ 1 := by
        have := List.length_pos_iff.mpr hr.path_ne
        rw [hpath, List.length_append, List.length_singleton]
        omega
      rw [DeclaredState.outerPath, if_neg hlength, hpath, List.dropLast_concat, hr.id_eq]

/-- What lies within a state begins with the path to it. -/
theorem prefix_of_within (hd : drafts[i]? = some d) (he : drafts[j]? = some e) (hs : Stands s d)
    (ht : Stands t e) (h : (scope.plan drafts).within j i = true) : s.path <+: t.path := by
  induction j using Nat.strongRecOn generalizing e t with
  | _ j ih =>
    rw [Blueprint.within] at h
    split at h
    · rename_i heq
      subst heq
      obtain rfl := Option.some.inj (he.symm.trans hd)
      have hpath := Text.dotted_inj ht.dotFree hs.dotFree ht.path_ne hs.path_ne
        (ht.id_eq.symm.trans hs.id_eq)
      exact hpath ▸ List.prefix_rfl
    · split at h
      · rename_i p hp
        split at h
        · rename_i hlt
          have hj : j ≠ 0 := by omega
          obtain ⟨q, f, -, hf, hchild⟩ := laid.numbered.parent he hj
          obtain rfl : q = p := by
            rw [Scope.plan, List.getElem?_toArray, he, Option.bind_some, hchild.parent_eq,
              laid.numbered.index_eq hf] at hp
            exact Option.some.inj hp
          obtain ⟨r, -, hr⟩ := laid.exists_state hf
          rw [laid.path_of_isChild he hr ht hchild]
          exact (ih q hlt hf hr h).trans (List.prefix_append _ _)
        · cases h
      · cases h

/-! ## What well-formed states name -/

/-- A reference to a state is resolved to its draft. -/
theorem target_eq_of_points (hd : drafts[i]? = some d) (hs : Stands s d) {text : String}
    (h : scope.Points s text t) : ∃ (j : Nat) (e : Draft), drafts[j]? = some e ∧ Stands t e ∧
      (scope.plan drafts).target d (.str text) = .ok (some j) := by
  obtain ⟨hmem, hroot, hdenotes⟩ := h
  obtain ⟨j, e, he, ht⟩ := laid.exists_draft hmem
  obtain ⟨o, ho, hoId⟩ := laid.exists_outer hd hs
  refine ⟨j, e, he, ht, ?_⟩
  have hj : j ≠ 0 := by
    rintro rfl
    exact hroot (laid.path_root he ht)
  rw [Blueprint.target_str hdenotes.text_ne]
  refine map_eq_ok.mpr ⟨j, ?_, rfl⟩
  refine (laid.numbered.resolve_eq_ok_iff hd ho hdenotes.text_ne).mpr ⟨hj, e, he, ?_⟩
  rw [hs.id_eq, hoId, ht.id_eq]
  exact hdenotes

/-- The child of a state at the end of its path and a key. -/
theorem childAt?_of_path (hd : drafts[i]? = some d) (hs : Stands s d) (ht : t ∈ scope.states)
    {key : String} (hpath : t.path = s.path ++ [key]) : ∃ (j : Nat) (e : Draft),
      drafts[j]? = some e ∧ Stands t e ∧
        Reference.childAt? drafts.toArray i key = some j := by
  obtain ⟨j, e, he, hte⟩ := laid.exists_draft ht
  have hfree : '.' ∉ key.toList := hte.dotFree key (by rw [hpath]; simp)
  have hwalk : Reference.walk? drafts.toArray i [key] = some j := by
    refine (laid.numbered.walk?_eq_some_iff hd (List.forall_mem_singleton.mpr hfree)).mpr
      ⟨e, he, ?_⟩
    rw [hte.id_eq, hpath, Text.dotted_concat _ hs.path_ne, hs.id_eq]
    rfl
  refine ⟨j, e, he, hte, ?_⟩
  rw [Reference.walk?] at hwalk
  split at hwalk
  · rename_i c hc
    rw [hc]
    exact hwalk
  · cases hwalk

theorem kindAt?_eq (hd : drafts[i]? = some d) (hs : Stands s d) :
    (scope.plan drafts).kindAt? i = some s.kind := by
  rw [Blueprint.kindAt?, Scope.plan, List.getElem?_toArray, hd, Option.map_some,
    laid.kind_eq hd hs]

/-- A well-formed state has one history child, or none. -/
theorem exists_histories_eq (hd : drafts[i]? = some d) (hs : Stands s d) (h : scope.WellFormed s) :
    ∃ history : Option Nat, d.children.filter
      (fun c => (scope.plan drafts).kindAt? c = some .history) = history.toList := by
  have hnodup : d.children.Nodup :=
    (laid.numbered.node hd).2.2.1.imp fun hlt => Nat.ne_of_lt hlt
  have hchild {c : Nat} (hc : c ∈ d.children.filter
      fun c => (scope.plan drafts).kindAt? c = some .history) :
      ∃ e t, drafts[c]? = some e ∧ Stands t e ∧ t ∈ scope.states ∧ t.IsChildOf s ∧
        t.kind = .history := by
    obtain ⟨hc, hkind⟩ := List.mem_filter.mp hc
    obtain ⟨e, he, hchild⟩ := laid.numbered.child hd hc
    obtain ⟨t, ht, hte⟩ := laid.exists_state he
    rw [laid.kindAt?_eq he hte] at hkind
    exact ⟨e, t, he, hte, List.mem_of_getElem? ht, ⟨e.key, laid.path_of_isChild he hs hte hchild⟩,
      by simpa using hkind⟩
  rcases hfilter : d.children.filter
    (fun c => (scope.plan drafts).kindAt? c = some .history) with _ | ⟨a, _ | ⟨b, rest⟩⟩
  · exact ⟨none, rfl⟩
  · exact ⟨some a, rfl⟩
  · have hdistinct := hnodup.filter fun c => (scope.plan drafts).kindAt? c = some .history
    rw [hfilter] at hchild hdistinct
    obtain ⟨e, t, he, hte, ht, htchild, hthistory⟩ := hchild List.mem_cons_self
    obtain ⟨e', t', he', hte', ht', htchild', hthistory'⟩ :=
      hchild (List.mem_cons_of_mem _ List.mem_cons_self)
    have hsame := h.oneHistory t ht t' ht' htchild htchild' hthistory hthistory'
    obtain rfl := laid.eq_of_path_eq he he' hte hte' hsame
    exact absurd List.mem_cons_self (List.nodup_cons.mp hdistinct).1

end Laid

/-! ## The second reading -/

theorem Lists.listed_eq {declared : Json} {names : List String} (h : Lists declared names) :
    Blueprint.listed declared = .ok (names.map .str) := by
  cases h <;> rfl

theorem Parts.transition_eq {declared reference names : Json} (h : Parts declared reference names)
    (plan : Blueprint) (draft : Draft) (event : String) :
    plan.transition draft event declared = plan.transitionTo draft event reference names := by
  cases h with
  | none => rfl
  | reference text => rfl
  | @object fields hknown =>
    have hnone : Blueprint.unknownFields fields = [] := by
      rw [Blueprint.unknownFields, Blueprint.sortedDistinct_eq_nil_iff, List.filter_eq_nil_iff]
      intro name hname
      simpa using hknown name hname
    rw [Blueprint.transition, hnone]
    rfl

namespace Scope

variable {scope : Scope} {drafts : List Draft} {s : DeclaredState} {d : Draft} {i : Nat}

theorem Registered.exists_action {name : String} (h : scope.Registered name) :
    ∃ a, (scope.plan drafts).action (.str name) = .ok a := by
  obtain ⟨effect, hget, hinside⟩ := h
  have hnone : (scope.plan drafts).outside effect = [] := by
    cases effect with
    | assign updates => exact Blueprint.outside_assign_eq_nil_iff.mpr (hinside updates rfl)
    | keep => rfl
    | custom run => rfl
  refine ⟨⟨name, effect⟩, ?_⟩
  have hget' : Entries.get? (scope.plan drafts).registry name = some effect := hget
  rw [Blueprint.action, hget']
  simp only [hnone, List.isEmpty_nil, if_true]

theorem Performable.exists_actions {declared : Json} (h : scope.Performable declared)
    (drafts : List Draft) :
    ∃ actions, (scope.plan drafts).actions declared = .ok actions := by
  obtain ⟨names, hlists, hall⟩ := h
  obtain ⟨actions, hactions⟩ : ∃ actions, (names.map Json.str).mapM (scope.plan drafts).action =
      .ok actions := by
    refine exists_mapM fun name hname => ?_
    obtain ⟨text, htext, rfl⟩ := List.mem_map.mp hname
    exact (hall text htext).exists_action
  exact ⟨actions, bind_eq_ok.mpr ⟨_, hlists.listed_eq, hactions⟩⟩

end Scope

namespace Laid

variable {scope : Scope} {drafts : List Draft} {s t : DeclaredState} {d : Draft} {i : Nat}
  (laid : Laid scope drafts) (hd : drafts[i]? = some d) (hs : Stands s d)

include laid hd hs

/-- A transition to a target that there is, or to none, is accepted. -/
theorem exists_transition {declared : Json} (h : scope.Moves s declared) (event : String) :
    ∃ t, (scope.plan drafts).transition d event declared = .ok t := by
  obtain ⟨reference, names, hparts, hnames, hreference⟩ := h
  obtain ⟨actions, hactions⟩ := hnames.exists_actions drafts
  obtain ⟨goal, hgoal⟩ : ∃ goal, (scope.plan drafts).target d reference = .ok goal := by
    rcases hreference with rfl | ⟨text, t, rfl, hpoints⟩
    · exact ⟨none, rfl⟩
    · obtain ⟨j, e, -, -, htarget⟩ := laid.target_eq_of_points hd hs hpoints
      exact ⟨some j, htarget⟩
  rw [hparts.transition_eq]
  exact ⟨_, bind_eq_ok.mpr ⟨goal, hgoal, bind_eq_ok.mpr ⟨actions, hactions, rfl⟩⟩⟩

theorem exists_handler {member : String × Json}
    (hevent : ∀ events, scope.events = some events → member.1 ∈ events)
    (h : scope.Moves s member.2) : ∃ t, (scope.plan drafts).handler d member = .ok t := by
  obtain ⟨t, ht⟩ := laid.exists_transition hd hs h member.1
  have hknown : ((scope.plan drafts).events.any fun events => !events.contains member.1) =
      false := by
    show (scope.events.any fun events => !events.contains member.1) = false
    rcases hevents : scope.events with _ | events
    · rfl
    · simpa using hevent events hevents
  refine ⟨t, ?_⟩
  rw [Blueprint.handler, hknown]
  exact ht

/-- A completion that leads out of the state is accepted. -/
theorem exists_onDone (h : absent s.fields "on_done" = true ∨
    scope.Leaves s (field s.fields "on_done")) :
    ∃ done, (scope.plan drafts).onDone d = .ok done := by
  rw [Blueprint.onDone, hs.fields_eq]
  rcases h with habsent | ⟨text, names, t, hparts, hnames, hpoints, houtside⟩
  · exact ⟨none, by rw [if_pos habsent]⟩
  · split
    · exact ⟨none, rfl⟩
    · obtain ⟨actions, hactions⟩ := hnames.exists_actions drafts
      obtain ⟨j, e, he, hte, htarget⟩ := laid.target_eq_of_points hd hs hpoints
      have hwithin : (scope.plan drafts).within j d.index = false := by
        rw [laid.numbered.index_eq hd, Bool.eq_false_iff]
        exact fun hwithin => houtside (laid.prefix_of_within hd he hs hte hwithin)
      obtain ⟨done, hdone, hgoal⟩ : ∃ done, (scope.plan drafts).transition d
          ("done.state." ++ d.id) (field s.fields "on_done") = .ok done ∧
            done.target = some j := by
        rw [hparts.transition_eq]
        exact ⟨_, bind_eq_ok.mpr ⟨_, htarget, bind_eq_ok.mpr ⟨actions, hactions, rfl⟩⟩, rfl⟩
      refine ⟨some done, bind_eq_ok.mpr ⟨done, hdone, ?_⟩⟩
      simp only [hgoal, hwithin]
      rfl

/-- The initial child and the history are found. -/
theorem exists_defaults (h : scope.WellFormed s) :
    ∃ defaults, (scope.plan drafts).defaults d = .ok defaults := by
  unfold Blueprint.defaults
  rw [laid.kind_eq hd hs, hs.fields_eq]
  by_cases hkind : s.kind = .compound
  · obtain ⟨hpresent, t, ht, hpath, hstate⟩ := h.initial hkind
    obtain ⟨j, e, he, hte, hchild⟩ := laid.childAt?_of_path hd hs ht hpath
    obtain ⟨history, hhistory⟩ := laid.exists_histories_eq hd hs h
    have hinitial : (scope.plan drafts).initial d = .ok j := by
      rw [Blueprint.initial, hs.fields_eq]
      split
      · rename_i hnull
        rw [absent, hnull] at hpresent
        cases hpresent
      · have hfound : Reference.childAt? (scope.plan drafts).table d.index
            (field s.fields "initial").display = some j := by
          rw [laid.numbered.index_eq hd]
          exact hchild
        rw [hfound]
        simp only [laid.kindAt?_eq he hte, Option.some.injEq, hstate, if_false]
    rw [if_pos hkind, hinitial, hhistory]
    cases history <;> exact ⟨_, rfl⟩
  · rw [if_neg hkind, if_pos (h.noInitial hkind)]
    exact ⟨_, rfl⟩

end Laid

/-- Tags that a value lists are accepted. -/
theorem Blueprint.exists_tagsOf {declared : Json}
    (h : declared.truthy = false ∨ ∃ names, Lists declared names) :
    ∃ tags, Blueprint.tagsOf declared = .ok tags := by
  unfold Blueprint.tagsOf
  split
  · rename_i htruthy
    obtain ⟨names, hnames⟩ := h.resolve_left (by simp [htruthy])
    obtain ⟨tags, htags⟩ : ∃ tags, (names.map Json.str).mapM Blueprint.tagText = .ok tags := by
      refine exists_mapM fun name hname => ?_
      obtain ⟨text, -, rfl⟩ := List.mem_map.mp hname
      exact ⟨text, rfl⟩
    exact ⟨_, bind_eq_ok.mpr ⟨_, hnames.listed_eq, bind_eq_ok.mpr ⟨tags, htags, rfl⟩⟩⟩
  · exact ⟨[], rfl⟩

namespace Laid

variable {scope : Scope} {drafts : List Draft} {s : DeclaredState} {d : Draft} {i : Nat}
  (laid : Laid scope drafts)

include laid

/-- The draft of a well-formed state is finished. -/
theorem exists_finish (hd : drafts[i]? = some d) (hs : Stands s d) (h : scope.WellFormed s) :
    ∃ node, (scope.plan drafts).finish d = .ok node := by
  obtain ⟨⟨initial, history⟩, hdefaults⟩ := laid.exists_defaults hd hs h
  obtain ⟨members, hmembers, transitions, htransitions⟩ : ∃ members,
      Blueprint.membersOf (field s.fields "on") = .ok members ∧ ∃ transitions,
        members.mapM ((scope.plan drafts).handler d) = .ok transitions := by
    rcases h.transitions with habsent | ⟨members, hmembers, hall⟩
    · refine ⟨[], ?_, [], rfl⟩
      unfold Blueprint.membersOf
      split
      · rename_i members heq
        rw [heq] at habsent
        cases members with
        | nil => rfl
        | cons => cases habsent
      · rw [if_neg (by simp [habsent])]
    · rw [hmembers]
      exact ⟨members, rfl, exists_mapM fun member hmember =>
        laid.exists_handler hd hs (hall member hmember).1 (hall member hmember).2⟩
  obtain ⟨done, hdone⟩ := laid.exists_onDone hd hs h.completion
  obtain ⟨entry, hentry⟩ := h.entry.exists_actions drafts
  obtain ⟨exit, hexit⟩ := h.exit.exists_actions drafts
  obtain ⟨tags, htags⟩ := Blueprint.exists_tagsOf h.tags
  rw [← hs.fields_eq] at hmembers hentry hexit htags
  exact ⟨_, bind_eq_ok.mpr ⟨_, hdefaults, bind_eq_ok.mpr ⟨_, hmembers, bind_eq_ok.mpr
    ⟨_, htransitions, bind_eq_ok.mpr ⟨_, hdone, bind_eq_ok.mpr ⟨_, hentry, bind_eq_ok.mpr
      ⟨_, hexit, bind_eq_ok.mpr ⟨_, htags, rfl⟩⟩⟩⟩⟩⟩⟩⟩

end Laid

end Lifecycle
