import Lifecycle.Proofs.Chart.Arena
import Lifecycle.Proofs.Chart.Finishing
import Lifecycle.Proofs.Chart.Numbering

/-!
# Built charts

A declaration is a nested mapping, and the chart that it describes is built (`Chart.Built`). The
table of a built chart is the numbering of its outline with each draft finished (`Tabled`), and
therefore an arena (`Built.arena`).
-/

namespace Lifecycle.Chart

/-- Some declaration, in which no key repeats, describes the chart. -/
def Built (chart : Chart) : Prop :=
  ∃ registry events declaration, declaration.unrepeated = true ∧
    define registry events declaration = .ok chart

/-- The chart that a declaration describes; without nodes if it describes none. -/
def ofDeclaration (registry : Registry) (declaration : Json) : Chart :=
  match define registry none declaration with
  | .ok chart => chart
  | .error _ => ⟨"", #[], [], none⟩

theorem define_ofDeclaration {registry : Registry} {declaration : Json}
    (h : (define registry none declaration).toOption.isSome = true) :
    define registry none declaration = .ok (ofDeclaration registry declaration) := by
  obtain ⟨chart, hchart⟩ := exists_ok_of_isSome h
  rw [ofDeclaration, hchart]

theorem built_ofDeclaration {registry : Registry} {declaration : Json}
    (hu : declaration.unrepeated = true)
    (h : (define registry none declaration).toOption.isSome = true) :
    (ofDeclaration registry declaration).Built :=
  ⟨registry, none, declaration, hu, define_ofDeclaration h⟩

/-- The nodes of a chart are the drafts of a numbered table, finished one by one. -/
structure Tabled (plan : Blueprint) (drafts : List Draft) (chart : Chart) : Prop where
  numbered : Outline.Numbered chart.id drafts
  table_eq : plan.table = drafts.toArray
  finished : List.Forall₂ (Blueprint.Finished plan) drafts chart.nodes.toList

/-- What the nodes of a chart were finished against, given the outline of its declaration. -/
def planOf (registry : Registry) (outline : Outline) (chart : Chart) : Blueprint :=
  ⟨chart.id, (Outline.drafts none 0 0 chart.id outline).toArray, registry, chart.events,
    chart.context⟩

/-- The fields of a declaration and their outline describe the chart. -/
structure Described (registry : Registry) (events : Option (List String)) (fields : Entries Json)
    (outline : Outline) (chart : Chart) : Prop where
  id_eq : chart.id = machineId fields
  events_eq : chart.events = events
  context_eq : contextOf (Outline.field fields "context") = .ok chart.context
  states : (Outline.field fields "states").truthy = true
  read_eq : Outline.read true chart.id chart.id (.obj fields) = .ok outline
  finish_eq : (planOf registry outline chart).finishAll
    (Outline.drafts none 0 0 chart.id outline) = .ok chart.nodes.toList

theorem define_eq_ok_iff {registry : Registry} {events : Option (List String)}
    {declaration : Json} {chart : Chart} : define registry events declaration = .ok chart ↔
      ∃ fields outline, declaration = .obj fields ∧
        Described registry events fields outline chart := by
  constructor
  · intro h
    unfold define at h
    split at h
    · rename_i fields
      split at h
      · cases h
      · rename_i context hcontext
        split at h
        · rename_i hstates
          obtain ⟨outline, houtline, h⟩ := bind_eq_ok.mp h
          obtain ⟨nodes, hnodes, h⟩ := bind_eq_ok.mp h
          cases h
          exact ⟨fields, outline, rfl, rfl, rfl, hcontext, hstates, houtline, hnodes⟩
        · cases h
    · cases h
  · rintro ⟨fields, outline, rfl, h⟩
    obtain ⟨id, nodes, context, _⟩ := chart
    obtain ⟨rfl, rfl, hcontext, hstates, houtline, hnodes⟩ := h
    simp only [define, hcontext, hstates, if_true]
    exact bind_eq_ok.mpr ⟨outline, houtline, bind_eq_ok.mpr ⟨nodes.toList, hnodes, rfl⟩⟩

/-- A described chart is the numbering of an outline of the declaration, finished. -/
theorem exists_outline_of_define {registry : Registry} {events : Option (List String)}
    {declaration : Json} {chart : Chart} (h : define registry events declaration = .ok chart) :
    ∃ plan outline, Outline.read true chart.id chart.id declaration = .ok outline ∧
      plan.table = (Outline.drafts none 0 0 chart.id outline).toArray ∧
      List.Forall₂ (Blueprint.Finished plan) (Outline.drafts none 0 0 chart.id outline)
        chart.nodes.toList := by
  obtain ⟨fields, outline, rfl, described⟩ := define_eq_ok_iff.mp h
  exact ⟨planOf registry outline chart, outline, described.read_eq, rfl,
    Blueprint.forall₂_of_finishAll described.finish_eq⟩

theorem Described.tabled {registry : Registry} {events : Option (List String)}
    {fields : Entries Json} {outline : Outline} {chart : Chart}
    (described : Described registry events fields outline chart)
    (hu : (Json.obj fields).unrepeated = true) :
    Tabled (planOf registry outline chart) (Outline.drafts none 0 0 chart.id outline) chart :=
  ⟨Outline.numbered_of_read hu described.read_eq, rfl,
    Blueprint.forall₂_of_finishAll described.finish_eq⟩

/-- Each node of a described chart is finished from the draft at its place. -/
theorem Described.exists_draft {registry : Registry} {events : Option (List String)}
    {fields : Entries Json} {outline : Outline} {chart : Chart}
    (described : Described registry events fields outline chart) {i : Nat} {n : Node}
    (hn : chart.node? i = some n) :
    ∃ d, (Outline.drafts none 0 0 chart.id outline)[i]? = some d ∧
      (planOf registry outline chart).finish d = .ok n :=
  exists_left_of_forall₂ (Blueprint.finishAll_eq_ok_iff.mp described.finish_eq)
    ((Array.getElem?_toList ..).trans hn)

theorem Built.tabled {chart : Chart} (h : chart.Built) :
    ∃ plan drafts, Tabled plan drafts chart := by
  obtain ⟨registry, events, declaration, hu, h⟩ := h
  obtain ⟨fields, outline, rfl, described⟩ := define_eq_ok_iff.mp h
  exact ⟨_, _, described.tabled hu⟩

namespace Tabled

variable {plan : Blueprint} {drafts : List Draft} {chart : Chart} {i p c : Nat}
  (tabled : Tabled plan drafts chart)

include tabled

theorem exists_draft {n : Node} (h : chart.node? i = some n) :
    ∃ d, drafts[i]? = some d ∧ Blueprint.Finished plan d n :=
  exists_left_of_forall₂ tabled.finished ((Array.getElem?_toList ..).trans h)

theorem exists_node {d : Draft} (h : drafts[i]? = some d) :
    ∃ n, chart.node? i = some n ∧ Blueprint.Finished plan d n := by
  obtain ⟨n, hn, hfin⟩ := exists_right_of_forall₂ tabled.finished h
  exact ⟨n, (Array.getElem?_toList ..).symm.trans hn, hfin⟩

theorem kindAt?_eq_plan (i : Nat) : chart.kindAt? i = plan.kindAt? i := by
  rw [Blueprint.kindAt?, tabled.table_eq, List.getElem?_toArray]
  rcases hn : chart.node? i with _ | n
  · rcases hd : drafts[i]? with _ | d
    · rw [kindAt?, hn]; rfl
    · obtain ⟨n, hn', -⟩ := tabled.exists_node hd
      rw [hn] at hn'; cases hn'
  · obtain ⟨d, hd, hfin⟩ := tabled.exists_draft hn
    rw [kindAt?_eq hn, hd, hfin.kind_eq]; rfl

/-- The drafts of a child and its parent. -/
theorem exists_isChild (h : chart.parent? c = some p) :
    ∃ d e n, drafts[p]? = some d ∧ drafts[c]? = some e ∧ chart.node? c = some n ∧
      Blueprint.Finished plan e n ∧ Outline.IsChild d e := by
  obtain ⟨n, hn, hparent⟩ := exists_node_of_parent? h
  obtain ⟨e, he, hfin⟩ := tabled.exists_draft hn
  have hc : c ≠ 0 := by
    rintro rfl
    obtain ⟨top, htop, -, hnone, -⟩ := tabled.numbered.top
    obtain rfl : top = e := Option.some.inj (htop.symm.trans he)
    rw [hfin.parent_eq, hnone] at hparent
    cases hparent
  obtain ⟨q, d, -, hd, hchild⟩ := tabled.numbered.parent he hc
  have hq : q = p := by
    have := hfin.parent_eq.symm.trans hparent
    rw [hchild.parent_eq, tabled.numbered.index_eq hd] at this
    exact Option.some.inj this
  exact ⟨d, e, n, hq ▸ hd, he, hn, hfin, hchild⟩

theorem parent?_of_isChild {d e : Draft} (hd : drafts[p]? = some d) (he : drafts[c]? = some e)
    (h : Outline.IsChild d e) : chart.parent? c = some p := by
  obtain ⟨n, hn, hfin⟩ := tabled.exists_node he
  rw [parent?_eq hn, hfin.parent_eq, h.parent_eq, tabled.numbered.index_eq hd]

theorem mem_children_iff {d : Draft} (hd : drafts[p]? = some d) :
    c ∈ d.children ↔ chart.parent? c = some p := by
  constructor
  · intro h
    obtain ⟨e, he, hchild⟩ := tabled.numbered.child hd h
    exact tabled.parent?_of_isChild hd he hchild
  · intro h
    obtain ⟨d', e, -, hd', he, -, -, hchild⟩ := tabled.exists_isChild h
    obtain rfl : d = d' := Option.some.inj (hd.symm.trans hd')
    rw [← tabled.numbered.index_eq he]
    exact (List.of_mem_zip hchild.place).1

/-- A way up in the table is one in the chart. -/
theorem within_iff {a : Nat} : plan.within i a = true ↔ a ∈ chart.ancestors i := by
  induction i using Nat.strongRecOn with
  | _ i ih =>
    rw [Blueprint.within, ancestors_eq]
    have hparent : plan.table[i]?.bind Draft.parent = chart.parent? i := by
      rw [tabled.table_eq, List.getElem?_toArray]
      rcases hn : chart.node? i with _ | n
      · rcases hd : drafts[i]? with _ | d
        · rw [parent?, hn]; rfl
        · obtain ⟨n, hn', -⟩ := tabled.exists_node hd
          rw [hn] at hn'; cases hn'
      · obtain ⟨d, hd, hfin⟩ := tabled.exists_draft hn
        rw [parent?_eq hn, hd, hfin.parent_eq]; rfl
    rw [hparent]
    by_cases hia : i = a
    · simp [hia]
    · rw [if_neg hia, List.mem_cons, or_iff_right (Ne.symm hia)]
      rcases chart.parent? i with _ | p
      · simp
      · by_cases hlt : p < i
        · simp only [if_pos hlt, ih p hlt]
        · simp [hlt]

/-- What a reference on a node of the table means is a node below the root. -/
theorem isSome_parent?_of_resolve {d : Draft} {text : String} {target : Nat}
    (hd : drafts[i]? = some d)
    (h : Reference.resolve plan.machine plan.table d text = .ok target) :
    (chart.parent? target).isSome = true := by
  obtain ⟨hne, start, keys, hwalk, hstart⟩ := Reference.exists_walk?_of_resolve h
  have hsize : plan.table.size = drafts.length := by rw [tabled.table_eq, List.size_toArray]
  have hlt : ∀ {j : Nat} {e : Draft}, drafts[j]? = some e → j < plan.table.size := by
    intro j e he
    exact hsize ▸ (List.getElem?_eq_some_iff.mp he).1
  have htarget : target < plan.table.size := by
    refine Reference.lt_of_walk? ?_ ?_ hwalk
    · intro p c e he hc
      rw [tabled.table_eq, List.getElem?_toArray] at he
      obtain ⟨e', he', -⟩ := tabled.numbered.child he hc
      exact hlt he'
    · rcases hstart with rfl | rfl | rfl
      · obtain ⟨top, htop, -⟩ := tabled.numbered.top
        exact hlt htop
      · rw [tabled.numbered.index_eq hd]; exact hlt hd
      · rcases hp : d.parent with _ | p
        · rw [Option.getD_none, tabled.numbered.index_eq hd]; exact hlt hd
        · obtain ⟨n, hn, hfin⟩ := tabled.exists_node hd
          obtain ⟨d', -, -, hd', -⟩ :=
            tabled.exists_isChild ((parent?_eq hn).trans (hfin.parent_eq.trans hp))
          exact hlt hd'
  obtain ⟨e, he⟩ : ∃ e, drafts[target]? = some e :=
    ⟨_, List.getElem?_eq_getElem (hsize ▸ htarget)⟩
  obtain ⟨p, d', -, hd', hchild⟩ := tabled.numbered.parent he hne
  rw [tabled.parent?_of_isChild hd' he hchild]; rfl

/-! ## The table is an arena -/

theorem finished_root : ∃ n, chart.node? 0 = some n ∧ n.kind = .compound ∧ n.parent = none ∧
    n.depth = 0 ∧ n.id = n.key := by
  obtain ⟨d, hd, hkind, hparent, hdepth, hid, hkey⟩ := tabled.numbered.top
  obtain ⟨n, hn, hfin⟩ := tabled.exists_node hd
  exact ⟨n, hn, hfin.kind_eq.trans hkind, hfin.parent_eq.trans hparent,
    hfin.depth_eq.trans hdepth, by rw [hfin.id_eq, hfin.key_eq, hid, hkey]⟩

theorem finished_parent {n : Node} (h : chart.node? i = some n) (hi : i ≠ 0) :
    ∃ p m, p < i ∧ n.parent = some p ∧ chart.node? p = some m ∧ n.depth = m.depth + 1 ∧
      n.id = m.id ++ "." ++ n.key := by
  obtain ⟨e, he, hfin⟩ := tabled.exists_draft h
  obtain ⟨p, d, hlt, hd, hchild⟩ := tabled.numbered.parent he hi
  obtain ⟨m, hm, hfin'⟩ := tabled.exists_node hd
  refine ⟨p, m, hlt, ?_, hm, ?_, ?_⟩
  · rw [hfin.parent_eq, hchild.parent_eq, tabled.numbered.index_eq hd]
  · rw [hfin.depth_eq, hchild.depth_eq, hfin'.depth_eq]
  · rw [hfin.id_eq, hchild.id_eq, hfin'.id_eq, hfin.key_eq]

theorem finished_key_inj {d : Nat} (hc : chart.parent? c = some p) (hd : chart.parent? d = some p)
    (hkey : chart.keyAt c = chart.keyAt d) : c = d := by
  obtain ⟨a, e, n, ha, he, hn, hfin, hchild⟩ := tabled.exists_isChild hc
  obtain ⟨a', e', n', ha', he', hn', hfin', hchild'⟩ := tabled.exists_isChild hd
  obtain rfl : a = a' := Option.some.inj (ha.symm.trans ha')
  rw [keyAt_eq hn, keyAt_eq hn', hfin.key_eq, hfin'.key_eq] at hkey
  rw [← tabled.numbered.index_eq he, ← tabled.numbered.index_eq he']
  exact Outline.eq_of_mem_zip (tabled.numbered.node ha).2.1 hchild.place (hkey ▸ hchild'.place)

theorem finished_compound_iff {n : Node} (h : chart.node? i = some n) :
    n.kind = .compound ↔ n.children ≠ [] := by
  obtain ⟨d, hd, hfin⟩ := tabled.exists_draft h
  obtain ⟨⟨root, hcheck⟩, -, -, hstates⟩ := tabled.numbered.node hd
  rw [hfin.kind_eq, hfin.children_eq, ← hstates]
  exact Outline.compound_iff_of_kindOf (Outline.kindOf_of_check hcheck)

theorem defaults_cases {d : Draft} {n : Node} (hd : drafts[i]? = some d)
    (hfin : Blueprint.Finished plan d n) :
    (n.kind = .compound ∧
      (∃ c, n.initial = some c ∧ c ∈ d.children ∧ chart.isHistory c = false) ∧
      d.children.filter (fun c => chart.isHistory c) = n.history.toList) ∨
    (n.kind ≠ .compound ∧ n.initial = none ∧ n.history = none) := by
  have hplace : plan.table[d.index]? = some d := by
    rw [tabled.table_eq, List.getElem?_toArray, tabled.numbered.index_eq hd, hd]
  have hsame : (fun c => decide (plan.kindAt? c = some .history)) = fun c => chart.isHistory c := by
    funext c
    rw [← tabled.kindAt?_eq_plan]; rfl
  rw [hfin.kind_eq]
  rcases Blueprint.defaults_cases hplace hfin.defaults_eq with ⟨hkind, ⟨c, hc, hmem, hne⟩, hfilter⟩
    | hnone
  · refine .inl ⟨hkind, ⟨c, hc, hmem, ?_⟩, hsame ▸ hfilter⟩
    rw [← tabled.kindAt?_eq_plan] at hne
    exact decide_eq_false hne
  · exact .inr hnone

theorem finished_initial {n : Node} (h : chart.node? i = some n) (hkind : n.kind = .compound) :
    ∃ c, n.initial = some c ∧ chart.parent? c = some i ∧ chart.isHistory c = false := by
  obtain ⟨d, hd, hfin⟩ := tabled.exists_draft h
  rcases tabled.defaults_cases hd hfin with ⟨-, ⟨c, hc, hmem, hne⟩, -⟩ | ⟨hne, -⟩
  · exact ⟨c, hc, (tabled.mem_children_iff hd).mp hmem, hne⟩
  · exact absurd hkind hne

theorem finished_history_iff {n : Node} {k : Nat} (h : chart.node? i = some n) :
    n.history = some k ↔ chart.parent? k = some i ∧ chart.isHistory k = true := by
  obtain ⟨d, hd, hfin⟩ := tabled.exists_draft h
  rw [← tabled.mem_children_iff hd]
  rcases tabled.defaults_cases hd hfin with ⟨-, -, hfilter⟩ | ⟨hne, -, hnone⟩
  · rw [← Option.mem_toList, ← hfilter, List.mem_filter]
  · have hnil : d.children = [] := by
      have := (tabled.finished_compound_iff h).not.mp hne
      rw [hfin.children_eq] at this
      exact not_not.mp this
    simp [hnone, hnil]

theorem finished_transition {n : Node} {t : Transition} (h : chart.node? i = some n)
    (ht : t ∈ n.transitions) :
    t.source = i ∧ ∀ target, t.target = some target → (chart.parent? target).isSome = true := by
  obtain ⟨d, hd, hfin⟩ := tabled.exists_draft h
  obtain ⟨members, -, hmapM⟩ := hfin.transitions_eq
  obtain ⟨member, -, hhandler⟩ := exists_of_mem_mapM hmapM ht
  obtain ⟨hsource, htarget⟩ := Blueprint.exists_resolve_of_transition
    (Blueprint.exists_transition_of_handler hhandler)
  refine ⟨hsource.trans (tabled.numbered.index_eq hd), fun target heq => ?_⟩
  obtain ⟨text, hresolve⟩ := htarget target heq
  exact tabled.isSome_parent?_of_resolve hd hresolve

theorem finished_onDone {n : Node} {t : Transition} (h : chart.node? i = some n)
    (ht : n.onDone = some t) :
    t.source = i ∧ ∃ target, t.target = some target ∧ (chart.parent? target).isSome = true ∧
      i ∉ chart.ancestors target := by
  obtain ⟨d, hd, hfin⟩ := tabled.exists_draft h
  obtain ⟨event, declared, target, htransition, heq, hwithin⟩ :=
    Blueprint.exists_transition_of_onDone (hfin.onDone_eq.trans (congrArg _ ht))
  obtain ⟨hsource, htarget⟩ := Blueprint.exists_resolve_of_transition htransition
  obtain ⟨text, hresolve⟩ := htarget target heq
  refine ⟨hsource.trans (tabled.numbered.index_eq hd), target, heq,
    tabled.isSome_parent?_of_resolve hd hresolve, ?_⟩
  rw [← tabled.within_iff, ← tabled.numbered.index_eq hd, hwithin]
  exact Bool.false_ne_true

theorem arena : chart.Arena where
  index_eq h := by
    obtain ⟨d, hd, hfin⟩ := tabled.exists_draft h
    exact hfin.index_eq.trans (tabled.numbered.index_eq hd)
  root := tabled.finished_root
  parent := tabled.finished_parent
  validKey h := by
    obtain ⟨d, hd, hfin⟩ := tabled.exists_draft h
    obtain ⟨⟨root, hcheck⟩, -⟩ := tabled.numbered.node hd
    exact hfin.key_eq ▸ Outline.validKey_of_check hcheck
  mem_children h := by
    obtain ⟨d, hd, hfin⟩ := tabled.exists_draft h
    rw [hfin.children_eq]
    exact tabled.mem_children_iff hd
  sorted_children h := by
    obtain ⟨d, hd, hfin⟩ := tabled.exists_draft h
    exact hfin.children_eq ▸ (tabled.numbered.node hd).2.2.1
  key_inj := tabled.finished_key_inj
  compound_iff := tabled.finished_compound_iff
  initial := tabled.finished_initial
  history_iff := tabled.finished_history_iff
  transition := tabled.finished_transition
  onDone := tabled.finished_onDone

end Tabled

/-- The table of a built chart is an arena. -/
theorem Built.arena {chart : Chart} (h : chart.Built) : chart.Arena := by
  obtain ⟨plan, drafts, tabled⟩ := h.tabled
  exact tabled.arena

end Lifecycle.Chart
