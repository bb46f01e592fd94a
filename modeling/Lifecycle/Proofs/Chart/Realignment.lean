import Lifecycle.Proofs.Chart.Places
import Lifecycle.Proofs.Chart.Renaming
import Lifecycle.Proofs.Chart.Reordering
import Mathlib.Logic.Equiv.Basic

/-!
# Tables in another order

A declaration in another order is numbered in another order. The same states are declared, so a
permutation takes the drafts of one table to those of the other with the same ids, and because ids
are dotted paths it takes parents to parents and children to children (`exists_renames_planOf`).
The second reading of a draft looks for nodes by their keys only, so it finds the renamed ones, and
finishes the draft to the renamed node (`Blueprint.Renames.exists_finish`).
-/

namespace Lifecycle

theorem getElem?_of_forall₂ {α β : Type} {R : α → β → Prop} {xs : List α} {ys : List β}
    (h : List.Forall₂ R xs ys) {i : Nat} {x : α} (hx : xs[i]? = some x) :
    ∃ y, ys[i]? = some y ∧ R x y := by
  induction h generalizing i with
  | nil => cases hx
  | cons hxy _ ih =>
    rcases i with _ | i
    · obtain rfl := Option.some.inj hx
      exact ⟨_, rfl, hxy⟩
    · exact ih hx

theorem getElem?_none_of_forall₂ {α β : Type} {R : α → β → Prop} {xs : List α} {ys : List β}
    (h : List.Forall₂ R xs ys) {i : Nat} (hx : xs[i]? = none) : ys[i]? = none := by
  rw [List.getElem?_eq_none_iff] at hx ⊢
  rw [← h.length_eq]
  exact hx

/-- The permutation of indices that leaves the first one and acts on the others. -/
def raise (σ : Equiv.Perm Nat) : Equiv.Perm Nat where
  toFun
    | 0 => 0
    | i + 1 => σ i + 1
  invFun
    | 0 => 0
    | i + 1 => σ.symm i + 1
  left_inv i := by cases i <;> simp
  right_inv i := by cases i <;> simp

/-- A permutation of the indices takes one order of a list to the other. -/
theorem exists_equiv_of_perm {α : Type} {xs ys : List α} (h : xs.Perm ys) :
    ∃ σ : Equiv.Perm Nat, ∀ i, ys[σ i]? = xs[i]? := by
  induction h with
  | nil => exact ⟨Equiv.refl Nat, fun i => rfl⟩
  | cons x _ ih =>
    obtain ⟨σ, hσ⟩ := ih
    refine ⟨raise σ, fun i => ?_⟩
    rcases i with _ | i
    · rfl
    · exact hσ i
  | swap x y l =>
    refine ⟨Equiv.swap 0 1, fun i => ?_⟩
    rcases i with _ | _ | i
    · rfl
    · rfl
    · rw [Equiv.swap_apply_of_ne_of_ne (by omega) (by omega)]
      rfl
  | trans _ _ ih ih' =>
    obtain ⟨σ, hσ⟩ := ih
    obtain ⟨τ, hτ⟩ := ih'
    exact ⟨σ.trans τ, fun i => (hτ (σ i)).trans (hσ i)⟩

/-! ## Drafts of the same states -/

/-- Two drafts stand for the same state. -/
structure Draft.SameState (d d' : Draft) : Prop where
  id_eq : d'.id = d.id
  fields : Outline.ReorderedFields d.fields d'.fields

/-- One draft is the other with the drafts that it refers to renamed, and with its members in
another order. -/
structure Draft.Renamed (σ : Nat → Nat) (d d' : Draft) : Prop extends d.SameState d' where
  index_eq : d'.index = σ d.index
  key_eq : d'.key = d.key
  kind_eq : d'.kind = d.kind
  parent_eq : d'.parent = d.parent.map σ
  children : d'.children.Perm (d.children.map σ)

namespace Outline

/-- A permutation takes the drafts of a declaration to those of the declaration in another order. -/
theorem Reordered.exists_equiv {machine : String} {declaration declaration' : Json}
    {o o' : Outline} (h : Reordered declaration declaration')
    (hread : read true machine machine declaration = .ok o)
    (hread' : read true machine machine declaration' = .ok o') :
    ∃ σ : Equiv.Perm Nat, ∀ i, Option.Rel Draft.SameState (drafts none 0 0 machine o)[i]?
      (drafts none 0 0 machine o')[σ i]? := by
  obtain ⟨middle, hall, hperm⟩ : SameStates (declared [machine] declaration)
      (declared [machine] declaration') := h.sameStates
  obtain ⟨σ, hσ⟩ := exists_equiv_of_perm hperm
  refine ⟨σ, fun i => ?_⟩
  rcases hr : middle[i]? with _ | r
  · have hs := getElem?_none_of_forall₂ hall.flip hr
    rw [getElem?_none_of_forall₂ (stands_of_read hread) hs,
      getElem?_none_of_forall₂ (stands_of_read hread') ((hσ i).trans hr)]
    exact .none
  · obtain ⟨s, hs, hsame⟩ := getElem?_of_forall₂ hall.flip hr
    obtain ⟨d, hd, hstands⟩ := getElem?_of_forall₂ (stands_of_read hread) hs
    obtain ⟨d', hd', hstands'⟩ :=
      getElem?_of_forall₂ (stands_of_read hread') ((hσ i).trans hr)
    rw [hd, hd']
    refine .some ⟨?_, ?_⟩
    · rw [hstands'.id_eq, hstands.id_eq, hsame.path_eq]
    · rw [hstands'.fields_eq, hstands.fields_eq]
      exact hsame.fields

section Same

variable {machine : String} {table table' : List Draft} {σ : Equiv.Perm Nat} {c p : Nat}
  (numbered : Numbered machine table) (numbered' : Numbered machine table')
  (same : ∀ i, Option.Rel Draft.SameState table[i]? table'[σ i]?)

include same

theorem exists_same {e : Draft} (he : table[c]? = some e) :
    ∃ e', table'[σ c]? = some e' ∧ e.SameState e' := by
  have hrel := same c
  rw [he] at hrel
  rcases he' : table'[σ c]? with _ | e' <;> rw [he'] at hrel <;> cases hrel
  rename_i hsame
  exact ⟨e', rfl, hsame⟩

theorem exists_same' {e' : Draft} (he' : table'[σ c]? = some e') :
    ∃ e, table[c]? = some e ∧ e.SameState e' := by
  have hrel := same c
  rw [he'] at hrel
  rcases he : table[c]? with _ | e <;> rw [he] at hrel <;> cases hrel
  rename_i hsame
  exact ⟨e, rfl, hsame⟩

include numbered numbered'

theorem root_of_same : σ 0 = 0 := by
  obtain ⟨top, htop, -, -, -, hid, -⟩ := numbered.top
  obtain ⟨top', htop', -, -, -, hid', -⟩ := numbered'.top
  obtain ⟨e', he', hsame⟩ := exists_same same htop
  exact numbered'.id_inj he' htop' (by rw [hsame.id_eq, hid, hid'])

theorem parent_of_same {e e' : Draft} (he : table[c]? = some e) (he' : table'[σ c]? = some e') :
    e'.parent = e.parent.map σ ∧ e'.key = e.key := by
  obtain ⟨e'', he'', hsame⟩ := exists_same same he
  obtain rfl := Option.some.inj (he'.symm.trans he'')
  have hroot := root_of_same numbered numbered' same
  by_cases hc : c = 0
  · subst hc
    obtain ⟨top, htop, -, hnone, -, -, hkey⟩ := numbered.top
    obtain ⟨top', htop', -, hnone', -, -, hkey'⟩ := numbered'.top
    obtain rfl := Option.some.inj (he.symm.trans htop)
    rw [hroot] at he'
    obtain rfl := Option.some.inj (he'.symm.trans htop')
    exact ⟨by rw [hnone, hnone']; rfl, by rw [hkey, hkey']⟩
  · have hc' : σ c ≠ 0 := fun h => hc (σ.injective (h.trans hroot.symm))
    obtain ⟨p, d, -, hd, hchild⟩ := numbered.parent he hc
    obtain ⟨q, d', -, hd', hchild'⟩ := numbered'.parent he' hc'
    obtain ⟨hid, hkey⟩ := numbered'.eq_of_isChild numbered he' he hchild' hchild hsame.id_eq
    obtain ⟨d'', hd'', hsame'⟩ := exists_same same hd
    have hq : q = σ p := numbered'.id_inj hd' hd'' (by rw [hid, hsame'.id_eq])
    refine ⟨?_, hkey⟩
    rw [hchild.parent_eq, hchild'.parent_eq, numbered.index_eq hd, numbered'.index_eq hd', hq]
    rfl

/-- The drafts of the same states refer to drafts of the same states. -/
theorem renamed_of_same {d d' : Draft} (hd : table[p]? = some d) (hd' : table'[σ p]? = some d') :
    d.Renamed σ d' := by
  obtain ⟨d'', hd'', hsame⟩ := exists_same same hd
  obtain rfl := Option.some.inj (hd'.symm.trans hd'')
  obtain ⟨hparent, hkey⟩ := parent_of_same numbered numbered' same hd hd'
  obtain ⟨⟨root, hcheck⟩, -, hsorted, -⟩ := numbered.node hd
  obtain ⟨⟨root', hcheck'⟩, -, hsorted', -⟩ := numbered'.node hd'
  refine ⟨hsame, ?_, hkey, ?_, hparent, ?_⟩
  · rw [numbered.index_eq hd, numbered'.index_eq hd']
  · have hkind := kindOf_of_check hcheck'
    rw [hsame.fields.kindOf_eq, kindOf_of_check hcheck] at hkind
    exact (Except.ok.inj hkind).symm
  · refine (List.perm_ext_iff_of_nodup (hsorted'.imp Nat.ne_of_lt)
      (List.Nodup.map σ.injective (hsorted.imp Nat.ne_of_lt))).mpr fun c => ?_
    obtain ⟨c, rfl⟩ := σ.surjective c
    rw [List.mem_map_of_injective σ.injective, numbered.mem_children_iff hd,
      numbered'.mem_children_iff hd']
    constructor
    · rintro ⟨e', he', hpe'⟩
      obtain ⟨e, he, -⟩ := exists_same' same he'
      rw [(parent_of_same numbered numbered' same he he').1] at hpe'
      obtain ⟨q, hq, heq⟩ := Option.map_eq_some_iff.mp hpe'
      exact ⟨e, he, σ.injective heq ▸ hq⟩
    · rintro ⟨e, he, hpe⟩
      obtain ⟨e', he', -⟩ := exists_same same he
      exact ⟨e', he', by rw [(parent_of_same numbered numbered' same he he').1, hpe]; rfl⟩

end Same

end Outline

/-! ## The second reading -/

namespace Reference

/-- Only the first draft keeps its index where a permutation leaves the first index alone. -/
theorem arrival_map {σ : Equiv.Perm Nat} (hroot : σ 0 = 0) (text : String)
    (reached : Option Nat) : arrival text (reached.map σ) = (arrival text reached).map σ := by
  rcases reached with _ | index
  · rfl
  · have hzero : σ index = 0 ↔ index = 0 := by
      rw [← hroot, σ.injective.eq_iff, hroot]
    simp only [Option.map_some, arrival, hzero]
    split <;> rfl

end Reference

namespace Blueprint

variable {plan : Blueprint} {draft : Draft}

/-- There is one transition for each event that a draft lists. -/
theorem map_event_of_mapM {members : Entries Json} {transitions : List Transition}
    (h : members.mapM (plan.handler draft) = .ok transitions) :
    transitions.map Transition.event = Entries.keys members := by
  have hall := forall₂_of_mapM h
  clear h
  induction hall with
  | nil => rfl
  | cons hhandler _ ih =>
    rw [List.map_cons, ih, event_of_transition (exists_transition_of_handler hhandler)]
    rfl

theorem memberKeys_of_membersOf {declared : Json} {members : Entries Json}
    (h : membersOf declared = .ok members) : declared.memberKeys = Entries.keys members := by
  unfold membersOf at h
  split at h
  · cases h
    rfl
  · rename_i hobj
    split at h
    · cases h
    · cases h
      cases declared with
      | obj members => exact absurd rfl (hobj members)
      | _ => rfl

end Blueprint

/-- A permutation takes the drafts of one table to those of another, and the nodes are finished
against the same in both. -/
structure Blueprint.Renames (σ : Equiv.Perm Nat) (plan plan' : Blueprint) : Prop where
  machine_eq : plan'.machine = plan.machine
  registry_eq : plan'.registry = plan.registry
  events_eq : plan'.events = plan.events
  context_eq : plan'.context = plan.context
  numbered : Outline.Numbered plan.machine plan.table.toList
  numbered' : Outline.Numbered plan'.machine plan'.table.toList
  root : σ 0 = 0
  draft (i : Nat) : Option.Rel (Draft.Renamed σ) plan.table[i]? plan'.table[σ i]?

namespace Blueprint.Renames

open Outline (field absent)

variable {σ : Equiv.Perm Nat} {plan plan' : Blueprint} (names : Renames σ plan plan')

include names

theorem draft?_cases (i : Nat) : (plan.table[i]? = none ∧ plan'.table[σ i]? = none) ∨
    ∃ d d', plan.table[i]? = some d ∧ plan'.table[σ i]? = some d' ∧ d.Renamed σ d' := by
  have hrel := names.draft i
  rcases hd : plan.table[i]? with _ | d <;> rcases hd' : plan'.table[σ i]? with _ | d' <;>
    rw [hd, hd'] at hrel <;> cases hrel
  · exact .inl ⟨rfl, rfl⟩
  · rename_i hr
    exact .inr ⟨d, d', rfl, rfl, hr⟩

/-! ## References -/

theorem childAt?_eq (p : Nat) (key : String) : Reference.childAt? plan'.table (σ p) key =
    (Reference.childAt? plan.table p key).map σ := by
  refine Option.ext fun c => ?_
  obtain ⟨c, rfl⟩ := σ.surjective c
  rw [Reference.childAt?_eq_some_iff names.numbered', Option.map_eq_some_iff]
  constructor
  · rintro ⟨e', he', hparent, rfl⟩
    rcases names.draft?_cases c with ⟨-, hnone⟩ | ⟨e, e'', he, he'', hr⟩
    · rw [hnone] at he'; cases he'
    · obtain rfl := Option.some.inj (he'.symm.trans he'')
      rw [hr.parent_eq] at hparent
      obtain ⟨q, hq, heq⟩ := Option.map_eq_some_iff.mp hparent
      obtain rfl : q = p := σ.injective heq
      exact ⟨c, (Reference.childAt?_eq_some_iff names.numbered).mpr ⟨e, he, hq, hr.key_eq.symm⟩,
        rfl⟩
  · rintro ⟨d, hd, heq⟩
    obtain rfl : d = c := σ.injective heq
    obtain ⟨e, he, hparent, rfl⟩ := (Reference.childAt?_eq_some_iff names.numbered).mp hd
    rcases names.draft?_cases d with ⟨hnone, -⟩ | ⟨e', e'', he', he'', hr⟩
    · rw [hnone] at he; cases he
    · obtain rfl := Option.some.inj (he.symm.trans he')
      exact ⟨e'', he'', by rw [hr.parent_eq, hparent]; rfl, hr.key_eq⟩

theorem walk?_eq (start : Nat) (keys : List String) : Reference.walk? plan'.table (σ start) keys =
    (Reference.walk? plan.table start keys).map σ := by
  induction keys generalizing start with
  | nil => rfl
  | cons key rest ih =>
    rw [Reference.walk?, Reference.walk?, names.childAt?_eq]
    rcases Reference.childAt? plan.table start key with _ | child
    · rfl
    · exact ih child

theorem kindAt?_eq (i : Nat) : plan'.kindAt? (σ i) = plan.kindAt? i := by
  rcases names.draft?_cases i with ⟨hd, hd'⟩ | ⟨d, d', hd, hd', hr⟩
  · rw [kindAt?, kindAt?, hd, hd']
  · rw [kindAt?, kindAt?, hd, hd', Option.map_some, Option.map_some, hr.kind_eq]

theorem within_eq (i a : Nat) : plan'.within (σ i) (σ a) = plan.within i a := by
  induction i using Nat.strongRecOn with
  | _ i ih =>
    rw [within, within]
    simp only [σ.injective.eq_iff]
    split
    · rfl
    · rcases names.draft?_cases i with ⟨hd, hd'⟩ | ⟨d, d', hd, hd', hr⟩
      · rw [hd, hd']; rfl
      · rw [hd, hd', Option.bind_some, Option.bind_some]
        rcases hparent : d.parent with _ | p
        · rw [hr.parent_eq, hparent]; rfl
        · have hparent' : d'.parent = some (σ p) := by rw [hr.parent_eq, hparent]; rfl
          rw [← Array.getElem?_toList] at hd hd'
          have hlt := (names.numbered.exists_isChild hd hparent).1
          have hlt' := (names.numbered'.exists_isChild hd' hparent').1
          rw [hparent']
          simp only [if_pos hlt, if_pos hlt']
          exact ih p hlt

variable {d d' : Draft} (hr : d.Renamed σ d')

include hr

theorem resolve_eq (text : String) :
    Reference.resolve plan'.machine plan'.table d' text =
      (Reference.resolve plan.machine plan.table d text).map σ := by
  have hroot := names.walk?_eq 0
  rw [names.root] at hroot
  have hparent : d'.parent.getD d'.index = σ (d.parent.getD d.index) := by
    rw [hr.parent_eq, hr.index_eq, Option.getD_map]
  rw [Reference.resolve_eq, Reference.resolve_eq, names.machine_eq, hparent, hr.index_eq]
  rcases Reference.ofText text with ⟨name, path⟩ | path | path
  · dsimp only
    split
    · rw [hroot, Reference.arrival_map names.root]
    · rfl
  · dsimp only
    rw [names.walk?_eq, Reference.arrival_map names.root]
  · dsimp only
    rw [names.walk?_eq, Reference.arrival_map names.root]

theorem target_eq (reference : Json) :
    plan'.target d' reference = (plan.target d reference).map (Option.map σ) := by
  unfold target
  split
  · rfl
  · split
    · rfl
    · rw [names.resolve_eq hr]
      rcases Reference.resolve plan.machine plan.table d _ with defect | index <;> rfl
  · rfl

omit hr in
theorem actions_eq (declared : Json) : plan'.actions declared = plan.actions declared := by
  have haction : plan'.action = plan.action := by
    funext name
    have houtside : ∀ effect, plan'.outside effect = plan.outside effect := by
      intro effect
      unfold outside
      rw [names.context_eq]
    unfold action
    rw [names.registry_eq]
    simp only [houtside]
  rw [actions, actions, haction]

theorem transitionTo_eq (event : String) (reference declared : Json) :
    plan'.transitionTo d' event reference declared =
      (plan.transitionTo d event reference declared).map (Transition.rename σ) := by
  rw [transitionTo, transitionTo, names.target_eq hr, names.actions_eq, hr.index_eq]
  rcases plan.target d reference with defect | goal
  · rfl
  · rcases plan.actions declared with defect | actions <;> rfl

theorem transition_eq (event : String) (declared : Json) :
    plan'.transition d' event declared =
      (plan.transition d event declared).map (Transition.rename σ) := by
  unfold transition
  split
  · exact names.transitionTo_eq hr ..
  · exact names.transitionTo_eq hr ..
  · split
    · exact names.transitionTo_eq hr ..
    · rfl
  · rfl

theorem handler_eq (member : String × Json) :
    plan'.handler d' member = (plan.handler d member).map (Transition.rename σ) := by
  rw [handler, handler, names.events_eq]
  split
  · rfl
  · exact names.transition_eq hr ..

theorem onDone_eq :
    plan'.onDone d' = (plan.onDone d).map (Option.map (Transition.rename σ)) := by
  unfold onDone
  rw [hr.fields.absent_eq, hr.fields.field_eq "on_done" (by decide) (by decide), hr.id_eq,
    names.transition_eq hr, hr.index_eq]
  split
  · rfl
  · rcases plan.transition d _ _ with defect | ⟨event, source, goal, actions, reference⟩
    · rfl
    · rcases goal with _ | target
      · rfl
      · simp only [Except.map, bind, Except.bind, Transition.rename, Option.map_some,
          names.within_eq]
        split <;> rfl

theorem initial_eq : plan'.initial d' = (plan.initial d).map σ := by
  unfold initial
  rw [hr.fields.field_eq "initial" (by decide) (by decide)]
  split
  · rfl
  · rw [hr.index_eq, names.childAt?_eq]
    rcases Reference.childAt? plan.table d.index _ with _ | child
    · rfl
    · simp only [Option.map_some, names.kindAt?_eq]
      split <;> rfl

/-- A draft has the renamed initial and history children. -/
theorem defaults_eq_ok {initial history : Option Nat}
    (h : plan.defaults d = .ok (initial, history)) :
    plan'.defaults d' = .ok (initial.map σ, history.map σ) := by
  have hfilter : (d'.children.filter fun c => plan'.kindAt? c = some .history).Perm
      ((d.children.filter fun c => plan.kindAt? c = some .history).map σ) := by
    refine (hr.children.filter _).trans ?_
    rw [List.filter_map]
    simp only [Function.comp_def, names.kindAt?_eq]
    exact .refl _
  unfold defaults at h ⊢
  rw [hr.kind_eq, names.initial_eq hr, hr.fields.absent_eq]
  split at h
  · rename_i hkind
    rw [if_pos hkind]
    obtain ⟨first, hfirst, h⟩ := bind_eq_ok.mp h
    rw [hfirst]
    split at h
    · rename_i hnone
      cases h
      rw [hnone, List.map_nil, List.perm_nil] at hfilter
      simp only [hfilter]
      rfl
    · rename_i child hone
      cases h
      rw [hone, List.map_singleton, List.perm_singleton] at hfilter
      simp only [hfilter]
      rfl
    · cases h
  · rename_i hkind
    rw [if_neg hkind]
    split at h
    · rename_i habsent
      cases h
      rw [if_pos habsent]
      rfl
    · cases h

/-- The transitions of the events are those of the other order, renamed. -/
theorem exists_handlers {members : Entries Json} {transitions : List Transition}
    (hmembers : membersOf (field d.fields "on") = .ok members)
    (htransitions : members.mapM (plan.handler d) = .ok transitions) :
    ∃ members' ordered, membersOf (field d'.fields "on") = .ok members' ∧
      members'.mapM (plan'.handler d') = .ok (ordered.map (Transition.rename σ)) ∧
      transitions.Perm ordered := by
  obtain ⟨members', hmembers', hperm⟩ := (hr.fields.field "on").exists_membersOf rfl hmembers
  obtain ⟨ordered, hordered, hperm'⟩ := exists_mapM_of_perm hperm htransitions
  have hhandler : plan'.handler d' = fun member =>
      (plan.handler d member).map (Transition.rename σ) := funext (names.handler_eq hr)
  refine ⟨members', ordered, hmembers', ?_, hperm'⟩
  rw [hhandler, mapM_map, hordered]
  rfl

/-- A draft that is finished is finished in another order, to the renamed node. -/
theorem exists_finish {n : Node} (hevents : (field d.fields "on").memberKeys.Nodup)
    (h : plan.finish d = .ok n) : ∃ n', plan'.finish d' = .ok n' ∧ n.Renamed σ n' := by
  have hfinished := finished_of_finish h
  obtain ⟨members, hmembers, htransitions⟩ := hfinished.transitions_eq
  obtain ⟨members', ordered, hmembers', hhandlers, hperm⟩ :=
    names.exists_handlers hr hmembers htransitions
  have hdefaults := names.defaults_eq_ok hr hfinished.defaults_eq
  have hdone := names.onDone_eq hr
  have hentry := names.actions_eq (field d.fields "entry")
  have hexit := names.actions_eq (field d.fields "exit")
  have htags := hfinished.tags_eq
  rw [hfinished.onDone_eq, Except.map] at hdone
  rw [hfinished.entry_eq, ← hr.fields.field_eq "entry" (by decide) (by decide)] at hentry
  rw [hfinished.exit_eq, ← hr.fields.field_eq "exit" (by decide) (by decide)] at hexit
  rw [← hr.fields.field_eq "tags" (by decide) (by decide)] at htags
  obtain ⟨n', h'⟩ : ∃ n', plan'.finish d' = .ok n' := by
    simp only [finish, hdefaults, hmembers', hhandlers, hdone, hentry, hexit, htags, bind,
      Except.bind]
    exact ⟨_, rfl⟩
  have hfinished' := finished_of_finish h'
  obtain ⟨hinitial, hhistory⟩ :=
    Prod.mk.inj (Except.ok.inj (hfinished'.defaults_eq.symm.trans hdefaults))
  have htransitions' : n'.transitions = ordered.map (Transition.rename σ) := by
    obtain ⟨found, hfound, htransitions'⟩ := hfinished'.transitions_eq
    obtain rfl := Except.ok.inj (hfound.symm.trans hmembers')
    exact Except.ok.inj (htransitions'.symm.trans hhandlers)
  exact ⟨n', h', {
    index_eq := by rw [hfinished'.index_eq, hfinished.index_eq, hr.index_eq]
    key_eq := by rw [hfinished'.key_eq, hfinished.key_eq, hr.key_eq]
    id_eq := by rw [hfinished'.id_eq, hfinished.id_eq, hr.id_eq]
    kind_eq := by rw [hfinished'.kind_eq, hfinished.kind_eq, hr.kind_eq]
    parent_eq := by rw [hfinished'.parent_eq, hfinished.parent_eq, hr.parent_eq]
    initial_eq := hinitial
    history_eq := hhistory
    transitions := htransitions' ▸ (hperm.map _).symm
    distinct := by
      rw [map_event_of_mapM htransitions, ← memberKeys_of_membersOf hmembers]
      exact hevents
    onDone_eq := Except.ok.inj (hfinished'.onDone_eq.symm.trans hdone)
    entry_eq := Except.ok.inj (hfinished'.entry_eq.symm.trans hentry)
    exit_eq := Except.ok.inj (hfinished'.exit_eq.symm.trans hexit)
    tags_eq := Except.ok.inj (hfinished'.tags_eq.symm.trans htags) }⟩

end Blueprint.Renames

/-! ## Charts -/

namespace Chart

variable {registry : Registry} {events : Option (List String)} {declaration declaration' : Json}
  {fields fields' : Entries Json} {outline outline' : Outline} {chart : Chart}

/-- The outlines of one declaration in two orders are finished against tables that differ in the
indices. -/
theorem exists_renames_planOf (registry : Registry) (hu : (Json.obj fields).unrepeated = true)
    (h : Outline.ReorderedFields fields fields')
    (hread : Outline.read true chart.id chart.id (.obj fields) = .ok outline)
    (hread' : Outline.read true chart.id chart.id (.obj fields') = .ok outline') :
    ∃ σ, Blueprint.Renames σ (planOf registry outline chart) (planOf registry outline' chart) := by
  have hreordered : Outline.Reordered (.obj fields) (.obj fields') := .node h
  have numbered := Outline.numbered_of_read hu hread
  have numbered' := Outline.numbered_of_read (hreordered.unrepeated hu) hread'
  obtain ⟨σ, same⟩ := hreordered.exists_equiv hread hread'
  refine ⟨σ, rfl, rfl, rfl, rfl, numbered, numbered',
    Outline.root_of_same numbered numbered' same, fun i => ?_⟩
  have hrel := same i
  rw [planOf, planOf, List.getElem?_toArray, List.getElem?_toArray]
  rcases hd : (Outline.drafts none 0 0 chart.id outline)[i]? with _ | d <;>
    rcases hd' : (Outline.drafts none 0 0 chart.id outline')[σ i]? with _ | d' <;>
      rw [hd, hd'] at hrel <;> cases hrel
  · exact .none
  · exact .some (Outline.renamed_of_same numbered numbered' same hd hd')

/-- A state of a declaration without repeated keys lists each event once. -/
theorem nodup_events_of_read (hu : (Json.obj fields).unrepeated = true)
    (hread : Outline.read true chart.id chart.id (.obj fields) = .ok outline) {i : Nat} {d : Draft}
    (hd : (Outline.drafts none 0 0 chart.id outline)[i]? = some d) :
    (Outline.field d.fields "on").memberKeys.Nodup := by
  obtain ⟨s, hs, hstands⟩ := getElem?_of_forall₂ (Outline.stands_of_read hread).flip hd
  have hfields := Outline.unrepeated_of_mem_declared _ hu (List.mem_of_getElem? hs)
  rw [hstands.fields_eq, Outline.field]
  rcases hon : Entries.get? s.fields "on" with _ | declared
  · exact List.nodup_nil
  · exact Json.nodup_memberKeys (Json.unrepeated_of_get? hfields hon)

section Finishing

variable {σ : Equiv.Perm Nat} (hu : (Json.obj fields).unrepeated = true)
  (described : Described registry events fields outline chart)
  (names : Blueprint.Renames σ (planOf registry outline chart) (planOf registry outline' chart))

include hu described names

/-- The draft at a place is finished, and so is the one that it is renamed to. -/
theorem finish_cases (i : Nat) :
    (chart.node? i = none ∧ (Outline.drafts none 0 0 chart.id outline')[σ i]? = none) ∨
      ∃ n d' n', chart.node? i = some n ∧
        (Outline.drafts none 0 0 chart.id outline')[σ i]? = some d' ∧
        (planOf registry outline' chart).finish d' = .ok n' ∧ n.Renamed σ n' := by
  have hall := Blueprint.finishAll_eq_ok_iff.mp described.finish_eq
  have hcases := names.draft?_cases i
  rw [planOf, planOf, List.getElem?_toArray, List.getElem?_toArray] at hcases
  rw [node?, ← Array.getElem?_toList]
  rcases hcases with ⟨hd, hd'⟩ | ⟨d, d', hd, hd', hr⟩
  · exact .inl ⟨getElem?_none_of_forall₂ hall hd, hd'⟩
  · obtain ⟨n, hn, hfinished⟩ := getElem?_of_forall₂ hall hd
    obtain ⟨n', hfinished', hrenamed⟩ :=
      names.exists_finish hr (nodup_events_of_read hu described.read_eq hd) hfinished
    exact .inr ⟨n, d', n', hn, hd', hfinished', hrenamed⟩

/-- All drafts of the other order are finished, to the renamed nodes. -/
theorem exists_renamed_nodes : ∃ nodes, (planOf registry outline' chart).finishAll
      (Outline.drafts none 0 0 chart.id outline') = .ok nodes ∧
    ∀ i, Option.Rel (Node.Renamed σ) (chart.node? i) nodes[σ i]? := by
  obtain ⟨nodes, hnodes⟩ : ∃ nodes, (planOf registry outline' chart).finishAll
      (Outline.drafts none 0 0 chart.id outline') = .ok nodes := by
    refine Blueprint.exists_finishAll fun d' hd' => ?_
    obtain ⟨j, hj⟩ := List.mem_iff_getElem?.mp hd'
    obtain ⟨i, rfl⟩ := σ.surjective j
    rcases finish_cases hu described names i with ⟨-, hnone⟩ | ⟨n, d₁, n', -, hd₁, hfinished, -⟩
    · rw [hj] at hnone; cases hnone
    · obtain rfl := Option.some.inj (hj.symm.trans hd₁)
      exact ⟨n', hfinished⟩
  have hall := Blueprint.finishAll_eq_ok_iff.mp hnodes
  refine ⟨nodes, hnodes, fun i => ?_⟩
  rcases finish_cases hu described names i with
    ⟨hnone, hd'⟩ | ⟨n, d', n', hsome, hd', hfinished, hrenamed⟩
  · rw [hnone, getElem?_none_of_forall₂ hall hd']
    exact .none
  · obtain ⟨n₁, hn₁, hfinished₁⟩ := getElem?_of_forall₂ hall hd'
    obtain rfl := Except.ok.inj (hfinished₁.symm.trans hfinished)
    rw [hsome, hn₁]
    exact .some hrenamed

end Finishing

/-- A declaration that describes a chart describes a renamed one in every order. -/
theorem exists_define_of_reordered (hu : declaration.unrepeated = true)
    (h : Outline.Reordered declaration declaration')
    (hdefine : define registry events declaration = .ok chart) :
    ∃ chart' σ, define registry events declaration' = .ok chart' ∧ chart.Renames σ chart' := by
  obtain ⟨fields, outline, rfl, described⟩ := define_eq_ok_iff.mp hdefine
  obtain ⟨fields', rfl, hfields⟩ := h.exists_fields
  obtain ⟨outline', hread'⟩ := h.exists_read ⟨outline, described.read_eq⟩
  obtain ⟨σ, names⟩ := exists_renames_planOf registry hu hfields described.read_eq hread'
  obtain ⟨nodes, hnodes, hrenamed⟩ := exists_renamed_nodes hu described names
  refine ⟨{ chart with nodes := nodes.toArray }, σ, ?_, rfl, rfl, rfl, names.root, fun i => ?_⟩
  · refine define_eq_ok_iff.mpr ⟨fields', outline', rfl, ?_⟩
    constructor
    · rw [described.id_eq, machineId, machineId, hfields.field_eq "id" (by decide) (by decide)]
    · exact described.events_eq
    · rw [hfields.field_eq "context" (by decide) (by decide)]
      exact described.context_eq
    · rw [(hfields.field "states").truthy_eq]
      exact described.states
    · exact hread'
    · exact hnodes
  · have hnode : ({ chart with nodes := nodes.toArray } : Chart).node? (σ i) = nodes[σ i]? :=
      List.getElem?_toArray
    rw [hnode]
    exact hrenamed i

end Chart

end Lifecycle
