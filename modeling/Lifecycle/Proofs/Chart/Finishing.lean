import Lifecycle.Chart.Build
import Lifecycle.Proofs.Outcome

/-!
# The second reading

Each draft is finished on its own: `Blueprint.Finished` says what its node consists of. The rest
tells what the parts refer to: an initial child is a state among the children (`defaults_cases`), a
transition starts at its node and ends where a reference leads (`exists_resolve_of_transition`),
and a reference leads to a node of the table other than the root.
-/

namespace Lifecycle

namespace Reference

variable {machine : String} {table : Array Draft} {draft : Draft} {start i c : Nat}

theorem mem_children_of_childAt? {key : String} (hd : table[start]? = some draft)
    (h : childAt? table start key = some c) : c ∈ draft.children := by
  rw [childAt?, hd] at h
  exact List.mem_of_find?_eq_some h

/-- Walking along keys does not leave a table that has all its children. -/
theorem lt_of_walk? {keys : List String}
    (closed : ∀ {p c : Nat} {d : Draft}, table[p]? = some d → c ∈ d.children → c < table.size)
    (hstart : start < table.size) (h : walk? table start keys = some i) : i < table.size := by
  induction keys generalizing start with
  | nil =>
    obtain rfl : start = i := Option.some.inj h
    exact hstart
  | cons key rest ih =>
    rw [walk?] at h
    split at h
    · rename_i child hchild
      obtain ⟨d, hd⟩ : ∃ d, table[start]? = some d := ⟨_, Array.getElem?_eq_getElem hstart⟩
      exact ih (closed hd (mem_children_of_childAt? hd hchild)) h
    · cases h

/-- A reference means a node other than the root that is reached from the root, from its own node
or from the parent of that. -/
theorem exists_walk?_of_resolve {text : String}
    (h : resolve machine table draft text = .ok i) :
    i ≠ 0 ∧ ∃ start keys, walk? table start keys = some i ∧
      (start = 0 ∨ start = draft.index ∨ start = draft.parent.getD draft.index) := by
  unfold resolve at h
  dsimp only at h
  split at h
  · cases h
  · cases h
  · rename_i index htarget
    split at h
    · cases h
    · rename_i hne
      obtain rfl : index = i := Except.ok.inj h
      refine ⟨hne, ?_⟩
      split at htarget
      · split at htarget
        · exact ⟨0, _, Except.ok.inj htarget, .inl rfl⟩
        · cases htarget
      · exact ⟨_, _, Except.ok.inj htarget, .inr (.inl rfl)⟩
      · exact ⟨_, _, Except.ok.inj htarget, .inr (.inr rfl)⟩

end Reference

namespace Blueprint

variable {plan : Blueprint} {draft : Draft} {node : Node}

/-- What is above a draft is read off the parents alone. -/
theorem within_congr {plan' : Blueprint}
    (h : ∀ i : Nat, plan'.table[i]?.bind Draft.parent = plan.table[i]?.bind Draft.parent)
    (i ancestor : Nat) : plan'.within i ancestor = plan.within i ancestor := by
  induction i using Nat.strongRecOn with
  | _ i ih =>
    rw [within, within, h]
    split
    · rfl
    · split
      · split
        · rename_i p _ hp
          exact ih p hp
        · rfl
      · rfl

/-! ## The second reading in its parts -/

/-- A node is what the second reading makes of a draft. -/
structure Finished (plan : Blueprint) (draft : Draft) (node : Node) : Prop where
  index_eq : node.index = draft.index
  key_eq : node.key = draft.key
  id_eq : node.id = draft.id
  kind_eq : node.kind = draft.kind
  parent_eq : node.parent = draft.parent
  depth_eq : node.depth = draft.depth
  children_eq : node.children = draft.children
  defaults_eq : plan.defaults draft = .ok (node.initial, node.history)
  transitions_eq : ∃ members, membersOf (Outline.field draft.fields "on") = .ok members ∧
    members.mapM (plan.handler draft) = .ok node.transitions
  onDone_eq : plan.onDone draft = .ok node.onDone
  entry_eq : plan.actions (Outline.field draft.fields "entry") = .ok node.entry
  exit_eq : plan.actions (Outline.field draft.fields "exit") = .ok node.exit
  tags_eq : tagsOf (Outline.field draft.fields "tags") = .ok node.tags

theorem finished_of_finish (h : plan.finish draft = .ok node) : Finished plan draft node := by
  unfold finish at h
  obtain ⟨⟨initial, history⟩, hdefaults, h⟩ := bind_eq_ok.mp h
  obtain ⟨members, hmembers, h⟩ := bind_eq_ok.mp h
  obtain ⟨transitions, htransitions, h⟩ := bind_eq_ok.mp h
  obtain ⟨done, hdone, h⟩ := bind_eq_ok.mp h
  obtain ⟨entry, hentry, h⟩ := bind_eq_ok.mp h
  obtain ⟨exit, hexit, h⟩ := bind_eq_ok.mp h
  obtain ⟨tags, htags, h⟩ := bind_eq_ok.mp h
  cases h
  exact ⟨rfl, rfl, rfl, rfl, rfl, rfl, rfl, hdefaults, ⟨members, hmembers, htransitions⟩, hdone,
    hentry, hexit, htags⟩

/-- Drafts are finished one by one. -/
theorem finishAll_eq_ok_iff {drafts : List Draft} {nodes : List Node} :
    plan.finishAll drafts = .ok nodes ↔
      List.Forall₂ (fun draft node => plan.finish draft = .ok node) drafts nodes := by
  induction drafts generalizing nodes with
  | nil =>
    rw [List.forall₂_nil_left_iff]
    exact ⟨fun h => (Except.ok.inj h).symm, fun h => h ▸ rfl⟩
  | cons draft rest ih =>
    rw [finishAll, List.forall₂_cons_left_iff]
    constructor
    · intro h
      split at h
      · cases h
      · rename_i node hnode
        obtain ⟨others, hothers, rfl⟩ := map_eq_ok.mp h
        exact ⟨node, others, hnode, ih.mp hothers, rfl⟩
    · rintro ⟨node, others, hnode, hothers, rfl⟩
      rw [hnode, ih.mpr hothers]
      rfl

/-- Drafts are finished if each of them is. -/
theorem exists_finishAll {drafts : List Draft}
    (h : ∀ draft ∈ drafts, ∃ node, plan.finish draft = .ok node) :
    ∃ nodes, plan.finishAll drafts = .ok nodes := by
  induction drafts with
  | nil => exact ⟨[], rfl⟩
  | cons draft rest ih =>
    obtain ⟨⟨node, hnode⟩, hrest⟩ := List.forall_mem_cons.mp h
    obtain ⟨others, hothers⟩ := ih hrest
    rw [finishAll, hnode, hothers]
    exact ⟨node :: others, rfl⟩

theorem forall₂_of_finishAll {drafts : List Draft} {nodes : List Node}
    (h : plan.finishAll drafts = .ok nodes) : List.Forall₂ (Finished plan) drafts nodes :=
  (finishAll_eq_ok_iff.mp h).imp fun _ _ => finished_of_finish

/-- The initial child is a state among the children; the history child is the only history node
among them. Nodes that are not compound have neither. -/
theorem defaults_cases {initial history : Option Nat} (hd : plan.table[draft.index]? = some draft)
    (h : plan.defaults draft = .ok (initial, history)) :
    (draft.kind = .compound ∧
      (∃ c, initial = some c ∧ c ∈ draft.children ∧ plan.kindAt? c ≠ some .history) ∧
      draft.children.filter (fun c => plan.kindAt? c = some .history) = history.toList) ∨
    (draft.kind ≠ .compound ∧ initial = none ∧ history = none) := by
  unfold defaults at h
  split at h
  · rename_i hkind
    refine .inl ⟨hkind, ?_⟩
    obtain ⟨c, hc, h⟩ := bind_eq_ok.mp h
    have hinitial : c ∈ draft.children ∧ plan.kindAt? c ≠ some .history := by
      unfold Blueprint.initial at hc
      split at hc
      · cases hc
      · split at hc
        · cases hc
        · rename_i child hchild
          split at hc
          · cases hc
          · rename_i hne
            cases hc
            exact ⟨Reference.mem_children_of_childAt? hd hchild, hne⟩
    split at h
    · rename_i hnil
      cases h
      exact ⟨⟨c, rfl, hinitial⟩, hnil⟩
    · rename_i hone
      cases h
      exact ⟨⟨c, rfl, hinitial⟩, hone⟩
    · cases h
  · rename_i hkind
    split at h
    · cases h
      exact .inr ⟨hkind, rfl, rfl⟩
    · cases h

theorem exists_resolve_of_transitionTo {event : String} {reference names : Json} {t : Transition}
    (h : plan.transitionTo draft event reference names = .ok t) :
    t.source = draft.index ∧ ∀ target, t.target = some target →
      ∃ text, Reference.resolve plan.machine plan.table draft text = .ok target := by
  unfold transitionTo at h
  obtain ⟨goal, hgoal, h⟩ := bind_eq_ok.mp h
  obtain ⟨actions, -, h⟩ := bind_eq_ok.mp h
  cases h
  refine ⟨rfl, fun target ht => ?_⟩
  unfold Blueprint.target at hgoal
  split at hgoal
  · cases hgoal; cases ht
  · split at hgoal
    · cases hgoal
    · obtain ⟨i, hi, rfl⟩ := map_eq_ok.mp hgoal
      obtain rfl : i = target := Option.some.inj ht
      exact ⟨_, hi⟩
  · cases hgoal

/-- A transition starts at its node and ends where a reference leads. -/
theorem exists_resolve_of_transition {event : String} {declared : Json} {t : Transition}
    (h : plan.transition draft event declared = .ok t) :
    t.source = draft.index ∧ ∀ target, t.target = some target →
      ∃ text, Reference.resolve plan.machine plan.table draft text = .ok target := by
  unfold transition at h
  split at h
  · exact exists_resolve_of_transitionTo h
  · exact exists_resolve_of_transitionTo h
  · split at h
    · exact exists_resolve_of_transitionTo h
    · cases h
  · cases h

theorem event_of_transition {event : String} {declared : Json} {t : Transition}
    (h : plan.transition draft event declared = .ok t) : t.event = event := by
  have hevent : ∀ {reference names}, plan.transitionTo draft event reference names = .ok t →
      t.event = event := by
    intro reference names h
    obtain ⟨goal, -, h⟩ := bind_eq_ok.mp h
    obtain ⟨actions, -, h⟩ := bind_eq_ok.mp h
    cases h
    rfl
  unfold transition at h
  split at h
  · exact hevent h
  · exact hevent h
  · split at h
    · exact hevent h
    · cases h
  · cases h

theorem exists_transition_of_handler {member : String × Json} {t : Transition}
    (h : plan.handler draft member = .ok t) :
    plan.transition draft member.1 member.2 = .ok t := by
  unfold handler at h
  split at h
  · cases h
  · exact h

theorem exists_transition_of_onDone {t : Transition} (h : plan.onDone draft = .ok (some t)) :
    ∃ event declared target, plan.transition draft event declared = .ok t ∧
      t.target = some target ∧ plan.within target draft.index = false := by
  unfold onDone at h
  split at h
  · cases h
  · obtain ⟨done, hdone, h⟩ := bind_eq_ok.mp h
    split at h
    · cases h
    · rename_i target htarget
      split at h
      · cases h
      · rename_i hwithin
        cases h
        exact ⟨_, _, target, hdone, htarget, by simpa using hwithin⟩

end Blueprint

end Lifecycle
