import Lifecycle.Interpreter.Restore
import Lifecycle.Proofs.Chart.Actions
import Lifecycle.Proofs.Chart.Arena
import Lifecycle.Proofs.Chart.Shape
import Mathlib.Data.List.Find
import Mathlib.Data.List.Perm.Basic
import Mathlib.Logic.Equiv.Defs

/-!
# Renaming the nodes of a chart

Two charts may differ in nothing but the indices of their nodes: a permutation takes the nodes of
one to those of the other, with the same ids, keys and actions (`Chart.Renames`). Children and
transitions may be listed in another order, which nothing can tell, because a child is found by its
key and a transition by its event. So whatever is read off the table of one chart is read off that
of the other with the indices renamed.
-/

namespace Lifecycle

/-- The transition with its nodes renamed. -/
def Transition.rename (σ : Nat → Nat) (t : Transition) : Transition :=
  { t with source := σ t.source, target := t.target.map σ }

/-- One node is the other with the nodes that it refers to renamed. -/
structure Node.Renamed (σ : Nat → Nat) (n n' : Node) : Prop where
  index_eq : n'.index = σ n.index
  key_eq : n'.key = n.key
  id_eq : n'.id = n.id
  kind_eq : n'.kind = n.kind
  parent_eq : n'.parent = n.parent.map σ
  initial_eq : n'.initial = n.initial.map σ
  history_eq : n'.history = n.history.map σ
  transitions : n'.transitions.Perm (n.transitions.map (Transition.rename σ))
  /-- A node has one transition for an event. -/
  distinct : (n.transitions.map Transition.event).Nodup
  onDone_eq : n'.onDone = n.onDone.map (Transition.rename σ)
  entry_eq : n'.entry = n.entry
  exit_eq : n'.exit = n.exit
  tags_eq : n'.tags = n.tags

/-- A permutation takes the nodes of one chart to those of another. -/
structure Chart.Renames (σ : Equiv.Perm Nat) (chart chart' : Chart) : Prop where
  id_eq : chart'.id = chart.id
  context_eq : chart'.context = chart.context
  events_eq : chart'.events = chart.events
  root : σ 0 = 0
  node (i : Nat) : Option.Rel (Node.Renamed σ) (chart.node? i) (chart'.node? (σ i))

namespace Node.Renamed

variable {σ : Nat → Nat} {n n' : Node}

/-- For an event the renamed node has the renamed transition. -/
theorem find?_transitions (h : n.Renamed σ n') (event : String) :
    n'.transitions.find? (fun t => t.event == event) =
      (n.transitions.find? fun t => t.event == event).map (Transition.rename σ) := by
  have hunique : {t | t ∈ n'.transitions ∧ (t.event == event) = true}.Subsingleton := by
    have hevents : (n'.transitions.map Transition.event).Nodup := by
      refine (h.transitions.map Transition.event).nodup_iff.mpr ?_
      rw [List.map_map]
      exact h.distinct
    rintro s ⟨hs, hsevent⟩ t ⟨ht, htevent⟩
    exact List.inj_on_of_nodup_map hevents hs ht
      ((beq_iff_eq.mp hsevent).trans (beq_iff_eq.mp htevent).symm)
  rw [List.find?_eq_find?_of_perm h.transitions hunique, List.find?_map]
  rfl

end Node.Renamed

namespace Chart.Renames

variable {σ : Equiv.Perm Nat} {chart chart' : Chart} (h : Renames σ chart chart')

include h

theorem node?_cases (i : Nat) : (chart.node? i = none ∧ chart'.node? (σ i) = none) ∨
    ∃ n n', chart.node? i = some n ∧ chart'.node? (σ i) = some n' ∧ n.Renamed σ n' := by
  have hrel := h.node i
  rcases hn : chart.node? i with _ | n <;> rcases hn' : chart'.node? (σ i) with _ | n' <;>
    rw [hn, hn'] at hrel <;> cases hrel
  · exact .inl ⟨rfl, rfl⟩
  · rename_i hr
    exact .inr ⟨n, n', rfl, rfl, hr⟩

theorem keyAt_eq (i : Nat) : chart'.keyAt (σ i) = chart.keyAt i := by
  rcases h.node?_cases i with ⟨hn, hn'⟩ | ⟨n, n', hn, hn', hr⟩
  · rw [keyAt, keyAt, hn, hn']
  · rw [Chart.keyAt_eq hn, Chart.keyAt_eq hn', hr.key_eq]

theorem idAt_eq (i : Nat) : chart'.idAt (σ i) = chart.idAt i := by
  rcases h.node?_cases i with ⟨hn, hn'⟩ | ⟨n, n', hn, hn', hr⟩
  · rw [idAt, idAt, hn, hn']
  · simp only [idAt, hn, hn', Option.map_some, hr.id_eq]

theorem kindAt?_eq (i : Nat) : chart'.kindAt? (σ i) = chart.kindAt? i := by
  rcases h.node?_cases i with ⟨hn, hn'⟩ | ⟨n, n', hn, hn', hr⟩
  · rw [kindAt?, kindAt?, hn, hn']
  · rw [Chart.kindAt?_eq hn, Chart.kindAt?_eq hn', hr.kind_eq]

theorem isHistory_eq (i : Nat) : chart'.isHistory (σ i) = chart.isHistory i := by
  rw [isHistory, isHistory, h.kindAt?_eq]

theorem parent?_eq (i : Nat) : chart'.parent? (σ i) = (chart.parent? i).map σ := by
  rcases h.node?_cases i with ⟨hn, hn'⟩ | ⟨n, n', hn, hn', hr⟩
  · rw [parent?, parent?, hn, hn']; rfl
  · rw [Chart.parent?_eq hn, Chart.parent?_eq hn', hr.parent_eq]

theorem entryOf_eq (i : Nat) : chart'.entryOf (σ i) = chart.entryOf i := by
  rcases h.node?_cases i with ⟨hn, hn'⟩ | ⟨n, n', hn, hn', hr⟩
  · rw [entryOf, entryOf, hn, hn']
  · simp only [entryOf, hn, hn', Option.map_some, hr.entry_eq]

theorem exitOf_eq (i : Nat) : chart'.exitOf (σ i) = chart.exitOf i := by
  rcases h.node?_cases i with ⟨hn, hn'⟩ | ⟨n, n', hn, hn', hr⟩
  · rw [exitOf, exitOf, hn, hn']
  · simp only [exitOf, hn, hn', Option.map_some, hr.exit_eq]

/-- The indices of the one table are those of the other. -/
theorem range_perm : (List.range chart'.nodes.size).Perm ((List.range chart.nodes.size).map σ) := by
  have hlt : ∀ (chart : Chart) (i : Nat), i < chart.nodes.size ↔ (chart.node? i).isSome = true :=
    fun chart i => by simp [node?]
  refine (List.perm_ext_iff_of_nodup List.nodup_range
    (List.nodup_range.map σ.injective)).mpr fun i => ?_
  obtain ⟨i, rfl⟩ := σ.surjective i
  rw [List.mem_map_of_injective σ.injective, List.mem_range, List.mem_range, hlt, hlt]
  rcases h.node?_cases i with ⟨hn, hn'⟩ | ⟨n, n', hn, hn', -⟩ <;> simp [hn, hn']

theorem tagsOn_eq (path : List Nat) : chart'.tagsOn (path.map σ) = chart.tagsOn path := by
  have htags : ∀ i, ((chart'.node? (σ i)).map Node.tags).getD [] =
      ((chart.node? i).map Node.tags).getD [] := by
    intro i
    rcases h.node?_cases i with ⟨hn, hn'⟩ | ⟨n, n', hn, hn', hr⟩
    · rw [hn, hn']
    · simp only [hn, hn', Option.map_some, hr.tags_eq]
  rw [tagsOn, tagsOn, List.flatMap_map]
  simp only [htags]

theorem handlerAt?_eq (event : String) (i : Nat) :
    chart'.handlerAt? event (σ i) = (chart.handlerAt? event i).map (Transition.rename σ) := by
  rcases h.node?_cases i with ⟨hn, hn'⟩ | ⟨n, n', hn, hn', hr⟩
  · rw [handlerAt?, handlerAt?, hn, hn']; rfl
  · rw [handlerAt?, handlerAt?, hn, hn']
    exact hr.find?_transitions event

theorem doneTransition?_eq (leaf : Nat) : chart'.doneTransition? (σ leaf) =
    (chart.doneTransition? leaf).map (Transition.rename σ) := by
  rw [doneTransition?, doneTransition?, h.kindAt?_eq, h.parent?_eq]
  split
  · rcases chart.parent? leaf with _ | p
    · rfl
    · rcases h.node?_cases p with ⟨hn, hn'⟩ | ⟨n, n', hn, hn', hr⟩
      · simp [hn, hn']
      · simp [hn, hn', hr.onDone_eq]
  · rfl

section Arena

variable (tree : chart.Arena) (tree' : chart'.Arena)

include tree tree'

/-! ## The tree -/

theorem child?_eq (p : Nat) (key : String) :
    chart'.child? (σ p) key = (chart.child? p key).map σ := by
  refine Option.ext fun c => ?_
  obtain ⟨c, rfl⟩ := σ.surjective c
  rw [tree'.child?_eq_some_iff, h.parent?_eq, h.keyAt_eq]
  constructor
  · rintro ⟨hparent, hkey⟩
    obtain ⟨q, hq, heq⟩ := Option.map_eq_some_iff.mp hparent
    obtain rfl : q = p := σ.injective heq
    rw [tree.child?_eq_some_iff.mpr ⟨hq, hkey⟩]
    rfl
  · intro hchild
    obtain ⟨d, hd, heq⟩ := Option.map_eq_some_iff.mp hchild
    obtain rfl : d = c := σ.injective heq
    obtain ⟨hparent, hkey⟩ := tree.child?_eq_some_iff.mp hd
    exact ⟨by rw [hparent]; rfl, hkey⟩

/-- The nodes of an id correspond. -/
theorem find?_rel (id : String) :
    Option.Rel (Node.Renamed σ) (chart.find? id) (chart'.find? id) := by
  rcases hfind : chart.find? id with _ | n
  · rcases hfind' : chart'.find? id with _ | n'
    · exact .none
    · obtain ⟨i', hi'⟩ := Array.getElem?_of_mem (Array.mem_of_find?_eq_some hfind')
      have hid : n'.id = id := by simpa using Array.find?_some hfind'
      obtain ⟨i, rfl⟩ := σ.surjective i'
      rcases h.node?_cases i with ⟨-, hn'⟩ | ⟨n, m', hn, hn', hr⟩
      · rw [node?, hi'] at hn'; cases hn'
      · obtain rfl := Option.some.inj (hi'.symm.trans hn')
        have hfound := tree.find?_id hn
        rw [← hr.id_eq, hid, hfind] at hfound
        cases hfound
  · obtain ⟨i, hi⟩ := Array.getElem?_of_mem (Array.mem_of_find?_eq_some hfind)
    have hid : n.id = id := by simpa using Array.find?_some hfind
    rcases h.node?_cases i with ⟨hn, -⟩ | ⟨m, n', hn, hn', hr⟩
    · rw [node?, hi] at hn; cases hn
    · obtain rfl := Option.some.inj (hi.symm.trans hn)
      have hfound := tree'.find?_id hn'
      rw [hr.id_eq, hid] at hfound
      rw [hfound]
      exact .some hr

theorem ancestors_eq (i : Nat) : chart'.ancestors (σ i) = (chart.ancestors i).map σ := by
  induction i using Nat.strongRecOn with
  | _ i ih =>
    have hparent := h.parent?_eq i
    rcases hp : chart.parent? i with _ | p
    · rw [hp, Option.map_none] at hparent
      rw [Chart.ancestors_eq, Chart.ancestors_eq, hparent, hp]
      rfl
    · rw [hp, Option.map_some] at hparent
      rw [tree'.ancestors_of_parent hparent, tree.ancestors_of_parent hp,
        ih p (tree.parent?_spec hp).1, List.map_cons]

theorem pathTo_eq (i : Nat) : chart'.pathTo (σ i) = (chart.pathTo i).map σ := by
  rw [pathTo, pathTo, h.ancestors_eq tree tree', List.map_reverse]

theorem properAncestors_eq (i : Nat) :
    chart'.properAncestors (σ i) = (chart.properAncestors i).map σ := by
  rw [properAncestors, properAncestors, h.ancestors_eq tree tree', List.map_drop]

theorem isBelow_eq (i a : Nat) : chart'.isBelow (σ i) (σ a) = chart.isBelow i a := by
  rw [Bool.eq_iff_iff, isBelow, isBelow, List.contains_iff_mem, List.contains_iff_mem,
    h.properAncestors_eq tree tree', List.mem_map_of_injective σ.injective]

theorem descend_eq (i : Nat) : chart'.descend (σ i) = (chart.descend i).map σ := by
  induction i using tree.descend_induction with
  | @compound i c n hn hkind hinitial _ _ hdescend ih =>
    obtain ⟨n', c', hn', hinitial', -, -, hdescend'⟩ := tree'.descend_of_compound
      ((h.kindAt?_eq i).trans ((Chart.kindAt?_eq hn).trans (congrArg some hkind)))
    have hc' : c' = σ c := by
      rcases h.node?_cases i with ⟨hnone, -⟩ | ⟨m, m', hm, hm', hr⟩
      · rw [hn] at hnone; cases hnone
      · obtain rfl := Option.some.inj (hn.symm.trans hm)
        obtain rfl := Option.some.inj (hn'.symm.trans hm')
        rw [hr.initial_eq, hinitial] at hinitial'
        exact (Option.some.inj hinitial').symm
    rw [hdescend, hdescend', hc', ih, List.map_cons]
  | @other i hkind hnil =>
    rw [hnil, descend_of_not_compound (h.kindAt?_eq i ▸ hkind), List.map_nil]

/-! ## Transitions -/

theorem findTransition?_eq (leaf : Nat) (event : String) :
    chart'.findTransition? (σ leaf) event =
      (chart.findTransition? leaf event).map (Transition.rename σ) := by
  rw [findTransition?, findTransition?, h.ancestors_eq tree tree', List.findSome?_map,
    List.map_findSome?]
  exact congrArg (List.findSome? · _) (funext fun i => h.handlerAt?_eq event i)

/-! ## Restoring -/

theorem stateChild?_eq (p : Nat) (key : Json) :
    chart'.stateChild? (σ p) key = (chart.stateChild? p key).map σ := by
  have hchild : key.string?.bind (chart'.child? (σ p)) =
      (key.string?.bind (chart.child? p)).map σ := by
    rw [Option.map_bind]
    exact congrArg _ (funext (h.child?_eq tree tree' p))
  rw [stateChild?, stateChild?, hchild]
  rcases key.string?.bind (chart.child? p) with _ | child
  · rfl
  · simp only [Option.map_some, h.isHistory_eq]
    split <;> rfl

theorem walk_eq (i : Nat) (keys : List Json) :
    chart'.walk (σ i) keys = (chart.walk i keys).map σ := by
  induction keys generalizing i with
  | nil => rfl
  | cons key rest ih =>
    rw [walk, walk, h.stateChild?_eq tree tree', h.idAt_eq]
    rcases chart.stateChild? i key with _ | child
    · rfl
    · exact ih child

theorem leafOf_eq (path : Json) : chart'.leafOf path = (chart.leafOf path).map σ := by
  have hroot := h.keyAt_eq 0
  rw [h.root] at hroot
  unfold leafOf
  split
  · rename_i first rest
    rw [hroot]
    split
    · have hwalk := h.walk_eq tree tree' 0 rest
      rw [h.root] at hwalk
      rw [hwalk]
      rcases chart.walk 0 rest with corruption | leaf
      · rfl
      · simp only [Except.map, bind, Except.bind, h.kindAt?_eq, h.idAt_eq]
        split <;> rfl
    · rfl
  · rfl

theorem fitHistory_eq (members : List (String × Json)) :
    chart'.fitHistory members = chart.fitHistory members := by
  induction members with
  | nil => rfl
  | cons member rest ih =>
    obtain ⟨id, key⟩ := member
    have hfind := h.find?_rel tree tree' id
    rw [fitHistory, fitHistory, ih]
    rcases hn : chart.find? id with _ | n <;> rcases hn' : chart'.find? id with _ | n' <;>
      rw [hn, hn'] at hfind <;> cases hfind
    · rfl
    · rename_i hr
      have howner : n'.history.isSome = n.history.isSome := by
        rw [hr.history_eq, Option.isSome_map]
      simp only [Option.filter_some, howner]
      by_cases hsome : n.history.isSome = true
      · simp only [if_pos hsome, hr.index_eq, h.stateChild?_eq tree tree']
        rcases chart.stateChild? n.index key with _ | child <;> rfl
      · simp only [if_neg hsome]

end Arena

theorem fitContext_eq (context : Context) :
    chart'.fitContext context = chart.fitContext context :=
  fitContext_congr h.context_eq context

theorem fitGiven_eq (given : Json) : chart'.fitGiven given = chart.fitGiven given :=
  fitGiven_congr h.context_eq given

end Chart.Renames

end Lifecycle
