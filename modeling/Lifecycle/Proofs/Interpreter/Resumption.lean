import Lifecycle.Proofs.Chart.Schema
import Lifecycle.Proofs.Interpreter.Course

/-!
# Restoring what was shown

The layout of a snapshot leads back to the state that it was taken of. The keys of an active path
lead to its leaf (`Arena.leafOf_pathTo`), records that fit are read as they are
(`Arena.fitHistory_eq`), and a restorable context is taken over (`Restorable.exists_fitContext`), so
the run that the layout of a run at rest describes is in the same situation (`Rests.ofLayout`). Only
its status is found anew: whether the leaf is final and nothing is pending there.
-/

namespace Lifecycle

namespace Chart

variable {chart : Chart} {c i leaf p : Nat} {history : Entries String} {s s' : Situation}
  {passage : Passage} {passages : List Passage}

section Arena

variable (tree : chart.Arena)

include tree

theorem Arena.stateChild?_keyAt (hparent : chart.parent? c = some p)
    (hstate : chart.isHistory c = false) :
    chart.stateChild? p (.str (chart.keyAt c)) = some c := by
  have hchild : (Json.str (chart.keyAt c)).string?.bind (chart.child? p) = some c :=
    tree.child?_keyAt hparent
  simp [stateChild?, hchild, hstate]

/-- The keys of nodes that follow one another down lead to the last of them. -/
theorem Arena.walk_keys {below : List Nat}
    (hchain : (i :: below).IsChain fun p c => chart.parent? c = some p)
    (hstates : ∀ j ∈ below, chart.isHistory j = false) :
    chart.walk i (below.map fun j => .str (chart.keyAt j)) =
      .ok ((i :: below).getLast (List.cons_ne_nil i below)) := by
  induction below generalizing i with
  | nil => rfl
  | cons j rest ih =>
    obtain ⟨hparent, hrest⟩ := List.isChain_cons_cons.mp hchain
    have hchild := tree.stateChild?_keyAt hparent (hstates j List.mem_cons_self)
    rw [List.map_cons, walk, hchild, List.getLast_cons (List.cons_ne_nil j rest)]
    exact ih hrest fun k hk => hstates k (List.mem_cons_of_mem _ hk)

/-- The keys of an active path lead to its leaf. -/
theorem Arena.leafOf_pathTo (hleaf : chart.IsLeaf leaf) :
    chart.leafOf (.arr ((chart.pathTo leaf).map fun i => .str (chart.keyAt i))) = .ok leaf := by
  obtain ⟨n, hn⟩ := hleaf.exists_node
  obtain ⟨below, hpath⟩ : ∃ below, chart.pathTo leaf = 0 :: below :=
    List.head?_eq_some_iff.mp (tree.head?_pathTo hn)
  have hchain := isChain_pathTo chart leaf
  have hstates : ∀ j ∈ below, chart.isHistory j = false := fun j hj =>
    tree.isHistory_of_mem_ancestors hleaf (mem_pathTo.mp (hpath ▸ List.mem_cons_of_mem _ hj))
  have hlast := getLast?_pathTo chart leaf
  rw [hpath] at hchain hlast ⊢
  have hwalk := tree.walk_keys hchain hstates
  rw [List.getLast?_eq_some_getLast (List.cons_ne_nil 0 below)] at hlast
  have hroot : (Json.str (chart.keyAt 0)).string? = some (chart.keyAt 0) := rfl
  rw [List.map_cons, leafOf, if_pos hroot, hwalk, Option.some.inj hlast]
  exact if_pos hleaf

/-- Records that fit are read as they are. -/
theorem Arena.fitHistory_eq (h : ∀ entry ∈ history, chart.FitsAt entry.1 entry.2) :
    chart.fitHistory (history.map fun entry => (entry.1, .str entry.2)) = .ok history := by
  induction history with
  | nil => rfl
  | cons entry rest ih =>
    obtain ⟨id, key⟩ := entry
    obtain ⟨i, n, c, hn, rfl, howner, hparent, rfl, hstate⟩ := h (id, key) List.mem_cons_self
    have hfind : (chart.find? n.id).filter (fun n => n.history.isSome) = some n := by
      rw [tree.find?_id hn, Option.filter_some, if_pos howner]
    have hchild := tree.stateChild?_keyAt hparent hstate
    rw [List.map_cons, fitHistory, hfind]
    simp only [tree.index_eq hn, hchild, ih fun e he => h e (List.mem_cons_of_mem _ he)]
    rfl

end Arena

theorem Fits.fitsAt (hfits : chart.Fits history) (hnodup : (Entries.keys history).Nodup) :
    ∀ entry ∈ history, chart.FitsAt entry.1 entry.2 :=
  fun _ hentry => hfits _ _ (Entries.get?_of_mem hnodup hentry)

/-- No node comes up twice in the records of a run. -/
theorem LeadsTo.nodup_keys (h : chart.LeadsTo s passages s')
    (hnodup : (Entries.keys s.history).Nodup) : (Entries.keys s'.history).Nodup := by
  induction h with
  | refl => exact hnodup
  | cons hleads _ ih =>
    refine ih ?_
    rw [hleads.history_after]
    exact Entries.nodup_keys_overlay _ hnodup

/-- No node comes up twice in the records of a run from its start on. -/
theorem Begins.nodup_keys {context : Context} (h : chart.Begins context s)
    (hleads : chart.LeadsTo s passages s') : (Entries.keys s'.history).Nodup := by
  refine hleads.nodup_keys ?_
  rw [h.history_eq]
  exact .nil

/-- The status that a run is restored with at a leaf. -/
def restoredStatus (chart : Chart) (leaf : Nat) : Status :=
  if chart.kindAt? leaf = some .final ∧ (chart.doneTransition? leaf).isNone then .done else .running

theorem restoredStatus_eq_done_iff : chart.restoredStatus leaf = .done ↔
    chart.kindAt? leaf = some .final ∧ chart.doneTransition? leaf = none := by
  unfold restoredStatus
  split <;> simp_all

theorem restoredStatus_eq_running_iff : chart.restoredStatus leaf = .running ↔
    ¬(chart.kindAt? leaf = some .final ∧ chart.doneTransition? leaf = none) := by
  unfold restoredStatus
  split <;> simp_all

end Chart

namespace Interpreter

variable {m : Interpreter} {chart : Chart} {s : Situation}

/-- The run that is restored in a situation. -/
def resumed (chart : Chart) (s : Situation) (name : Option String) : Interpreter :=
  { fresh chart s.context name with
    leaf := some s.leaf
    history := s.history
    status := chart.restoredStatus s.leaf }.publish

theorem stands_resumed (chart : Chart) (s : Situation) (name : Option String) :
    (resumed chart s name).Stands chart s := ⟨rfl, rfl, rfl, rfl⟩

/-- A snapshot shows the path to a leaf with its tags, and records that a chart can go on from. -/
structure Displays (chart : Chart) (shown : Snapshot) (leaf : Nat) : Prop where
  isLeaf : chart.IsLeaf leaf
  path_eq : shown.path = (chart.pathTo leaf).map chart.keyAt
  tags_eq : shown.tags = chart.tagsOn (chart.pathTo leaf)
  fits : ∀ entry ∈ shown.history, chart.FitsAt entry.1 entry.2

/-- The layout of such a snapshot leads back to the leaf and the records; the context is fitted to
the schema. -/
theorem Displays.ofLayout_eq {shown : Snapshot} {leaf : Nat} (h : Displays chart shown leaf)
    (tree : chart.Arena) (name : Option String) :
    ofLayout chart shown.layout name = (chart.fitContext shown.context).map fun fitted =>
      resumed chart ⟨leaf, fitted, shown.history⟩ name := by
  have hpath : shown.layout.pathJson =
      .arr ((chart.pathTo leaf).map fun i => .str (chart.keyAt i)) := by
    simp [Layout.pathJson, Snapshot.layout, h.path_eq, Function.comp_def]
  have hrecords : chart.fitHistory shown.layout.historyMembers = .ok shown.history :=
    tree.fitHistory_eq h.fits
  rw [Interpreter.ofLayout, resume, hpath, tree.leafOf_pathTo h.isLeaf, hrecords]
  show (chart.fitContext shown.context >>= _) = _
  cases chart.fitContext shown.context <;> rfl

/-- What a run that can go on would show displays its leaf. -/
theorem Stands.displays_observe (h : m.Stands chart s) (hs : chart.Situated s)
    (hnodup : (Entries.keys s.history).Nodup) : Displays chart m.observe s.leaf := by
  refine ⟨hs.isLeaf, ?_, ?_, ?_⟩
  · rw [observe, h.path_eq, h.chart_eq]
  · rw [observe, h.path_eq, h.chart_eq]
  · rw [observe, h.history_eq]
    exact hs.fits.fitsAt hnodup

/-- The layout of a run at rest leads back to its leaf and its records; the context is fitted to the
schema. -/
theorem Rests.ofLayout_eq (h : m.Rests chart s) (tree : chart.Arena)
    (hnodup : (Entries.keys s.history).Nodup) (name : Option String) :
    ofLayout chart m.observe.layout name = (chart.fitContext s.context).map fun fitted =>
      resumed chart ⟨s.leaf, fitted, s.history⟩ name := by
  rw [(h.toStands.displays_observe h.situated hnodup).ofLayout_eq tree, ← h.context_eq,
    ← h.history_eq]
  rfl

/-- The layout of a run at rest describes the run restored in its situation. -/
theorem Rests.ofLayout (h : m.Rests chart s) (tree : chart.Arena)
    (schema : Entries.IsMap chart.context) (hcontext : chart.Restorable s.context)
    (hnodup : (Entries.keys s.history).Nodup) (name : Option String) :
    ∃ fitted, chart.Alike s.context fitted ∧
      ofLayout chart m.observe.layout name =
        .ok (resumed chart ⟨s.leaf, fitted, s.history⟩ name) := by
  obtain ⟨fitted, hfitted, halike⟩ := hcontext.exists_fitContext schema
  exact ⟨fitted, halike, by rw [h.ofLayout_eq tree hnodup, hfitted]; rfl⟩

/-- A layout whose context has texts as keys is restored from the object that it is written as. -/
theorem restore_toJson (chart : Chart) {layout : Layout}
    (h : ∀ key ∈ Entries.keys layout.context, key.isText = true) (name : Option String) :
    restore chart layout.toJson name = Interpreter.ofLayout chart layout name := by
  have hfields : restore chart layout.toJson name = resume chart layout.pathJson
      layout.historyMembers
      (Context.ofMembers (layout.context.map fun entry => (entry.1.written, entry.2))) name := rfl
  rw [hfields, Context.ofMembers_written h, Interpreter.ofLayout]

end Interpreter

end Lifecycle
