import Lifecycle.Proofs.Chart.Assignments
import Lifecycle.Proofs.Interpreter.Resumption

/-!
# What a layout is restored as

A layout that can be restored gives a run in the state that is stored, with the context over the
defaults of the schema (`asStored_ofLayout`). A layout that cannot, with a context that has texts as
keys, is refused for what it says of the state: no check fails in another way
(`isTold_of_resume`).
-/

namespace Lifecycle

/-- Whether a cause is told of the state. A text beyond the limits of reading, and values that do
not do as an object, make other failures. -/
def Corruption.isTold : Corruption → Bool
  | .textExcess _ | .flawed _ => false
  | _ => true

namespace Chart

variable {chart : Chart} {i leaf : Nat} {found : Corruption}

/-- The keys of a walk are those of the nodes that it passes. -/
theorem Arena.pathTo_of_walk (tree : chart.Arena) {keys : List Json}
    (h : chart.walk i keys = .ok leaf) : ∃ below, chart.pathTo leaf = chart.pathTo i ++ below ∧
      keys = below.map fun j => .str (chart.keyAt j) := by
  induction keys generalizing i with
  | nil =>
    obtain rfl := Except.ok.inj h
    exact ⟨[], (List.append_nil _).symm, rfl⟩
  | cons key rest ih =>
    rw [walk] at h
    split at h
    · rename_i child hchild
      obtain ⟨text, rfl, hchild, -⟩ := exists_child?_of_stateChild? hchild
      obtain ⟨hparent, rfl⟩ := tree.child?_eq_some_iff.mp hchild
      obtain ⟨below, hpath, rfl⟩ := ih h
      refine ⟨child :: below, ?_, rfl⟩
      rw [hpath, tree.pathTo_of_parent hparent, List.append_assoc]
      rfl
    · cases h

/-- A value that leads to a leaf lists the keys of the active path there. -/
theorem Arena.eq_of_leafOf (tree : chart.Arena) {value : Json} (h : chart.leafOf value = .ok leaf) :
    value = .arr ((chart.pathTo leaf).map fun i => .str (chart.keyAt i)) := by
  unfold leafOf at h
  split at h
  · rename_i first rest
    split at h
    · rename_i hroot
      obtain ⟨i, hwalk, h⟩ := bind_eq_ok.mp h
      split at h
      · cases h
        obtain ⟨below, hpath, rfl⟩ := tree.pathTo_of_walk hwalk
        obtain rfl : first = .str (chart.keyAt 0) := by
          cases first with
          | str text => exact congrArg Json.str (Option.some.inj hroot)
          | _ => cases hroot
        rw [hpath, tree.pathTo_zero]
        rfl
      · cases h
    · cases h
  · cases h

/-- The active path of the leaf that a path leads to is this path. -/
theorem Arena.path_of_leafOf (tree : chart.Arena) {path : List String}
    (h : chart.leafOf (.arr (path.map .str)) = .ok leaf) :
    (chart.pathTo leaf).map chart.keyAt = path := by
  refine List.map_injective_iff.mpr (fun _ _ => Json.str.inj) ?_
  rw [Json.arr.inj (tree.eq_of_leafOf h), List.map_map]
  rfl

/-! ## Refusals -/

theorem isTold_of_walk {keys : List Json} (h : chart.walk i keys = .error found) :
    found.isTold = true := by
  induction keys generalizing i with
  | nil => cases h
  | cons key rest ih =>
    rw [walk] at h
    split at h
    · exact ih h
    · cases h; rfl

theorem isTold_of_leafOf {path : Json} (h : chart.leafOf path = .error found) :
    found.isTold = true := by
  unfold leafOf at h
  split at h
  · split at h
    · rcases bind_eq_error.mp h with h | ⟨i, -, h⟩
      · exact isTold_of_walk h
      · split at h <;> cases h
        rfl
    · cases h; rfl
  · cases h; rfl

theorem isTold_of_fitHistory {members : List (String × Json)}
    (h : chart.fitHistory members = .error found) : found.isTold = true := by
  induction members with
  | nil => cases h
  | cons member rest ih =>
    rw [fitHistory] at h
    split at h
    · cases h; rfl
    · split at h
      · cases h; rfl
      · exact ih (map_eq_error.mp h)

/-- Keys that are texts can be sorted, and so they are told when they are unknown. -/
theorem isTold_of_checkKeys {keys : List Json.Key} (htexts : ∀ key ∈ keys, key.isText = true)
    (h : chart.checkKeys keys = .error found) : found.isTold = true := by
  have hall : ((keys.filter fun key => !Entries.has chart.context key).map (·, ())).all
      (fun entry => entry.1.isText) = true := by
    rw [List.all_eq_true, List.forall_mem_map]
    exact fun key hkey => htexts key (List.mem_of_mem_filter hkey)
  simp only [checkKeys, Json.sortEntries, if_pos hall] at h
  split at h <;> cases h
  rfl

theorem isTold_of_fitContext {context : Context}
    (htexts : ∀ key ∈ Entries.keys context, key.isText = true)
    (h : chart.fitContext context = .error found) : found.isTold = true := by
  rcases bind_eq_error.mp h with h | ⟨_, -, h⟩
  · exact isTold_of_checkKeys htexts h
  · rcases bind_eq_error.mp h with h | ⟨_, -, h⟩
    · obtain ⟨_, -, -, rfl⟩ := checkKinds_error h
      rfl
    · cases h

end Chart

namespace Interpreter

variable {chart : Chart} {layout : Layout} {name : Option String} {m : Interpreter}

/-- A run that has been restored from a layout, in the state that is stored there: the path, the
history records, and the context over the defaults of the schema. It is done where nothing goes on
from its leaf. -/
structure AsStored (m : Interpreter) (chart : Chart) (name : Option String) (stored : Layout) :
    Prop where
  chart_eq : m.chart = chart
  name_eq : m.name = (fresh chart chart.context name).name
  path_eq : m.observe.path = stored.path
  history_eq : m.history = stored.history
  context_eq : m.context = Entries.overlay chart.context stored.context
  status_eq : ∃ leaf, m.leaf = some leaf ∧ m.status = chart.restoredStatus leaf
  snapshot_eq : m.snapshot = some m.observe

/-- What a layout is restored as is in the state that is stored. -/
theorem asStored_ofLayout (tree : chart.Arena) (h : ofLayout chart layout name = .ok m) :
    m.AsStored chart name layout := by
  obtain ⟨leaf, hleaf, h⟩ := bind_eq_ok.mp h
  obtain ⟨records, hrecords, h⟩ := bind_eq_ok.mp h
  obtain ⟨fitted, hfitted, h⟩ := bind_eq_ok.mp h
  obtain ⟨-, -, rfl⟩ := Chart.fitContext_eq_ok.mp hfitted
  obtain rfl :
      resumed chart ⟨leaf, Entries.overlay chart.context layout.context, records⟩ name = m :=
    Except.ok.inj h
  exact ⟨rfl, rfl, tree.path_of_leafOf hleaf, tree.eq_of_fitHistory hrecords, rfl,
    ⟨leaf, rfl, rfl⟩, rfl⟩

/-- What is wrong with a path, records and a context that has texts as keys is told of the state. -/
theorem isTold_of_resume {path : Json} {history : Entries Json} {context : Context}
    (htexts : ∀ key ∈ Entries.keys context, key.isText = true) {found : Corruption}
    (h : resume chart path history context name = .error found) : found.isTold = true := by
  rcases bind_eq_error.mp h with h | ⟨leaf, -, h⟩
  · exact Chart.isTold_of_leafOf h
  · rcases bind_eq_error.mp h with h | ⟨records, -, h⟩
    · exact Chart.isTold_of_fitHistory h
    · rcases bind_eq_error.mp h with h | ⟨fitted, -, h⟩
      · exact Chart.isTold_of_fitContext htexts h
      · cases h

theorem ofLayout_ne_flawed (htexts : ∀ key ∈ Entries.keys layout.context, key.isText = true)
    {cause : Json.Flaw} : ofLayout chart layout name ≠ .error (.flawed cause) := by
  intro h
  cases isTold_of_resume htexts h

end Interpreter

end Lifecycle
