import Lifecycle.Proofs.Interpreter.Failure
import Lifecycle.Proofs.Interpreter.Revival
import Lifecycle.Proofs.Lead.Chart

/-!
# What restoring accepts

A persisted value is accepted exactly when it describes a state of the chart (`Chart.Describes`): an
active path, records of children that may be gone back to, and a context with values that may stand
for the defaults. What is not accepted is refused with a cause that tells of the state. What is
accepted stays as it is when it is stored again, and is then restored as the same
(`restore_describes`).
-/

namespace Lifecycle

namespace Chart

variable {chart : Chart} {i leaf : Nat} {path : List Nat}

/-! ## Active paths -/

/-- Nodes from the root down to a leaf, each the parent of the next one and none a history node. -/
structure IsActivePath (chart : Chart) (path : List Nat) : Prop where
  head?_eq : path.head? = some 0
  isChain : path.IsChain fun p c => chart.parent? c = some p
  isState : ∀ i ∈ path, chart.isHistory i = false
  isLeaf : ∃ leaf, path.getLast? = some leaf ∧ chart.IsLeaf leaf

section Arena

variable (tree : chart.Arena)

include tree

/-- Nodes that follow one another down are on the path to the last of them. -/
theorem Arena.pathTo_of_isChain {below : List Nat}
    (hchain : (i :: below).IsChain fun p c => chart.parent? c = some p)
    (hlast : (i :: below).getLast? = some leaf) : chart.pathTo leaf = chart.pathTo i ++ below := by
  induction below generalizing i with
  | nil =>
    obtain rfl : i = leaf := Option.some.inj hlast
    exact (List.append_nil _).symm
  | cons j rest ih =>
    obtain ⟨hparent, hrest⟩ := List.isChain_cons_cons.mp hchain
    rw [List.getLast?_cons_cons] at hlast
    rw [ih hrest hlast, tree.pathTo_of_parent hparent, List.append_assoc]
    rfl

/-- The path to a leaf is active, and no other is. -/
theorem Arena.isActivePath_iff :
    chart.IsActivePath path ↔ ∃ leaf, chart.IsLeaf leaf ∧ path = chart.pathTo leaf := by
  constructor
  · rintro ⟨hhead, hchain, -, leaf, hlast, hleaf⟩
    obtain ⟨below, rfl⟩ := List.head?_eq_some_iff.mp hhead
    refine ⟨leaf, hleaf, ?_⟩
    rw [tree.pathTo_of_isChain hchain hlast, tree.pathTo_zero]
    rfl
  · rintro ⟨leaf, hleaf, rfl⟩
    obtain ⟨n, hn⟩ := hleaf.exists_node
    exact ⟨tree.head?_pathTo hn, isChain_pathTo chart leaf,
      fun i hi => tree.isHistory_of_mem_ancestors hleaf (mem_pathTo.mp hi),
      leaf, getLast?_pathTo chart leaf, hleaf⟩

end Arena

/-! ## Contexts -/

/-- A value may stand for a default: any value for null, a boolean for an integer, too, and else
one of the same kind. -/
def Replaces (default value : Json) : Prop :=
  default = .null ∨ value.kindName = default.kindName ∨
    default.kindName = "int" ∧ value.kindName = "bool"

theorem fitsKind_iff {default value : Json} : fitsKind default value = true ↔
    Replaces default value := by
  cases default <;> cases value <;> simp [fitsKind, Replaces, Json.kindName]

/-- The keys of an object fit when they are in the schema, each with a value for its default. -/
theorem fitContext_ofMembers_eq_ok {members : Entries Json} {fitted : Context} :
    chart.fitContext (Context.ofMembers members) = .ok fitted ↔
      (∀ member ∈ members, ∃ default,
        Entries.get? chart.context (.text member.1) = some default ∧ Replaces default member.2) ∧
      Entries.overlay chart.context (Context.ofMembers members) = fitted := by
  rw [fitContext_eq_ok, ← and_assoc]
  refine and_congr_left fun _ => ?_
  rw [Context.keys_ofMembers, Entries.keys, List.forall_mem_map, List.forall_mem_map,
    Context.ofMembers, Json.pairsOf, List.forall_mem_map, ← forall₂_and]
  refine forall₂_congr fun member _ => ?_
  rw [Entries.has, fitsKind_iff]
  rcases Entries.get? chart.context (.text member.1) with _ | default <;> simp

/-- What has been fitted fits as it is. -/
theorem fitContext_of_fitContext (schema : Entries.IsMap chart.context) {context fitted : Context}
    (h : chart.fitContext context = .ok fitted) : chart.fitContext fitted = .ok fitted := by
  have hrestorable := restorable_of_fitContext schema h
  obtain ⟨hkeys, -, rfl⟩ := fitContext_eq_ok.mp h
  exact fitContext_eq_ok.mpr ⟨hrestorable.keyed.has_of_mem,
    hrestorable.keyed.restorable_iff.mp hrestorable, schema.overlay_eq (Entries.keys_overlay hkeys)⟩

end Chart

/-! ## Objects -/

/-- A field holds the members of an object; absent or null it holds none. -/
def Interpreter.Holds (fields : Entries Json) (name : String) (members : Entries Json) : Prop :=
  Entries.get? fields name = some (.obj members) ∨
    members = [] ∧ (Entries.get? fields name = none ∨ Entries.get? fields name = some .null)

open Interpreter (Holds)

/-- The fields of an object describe a state: the keys of an active path, records that each name a
state below a node with history, and members that are keys of the schema with values for their
defaults. -/
structure Chart.Describes (chart : Chart) (fields : Entries Json) (path : List Nat)
    (records : Entries String) (members : Entries Json) : Prop where
  path_eq : Entries.get? fields "active_path" =
    some (.arr (path.map fun i => .str (chart.keyAt i)))
  isActivePath : chart.IsActivePath path
  history : Holds fields "history" (records.map fun entry => (entry.1, .str entry.2))
  fits : ∀ entry ∈ records, chart.FitsAt entry.1 entry.2
  context : Holds fields "context" members
  replaces : ∀ member ∈ members, ∃ default,
    Entries.get? chart.context (.text member.1) = some default ∧ Chart.Replaces default member.2

namespace Interpreter

variable {chart : Chart} {fields members : Entries Json} {records : Entries String}
  {name : Option String} {m : Interpreter} {value : Json} {leaf : Nat}

theorem objectField_eq_ok {field : String} :
    objectField fields field = .ok members ↔ Holds fields field members := by
  unfold objectField Holds
  split <;> rename_i hget <;> rw [hget]
  · simp [eq_comm]
  · simp [eq_comm]
  · simp
  · rename_i hnull hobject
    simpa using ⟨hobject members, fun _ => hnull⟩

/-- What cannot be restored is refused with a cause that tells of the state. -/
theorem isTold_of_restore {found : Corruption} (h : restore chart value name = .error found) :
    found.isTold = true := by
  have hfield {fields : Entries Json} {field : String}
      (h : objectField fields field = .error found) : found.isTold = true := by
    unfold objectField at h
    split at h <;> cases h
    rfl
  unfold restore at h
  split at h
  · rcases bind_eq_error.mp h with h | ⟨history, -, h⟩
    · exact hfield h
    · rcases bind_eq_error.mp h with h | ⟨members, -, h⟩
      · exact hfield h
      · refine isTold_of_resume (fun key hkey => ?_) h
        rw [Context.keys_ofMembers] at hkey
        obtain ⟨text, -, rfl⟩ := List.mem_map.mp hkey
        rfl
  · cases h
    rfl

/-- What is restored is an object that describes a state. -/
theorem exists_describes_of_restore (tree : chart.Arena) (h : restore chart value name = .ok m) :
    ∃ fields path records members, value = .obj fields ∧
      chart.Describes fields path records members := by
  unfold restore at h
  split at h
  · rename_i fields
    obtain ⟨history, hhistory, h⟩ := bind_eq_ok.mp h
    obtain ⟨members, hmembers, h⟩ := bind_eq_ok.mp h
    obtain ⟨leaf, hleaf, h⟩ := bind_eq_ok.mp h
    obtain ⟨records, hrecords, h⟩ := bind_eq_ok.mp h
    obtain ⟨fitted, hfitted, -⟩ := bind_eq_ok.mp h
    obtain ⟨rfl, hfits⟩ := Chart.exists_records_of_fitHistory tree hrecords
    obtain ⟨hreplaces, -⟩ := Chart.fitContext_ofMembers_eq_ok.mp hfitted
    have hpath : Entries.get? fields "active_path" =
        some (.arr ((chart.pathTo leaf).map fun i => .str (chart.keyAt i))) := by
      have hlists := tree.eq_of_leafOf hleaf
      rcases hget : Entries.get? fields "active_path" with _ | path <;> rw [hget] at hlists
      · cases hlists
      · exact congrArg some hlists
    have hactive := tree.isActivePath_iff.mpr ⟨leaf, Chart.isLeaf_of_leafOf hleaf, rfl⟩
    exact ⟨fields, _, records, members, rfl, hpath, hactive, objectField_eq_ok.mp hhistory, hfits,
      objectField_eq_ok.mp hmembers, hreplaces⟩
  · cases h

/-- An object is restored in the state that it describes. -/
theorem restore_of_describes (tree : chart.Arena) {path : List Nat}
    (h : chart.Describes fields path records members) (name : Option String) :
    ∃ leaf, path = chart.pathTo leaf ∧ chart.IsLeaf leaf ∧
      restore chart (.obj fields) name = .ok (resumed chart
        ⟨leaf, Entries.overlay chart.context (Context.ofMembers members), records⟩ name) := by
  obtain ⟨leaf, hleaf, rfl⟩ := tree.isActivePath_iff.mp h.isActivePath
  refine ⟨leaf, rfl, hleaf, ?_⟩
  rw [restore, objectField_eq_ok.mpr h.history, objectField_eq_ok.mpr h.context]
  show resume chart _ _ _ name = _
  rw [resume, h.path_eq, Option.getD_some, tree.leafOf_pathTo hleaf, tree.fitHistory_eq h.fits,
    Chart.fitContext_ofMembers_eq_ok.mpr ⟨h.replaces, rfl⟩]
  rfl

theorem pathJson_resumed (chart : Chart) (s : Situation) (name : Option String) :
    (resumed chart s name).observe.layout.pathJson =
      .arr ((chart.pathTo s.leaf).map fun i => .str (chart.keyAt i)) :=
  congrArg Json.arr (List.map_map ..)

/-- What is restored in a situation is stored with the context over the defaults, and restored from
that as the same. -/
theorem ofLayout_resumed (tree : chart.Arena) {s : Situation} (hleaf : chart.IsLeaf s.leaf)
    (hfits : ∀ entry ∈ s.history, chart.FitsAt entry.1 entry.2)
    (hcontext : chart.fitContext s.context = .ok s.context) (name name' : Option String) :
    ofLayout chart (resumed chart s name).observe.layout name' = .ok (resumed chart s name') := by
  have hdisplays : Displays chart (resumed chart s name).observe s.leaf := ⟨hleaf, rfl, rfl, hfits⟩
  have hshown : (resumed chart s name).observe.context = s.context := rfl
  rw [hdisplays.ofLayout_eq tree, hshown, hcontext]
  rfl

end Interpreter

end Lifecycle
