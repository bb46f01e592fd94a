import Lifecycle.Interpreter.Restore
import Lifecycle.Proofs.Chart.Arena
import Lifecycle.Proofs.Entries
import Lifecycle.Proofs.Outcome

/-!
# History records

Records fit a chart when each names a state below a node that has history (`Chart.Fits`); what
restoring accepts fits (`fits_of_fitHistory`). A microstep records for each owner of history that it
leaves the child that was active (`Arena.recordsOf_spec`), which leaves the other records as they
were (`RecordsLeft.get?_of_notMem`), and a history node stands for the recorded child
(`remembered_spec`).
-/

namespace Lifecycle.Chart

variable {chart : Chart} {i c p leaf : Nat} {history records : Entries String}

/-- A record names a state below a node that has history. -/
def FitsAt (chart : Chart) (id key : String) : Prop :=
  ∃ i n c, chart.node? i = some n ∧ n.id = id ∧ n.history.isSome = true ∧
    chart.parent? c = some i ∧ chart.keyAt c = key ∧ chart.isHistory c = false

/-- Every record names a state below a node that has history. -/
def Fits (chart : Chart) (history : Entries String) : Prop :=
  ∀ id key, Entries.get? history id = some key → chart.FitsAt id key

theorem fits_nil (chart : Chart) : chart.Fits [] := nofun

theorem exists_node_of_find? {id : String} {n : Node} (h : chart.find? id = some n) :
    ∃ i, chart.node? i = some n ∧ n.id = id := by
  obtain ⟨i, hi⟩ := Array.getElem?_of_mem (Array.mem_of_find?_eq_some h)
  exact ⟨i, hi, by simpa using Array.find?_some h⟩

/-- The child of a key in a layout is a state. -/
theorem exists_child?_of_stateChild? {value : Json} (h : chart.stateChild? p value = some c) :
    ∃ key, value = .str key ∧ chart.child? p key = some c ∧ chart.isHistory c = false := by
  unfold stateChild? at h
  split at h
  · rename_i child hchild
    split at h
    · cases h
    · rename_i hhistory
      obtain rfl := Option.some.inj h
      obtain ⟨key, hkey, hchild⟩ := Option.bind_eq_some_iff.mp hchild
      refine ⟨key, ?_, hchild, by simpa using hhistory⟩
      cases value with
      | str text => exact congrArg Json.str (Option.some.inj hkey)
      | _ => cases hkey
  · cases h

/-- Records are read as they stand, and each of them fits the chart. -/
theorem exists_records_of_fitHistory (tree : chart.Arena) {members : List (String × Json)}
    (h : chart.fitHistory members = .ok history) :
    members = history.map (fun entry => (entry.1, .str entry.2)) ∧
      ∀ entry ∈ history, chart.FitsAt entry.1 entry.2 := by
  induction members generalizing history with
  | nil => cases h; exact ⟨rfl, nofun⟩
  | cons member rest ih =>
    obtain ⟨id, value⟩ := member
    rw [fitHistory] at h
    split at h
    · cases h
    · rename_i n hn
      obtain ⟨hfind, howner⟩ := Option.filter_eq_some_iff.mp hn
      obtain ⟨i, hi, rfl⟩ := exists_node_of_find? hfind
      split at h
      · cases h
      · rename_i c hc
        obtain ⟨others, hothers, rfl⟩ := map_eq_ok.mp h
        obtain ⟨key, rfl, hchild, hhistory⟩ := exists_child?_of_stateChild? hc
        rw [tree.index_eq hi] at hchild
        obtain ⟨hparent, hkeyAt⟩ := tree.child?_eq_some_iff.mp hchild
        obtain ⟨hrest, hfits⟩ := ih hothers
        refine ⟨congrArg (_ :: ·) hrest, List.forall_mem_cons.mpr ⟨?_, hfits⟩⟩
        exact ⟨i, n, c, hi, rfl, howner, hparent, hkeyAt, hhistory⟩

/-- Records of a layout are taken over as they stand. -/
theorem Arena.eq_of_fitHistory (tree : chart.Arena) {records history : Entries String}
    (h : chart.fitHistory (records.map fun entry => (entry.1, .str entry.2)) = .ok history) :
    history = records := by
  refine List.map_injective_iff.mpr (fun entry other heq => ?_)
    (exists_records_of_fitHistory tree h).1.symm
  obtain ⟨hid, hkey⟩ := Prod.mk.inj heq
  exact Prod.ext hid (Json.str.inj hkey)

/-- Records that restoring accepts fit the chart. -/
theorem fits_of_fitHistory (tree : chart.Arena) {members : List (String × Json)}
    (h : chart.fitHistory members = .ok history) : chart.Fits history := by
  intro id key hget
  obtain ⟨k, hk, hkey⟩ := Entries.exists_mem_of_get? hget
  obtain rfl := eq_of_beq hkey
  exact (exists_records_of_fitHistory tree h).2 _ hk

/-! ## What a microstep records -/

/-- The node owns a history node and is recorded when it is left. -/
theorem recordsOf_cons_owner {i : Nat} {rest : List Nat} {n : Node} (hn : chart.node? i = some n)
    (hkind : n.kind = .compound) (howner : n.history.isSome = true)
    (hc : chart.next? leaf i = some c) :
    chart.recordsOf leaf (i :: rest) =
      (chart.recordsOf leaf rest).map ((n.id, chart.keyAt c) :: ·) := by
  simp only [recordsOf, hn, if_pos (And.intro hkind howner), hc]

theorem recordsOf_cons_other {i : Nat} {rest : List Nat}
    (h : ∀ n, chart.node? i = some n → ¬ (n.kind = .compound ∧ n.history.isSome = true)) :
    chart.recordsOf leaf (i :: rest) = chart.recordsOf leaf rest := by
  rw [recordsOf]
  split
  · rfl
  · rename_i n hn
    rw [if_neg (h n hn)]

/-- An owner of history is compound. -/
theorem Arena.kind_of_history (tree : chart.Arena) {n : Node} (hn : chart.node? i = some n)
    (h : n.history.isSome = true) : n.kind = .compound := by
  obtain ⟨k, hk⟩ := Option.isSome_iff_exists.mp h
  have := tree.kindAt?_of_parent ((tree.history_iff hn).mp hk).1
  rw [kindAt?_eq hn] at this
  exact Option.some.inj this

/-- The records name, for each owner of history among some nodes, the child on the path to a leaf,
and nothing else. -/
def RecordsLeft (chart : Chart) (leaf : Nat) (nodes : List Nat) (records : Entries String) : Prop :=
  ∀ id key, (id, key) ∈ records ↔ ∃ i n c, i ∈ nodes ∧ chart.node? i = some n ∧
    n.history.isSome = true ∧ chart.next? leaf i = some c ∧ id = n.id ∧ key = chart.keyAt c

/-- Leaving nodes above a leaf records their active children. -/
theorem Arena.recordsOf_spec (tree : chart.Arena) {nodes : List Nat} (hleaf : chart.IsLeaf leaf)
    (hnodes : ∀ i ∈ nodes, i ∈ chart.ancestors leaf) :
    ∃ records, chart.recordsOf leaf nodes = .ok records ∧
      chart.RecordsLeft leaf nodes records := by
  induction nodes with
  | nil => exact ⟨[], rfl, by simp [RecordsLeft]⟩
  | cons i rest ih =>
    obtain ⟨records, hrecords, hmem⟩ := ih fun j hj => hnodes j (List.mem_cons_of_mem _ hj)
    by_cases hi : ∃ n, chart.node? i = some n ∧ n.history.isSome = true
    · obtain ⟨n, hn, howner⟩ := hi
      have hkind := tree.kind_of_history hn howner
      have hne : i ≠ leaf := hleaf.ne_of_kindAt? (by rw [kindAt?_eq hn, hkind])
      obtain ⟨c, hc, -⟩ := tree.next?_spec (hnodes i List.mem_cons_self) hne
      refine ⟨(n.id, chart.keyAt c) :: records, ?_, fun id key => ?_⟩
      · rw [recordsOf_cons_owner hn hkind howner hc, hrecords]; rfl
      · rw [List.mem_cons, hmem, Prod.mk.injEq]
        constructor
        · rintro (⟨rfl, rfl⟩ | ⟨j, m, d, hj, h⟩)
          · exact ⟨i, n, c, List.mem_cons_self, hn, howner, hc, rfl, rfl⟩
          · exact ⟨j, m, d, List.mem_cons_of_mem _ hj, h⟩
        · rintro ⟨j, m, d, hj, hm, howner', hd, rfl, rfl⟩
          rcases List.mem_cons.mp hj with rfl | hj
          · obtain rfl := Option.some.inj (hn.symm.trans hm)
            obtain rfl := Option.some.inj (hc.symm.trans hd)
            exact .inl ⟨rfl, rfl⟩
          · exact .inr ⟨j, m, d, hj, hm, howner', hd, rfl, rfl⟩
    · have hother : ∀ n, chart.node? i = some n →
          ¬ (n.kind = .compound ∧ n.history.isSome = true) :=
        fun n hn h => hi ⟨n, hn, h.2⟩
      refine ⟨records, (recordsOf_cons_other hother).trans hrecords, fun id key => ?_⟩
      rw [hmem]
      constructor
      · rintro ⟨j, m, d, hj, h⟩
        exact ⟨j, m, d, List.mem_cons_of_mem _ hj, h⟩
      · rintro ⟨j, m, d, hj, hm, howner, h⟩
        rcases List.mem_cons.mp hj with rfl | hj
        · exact absurd ⟨m, hm, howner⟩ hi
        · exact ⟨j, m, d, hj, hm, howner, h⟩

section RecordsLeft

variable {nodes : List Nat} (tree : chart.Arena) (hrecords : chart.RecordsLeft leaf nodes records)

include hrecords

include tree in
/-- An owner of history that is left has its active child on record. -/
theorem RecordsLeft.get?_of_mem {n : Node} (hn : chart.node? i = some n)
    (howner : n.history.isSome = true) (hi : i ∈ nodes) (hc : chart.next? leaf i = some c) :
    Entries.get? (Entries.overlay history records) n.id = some (chart.keyAt c) := by
  refine Entries.get?_overlay_of_mem ((hrecords _ _).mpr ⟨i, n, c, hi, hn, howner, hc, rfl, rfl⟩) ?_
  intro key hkey
  obtain ⟨j, m, d, -, hm, -, hd, hid, rfl⟩ := (hrecords _ _).mp hkey
  obtain rfl := tree.id_inj hn hm hid
  rw [Option.some.inj (hc.symm.trans hd)]

/-- A record of a node that is not left stays. -/
theorem RecordsLeft.get?_of_forall_ne {id : String}
    (h : ∀ i ∈ nodes, ∀ n, chart.node? i = some n → n.history.isSome = true → n.id ≠ id) :
    Entries.get? (Entries.overlay history records) id = Entries.get? history id := by
  refine Entries.get?_overlay_of_notMem fun key hkey => ?_
  obtain ⟨i, n, c, hi, hn, howner, -, hid, -⟩ := (hrecords _ _).mp hkey
  exact h i hi n hn howner hid.symm

include tree in
theorem RecordsLeft.get?_of_notMem {n : Node} (hn : chart.node? i = some n) (hi : i ∉ nodes) :
    Entries.get? (Entries.overlay history records) n.id = Entries.get? history n.id := by
  refine hrecords.get?_of_forall_ne fun j hj m hm _ hid => hi ?_
  rwa [tree.id_inj hn hm hid.symm]

include tree in
/-- What a microstep records fits the chart, too. -/
theorem RecordsLeft.fits (hleaf : chart.IsLeaf leaf)
    (hnodes : ∀ i ∈ nodes, i ∈ chart.ancestors leaf) (hfits : chart.Fits history) :
    chart.Fits (Entries.overlay history records) := by
  intro id key hget
  by_cases h : ∃ i ∈ nodes, ∃ n, chart.node? i = some n ∧ n.history.isSome = true ∧ n.id = id
  · obtain ⟨i, hi, n, hn, howner, rfl⟩ := h
    have hne : i ≠ leaf :=
      hleaf.ne_of_kindAt? (by rw [kindAt?_eq hn, tree.kind_of_history hn howner])
    obtain ⟨c, hc, hparent, hmem⟩ := tree.next?_spec (hnodes i hi) hne
    rw [hrecords.get?_of_mem tree hn howner hi hc] at hget
    exact ⟨i, n, c, hn, rfl, howner, hparent, Option.some.inj hget,
      tree.isHistory_of_mem_ancestors hleaf hmem⟩
  · rw [hrecords.get?_of_forall_ne fun i hi n hn howner hid =>
      h ⟨i, hi, n, hn, howner, hid⟩] at hget
    exact hfits id key hget

end RecordsLeft

/-- A history node stands for the child on record, or for the initial child. -/
theorem Arena.remembered_spec (tree : chart.Arena) (hfits : chart.Fits history) {k : Nat}
    (hparent : chart.parent? k = some p) :
    ∃ n c, chart.node? p = some n ∧ chart.remembered k history = some c ∧
      chart.parent? c = some p ∧ chart.isHistory c = false ∧
      (Entries.get? history n.id = some (chart.keyAt c) ∨
        Entries.get? history n.id = none ∧ n.initial = some c) := by
  obtain ⟨-, -, n, -, hn, -⟩ := tree.parent?_spec hparent
  have howner : (chart.parent? k).bind chart.node? = some n := by rw [hparent]; exact hn
  rcases hget : Entries.get? history n.id with _ | key
  · obtain ⟨m, c, hm, hinitial, hc, hhistory, -⟩ :=
      tree.descend_of_compound (tree.kindAt?_of_parent hparent)
    obtain rfl := Option.some.inj (hn.symm.trans hm)
    refine ⟨n, c, hn, ?_, hc, hhistory, .inr ⟨hget, hinitial⟩⟩
    simp only [remembered, howner, Option.bind_some, hget, Option.bind_none, hinitial]
  · obtain ⟨j, m, c, hm, hid, -, hc, rfl, hhistory⟩ := hfits _ _ hget
    obtain rfl := tree.id_inj hm hn hid
    refine ⟨n, c, hn, ?_, hc, hhistory, .inl hget⟩
    simp only [remembered, howner, Option.bind_some, hget, tree.index_eq hn, tree.child?_keyAt hc]

end Lifecycle.Chart
