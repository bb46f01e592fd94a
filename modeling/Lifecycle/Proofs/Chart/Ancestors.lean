import Lifecycle.Microstep
import Mathlib.Data.List.Chain
import Mathlib.Data.List.Nodup

/-!
# Chains of ancestors

Facts about the way up from a node that hold in every table. The chain of an ancestor is a suffix of
the chain (`ancestors_suffix`), so two ancestors of one node are comparable
(`mem_ancestors_of_le`), and a chain falls into the nodes below an ancestor and the chain of that
ancestor (`ancestors_eq_exitSet_append`).
-/

namespace Lifecycle.Chart

variable {chart : Chart} {i j k a : Nat}

@[simp] theorem self_mem_ancestors (chart : Chart) (i : Nat) : i ∈ chart.ancestors i := by
  rw [ancestors_eq]; exact List.mem_cons_self

/-- A node above another is the node itself or an ancestor of its parent. -/
theorem mem_ancestors_cases (h : j ∈ chart.ancestors i) :
    j = i ∨ ∃ p, chart.parent? i = some p ∧ p < i ∧ chart.ancestors i = i :: chart.ancestors p ∧
      j ∈ chart.ancestors p := by
  rw [ancestors_eq] at h ⊢
  rcases List.mem_cons.mp h with rfl | h
  · exact .inl rfl
  · split at h
    · rename_i p hp
      split at h
      · rename_i hlt
        exact .inr ⟨p, hp, hlt, by simp only [if_pos hlt], h⟩
      · cases h
    · cases h

/-- The chain of an ancestor ends the chain. -/
theorem ancestors_suffix (h : j ∈ chart.ancestors i) :
    chart.ancestors j <:+ chart.ancestors i := by
  induction i using Nat.strongRecOn with
  | _ i ih =>
    rcases mem_ancestors_cases h with rfl | ⟨p, -, hlt, heq, hp⟩
    · exact List.suffix_refl _
    · rw [heq]
      exact (ih p hlt hp).trans (List.suffix_cons _ _)

theorem ancestors_trans (hk : k ∈ chart.ancestors j) (hj : j ∈ chart.ancestors i) :
    k ∈ chart.ancestors i :=
  (ancestors_suffix hj).subset hk

/-- Indices fall on the way up. -/
theorem sorted_ancestors (chart : Chart) (i : Nat) :
    (chart.ancestors i).Pairwise (· > ·) := by
  induction i using Nat.strongRecOn with
  | _ i ih =>
    rw [ancestors_eq]
    split
    · rename_i p _
      split
      · rename_i hlt
        exact List.Pairwise.cons
          (fun j hj => Nat.lt_of_le_of_lt (le_of_mem_ancestors chart hj) hlt) (ih p hlt)
      · exact List.pairwise_singleton _ _
    · exact List.pairwise_singleton _ _

theorem nodup_ancestors (chart : Chart) (i : Nat) : (chart.ancestors i).Nodup :=
  (sorted_ancestors chart i).imp fun h => Nat.ne_of_gt h

theorem ancestors_antisymm (hj : j ∈ chart.ancestors i) (hi : i ∈ chart.ancestors j) : i = j :=
  Nat.le_antisymm (le_of_mem_ancestors chart hi) (le_of_mem_ancestors chart hj)

/-- Of two ancestors of a node the one with the smaller index is above the other. -/
theorem mem_ancestors_of_le (hj : j ∈ chart.ancestors i) (hk : k ∈ chart.ancestors i)
    (hle : j ≤ k) : j ∈ chart.ancestors k := by
  rcases List.suffix_or_suffix_of_suffix (ancestors_suffix hj) (ancestors_suffix hk) with h | h
  · exact h.subset (self_mem_ancestors chart j)
  · have hkj := le_of_mem_ancestors chart (h.subset (self_mem_ancestors chart k))
    rw [Nat.le_antisymm hle hkj]
    exact self_mem_ancestors chart k

theorem mem_properAncestors : j ∈ chart.properAncestors i ↔ j ∈ chart.ancestors i ∧ j ≠ i := by
  have hsorted := sorted_ancestors chart i
  rw [properAncestors, ancestors_eq, List.drop_one, List.tail_cons]
  rw [ancestors_eq] at hsorted
  constructor
  · intro h
    exact ⟨List.mem_cons_of_mem _ h, Nat.ne_of_lt (List.rel_of_pairwise_cons hsorted h)⟩
  · rintro ⟨h, hne⟩
    exact (List.mem_cons.mp h).resolve_left hne

/-- A search on the way up finds the innermost node. -/
theorem le_of_find?_properAncestors {q : Nat → Bool}
    (h : (chart.properAncestors i).find? q = some a) (hj : j ∈ chart.properAncestors i)
    (hq : q j = true) : j ≤ a := by
  obtain ⟨-, nearer, further, hsplit, hnot⟩ := List.find?_eq_some_iff_append.mp h
  have hsorted : (chart.properAncestors i).Pairwise (· > ·) := (sorted_ancestors chart i).drop
  rw [hsplit] at hj hsorted
  rcases List.mem_append.mp hj with hnear | hfar
  · have := hnot j hnear
    rw [hq] at this
    cases this
  · rcases List.mem_cons.mp hfar with rfl | hfar
    · exact Nat.le_refl _
    · exact Nat.le_of_lt (List.rel_of_pairwise_cons (List.pairwise_append.mp hsorted).2.1 hfar)

/-- A node is below its ancestors other than itself. -/
theorem isBelow_iff : chart.isBelow i a = true ↔ a ∈ chart.ancestors i ∧ a ≠ i := by
  rw [isBelow, List.contains_iff_mem, mem_properAncestors]

/-! ## The part of a chain below an ancestor -/

theorem mem_exitSet : j ∈ chart.exitSet i a ↔ j ∈ chart.ancestors i ∧ chart.isBelow j a = true :=
  List.mem_filter

/-- A chain is its part below an ancestor followed by the chain of the ancestor. -/
theorem ancestors_eq_exitSet_append (h : a ∈ chart.ancestors i) :
    chart.ancestors i = chart.exitSet i a ++ chart.ancestors a := by
  obtain ⟨below, hsplit⟩ := ancestors_suffix h
  have hsorted := sorted_ancestors chart i
  rw [← hsplit, List.pairwise_append] at hsorted
  have hbelow : below.filter (chart.isBelow · a) = below := by
    refine List.filter_eq_self.mpr fun j hj => ?_
    have hlt : j > a := hsorted.2.2 j hj a (self_mem_ancestors chart a)
    have hmem : j ∈ chart.ancestors i := hsplit ▸ List.mem_append_left _ hj
    exact isBelow_iff.mpr ⟨mem_ancestors_of_le h hmem (Nat.le_of_lt hlt), Nat.ne_of_lt hlt⟩
  have habove : (chart.ancestors a).filter (chart.isBelow · a) = [] := by
    refine List.filter_eq_nil_iff.mpr fun j hj hj' => ?_
    obtain ⟨haj, hne⟩ := isBelow_iff.mp hj'
    exact hne (ancestors_antisymm hj haj)
  rw [exitSet, ← hsplit, List.filter_append, hbelow, habove, List.append_nil]

/-- A path runs through each node above its end. -/
theorem pathTo_eq_append_exitSet (h : a ∈ chart.ancestors i) :
    chart.pathTo i = chart.pathTo a ++ (chart.exitSet i a).reverse := by
  rw [pathTo, ancestors_eq_exitSet_append h, List.reverse_append, pathTo]

theorem mem_pathTo : j ∈ chart.pathTo i ↔ j ∈ chart.ancestors i := List.mem_reverse

/-- The part of a path from a node on is the node and what lies below it. -/
theorem dropWhile_pathTo (h : a ∈ chart.ancestors i) :
    (chart.pathTo i).dropWhile (· ≠ a) = a :: (chart.exitSet i a).reverse := by
  obtain ⟨above, habove⟩ : ∃ above, chart.pathTo a = above ++ [a] := by
    rw [pathTo, ancestors_eq, List.reverse_cons]
    exact ⟨_, rfl⟩
  have hnot : ∀ j ∈ above, (decide (j ≠ a)) = true := by
    intro j hj
    have hnd : (chart.pathTo a).Nodup := List.nodup_reverse.mpr (nodup_ancestors chart a)
    rw [habove, List.nodup_append] at hnd
    exact decide_eq_true (hnd.2.2 j hj a List.mem_cons_self)
  rw [pathTo_eq_append_exitSet h, habove, List.append_assoc,
    List.dropWhile_append_of_pos hnot, List.singleton_append,
    List.dropWhile_cons_of_neg (by simp)]

/-- Each node of a path is the parent of the next one. -/
theorem isChain_pathTo (chart : Chart) (i : Nat) :
    (chart.pathTo i).IsChain fun p c => chart.parent? c = some p := by
  rw [pathTo, List.isChain_reverse]
  induction i using Nat.strongRecOn with
  | _ i ih =>
    rcases hp : chart.parent? i with _ | p
    · rw [ancestors_eq, hp]; exact List.isChain_singleton _
    · rw [ancestors_eq, hp]
      dsimp only
      split
      · rename_i hlt
        have := ih p hlt
        rw [ancestors_eq] at this ⊢
        exact List.IsChain.cons_cons hp this
      · exact List.isChain_singleton _

end Lifecycle.Chart
