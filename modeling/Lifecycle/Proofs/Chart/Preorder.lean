import Lifecycle.Proofs.Chart.Built

/-!
# Charts in preorder

The table of a built chart lists its nodes in preorder: it is the numbering of an outline
(`Built.exists_outline`), in which a node is followed by all nodes below it. So between a node and
a child of it stand only nodes that are deeper than the node (`Built.depth_lt_of_between`).
-/

namespace Lifecycle

namespace Outline

theorem lt_of_mem_indices {first c : Nat} {os : List Outline} (h : c ∈ indices first os) :
    c < first + sizeAll os := by
  induction os generalizing first with
  | nil => cases h
  | cons child rest ih =>
    have hpos := size_pos child
    rw [sizeAll]
    rcases List.mem_cons.mp h with rfl | h
    · omega
    · have := ih h
      omega

mutual

/-- No draft of an outline is above its top node. -/
theorem depth_le_of_mem_drafts {parent : Option Nat} {depth index : Nat} {id : String} {e : Draft} :
    (o : Outline) → e ∈ drafts parent depth index id o → depth ≤ e.depth
  | .node key kind fields children, he => by
    rw [drafts] at he
    rcases List.mem_cons.mp he with rfl | he
    · exact Nat.le_refl _
    · exact Nat.le_of_succ_le (depth_le_of_mem_draftsAll children he)

theorem depth_le_of_mem_draftsAll {parent depth index : Nat} {parentId : String} {e : Draft} :
    (os : List Outline) → e ∈ draftsAll parent depth index parentId os → depth ≤ e.depth
  | [], he => by cases he
  | child :: rest, he => by
    rw [draftsAll] at he
    rcases List.mem_append.mp he with he | he
    · exact depth_le_of_mem_drafts child he
    · exact depth_le_of_mem_draftsAll rest he

end

/-- Every index of a numbering from zero is taken. -/
theorem exists_draft_of_lt {parent : Option Nat} {depth : Nat} {id : String} {o : Outline} {i : Nat}
    (h : i < o.size) : ∃ d ∈ drafts parent depth 0 id o, d.index = i := by
  have hmem : i ∈ (drafts parent depth 0 id o).map Draft.index := by
    rw [index_drafts, List.mem_range'_1]
    omega
  exact List.mem_map.mp hmem

end Outline

namespace Chart

variable {chart : Chart}

/-- Drafts stand in the table of a chart. -/
def Includes (chart : Chart) (drafts : List Draft) : Prop :=
  ∀ d ∈ drafts, ∃ n, chart.node? d.index = some n ∧ n.children = d.children ∧ n.depth = d.depth

/-- The table of a built chart is the numbering of a sound outline. -/
theorem Built.exists_outline (h : chart.Built) : ∃ o : Outline, o.Sound ∧
    chart.nodes.size = o.size ∧ chart.Includes (Outline.drafts none 0 0 chart.id o) := by
  obtain ⟨registry, events, declaration, hu, hdefine⟩ := h
  obtain ⟨plan, o, hread, htable, hfinished⟩ := exists_outline_of_define hdefine
  have tabled : Tabled plan _ chart := ⟨Outline.numbered_of_read hu hread, htable, hfinished⟩
  refine ⟨o, (Outline.sound_of_read declaration hu hread).1, ?_, fun d hd => ?_⟩
  · rw [← Array.length_toList, ← hfinished.length_eq, Outline.length_drafts]
  · obtain ⟨n, hn, hfin⟩ := tabled.exists_node (Outline.getElem?_of_mem hd)
    exact ⟨n, hn, hfin.children_eq, hfin.depth_eq⟩

/-- Between a node and a child of it stand nodes that are deeper than the node. -/
theorem Built.depth_lt_of_between (h : chart.Built) {p c j : Nat} {m n : Node}
    (hparent : chart.parent? c = some p) (hm : chart.node? p = some m)
    (hn : chart.node? j = some n) (hp : p < j) (hc : j < c) : m.depth < n.depth := by
  obtain ⟨o, hsound, hsize, hholds⟩ := h.exists_outline
  have hlt : p < o.size := hsize ▸ (Array.getElem?_eq_some_iff.mp hm).1
  obtain ⟨d, hd, rfl⟩ := Outline.exists_draft_of_lt hlt
  obtain ⟨os, hblock⟩ := Outline.exists_block o hsound hd
  obtain ⟨_, hm', hchildren, hdepth⟩ := hholds d hd
  obtain rfl := Option.some.inj (hm'.symm.trans hm)
  -- The child is one of those listed, so all before it belong to the block of the node.
  have hlast : c < d.index + 1 + Outline.sizeAll os := by
    refine Outline.lt_of_mem_indices ?_
    rw [← hblock.children_eq, ← hchildren]
    exact (h.arena.mem_children hm).mpr hparent
  have hmem : j ∈ (Outline.draftsAll d.index (d.depth + 1) (d.index + 1) d.id os).map
      Draft.index := by
    rw [Outline.index_draftsAll, List.mem_range'_1]
    omega
  obtain ⟨e, he, rfl⟩ := List.mem_map.mp hmem
  obtain ⟨_, hn', -, hdepth'⟩ := hholds e (hblock.subset he)
  obtain rfl := Option.some.inj (hn'.symm.trans hn)
  have := Outline.depth_le_of_mem_draftsAll os he
  omega

end Chart

end Lifecycle
