import Lifecycle.Proofs.Chart.Targets
import Lifecycle.Proofs.Interpreter.Failure

/-!
# Matching snapshots

A snapshot is asked for the segments of a text, one by one from the root of its path on. No key has
a dot, so this is a question about the text of the path (`Text.segments_prefix_iff`): it is the
text that is asked for, or goes on from it after a dot. Keys lead to one node each, so one path
of keys begins another just where its node lies above the other one
(`Chart.Arena.keysTo_prefix_iff`). Hence the id of a node, without that of the chart, matches while
the node is active (`covers_spec`).
-/

namespace Lifecycle

namespace Text

theorem dotted_segments (text : String) : dotted (segments text) = text := by
  rw [segments, dotted_map_ofList, join_split, String.ofList_toList]

theorem segments_ne_nil (text : String) : segments text ≠ [] :=
  List.map_eq_nil_iff.not.mpr (splitDots_ne_nil _)

theorem dot_notMem_of_mem_segments {text segment : String} (h : segment ∈ segments text) :
    '.' ∉ segment.toList := by
  obtain ⟨chars, hchars, rfl⟩ := List.mem_map.mp h
  rw [String.toList_ofList]
  exact dot_notMem_of_mem_splitDots hchars

/-- The segments of a text begin a path of keys without dots just where the text is the dotted path,
or this goes on from it after a dot. -/
theorem segments_prefix_iff {keys : List String} (hkeys : ∀ key ∈ keys, '.' ∉ key.toList)
    (hne : keys ≠ []) {text : String} : segments text <+: keys ↔
      text = dotted keys ∨ ∃ rest, dotted keys = text ++ "." ++ rest := by
  have hsplit : ∀ {parts : List String}, (∀ part ∈ parts, '.' ∉ part.toList) → parts ≠ [] →
      dotted keys = dotted parts → keys = parts := fun hparts hne' h =>
    dotted_inj hkeys hparts hne hne' h
  constructor
  · rintro ⟨below, rfl⟩
    by_cases hbelow : below = []
    · exact .inl (by rw [hbelow, List.append_nil, dotted_segments])
    · exact .inr ⟨dotted below, by
        rw [dotted_append (segments_ne_nil text) hbelow, dotted_segments]⟩
  · rintro (rfl | ⟨rest, hrest⟩)
    · have hwhole : keys = segments (dotted keys) :=
        hsplit (fun _ => dot_notMem_of_mem_segments) (segments_ne_nil _) (dotted_segments _).symm
      exact ⟨[], by rw [List.append_nil, ← hwhole]⟩
    · have hparts : keys = segments text ++ segments rest := by
        refine hsplit (fun part hpart => ?_) (by simp [segments_ne_nil]) ?_
        · exact (List.mem_append.mp hpart).elim dot_notMem_of_mem_segments
            dot_notMem_of_mem_segments
        · rw [hrest, dotted_append (segments_ne_nil _) (segments_ne_nil _), dotted_segments,
            dotted_segments]
      exact ⟨segments rest, hparts.symm⟩

end Text

namespace Snapshot

variable {shown : Snapshot} {text : String}

theorem covers_iff_prefix :
    shown.covers text = true ↔ text = "" ∨ Text.segments text <+: shown.path.drop 1 := by
  rw [covers, pathMatches, beq_iff_eq, eq_comm, ← List.prefix_iff_eq_take]
  by_cases hempty : text = ""
  · simp [hempty]
  · simp [hempty]

end Snapshot

namespace Chart

variable {chart : Chart} {i j leaf : Nat} {m n : Node}

namespace Arena

variable (tree : chart.Arena)

include tree

theorem keysTo_zero : chart.keysTo 0 = [chart.keyAt 0] := by
  rw [keysTo, tree.pathTo_zero, List.map_singleton]

theorem drop_keysTo (j : Nat) : (chart.keysTo j).drop 1 = chart.keysBelow 0 j := by
  rw [keysBelow, tree.keysTo_zero, List.length_singleton]

theorem eq_of_keysTo_eq (hm : chart.node? i = some m) (hn : chart.node? j = some n)
    (h : chart.keysTo i = chart.keysTo j) : i = j :=
  tree.id_inj hm hn (by rw [tree.dotted_keysTo hm, tree.dotted_keysTo hn, h])

/-- The keys to a node begin those to another just where it lies above it. -/
theorem keysTo_prefix_iff (hm : chart.node? i = some m) (hn : chart.node? j = some n) :
    chart.keysTo i <+: chart.keysTo j ↔ i ∈ chart.ancestors j := by
  refine ⟨fun h => ?_, fun h => ⟨_, (keysTo_eq_append h).symm⟩⟩
  -- The last key on the way to `j` is that of `j`; the keys before it lead to its parent.
  induction j using Nat.strongRecOn generalizing n with
  | _ j ih =>
    by_cases hj : j = 0
    · subst hj
      rw [tree.keysTo_zero, ← List.nil_append [chart.keyAt 0], List.prefix_concat_iff,
        List.prefix_nil, List.nil_append, ← tree.keysTo_zero] at h
      rcases h with heq | hnil
      · exact tree.eq_of_keysTo_eq hm hn heq ▸ self_mem_ancestors chart i
      · exact absurd hnil (chart.keysTo_ne_nil i)
    · obtain ⟨p, l, hlt, hp, hl, -⟩ := tree.parent hn hj
      have hparent : chart.parent? j = some p := (parent?_eq hn).trans hp
      rw [tree.keysTo_of_parent hparent, List.prefix_concat_iff,
        ← tree.keysTo_of_parent hparent] at h
      rcases h with heq | hprefix
      · exact tree.eq_of_keysTo_eq hm hn heq ▸ self_mem_ancestors chart i
      · exact ancestors_trans (ih p hlt hl hprefix) (tree.mem_ancestors_of_parent hparent)

theorem keysBelow_prefix_iff (hm : chart.node? i = some m) (hn : chart.node? j = some n) :
    chart.keysBelow 0 i <+: chart.keysBelow 0 j ↔ i ∈ chart.ancestors j := by
  rw [← tree.keysTo_prefix_iff hm hn, keysTo_eq_append (tree.zero_mem_ancestors hm),
    keysTo_eq_append (tree.zero_mem_ancestors hn), List.prefix_append_right_inj]

theorem dot_notMem_keysBelow (hn : chart.node? j = some n) :
    ∀ key ∈ chart.keysBelow i j, '.' ∉ key.toList := fun key hkey =>
  tree.dot_notMem_keysTo hn key (List.mem_of_mem_drop hkey)

/-- A leaf lies below the root. -/
theorem isBelow_zero_of_isLeaf (h : chart.IsLeaf leaf) : chart.isBelow leaf 0 = true := by
  obtain ⟨n, hn⟩ := h.exists_node
  obtain ⟨root, hroot, hkind, -⟩ := tree.root
  refine isBelow_iff.mpr ⟨tree.zero_mem_ancestors hn, ?_⟩
  rintro rfl
  exact h.kindAt?_ne ((kindAt?_eq hroot).trans (congrArg some hkind))

/-- A path to a leaf is matched by the texts with which its dotted form begins, up to a dot. -/
theorem covers_iff {shown : Snapshot} {text : String} (hleaf : chart.IsLeaf leaf)
    (hpath : shown.path = chart.keysTo leaf) : shown.covers text = true ↔
      text = "" ∨ text = shown.value ∨ ∃ rest, shown.value = text ++ "." ++ rest := by
  obtain ⟨n, hn⟩ := hleaf.exists_node
  rw [Snapshot.covers_iff_prefix, Snapshot.value, hpath, tree.drop_keysTo,
    Text.segments_prefix_iff (tree.dot_notMem_keysBelow hn)
      (keysBelow_ne_nil (tree.isBelow_zero_of_isLeaf hleaf))]

/-- A path to a leaf is matched by the keys to the nodes on it, and to no other. -/
theorem covers_dotted_iff {shown : Snapshot} (hleaf : chart.IsLeaf leaf)
    (hpath : shown.path = chart.keysTo leaf) (hn : chart.node? i = some n) (hi : i ≠ 0) :
    shown.covers (Text.dotted (chart.keysBelow 0 i)) = true ↔ i ∈ chart.pathTo leaf := by
  obtain ⟨l, hl⟩ := hleaf.exists_node
  have hbelow : chart.isBelow i 0 = true :=
    isBelow_iff.mpr ⟨tree.zero_mem_ancestors hn, Ne.symm hi⟩
  have hsegments : Text.segments (Text.dotted (chart.keysBelow 0 i)) = chart.keysBelow 0 i :=
    Text.dotted_inj (fun _ => Text.dot_notMem_of_mem_segments) (tree.dot_notMem_keysBelow hn)
      (Text.segments_ne_nil _) (keysBelow_ne_nil hbelow) (Text.dotted_segments _)
  rw [Snapshot.covers_iff_prefix, or_iff_right (tree.dotted_keysBelow hn hbelow).1, hsegments,
    hpath, tree.drop_keysTo, tree.keysBelow_prefix_iff hn hl, mem_pathTo]

end Arena

end Chart

namespace Interpreter

variable {chart : Chart} {m : Interpreter} {s : Situation} {shown : Snapshot}

theorem Stands.observe_path (h : m.Stands chart s) : m.observe.path = chart.keysTo s.leaf := by
  rw [observe, h.path_eq, h.chart_eq, Chart.keysTo]

theorem Stands.observe_history (h : m.Stands chart s) : m.observe.history = s.history :=
  h.history_eq

/-- What a run shows that was started or restored is a situation in which its chart can go on. -/
theorem Reachable.exists_situation (tree : chart.Arena) (h : Reachable chart m)
    (hshown : m.snapshot = some shown) :
    ∃ s, chart.Situated s ∧ shown.path = chart.keysTo s.leaf ∧ shown.history = s.history := by
  have hobserve {m : Interpreter} (h : Reachable chart m) : ∃ s, chart.Situated s ∧
      m.observe.path = chart.keysTo s.leaf ∧ m.observe.history = s.history := by
    obtain ⟨s, halive⟩ := h.exists_alive tree
    exact ⟨s, halive.situated, halive.toStands.observe_path, halive.toStands.observe_history⟩
  induction h generalizing shown with
  | start hstart =>
    rename_i context name snapshot
    rcases start_cases tree context name with ⟨-, s₀, s, -, -, hrests⟩ | ⟨fault, hfault, -⟩
    · obtain rfl := Option.some.inj (hrests.snapshot_eq.symm.trans hshown)
      exact hobserve (.start hstart)
    · rw [hstart] at hfault
      cases hfault
  | resume hresume =>
    have hall := hobserve (.resume hresume)
    obtain ⟨leaf, -, hrest⟩ := bind_eq_ok.mp hresume
    obtain ⟨records, -, hrest⟩ := bind_eq_ok.mp hrest
    obtain ⟨fitted, -, hrest⟩ := bind_eq_ok.mp hrest
    cases hrest
    cases hshown
    exact hall
  | send now event hm ih =>
    obtain ⟨s, halive⟩ := hm.exists_alive tree
    obtain ⟨-, -, -, hkept | hnew⟩ := halive.dispatch_spec tree now event
    · exact ih (hkept.symm.trans hshown)
    · obtain rfl := Option.some.inj (hnew.symm.trans hshown)
      exact hobserve (.send now event hm)
  | stop hm ih =>
    have hall := hobserve (.stop hm)
    unfold Interpreter.stop at hshown hall
    split at hshown
    · exact ih hshown
    · rw [if_neg ‹_›] at hall
      cases hshown
      exact hall

theorem Reachable.exists_keysTo (tree : chart.Arena) (h : Reachable chart m)
    (hshown : m.snapshot = some shown) :
    ∃ leaf, chart.IsLeaf leaf ∧ shown.path = chart.keysTo leaf := by
  obtain ⟨s, hs, hpath, -⟩ := h.exists_situation tree hshown
  exact ⟨s.leaf, hs.isLeaf, hpath⟩

/-- **Matching.** What a run of a built chart shows matches a text just where the text is empty, is
the dotted path below the root, or is followed there by a dot. It shows the path to a leaf, and of
the other nodes but the root those match, by their ids below that of the chart, that are on it. -/
theorem covers_spec (h : chart.Built) (hm : Reachable chart m) (hshown : m.snapshot = some shown) :
    (∀ text, shown.covers text = true ↔
      text = "" ∨ text = shown.value ∨ ∃ rest, shown.value = text ++ "." ++ rest) ∧
    ∃ leaf, chart.IsLeaf leaf ∧ shown.path = (chart.pathTo leaf).map chart.keyAt ∧
      ∀ i n, chart.node? i = some n → i ≠ 0 → ∃ below, n.id = chart.id ++ "." ++ below ∧
        (shown.covers below = true ↔ i ∈ chart.pathTo leaf) := by
  have tree := h.arena
  obtain ⟨plan, drafts, tabled⟩ := h.tabled
  obtain ⟨leaf, hleaf, hpath⟩ := hm.exists_keysTo tree hshown
  refine ⟨fun text => tree.covers_iff hleaf hpath, leaf, hleaf, hpath, fun i n hn hi =>
    ⟨Text.dotted (chart.keysBelow 0 i), ?_, tree.covers_dotted_iff hleaf hpath hn hi⟩⟩
  have hbelow : chart.isBelow i 0 = true :=
    Chart.isBelow_iff.mpr ⟨tree.zero_mem_ancestors hn, Ne.symm hi⟩
  rw [tree.id_eq_of_isBelow hn hbelow, tabled.idAt_zero]

set_option maxRecDepth 10000 in
/-- A new lead matches the path to its branch, and not a text that ends within a key. -/
theorem covers_spec_lead :
    Lead.chart.Built ∧ Reachable Lead.chart (started Lead.chart Lead.chart.context none) ∧
      ∃ shown, (started Lead.chart Lead.chart.context none).snapshot = some shown ∧
        shown.value = "active.lead_qualification.idle" ∧
        shown.covers "active.lead_qualification" = true ∧ shown.covers "active.lead" = false := by
  have hm : Reachable Lead.chart (started Lead.chart Lead.chart.context none) :=
    reachable_started (by decide +kernel)
  have hshows : (started Lead.chart Lead.chart.context none).snapshot.map Snapshot.value =
      some "active.lead_qualification.idle" := by decide +kernel
  obtain ⟨shown, hshown, hvalue⟩ := Option.map_eq_some_iff.mp hshows
  obtain ⟨hcovers, -⟩ := covers_spec Lead.chart_built hm hshown
  refine ⟨Lead.chart_built, hm, shown, hshown, hvalue,
    (hcovers _).mpr (.inr (.inr ⟨"idle", hvalue⟩)), Bool.eq_false_iff.mpr fun h => ?_⟩
  rcases (hcovers _).mp h with hempty | heq | ⟨rest, hrest⟩
  · exact absurd hempty (by decide)
  · rw [hvalue] at heq
    exact absurd heq (by decide)
  · rw [hvalue] at hrest
    simpa using congrArg String.toList hrest

end Interpreter

end Lifecycle
