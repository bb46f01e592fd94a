import Lifecycle.Proofs.Chart.References

/-!
# Targets of a chart

A reference that is written on a node of a built chart leads to the node whose id it means
(`Resolving.denotes`). So each node is reached by its id from the root, by its keys from the nodes
above it, and by its keys beside a node (`exists_resolving`); a reference that means no node, or the
root, is refused, and the transitions of the chart lead where their references say.
-/

namespace Lifecycle

namespace Reference.Denotes

variable {machine own outer text id : String}

theorem text_ne (h : Denotes machine own outer text id) : text ≠ "" := by
  rintro rfl
  generalize hempty : "" = text at h
  have hchars := congrArg String.toList hempty
  cases h with
  | root => simp at hchars
  | fromRoot rest => simp at hchars
  | below rest => simp at hchars
  | beside hne => exact hne hempty.symm

end Reference.Denotes

/-- A defect of a reference itself: it is no text, or names another machine, a node that is not
there, or the root. -/
def Defect.IsReference (declared : Json) (defect : Defect) : Prop :=
  defect = .badReference declared ∨ ∃ text, declared = .str text ∧
    (defect = .otherMachine text ∨ defect = .dangling text ∨ defect = .rootReference text)

namespace Blueprint

variable {plan : Blueprint} {draft : Draft}

theorem target_str {text : String} (hne : text ≠ "") : plan.target draft (.str text) =
    (Reference.resolve plan.machine plan.table draft text).map some := by
  rw [target, if_neg hne]

/-- Only null is no reference. -/
theorem target_eq_none_iff {declared : Json} :
    plan.target draft declared = .ok none ↔ declared = .null := by
  constructor
  · intro h
    unfold target at h
    split at h
    · rfl
    · split at h
      · cases h
      · obtain ⟨_, -, hsome⟩ := map_eq_ok.mp h
        cases hsome
    · cases h
  · rintro rfl
    rfl

theorem exists_text_of_target {declared : Json} {j : Nat}
    (h : plan.target draft declared = .ok (some j)) : ∃ text, declared = .str text := by
  unfold target at h
  split at h
  · cases h
  · exact ⟨_, rfl⟩
  · cases h

theorem target_error {declared : Json} {defect : Defect}
    (h : plan.target draft declared = .error defect) : defect.IsReference declared := by
  unfold target at h
  split at h
  · cases h
  · rename_i text
    split at h
    · exact .inl (Except.error.inj h).symm
    · exact .inr ⟨text, rfl, Reference.resolve_error (map_eq_error.mp h)⟩
  · exact .inl (Except.error.inj h).symm

/-- A transition leads where its reference does. -/
theorem exists_target_of_transition {event : String} {declared : Json} {t : Transition}
    (h : plan.transition draft event declared = .ok t) : ∃ reference,
      plan.target draft reference = .ok t.target ∧ t.reference = reference.string?.getD "" := by
  have hto {reference names : Json} (h : plan.transitionTo draft event reference names = .ok t) :
      ∃ reference, plan.target draft reference = .ok t.target ∧
        t.reference = reference.string?.getD "" := by
    obtain ⟨goal, hgoal, h⟩ := bind_eq_ok.mp h
    obtain ⟨actions, -, h⟩ := bind_eq_ok.mp h
    cases h
    exact ⟨reference, hgoal, rfl⟩
  unfold transition at h
  split at h
  · exact hto h
  · exact hto h
  · split at h
    · exact hto h
    · cases h
  · cases h

end Blueprint

namespace Chart

variable {chart : Chart} {i j : Nat} {n : Node}

/-- The node below which a reference leads that is written on a node and begins with a key: its
parent, and for the root itself. -/
def outer (chart : Chart) (i : Nat) : Nat := (chart.parent? i).getD i

/-- The keys from a node down to another. -/
def keysBelow (chart : Chart) (i j : Nat) : List String :=
  (chart.keysTo j).drop (chart.keysTo i).length

/-- The id that a reference means that is written on a node. -/
def Refers (chart : Chart) (i : Nat) (text id : String) : Prop :=
  Reference.Denotes chart.id (chart.idAt i) (chart.idAt (chart.outer i)) text id

theorem idAt_eq (h : chart.node? i = some n) : chart.idAt i = n.id := by
  rw [idAt, h]
  rfl

namespace Arena

variable (tree : chart.Arena)

include tree

theorem validKey_of_mem_keysTo (h : chart.node? i = some n) :
    ∀ key ∈ chart.keysTo i, Outline.validKey key = true := by
  intro key hkey
  obtain ⟨j, hj, rfl⟩ := List.mem_map.mp hkey
  obtain ⟨m, hm⟩ := tree.exists_node_of_mem_ancestors h (mem_pathTo.mp hj)
  rw [keyAt_eq hm]
  exact tree.validKey hm

end Arena

theorem keysBelow_eq (h : i ∈ chart.ancestors j) :
    chart.keysBelow i j = (chart.exitSet j i).reverse.map chart.keyAt := by
  simp only [keysBelow, keysTo, pathTo_eq_append_exitSet h, List.map_append, List.drop_left]

/-- The keys to a node go on from those to a node above it. -/
theorem keysTo_eq_append (h : i ∈ chart.ancestors j) :
    chart.keysTo j = chart.keysTo i ++ chart.keysBelow i j := by
  rw [keysBelow_eq h, keysTo, pathTo_eq_append_exitSet h, List.map_append, keysTo]

theorem keysBelow_ne_nil (h : chart.isBelow j i = true) : chart.keysBelow i j ≠ [] := by
  have hmem : j ∈ chart.exitSet j i := mem_exitSet.mpr ⟨self_mem_ancestors chart j, h⟩
  rw [keysBelow_eq (isBelow_iff.mp h).1]
  simp only [ne_eq, List.map_eq_nil_iff, List.reverse_eq_nil_iff]
  exact List.ne_nil_of_mem hmem

theorem ne_zero_of_isBelow (h : chart.isBelow j i = true) : j ≠ 0 := by
  obtain ⟨habove, hne⟩ := isBelow_iff.mp h
  have hle := le_of_mem_ancestors chart habove
  omega

namespace Arena

variable (tree : chart.Arena)

include tree

/-- The id of a node goes on from that of a node above it. -/
theorem id_eq_of_isBelow (hn : chart.node? j = some n) (h : chart.isBelow j i = true) :
    n.id = chart.idAt i ++ "." ++ Text.dotted (chart.keysBelow i j) := by
  have habove := (isBelow_iff.mp h).1
  obtain ⟨m, hm⟩ := tree.exists_node_of_mem_ancestors hn habove
  rw [tree.dotted_keysTo hn, keysTo_eq_append habove,
    Text.dotted_append (chart.keysTo_ne_nil i) (keysBelow_ne_nil h), idAt_eq hm,
    tree.dotted_keysTo hm]

/-- Keys below a node make a path that is not empty, and begins neither like a path from the root
nor like one below a node. -/
theorem dotted_keysBelow (hn : chart.node? j = some n) (h : chart.isBelow j i = true) :
    Text.dotted (chart.keysBelow i j) ≠ "" ∧
      (Text.dotted (chart.keysBelow i j)).toList.head? ≠ some '#' ∧
      (Text.dotted (chart.keysBelow i j)).toList.head? ≠ some '.' := by
  obtain ⟨key, rest, hkeys⟩ := List.exists_cons_of_ne_nil (keysBelow_ne_nil h)
  have hvalid : Outline.validKey key = true := by
    refine tree.validKey_of_mem_keysTo hn key ?_
    rw [keysTo_eq_append (isBelow_iff.mp h).1, hkeys]
    exact List.mem_append_right _ List.mem_cons_self
  simp only [Outline.validKey, Bool.and_eq_true, bne_iff_ne, ne_eq, Bool.not_eq_true',
    List.contains_eq_mem, decide_eq_false_iff_not] at hvalid
  obtain ⟨⟨hne, hdot⟩, hhash⟩ := hvalid
  obtain ⟨c, cs, hchars⟩ : ∃ c cs, key.toList = c :: cs :=
    List.exists_cons_of_ne_nil (String.toList_eq_nil_iff.not.mpr hne)
  have hhead : (Text.dotted (key :: rest)).toList.head? = some c := by
    cases rest with
    | nil => rw [Text.dotted, hchars, List.head?_cons]
    | cons => simp [Text.dotted, hchars]
  rw [hchars, List.mem_cons, not_or] at hdot hhash
  rw [hkeys]
  refine ⟨fun hempty => ?_, ?_, ?_⟩
  · rw [hempty] at hhead
    cases hhead
  · rw [hhead, ne_eq, Option.some.injEq]
    exact Ne.symm hhash.1
  · rw [hhead, ne_eq, Option.some.injEq]
    exact Ne.symm hdot.1

/-- The path of the keys below a node qualifies its id to that of the node below. -/
theorem qualify_keysBelow (hn : chart.node? j = some n) (h : chart.isBelow j i = true) :
    Text.qualify (chart.idAt i) (Text.dotted (chart.keysBelow i j)) = n.id := by
  rw [Text.qualify, if_neg (tree.dotted_keysBelow hn h).1, tree.id_eq_of_isBelow hn h]

end Arena

/-! ## References on the nodes of a chart -/

/-- How the references are resolved that are written on a node of a chart. -/
structure Resolving (chart : Chart) (i : Nat) (target : Json → Except Defect (Option Nat)) :
    Prop where
  /-- A reference leads to the node whose id it means, and never to the root. -/
  denotes {text : String} {j : Nat} : target (.str text) = .ok (some j) ↔
    j ≠ 0 ∧ ∃ n, chart.node? j = some n ∧ chart.Refers i text n.id
  /-- Each node but the root is reached from the root by its id. -/
  fromRoot {j : Nat} {n : Node} : chart.node? j = some n → j ≠ 0 →
    target (.str ("#" ++ n.id)) = .ok (some j)
  /-- Each node below is reached along its keys. -/
  below {j : Nat} {n : Node} : chart.node? j = some n → chart.isBelow j i = true →
    target (.str ("." ++ Text.dotted (chart.keysBelow i j))) = .ok (some j)
  /-- So is each node below the parent. -/
  beside {j : Nat} {n : Node} : chart.node? j = some n → chart.isBelow j (chart.outer i) = true →
    target (.str (Text.dotted (chart.keysBelow (chart.outer i) j))) = .ok (some j)
  null_iff {declared : Json} : target declared = .ok none ↔ declared = .null
  /-- Every other reference is refused. -/
  refused {declared : Json} : declared ≠ .null →
    (∀ text j n, declared = .str text → chart.node? j = some n → chart.Refers i text n.id → j = 0) →
    ∃ defect, target declared = .error defect ∧ defect.IsReference declared

section Described

variable {registry : Registry} {events : Option (List String)} {declaration : Json}
  {outline : Outline} {d : Draft}

/-- The id of the root is that of the chart. -/
theorem Tabled.idAt_zero {plan : Blueprint} {drafts : List Draft}
    (tabled : Tabled plan drafts chart) : chart.idAt 0 = chart.id := by
  obtain ⟨top, htop, -, -, -, htopId, -⟩ := tabled.numbered.top
  obtain ⟨root, hroot, hfin⟩ := tabled.exists_node htop
  rw [idAt_eq hroot, hfin.id_eq, htopId]

/-- The base of a reference that begins with a key is a node of the table. -/
theorem Tabled.exists_outer {plan : Blueprint} {drafts : List Draft}
    (tabled : Tabled plan drafts chart) (hd : drafts[i]? = some d) :
    ∃ o, drafts[d.parent.getD d.index]? = some o ∧ o.id = chart.idAt (chart.outer i) := by
  obtain ⟨n, hn, hfin⟩ := tabled.exists_node hd
  have houter : chart.outer i = d.parent.getD d.index := by
    rw [outer, parent?_eq hn, hfin.parent_eq, tabled.numbered.index_eq hd]
  rcases hp : d.parent with _ | p
  · rw [hp, Option.getD_none, tabled.numbered.index_eq hd] at houter
    rw [Option.getD_none, tabled.numbered.index_eq hd, houter, idAt_eq hn]
    exact ⟨d, hd, hfin.id_eq.symm⟩
  · rw [hp, Option.getD_some] at houter
    have hparent : chart.parent? i = some p := by rw [parent?_eq hn, hfin.parent_eq, hp]
    obtain ⟨o, -, -, ho, -⟩ := tabled.exists_isChild hparent
    obtain ⟨m, hm, hfin'⟩ := tabled.exists_node ho
    rw [Option.getD_some, houter, idAt_eq hm]
    exact ⟨o, ho, hfin'.id_eq.symm⟩

/-- A text leads to the node whose id it means. -/
theorem Tabled.target_eq_ok_iff {plan : Blueprint} {drafts : List Draft}
    (tabled : Tabled plan drafts chart) (hmachine : plan.machine = chart.id)
    (hd : drafts[i]? = some d) {text : String} {j : Nat} :
    plan.target d (.str text) = .ok (some j) ↔
      j ≠ 0 ∧ ∃ n, chart.node? j = some n ∧ chart.Refers i text n.id := by
  obtain ⟨own, hown, hfin⟩ := tabled.exists_node hd
  by_cases hne : text = ""
  · subst hne
    refine iff_of_false (fun h => ?_) fun ⟨_, _, _, h⟩ => h.text_ne rfl
    rw [Blueprint.target, if_pos rfl] at h
    cases h
  · obtain ⟨o, ho, hoId⟩ := tabled.exists_outer hd
    have hresolve := tabled.numbered.resolve_eq_ok_iff (j := j) hd ho hne
    rw [Blueprint.target_str hne, map_eq_ok, hmachine, tabled.table_eq]
    simp only [Option.some.injEq, exists_eq_right, hresolve, Refers, idAt_eq hown, hfin.id_eq,
      ← hoId]
    refine and_congr_right fun _ => ⟨fun ⟨e, he, h⟩ => ?_, fun ⟨n, hn, h⟩ => ?_⟩
    · obtain ⟨n, hn, hfin⟩ := tabled.exists_node he
      exact ⟨n, hn, hfin.id_eq ▸ h⟩
    · obtain ⟨e, he, hfin⟩ := tabled.exists_draft hn
      exact ⟨e, he, hfin.id_eq ▸ h⟩

/-- References are resolved to the nodes whose ids they mean. -/
theorem Tabled.resolving {plan : Blueprint} {drafts : List Draft}
    (tabled : Tabled plan drafts chart) (hmachine : plan.machine = chart.id)
    (hd : drafts[i]? = some d) : chart.Resolving i (plan.target d) where
  denotes := tabled.target_eq_ok_iff hmachine hd
  fromRoot {j n} hn hj := by
    have hbelow : chart.isBelow j 0 = true :=
      isBelow_iff.mpr ⟨tabled.arena.zero_mem_ancestors hn, Ne.symm hj⟩
    have hid := tabled.arena.qualify_keysBelow hn hbelow
    refine (tabled.target_eq_ok_iff hmachine hd).mpr ⟨hj, n, hn, ?_⟩
    rw [tabled.arena.id_eq_of_isBelow hn hbelow, tabled.idAt_zero, ← String.append_assoc,
      ← String.append_assoc]
    rw [tabled.idAt_zero, tabled.arena.id_eq_of_isBelow hn hbelow, tabled.idAt_zero] at hid
    exact hid ▸ .fromRoot _
  below {j n} hn hbelow := by
    refine (tabled.target_eq_ok_iff hmachine hd).mpr ⟨ne_zero_of_isBelow hbelow, n, hn, ?_⟩
    exact tabled.arena.qualify_keysBelow hn hbelow ▸ .below _
  beside {j n} hn hbelow := by
    obtain ⟨hne, hhash, hdot⟩ := tabled.arena.dotted_keysBelow hn hbelow
    refine (tabled.target_eq_ok_iff hmachine hd).mpr ⟨ne_zero_of_isBelow hbelow, n, hn, ?_⟩
    exact tabled.arena.qualify_keysBelow hn hbelow ▸ .beside hne hhash hdot
  null_iff := Blueprint.target_eq_none_iff
  refused {declared} hnull hnone := by
    rcases htarget : plan.target d declared with defect | _ | j
    · exact ⟨defect, rfl, Blueprint.target_error htarget⟩
    · exact absurd (Blueprint.target_eq_none_iff.mp htarget) hnull
    · obtain ⟨text, rfl⟩ := Blueprint.exists_text_of_target htarget
      obtain ⟨hj, n, hn, hrefers⟩ := (tabled.target_eq_ok_iff hmachine hd).mp htarget
      exact absurd (hnone text j n rfl hn hrefers) hj

/-- A transition of a chart leads where its reference says, and nowhere without one. -/
theorem Tabled.refers_of_transition {plan : Blueprint} {drafts : List Draft}
    (tabled : Tabled plan drafts chart) (hmachine : plan.machine = chart.id)
    (hn : chart.node? i = some n) {t : Transition} (ht : t ∈ n.transitions ∨ n.onDone = some t) :
    (t.target = none ∧ t.reference = "") ∨ ∃ j m, t.target = some j ∧ j ≠ 0 ∧
      chart.node? j = some m ∧ chart.Refers i t.reference m.id := by
  obtain ⟨d, hd, hfin⟩ := tabled.exists_draft hn
  obtain ⟨event, declared, htransition⟩ :
      ∃ event declared, plan.transition d event declared = .ok t := by
    rcases ht with ht | ht
    · obtain ⟨members, -, hmapM⟩ := hfin.transitions_eq
      obtain ⟨member, -, hhandler⟩ := exists_of_mem_mapM hmapM ht
      exact ⟨_, _, Blueprint.exists_transition_of_handler hhandler⟩
    · obtain ⟨event, declared, -, hdone, -⟩ :=
        Blueprint.exists_transition_of_onDone (ht ▸ hfin.onDone_eq)
      exact ⟨event, declared, hdone⟩
  obtain ⟨reference, htarget, hreference⟩ := Blueprint.exists_target_of_transition htransition
  rcases hgoal : t.target with _ | j <;> rw [hgoal] at htarget
  · obtain rfl := Blueprint.target_eq_none_iff.mp htarget
    exact .inl ⟨rfl, hreference⟩
  · obtain ⟨text, rfl⟩ := Blueprint.exists_text_of_target htarget
    obtain ⟨hj, m, hm, hrefers⟩ := (tabled.resolving hmachine hd).denotes.mp htarget
    exact .inr ⟨j, m, rfl, hj, hm, hreference ▸ hrefers⟩

/-- **References.** On each node of a chart that a declaration describes, the references are
resolved to the nodes whose ids they mean: each node but the root is reached by its id, and along
its keys from the nodes above it and from beside them; every other reference is refused. So each
transition of the chart leads where its reference says. -/
theorem exists_resolving (hu : declaration.unrepeated = true)
    (h : define registry events declaration = .ok chart) :
    ∃ outline, Outline.read true chart.id chart.id declaration = .ok outline ∧
      ∀ i n, chart.node? i = some n →
        (∃ d, (Outline.drafts none 0 0 chart.id outline)[i]? = some d ∧
          chart.Resolving i ((planOf registry outline chart).target d)) ∧
        ∀ t, t ∈ n.transitions ∨ n.onDone = some t →
          (t.target = none ∧ t.reference = "") ∨ ∃ j m, t.target = some j ∧ j ≠ 0 ∧
            chart.node? j = some m ∧ chart.Refers i t.reference m.id := by
  obtain ⟨fields, outline, rfl, described⟩ := define_eq_ok_iff.mp h
  have tabled := described.tabled hu
  refine ⟨outline, described.read_eq, fun i n hn => ⟨?_, fun t ht => ?_⟩⟩
  · obtain ⟨d, hd, -⟩ := tabled.exists_draft hn
    exact ⟨d, hd, tabled.resolving rfl hd⟩
  · exact tabled.refers_of_transition rfl hn ht

/-- A declaration with references of all forms. -/
def mazeDeclaration : Json :=
  .obj [("id", .str "m"), ("initial", .str "a"), ("states", .obj [
    ("a", .obj [("initial", .str "x"), ("on", .obj [("in", .str ".y")]), ("states", .obj [
      ("x", .obj [("on", .obj [("on", .str "y"), ("out", .str "#m.b")])]), ("y", .obj [])])]),
    ("b", .obj [])])]

/-- The chart of the maze. -/
def maze : Chart := .ofDeclaration [] mazeDeclaration

set_option maxRecDepth 10000 in
/-- From a node two levels below the root, one node is reached by its id, and one beside it by its
key. -/
theorem exists_resolving_maze :
    mazeDeclaration.unrepeated = true ∧ define [] none mazeDeclaration = .ok maze ∧
      ∃ outline d, (Outline.drafts none 0 0 maze.id outline)[2]? = some d ∧
        maze.Resolving 2 ((planOf [] outline maze).target d) ∧
        (planOf [] outline maze).target d (.str "#m.b") = .ok (some 4) ∧
        (planOf [] outline maze).target d (.str "y") = .ok (some 3) := by
  have hu : mazeDeclaration.unrepeated = true := by decide +kernel
  have hdefine : define [] none mazeDeclaration = .ok maze :=
    define_ofDeclaration (by decide +kernel)
  obtain ⟨outline, -, hresolving⟩ := exists_resolving hu hdefine
  have hnode (i : Nat) (h : (maze.node? i).isSome = true) : ∃ n, maze.node? i = some n :=
    Option.isSome_iff_exists.mp h
  obtain ⟨x, hx⟩ := hnode 2 (by decide +kernel)
  obtain ⟨y, hy⟩ := hnode 3 (by decide +kernel)
  obtain ⟨b, hb⟩ := hnode 4 (by decide +kernel)
  obtain ⟨⟨d, hd, hforms⟩, -⟩ := hresolving 2 x hx
  have hid : maze.idAt 4 = "m.b" := by decide +kernel
  have hfromRoot := hforms.fromRoot hb (by decide)
  rw [← idAt_eq hb, hid] at hfromRoot
  have hkeys : maze.keysBelow (maze.outer 2) 3 = ["y"] := by decide +kernel
  have hbeside := hforms.beside hy (by decide +kernel)
  rw [hkeys] at hbeside
  exact ⟨hu, hdefine, outline, d, hd, hforms, hfromRoot, hbeside⟩

end Described

end Chart

end Lifecycle
