import Lifecycle.Proofs.Lead.Chart
import Lifecycle.Proofs.Microstep.Records

/-!
# The geometry of a microstep

A transition taken at a leaf leaves the part of the active path below its domain and enters a path
from there to the new leaf. The domain is the least common ancestor of the source and of the parent
of the target (`Arena.domain_spec`), which is above the leaf wherever source and target lie; the
path entered runs through the target, or past a history node to the child that it stands for
(`Arena.enter_spec`). `Geometry` puts the two together: every transition of a built chart that is
taken at a leaf has a microstep of that form (`Arena.resolve_spec`).
-/

namespace Lifecycle.Chart

variable {chart : Chart} {i j a p leaf source target domain : Nat} {history : Entries String}

/-- A node is above two others, and below every node above both. -/
structure IsMeet (chart : Chart) (a i j : Nat) : Prop where
  left : a ∈ chart.ancestors i
  right : a ∈ chart.ancestors j
  least {b : Nat} : b ∈ chart.ancestors i → b ∈ chart.ancestors j → b ∈ chart.ancestors a

/-! ## The domain -/

/-- How the domain of a transition is found: it is the source, or the innermost ancestor of the
source that the target lies below. -/
def DomainFound (chart : Chart) (source target domain : Nat) : Prop :=
  (chart.isBelow target source = true ∧ domain = source) ∨
    (chart.properAncestors source).find? (chart.isBelow target) = some domain

/-- The child at which the way to a target turns down: the target itself, or the child that a
history target stands for. -/
structure TurnsAt (chart : Chart) (history : Entries String) (target p x : Nat) : Prop where
  parent_eq : chart.parent? x = some p
  state : chart.isHistory x = false
  of_state : chart.isHistory target = false → x = target
  of_history : chart.isHistory target = true → ∃ n, chart.node? p = some n ∧
    (Entries.get? history n.id = some (chart.keyAt x) ∨
      Entries.get? history n.id = none ∧ n.initial = some x)

namespace Arena

variable (tree : chart.Arena)

include tree

/-- The search for a domain succeeds, at the least common ancestor of the source and the parent of
the target. -/
theorem domain_spec {n : Node} (hsource : chart.node? source = some n)
    (hparent : chart.parent? target = some p) :
    chart.DomainFound source target (chart.domain source target) ∧
      chart.IsMeet (chart.domain source target) source p := by
  by_cases hbelow : chart.isBelow target source = true
  · have hmem := (tree.isBelow_iff_of_parent hparent).mp hbelow
    rw [domain, if_pos hbelow]
    exact ⟨.inl ⟨hbelow, rfl⟩, self_mem_ancestors chart source, hmem, fun hb _ => hb⟩
  · have hproper : ∀ {b : Nat}, b ∈ chart.ancestors source → chart.isBelow target b = true →
        b ∈ chart.properAncestors source := by
      intro b hb hbtarget
      refine mem_properAncestors.mpr ⟨hb, ?_⟩
      rintro rfl
      exact hbelow hbtarget
    have hroot : chart.isBelow target 0 = true := by
      obtain ⟨-, -, m, -, hm, -⟩ := tree.parent?_spec hparent
      exact (tree.isBelow_iff_of_parent hparent).mpr (tree.zero_mem_ancestors hm)
    rcases hfind : (chart.properAncestors source).find? (chart.isBelow target) with _ | a
    · exact absurd hroot (List.find?_eq_none.mp hfind 0
        (hproper (tree.zero_mem_ancestors hsource) hroot))
    · have hdomain : chart.domain source target = a := by
        rw [domain, if_neg hbelow, hfind]; rfl
      have ha : a ∈ chart.ancestors source :=
        (mem_properAncestors.mp (List.mem_of_find?_eq_some hfind)).1
      rw [hdomain]
      refine ⟨.inr hfind, ha, (tree.isBelow_iff_of_parent hparent).mp (List.find?_some hfind), ?_⟩
      intro b hb hbp
      have hbtarget := (tree.isBelow_iff_of_parent hparent).mpr hbp
      exact mem_ancestors_of_le hb ha
        (le_of_find?_properAncestors hfind (hproper hb hbtarget) hbtarget)

/-- The domain of a transition taken at a leaf is a compound node above the leaf. -/
theorem domain_above (hleaf : chart.IsLeaf leaf) (hsource : source ∈ chart.ancestors leaf)
    (hparent : chart.parent? target = some p) :
    chart.kindAt? (chart.domain source target) = some .compound ∧
      chart.isBelow leaf (chart.domain source target) = true := by
  obtain ⟨n, hn⟩ := hleaf.exists_node
  obtain ⟨m, hm⟩ := tree.exists_node_of_mem_ancestors hn hsource
  obtain ⟨-, hmeet⟩ := tree.domain_spec hm hparent
  have hcompound : chart.kindAt? (chart.domain source target) = some .compound := by
    have hmem : chart.domain source target ∈ chart.ancestors target :=
      ancestors_trans hmeet.right (tree.mem_ancestors_of_parent hparent)
    refine tree.kindAt?_of_mem_properAncestors hmem fun heq => ?_
    have hle := le_of_mem_ancestors chart hmeet.right
    have hlt := (tree.parent?_spec hparent).1
    omega
  exact ⟨hcompound, isBelow_iff.mpr
    ⟨ancestors_trans hmeet.left hsource, hleaf.ne_of_kindAt? hcompound⟩⟩

/-! ## The path entered -/

/-- The nodes above a child are no history nodes. -/
theorem isHistory_of_mem_ancestors_parent (hparent : chart.parent? target = some p)
    (hi : i ∈ chart.ancestors p) : chart.isHistory i = false := by
  by_cases hip : i = p
  · exact hip ▸ tree.isHistory_of_parent hparent
  · exact isHistory_of_kindAt? (tree.kindAt?_of_mem_properAncestors hi hip) (by decide)

theorem filter_exitSet (hparent : chart.parent? target = some p) :
    (chart.exitSet p a).reverse.filter (fun i => !chart.isHistory i) =
      (chart.exitSet p a).reverse := by
  refine List.filter_eq_self.mpr fun i hi => ?_
  have hmem := (mem_exitSet.mp (List.mem_reverse.mp hi)).1
  simp [tree.isHistory_of_mem_ancestors_parent hparent hmem]

/-- Entering from below a node above the parent of a target goes down to that parent, from there to
one of its children, and on along initial children. -/
theorem enter_spec (hfits : chart.Fits history) (hparent : chart.parent? target = some p)
    (ha : a ∈ chart.ancestors p) :
    ∃ x, chart.TurnsAt history target p x ∧
      chart.enter (some a) target history =
        .ok ((chart.exitSet p a).reverse ++ x :: chart.descend x) := by
  have hmem : a ∈ chart.ancestors target :=
    ancestors_trans ha (tree.mem_ancestors_of_parent hparent)
  have hcontains : (chart.pathTo target).contains a = true :=
    List.contains_iff_mem.mpr (mem_pathTo.mpr hmem)
  have hbelow : ((chart.pathTo target).dropWhile (· ≠ a)).drop 1 =
      (chart.exitSet p a).reverse ++ [target] := by
    rw [dropWhile_pathTo hmem, List.drop_one, List.tail_cons, tree.exitSet_of_parent hparent ha,
      List.reverse_cons]
  rw [enter, if_pos hcontains, hbelow, enterAlong, List.filter_append,
    tree.filter_exitSet hparent]
  by_cases hhistory : chart.isHistory target = true
  · obtain ⟨n, c, hn, hc, hcparent, hcstate, hrecall⟩ := tree.remembered_spec hfits hparent
    refine ⟨c, ⟨hcparent, hcstate, fun h => ?_, fun _ => ⟨n, hn, hrecall⟩⟩, ?_⟩
    · rw [hhistory] at h; cases h
    · simp [hhistory, hc]
  · rw [Bool.not_eq_true] at hhistory
    refine ⟨target, ⟨hparent, hhistory, fun _ => rfl, fun h => ?_⟩, ?_⟩
    · rw [hhistory] at h; cases h
    · simp [hhistory]

/-- The nodes entered continue the path to the domain and end at a leaf. -/
theorem pathTo_entered {x : Nat} (hparent : chart.parent? x = some p)
    (hstate : chart.isHistory x = false) (ha : a ∈ chart.ancestors p) {entered : List Nat}
    (hentered : entered = (chart.exitSet p a).reverse ++ x :: chart.descend x) :
    entered.getLast? = some (chart.leafBelow x) ∧
      chart.pathTo (chart.leafBelow x) = chart.pathTo a ++ entered ∧
      chart.IsLeaf (chart.leafBelow x) ∧ ∀ i ∈ entered, chart.isHistory i = false := by
  subst hentered
  obtain ⟨-, n, -, hn, -⟩ := tree.parent?_spec hparent
  obtain ⟨hpath, hleaf, hbelow⟩ := tree.pathTo_leafBelow hn hstate
  refine ⟨?_, ?_, hleaf, ?_⟩
  · rw [List.getLast?_append, List.getLast?_cons]; rfl
  · rw [hpath, tree.pathTo_of_parent hparent, pathTo_eq_append_exitSet ha]
    simp
  · intro i hi
    rcases List.mem_append.mp hi with hi | hi
    · exact tree.isHistory_of_mem_ancestors_parent hparent
        (mem_exitSet.mp (List.mem_reverse.mp hi)).1
    · rcases List.mem_cons.mp hi with rfl | hi
      · exact hstate
      · exact hbelow i hi

end Arena

/-! ## The microstep -/

/-- The form of a microstep that is taken at a leaf towards a target. -/
structure Geometry (chart : Chart) (leaf : Nat) (t : Transition) (target domain : Nat)
    (step : Microstep) : Prop where
  transition_eq : step.transition = t
  domain_eq : step.domain = some domain
  found : chart.DomainFound t.source target domain
  meet : ∃ p, chart.parent? target = some p ∧ chart.IsMeet domain t.source p
  compound : chart.kindAt? domain = some .compound
  above : chart.isBelow leaf domain = true
  path_left : chart.pathTo leaf = chart.pathTo domain ++ step.exited.reverse
  path_entered : chart.pathTo step.leaf = chart.pathTo domain ++ step.entered
  states : ∀ i ∈ step.entered, chart.isHistory i = false
  target_mem : chart.isHistory target = false → target ∈ step.entered
  ends : step.entered.getLast? = some step.leaf
  isLeaf : chart.IsLeaf step.leaf

/-- A transition towards a node below the root, taken at a leaf below its source, has a microstep:
it records the owners of history that it leaves, and enters the target by what is then on record. -/
theorem Arena.resolve_spec (tree : chart.Arena) {t : Transition} (hleaf : chart.IsLeaf leaf)
    (hsource : t.source ∈ chart.ancestors leaf) (htarget : t.target = some target)
    (hparent : chart.parent? target = some p) (hfits : chart.Fits history) :
    ∃ step x, chart.resolve leaf t history = .ok step ∧
      chart.Geometry leaf t target (chart.domain t.source target) step ∧
      step.exited = chart.exitSet leaf (chart.domain t.source target) ∧
      chart.RecordsLeft leaf step.exited step.history ∧
      chart.TurnsAt (Entries.overlay history step.history) target p x ∧
      step.entered = (chart.exitSet p (chart.domain t.source target)).reverse ++
        x :: chart.descend x := by
  obtain ⟨n, hn⟩ := hleaf.exists_node
  obtain ⟨m, hm⟩ := tree.exists_node_of_mem_ancestors hn hsource
  obtain ⟨hfound, hmeet⟩ := tree.domain_spec hm hparent
  obtain ⟨hcompound, habove⟩ := tree.domain_above hleaf hsource hparent
  have hexited : ∀ i ∈ chart.exitSet leaf (chart.domain t.source target),
      i ∈ chart.ancestors leaf := fun i hi => (mem_exitSet.mp hi).1
  obtain ⟨records, hrecords, hleft⟩ := tree.recordsOf_spec hleaf hexited
  have hfits' : chart.Fits (Entries.overlay history records) :=
    hleft.fits tree hleaf hexited hfits
  obtain ⟨x, hx, henter⟩ := tree.enter_spec hfits' hparent hmeet.right
  obtain ⟨hends, hpath, hisLeaf, hstates⟩ :=
    tree.pathTo_entered hx.parent_eq hx.state hmeet.right rfl
  let entered := (chart.exitSet p (chart.domain t.source target)).reverse ++ x :: chart.descend x
  refine ⟨⟨t, some (chart.domain t.source target),
    chart.exitSet leaf (chart.domain t.source target), entered, records,
    entered.getLast?.getD leaf⟩, x, ?_, ?_, rfl, hleft, hx, rfl⟩
  · simp only [resolve, htarget, hrecords, henter, entered]
  · refine ⟨rfl, rfl, hfound, ⟨p, hparent, hmeet⟩, hcompound, habove,
      pathTo_eq_append_exitSet (isBelow_iff.mp habove).1, ?_, hstates, fun h => ?_, ?_, ?_⟩
    · dsimp only; rw [hends]; exact hpath
    · rw [← hx.of_state h]; exact List.mem_append_right _ List.mem_cons_self
    · dsimp only; rw [hends]; rfl
    · dsimp only; rw [hends]; exact hisLeaf

/-- A node of the chart declares the transition, for an event or for its completion. -/
def Declares (chart : Chart) (t : Transition) : Prop :=
  ∃ i n, chart.node? i = some n ∧ (t ∈ n.transitions ∨ n.onDone = some t)

theorem Arena.exists_parent?_of_declares (tree : chart.Arena) {t : Transition}
    (ht : chart.Declares t) (htarget : t.target = some target) :
    ∃ p, chart.parent? target = some p := by
  obtain ⟨i, n, hn, ht | ht⟩ := ht
  · exact Option.isSome_iff_exists.mp ((tree.transition hn ht).2 target htarget)
  · obtain ⟨-, other, hother, hparent, -⟩ := tree.onDone hn ht
    obtain rfl := Option.some.inj (htarget.symm.trans hother)
    exact Option.isSome_iff_exists.mp hparent

/-- **The geometry of a microstep.** In a built chart a declared transition with a target, taken at
a leaf at or below its source under records that restoring accepts, has a microstep of exact
geometry. -/
theorem resolve_geometry (hbuilt : chart.Built) (hleaf : chart.IsLeaf leaf) {t : Transition}
    (ht : chart.Declares t) (htarget : t.target = some target)
    (hsource : t.source ∈ chart.ancestors leaf) {members : List (String × Json)}
    (hhistory : chart.fitHistory members = .ok history) :
    ∃ step domain, chart.resolve leaf t history = .ok step ∧
      chart.Geometry leaf t target domain step := by
  have tree := hbuilt.arena
  obtain ⟨p, hparent⟩ := tree.exists_parent?_of_declares ht htarget
  obtain ⟨step, -, hstep, hgeometry, -⟩ :=
    tree.resolve_spec hleaf hsource htarget hparent (fits_of_fitHistory tree hhistory)
  exact ⟨step, _, hstep, hgeometry⟩

set_option maxRecDepth 10000 in
/-- A paused lead resumes in what is on record. -/
theorem resolve_geometry_resumed :
    Lead.chart.Built ∧ Lead.chart.IsLeaf 17 ∧ ∃ t step domain, Lead.chart.Declares t ∧
      t.target = some 10 ∧ t.source ∈ Lead.chart.ancestors 17 ∧
      Lead.chart.fitHistory [("lead.active", .str "conversion")] =
        .ok [("lead.active", "conversion")] ∧
      Lead.chart.resolve 17 t [("lead.active", "conversion")] = .ok step ∧
      Lead.chart.Geometry 17 t 10 domain step := by
  have hhandler : (Lead.chart.handlerAt? "conversation.resumed" 17).map Transition.target =
      some (some 10) := by decide +kernel
  obtain ⟨t, ht, htarget⟩ := Option.map_eq_some_iff.mp hhandler
  obtain ⟨n, hn, hfind⟩ := Option.bind_eq_some_iff.mp ht
  have hmem := List.mem_of_find?_eq_some hfind
  have hsource : t.source ∈ Lead.chart.ancestors 17 := by
    rw [(Lead.chart_built.arena.transition hn hmem).1]
    exact self_mem_ancestors Lead.chart 17
  have hfit : (Lead.chart.fitHistory [("lead.active", .str "conversion")]).toOption =
      some [("lead.active", "conversion")] := by decide +kernel
  rcases hhistory : Lead.chart.fitHistory [("lead.active", .str "conversion")] with cause | history
  · rw [hhistory] at hfit; cases hfit
  · rw [hhistory] at hfit
    obtain rfl := Option.some.inj hfit
    have hleaf : Lead.chart.IsLeaf 17 := by decide +kernel
    have hdeclares : Lead.chart.Declares t := ⟨17, n, hn, .inl hmem⟩
    obtain ⟨step, domain, hstep, hgeometry⟩ :=
      resolve_geometry Lead.chart_built hleaf hdeclares htarget hsource hhistory
    exact ⟨Lead.chart_built, hleaf, t, step, domain, hdeclares, htarget, hsource, rfl, hstep,
      hgeometry⟩

end Lifecycle.Chart
