import Lifecycle.Proofs.Interpreter.Course
import Lifecycle.Proofs.Lead.Chart

/-!
# What the history records remember

After any passages the records hold, for each owner of history that has been left, the child that
was active just before it was left last, and nothing else (`Remembers`); a passage to a history node
enters that child, or the initial one (`Recalls`). Each passage preserves the first and does the
second (`Remembers.append`, `Remembers.recalls`), so both hold along every run
(`Remembers.leadsTo`).
-/

namespace Lifecycle

/-- In a list with one item more at the end, an item is the last one or stands in the list. -/
theorem append_singleton_cases {α : Type} {a b : α} {items before after : List α}
    (h : items ++ [a] = before ++ b :: after) :
    (a = b ∧ after = [] ∧ items = before) ∨
      ∃ others, after = others ++ [a] ∧ items = before ++ b :: others := by
  rcases List.eq_nil_or_concat' after with rfl | ⟨others, last, rfl⟩
  · obtain ⟨hitems, hlast⟩ := List.append_inj' h rfl
    exact .inl ⟨List.singleton_inj.mp hlast, rfl, hitems⟩
  · rw [← List.cons_append, ← List.append_assoc] at h
    obtain ⟨hitems, hlast⟩ := List.append_inj' h rfl
    exact .inr ⟨others, by rw [List.singleton_inj.mp hlast], hitems⟩

namespace Chart

variable {chart : Chart} {c i x y : Nat} {n : Node} {s s' : Situation} {passage : Passage}
  {passages before after : List Passage} {history : Entries String}

/-- A node of the path to a leaf has one child on it. -/
theorem Arena.child_unique (tree : chart.Arena) (hx : chart.parent? x = some c)
    (hy : chart.parent? y = some c) (hxi : x ∈ chart.ancestors i) (hyi : y ∈ chart.ancestors i) :
    x = y := by
  have hnot : ∀ {a b : Nat}, chart.parent? a = some c → chart.parent? b = some c →
      a ∈ chart.ancestors b → a = b := by
    intro a b ha hb hab
    rw [tree.ancestors_of_parent hb] at hab
    refine (List.mem_cons.mp hab).resolve_right fun hac => ?_
    have hle := le_of_mem_ancestors chart hac
    have hlt := (tree.parent?_spec ha).1
    omega
  rcases Nat.le_total x y with hle | hle
  · exact hnot hx hy (mem_ancestors_of_le hxi hyi hle)
  · exact (hnot hy hx (mem_ancestors_of_le hyi hxi hle)).symm

/-- The latest of some passages that left a node was taken while this child of it was active. -/
def LastActive (chart : Chart) (passages : List Passage) (c x : Nat) : Prop :=
  ∃ before p after, passages = before ++ p :: after ∧ c ∈ p.step.exited ∧
    (∀ q ∈ after, c ∉ q.step.exited) ∧ chart.parent? x = some c ∧ x ∈ chart.pathTo p.leaf

/-- The records remember some passages. -/
structure Remembers (chart : Chart) (passages : List Passage) (history : Entries String) :
    Prop where
  record {c : Nat} {n : Node} {key : String} : chart.node? c = some n →
    n.history.isSome = true → (Entries.get? history n.id = some key ↔
      ∃ x, chart.LastActive passages c x ∧ chart.keyAt x = key)
  absent {c : Nat} {n : Node} : chart.node? c = some n → n.history.isSome = true →
    (Entries.get? history n.id = none ↔ ∀ p ∈ passages, c ∉ p.step.exited)
  keys {id : String} : id ∈ Entries.keys history →
    ∃ c n, chart.node? c = some n ∧ n.history.isSome = true ∧ n.id = id

/-- A passage to the history node of some node, after others, enters the child of that node that is
remembered when the nodes it leaves have been left, and initial children from there; where nothing
is remembered it enters the initial path. -/
def Recalls (chart : Chart) (before : List Passage) (p : Passage) : Prop :=
  ∀ k c n, p.step.transition.target = some k → chart.isHistory k = true →
    chart.parent? k = some c → chart.node? c = some n → ∃ x above,
      (chart.LastActive (before ++ [p]) c x ∨
        (∀ q ∈ before ++ [p], c ∉ q.step.exited) ∧ n.initial = some x) ∧
      chart.parent? x = some c ∧
      p.step.entered = above ++ x :: chart.descend x ∧
      chart.pathTo p.step.leaf = chart.pathTo c ++ x :: chart.descend x ∧
      chart.IsLeaf p.step.leaf

theorem LastActive.parent_eq (h : chart.LastActive passages c x) : chart.parent? x = some c := by
  obtain ⟨-, -, -, -, -, -, hparent, -⟩ := h
  exact hparent

theorem lastActive_append_of_mem (hc : c ∈ passage.step.exited) :
    chart.LastActive (passages ++ [passage]) c x ↔
      chart.parent? x = some c ∧ x ∈ chart.pathTo passage.leaf := by
  constructor
  · rintro ⟨before, p, after, hsplit, -, hafter, hx⟩
    rcases append_singleton_cases hsplit with ⟨rfl, -, -⟩ | ⟨others, rfl, -⟩
    · exact hx
    · exact absurd hc (hafter passage (List.mem_append_right _ List.mem_cons_self))
  · intro hx
    exact ⟨passages, passage, [], rfl, hc, nofun, hx⟩

theorem lastActive_append_of_notMem (hc : c ∉ passage.step.exited) :
    chart.LastActive (passages ++ [passage]) c x ↔ chart.LastActive passages c x := by
  constructor
  · rintro ⟨before, p, after, hsplit, hp, hafter, hx⟩
    rcases append_singleton_cases hsplit with ⟨rfl, -, -⟩ | ⟨others, rfl, hothers⟩
    · exact absurd hp hc
    · exact ⟨before, p, others, hothers, hp, fun q hq => hafter q (List.mem_append_left _ hq), hx⟩
  · rintro ⟨before, p, after, rfl, hp, hafter, hx⟩
    refine ⟨before, p, after ++ [passage], by simp, hp, fun q hq => ?_, hx⟩
    rcases List.mem_append.mp hq with hq | hq
    · exact hafter q hq
    · rwa [List.mem_singleton.mp hq]

theorem remembers_nil (chart : Chart) : chart.Remembers [] [] := by
  refine ⟨fun _ _ => ⟨nofun, ?_⟩, fun _ _ => ⟨nofun, fun _ => rfl⟩, nofun⟩
  rintro ⟨x, ⟨before, p, after, hsplit, -⟩, -⟩
  cases before <;> cases hsplit

section Steps

variable (tree : chart.Arena) (hs : chart.Situated s) (hleads : chart.Leads s passage s')

include tree hs hleads

/-- A passage leaves nodes above the active leaf, and an owner of history among them had an active
child. -/
theorem Leads.exists_next? (hn : chart.node? c = some n) (howner : n.history.isSome = true)
    (hc : c ∈ passage.step.exited) :
    ∃ x, chart.next? s.leaf c = some x ∧ chart.parent? x = some c ∧
      x ∈ chart.pathTo passage.leaf := by
  have hshift := tree.shift_of_leads hs hleads
  have hne : c ≠ s.leaf :=
    hs.isLeaf.ne_of_kindAt? (by rw [kindAt?_eq hn, tree.kind_of_history hn howner])
  obtain ⟨x, hx, hparent, hmem⟩ := tree.next?_spec (hshift.mem_ancestors hc) hne
  exact ⟨x, hx, hparent, by rw [hleads.leaf_eq]; exact mem_pathTo.mpr hmem⟩

/-- The records after a passage remember it, too. -/
theorem Remembers.append (h : chart.Remembers passages s.history) :
    chart.Remembers (passages ++ [passage]) s'.history := by
  have hrecords := (tree.shift_of_leads hs hleads).records
  rw [hleads.history_after]
  constructor
  · intro c n key hn howner
    by_cases hc : c ∈ passage.step.exited
    · obtain ⟨x, hnext, hparent, hx⟩ := hleads.exists_next? tree hs hn howner hc
      rw [hrecords.get?_of_mem tree hn howner hc hnext]
      constructor
      · intro hkey
        exact ⟨x, (lastActive_append_of_mem hc).mpr ⟨hparent, hx⟩, Option.some.inj hkey⟩
      · rintro ⟨y, hy, rfl⟩
        obtain ⟨hyparent, hy⟩ := (lastActive_append_of_mem hc).mp hy
        rw [tree.child_unique hparent hyparent (mem_pathTo.mp hx) (mem_pathTo.mp hy)]
    · rw [hrecords.get?_of_notMem tree hn hc, h.record hn howner]
      exact exists_congr fun x => and_congr_left fun _ => (lastActive_append_of_notMem hc).symm
  · intro c n hn howner
    rw [List.forall_mem_append, List.forall_mem_singleton]
    by_cases hc : c ∈ passage.step.exited
    · obtain ⟨x, hnext, -⟩ := hleads.exists_next? tree hs hn howner hc
      rw [hrecords.get?_of_mem tree hn howner hc hnext]
      exact ⟨nofun, fun hnot => absurd hc hnot.2⟩
    · rw [hrecords.get?_of_notMem tree hn hc, h.absent hn howner]
      exact ⟨fun hnot => ⟨hnot, hc⟩, fun hnot => hnot.1⟩
  · intro id hid
    by_cases hleft : ∃ i ∈ passage.step.exited, ∃ n, chart.node? i = some n ∧
        n.history.isSome = true ∧ n.id = id
    · obtain ⟨i, -, n, hn, howner, rfl⟩ := hleft
      exact ⟨i, n, hn, howner, rfl⟩
    · rw [← Entries.get?_isSome_iff, hrecords.get?_of_forall_ne fun i hi n hn howner heq =>
        hleft ⟨i, hi, n, hn, howner, heq⟩, Entries.get?_isSome_iff] at hid
      exact h.keys hid

/-- A passage to a history node goes to what is remembered. -/
theorem Remembers.recalls (h : chart.Remembers passages s.history) :
    chart.Recalls passages passage := by
  intro k c n htarget hhistory hparent hn
  have hshift := tree.shift_of_leads hs hleads
  have hafter := h.append tree hs hleads
  rw [hleads.history_after] at hafter
  have howner : n.history.isSome = true :=
    Option.isSome_iff_exists.mpr ⟨k, (tree.history_iff hn).mpr ⟨hparent, hhistory⟩⟩
  obtain ⟨d, x, hturns, hentered⟩ := hshift.turns k c htarget hparent
  obtain ⟨m, hm, hrecall⟩ := hturns.of_history hhistory
  obtain rfl := Option.some.inj (hn.symm.trans hm)
  have hxparent := hturns.parent_eq
  obtain ⟨-, l, -, hl, -⟩ := tree.parent?_spec hxparent
  obtain ⟨hpath, -⟩ := tree.pathTo_leafBelow hl hturns.state
  have hleaf : passage.step.leaf = chart.leafBelow x := by
    obtain ⟨above, -, hends⟩ := hshift.paths
    have hlast := getLast?_pathTo chart passage.step.leaf
    rw [hends, hentered, ← List.append_assoc, List.getLast?_append, List.getLast?_cons] at hlast
    exact (Option.some.inj hlast).symm
  refine ⟨x, _, ?_, hxparent, hentered, ?_, hshift.isLeaf⟩
  · rcases hrecall with hget | ⟨hget, hinitial⟩
    · obtain ⟨y, hy, hkey⟩ := (hafter.record hn howner).mp hget
      rw [← tree.key_inj hy.parent_eq hxparent hkey]
      exact .inl hy
    · exact .inr ⟨(hafter.absent hn howner).mp hget, hinitial⟩
  · rw [hleaf, hpath, tree.pathTo_of_parent hxparent, List.append_assoc, List.singleton_append]

end Steps

/-- The records after some passages remember them, and each of them recalled those before it. -/
theorem Remembers.leadsTo (tree : chart.Arena) (hs : chart.Situated s)
    (h : chart.Remembers before s.history) (hpassages : chart.LeadsTo s passages s') :
    chart.Remembers (before ++ passages) s'.history ∧
      ∀ earlier p later, passages = earlier ++ p :: later →
        chart.Recalls (before ++ earlier) p := by
  induction hpassages generalizing before with
  | refl s =>
    rw [List.append_nil]
    exact ⟨h, fun earlier p later hsplit => by cases earlier <;> cases hsplit⟩
  | cons hleads _ ih =>
    obtain ⟨hremembers, hrecalls⟩ :=
      ih (tree.situated_of_leads hs hleads) (h.append tree hs hleads)
    refine ⟨by rw [List.append_cons]; exact hremembers, fun earlier p later hsplit => ?_⟩
    cases earlier with
    | nil =>
      rw [List.nil_append, List.cons.injEq] at hsplit
      rw [← hsplit.1, List.append_nil]
      exact h.recalls tree hs hleads
    | cons first earlier =>
      rw [List.cons_append, List.cons.injEq] at hsplit
      rw [← hsplit.1, List.append_cons]
      exact hrecalls earlier p later hsplit.2

end Chart

namespace Interpreter

variable {chart : Chart}

/-- **What a run remembers.** In a built chart whose actions never fail the records of a run are
always the memory of its passages, and every passage to a history node goes by that memory. -/
theorem run_memory (hbuilt : chart.Built) (htotal : chart.NeverFails) (context : Context)
    (name : Option String) (calls : List Call) :
    ((started chart context name).run calls).IsCourse chart context
        (course chart context name calls) ∧
      chart.Remembers (course chart context name calls)
        ((started chart context name).run calls).history ∧
      ∀ before p after, course chart context name calls = before ++ p :: after →
        chart.Recalls before p := by
  have tree := hbuilt.arena
  have hcourse := isCourse_run tree htotal context name calls
  obtain ⟨s₀, s, hbegins, hleads, hrests⟩ := id hcourse
  have hnothing : chart.Remembers [] s₀.history := by
    rw [hbegins.history_eq]
    exact Chart.remembers_nil chart
  obtain ⟨hremembers, hrecalls⟩ := hnothing.leadsTo tree (hbegins.situated tree) hleads
  rw [hrests.history_eq]
  exact ⟨hcourse, hremembers, hrecalls⟩

set_option maxRecDepth 10000 in
/-- A lead that is resumed after a pause remembers the conversion that was interrupted. -/
theorem run_memory_resumed :
    Lead.chart.Built ∧ Lead.chart.NeverFails ∧ ∃ x, Lead.chart.LastActive (course Lead.chart [] none
        [⟨.int 0, "meeting.booked"⟩, ⟨.int 0, "conversation.paused"⟩,
          ⟨.int 0, "conversation.resumed"⟩]) 1 x ∧ Lead.chart.keyAt x = "conversion" := by
  obtain ⟨-, hremembers, -⟩ := run_memory Lead.chart_built Lead.chart_neverFails [] none
    [⟨.int 0, "meeting.booked"⟩, ⟨.int 0, "conversation.paused"⟩,
      ⟨.int 0, "conversation.resumed"⟩]
  have howner : (Lead.chart.node? 1).map (fun n => (n.id, n.history)) =
      some ("lead.active", some 10) := by decide +kernel
  obtain ⟨n, hn, hfields⟩ := Option.map_eq_some_iff.mp howner
  obtain ⟨hid, hhistory⟩ := Prod.mk.inj hfields
  refine ⟨Lead.chart_built, Lead.chart_neverFails,
    (hremembers.record hn (by rw [hhistory]; rfl)).mp ?_⟩
  rw [hid]
  decide +kernel

end Interpreter

end Lifecycle
