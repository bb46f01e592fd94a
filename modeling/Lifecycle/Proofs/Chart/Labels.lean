import Lifecycle.Proofs.Chart.Drawing

/-!
# Labels

The label of a node is its key and the marks behind it (`Chart.label_eq`). In a legible chart no key
and no tag has a character that means something in a diagram, so a label is one line
(`Legible.labelsAt_eq`) that no guide can be taken for, and it shows its marks: it ends with that of
the active path just for an active node (`active_mark_iff`), and has that of a history record if its
node has a record (`record_mark_infix`) and not otherwise (`record_mark_notInfix`).
-/

namespace Lifecycle

/-- A text that ends with an item, and stands where the item stands once, ends there. -/
theorem suffix_of_concat_infix {α : Type} {a : α} {text before after : List α}
    (hbefore : a ∉ before) (hafter : a ∉ after) (h : text ++ [a] <:+: before ++ a :: after) :
    text <:+ before := by
  obtain ⟨front, back, heq⟩ := h
  have hcut : before ++ a :: after = (front ++ text) ++ a :: back := by simpa using heq.symm
  rw [((List.append_cons_inj_of_notMem hbefore hafter).mp hcut).1]
  exact List.suffix_append _ _

namespace Diagram

/-- Whether a character means something in a diagram. No letter or digit does, and neither do the
underscore and the hyphen. -/
def isMark (c : Char) : Bool := isGuide c || c == '=' || c == '●' || breaksLine c

/-- Whether a character is a letter, a digit, an underscore or a hyphen, all of them plain. -/
def isWordChar (c : Char) : Bool :=
  ('a' ≤ c && c ≤ 'z') || ('A' ≤ c && c ≤ 'Z') || ('0' ≤ c && c ≤ '9') || c == '_' || c == '-'

theorem isMark_of_isWordChar {c : Char} (h : isWordChar c = true) : isMark c = false := by
  have hle {d : Char} (hd : d.toNat < 128) (hcd : c ≤ d) : c.toNat < 128 :=
    Nat.lt_of_le_of_lt (UInt32.le_iff_toNat_le.mp (Char.le_def.mp hcd)) hd
  have hlt : c.toNat < 128 := by
    simp only [isWordChar, Bool.or_eq_true, Bool.and_eq_true, decide_eq_true_eq, beq_iff_eq] at h
    rcases h with (((h | h) | h) | rfl) | rfl
    · exact hle (by decide : 'z'.toNat < 128) h.2
    · exact hle (by decide : 'Z'.toNat < 128) h.2
    · exact hle (by decide : '9'.toNat < 128) h.2
    · decide
    · decide
  have hall : ∀ k < 128, isWordChar (Char.ofNat k) = true → isMark (Char.ofNat k) = false := by
    decide +kernel
  rw [← Char.ofNat_toNat c] at h ⊢
  exact hall c.toNat hlt h

/-- All characters of a text that mean something in a diagram are among the given ones. -/
def Tame (marks : List Char) (text : String) : Prop :=
  ∀ c ∈ text.toList, isMark c = true → c ∈ marks

instance (marks : List Char) (text : String) : Decidable (Tame marks text) :=
  List.decidableBAll (fun c => isMark c = true → c ∈ marks) text.toList

variable {marks others : List Char} {first second text : String}

theorem tame_of_all_isWordChar (h : text.toList.all isWordChar = true) : Tame [] text := by
  intro c hc hmark
  rw [isMark_of_isWordChar (List.all_eq_true.mp h c hc)] at hmark
  cases hmark

theorem Tame.append (h : Tame marks first) (h' : Tame marks second) :
    Tame marks (first ++ second) := by
  intro c hc
  rw [String.toList_append] at hc
  exact (List.mem_append.mp hc).elim (h c) (h' c)

theorem Tame.intercalate {separator : String} {texts : List String} (h : Tame marks separator)
    (htexts : ∀ text ∈ texts, Tame marks text) : Tame marks (separator.intercalate texts) := by
  intro c hc hmark
  rw [String.toList_intercalate] at hc
  induction texts with
  | nil => cases hc
  | cons first rest ih =>
    obtain ⟨hfirst, hrest⟩ := List.forall_mem_cons.mp htexts
    cases rest with
    | nil => exact hfirst c (by simpa using hc) hmark
    | cons second others =>
      rw [List.map_cons, List.map_cons, List.intercalate_cons_cons, ← List.map_cons] at hc
      rcases List.mem_append.mp hc with hc | hc
      · exact (List.mem_append.mp hc).elim (hfirst c · hmark) (h c · hmark)
      · exact ih hrest hc

theorem Tame.mono (h : Tame marks text) (hsub : marks ⊆ others) : Tame others text :=
  fun c hc hmark => hsub (h c hc hmark)

theorem Tame.notMem {c : Char} (h : Tame marks text) (hmark : isMark c = true) (hc : c ∉ marks) :
    c ∉ text.toList :=
  fun hmem => hc (h c hmem hmark)

end Diagram

namespace Chart

open Diagram

variable {chart : Chart} {highlight : Option Highlight} {active : List Nat} {i : Nat} {n : Node}

/-! ## The marks of a label -/

/-- What the label of a node tells of its initial child. -/
def initialMark (chart : Chart) (n : Node) : String :=
  match n.kind, n.initial with
  | .compound, some child => " initial=" ++ chart.keyAt child
  | _, _ => ""

/-- What the label of a node tells of a history record. -/
def recordMark (highlight : Option Highlight) (n : Node) : String :=
  match highlight.bind fun h => Entries.get? h.history n.id with
  | some key => " history=" ++ key
  | none => ""

/-- What the label of a node tells of its tags. -/
def tagMark (n : Node) : String :=
  if n.tags.isEmpty then ""
  else " [" ++ String.intercalate ", " (Json.sortKeys n.tags) ++ "]"

/-- What the label of a node tells of the active path. -/
def activeMark (active : List Nat) (n : Node) : String :=
  if active.contains n.index then " ●" else ""

theorem label_eq (chart : Chart) (highlight : Option Highlight) (active : List Nat) (n : Node) :
    chart.label highlight active n = n.key ++ kindMark n.kind ++ chart.initialMark n
      ++ recordMark highlight n ++ tagMark n ++ activeMark active n := rfl

theorem initialMark_cases (chart : Chart) (n : Node) : chart.initialMark n = "" ∨
    ∃ child, chart.initialMark n = " initial=" ++ chart.keyAt child := by
  unfold initialMark
  split
  · exact .inr ⟨_, rfl⟩
  · exact .inl rfl

/-- No key and no tag of a chart has a character that means something in a diagram. -/
def Legible (chart : Chart) : Prop :=
  ∀ i n, chart.node? i = some n → Tame [] n.key ∧ ∀ tag ∈ n.tags, Tame [] tag

/-- A chart is legible whose keys and tags are of letters, digits, underscores and hyphens. -/
theorem legible_of_words (h : ∀ n ∈ chart.nodes.toList, n.key.toList.all isWordChar = true ∧
    ∀ tag ∈ n.tags, tag.toList.all isWordChar = true) : chart.Legible := by
  intro i n hn
  obtain ⟨hkey, htags⟩ := h n (Array.mem_toList_iff.mpr (Array.mem_of_getElem? hn))
  exact ⟨tame_of_all_isWordChar hkey, fun tag htag => tame_of_all_isWordChar (htags tag htag)⟩

/-- The recorded keys have no character that means something in a diagram. -/
def LegibleRecords (highlight : Option Highlight) : Prop :=
  ∀ h ∈ highlight, ∀ id key, Entries.get? h.history id = some key → Tame [] key

theorem tame_kindMark (kind : Kind) : Tame [' '] (kindMark kind) := by
  cases kind <;> decide

theorem tame_activeMark (active : List Nat) (n : Node) : Tame [' ', '●'] (activeMark active n) := by
  unfold activeMark
  split <;> decide

section Legible

variable (h : chart.Legible)

include h

theorem Legible.tame_key (hn : chart.node? i = some n) : Tame [' '] n.key :=
  (h i n hn).1.mono (by decide)

theorem Legible.tame_keyAt (i : Nat) : Tame [] (chart.keyAt i) := by
  rcases hn : chart.node? i with _ | n
  · rw [keyAt, hn]
    decide
  · rw [keyAt_eq hn]
    exact (h i n hn).1

theorem Legible.tame_initialMark (n : Node) : Tame [' ', '='] (chart.initialMark n) := by
  unfold initialMark
  split
  · rename_i child _ _
    exact Tame.append (by decide) ((h.tame_keyAt child).mono (by decide))
  · decide

theorem Legible.tame_tagMark (hn : chart.node? i = some n) : Tame [' '] (tagMark n) := by
  unfold tagMark
  split
  · decide
  · have hopen : Tame [' '] " [" := by decide
    refine (hopen.append (.intercalate (by decide) fun tag htag => ?_)).append (by decide)
    exact ((h i n hn).2 tag (List.mem_mergeSort.mp htag)).mono (by decide)

end Legible

theorem LegibleRecords.tame_recordMark (h : LegibleRecords highlight) (n : Node) :
    Tame [' ', '='] (recordMark highlight n) := by
  unfold recordMark
  split
  · rename_i key hkey
    obtain ⟨shown, hshown, hget⟩ := Option.bind_eq_some_iff.mp hkey
    exact Tame.append (by decide) ((h shown hshown n.id key hget).mono (by decide))
  · decide

/-! ## What a label shows -/

section Shown

variable (h : chart.Legible) (hrecords : LegibleRecords highlight) (hn : chart.node? i = some n)

include h hrecords hn

/-- Only the mark of the active path is drawn with its own character. -/
theorem tame_inactive : Tame [' ', '='] (n.key ++ kindMark n.kind ++ chart.initialMark n
    ++ recordMark highlight n ++ tagMark n) :=
  have hkey := (h.tame_key hn).append (tame_kindMark n.kind)
  (((hkey.mono (by decide)).append (h.tame_initialMark n)).append
    (hrecords.tame_recordMark n)).append ((h.tame_tagMark hn).mono (by decide))

theorem tame_label : Tame [' ', '=', '●'] (chart.label highlight active n) :=
  label_eq chart highlight active n ▸ ((tame_inactive h hrecords hn).mono (by decide)).append
    ((tame_activeMark active n).mono (by decide))

/-- Nothing breaks a label. -/
theorem unbroken_label : ∀ c ∈ (chart.label highlight active n).toList, breaksLine c = false := by
  intro c hc
  by_contra hbreaks
  rw [Bool.not_eq_false] at hbreaks
  have hmark : isMark c = true := by simp [isMark, hbreaks]
  have hmem := tame_label h hrecords hn c hc hmark
  revert hbreaks
  simp only [List.mem_cons, List.not_mem_nil, or_false] at hmem
  rcases hmem with rfl | rfl | rfl <;> decide

/-- A line ends with the mark of the active path just if its node is active. -/
theorem active_mark_iff (lasts : List Bool) :
    " ●".toList <:+ (guides lasts ++ chart.label highlight active n).toList ↔
      active.contains n.index = true := by
  rw [label_eq, ← String.append_assoc, String.toList_append]
  constructor
  · intro hends
    by_contra hinactive
    have hmark : activeMark active n = "" := if_neg hinactive
    rw [hmark, String.toList_empty, List.append_nil, String.toList_append] at hends
    have hmem : '●' ∈ (guides lasts).toList ++ _ := hends.subset (by decide)
    rcases List.mem_append.mp hmem with hguide | hlabel
    · exact absurd (isGuide_of_mem_guides hguide) (by decide)
    · exact (tame_inactive h hrecords hn).notMem (by decide) (by decide) hlabel
  · intro hactive
    have hmark : activeMark active n = " ●" := if_pos hactive
    rw [hmark]
    exact List.suffix_append _ _

omit hrecords in
/-- Without a record a line has no mark of one: the mark of an initial child is all that has an
equality sign then, and it ends otherwise. -/
theorem record_mark_notInfix (hnone : recordMark highlight n = "") (lasts : List Bool) :
    ¬ " history=".toList <:+: (guides lasts ++ chart.label highlight active n).toList := by
  intro hmark
  have hbefore : '=' ∉ (guides lasts).toList ++ (n.key ++ kindMark n.kind).toList := by
    rw [List.mem_append]
    rintro (hguide | hkey)
    · exact absurd (isGuide_of_mem_guides hguide) (by decide)
    · exact ((h.tame_key hn).append (tame_kindMark n.kind)).notMem (by decide) (by decide) hkey
  have hafter : '=' ∉ (tagMark n ++ activeMark active n).toList :=
    (((h.tame_tagMark hn).mono (by decide)).append (tame_activeMark active n)).notMem
      (by decide) (by decide)
  have hline : (guides lasts ++ chart.label highlight active n).toList =
      (guides lasts).toList ++ (n.key ++ kindMark n.kind).toList ++
        ((chart.initialMark n).toList ++ (tagMark n ++ activeMark active n).toList) := by
    rw [label_eq, hnone]
    simp only [String.toList_append, String.toList_empty, List.append_nil, List.append_assoc]
  rw [hline] at hmark
  rcases initialMark_cases chart n with hinitial | ⟨child, hinitial⟩
  · rw [hinitial, String.toList_empty, List.nil_append] at hmark
    exact (List.mem_append.mp (hmark.subset (by decide : '=' ∈ _))).elim hbefore hafter
  · have hkey : '=' ∉ (chart.keyAt child).toList :=
      (h.tame_keyAt child).notMem (by decide) List.not_mem_nil
    have hbefore' : '=' ∉ (guides lasts).toList ++ (n.key ++ kindMark n.kind).toList ++
        " initial".toList := fun hmem => (List.mem_append.mp hmem).elim hbefore (by decide)
    have hafter' : '=' ∉ (chart.keyAt child).toList ++ (tagMark n ++ activeMark active n).toList :=
      fun hmem => (List.mem_append.mp hmem).elim hkey hafter
    have hends : " history".toList <:+ _ ++ " initial".toList :=
      suffix_of_concat_infix hbefore' hafter' (by simpa [hinitial] using hmark)
    rcases List.suffix_or_suffix_of_suffix hends (List.suffix_append _ _) with h | h <;>
      exact absurd h (by decide)

end Shown

theorem recordMark_eq_empty (h : (highlight.bind fun h => Entries.get? h.history n.id) = none) :
    recordMark highlight n = "" := by
  rw [recordMark, h]

/-- With a record a line has the mark of it, and the recorded key. -/
theorem record_mark_infix {key : String} (chart : Chart) (active : List Nat) (lasts : List Bool)
    (h : (highlight.bind fun h => Entries.get? h.history n.id) = some key) :
    (" history=" ++ key).toList <:+:
      (guides lasts ++ chart.label highlight active n).toList := by
  have hmark : recordMark highlight n = " history=" ++ key := by rw [recordMark, h]
  refine ⟨(guides lasts ++ n.key ++ kindMark n.kind ++ chart.initialMark n).toList,
    (tagMark n ++ activeMark active n).toList, ?_⟩
  rw [label_eq, hmark]
  simp only [String.toList_append, List.append_assoc]

/-! ## Lines -/

/-- The label of the node at an index. -/
def labelAt (chart : Chart) (highlight : Option Highlight) (i : Nat) : String :=
  ((chart.node? i).map (chart.label highlight (chart.activeNodes highlight))).getD ""

theorem labelAt_eq (hn : chart.node? i = some n) : chart.labelAt highlight i =
    chart.label highlight (chart.activeNodes highlight) n := by
  rw [labelAt, hn]
  rfl

/-- The label of a node is one line, if nothing breaks it. -/
theorem Legible.labelsAt_eq (h : chart.Legible) (hrecords : LegibleRecords highlight)
    (hn : chart.node? i = some n) :
    chart.labelsAt highlight i = [chart.labelAt highlight i] := by
  rw [labelAt_eq hn, labelsAt, hn, Option.map_some, Option.getD_some,
    labelLines_of_unbroken (unbroken_label h hrecords hn)]

theorem key_prefix_label (chart : Chart) (highlight : Option Highlight) (active : List Nat)
    (n : Node) : n.key.toList <+: (chart.label highlight active n).toList := by
  rw [label_eq]
  simp only [String.toList_append, List.append_assoc]
  exact List.prefix_append _ _

/-- A label begins with a key, and so with no guide. -/
theorem Legible.isGuide_head? (h : chart.Legible) (tree : chart.Arena)
    (hn : chart.node? i = some n) :
    ∀ c ∈ (chart.labelAt highlight i).toList.head?, isGuide c = false := by
  intro c hc
  rw [labelAt_eq hn] at hc
  obtain ⟨rest, hrest⟩ := chart.key_prefix_label highlight (chart.activeNodes highlight) n
  have hne : n.key.toList ≠ [] := by
    have hvalid := tree.validKey hn
    simp [Outline.validKey] at hvalid ⊢
    exact hvalid.1.1
  obtain ⟨first, others, hkey⟩ := List.exists_cons_of_ne_nil hne
  rw [← hrest, hkey] at hc
  obtain rfl := Option.some.inj hc
  by_contra hguide
  rw [Bool.not_eq_false] at hguide
  exact List.not_mem_nil ((h i n hn).1 first (hkey ▸ List.mem_cons_self) (by simp [isMark, hguide]))

theorem Legible.readGuides_lineAt (h : chart.Legible) (tree : chart.Arena)
    (highlight : Option Highlight) (hn : chart.node? i = some n) :
    readGuides (chart.lineAt (chart.labelAt highlight) i).toList = chart.lastChildren i := by
  rw [lineAt, String.toList_append, readGuides_append (h.isGuide_head? tree hn)]

theorem newline_notMem_labelAt (h : chart.Legible) (hrecords : LegibleRecords highlight)
    (hn : chart.node? i = some n) : '\n' ∉ (chart.labelAt highlight i).toList := by
  rw [labelAt_eq hn]
  exact fun hmem => absurd (unbroken_label h hrecords hn _ hmem) (by decide)

end Chart

end Lifecycle
