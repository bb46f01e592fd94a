import Lifecycle.Proofs.Interpreter.Failure
import Lifecycle.Proofs.Interpreter.Persistence
import Lifecycle.Proofs.Snapshot.Layout

/-!
# Runs that are stored

Where nothing is pending at a final leaf and the schema holds texts, numbers and booleans alone
(`Chart.Storing`), every run at rest can be stored and comes back in lockstep
(`Storable.exists_ofLayout`). Runs are such when they are started (`storable_started`), stay such
with every event (`Storable.dispatch`), and are such when they are restored, from whatever layout
(`storable_ofLayout`).
-/

namespace Lifecycle

namespace Json

/-- Whether a value is a boolean, a number or a text. -/
def isBasic : Json → Bool
  | .bool _ | .int _ | .float _ | .str _ => true
  | .null | .arr _ | .obj _ => false

theorem unrepeated_of_isBasic {value : Json} (h : value.isBasic = true) :
    value.unrepeated = true ∧ value.nesting = 0 := by
  cases value with
  | null | arr _ | obj _ => cases h
  | _ => exact ⟨rfl, rfl⟩

theorem flat_arr {items : List Json} (h : ∀ item ∈ items, item.isBasic = true) :
    (Json.arr items).unrepeated = true ∧ (Json.arr items).nesting ≤ 1 := by
  rw [unrepeated, nesting]
  induction items with
  | nil => exact ⟨rfl, Nat.le_refl _⟩
  | cons item rest ih =>
    obtain ⟨hitem, hrest⟩ := List.forall_mem_cons.mp h
    obtain ⟨hun, hnesting⟩ := unrepeated_of_isBasic hitem
    rw [unrepeatedItems, nestingItems, hun, hnesting, Nat.zero_max]
    exact ih hrest

theorem flat_obj {members : List (String × Json)} (hkeys : (Entries.keys members).Nodup)
    (h : ∀ m ∈ members, m.2.isBasic = true) :
    (Json.obj members).unrepeated = true ∧ (Json.obj members).nesting ≤ 1 := by
  refine ⟨unrepeated_obj_iff.mpr ⟨hkeys, fun m hm => (unrepeated_of_isBasic (h m hm)).1⟩, ?_⟩
  refine Nat.succ_le_succ (nestingMembers_le_iff.mpr fun m hm => ?_)
  exact Nat.le_of_eq (unrepeated_of_isBasic (h m hm)).2

end Json

/-- Different texts are written as different names. -/
theorem Context.nodup_written {context : Context} (hmap : Entries.IsMap context)
    (htexts : ∀ key ∈ Entries.keys context, key.isText = true) :
    (Entries.keys (context.map fun entry => (entry.1.written, entry.2))).Nodup := by
  have hkeys : Entries.keys (context.map fun entry => (entry.1.written, entry.2)) =
      (Entries.keys context).map Json.Key.written := by
    rw [Entries.keys, Entries.keys, List.map_map, List.map_map]
    rfl
  rw [hkeys, List.Nodup, List.pairwise_map]
  refine hmap.distinct.imp_of_mem fun {k l} hk hl hne heq => ?_
  have hktext := htexts k hk
  have hltext := htexts l hl
  cases k with
  | text s =>
    cases l with
    | text t =>
      obtain rfl : s = t := heq
      rw [hmap.refl hk] at hne
      cases hne
    | _ => cases hltext
  | _ => cases hktext

namespace Chart

variable {chart : Chart} {context : Context} {leaf : Nat}

theorem isBasic_of_fitsKind {default value : Json} (hdefault : default.isBasic = true)
    (h : fitsKind default value = true) : value.isBasic = true := by
  cases default with
  | null | arr _ | obj _ => cases hdefault
  | _ => cases value <;> first | rfl | simp [fitsKind, Json.kindName] at h

/-- What holds of the values of the schema, and of those of their kinds, holds of the values of
restorable contexts. -/
theorem Restorable.forall_value {P : Json → Prop} (hcontext : chart.Restorable context)
    (hschema : ∀ entry ∈ chart.context, P entry.2)
    (hkind : ∀ {default value : Json}, P default → fitsKind default value = true → P value) :
    ∀ entry ∈ context, P entry.2 := by
  intro entry hentry
  have hhas : Entries.has chart.context entry.1 = true := by
    rw [← hcontext.has_eq]
    have hkey : entry.1 ∈ Entries.keys context := List.mem_map_of_mem hentry
    exact Entries.has_iff.mpr ⟨entry.1, hkey, hcontext.isMap.refl hkey⟩
  obtain ⟨default, hdefault⟩ := Option.isSome_iff_exists.mp hhas
  obtain ⟨key, hmem, -⟩ := Entries.exists_mem_of_get? hdefault
  have hfits := hcontext.fits (hcontext.isMap.get?_of_mem hentry)
  rw [hdefault] at hfits
  exact hkind (hschema _ hmem) hfits

/-- A built chart whose actions map contexts, whose schema has texts as keys and no lists, objects
or nulls as values, and in which nothing is pending at final leaves. -/
structure Storing (chart : Chart) : Prop where
  built : chart.Built
  maps : chart.MapsContexts
  isText : ∀ key ∈ Entries.keys chart.context, key.isText = true
  isBasic : ∀ entry ∈ chart.context, entry.2.isBasic = true
  ends : ∀ leaf, chart.kindAt? leaf = some .final → chart.doneTransition? leaf = none

namespace Storing

variable (h : chart.Storing)

include h

theorem schema : Entries.IsMap chart.context := by
  refine h.built.isMap_context fun key hkey => ?_
  have htext := h.isText key hkey
  cases key with
  | text s => exact beq_self_eq_true s
  | _ => cases htext

/-- A run is restored with the status that it has settled with. -/
theorem restoredStatus_eq (leaf : Nat) : chart.restoredStatus leaf = chart.statusAt leaf := by
  unfold restoredStatus statusAt
  by_cases hfinal : chart.kindAt? leaf = some .final
  · rw [if_pos ⟨hfinal, by rw [h.ends leaf hfinal]; rfl⟩, if_pos hfinal]
  · rw [if_neg fun hboth => hfinal hboth.1, if_neg hfinal]

/-- Restorable contexts hold no more than the schema does. -/
theorem isBasic_of_restorable (hcontext : chart.Restorable context) :
    ∀ entry ∈ context, entry.2.isBasic = true :=
  hcontext.forall_value h.isBasic isBasic_of_fitsKind

end Storing

end Chart

namespace Interpreter

variable {chart : Chart} {m : Interpreter} {layout : Layout} {name : Option String}

/-- A run at rest, with a restorable context and one record for a node at most. -/
def Storable (m : Interpreter) (chart : Chart) : Prop :=
  ∃ s, m.Rests chart s ∧ chart.Restorable s.context ∧ (Entries.keys s.history).Nodup

theorem Storable.lockstep_refl (h : m.Storable chart) : Lockstep chart 0 m m := by
  obtain ⟨s, hrests, hcontext, -⟩ := h
  exact ⟨hrests.chart_eq, hrests.chart_eq, rfl, rfl, rfl, hrests.context_eq ▸ hcontext.alike, rfl,
    rfl⟩

section Storing

variable (storing : chart.Storing)

include storing

/-- A run that is started can be stored. -/
theorem storable_started (name : Option String) :
    Shows (fresh chart chart.context name).start id ∧
      (started chart chart.context name).Storable chart := by
  have tree := storing.built.arena
  obtain ⟨hshows, s₀, s, hbegins, hcontext, hsettles, hrests⟩ :=
    start_keeps tree storing.maps.keeps chart.context
      (Chart.restorable_context storing.schema) name
  refine ⟨hshows, s, hrests, storing.maps.keeps.of_leadsTo tree hcontext hsettles.leadsTo, ?_⟩
  exact hbegins.nodup_keys hsettles.leadsTo

/-- An event leaves a run that can be stored. -/
theorem Storable.dispatch (h : m.Storable chart) (now : Json) (event : String) :
    (m.dispatch now event).state.Storable chart := by
  have tree := storing.built.arena
  obtain ⟨s, hrests, hcontext, hnodup⟩ := h
  obtain ⟨s', hrests', -, hleads, -⟩ :=
    hrests.dispatch_keeps tree storing.maps.keeps hcontext now event
  exact ⟨s', hrests', storing.maps.keeps.of_leadsTo tree hcontext hleads,
    hleads.nodup_keys hnodup⟩

/-- A run restored in a situation rests there. -/
theorem rests_resumed_of_storing {s : Situation} (hs : chart.Situated s) (name : Option String) :
    (resumed chart s name).Rests chart s :=
  ⟨stands_resumed chart s name, hs, storing.restoredStatus_eq s.leaf, rfl⟩

/-- What a layout describes can be stored. -/
theorem storable_ofLayout (hnodup : (Entries.keys layout.history).Nodup)
    (h : ofLayout chart layout name = .ok m) : m.Storable chart := by
  have tree := storing.built.arena
  obtain ⟨leaf, hleaf, h⟩ := bind_eq_ok.mp h
  obtain ⟨records, hrecords, h⟩ := bind_eq_ok.mp h
  obtain ⟨fitted, hfitted, h⟩ := bind_eq_ok.mp h
  obtain ⟨hkeys, hkinds, rfl⟩ := Chart.fitContext_eq_ok.mp hfitted
  obtain rfl : resumed chart ⟨leaf, Entries.overlay chart.context layout.context, records⟩ name = m :=
    Except.ok.inj h
  refine ⟨_, rests_resumed_of_storing storing
    ⟨Chart.isLeaf_of_leafOf hleaf, Chart.fits_of_fitHistory tree hrecords⟩ name,
    (Chart.restorable_context storing.schema).overlay hkeys hkinds, ?_⟩
  rw [tree.eq_of_fitHistory hrecords]
  exact hnodup

/-- A run that can be stored is described by its layout, up to the version: the two stay in
lockstep. -/
theorem Storable.exists_ofLayout (h : m.Storable chart) (name : Option String) :
    ∃ restored, ofLayout chart m.observe.layout name = .ok restored ∧
      Lockstep chart m.version m restored := by
  obtain ⟨s, hrests, hcontext, hnodup⟩ := h
  obtain ⟨fitted, halike, hlayout⟩ :=
    hrests.ofLayout storing.built.arena storing.schema hcontext hnodup name
  refine ⟨_, hlayout, hrests.chart_eq, rfl, hrests.leaf_eq, ?_, hrests.history_eq,
    hrests.context_eq ▸ halike, (Nat.zero_add _).symm, ?_⟩
  · exact hrests.status_eq.trans (storing.restoredStatus_eq s.leaf).symm
  · rw [hrests.snapshot_eq]
    rfl

/-- The layout of a run that can be stored could have been accepted, repeats no key and is flat. -/
theorem Storable.layout_spec (h : m.Storable chart) :
    m.observe.layout.Plain ∧ m.observe.layout.toJson.unrepeated = true ∧
      m.observe.layout.toJson.nesting ≤ 2 := by
  obtain ⟨s, hrests, hcontext, hnodup⟩ := h
  have hbasic := storing.isBasic_of_restorable hcontext
  have htexts := hcontext.isText storing.isText
  rw [← hrests.context_eq] at hcontext hbasic htexts
  rw [← hrests.history_eq] at hnodup
  have hpath : m.observe.layout.path ≠ [] := by
    obtain ⟨n, hn⟩ := hrests.situated.isLeaf.exists_node
    obtain ⟨below, hbelow⟩ := List.head?_eq_some_iff.mp (storing.built.arena.head?_pathTo hn)
    have hkeys : m.observe.path = (chart.pathTo s.leaf).map m.chart.keyAt :=
      congrArg (List.map m.chart.keyAt) hrests.toStands.path_eq
    rw [Snapshot.layout, hkeys, hbelow]
    exact List.cons_ne_nil _ _
  have hkeys := Context.nodup_written hcontext.isMap htexts
  have hnames : (Entries.keys m.observe.layout.historyMembers).Nodup := by
    rwa [Layout.historyMembers, Entries.keys, List.map_map]
  obtain ⟨hitems, hitems'⟩ : (m.observe.layout.pathJson).unrepeated = true ∧
      (m.observe.layout.pathJson).nesting ≤ 1 :=
    Json.flat_arr (List.forall_mem_map.mpr fun _ _ => rfl)
  obtain ⟨hentries, hentries'⟩ := Json.flat_obj hkeys (List.forall_mem_map.mpr hbasic)
  obtain ⟨hrecords, hrecords'⟩ := Json.flat_obj hnames (List.forall_mem_map.mpr fun _ _ => rfl)
  refine ⟨⟨hpath, htexts⟩, Json.unrepeated_obj_iff.mpr ⟨Layout.nodup_fieldNames, ?_⟩,
    Nat.succ_le_succ (Json.nestingMembers_le_iff.mpr ?_)⟩
  · simp only [List.forall_mem_cons]
    exact ⟨hitems, hentries, hrecords, List.forall_mem_nil _⟩
  · simp only [List.forall_mem_cons]
    exact ⟨hitems', hentries', hrecords', List.forall_mem_nil _⟩

end Storing

end Interpreter

end Lifecycle
