import Lifecycle.Interpreter.Restore
import Lifecycle.Proofs.Chart.Actions
import Lifecycle.Proofs.Chart.Built
import Lifecycle.Proofs.Entries
import Lifecycle.Proofs.Json.Keys

/-!
# Contexts of a schema

The context that a chart declares is its schema. A context is restorable when it has just the keys
of the schema, with values of the kinds of their defaults (`Chart.Restorable`). What a run is given
is restorable (`restorable_of_fitGiven`), and restoring takes a restorable context over as it is
(`exists_fitContext`). Contexts are compared as mappings, so the order of keys tells nothing
(`Context.same_congr`); an action that maps contexts takes those that agree to ones that agree
(`Chart.MapsContexts`).
-/

namespace Lifecycle

/-! ## Equality of contexts -/

namespace Context

theorem keys_ofMembers (members : Entries Json) :
    Entries.keys (ofMembers members) = (Entries.keys members).map .text := by
  simp [Entries.keys, ofMembers, Json.pairsOf, Function.comp_def]

theorem same_iff {a b : Context} (ha : Entries.IsMap a) : a.same b = true ↔
    a.length = b.length ∧ ∀ key value, Entries.get? a key = some value →
      ∃ other, Entries.get? b key = some other ∧ value.same other = true := by
  rw [same, Bool.and_eq_true, beq_iff_eq, List.all_eq_true]
  refine and_congr_right fun _ => ⟨fun h key value hget => ?_, fun h entry hentry => ?_⟩
  · obtain ⟨k, hk, hkey⟩ := Entries.exists_mem_of_get? hget
    obtain ⟨other, hother, hsame⟩ := (Option.any_eq_true _ _).mp (h _ hk)
    exact ⟨other, (Entries.get?_congr hkey).symm.trans hother, hsame⟩
  · obtain ⟨other, hother, hsame⟩ := h _ _ (ha.get?_of_mem hentry)
    exact (Option.any_eq_true _ _).mpr ⟨other, hother, hsame⟩

/-- Sameness does not look at the order of keys. -/
theorem same_congr {a a' b b' : Context} (ha : Entries.IsMap a) (ha' : Entries.IsMap a')
    (hb : Entries.IsMap b) (hb' : Entries.IsMap b') (haa' : Entries.Agrees a a')
    (hbb' : Entries.Agrees b b') : a.same b = a'.same b' := by
  rw [Bool.eq_iff_iff, same_iff ha, same_iff ha', ha.length_eq ha' haa', hb.length_eq hb' hbb']
  simp only [haa' _, hbb' _]

end Context

namespace Chart

/-- A context has just the keys of the schema, each once, with values of the kinds of their
defaults. -/
structure Restorable (chart : Chart) (context : Context) : Prop where
  isMap : Entries.IsMap context
  has_eq (key : Json.Key) : Entries.has context key = Entries.has chart.context key
  fits {key : Json.Key} {value : Json} : Entries.get? context key = some value →
    fitsKind ((Entries.get? chart.context key).getD .null) value = true

/-- A context has just the keys of the schema, each once. -/
structure Keyed (chart : Chart) (context : Context) : Prop where
  isMap : Entries.IsMap context
  has_eq (key : Json.Key) : Entries.has context key = Entries.has chart.context key

/-- Restorable contexts with the same values at the same keys. -/
structure Alike (chart : Chart) (c d : Context) : Prop where
  left : chart.Restorable c
  right : chart.Restorable d
  agrees : Entries.Agrees c d

/-- The actions of the chart succeed on restorable contexts and make restorable ones. Contexts are
mappings: of those that differ in the order of keys alone an action makes ones that do, too. -/
def MapsContexts (chart : Chart) : Prop := ∀ a, chart.HasAction a → a.Maps chart.Alike

variable {chart : Chart} {context c d : Context}

theorem Restorable.alike (h : chart.Restorable c) : chart.Alike c c := ⟨h, h, fun _ => rfl⟩

theorem MapsContexts.keeps (h : chart.MapsContexts) : chart.Keeps chart.Restorable := by
  intro a ha c hc
  obtain ⟨next, _, hnext, -, halike⟩ := h a ha c c hc.alike
  exact ⟨next, hnext, halike.left⟩

/-! ## The schema -/

/-- Pairs are read under different keys. -/
theorem distinct_of_readPairs {position : Nat} {pairs read : Entries Json Json.Key}
    {items : List Json} (h : Json.readPairs position pairs items = .ok read)
    (hpairs : (Entries.keys pairs).Pairwise fun k l => (k == l) = false) :
    (Entries.keys read).Pairwise fun k l => (k == l) = false := by
  induction items generalizing position pairs with
  | nil => cases h; exact hpairs
  | cons item rest ih =>
    rw [Json.readPairs] at h
    split at h
    · split at h
      · exact ih h (Entries.distinct_set hpairs _ _)
      · cases h
    · cases h
    · cases h

theorem distinct_pairsOf {members : Entries Json} (h : (Entries.keys members).Nodup) :
    (Entries.keys (Json.pairsOf members)).Pairwise fun k l => (k == l) = false := by
  rw [← Context.ofMembers, Context.keys_ofMembers, List.pairwise_map]
  exact h.imp fun hne => by simpa using hne

theorem distinct_of_contextOf {declared : Json} (hu : declared.unrepeated = true)
    (h : contextOf declared = .ok context) :
    (Entries.keys context).Pairwise fun k l => (k == l) = false := by
  unfold contextOf at h
  split at h
  · rcases declared with _ | _ | _ | _ | text | items | members
    case obj => cases h; exact distinct_pairsOf (Json.nodup_memberKeys hu)
    case str => exact distinct_of_readPairs h .nil
    case arr => exact distinct_of_readPairs h .nil
    all_goals cases h
  · cases h; exact .nil

/-- The schema of a built chart is a mapping, if no key of it is NaN. -/
theorem Built.isMap_context (h : chart.Built)
    (hkeys : ∀ key ∈ Entries.keys chart.context, (key == key) = true) :
    Entries.IsMap chart.context := by
  refine ⟨hkeys _, ?_⟩
  obtain ⟨registry, events, declaration, hu, h⟩ := h
  obtain ⟨fields, outline, rfl, described⟩ := define_eq_ok_iff.mp h
  refine distinct_of_contextOf ?_ described.context_eq
  rw [Outline.field]
  rcases hget : Entries.get? fields "context" with _ | declared
  · rfl
  · exact Json.unrepeated_of_get? (Json.unrepeatedMembers_of_obj hu) hget

theorem fitsKind_self (value : Json) : fitsKind value value = true := by
  cases value <;> simp [fitsKind]

/-! ## Contexts that fit -/

theorem checkKeys_eq_ok {keys : List Json.Key} :
    chart.checkKeys keys = .ok () ↔ ∀ key ∈ keys, Entries.has chart.context key = true := by
  have hnil : keys.filter (fun key => !Entries.has chart.context key) = [] ↔
      ∀ key ∈ keys, Entries.has chart.context key = true := by simp [List.filter_eq_nil_iff]
  rw [← hnil, checkKeys]
  rcases keys.filter (fun key => !Entries.has chart.context key) with _ | ⟨key, rest⟩
  · simp
  · simp only [List.isEmpty_cons, Bool.false_eq_true, if_false, reduceCtorEq, iff_false]
    split <;> exact nofun

theorem checkKinds_eq_ok :
    chart.checkKinds context = .ok () ↔ ∀ entry ∈ context,
      fitsKind ((Entries.get? chart.context entry.1).getD .null) entry.2 = true := by
  induction context with
  | nil => simp [checkKinds]
  | cons entry rest ih =>
    rw [checkKinds, List.forall_mem_cons]
    by_cases hfits : fitsKind ((Entries.get? chart.context entry.1).getD .null) entry.2 = true
    · simp [hfits, ih]
    · simp [hfits]

/-- What fits is written over the defaults. -/
theorem fitContext_eq_ok {fitted : Context} :
    chart.fitContext context = .ok fitted ↔
      (∀ key ∈ Entries.keys context, Entries.has chart.context key = true) ∧
      (∀ entry ∈ context,
        fitsKind ((Entries.get? chart.context entry.1).getD .null) entry.2 = true) ∧
      Entries.overlay chart.context context = fitted := by
  rw [← checkKeys_eq_ok, ← checkKinds_eq_ok, fitContext, bind_eq_ok]
  constructor
  · rintro ⟨_, hkeys, h⟩
    obtain ⟨_, hkinds, h⟩ := bind_eq_ok.mp h
    exact ⟨hkeys, hkinds, Except.ok.inj h⟩
  · rintro ⟨hkeys, hkinds, rfl⟩
    exact ⟨(), hkeys, bind_eq_ok.mpr ⟨(), hkinds, rfl⟩⟩

/-- Writing at keys of the schema brings in no other keys. -/
theorem Keyed.overlay (h : chart.Keyed context) {updates : Context}
    (hkeys : ∀ key ∈ Entries.keys updates, Entries.has chart.context key = true) :
    chart.Keyed (Entries.overlay context updates) := by
  refine ⟨h.isMap.overlay fun key hkey => ?_, fun key => ?_⟩
  · obtain ⟨k, -, hk⟩ := Entries.has_iff.mp (hkeys key hkey)
    exact PartialEquivBEq.trans (PartialEquivBEq.symm hk) hk
  · rw [Entries.has_overlay, h.has_eq]
    rcases hhas : Entries.has updates key with _ | _
    · rfl
    · obtain ⟨k, hk, hkey⟩ := Entries.has_iff.mp hhas
      have := hkeys k hk
      rw [Entries.has, Entries.get?_congr hkey, ← Entries.has] at this
      rw [this]; rfl

theorem Keyed.has_of_mem (h : chart.Keyed context) :
    ∀ key ∈ Entries.keys context, Entries.has chart.context key = true := by
  intro key hkey
  rw [← h.has_eq]
  exact Entries.has_iff.mpr ⟨key, hkey, h.isMap.refl hkey⟩

theorem Restorable.keyed (h : chart.Restorable context) : chart.Keyed context :=
  ⟨h.isMap, h.has_eq⟩

/-- A context with the keys of the schema is restorable when its values are of the right kinds. -/
theorem Keyed.restorable_iff (h : chart.Keyed context) :
    chart.Restorable context ↔ ∀ entry ∈ context,
      fitsKind ((Entries.get? chart.context entry.1).getD .null) entry.2 = true := by
  refine ⟨fun h' entry hentry => h'.fits (h.isMap.get?_of_mem hentry), fun hkinds => ?_⟩
  refine ⟨h.isMap, h.has_eq, fun hget => ?_⟩
  obtain ⟨k, hk, hkey⟩ := Entries.exists_mem_of_get? hget
  rw [← Entries.get?_congr hkey]
  exact hkinds _ hk

/-- A restorable context stays so when values of the right kinds are written at keys of the
schema. -/
theorem Restorable.overlay (h : chart.Restorable context) {updates : Context}
    (hkeys : ∀ key ∈ Entries.keys updates, Entries.has chart.context key = true)
    (hkinds : ∀ entry ∈ updates,
      fitsKind ((Entries.get? chart.context entry.1).getD .null) entry.2 = true) :
    chart.Restorable (Entries.overlay context updates) := by
  have hkeyed := h.keyed.overlay hkeys
  refine ⟨hkeyed.isMap, hkeyed.has_eq, fun hget => ?_⟩
  rcases Entries.get?_overlay_cases hget with ⟨k, hk, hkey⟩ | hget
  · rw [← Entries.get?_congr hkey]
    exact hkinds _ hk
  · exact h.fits hget

theorem Keyed.isText (h : chart.Keyed context)
    (htexts : ∀ key ∈ Entries.keys chart.context, key.isText = true) :
    ∀ key ∈ Entries.keys context, key.isText = true := by
  intro key hkey
  obtain ⟨k, hk, hbeq⟩ := Entries.has_iff.mp (h.has_of_mem key hkey)
  exact Json.Key.isText_of_beq hbeq (htexts k hk)

theorem Restorable.isText (h : chart.Restorable context)
    (htexts : ∀ key ∈ Entries.keys chart.context, key.isText = true) :
    ∀ key ∈ Entries.keys context, key.isText = true := h.keyed.isText htexts

theorem restorable_context (schema : Entries.IsMap chart.context) :
    chart.Restorable chart.context :=
  ⟨schema, fun _ => rfl, fun hget => by rw [hget]; exact fitsKind_self _⟩

theorem fitGiven_null (chart : Chart) : chart.fitGiven .null = .ok chart.context := rfl

/-- What fits the schema is restorable over its defaults. -/
theorem restorable_of_fitContext (schema : Entries.IsMap chart.context) {fitted : Context}
    (h : chart.fitContext context = .ok fitted) : chart.Restorable fitted := by
  obtain ⟨hkeys, hkinds, rfl⟩ := fitContext_eq_ok.mp h
  exact (restorable_context schema).overlay hkeys hkinds

/-- What a run accepts as given is the fit of some context. -/
theorem exists_fitContext_of_fitGiven {given : Json} (h : chart.fitGiven given = .ok context) :
    ∃ updates, chart.fitContext updates = .ok context := by
  unfold fitGiven at h
  split at h
  · exact ⟨_, h⟩
  · split at h
    · exact ⟨_, h⟩
    · split at h
      · cases h
      · obtain ⟨_, -, h⟩ := bind_eq_ok.mp h
        cases h

/-- What a run is given over the schema is restorable. -/
theorem restorable_of_fitGiven (schema : Entries.IsMap chart.context) {given : Json}
    (h : chart.fitGiven given = .ok context) : chart.Restorable context := by
  obtain ⟨updates, hfit⟩ := exists_fitContext_of_fitGiven h
  exact restorable_of_fitContext schema hfit

/-- What a run is given over the schema has the keys of the schema, in the order of the schema. -/
theorem keys_of_fitGiven {given : Json} (h : chart.fitGiven given = .ok context) :
    Entries.keys context = Entries.keys chart.context := by
  obtain ⟨updates, hfit⟩ := exists_fitContext_of_fitGiven h
  obtain ⟨hkeys, -, rfl⟩ := fitContext_eq_ok.mp hfit
  exact Entries.keys_overlay hkeys

/-- Restoring takes over a restorable context. -/
theorem Restorable.exists_fitContext (h : chart.Restorable context)
    (schema : Entries.IsMap chart.context) :
    ∃ fitted, chart.fitContext context = .ok fitted ∧ chart.Alike context fitted := by
  have hkeys := h.keyed.has_of_mem
  have hkinds := h.keyed.restorable_iff.mp h
  refine ⟨_, fitContext_eq_ok.mpr ⟨hkeys, hkinds, rfl⟩, h,
    (restorable_context schema).overlay hkeys hkinds, fun key => ?_⟩
  rw [h.isMap.get?_overlay]
  rcases hget : Entries.get? context key with _ | value
  · have := h.has_eq key
    rw [Entries.has, Entries.has, hget, Option.isSome_none] at this
    rw [Option.none_or]
    exact (Option.not_isSome_iff_eq_none.mp (by rw [← this]; exact Bool.false_ne_true)).symm
  · rfl

/-! ## Assignments -/

/-- Whether an action keeps the context or assigns values of the right kinds to keys of the
schema. -/
def isTyped (chart : Chart) (a : Action) : Bool :=
  match a.effect with
  | .assign updates => (Context.ofMembers updates).all fun entry =>
      Entries.has chart.context entry.1 &&
        fitsKind ((Entries.get? chart.context entry.1).getD .null) entry.2
  | .keep => true
  | .custom _ => false

theorem maps_of_isTyped {a : Action} (h : chart.isTyped a = true) : a.Maps chart.Alike := by
  intro c d halike
  unfold isTyped at h
  rcases heffect : a.effect with updates | _ | run <;> rw [heffect] at h
  · simp only [List.all_eq_true, Bool.and_eq_true] at h
    have hkeys : ∀ key ∈ Entries.keys (Context.ofMembers updates),
        Entries.has chart.context key = true := List.forall_mem_map.mpr fun e he => (h e he).1
    exact ⟨_, _, rfl, rfl, halike.left.overlay hkeys fun e he => (h e he).2,
      halike.right.overlay hkeys fun e he => (h e he).2, halike.agrees.overlay _⟩
  · exact ⟨c, d, rfl, rfl, halike⟩
  · cases h

theorem mapsContexts_of_isTyped
    (h : ∀ n ∈ chart.nodes.toList, ∀ a ∈ n.actions, chart.isTyped a = true) :
    chart.MapsContexts :=
  forall_hasAction fun n hn a ha => maps_of_isTyped (h n hn a ha)

end Chart

end Lifecycle
