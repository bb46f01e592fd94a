import Lifecycle.Proofs.Json.Accepted
import Lifecycle.Snapshot.Layout

/-!
# Layouts and the values that describe them

A value with which nothing is wrong is an object of at most three fields, and the layout that it
describes, written as a value again, is that object with its missing fields filled
(`toJson_ofFields`). From this follows what checking keeps: a layout is accepted as it was written
(`check_toJson`), arranging a value arranges its layout (`check_arranged`), and a layout
stays within the limits of the value that describes it (`within_toJson`).
-/

namespace Lifecycle.Layout

open Json

theorem check_eq_ok_iff {value : Json} {layout : Layout} :
    check value = .ok layout ↔ errors value = 0 ∧ ofJson value = layout := by
  unfold check
  split
  · rename_i h
    simp [h]
  · rename_i h
    simp [h]

theorem errors_obj_eq_zero_iff {fields : Entries Json} :
    errors (.obj fields) = 0 ↔
      pathErrors (Entries.get? fields "active_path") = 0 ∧
      contextErrors (Entries.get? fields "context") = 0 ∧
      historyErrors (Entries.get? fields "history") = 0 ∧
      extraFields ["active_path", "context", "history"] fields = 0 := by
  rw [errors]
  omega

theorem exists_obj_of_errors {value : Json} (h : errors value = 0) :
    ∃ fields, value = .obj fields := by
  cases value with
  | obj fields => exact ⟨fields, rfl⟩
  | _ => cases h

/-! ## Lists of strings -/

theorem nonStrings_map_str (texts : List String) : nonStrings (texts.map .str) = 0 := by
  rw [nonStrings, List.length_eq_zero_iff, List.filter_eq_nil_iff]
  simp [string?]

theorem strings_map_str (texts : List String) : strings (texts.map .str) = texts := by
  rw [strings, List.filterMap_map]
  exact List.filterMap_some

theorem map_str_strings {values : List Json} (h : nonStrings values = 0) :
    (strings values).map .str = values := by
  induction values with
  | nil => rfl
  | cons value values ih =>
    rw [nonStrings, List.length_eq_zero_iff, List.filter_eq_nil_iff, List.forall_mem_cons] at h
    obtain ⟨hvalue, hvalues⟩ := h
    have hrest : nonStrings values = 0 := by
      rwa [nonStrings, List.length_eq_zero_iff, List.filter_eq_nil_iff]
    cases value with
    | str s => exact congrArg (Json.str s :: ·) (ih hrest)
    | _ => exact absurd rfl hvalue

theorem nonStrings_perm {values others : List Json} (h : values.Perm others) :
    nonStrings values = nonStrings others := (h.filter _).length_eq

theorem string?_arranged (value : Json) : value.arranged.string? = value.string? := by
  cases value <;> rfl

theorem nonStrings_arrangedItems (values : List Json) :
    nonStrings (arrangedItems values) = nonStrings values := by
  induction values with
  | nil => rfl
  | cons value values ih =>
    simp only [nonStrings, arrangedItems, List.filter_cons, string?_arranged] at ih ⊢
    split <;> simp [ih]

theorem map_snd_arrangedMembers (members : List (String × Json)) :
    (arrangedMembers members).map Prod.snd = arrangedItems (members.map Prod.snd) := by
  induction members with
  | nil => rfl
  | cons member rest ih => rw [arrangedMembers, List.map_cons, ih]; rfl

/-! ## Fields -/

/-- The members of the object in a field; without such an object there are none. -/
def fieldMembers (fields : Entries Json) (name : String) : Entries Json :=
  ((Entries.get? fields name).bind members?).getD []

/-- The history records of members that are strings stand for these members. -/
theorem historyMembers_filterMap {members : Entries Json}
    (h : nonStrings (members.map Prod.snd) = 0) :
    (members.filterMap fun member => member.2.string?.map (member.1, ·)).map
      (fun entry => (entry.1, Json.str entry.2)) = members := by
  induction members with
  | nil => rfl
  | cons member rest ih =>
    rw [nonStrings, List.length_eq_zero_iff, List.filter_eq_nil_iff, List.map_cons,
      List.forall_mem_cons] at h
    obtain ⟨hvalue, hvalues⟩ := h
    have hrest : nonStrings (rest.map Prod.snd) = 0 := by
      rwa [nonStrings, List.length_eq_zero_iff, List.filter_eq_nil_iff]
    obtain ⟨key, value⟩ := member
    cases value with
    | str s => exact congrArg ((key, Json.str s) :: ·) (ih hrest)
    | _ => exact absurd rfl hvalue

theorem pathJson_ofFields {fields : Entries Json} (h : errors (.obj fields) = 0) :
    ∃ items, items ≠ [] ∧ Entries.get? fields "active_path" = some (.arr items) ∧
      (ofFields fields).pathJson = .arr items := by
  have hpath := (errors_obj_eq_zero_iff.mp h).1
  unfold pathErrors at hpath
  split at hpath
  case h_1 | h_3 => cases hpath
  case h_2 items hne hget =>
    refine ⟨items, hne, hget, ?_⟩
    rw [pathJson, ofFields, hget]
    exact congrArg Json.arr (map_str_strings hpath)

theorem historyMembers_ofFields {fields : Entries Json} (h : errors (.obj fields) = 0) :
    (ofFields fields).historyMembers = fieldMembers fields "history" := by
  have hhistory := (errors_obj_eq_zero_iff.mp h).2.2.1
  refine historyMembers_filterMap ?_
  unfold historyErrors at hhistory
  split at hhistory
  · rename_i hget
    rw [hget]; rfl
  · rename_i hget
    rwa [hget]
  · cases hhistory

/-- The layout that fields describe is written with their path, and with no members where they name
no context or no history. -/
theorem toJson_ofFields {fields : Entries Json} (h : errors (.obj fields) = 0) :
    ∃ items, items ≠ [] ∧ Entries.get? fields "active_path" = some (.arr items) ∧
      (ofFields fields).toJson = .obj [("active_path", .arr items),
        ("context", .obj (fieldMembers fields "context")),
        ("history", .obj (fieldMembers fields "history"))] := by
  obtain ⟨items, hne, hget, hitems⟩ := pathJson_ofFields h
  refine ⟨items, hne, hget, ?_⟩
  rw [toJson, historyMembers_ofFields h, hitems, ofFields, Context.toJson_ofMembers]
  rfl

theorem isText_of_ofFields {fields : Entries Json} :
    ∀ key ∈ Entries.keys (ofFields fields).context, key.isText = true := by
  intro key hkey
  simp only [ofFields, Context.ofMembers, Json.pairsOf, Entries.keys, List.map_map,
    List.mem_map] at hkey
  obtain ⟨member, -, rfl⟩ := hkey
  rfl

/-! ## Layouts as values -/

/-- A layout that could have been accepted: its path is not empty and its context has texts as
keys. -/
structure Plain (layout : Layout) : Prop where
  path_ne_nil : layout.path ≠ []
  isText : ∀ key ∈ Entries.keys layout.context, key.isText = true

/-- Nothing is wrong with a layout that is written as a value. -/
theorem errors_toJson {layout : Layout} (h : layout.path ≠ []) : errors layout.toJson = 0 := by
  rw [toJson, errors_obj_eq_zero_iff]
  refine ⟨?_, rfl, ?_, rfl⟩
  · obtain ⟨key, keys, hkeys⟩ := List.exists_cons_of_ne_nil h
    have hstrings := nonStrings_map_str layout.path
    rw [hkeys] at hstrings
    rw [pathJson, hkeys]
    exact hstrings
  · have hvalues : layout.historyMembers.map Prod.snd =
        (layout.history.map Prod.snd).map Json.str := by
      rw [historyMembers, List.map_map, List.map_map]
      rfl
    exact (congrArg nonStrings hvalues).trans (nonStrings_map_str _)

theorem ofJson_toJson {layout : Layout}
    (h : ∀ key ∈ Entries.keys layout.context, key.isText = true) : ofJson layout.toJson = layout := by
  have hcontext := Context.ofMembers_written h
  have hhistory : (layout.historyMembers.filterMap fun member =>
      member.2.string?.map (member.1, ·)) = layout.history := by
    rw [historyMembers, List.filterMap_map]
    exact List.filterMap_some
  obtain ⟨path, context, history⟩ := layout
  exact congr (congr (congrArg Layout.mk (strings_map_str path)) hcontext) hhistory

/-- What was accepted is accepted again as it is written. -/
theorem check_toJson {layout : Layout} (h : layout.Plain) : check layout.toJson = .ok layout :=
  check_eq_ok_iff.mpr ⟨errors_toJson h.path_ne_nil, ofJson_toJson h.isText⟩

theorem plain_of_check {value : Json} {layout : Layout} (h : check value = .ok layout) :
    layout.Plain := by
  obtain ⟨herrors, rfl⟩ := check_eq_ok_iff.mp h
  obtain ⟨fields, rfl⟩ := exists_obj_of_errors herrors
  refine ⟨?_, isText_of_ofFields⟩
  obtain ⟨items, hne, -, hitems⟩ := pathJson_ofFields herrors
  intro hnil
  rw [pathJson] at hitems
  exact hne (Json.arr.inj hitems ▸ congrArg (List.map Json.str) hnil)

/-! ## Arranged values -/

theorem pathErrors_arranged (field : Option Json) :
    pathErrors (field.map arranged) = pathErrors field := by
  rcases field with _ | value
  · rfl
  · cases value with
    | arr items =>
      cases items with
      | nil => rfl
      | cons item items => exact nonStrings_arrangedItems (item :: items)
    | _ => rfl

theorem contextErrors_arranged (field : Option Json) :
    contextErrors (field.map arranged) = contextErrors field := by
  rcases field with _ | value
  · rfl
  · cases value <;> rfl

theorem historyErrors_arranged (field : Option Json) :
    historyErrors (field.map arranged) = historyErrors field := by
  rcases field with _ | value
  · rfl
  · cases value with
    | obj members =>
      have hperm := (sortMembers_perm (arrangedMembers members)).map Prod.snd
      calc nonStrings ((sortMembers (arrangedMembers members)).map Prod.snd)
          = nonStrings (arrangedItems (members.map Prod.snd)) := by
            rw [nonStrings_perm hperm, map_snd_arrangedMembers]
        _ = nonStrings (members.map Prod.snd) := nonStrings_arrangedItems _
    | _ => rfl

section Arranged

variable {fields : Entries Json} (hun : (Json.obj fields).unrepeated = true)

include hun

theorem get?_arrangedFields (name : String) :
    Entries.get? (sortMembers (arrangedMembers fields)) name =
      (Entries.get? fields name).map arranged := by
  have hnodup : ((arrangedMembers fields).map Prod.fst).Nodup :=
    keys_arrangedMembers fields ▸ nodup_memberKeys hun
  rw [get?_sortMembers hnodup, get?_arrangedMembers]

theorem fieldMembers_arranged (name : String) :
    Json.obj (fieldMembers (sortMembers (arrangedMembers fields)) name) =
      (Json.obj (fieldMembers fields name)).arranged := by
  have hnil : (Json.obj []).arranged = .obj [] :=
    congrArg Json.obj (sortMembers_of_pairwise List.Pairwise.nil)
  rw [fieldMembers, fieldMembers, get?_arrangedFields hun]
  rcases Entries.get? fields name with _ | value
  · exact hnil.symm
  · cases value with
    | obj members => rfl
    | _ => exact hnil.symm

/-- What is wrong with a value does not depend on the order of members. -/
theorem errors_arranged : errors (Json.obj fields).arranged = errors (.obj fields) := by
  have hkeys : (Entries.keys (sortMembers (arrangedMembers fields))).Perm (Entries.keys fields) := by
    rw [← keys_arrangedMembers fields]
    exact (sortMembers_perm _).map Prod.fst
  have hextra (known : List String) : extraFields known (sortMembers (arrangedMembers fields)) =
      extraFields known fields := (hkeys.filter _).length_eq
  rw [arranged, errors, errors, get?_arrangedFields hun, get?_arrangedFields hun,
    get?_arrangedFields hun, pathErrors_arranged, contextErrors_arranged, historyErrors_arranged,
    hextra]

theorem toJson_ofFields_arranged (h : errors (.obj fields) = 0) :
    (ofFields (sortMembers (arrangedMembers fields))).toJson = (ofFields fields).toJson.arranged := by
  obtain ⟨items, -, hget, htoJson⟩ := toJson_ofFields h
  have harranged : errors (.obj (sortMembers (arrangedMembers fields))) = 0 :=
    (errors_arranged hun).trans h
  obtain ⟨others, -, hother, htoJson'⟩ := toJson_ofFields harranged
  rw [get?_arrangedFields hun, hget] at hother
  obtain rfl : arrangedItems items = others := Json.arr.inj (Option.some.inj hother)
  have hsorted (path context history : Json) :
      sortMembers [("active_path", path), ("context", context), ("history", history)] =
        [("active_path", path), ("context", context), ("history", history)] := by
    refine sortMembers_of_pairwise ?_
    simp only [List.pairwise_cons, List.forall_mem_cons]
    decide +kernel
  rw [htoJson', htoJson, fieldMembers_arranged hun, fieldMembers_arranged hun]
  simp only [arranged, arrangedMembers, hsorted]

end Arranged

/-- The layout of an arranged value is the arranged layout. -/
theorem check_arranged {value : Json} {layout : Layout} (hun : value.unrepeated = true)
    (h : check value = .ok layout) :
    ∃ other, check value.arranged = .ok other ∧ other.toJson = layout.toJson.arranged := by
  obtain ⟨herrors, rfl⟩ := check_eq_ok_iff.mp h
  obtain ⟨fields, rfl⟩ := exists_obj_of_errors herrors
  exact ⟨_, check_eq_ok_iff.mpr ⟨(errors_arranged hun).trans herrors, rfl⟩,
    toJson_ofFields_arranged hun herrors⟩

/-! ## Limits -/

/-- The fields of a layout have different names. -/
theorem nodup_fieldNames {path context history : Json} :
    (Entries.keys [("active_path", path), ("context", context), ("history", history)]).Nodup :=
  show ["active_path", "context", "history"].Nodup by decide

theorem unrepeated_fieldMembers {fields : Entries Json} (hun : (Json.obj fields).unrepeated = true)
    (name : String) : (Json.obj (fieldMembers fields name)).unrepeated = true := by
  unfold fieldMembers
  rcases hget : Entries.get? fields name with _ | value
  · rfl
  · have hvalue := unrepeated_of_get? (unrepeatedMembers_of_obj hun) hget
    cases value with
    | obj members => exact hvalue
    | _ => rfl

theorem unrepeated_toJson {value : Json} {layout : Layout} (hun : value.unrepeated = true)
    (h : check value = .ok layout) : layout.toJson.unrepeated = true := by
  obtain ⟨herrors, rfl⟩ := check_eq_ok_iff.mp h
  obtain ⟨fields, rfl⟩ := exists_obj_of_errors herrors
  obtain ⟨items, -, hget, htoJson⟩ := toJson_ofFields herrors
  have hitems := unrepeated_of_get? (unrepeatedMembers_of_obj hun) hget
  refine (congrArg Json.unrepeated htoJson).trans (unrepeated_obj_iff.mpr ⟨nodup_fieldNames, ?_⟩)
  simp only [List.forall_mem_cons]
  exact ⟨hitems, unrepeated_fieldMembers hun _, unrepeated_fieldMembers hun _,
    List.forall_mem_nil _⟩

/-- Each node comes up once in the records of a layout. -/
theorem nodup_history {value : Json} {layout : Layout} (hun : value.unrepeated = true)
    (h : check value = .ok layout) : (Entries.keys layout.history).Nodup := by
  have hmembers := (unrepeated_obj_iff.mp (unrepeated_toJson hun h)).2
  simp only [List.forall_mem_cons] at hmembers
  have hnodup := (unrepeated_obj_iff.mp hmembers.2.2.1).1
  rwa [historyMembers, Entries.keys, List.map_map] at hnodup

/-- A layout lies within the limits of the value that describes it. -/
theorem within_toJson {room : Nat} {value : Json} {layout : Layout} (hwithin : Within room value)
    (h : check value = .ok layout) : Within room layout.toJson := by
  obtain ⟨herrors, rfl⟩ := check_eq_ok_iff.mp h
  obtain ⟨fields, rfl⟩ := exists_obj_of_errors herrors
  obtain ⟨items, -, hget, htoJson⟩ := toJson_ofFields herrors
  obtain _ | room := room
  · exact absurd hwithin.nesting_le (by rw [nesting]; omega)
  obtain ⟨-, hfields⟩ := within_obj_iff.mp hwithin
  have hat {name : String} {found : Json} (hget : Entries.get? fields name = some found) :
      Within room found := by
    obtain ⟨k, hmem, -⟩ := Entries.exists_mem_of_get? hget
    exact hfields _ hmem
  have hempty : Within room (.obj []) :=
    ⟨rfl, rfl, Nat.le_trans (Nat.le_add_left 1 _) (hat hget).nesting_le⟩
  have hmembers (name : String) : Within room (.obj (fieldMembers fields name)) := by
    unfold fieldMembers
    rcases hfield : Entries.get? fields name with _ | found
    · exact hempty
    · cases found with
      | obj members => exact hat hfield
      | _ => exact hempty
  refine htoJson ▸ within_obj_iff.mpr ⟨nodup_fieldNames, ?_⟩
  simp only [List.forall_mem_cons]
  exact ⟨hat hget, hmembers _, hmembers _, List.forall_mem_nil _⟩

end Lifecycle.Layout
