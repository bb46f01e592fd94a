import Lifecycle.Proofs.Snapshot.Envelope
import Lifecycle.Proofs.Store.Disk
import Lifecycle.Store.LeadsFile

/-!
# Files of leads that are saved and loaded

Which files are loaded (`load_eq_some_iff`): the text of an object of the right version, with leads
that are objects, whose checksum is that of the rest if it counts as present. What saving writes is
loaded again (`load_save`): the checksum is taken of the canonical text of the leads, which is put
together from those of the layouts (`Layout.canonicalText_eq`).
-/

namespace Lifecycle

/-! ## Bytes of texts -/

namespace Text

theorem toList_loop (bytes : ByteArray) (i : Nat) (read : List UInt8) :
    ByteArray.toList.loop bytes i read = read.reverse ++ bytes.data.toList.drop i := by
  induction i, read using ByteArray.toList.loop.induct bytes with
  | case1 i read hlt ih =>
    have hlength : i < bytes.data.toList.length := by rwa [Array.length_toList, ByteArray.size_data]
    have hget : bytes.get! i = bytes.data.toList[i] :=
      getElem!_pos bytes.data i (by rwa [ByteArray.size_data])
    rw [ByteArray.toList.loop, if_pos hlt, ih, hget, List.reverse_cons, List.append_assoc,
      List.drop_eq_getElem_cons hlength]
    rfl
  | case2 i read hle =>
    have hdrop : bytes.data.toList.drop i = [] := by
      refine List.drop_eq_nil_of_le ?_
      rw [Array.length_toList, ByteArray.size_data]
      exact Nat.not_lt.mp hle
    rw [ByteArray.toList.loop, if_neg hle, hdrop, List.append_nil]

/-- A text is read back from its bytes. -/
theorem decodeAs?_toUTF8 (text : String) : decodeAs? .utf8 text.toUTF8.toList = some text := by
  have hbytes : ByteArray.mk text.toUTF8.toList.toArray = text.toUTF8 := by
    rw [ByteArray.toList, toList_loop]
    rfl
  have hvalid : text.toUTF8.IsValidUTF8 := text.isValidUTF8
  rw [decodeAs?, hbytes, String.fromUTF8?, dif_pos hvalid]
  rfl

end Text

/-! ## Canonical texts of layouts -/

namespace Layout

open Json

theorem sortEntries_eq {context : Context}
    (h : ∀ key ∈ Entries.keys context, key.isText = true) :
    ∃ sorted, sortEntries context = .ok sorted ∧ sorted.Perm context ∧
      sorted.map (fun entry => (entry.1.written, entry.2)) =
        sortMembers (context.map fun entry => (entry.1.written, entry.2)) := by
  have hall : (context.all fun entry => entry.1.isText) = true :=
    List.all_eq_true.mpr fun entry hentry => h _ (List.mem_map_of_mem hentry)
  refine ⟨_, by rw [sortEntries, if_pos hall], List.mergeSort_perm _ _, ?_⟩
  rw [sortMembers, List.map_mergeSort]
  intro a _ b _
  rfl

/-- A context whose keys are texts has the canonical text of the object that it is written as, if
that can be written. -/
theorem pairsText_eq {context : Context} (h : ∀ key ∈ Entries.keys context, key.isText = true)
    (depth : Nat) : pairsText depth context =
      if context.toJson.isWritable then .ok (write .canonical depth context.toJson)
      else .error .longInteger := by
  obtain ⟨sorted, hsorted, hperm, hmap⟩ := sortEntries_eq h
  have hall : (sorted.all fun pair => pair.2.isWritable) = context.toJson.isWritable := by
    rw [Bool.eq_iff_iff, List.all_eq_true, Context.toJson, ofPairs, isWritable,
      membersWritable_iff, List.forall_mem_map]
    exact forall_congr' fun entry => imp_congr_left hperm.mem_iff
  have hwritten := congrArg
    (List.map fun m : String × Json => (m.1, write .canonical (depth + 1) m.2)) hmap
  rw [List.map_map, ← sortMembers_map, ← writeMembers_eq] at hwritten
  have hobject := congrArg (Style.canonical.object depth) hwritten
  rw [pairsText, hsorted, ← hall]
  exact if_congr Iff.rfl (congrArg Except.ok hobject) rfl

theorem isWritable_toJson (layout : Layout) :
    layout.toJson.isWritable = layout.context.toJson.isWritable := by
  have hstrings (path : List String) : areWritable (path.map .str) = true := by
    induction path with
    | nil => rfl
    | cons key rest ih => exact ih
  have hrecords : (Json.obj layout.historyMembers).isWritable = true := by
    rw [isWritable, membersWritable_iff, historyMembers, List.forall_mem_map]
    exact fun _ _ => rfl
  have hpath : layout.pathJson.isWritable = true := hstrings layout.path
  rw [toJson, isWritable, membersWritable, membersWritable, membersWritable, membersWritable, hpath,
    hrecords, Bool.true_and, Bool.and_true, Bool.and_true]

/-- A layout has the canonical text of the object that it is written as, if that can be written. -/
theorem canonicalText_eq {layout : Layout}
    (h : ∀ key ∈ Entries.keys layout.context, key.isText = true) (depth : Nat) :
    layout.canonicalText depth =
      if layout.toJson.isWritable then .ok (write .canonical depth layout.toJson)
      else .error .longInteger := by
  have horder : Style.canonical.object depth
      [("active_path", write .canonical (depth + 1) layout.pathJson),
        ("context", write .canonical (depth + 1) layout.context.toJson),
        ("history", write .canonical (depth + 1) (.obj layout.historyMembers))] =
      write .canonical depth layout.toJson := by
    rw [toJson, write]
    refine congrArg (Style.canonical.object depth) (sortMembers_of_pairwise ?_).symm
    simp only [List.pairwise_cons, List.forall_mem_cons]
    decide +kernel
  rw [canonicalText, pairsText_eq h, isWritable_toJson, ← horder]
  split <;> rfl

end Layout

namespace LeadsFile

open Json

attribute [local irreducible] integerBound digitLimit nestingLimit

/-! ## What loading accepts -/

/-- The members of a file of a version hold leads: nothing is wrong with them, and a checksum that
counts as present is that of all others. -/
structure Holds (version : Json) (members : Entries Json) (leads : Entries Json) : Prop where
  version_eq : ((Entries.get? members "version").getD (.int 1)).same version = true
  checksum_eq {stored : Json} : Entries.get? members "checksum" = some stored →
    stored.truthy = true → stored = .str (checksum (Envelope.covered members))
  errors_eq : errors (Entries.erase members "checksum") = 0
  leads_eq : ((Entries.get? (Entries.erase members "checksum") "leads").bind members?).getD [] =
    leads

theorem string?_eq_some_iff {value : Json} {text : String} :
    value.string? = some text ↔ value = .str text := by
  cases value <;> simp [string?]

/-- The checksum among the members of a file, if there is one that counts as present, is that of
the rest. -/
def Verified (members : Entries Json) : Prop :=
  ∀ stored, Entries.get? members "checksum" = some stored → stored.truthy = true →
    stored = .str (checksum (Envelope.covered members))

theorem verified_iff {members : Entries Json} : Verified members ↔
    ¬(((Entries.get? members "checksum").getD .null).truthy = true ∧
      ((Entries.get? members "checksum").getD .null).string? ≠
        some (checksum (.obj (Entries.erase members "checksum")))) := by
  rw [not_and, not_not, string?_eq_some_iff, Verified]
  rcases Entries.get? members "checksum" with _ | stored
  · exact ⟨fun _ => nofun, fun _ => nofun⟩
  · exact ⟨fun h htruthy => h stored rfl htruthy, fun h _ heq => Option.some.inj heq ▸ h⟩

theorem leadsOf_eq_ok_iff {version : Json} {members leads : Entries Json} :
    leadsOf version members = .ok leads ↔ Holds version members leads := by
  unfold leadsOf
  dsimp only
  constructor
  · intro h
    split at h
    · cases h
    split at h
    · cases h
    split at h
    · cases h
    rename_i hversion hchecksum herrors
    exact ⟨by simpa using hversion, fun hstored => verified_iff.mpr hchecksum _ hstored,
      not_not.mp herrors, Except.ok.inj h⟩
  · intro h
    have hverified : Verified members := fun _ => h.checksum_eq
    rw [if_neg (by simp [h.version_eq]), if_neg (verified_iff.mp hverified),
      if_neg (not_not.mpr h.errors_eq), h.leads_eq]

theorem decode_eq_ok_iff {version : Json} {bytes : List UInt8} {leads : Entries Json} :
    decode version bytes = .ok leads ↔ ∃ text members, Text.decodeAs? .utf8 bytes = some text ∧
      parse .lastWins text = .ok (.obj members) ∧ Holds version members leads := by
  unfold decode decodeText
  constructor
  · intro h
    split at h
    · cases h
    rename_i text htext
    split at h
    · cases h
    · cases h
    · rename_i members hparse
      exact ⟨text, members, htext, hparse, leadsOf_eq_ok_iff.mp h⟩
    · cases h
  · rintro ⟨text, members, htext, hparse, hholds⟩
    simp only [htext, hparse]
    exact leadsOf_eq_ok_iff.mpr hholds

/-- A file is loaded exactly when it can be read as the text of an object that holds the leads. A
checksum that is absent, or counts as absent, is not looked at. -/
theorem load_eq_some_iff {disk : Disk} {route : Route} {version : Json} {leads : Entries Json} :
    (load disk route version).2 = .ok (some leads) ↔
      ∃ bytes text members, disk.read route = .ok bytes ∧
        Text.decodeAs? .utf8 bytes = some text ∧ parse .lastWins text = .ok (.obj members) ∧
        Holds version members leads := by
  constructor
  · intro h
    unfold load readFrom at h
    split at h
    · cases h
    · cases h
    · split at h
      · rename_i loaded hloaded
        obtain rfl := Option.some.inj (Except.ok.inj h)
        split at hloaded
        · rename_i bytes hread
          obtain ⟨text, members, hmembers⟩ := decode_eq_ok_iff.mp hloaded
          exact ⟨bytes, text, members, hread, hmembers⟩
        · cases hloaded
      · cases h
  · rintro ⟨bytes, text, members, hread, hmembers⟩
    have hdecode := decode_eq_ok_iff.mpr ⟨text, members, hmembers⟩
    rw [load, Disk.exists?_of_read hread]
    simp only [readFrom, hread, hdecode]

/-- Loading a file that can be asked for gives leads or none, and where it gives leads it only logs
how many. -/
theorem load_cases {disk : Disk} {route : Route} {there : Bool}
    (h : disk.exists? route = .ok there) (version : Json) :
    (∃ signals, load disk route version = (signals, .ok none)) ∨
      ∃ leads, load disk route version = ([.log (.fileLoaded leads.length)], .ok (some leads)) := by
  unfold load
  rw [h]
  cases there with
  | false => exact .inl ⟨_, rfl⟩
  | true =>
    dsimp only
    split
    · exact .inr ⟨_, rfl⟩
    · exact .inl ⟨_, rfl⟩

/-- Nowhere in the leads of a file that is loaded is a key repeated. -/
theorem unrepeated_obj_of_load {disk : Disk} {route : Route} {version : Json}
    {leads : Entries Json} (h : (load disk route version).2 = .ok (some leads)) :
    (Json.obj leads).unrepeated = true := by
  obtain ⟨bytes, text, members, -, -, hparse, hholds⟩ := load_eq_some_iff.mp h
  have hmembers := unrepeatedMembers_of_obj (within_parse hparse).unrepeated
  have hrest : unrepeatedMembers (Entries.erase members "checksum") = true :=
    unrepeatedMembers_iff.mpr fun m hm =>
      unrepeatedMembers_iff.mp hmembers m (List.mem_of_mem_filter hm)
  have hleads := hholds.leads_eq
  rcases hget : Entries.get? (Entries.erase members "checksum") "leads" with _ | value
  · rw [hget] at hleads
    obtain rfl : [] = leads := hleads
    rfl
  · have hvalue := unrepeated_of_get? hrest hget
    rw [hget] at hleads
    cases value with
    | obj found =>
      obtain rfl : found = leads := hleads
      exact hvalue
    | _ =>
      obtain rfl : [] = leads := hleads
      rfl

/-- No lead of a file that is loaded repeats a key. -/
theorem unrepeated_of_load {disk : Disk} {route : Route} {version : Json} {leads : Entries Json}
    (h : (load disk route version).2 = .ok (some leads)) :
    ∀ lead ∈ leads, lead.2.unrepeated = true :=
  (unrepeated_obj_iff.mp (unrepeated_obj_of_load h)).2

/-- No lead comes up twice in a file that is loaded. -/
theorem nodup_keys_of_load {disk : Disk} {route : Route} {version : Json} {leads : Entries Json}
    (h : (load disk route version).2 = .ok (some leads)) : (Entries.keys leads).Nodup :=
  (unrepeated_obj_iff.mp (unrepeated_obj_of_load h)).1

/-- A file of which the lead was altered and the checksum removed. -/
def stripped : Entries Json :=
  body (.int 1) (.int 0)
    [("a", .obj [("active_path", .arr [.str "lead", .str "goal_hit"])])]

/-- **A file without a checksum is loaded.** Nothing shows that it was altered. -/
theorem load_stripped :
    (load ⟨"leads", [(["f"], .file (render .file (.obj stripped)).toUTF8.toList)], []⟩ ["f"]
        (.int 1)).2 = .ok (some [("a", .obj [("active_path", .arr [.str "lead", .str "goal_hit"])])]) ∧
      parse .lastWins (render .file (.obj stripped)) = .ok (.obj stripped) ∧
      Entries.get? stripped "checksum" ≠ some (.str (checksum (Envelope.covered stripped))) := by
  have hparse : parse .lastWins (render .file (.obj stripped)) = .ok (.obj stripped) :=
    parse_render_of_le Style.plain_file (by decide +kernel) (by decide +kernel) (by decide +kernel)
  refine ⟨load_eq_some_iff.mpr ⟨_, _, _, rfl, Text.decodeAs?_toUTF8 _, hparse, ?_⟩, hparse, nofun⟩
  exact ⟨by decide +kernel, nofun, by decide +kernel, rfl⟩

/-! ## What saving writes -/

/-- The members of a file that is saved. -/
def sealed (version savedAt : Json) (leads : Entries Json) : Entries Json :=
  body version savedAt leads ++ [("checksum", .str (checksum (.obj (body version savedAt leads))))]

/-- Where it is known on which values a function succeeds, it succeeds for leads exactly with such
values. -/
theorem eachLead_eq_ok_iff {α β : Type} {f : α → Except Flaw β} {p : α → Prop} {g : α → β}
    {entries : Entries α}
    (hf : ∀ entry ∈ entries, ∀ b, f entry.2 = .ok b ↔ p entry.2 ∧ b = g entry.2)
    (results : Entries β) : eachLead f entries = .ok results ↔
      (∀ entry ∈ entries, p entry.2) ∧ results = entries.map fun entry => (entry.1, g entry.2) := by
  induction entries generalizing results with
  | nil =>
    rw [eachLead, Except.ok.injEq]
    exact ⟨fun h => ⟨List.forall_mem_nil _, h.symm⟩, fun h => h.2.symm⟩
  | cons entry rest ih =>
    obtain ⟨hentry, hrest⟩ := List.forall_mem_cons.mp hf
    rw [eachLead, List.forall_mem_cons, List.map_cons]
    rcases hresult : f entry.2 with flaw | b
    · refine ⟨nofun, fun h => ?_⟩
      have hok := (hentry (g entry.2)).mpr ⟨h.1.1, rfl⟩
      rw [hresult] at hok
      cases hok
    · obtain ⟨hp, rfl⟩ := (hentry b).mp hresult
      dsimp only
      rcases hrests : eachLead f rest with flaw | others
      · refine ⟨nofun, fun h => ?_⟩
        have hok := (ih hrest _).mpr ⟨h.1.2, rfl⟩
        rw [hrests] at hok
        cases hok
      · obtain ⟨hps, rfl⟩ := (ih hrest others).mp hrests
        constructor
        · rintro ⟨⟩
          exact ⟨⟨hp, hps⟩, rfl⟩
        · rintro ⟨-, rfl⟩
          rfl

section Saved

variable {leads : Entries Saved} {saved : Saved} {layout : Layout} {version savedAt : Json}
  {text : String}

/-- The leads as they stand in the file. -/
def values (leads : Entries Saved) : Entries Json :=
  leads.map fun lead => (lead.1, lead.2.value)

/-- The text of a saved lead is the canonical one of its value, if that can be written. -/
def Saved.IsCanonical (saved : Saved) : Prop :=
  saved.covered = if saved.value.isWritable then .ok (write .canonical leadDepth saved.value)
    else .error .longInteger

theorem Saved.isCanonical_ofLayout (h : ∀ key ∈ Entries.keys layout.context, key.isText = true) :
    (ofLayout layout).IsCanonical :=
  Layout.canonicalText_eq h leadDepth

theorem Saved.isCanonical_ofJson {members : Entries Json} (h : ofJson (.obj members) = .ok saved) :
    saved.value = .obj members ∧ saved.IsCanonical := by
  obtain rfl := Except.ok.inj h
  have hvalue : ofPairs (pairsOf members) = .obj members := Except.ok.inj (asPairs_obj members)
  have htexts : ∀ key ∈ Entries.keys (pairsOf members), key.isText = true := by
    rw [pairsOf, Entries.keys, List.map_map]
    exact List.forall_mem_map.mpr fun _ _ => rfl
  exact ⟨hvalue, Layout.pairsText_eq htexts leadDepth⟩

/-- A lead has a text exactly if its value can be written and does not nest too deep. -/
theorem Saved.IsCanonical.text_eq_ok_iff (h : saved.IsCanonical) : saved.text = .ok text ↔
    (saved.value.isWritable = true ∧ leadDepth + saved.value.nesting ≤ coverLimit) ∧
      text = write .canonical leadDepth saved.value := by
  unfold IsCanonical at h
  rw [Saved.text, h]
  cases saved.value.isWritable with
  | false => exact ⟨nofun, fun h => absurd h.1.1 Bool.false_ne_true⟩
  | true =>
    by_cases hnesting : leadDepth + saved.value.nesting ≤ coverLimit
    · simp [hnesting, bind, Except.bind, pure, Except.pure, eq_comm]
    · simp [hnesting, bind, Except.bind, throw, throwThe, MonadExceptOf.throw]

/-- The covered text is canonical; it does not depend on the order of the leads. -/
theorem bodyText_sortMembers (version savedAt : Json) (leads : Entries Saved) :
    bodyText version savedAt ((sortMembers leads).map fun lead =>
        (lead.1, write .canonical leadDepth lead.2.value)) =
      (Json.obj (body version savedAt (values leads))).canonical := by
  let texts := leads.map fun lead => (lead.1, write .canonical leadDepth lead.2.value)
  have hmap : (sortMembers leads).map (fun lead =>
      (lead.1, write .canonical leadDepth lead.2.value)) = sortMembers texts :=
    (sortMembers_map (fun saved => write .canonical leadDepth saved.value) leads).symm
  have horder : Style.canonical.order (sortMembers texts) = Style.canonical.order texts :=
    sortMembers_of_pairwise (pairwise_sortMembers texts)
  rw [← bodyText_eq_canonical, values, List.map_map, hmap, bodyText, horder]
  rfl

theorem isWritable_sealed (version savedAt : Json) (leads : Entries Json) :
    (Json.obj (sealed version savedAt leads)).isWritable =
      ((leads.all fun lead => lead.2.isWritable) && (savedAt.isWritable && version.isWritable)) := by
  have hleads : (Json.obj leads).isWritable = leads.all fun lead => lead.2.isWritable := by
    rw [Bool.eq_iff_iff, isWritable, membersWritable_iff, List.all_eq_true]
  have hmembers : (Json.obj (sealed version savedAt leads)).isWritable =
      (version.isWritable && (savedAt.isWritable && ((Json.obj leads).isWritable && true))) := rfl
  rw [hmembers, hleads, Bool.and_true, ← Bool.and_assoc, Bool.and_comm,
    Bool.and_comm version.isWritable]

/-- Saving writes the text of the members of the file, if they can be written and no lead nests too
deep. -/
theorem textOf_eq_ok_iff (hcanonical : ∀ lead ∈ leads, lead.2.IsCanonical) :
    textOf version savedAt leads = .ok text ↔
      ((Json.obj (sealed version savedAt (values leads))).isWritable = true ∧
        ∀ lead ∈ leads, leadDepth + lead.2.value.nesting ≤ coverLimit) ∧
      text = render .file (.obj (sealed version savedAt (values leads))) := by
  have hmem {lead : String × Saved} : lead ∈ sortMembers leads ↔ lead ∈ leads :=
    (sortMembers_perm leads).mem_iff
  have heach := eachLead_eq_ok_iff (f := Saved.text)
    (p := fun saved => saved.value.isWritable = true ∧ leadDepth + saved.value.nesting ≤ coverLimit)
    (g := fun saved => write .canonical leadDepth saved.value)
    fun lead hlead _ => (hcanonical lead (hmem.mp hlead)).text_eq_ok_iff
  have htextOf : textOf version savedAt leads =
      (eachLead Saved.text (sortMembers leads)).bind fun texts =>
        if savedAt.isWritable && version.isWritable then
          .ok (encode version savedAt (values leads) (bodyText version savedAt texts))
        else .error .longInteger := rfl
  have hsealed : (Json.obj (sealed version savedAt (values leads))).isWritable = true ↔
      (∀ lead ∈ leads, lead.2.value.isWritable = true) ∧
        (savedAt.isWritable && version.isWritable) = true := by
    rw [isWritable_sealed, Bool.and_eq_true, List.all_eq_true, values, List.forall_mem_map]
  rw [htextOf, hsealed]
  rcases hresults : eachLead Saved.text (sortMembers leads) with flaw | texts
  · refine ⟨nofun, fun h => ?_⟩
    have hok := (heach _).mpr ⟨fun lead hlead =>
      ⟨h.1.1.1 lead (hmem.mp hlead), h.1.2 lead (hmem.mp hlead)⟩, rfl⟩
    rw [hresults] at hok
    cases hok
  · obtain ⟨hleads, rfl⟩ := (heach texts).mp hresults
    have hwritable : ∀ lead ∈ leads, lead.2.value.isWritable = true :=
      fun lead hlead => (hleads lead (hmem.mpr hlead)).1
    have hnesting : ∀ lead ∈ leads, leadDepth + lead.2.value.nesting ≤ coverLimit :=
      fun lead hlead => (hleads lead (hmem.mpr hlead)).2
    rw [Except.bind, bodyText_sortMembers]
    cases savedAt.isWritable && version.isWritable with
    | false => exact ⟨nofun, fun h => absurd h.1.1.2 Bool.false_ne_true⟩
    | true =>
      rw [if_pos rfl, Except.ok.injEq]
      exact ⟨fun h => ⟨⟨⟨hwritable, rfl⟩, hnesting⟩, h.symm⟩, fun h => h.2.symm⟩

/-- Saving succeeds exactly if there is a text of the leads and its place takes it. -/
theorem save_eq_true_iff {disk left : Disk} {route : Route} {signals : List Signal} :
    save disk route version savedAt leads = ⟨left, signals, .ok true⟩ ↔
      ∃ text, textOf version savedAt leads = .ok text ∧
        disk.replace route text.toUTF8.toList = (left, none) ∧
        signals = [.log (.saved leads.length)] := by
  rw [save, store]
  rcases textOf version savedAt leads with flaw | text
  · exact ⟨nofun, nofun⟩
  · dsimp only
    rcases hreplace : disk.replace route text.toUTF8.toList with ⟨replaced, _ | error⟩
    · constructor
      · rintro ⟨⟩
        exact ⟨text, rfl, hreplace, rfl⟩
      · rintro ⟨_, ⟨⟩, hreplaced, rfl⟩
        rw [hreplace] at hreplaced
        obtain ⟨⟩ := hreplaced
        rfl
    · refine ⟨nofun, ?_⟩
      rintro ⟨_, ⟨⟩, hreplaced, -⟩
      rw [hreplace] at hreplaced
      cases hreplaced

/-- The members of a saved file of leads that are objects hold the leads, if they are of the version
that is asked for. -/
theorem leadsOf_sealed {members : Entries Json}
    (hobjects : ∀ lead ∈ members, lead.2.members?.isSome)
    (hnow : savedAt.isLenientDouble = true) (v w : Int) :
    leadsOf (.int w) (sealed (.int v) savedAt members) =
      if w = v then .ok members else .error (.otherVersion (.int v)) := by
  split
  · rename_i hversion
    subst hversion
    refine leadsOf_eq_ok_iff.mpr ⟨beq_self_eq_true _, fun hstored _ =>
      (Option.some.inj hstored).symm, ?_, rfl⟩
    have hfilter : members.filter (fun lead => lead.2.members?.isNone) = [] := by
      rw [List.filter_eq_nil_iff]
      intro lead hlead
      rw [Option.isNone_iff_eq_none, ← Option.not_isSome_iff_eq_none, not_not]
      exact hobjects lead hlead
    have herrors : errors (body (.int w) savedAt members) =
        (if savedAt.isLenientDouble then 0 else 1) +
          (members.filter fun lead => lead.2.members?.isNone).length := by
      cases savedAt with
      | null => cases hnow
      | _ => exact congrArg (· + _) (Nat.zero_add _)
    exact herrors.trans (by rw [if_pos hnow, hfilter]; rfl)
  · rename_i hversion
    have hother : (Json.int v).same (.int w) = false := beq_false_of_ne (Ne.symm hversion)
    exact if_pos (by rw [Bool.not_eq_true']; exact hother)

/-- What is saved lies within the limits of reading. -/
theorem within_sealed {members : Entries Json} {v : Int}
    (hunrepeated : (Json.obj members).unrepeated = true)
    (hnesting : ∀ lead ∈ members, leadDepth + lead.2.nesting ≤ coverLimit)
    (hnow : savedAt.isLenientDouble = true)
    (hwritable : (Json.obj (sealed (.int v) savedAt members)).isWritable = true) :
    Within nestingLimit (.obj (sealed (.int v) savedAt members)) := by
  obtain ⟨room, hroom, hcover⟩ : ∃ room, room + 2 = nestingLimit ∧ coverLimit ≤ leadDepth + room :=
    ⟨987, by unfold nestingLimit; rfl, by decide⟩
  have hparts := hwritable
  rw [isWritable, membersWritable_iff, sealed, List.forall_mem_append, List.forall_mem_singleton,
    body] at hparts
  simp only [List.forall_mem_cons] at hparts
  obtain ⟨⟨hversion, htime, hleads, -⟩, hchecksum⟩ := hparts
  rw [isWritable, membersWritable_iff] at hleads
  have hentries : Within (room + 1) (.obj members) := by
    obtain ⟨hkeys, hvalues⟩ := unrepeated_obj_iff.mp hunrepeated
    refine within_obj_iff.mpr ⟨hkeys, fun lead hlead => ?_⟩
    have hdepth := Nat.le_trans (hnesting lead hlead) hcover
    exact ⟨hvalues lead hlead, hleads lead hlead, Nat.le_of_add_le_add_left hdepth⟩
  have hscalar : Within (room + 1) savedAt := by
    cases savedAt with
    | null | arr _ | obj _ => cases hnow
    | _ => exact ⟨rfl, htime, Nat.zero_le _⟩
  refine hroom ▸ within_obj_iff.mpr
    ⟨show ["version", "saved_at", "leads", "checksum"].Nodup by decide, ?_⟩
  rw [sealed, List.forall_mem_append, List.forall_mem_singleton, body]
  simp only [List.forall_mem_cons]
  exact ⟨⟨⟨rfl, hversion, Nat.zero_le _⟩, hscalar, hentries, List.forall_mem_nil _⟩,
    rfl, hchecksum, Nat.zero_le _⟩

/-- Of a file that can be read as the text of an object the members decide what is loaded. -/
theorem load_of_parse {disk : Disk} {route : Route} {bytes : List UInt8} {members : Entries Json}
    (hread : disk.read route = .ok bytes) (htext : Text.decodeAs? .utf8 bytes = some text)
    (hparse : parse .lastWins text = .ok (.obj members)) (version : Json) :
    (load disk route version).2 = .ok (leadsOf version members).toOption := by
  rw [load, Disk.exists?_of_read hread]
  simp only [readFrom, hread, decode, htext, decodeText, hparse]
  rcases leadsOf version members with rejection | leads <;> rfl

/-- **Leads that were saved are loaded again**, when the version is asked for that they were saved
with, and not when another one is. -/
theorem load_save {disk left : Disk} {route : Route} {v : Int} {signals : List Signal}
    (hcanonical : ∀ lead ∈ leads, lead.2.IsCanonical)
    (hobjects : ∀ lead ∈ values leads, lead.2.members?.isSome)
    (hunrepeated : (Json.obj (values leads)).unrepeated = true)
    (hnow : savedAt.isLenientDouble = true)
    (hsave : save disk route (.int v) savedAt leads = ⟨left, signals, .ok true⟩) (w : Int) :
    (load left route (.int w)).2 = .ok (if w = v then some (values leads) else none) := by
  obtain ⟨text, htextOf, hreplace, -⟩ := save_eq_true_iff.mp hsave
  obtain ⟨⟨hwritable, hnesting⟩, rfl⟩ := (textOf_eq_ok_iff hcanonical).mp htextOf
  have hwithin := within_sealed hunrepeated (List.forall_mem_map.mpr hnesting) hnow hwritable
  have hparse := parse_render_of_le Style.plain_file hwithin.unrepeated hwritable hwithin.nesting_le
  rw [load_of_parse (Disk.read_replace hreplace) (Text.decodeAs?_toUTF8 _) hparse,
    leadsOf_sealed hobjects hnow]
  split <;> rfl

end Saved

end LeadsFile

end Lifecycle
