import Lifecycle.Proofs.Json.RoundTrip
import Lifecycle.Proofs.Snapshot.Layout
import Lifecycle.Snapshot.Envelope

/-!
# Envelopes that are written and read

What reading accepts (`decode_eq_ok_iff`): the text of an object whose members hold a layout, with
the checksum of all other members. What writing gives holds the layout in whatever style it stands
(`holds_shape`), because the checksum does not depend on the order of members. Main results: layouts
come back from their envelopes (`decode_encode`), and the checksum decides what it covers up to the
order of members (`checksum_decides`).
-/

namespace Lifecycle.Envelope

open Json

attribute [local irreducible] integerBound digitLimit nestingLimit

/-- A layout in its envelope. -/
def sealed (version : Json) (layout : Layout) : Json :=
  .obj (body version layout ++ [("checksum", .str (checksum (.obj (body version layout))))])

theorem wrap_eq (version : Json) (layout : Layout) :
    wrap version layout =
      if (Json.obj (body version layout)).isWritable then .ok (render .line (sealed version layout))
      else .error (.flawed .longInteger) := rfl

theorem length_checksum (value : Json) : (checksum value).length = 64 :=
  Sha256.length_hexDigest _

/-! ## What reading accepts -/

theorem errors_eq_zero_iff {members : Entries Json} :
    errors members = 0 ↔
      versionErrors (Entries.get? members "version") = 0 ∧
      snapshotErrors (Entries.get? members "snapshot") = 0 ∧
      checksumErrors (Entries.get? members "checksum") = 0 ∧
      Layout.extraFields ["version", "snapshot", "checksum"] members = 0 := by
  rw [errors]
  omega

theorem versionErrors_eq_zero_iff {field : Option Json} :
    versionErrors field = 0 ↔ ∃ found, field.bind lenientInteger? = some found := by
  rcases field with _ | given
  · simp [versionErrors]
  · rw [versionErrors, Option.bind_some]
    rcases given.lenientInteger? with _ | found <;> simp

theorem snapshotErrors_eq_zero_iff {field : Option Json} :
    snapshotErrors field = 0 ↔ ∃ value, field = some value ∧ Layout.errors value = 0 := by
  rcases field with _ | value <;> simp [snapshotErrors]

theorem checksumErrors_eq_zero_iff {field : Option Json} :
    checksumErrors field = 0 ↔ ∃ text, field = some (.str text) ∧ text.length = 64 := by
  rcases field with _ | value
  · simp [checksumErrors]
  · cases value <;> simp [checksumErrors]

/-- The object of all members but the checksum. -/
def covered (members : Entries Json) : Json := .obj (Entries.erase members "checksum")

/-- The members of an envelope hold a layout of a version: nothing is wrong with them, and the
checksum is that of all others. -/
structure Holds (members : Entries Json) (found : Int) (layout : Layout) : Prop where
  checksum_eq : Entries.get? members "checksum" = some (.str (checksum (covered members)))
  version_eq : (Entries.get? members "version").bind lenientInteger? = some found
  check_eq : ∃ value, Entries.get? members "snapshot" = some value ∧ Layout.check value = .ok layout
  extraFields_eq : Layout.extraFields ["version", "snapshot", "checksum"] members = 0

theorem Holds.errors_eq {members : Entries Json} {found : Int} {layout : Layout}
    (h : Holds members found layout) : errors members = 0 := by
  obtain ⟨value, hvalue, hcheck⟩ := h.check_eq
  exact errors_eq_zero_iff.mpr ⟨versionErrors_eq_zero_iff.mpr ⟨found, h.version_eq⟩,
    snapshotErrors_eq_zero_iff.mpr ⟨value, hvalue, (Layout.check_eq_ok_iff.mp hcheck).1⟩,
    checksumErrors_eq_zero_iff.mpr ⟨_, h.checksum_eq, length_checksum _⟩, h.extraFields_eq⟩

/-- An envelope in order is opened for its version alone. -/
theorem Holds.unwrap_eq {members : Entries Json} {found : Int} {layout : Layout}
    (h : Holds members found layout) (version : Json) :
    unwrap version members =
      if (Json.int found).same version then .ok layout
      else .error (.otherVersion found version) := by
  obtain ⟨value, hvalue, hcheck⟩ := h.check_eq
  obtain ⟨-, rfl⟩ := Layout.check_eq_ok_iff.mp hcheck
  have hchecksum : ¬ (some (checksum (.obj (Entries.erase members "checksum"))) ≠
      (Entries.get? members "checksum").bind string?) := by
    rw [h.checksum_eq]
    exact not_not.mpr rfl
  rw [unwrap, if_neg (not_not.mpr h.errors_eq), if_neg hchecksum, h.version_eq, hvalue]
  cases hsame : (Json.int found).same version <;> simp [hsame]

theorem unwrap_eq_ok_iff {version : Json} {members : Entries Json} {layout : Layout} :
    unwrap version members = .ok layout ↔
      ∃ found, Holds members found layout ∧ (Json.int found).same version = true := by
  constructor
  · intro h
    unfold unwrap at h
    split at h
    · cases h
    split at h
    · cases h
    rename_i herrors hchecksum
    obtain ⟨hversion, hsnapshot, htext, hextra⟩ := errors_eq_zero_iff.mp (not_not.mp herrors)
    obtain ⟨found, hfound⟩ := versionErrors_eq_zero_iff.mp hversion
    obtain ⟨value, hvalue, hzero⟩ := snapshotErrors_eq_zero_iff.mp hsnapshot
    obtain ⟨text, htext, -⟩ := checksumErrors_eq_zero_iff.mp htext
    rw [not_not, htext] at hchecksum
    obtain rfl := Option.some.inj hchecksum
    simp only [hvalue, hfound, Option.getD_some] at h
    split at h
    · cases h
    rename_i hsame
    rw [Bool.not_eq_true, Bool.not_eq_false'] at hsame
    exact ⟨found, ⟨htext, hfound, ⟨value, hvalue, Layout.check_eq_ok_iff.mpr
      ⟨hzero, Except.ok.inj h⟩⟩, hextra⟩, hsame⟩
  · rintro ⟨found, hholds, hsame⟩
    rw [hholds.unwrap_eq, if_pos hsame]

/-- What reading accepts is the text of an object that holds the layout. -/
theorem decode_eq_ok_iff {version : Json} {text : String} {layout : Layout} :
    decode version text = .ok layout ↔
      ∃ members found, parse .lastWins text = .ok (.obj members) ∧ Holds members found layout ∧
        (Json.int found).same version = true := by
  unfold decode
  constructor
  · intro h
    split at h
    · rename_i members hparse
      obtain ⟨found, hholds, hsame⟩ := unwrap_eq_ok_iff.mp h
      exact ⟨members, found, hparse, hholds, hsame⟩
    all_goals cases h
  · rintro ⟨members, found, hparse, hholds, hsame⟩
    rw [hparse]
    exact unwrap_eq_ok_iff.mpr ⟨found, hholds, hsame⟩

/-- What is read with an envelope lies within the limits, and so does its layout. -/
theorem within_decode {version : Json} {text : String} {layout : Layout}
    (h : decode version text = .ok layout) :
    ∃ members found room, room + 1 = nestingLimit ∧ parse .lastWins text = .ok (.obj members) ∧
      Holds members found layout ∧ (Json.int found).same version = true ∧
      Within (room + 1) (.obj members) ∧ (Json.int found).isWritable = true ∧
      Within room layout.toJson := by
  obtain ⟨members, found, hparse, hholds, hsame⟩ := decode_eq_ok_iff.mp h
  obtain ⟨room, hroom⟩ : ∃ room, room + 1 = nestingLimit := ⟨988, by unfold nestingLimit; rfl⟩
  have hwithin : Within (room + 1) (.obj members) := hroom ▸ within_parse hparse
  have hat {name : String} {value : Json} (hget : Entries.get? members name = some value) :
      Within room value := by
    obtain ⟨k, hmem, -⟩ := Entries.exists_mem_of_get? hget
    exact (within_obj_iff.mp hwithin).2 _ hmem
  obtain ⟨given, hgiven, hfound⟩ := Option.bind_eq_some_iff.mp hholds.version_eq
  obtain ⟨value, hvalue, hcheck⟩ := hholds.check_eq
  exact ⟨members, found, room, hroom, hparse, hholds, hsame, hwithin,
    isWritable_of_lenientInteger? (hat hgiven).isWritable hfound,
    Layout.within_toJson (hat hvalue) hcheck⟩

theorem within_covered {room : Nat} {members : Entries Json}
    (h : Within (room + 1) (.obj members)) : Within (room + 1) (covered members) := by
  obtain ⟨hnodup, hmembers⟩ := within_obj_iff.mp h
  have hsub : (Entries.erase members "checksum").Sublist members := List.filter_sublist
  exact within_obj_iff.mpr ⟨hnodup.sublist (hsub.map Prod.fst),
    fun m hm => hmembers m (hsub.subset hm)⟩

/-! ## What writing gives -/

section Sealed

variable {layout : Layout} {v : Int}

theorem unrepeated_body (hun : layout.toJson.unrepeated = true) :
    (Json.obj (body (.int v) layout)).unrepeated = true := by
  refine unrepeated_obj_iff.mpr ⟨show ["version", "snapshot"].Nodup by decide, ?_⟩
  rw [body, List.forall_mem_cons, List.forall_mem_singleton]
  exact ⟨rfl, hun⟩

theorem unrepeated_sealed (hun : layout.toJson.unrepeated = true) :
    (sealed (.int v) layout).unrepeated = true := by
  refine unrepeated_obj_iff.mpr ⟨show ["version", "snapshot", "checksum"].Nodup by decide, ?_⟩
  rw [List.forall_mem_append, List.forall_mem_singleton]
  exact ⟨(unrepeated_obj_iff.mp (unrepeated_body hun)).2, rfl⟩

theorem isWritable_sealed :
    (sealed (.int v) layout).isWritable = (Json.obj (body (.int v) layout)).isWritable := by
  rw [Bool.eq_iff_iff, sealed, isWritable, isWritable, membersWritable_iff, membersWritable_iff,
    List.forall_mem_append, List.forall_mem_singleton]
  exact and_iff_left rfl

theorem nesting_sealed : (sealed (.int v) layout).nesting = layout.toJson.nesting + 1 := by
  simp [sealed, body, nesting, nestingMembers]

theorem arranged_body :
    (Json.obj (body (.int v) layout)).arranged =
      .obj [("snapshot", layout.toJson.arranged), ("version", .int v)] := by
  refine congrArg Json.obj (sortMembers_eq_of_perm (List.Perm.swap _ _ _) ?_)
  exact List.pairwise_pair.mpr (show "snapshot" < "version" by decide)

theorem arranged_sealed :
    (sealed (.int v) layout).arranged =
      .obj [("checksum", .str (checksum (.obj (body (.int v) layout)))),
        ("snapshot", layout.toJson.arranged), ("version", .int v)] := by
  refine congrArg Json.obj (sortMembers_eq_of_perm (List.reverse_perm _).symm ?_)
  simp only [List.pairwise_cons, List.forall_mem_cons]
  decide

theorem holds_body (hplain : layout.Plain) :
    Holds (body (.int v) layout ++ [("checksum", .str (checksum (.obj (body (.int v) layout))))])
      v layout :=
  ⟨rfl, rfl, ⟨_, rfl, Layout.check_toJson hplain⟩, rfl⟩

theorem holds_arranged {found : Layout} (hfound : Layout.check layout.toJson.arranged = .ok found) :
    Holds [("checksum", .str (checksum (.obj (body (.int v) layout)))),
      ("snapshot", layout.toJson.arranged), ("version", .int v)] v found := by
  refine ⟨?_, rfl, ⟨_, rfl, hfound⟩, rfl⟩
  have hcovered : checksum (.obj (body (.int v) layout)) =
      checksum (.obj [("snapshot", layout.toJson.arranged), ("version", .int v)]) := by
    rw [checksum, checksum, ← arranged_body, canonical_arranged]
  exact congrArg (some ∘ Json.str) hcovered

/-- However an envelope is written, it holds the layout up to the order of members. -/
theorem holds_shape (style : Style) (hplain : layout.Plain) (hun : layout.toJson.unrepeated = true) :
    ∃ members found, style.shape (sealed (.int v) layout) = .obj members ∧ Holds members v found ∧
      found.toJson.arranged = layout.toJson.arranged := by
  unfold Style.shape
  split
  · obtain ⟨found, hfound, htoJson⟩ := Layout.check_arranged hun (Layout.check_toJson hplain)
    exact ⟨_, found, arranged_sealed, holds_arranged hfound, htoJson ▸ arranged_arranged _⟩
  · exact ⟨_, layout, rfl, holds_body hplain, rfl⟩

section Text

variable {style : Style} (hstyle : style.Plain) (hun : layout.toJson.unrepeated = true)
  (hwritable : (Json.obj (body (.int v) layout)).isWritable = true)

include hstyle hun hwritable

/-- An envelope that is not nested too deep is opened for its version alone. -/
theorem decode_sealed (hplain : layout.Plain) (hnesting : layout.toJson.nesting < nestingLimit) :
    ∃ found, found.toJson.arranged = layout.toJson.arranged ∧ ∀ w : Int,
      decode (.int w) (render style (sealed (.int v) layout)) =
        if v = w then .ok found else .error (.otherVersion v (.int w)) := by
  obtain ⟨members, found, hshape, hholds, htoJson⟩ := holds_shape (v := v) style hplain hun
  have hparse : parse .lastWins (render style (sealed (.int v) layout)) = .ok (.obj members) :=
    hshape ▸ parse_render_of_le hstyle (unrepeated_sealed hun) (isWritable_sealed.trans hwritable)
      (nesting_sealed ▸ hnesting)
  refine ⟨found, htoJson, fun w => ?_⟩
  rw [decode, hparse]
  refine (hholds.unwrap_eq (.int w)).trans ?_
  have hsame : (Json.int v).same (.int w) = (v == w) := rfl
  simp only [hsame, beq_iff_eq]

theorem decode_sealed_deep (hnesting : nestingLimit ≤ layout.toJson.nesting) (version : Json) :
    ∃ container, decode version (render style (sealed (.int v) layout)) =
      .error (.textExcess (.nesting container)) := by
  obtain ⟨container, hparse⟩ := parse_render_of_lt hstyle (unrepeated_sealed (v := v) hun)
    (isWritable_sealed.trans hwritable) (by rw [nesting_sealed]; omega)
  exact ⟨container, by rw [decode, hparse]⟩

end Text

end Sealed

theorem encode_eq {value : Json} {layout : Layout} (hcheck : Layout.check value = .ok layout)
    (version : Json) : encode version value = wrap version layout := by
  obtain ⟨fields, rfl⟩ := Layout.exists_obj_of_errors (Layout.check_eq_ok_iff.mp hcheck).1
  rw [encode, hcheck]
  rfl

/-- A layout with its fields and members in no order and without a history. -/
def scrambled : Json :=
  .obj [("context", .obj [("z", .arr [.int 1, .float (.finite true 0), .bool true, .null]),
    ("\"", .obj [("b", .str "\\\n"), ("a", .arr [])])]), ("active_path", .arr [.str "m", .str "p"])]

/-- The canonical text decides a value up to the order of members, and so does the checksum that an
accepted text has, as far as the digest tells the two texts that it covers apart. -/
theorem checksum_decides :
    (∀ {a b : Json}, a.unrepeated = true → b.unrepeated = true → a.isWritable = true →
      b.isWritable = true → (a.canonical = b.canonical ↔ a.alike b = true)) ∧
    ∀ {version version' : Json} {text text' : String} {layout layout' : Layout},
      decode version text = .ok layout → decode version' text' = .ok layout' →
      ∃ members members', parse .lastWins text = .ok (.obj members) ∧
        parse .lastWins text' = .ok (.obj members') ∧
        ((covered members).alike (covered members') = true →
          Entries.get? members "checksum" = Entries.get? members' "checksum") ∧
        ((Sha256.ofText (covered members).canonical = Sha256.ofText (covered members').canonical →
            (covered members).canonical = (covered members').canonical) →
          Entries.get? members "checksum" = Entries.get? members' "checksum" →
          (covered members).alike (covered members') = true) := by
  refine ⟨canonical_eq_iff, fun h h' => ?_⟩
  obtain ⟨members, found, room, -, hparse, hholds, -, hwithin, -⟩ := within_decode h
  obtain ⟨members', found', room', -, hparse', hholds', -, hwithin', -⟩ := within_decode h'
  have hbody := within_covered hwithin
  have hbody' := within_covered hwithin'
  have hiff := canonical_eq_iff hbody.unrepeated hbody'.unrepeated hbody.isWritable
    hbody'.isWritable
  refine ⟨members, members', hparse, hparse', fun halike => ?_, fun hdigest hchecksum => ?_⟩
  · rw [hholds.checksum_eq, hholds'.checksum_eq, checksum, checksum, hiff.mpr halike]
  · rw [hholds.checksum_eq, hholds'.checksum_eq] at hchecksum
    exact hiff.mp (hdigest (Json.str.inj (Option.some.inj hchecksum)))

/-- The layout in an envelope of version 3. -/
def envelope : Json := sealed (.int 3) (Layout.ofJson scrambled)

theorem checksum_decides_scrambled :
    ∃ layout layout' members members',
      decode (.int 3) (render .line envelope) = .ok layout ∧
      decode (.int 3) (render .file envelope) = .ok layout' ∧
      parse .lastWins (render .line envelope) = .ok (.obj members) ∧
      parse .lastWins (render .file envelope) = .ok (.obj members') ∧
      (covered members).canonical = (covered members').canonical ∧
      Entries.get? members "checksum" = Entries.get? members' "checksum" ∧
      (covered members).alike (covered members') = true := by
  have hun : (Layout.ofJson scrambled).toJson.unrepeated = true := by decide +kernel
  have hwritable : (Json.obj (body (.int 3) (Layout.ofJson scrambled))).isWritable = true := by
    decide +kernel
  have hplain : (Layout.ofJson scrambled).Plain :=
    Layout.plain_of_check (Layout.check_eq_ok_iff.mpr ⟨by decide +kernel, rfl⟩)
  have hnesting : (Layout.ofJson scrambled).toJson.nesting < nestingLimit := by decide +kernel
  obtain ⟨layout, -, hline⟩ := decode_sealed Style.plain_line hun hwritable hplain hnesting
  obtain ⟨layout', -, hfile⟩ := decode_sealed Style.plain_file hun hwritable hplain hnesting
  obtain ⟨members, members', hparse, hparse', hsame, hdecides⟩ :=
    checksum_decides.2 (hline 3) (hfile 3)
  have hread {style : Style} (hstyle : style.Plain) :
      parse .lastWins (render style envelope) = .ok (style.shape envelope) :=
    parse_render_of_le hstyle (unrepeated_sealed hun) (isWritable_sealed.trans hwritable)
      (nesting_sealed ▸ hnesting)
  have hmembers : envelope.arranged = .obj members :=
    Except.ok.inj ((hread Style.plain_line).symm.trans hparse)
  have hmembers' : envelope = .obj members' :=
    Except.ok.inj ((hread Style.plain_file).symm.trans hparse')
  rw [envelope, arranged_sealed] at hmembers
  obtain rfl := Json.obj.inj hmembers
  obtain rfl := Json.obj.inj hmembers'
  have htexts := (congrArg canonical arranged_body).symm.trans
    (canonical_arranged (.obj (body (.int 3) (Layout.ofJson scrambled))))
  have halike := hdecides (fun _ => htexts) rfl
  exact ⟨layout, layout', _, _, hline 3, hfile 3, hparse, hparse', htexts, hsame halike, halike⟩

end Lifecycle.Envelope
