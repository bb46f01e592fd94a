import Lifecycle.Proofs.Json.Reading
import Lifecycle.Proofs.Json.Written

/-!
# Values read back

A text in a style of plain separators denotes the value that was written (`textOf_render`), as it
stands where members are written in their order, arranged where they are sorted. So it is read back
(`parse_render`), up to the first container that lies deeper than there is room. The text of a value
decides it (`render_inj`), and the canonical text decides it up to the order of members
(`canonical_eq_iff`).
-/

namespace Lifecycle.Json

attribute [local irreducible] integerBound

/-! ## Sorted styles -/

/-- The style with members in their order. -/
def Style.inOrder (style : Style) : Style := { style with sorted := false }

theorem Style.Plain.inOrder {style : Style} (h : style.Plain) : style.inOrder.Plain :=
  ⟨h.comma, h.colon⟩

mutual

/-- Sorting while writing is writing what is arranged. -/
theorem write_sorted {style : Style} (hsorted : style.sorted = true) :
    ∀ (depth : Nat) (value : Json),
      write style depth value = write style.inOrder depth value.arranged
  | _, .null | _, .bool _ | _, .int _ | _, .float _ | _, .str _ => rfl
  | depth, .arr items => by
    rw [arranged, write, write, writeItems_sorted hsorted]
    rfl
  | depth, .obj members => by
    have horder : style.order (writeMembers style (depth + 1) members) =
        writeMembers style.inOrder (depth + 1) (sortMembers (arrangedMembers members)) := by
      rw [Style.order, if_pos hsorted, writeMembers_sorted hsorted, writeMembers_eq,
        writeMembers_eq, ← sortMembers_map]
      rfl
    rw [arranged, write, write, horder]
    rfl

theorem writeItems_sorted {style : Style} (hsorted : style.sorted = true) :
    ∀ (depth : Nat) (items : List Json),
      writeItems style depth items = writeItems style.inOrder depth (arrangedItems items)
  | _, [] => rfl
  | depth, item :: items => by
    rw [arrangedItems, writeItems, writeItems, write_sorted hsorted, writeItems_sorted hsorted]

theorem writeMembers_sorted {style : Style} (hsorted : style.sorted = true) :
    ∀ (depth : Nat) (members : List (String × Json)),
      writeMembers style depth members =
        writeMembers style.inOrder depth (arrangedMembers members)
  | _, [] => rfl
  | depth, (_, value) :: members => by
    rw [arrangedMembers, writeMembers, writeMembers, write_sorted hsorted,
      writeMembers_sorted hsorted]

end

/-! ## What is read -/

/-- What comes of reading a value for which there is room up to some container. -/
def readAs {α : Type} (value : α) (rest : List Char) :
    Option Container → Except ReadError (α × List Char)
  | none => .ok (value, rest)
  | some container => .error (.excess (.nesting container))

theorem followed_fitting {α : Type} (value : α) (deep : Option Container) (rest : List Char) :
    followed (fitting value deep) rest = readAs value rest deep := by
  cases deep <;> rfl

/-! ## Texts of values -/

/-- A value with its members as a style writes them. -/
def Style.shape (style : Style) (value : Json) : Json :=
  if style.sorted then value.arranged else value

theorem nesting_shape (style : Style) (value : Json) :
    (style.shape value).nesting = value.nesting := by
  unfold Style.shape
  split
  · exact nesting_arranged value
  · rfl

/-- Without repeated keys and long integers, what is written is allowed up to some container. -/
theorem allow_shape {style : Style} {policy : KeyPolicy} {room : Nat} {value : Json}
    (hun : value.unrepeated = true) (hwritable : value.isWritable = true) :
    allow policy room (style.shape value) =
      fitting (style.shape value) (firstDeep? room (style.shape value)) := by
  unfold Style.shape
  split
  · exact allow_eq_fitting (by rwa [unrepeated_arranged]) (by rwa [isWritable_arranged])
  · exact allow_eq_fitting hun hwritable

section Render

variable {style : Style} (hplain : style.Plain)

include hplain

/-- The text of a value denotes it, as the style writes it. -/
theorem denotes_render (value : Json) :
    Denotes (render style value).toList (style.shape value) := by
  unfold render Style.shape
  split
  · rename_i hsorted
    rw [write_sorted hsorted]
    exact denotes_write hplain.inOrder rfl value.arranged 0
  · rename_i hsorted
    exact denotes_write hplain (Bool.not_eq_true _ ▸ hsorted) value 0

theorem textOf_render (value : Json) : TextOf (render style value) (style.shape value) :=
  ⟨[], (render style value).toList, [], by simp, rfl, denotes_render hplain value, rfl⟩

variable {value : Json} (hun : value.unrepeated = true) (hwritable : value.isWritable = true)

include hun hwritable

/-- Read with some room, a value comes back as the style writes it. -/
theorem readValue_render (room : Nat) {fuel : Nat}
    (hfuel : (render style value).toList.length ≤ fuel) :
    readValue .lastWins room fuel (render style value).toList =
      readAs (style.shape value) [] (firstDeep? room (style.shape value)) := by
  have hread := (denotes_render hplain value).readValue .lastWins room fuel [] hfuel rfl
  rwa [List.append_nil, allow_shape hun hwritable, followed_fitting] at hread

theorem parse_render :
    parse .lastWins (render style value) =
      (readAs (style.shape value) [] (firstDeep? nestingLimit (style.shape value))).map Prod.fst := by
  rw [parse_of_textOf (textOf_render hplain value), allow_shape hun hwritable]
  cases firstDeep? nestingLimit (style.shape value) <;> rfl

/-- What is not nested too deep is read back. -/
theorem parse_render_of_le (hnesting : value.nesting ≤ nestingLimit) :
    parse .lastWins (render style value) = .ok (style.shape value) := by
  have hroom : firstDeep? nestingLimit (style.shape value) = none :=
    firstDeep?_eq_none_iff.mpr (by rwa [nesting_shape])
  rw [parse_render hplain hun hwritable, hroom]
  rfl

/-- What is nested too deep is not read. -/
theorem parse_render_of_lt (hnesting : nestingLimit < value.nesting) :
    ∃ container, parse .lastWins (render style value) = .error (.excess (.nesting container)) := by
  rw [parse_render hplain hun hwritable]
  rcases hdeep : firstDeep? nestingLimit (style.shape value) with _ | container
  · rw [firstDeep?_eq_none_iff, nesting_shape] at hdeep
    exact absurd hdeep (Nat.not_le.mpr hnesting)
  · exact ⟨container, rfl⟩

end Render

/-- Texts of one style are equal only for values that the style writes alike. -/
theorem render_inj {style : Style} (hplain : style.Plain) {a b : Json} (ha : a.unrepeated = true)
    (hb : b.unrepeated = true) (hwa : a.isWritable = true) (hwb : b.isWritable = true)
    (h : render style a = render style b) : style.shape a = style.shape b := by
  have hreada := readValue_render hplain ha hwa (max a.nesting b.nesting) (Nat.le_refl _)
  have hreadb := readValue_render hplain hb hwb (max a.nesting b.nesting) (Nat.le_refl _)
  rw [firstDeep?_eq_none_iff.mpr (by rw [nesting_shape]; exact Nat.le_max_left ..)] at hreada
  rw [firstDeep?_eq_none_iff.mpr (by rw [nesting_shape]; exact Nat.le_max_right ..), ← h,
    hreada] at hreadb
  exact (Prod.mk.inj (Except.ok.inj hreadb)).1

theorem canonical_arranged (value : Json) : value.arranged.canonical = value.canonical := by
  have hsorted : Style.canonical.sorted = true := rfl
  rw [canonical, canonical, render, render, write_sorted hsorted, arranged_arranged,
    ← write_sorted hsorted]

/-- The canonical text decides a value up to the order of members, and only that. -/
theorem canonical_eq_iff {a b : Json} (ha : a.unrepeated = true) (hb : b.unrepeated = true)
    (hwa : a.isWritable = true) (hwb : b.isWritable = true) :
    a.canonical = b.canonical ↔ a.alike b = true := by
  rw [alike_iff ha hb]
  constructor
  · intro h
    exact render_inj Style.plain_canonical ha hb hwa hwb h
  · intro h
    rw [← canonical_arranged a, h, canonical_arranged b]

end Lifecycle.Json
