import Lifecycle.Text.Width

/-!
# Extents of texts

How many cells a text takes in a line of a terminal. Two characters act on their neighbours: the
joiner draws the character behind it over the one before it, and the selector shows the character
before it as a picture. All others take the cells that they take alone.
-/

namespace Lifecycle.Text

/-- The ranges of the characters of one cell that are pictures of two cells before a selector. -/
def pictureRanges : List (Nat × Nat) :=
  [(0x23, 0x23), (0x2A, 0x2A), (0x30, 0x39), (0xA9, 0xA9), (0xAE, 0xAE), (0x203C, 0x203C),
    (0x2049, 0x2049), (0x2122, 0x2122), (0x2139, 0x2139), (0x2194, 0x2199), (0x21A9, 0x21AA),
    (0x2328, 0x2328), (0x23CF, 0x23CF), (0x23ED, 0x23EF), (0x23F1, 0x23F2), (0x23F8, 0x23FA),
    (0x24C2, 0x24C2), (0x25AA, 0x25AB), (0x25B6, 0x25B6), (0x25C0, 0x25C0), (0x25FB, 0x25FC),
    (0x2600, 0x2604), (0x260E, 0x260E), (0x2611, 0x2611), (0x2618, 0x2618), (0x261D, 0x261D),
    (0x2620, 0x2620), (0x2622, 0x2623), (0x2626, 0x2626), (0x262A, 0x262A), (0x262E, 0x262F),
    (0x2638, 0x263A), (0x2640, 0x2640), (0x2642, 0x2642), (0x265F, 0x2660), (0x2663, 0x2663),
    (0x2665, 0x2666), (0x2668, 0x2668), (0x267B, 0x267B), (0x267E, 0x267E), (0x2692, 0x2692),
    (0x2694, 0x2697), (0x2699, 0x2699), (0x269B, 0x269C), (0x26A0, 0x26A0), (0x26A7, 0x26A7),
    (0x26B0, 0x26B1), (0x26C8, 0x26C8), (0x26CF, 0x26CF), (0x26D1, 0x26D1), (0x26D3, 0x26D3),
    (0x26E9, 0x26E9), (0x26F0, 0x26F1), (0x26F4, 0x26F4), (0x26F7, 0x26F9), (0x2702, 0x2702),
    (0x2708, 0x2709), (0x270C, 0x270D), (0x270F, 0x270F), (0x2712, 0x2712), (0x2714, 0x2714),
    (0x2716, 0x2716), (0x271D, 0x271D), (0x2721, 0x2721), (0x2733, 0x2734), (0x2744, 0x2744),
    (0x2747, 0x2747), (0x2763, 0x2764), (0x27A1, 0x27A1), (0x2934, 0x2935), (0x2B05, 0x2B07),
    (0x1F170, 0x1F171), (0x1F17E, 0x1F17F), (0x1F321, 0x1F321), (0x1F324, 0x1F32C),
    (0x1F336, 0x1F336), (0x1F37D, 0x1F37D), (0x1F396, 0x1F397), (0x1F399, 0x1F39B),
    (0x1F39E, 0x1F39F), (0x1F3CB, 0x1F3CE), (0x1F3D4, 0x1F3DF), (0x1F3F3, 0x1F3F3),
    (0x1F3F5, 0x1F3F5), (0x1F3F7, 0x1F3F7), (0x1F43F, 0x1F43F), (0x1F441, 0x1F441),
    (0x1F4FD, 0x1F4FD), (0x1F549, 0x1F54A), (0x1F56F, 0x1F570), (0x1F573, 0x1F579),
    (0x1F587, 0x1F587), (0x1F58A, 0x1F58D), (0x1F590, 0x1F590), (0x1F5A5, 0x1F5A5),
    (0x1F5A8, 0x1F5A8), (0x1F5B1, 0x1F5B2), (0x1F5BC, 0x1F5BC), (0x1F5C2, 0x1F5C4),
    (0x1F5D1, 0x1F5D3), (0x1F5DC, 0x1F5DE), (0x1F5E1, 0x1F5E1), (0x1F5E3, 0x1F5E3),
    (0x1F5E8, 0x1F5E8), (0x1F5EF, 0x1F5EF), (0x1F5F3, 0x1F5F3), (0x1F5FA, 0x1F5FA),
    (0x1F6CB, 0x1F6CB), (0x1F6CD, 0x1F6CF), (0x1F6E0, 0x1F6E5), (0x1F6E9, 0x1F6E9),
    (0x1F6F0, 0x1F6F0), (0x1F6F3, 0x1F6F3)]

/-- The character that joins its neighbours. -/
def joiner : Char := '\u200D'

/-- The character that asks for a picture. -/
def pictureSelector : Char := '\uFE0F'

/-- How many cells a selector adds to the character that it applies to. -/
def widening : Option Char → Nat
  | none => 0
  | some c => if inRanges pictureRanges c.toNat then 1 else 0

/-- How many cells a text takes behind the last character that a selector would apply to. -/
def extentAfter (last : Option Char) : List Char → Nat
  | [] => 0
  | [c] => if c = joiner then 0 else if c = pictureSelector then widening last else cells c
  | c :: d :: rest =>
    if c = joiner then extentAfter last rest
    else if c = pictureSelector then widening last + extentAfter none (d :: rest)
    else cells c + extentAfter (if cells c = 0 then last else some c) (d :: rest)

/-- How many cells a text takes. -/
def extent (text : List Char) : Nat := extentAfter none text

/-- A text of printable characters takes as many cells as it has characters. -/
theorem extent_of_printable {text : List Char}
    (h : ∀ c ∈ text, 0x20 ≤ c.toNat ∧ c.toNat < 0x7F) : extent text = text.length := by
  suffices ∀ last, extentAfter last text = text.length from this none
  intro last
  have alone {c : Char} (hc : 0x20 ≤ c.toNat ∧ c.toNat < 0x7F) :
      c ≠ joiner ∧ c ≠ pictureSelector ∧ cells c = 1 := by
    refine ⟨?_, ?_, cells_of_printable hc.1 hc.2⟩
    · rintro rfl
      exact absurd hc.2 (by decide)
    · rintro rfl
      exact absurd hc.2 (by decide)
  fun_induction extentAfter last text with
  | case1 => rfl
  | case2 last => exact absurd rfl (alone (h _ (by simp))).1
  | case3 last hj => exact absurd rfl (alone (h _ (by simp))).2.1
  | case4 last c hj hs => simpa using (alone (h c (by simp))).2.2
  | case5 last d rest ih => exact absurd rfl (alone (h _ (by simp))).1
  | case6 last d rest hj ih => exact absurd rfl (alone (h _ (by simp))).2.1
  | case7 last c d rest hj hs ih =>
    have hc := (alone (h c (by simp))).2.2
    have hr := ih fun c hc => h c (List.mem_cons_of_mem _ hc)
    simp only [List.length_cons] at hr ⊢
    omega

end Lifecycle.Text
