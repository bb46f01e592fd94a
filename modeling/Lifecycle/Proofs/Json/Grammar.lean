import Lifecycle.Proofs.Json.Tokens

/-!
# Texts of a value

What it is for a text to denote a value (`TextOf`): the tokens may have any of their forms and stand
with any gaps between them. An object is the list of its members as they are written, so a text in
which a key repeats, however its characters are written, denotes a value in which it does.
-/

namespace Lifecycle.Json

/-! ## Gaps -/

theorem isGap_nil : ([] : List Char).all isGap = true := rfl

/-- Whether a text does not start with a gap. -/
def startsToken (cs : List Char) : Bool := cs.head?.all fun c => !isGap c

theorem skipGap_self {cs : List Char} (hcs : startsToken cs = true) : skipGap cs = cs := by
  cases cs with
  | nil => rfl
  | cons c cs =>
    have hc : isGap c = false := by simpa [startsToken] using hcs
    simp [skipGap, hc]

theorem skipGap_append {gap cs : List Char} (hgap : gap.all isGap = true)
    (hcs : startsToken cs = true) : skipGap (gap ++ cs) = cs := by
  rw [skipGap, List.dropWhile_append_of_pos (List.all_eq_true.mp hgap)]
  exact skipGap_self hcs

theorem endsNumber_gap {gap rest : List Char} (hgap : gap.all isGap = true)
    (hrest : endsNumber rest = true) : endsNumber (gap ++ rest) = true := by
  cases gap with
  | nil => exact hrest
  | cons c cs =>
    have hc : isGap c = true := by simp_all
    simp only [isGap, Bool.or_eq_true, decide_eq_true_eq] at hc
    rcases hc with ((rfl | rfl) | rfl) | rfl <;> rfl

/-! ## Values -/

mutual

/-- One of the texts of a value, without gaps around it. -/
inductive Denotes : List Char → Json → Prop
  | null : Denotes ['n', 'u', 'l', 'l'] .null
  | boolTrue : Denotes ['t', 'r', 'u', 'e'] (.bool true)
  | boolFalse : Denotes ['f', 'a', 'l', 's', 'e'] (.bool false)
  | number {cs : List Char} {value : Json} : NumberOf cs value → Denotes cs value
  | string {cs s : List Char} : InQuotes cs s →
    Denotes ('"' :: (cs ++ ['"'])) (.str (String.ofList s))
  | emptyArray {gap : List Char} : gap.all isGap = true → Denotes ('[' :: (gap ++ [']'])) (.arr [])
  | array {gap cs : List Char} {items : List Json} : gap.all isGap = true →
    DenotesItems cs items → Denotes ('[' :: (gap ++ (cs ++ [']']))) (.arr items)
  | emptyObject {gap : List Char} : gap.all isGap = true →
    Denotes ('\x7b' :: (gap ++ ['\x7d'])) (.obj [])
  | object {gap cs : List Char} {members : List (String × Json)} : gap.all isGap = true →
    DenotesMembers cs members → Denotes ('\x7b' :: (gap ++ (cs ++ ['\x7d']))) (.obj members)

/-- One of the texts of one or more items, with the commas between them. -/
inductive DenotesItems : List Char → List Json → Prop
  | last {cs gap : List Char} {item : Json} : Denotes cs item → gap.all isGap = true →
    DenotesItems (cs ++ gap) [item]
  | more {cs before after rest : List Char} {item : Json} {items : List Json} : Denotes cs item →
    before.all isGap = true → after.all isGap = true → DenotesItems rest items →
    DenotesItems (cs ++ (before ++ ',' :: (after ++ rest))) (item :: items)

/-- One of the texts of one or more members, with the commas between them. -/
inductive DenotesMembers : List Char → List (String × Json) → Prop
  | last {name key before after cs gap : List Char} {value : Json} : InQuotes name key →
    before.all isGap = true → after.all isGap = true → Denotes cs value → gap.all isGap = true →
    DenotesMembers ('"' :: (name ++ '"' :: (before ++ ':' :: (after ++ (cs ++ gap)))))
      [(String.ofList key, value)]
  | more {name key before after cs behind ahead rest : List Char} {value : Json}
    {members : List (String × Json)} : InQuotes name key →
    before.all isGap = true → after.all isGap = true → Denotes cs value →
    behind.all isGap = true → ahead.all isGap = true → DenotesMembers rest members →
    DenotesMembers ('"' :: (name ++ '"' :: (before ++ ':' ::
      (after ++ (cs ++ (behind ++ ',' :: (ahead ++ rest)))))))
      ((String.ofList key, value) :: members)

end

/-- A text denotes a value. -/
def TextOf (text : String) (value : Json) : Prop :=
  ∃ before cs after, text.toList = before ++ (cs ++ after) ∧ before.all isGap = true ∧
    Denotes cs value ∧ after.all isGap = true

/-- A value starts with a character that is no gap and closes nothing. -/
theorem Denotes.exists_eq_cons {cs : List Char} {value : Json} (h : Denotes cs value) :
    ∃ c rest, cs = c :: rest ∧ isGap c = false ∧ c ≠ ']' ∧ c ≠ '\x7d' := by
  cases h with
  | null => exact ⟨_, _, rfl, rfl, by decide, by decide⟩
  | boolTrue => exact ⟨_, _, rfl, rfl, by decide, by decide⟩
  | boolFalse => exact ⟨_, _, rfl, rfl, by decide, by decide⟩
  | number h =>
    have hstart := h.startsNumber
    cases cs with
    | nil => cases hstart
    | cons c rest =>
      have hne : ∀ d : Char, startsNumber [d] = false → c ≠ d := by
        rintro d hd rfl
        rw [startsNumber, List.head?_cons] at hstart hd
        exact Bool.false_ne_true (hd.symm.trans hstart)
      refine ⟨c, rest, rfl, ?_, hne ']' rfl, hne '\x7d' rfl⟩
      simp [isGap, hne ' ' rfl, hne '\t' rfl, hne '\n' rfl, hne '\r' rfl]
  | string => exact ⟨_, _, rfl, rfl, by decide, by decide⟩
  | emptyArray => exact ⟨_, _, rfl, rfl, by decide, by decide⟩
  | array => exact ⟨_, _, rfl, rfl, by decide, by decide⟩
  | emptyObject => exact ⟨_, _, rfl, rfl, by decide, by decide⟩
  | object => exact ⟨_, _, rfl, rfl, by decide, by decide⟩

theorem Denotes.startsToken {cs : List Char} {value : Json} (h : Denotes cs value)
    (rest : List Char) : startsToken (cs ++ rest) = true := by
  obtain ⟨c, more, rfl, hc, -⟩ := h.exists_eq_cons
  simp [Json.startsToken, hc]

/-- Items start like the first of them. -/
theorem DenotesItems.exists_eq_cons {cs : List Char} {items : List Json}
    (h : DenotesItems cs items) : ∃ c rest, cs = c :: rest ∧ isGap c = false ∧ c ≠ ']' := by
  cases h with
  | last h =>
    obtain ⟨c, rest, rfl, hgap, hclose, -⟩ := h.exists_eq_cons
    exact ⟨c, _, rfl, hgap, hclose⟩
  | more h =>
    obtain ⟨c, rest, rfl, hgap, hclose, -⟩ := h.exists_eq_cons
    exact ⟨c, _, rfl, hgap, hclose⟩

theorem DenotesItems.startsToken {cs : List Char} {items : List Json} (h : DenotesItems cs items)
    (rest : List Char) : startsToken (cs ++ rest) = true := by
  obtain ⟨c, more, rfl, hc, -⟩ := h.exists_eq_cons
  simp [Json.startsToken, hc]

/-- Members start with the quote of the first key. -/
theorem DenotesMembers.exists_eq_cons {cs : List Char} {members : List (String × Json)}
    (h : DenotesMembers cs members) : ∃ rest, cs = '"' :: rest := by
  cases h with
  | last => exact ⟨_, rfl⟩
  | more => exact ⟨_, rfl⟩

end Lifecycle.Json
