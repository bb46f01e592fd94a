/-!
# Dotted paths

Paths are written as their segments with dots between them. Splitting a text at its dots and
joining the segments again gives the text back (`join_split`).
-/

namespace Lifecycle.Text

/-- The segments between dots. -/
def splitDots : List Char → List (List Char)
  | [] => [[]]
  | c :: cs =>
    if c = '.' then [] :: splitDots cs
    else match splitDots cs with
      | [] => [[c]]
      | first :: rest => (c :: first) :: rest

/-- The segments of a dotted text; an empty text is one empty segment. -/
def segments (text : String) : List String :=
  (splitDots text.toList).map String.ofList

/-- The segments with dots between them. -/
def dotted : List String → String
  | [] => ""
  | [segment] => segment
  | segment :: rest => segment ++ "." ++ dotted rest

/-- The segments of characters with dots between them. -/
def joinDots : List (List Char) → List Char
  | [] => []
  | [segment] => segment
  | segment :: rest => segment ++ '.' :: joinDots rest

theorem splitDots_ne_nil (cs : List Char) : splitDots cs ≠ [] := by
  cases cs with
  | nil => simp [splitDots]
  | cons c cs =>
    unfold splitDots
    split
    · simp
    · split <;> simp

/-- Joining what was split gives the text back. -/
theorem join_split (cs : List Char) : joinDots (splitDots cs) = cs := by
  induction cs with
  | nil => rfl
  | cons c cs ih =>
    unfold splitDots
    by_cases h : c = '.'
    · subst h
      rw [if_pos rfl]
      cases hs : splitDots cs with
      | nil => exact absurd hs (splitDots_ne_nil cs)
      | cons first rest => simp [joinDots, ← hs, ih]
    · rw [if_neg h]
      cases hs : splitDots cs with
      | nil => exact absurd hs (splitDots_ne_nil cs)
      | cons first rest =>
        rw [hs] at ih
        cases rest with
        | nil => simpa [joinDots] using ih
        | cons second rest => simpa [joinDots] using ih

end Lifecycle.Text
