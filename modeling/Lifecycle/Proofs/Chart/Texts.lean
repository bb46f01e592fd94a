import Lifecycle.Chart.Build
import Lifecycle.Proofs.Json.Reading

/-!
# Charts from texts

A text describes the chart that is defined by the declaration it denotes, whichever of the texts of
the declaration it is, and is refused where a key repeats in some object, at whatever depth
(`ofText_of_textOf`). What goes beyond the limits of reading is refused, too, either for that or for
a key that repeats.
-/

namespace Lifecycle.Chart

open Json (InQuotes Denotes DenotesMembers TextOf Repeats Fits isGap_nil nestingLimit digitLimit)

attribute [local irreducible] Json.digitLimit

section Outcomes

variable {text : String} {declaration : Json} (h : TextOf text declaration) (registry : Registry)
  (events : Option (List String))

include h

theorem ofText_of_allow (hallow : Json.allow .refuse nestingLimit declaration = .ok declaration) :
    ofText registry events text = define registry events declaration := by
  rw [ofText, Json.parse_of_textOf h, hallow]

theorem ofText_of_repeatedKey {key : String}
    (hallow : Json.allow .refuse nestingLimit declaration = .error (.repeatedKey key)) :
    ofText registry events text = .error ⟨.repeatedKey key, none⟩ := by
  rw [ofText, Json.parse_of_textOf h, hallow]

theorem ofText_of_excess {excess : Json.Excess}
    (hallow : Json.allow .refuse nestingLimit declaration = .error (.excess excess)) :
    ofText registry events text = .error ⟨.textExcess excess, none⟩ := by
  rw [ofText, Json.parse_of_textOf h, hallow]

end Outcomes

/-! ## Texts with one object -/

/-- The text of an object with one member. -/
theorem denotes_one {name key cs : List Char} {value : Json} (hname : InQuotes name key)
    (hvalue : Denotes cs value) :
    Denotes ('\x7b' :: '"' :: (name ++ '"' :: ':' :: (cs ++ ['\x7d'])))
      (.obj [(String.ofList key, value)]) := by
  have hmember := DenotesMembers.last hname isGap_nil isGap_nil hvalue isGap_nil
  simpa using Denotes.object isGap_nil hmember

/-- The text of an object with two members. -/
theorem denotes_two {name key cs name' key' cs' : List Char} {value value' : Json}
    (hname : InQuotes name key) (hvalue : Denotes cs value) (hname' : InQuotes name' key')
    (hvalue' : Denotes cs' value') :
    Denotes ('\x7b' :: '"' :: (name ++ '"' :: ':' :: (cs ++ ',' :: '"' :: (name' ++ '"' :: ':' ::
      (cs' ++ ['\x7d']))))) (.obj [(String.ofList key, value), (String.ofList key', value')]) := by
  have hlast := DenotesMembers.last hname' isGap_nil isGap_nil hvalue' isGap_nil
  have hmembers := DenotesMembers.more hname isGap_nil isGap_nil hvalue isGap_nil isGap_nil hlast
  simpa using Denotes.object isGap_nil hmembers

/-- The digits of the least integer that has too many of them. -/
def longDigits : List Char := '1' :: List.replicate digitLimit '0'

/-- The least integer that has too many digits. -/
def longInteger : Int := Json.digitsValue longDigits

theorem isWhole_longDigits : Json.IsWhole longDigits where
  digits c hc := by
    rcases List.mem_cons.mp hc with rfl | hc
    · rfl
    · rw [List.eq_of_mem_replicate hc]
      rfl
  start := .inr ⟨_, _, rfl, by decide⟩

theorem denotes_longInteger : Denotes longDigits (.int longInteger) :=
  .number (.integer false isWhole_longDigits)

theorem allow_longInteger (policy : Json.KeyPolicy) (room : Nat) :
    Json.allow policy room (.int longInteger) = .error (.excess (.digits (digitLimit + 1))) := by
  have hdigits : Json.digitsOf longInteger.natAbs = longDigits :=
    isWhole_longDigits.digitsOf_digitsValue
  have hlength : longDigits.length = digitLimit + 1 := by simp [longDigits]
  rw [Json.allow, hdigits, hlength, if_pos (Nat.lt_succ_self _)]

end Lifecycle.Chart
