import Lifecycle.Proofs.Json.Allowed
import Lifecycle.Proofs.Json.Grammar

/-!
# Reading what a text denotes

Reading any text of a value gives what the policy allows of the value (`parse_of_textOf`), whatever
gaps, escapes and forms of numbers the text has: the form of a text never decides how it is read.
-/

namespace Lifecycle.Json

attribute [local irreducible] digitLimit

/-- An outcome with the rest of a text. -/
def followed {α : Type} (outcome : Except ReadError α) (rest : List Char) :
    Except ReadError (α × List Char) :=
  outcome.map fun a => (a, rest)

@[simp] theorem followed_ok {α : Type} (a : α) (rest : List Char) :
    followed (.ok a) rest = .ok (a, rest) := rfl

@[simp] theorem followed_error {α : Type} (e : ReadError) (rest : List Char) :
    followed (.error e : Except ReadError α) rest = .error e := rfl

/-! ## Numbers -/

theorem readValue_number {policy : KeyPolicy} {room fuel : Nat} {cs : List Char}
    (h : startsNumber cs = true) : readValue policy room (fuel + 1) cs = readNumber cs := by
  rw [readValue]
  all_goals
    intro rest hcs
    subst hcs
    simp [startsNumber] at h

theorem IsWhole.digitsOf_digitsValue {ds : List Char} (h : IsWhole ds) :
    digitsOf (digitsValue ds) = ds := by
  rcases h.start with rfl | ⟨c, cs, rfl, hc⟩
  · rfl
  · exact Json.digitsOf_digitsValue hc h.digits

theorem NumberOf.readNumber_append {cs rest : List Char} {value : Json} (h : NumberOf cs value)
    (hrest : endsNumber rest = true) (policy : KeyPolicy) (room : Nat) :
    readNumber (cs ++ rest) = followed (allow policy room value) rest := by
  cases h with
  | @integer negative ds hwhole =>
    have habs : (if negative then -(digitsValue ds : Int) else digitsValue ds).natAbs =
        digitsValue ds := by
      split <;> simp
    rw [allow, habs, hwhole.digitsOf_digitsValue, List.append_assoc, hwhole.readNumber_signed,
      readUnsigned_whole hwhole hrest]
    split <;> rfl
  | fractional negative hwhole hplaces hexponent hparted =>
    rw [List.append_assoc, List.append_assoc, hwhole.readNumber_signed, ← List.append_assoc,
      readUnsigned_fractional hwhole hplaces hexponent hparted hrest]
    rfl
  | infinite negative => cases negative <;> rfl
  | nan => rfl

/-! ## Containers -/

section Containers

variable {policy : KeyPolicy} {room fuel : Nat} {gap cs rest : List Char}
  (hgap : gap.all isGap = true)

include hgap

theorem readValue_emptyArray :
    readValue policy room (fuel + 1) ('[' :: (gap ++ ']' :: rest)) =
      followed (allow policy room (.arr [])) rest := by
  rw [readValue, allow]
  split
  · rfl
  · rw [skipGap_append hgap rfl]
    rfl

theorem readValue_emptyObject :
    readValue policy room (fuel + 1) ('\x7b' :: (gap ++ '\x7d' :: rest)) =
      followed (allow policy room (.obj [])) rest := by
  rw [readValue, allow]
  split
  · rfl
  · rw [skipGap_append hgap rfl]
    cases policy <;> rfl

/-- A list that holds something is read item by item. -/
theorem readValue_array {items : List Json} (hcs : startsToken cs = true)
    (hclose : cs.head? ≠ some ']')
    (hitems : readItems policy (room - 1) fuel cs =
      followed (allowItems policy (room - 1) items) rest) :
    readValue policy room (fuel + 1) ('[' :: (gap ++ cs)) =
      followed (allow policy room (.arr items)) rest := by
  rw [readValue, allow]
  split
  · rfl
  · rw [skipGap_append hgap hcs]
    split
    · simp at hclose
    · rw [hitems]
      cases allowItems policy (room - 1) items <;> rfl

/-- An object that holds something is read member by member, and then closed. -/
theorem readValue_object {members : List (String × Json)} (hcs : startsToken cs = true)
    (hclose : cs.head? ≠ some '\x7d')
    (hmembers : readMembers policy (room - 1) fuel cs =
      followed (allowMembers policy (room - 1) members) rest) :
    readValue policy room (fuel + 1) ('\x7b' :: (gap ++ cs)) =
      followed (allow policy room (.obj members)) rest := by
  rw [readValue, allow]
  split
  · rfl
  · rw [skipGap_append hgap hcs]
    split
    · simp at hclose
    · rw [hmembers]
      rcases allowMembers policy (room - 1) members with e | read
      · rfl
      · show (close policy read >>= fun object => pure (object, rest)) =
          followed (close policy read) rest
        cases close policy read <;> rfl

/-- The last item stands before the closing bracket. -/
theorem readItems_last {item : Json}
    (hread : readValue policy room fuel cs =
      followed (allow policy room item) (gap ++ ']' :: rest)) :
    readItems policy room (fuel + 1) cs = followed (allowItems policy room [item]) rest := by
  have hskip : skipGap (gap ++ ']' :: rest) = ']' :: rest := skipGap_append hgap rfl
  rw [readItems, hread, allowItems]
  rcases allow policy room item with e | read
  · rfl
  · simp [hskip, bind, Except.bind, pure, Except.pure, allowItems]

/-- Behind any other item there is a comma, and the next one. -/
theorem readItems_more {item : Json} {items : List Json} {text ahead : List Char}
    (hahead : ahead.all isGap = true) (hcs : startsToken cs = true)
    (hread : readValue policy room fuel text =
      followed (allow policy room item) (gap ++ ',' :: (ahead ++ cs)))
    (hmore : readItems policy room fuel cs = followed (allowItems policy room items) rest) :
    readItems policy room (fuel + 1) text =
      followed (allowItems policy room (item :: items)) rest := by
  have hskip : skipGap (gap ++ ',' :: (ahead ++ cs)) = ',' :: (ahead ++ cs) :=
    skipGap_append hgap rfl
  rw [readItems, hread, allowItems]
  rcases allow policy room item with e | read
  · rfl
  · simp only [followed_ok, bind, Except.bind, hskip, skipGap_append hahead hcs, hmore]
    cases allowItems policy room items <;> rfl

variable {name key before after text : List Char} {value : Json} (hname : InQuotes name key)
  (hbefore : before.all isGap = true) (hafter : after.all isGap = true)
  (htext : startsToken text = true)

include hname hbefore hafter htext

/-- The last member stands before the closing brace. -/
theorem readMembers_last
    (hread : readValue policy room fuel text =
      followed (allow policy room value) (gap ++ '\x7d' :: rest)) :
    readMembers policy room (fuel + 1)
        ('"' :: (name ++ '"' :: (before ++ ':' :: (after ++ text)))) =
      followed (allowMembers policy room [(String.ofList key, value)]) rest := by
  have hcolon : skipGap (before ++ ':' :: (after ++ text)) = ':' :: (after ++ text) :=
    skipGap_append hbefore rfl
  have hend : skipGap (gap ++ '\x7d' :: rest) = '\x7d' :: rest := skipGap_append hgap rfl
  rw [readMembers, hname.readString_append, allowMembers]
  simp only [bind, Except.bind, hcolon, skipGap_append hafter htext, hread]
  rcases allow policy room value with e | read
  · rfl
  · simp only [followed_ok, hend]
    rfl

/-- Behind any other member there is a comma, and the next one. -/
theorem readMembers_more {members : List (String × Json)} {ahead : List Char}
    (hahead : ahead.all isGap = true) (hcs : startsToken cs = true)
    (hread : readValue policy room fuel text =
      followed (allow policy room value) (gap ++ ',' :: (ahead ++ cs)))
    (hmore : readMembers policy room fuel cs = followed (allowMembers policy room members) rest) :
    readMembers policy room (fuel + 1)
        ('"' :: (name ++ '"' :: (before ++ ':' :: (after ++ text)))) =
      followed (allowMembers policy room ((String.ofList key, value) :: members)) rest := by
  have hcolon : skipGap (before ++ ':' :: (after ++ text)) = ':' :: (after ++ text) :=
    skipGap_append hbefore rfl
  have hcomma : skipGap (gap ++ ',' :: (ahead ++ cs)) = ',' :: (ahead ++ cs) :=
    skipGap_append hgap rfl
  rw [readMembers, hname.readString_append, allowMembers]
  simp only [bind, Except.bind, hcolon, skipGap_append hafter htext, hread]
  rcases allow policy room value with e | read
  · rfl
  · simp only [followed_ok, hcomma, skipGap_append hahead hcs, hmore]
    cases allowMembers policy room members <;> rfl

end Containers

/-! ## Texts -/

mutual

/-- Any text of a value is read from any place, as far as the value is allowed. -/
theorem Denotes.readValue {cs : List Char} {value : Json} (h : Denotes cs value)
    (policy : KeyPolicy) (room fuel : Nat) (rest : List Char) (hfuel : cs.length ≤ fuel)
    (hrest : endsNumber rest = true) :
    readValue policy room fuel (cs ++ rest) = followed (allow policy room value) rest := by
  obtain ⟨fuel, rfl⟩ : ∃ less, fuel = less + 1 := by
    obtain ⟨c, more, rfl, -⟩ := h.exists_eq_cons
    exact Nat.exists_eq_add_of_le' (Nat.le_trans (Nat.le_add_left 1 _) hfuel)
  cases h with
  | null => simp [Json.readValue, allow]
  | boolTrue => simp [Json.readValue, allow]
  | boolFalse => simp [Json.readValue, allow]
  | number h =>
    rw [readValue_number (startsNumber_append h.startsNumber)]
    exact h.readNumber_append hrest policy room
  | string h =>
    rw [List.cons_append, List.append_assoc, Json.readValue, List.singleton_append,
      h.readString_append]
    rfl
  | emptyArray hgap =>
    rw [List.cons_append, List.append_assoc]
    exact readValue_emptyArray hgap
  | emptyObject hgap =>
    rw [List.cons_append, List.append_assoc]
    exact readValue_emptyObject hgap
  | array hgap hitems =>
    simp only [List.length_cons, List.length_append] at hfuel
    have hread := hitems.readItems policy (room - 1) fuel rest (by omega)
    obtain ⟨c, more, rfl, hc, hclose⟩ := hitems.exists_eq_cons
    rw [List.cons_append, List.append_assoc, List.append_assoc]
    exact readValue_array hgap (by simp [startsToken, hc]) (by simpa using hclose) hread
  | object hgap hmembers =>
    simp only [List.length_cons, List.length_append] at hfuel
    have hread := hmembers.readMembers policy (room - 1) fuel rest (by omega)
    obtain ⟨more, rfl⟩ := hmembers.exists_eq_cons
    rw [List.cons_append, List.append_assoc, List.append_assoc]
    exact readValue_object hgap rfl (by simp) hread

theorem DenotesItems.readItems {cs : List Char} {items : List Json} (h : DenotesItems cs items)
    (policy : KeyPolicy) (room fuel : Nat) (rest : List Char) (hfuel : cs.length + 1 ≤ fuel) :
    readItems policy room fuel (cs ++ ']' :: rest) =
      followed (allowItems policy room items) rest := by
  obtain ⟨fuel, rfl⟩ := Nat.exists_eq_add_of_le' (Nat.le_trans (Nat.le_add_left 1 _) hfuel)
  cases h with
  | last hitem hgap =>
    simp only [List.length_append] at hfuel
    rw [List.append_assoc]
    exact readItems_last hgap
      (hitem.readValue policy room fuel _ (by omega) (endsNumber_gap hgap rfl))
  | more hitem hbefore hafter hmore =>
    simp only [List.length_append, List.length_cons] at hfuel
    have hread := hitem.readValue policy room fuel
    have hrest := hmore.readItems policy room fuel rest (by omega)
    simp only [List.append_assoc, List.cons_append]
    exact readItems_more hbefore hafter (hmore.startsToken _)
      (hread _ (by omega) (endsNumber_gap hbefore rfl)) hrest

theorem DenotesMembers.readMembers {cs : List Char} {members : List (String × Json)}
    (h : DenotesMembers cs members) (policy : KeyPolicy) (room fuel : Nat) (rest : List Char)
    (hfuel : cs.length + 1 ≤ fuel) :
    readMembers policy room fuel (cs ++ '\x7d' :: rest) =
      followed (allowMembers policy room members) rest := by
  obtain ⟨fuel, rfl⟩ := Nat.exists_eq_add_of_le' (Nat.le_trans (Nat.le_add_left 1 _) hfuel)
  cases h with
  | last hname hbefore hafter hvalue hgap =>
    simp only [List.length_append, List.length_cons] at hfuel
    have hread := hvalue.readValue policy room fuel
    simp only [List.append_assoc, List.cons_append]
    exact readMembers_last hgap hname hbefore hafter (hvalue.startsToken _)
      (hread _ (by omega) (endsNumber_gap hgap rfl))
  | more hname hbefore hafter hvalue hbehind hahead hmore =>
    simp only [List.length_append, List.length_cons] at hfuel
    have hread := hvalue.readValue policy room fuel
    have hrest := hmore.readMembers policy room fuel rest (by omega)
    obtain ⟨next, rfl⟩ := hmore.exists_eq_cons
    simp only [List.append_assoc, List.cons_append]
    exact readMembers_more hbehind hname hbefore hafter (hvalue.startsToken _) hahead rfl
      (hread _ (by omega) (endsNumber_gap hbehind rfl)) hrest

end

/-- **A text is read as what it denotes.** The outcome is that of the value, whichever of its texts
is read. -/
theorem parse_of_textOf {text : String} {value : Json} (h : TextOf text value)
    (policy : KeyPolicy) : parse policy text = allow policy nestingLimit value := by
  obtain ⟨before, cs, after, htext, hbefore, hvalue, hafter⟩ := h
  have hlength : cs.length ≤ 2 * text.toList.length + 2 := by
    simp only [htext, List.length_append]
    omega
  have hend : skipGap after = [] := by
    have hskip : skipGap (after ++ []) = [] := skipGap_append hafter rfl
    rwa [List.append_nil] at hskip
  have hafterEnds : endsNumber after = true := by
    have hgap : endsNumber (after ++ []) = true := endsNumber_gap hafter rfl
    rwa [List.append_nil] at hgap
  have hread := hvalue.readValue policy nestingLimit _ after hlength hafterEnds
  have hstart : skipGap text.toList = cs ++ after := by
    rw [htext, skipGap_append hbefore (hvalue.startsToken after)]
  unfold parse
  dsimp only
  rw [hstart, hread]
  rcases allow policy nestingLimit value with e | read
  · rfl
  · simp [bind, Except.bind, hend, pure, Except.pure]

end Lifecycle.Json
