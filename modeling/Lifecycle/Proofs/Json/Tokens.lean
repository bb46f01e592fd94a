import Lifecycle.Proofs.Json.Digits

/-!
# Tokens

The forms of strings (`InQuotes`) and numbers (`NumberOf`): characters as they are or escaped, and
the digits, fractions and exponents of numbers. Besides the numbers of JSON there are the names of
those that are not finite. A token is read with whatever follows it, a string up to its closing
quote, a number up to a character that does not belong to a number.
-/

namespace Lifecycle.Json

/-! ## Strings -/

/-- What may stand between the quotes of a string with these characters. A surrogate is none of
them: it stands for a character with the other one of a pair. -/
inductive InQuotes : List Char → List Char → Prop
  | nil : InQuotes [] []
  | plain {c : Char} {cs s : List Char} : 0x20 ≤ c.toNat → c ≠ '"' → c ≠ '\\' → InQuotes cs s →
    InQuotes (c :: cs) (c :: s)
  | escape {letter c : Char} {cs s : List Char} : escaped? letter = some c.toNat → InQuotes cs s →
    InQuotes ('\\' :: letter :: cs) (c :: s)
  /-- The code point of a character in hexadecimal digits. -/
  | unit {x y z w c : Char} {cs s : List Char} : fourHex? x y z w = some c.toNat →
    InQuotes cs s → InQuotes ('\\' :: 'u' :: x :: y :: z :: w :: cs) (c :: s)
  /-- The two surrogates of a character. -/
  | pair {x y z w x' y' z' w' c : Char} {high low : Nat} {cs s : List Char} :
    fourHex? x y z w = some high → fourHex? x' y' z' w' = some low →
    0xD800 ≤ high ∧ high < 0xDC00 → 0xDC00 ≤ low ∧ low < 0xE000 →
    c.toNat = 0x10000 + (high - 0xD800) * 0x400 + (low - 0xDC00) → InQuotes cs s →
    InQuotes ('\\' :: 'u' :: x :: y :: z :: w :: '\\' :: 'u' :: x' :: y' :: z' :: w' :: cs) (c :: s)

/-- No character is a surrogate. -/
theorem not_surrogate (c : Char) : ¬ (0xD800 ≤ c.toNat ∧ c.toNat < 0xE000) := by
  have h := c.valid
  simp only [UInt32.isValidChar, Nat.isValidChar] at h
  have heq : c.toNat = c.val.toNat := rfl
  omega

/-- The code point of a character is not joined with what follows. -/
theorem joinUnits_cons (c : Char) (units : List Nat) :
    joinUnits (c.toNat :: units) = c :: joinUnits units := by
  have hc := not_surrogate c
  cases units with
  | nil => simp [joinUnits, hc]
  | cons unit rest =>
    have hpair : ¬ (0xD800 ≤ c.toNat ∧ c.toNat < 0xDC00 ∧ 0xDC00 ≤ unit ∧ unit < 0xE000) := by
      omega
    simp [joinUnits, hc, hpair]

namespace InQuotes

variable {cs s : List Char}

/-- The code units between the quotes are read, and join to the characters. -/
theorem exists_units (h : InQuotes cs s) (rest : List Char) :
    ∃ units, readUnits (cs ++ '"' :: rest) = some (units, rest) ∧ joinUnits units = s := by
  induction h with
  | nil => exact ⟨[], by simp [readUnits], rfl⟩
  | @plain c cs s hcontrol hquote hslash h ih =>
    obtain ⟨units, hread, hjoin⟩ := ih
    refine ⟨c.toNat :: units, ?_, by rw [joinUnits_cons, hjoin]⟩
    have hcontrol : ¬ c.toNat < 0x20 := Nat.not_lt.mpr hcontrol
    simp [readUnits, hslash, hcontrol, hread]
  | @escape letter c cs s hletter h ih =>
    obtain ⟨units, hread, hjoin⟩ := ih
    refine ⟨c.toNat :: units, ?_, by rw [joinUnits_cons, hjoin]⟩
    have hu : letter ≠ 'u' := by
      rintro rfl
      cases hletter
    simp [readUnits, hu, hletter, hread]
  | @unit x y z w c cs s hunit h ih =>
    obtain ⟨units, hread, hjoin⟩ := ih
    exact ⟨c.toNat :: units, by simp [readUnits, hunit, hread], by rw [joinUnits_cons, hjoin]⟩
  | @pair x y z w x' y' z' w' c high low cs s hhigh hlow hhigh' hlow' hc h ih =>
    obtain ⟨units, hread, hjoin⟩ := ih
    refine ⟨high :: low :: units, by simp [readUnits, hhigh, hlow, hread], ?_⟩
    rw [joinUnits, if_pos ⟨hhigh'.1, hhigh'.2, hlow'.1, hlow'.2⟩, ← hc, Char.ofNat_toNat, hjoin]

/-- Characters that need no escapes stand as they are. -/
theorem of_plain
    (h : (s.all fun c => decide (0x20 ≤ c.toNat) && c != '"' && c != '\\') = true) :
    InQuotes s s := by
  induction s with
  | nil => exact .nil
  | cons c s ih =>
    simp only [List.all_cons, Bool.and_eq_true, decide_eq_true_eq, bne_iff_ne] at h
    exact .plain h.1.1.1 h.1.1.2 h.1.2 (ih h.2)

/-- A string is read up to its closing quote. -/
theorem readString_append (h : InQuotes cs s) (rest : List Char) :
    readString (cs ++ '"' :: rest) = .ok (String.ofList s, rest) := by
  obtain ⟨units, hread, hjoin⟩ := h.exists_units rest
  rw [readString, hread]
  simp only [hjoin]

end InQuotes

/-! ## Numbers -/

/-- Whether a number ends before a text. -/
def endsNumber (rest : List Char) : Bool :=
  rest.head?.all fun c => !(c.isDigit || c == '.' || c == 'e' || c == 'E')

theorem endsDigits_of_endsNumber {rest : List Char} (h : endsNumber rest = true) :
    endsDigits rest = true := by
  cases rest with
  | nil => rfl
  | cons c cs => simp_all [endsNumber, endsDigits]

/-- Digits before a point: one of them, or the first is no zero. -/
structure IsWhole (ds : List Char) : Prop where
  digits : ∀ c ∈ ds, c.isDigit = true
  start : ds = ['0'] ∨ ∃ c cs, ds = c :: cs ∧ c ≠ '0'

theorem isDigit_of_mem_zero : ∀ c ∈ ['0'], c.isDigit = true := List.forall_mem_singleton.mpr rfl

theorem isWhole_zero : IsWhole ['0'] := ⟨isDigit_of_mem_zero, .inl rfl⟩

theorem IsWhole.exists_cons {ds : List Char} (h : IsWhole ds) :
    ∃ c cs, ds = c :: cs ∧ c.isDigit = true := by
  obtain ⟨c, cs, rfl⟩ : ∃ c cs, ds = c :: cs := by
    rcases h.start with rfl | ⟨c, cs, rfl, -⟩
    · exact ⟨_, _, rfl⟩
    · exact ⟨c, cs, rfl⟩
  exact ⟨c, cs, rfl, h.digits c List.mem_cons_self⟩

theorem readWhole_append {ds rest : List Char} (h : IsWhole ds) (hrest : endsDigits rest = true) :
    readWhole (ds ++ rest) = (ds, rest) := by
  rcases h.start with rfl | ⟨c, cs, rfl, hc⟩
  · rfl
  · have hspan := spanDigits_append h.digits hrest
    unfold readWhole
    split
    · rename_i more heq
      exact absurd (List.cons.inj heq).1 hc
    · exact hspan

/-- A fraction as it is written: none, or a point and digits. -/
def fractionText : List Char → List Char
  | [] => []
  | places => '.' :: places

theorem readFraction_append {places rest : List Char} (h : ∀ c ∈ places, c.isDigit = true)
    (hrest : endsDigits rest = true) (hpoint : rest.head? ≠ some '.') :
    readFraction (fractionText places ++ rest) =
      (if places.isEmpty then none else some places, rest) := by
  cases places with
  | nil =>
    unfold readFraction
    split
    · simp_all [fractionText]
    · rfl
  | cons c cs =>
    have hspan := spanDigits_append h hrest
    show readFraction ('.' :: (c :: cs ++ rest)) = _
    rw [readFraction, hspan]
    rfl

/-- An exponent as it may be written: a mark, a sign or none, and digits. -/
inductive ExponentOf : List Char → Option Int → Prop
  | none : ExponentOf [] none
  | unsigned {mark : Char} {ds : List Char} : mark = 'e' ∨ mark = 'E' → ds ≠ [] →
    (∀ c ∈ ds, c.isDigit = true) → ExponentOf (mark :: ds) (some (digitsValue ds))
  | signed {mark : Char} {ds : List Char} (negative : Bool) : mark = 'e' ∨ mark = 'E' → ds ≠ [] →
    (∀ c ∈ ds, c.isDigit = true) → ExponentOf (mark :: (if negative then '-' else '+') :: ds)
      (some (if negative then -(digitsValue ds : Int) else digitsValue ds))

namespace ExponentOf

variable {text rest : List Char} {exponent : Option Int} (h : ExponentOf text exponent)
  (hrest : endsNumber rest = true)

include h hrest

theorem readExponent_append : readExponent (text ++ rest) = (exponent, rest) := by
  have hspan {ds : List Char} (hdigits : ∀ c ∈ ds, c.isDigit = true) :
      spanDigits (ds ++ rest) = (ds, rest) :=
    spanDigits_append hdigits (endsDigits_of_endsNumber hrest)
  cases h with
  | none =>
    cases rest with
    | nil => rfl
    | cons c cs =>
      have hc : ¬ (c = 'e' ∨ c = 'E') := by simp_all [endsNumber]
      simp [readExponent, hc]
  | @unsigned mark ds hmark hne hdigits =>
    obtain ⟨c, cs, rfl⟩ := List.exists_cons_of_ne_nil hne
    have hdigit := hdigits c List.mem_cons_self
    have hminus : c ≠ '-' := by rintro rfl; cases hdigit
    have hplus : c ≠ '+' := by rintro rfl; cases hdigit
    have hspan := hspan hdigits
    rw [List.cons_append] at hspan
    simp [readExponent, hmark, hminus, hplus, hspan]
  | @signed mark ds negative hmark hne hdigits =>
    obtain ⟨c, cs, rfl⟩ := List.exists_cons_of_ne_nil hne
    have hspan := hspan hdigits
    rw [List.cons_append] at hspan
    cases negative <;> simp [readExponent, hmark, hspan]

/-- Before an exponent digits end, and there is no point. -/
theorem endsDigits_append : endsDigits (text ++ rest) = true ∧ (text ++ rest).head? ≠ some '.' := by
  cases h with
  | none =>
    refine ⟨endsDigits_of_endsNumber hrest, fun hpoint => ?_⟩
    rw [List.nil_append] at hpoint
    simp [endsNumber, hpoint] at hrest
  | unsigned hmark => rcases hmark with rfl | rfl <;> simp [endsDigits]
  | signed negative hmark => rcases hmark with rfl | rfl <;> simp [endsDigits]

end ExponentOf

theorem head?_fractionText (places rest : List Char) :
    (fractionText places ++ rest).head? = if places.isEmpty then rest.head? else some '.' := by
  cases places <;> rfl

/-- A number that has a fraction or an exponent is read as binary64. -/
theorem readUnsigned_fractional {whole places text rest : List Char} {exponent : Option Int}
    (hwhole : IsWhole whole) (hplaces : ∀ c ∈ places, c.isDigit = true)
    (hexponent : ExponentOf text exponent) (hparted : places ≠ [] ∨ exponent ≠ none)
    (hrest : endsNumber rest = true) (negative : Bool) :
    readUnsigned negative (whole ++ (fractionText places ++ text) ++ rest) =
      .ok (.float (Double.ofDecimal negative (digitsValue (whole ++ places))
        (exponent.getD 0 - (places.length : Int))), rest) := by
  obtain ⟨hends, hpoint⟩ := hexponent.endsDigits_append hrest
  have hfraction : endsDigits (fractionText places ++ (text ++ rest)) = true := by
    rw [endsDigits, head?_fractionText]
    split
    · exact hends
    · rfl
  have hread := readWhole_append hwhole hfraction
  obtain ⟨c, cs, hcons, -⟩ := hwhole.exists_cons
  have hneither : ((if places.isEmpty then none else some places : Option (List Char)).isNone
      && exponent.isNone) = false := by
    rcases hparted with hne | hne
    · simp [hne]
    · cases exponent with
      | none => exact absurd rfl hne
      | some e => simp
  have hgetD : (if places.isEmpty then none else some places : Option (List Char)).getD []
      = places := by
    cases places <;> rfl
  rw [List.append_assoc, List.append_assoc, readUnsigned, hread, hcons]
  simp only [readFraction_append hplaces hends hpoint, hexponent.readExponent_append hrest,
    hneither, hgetD, Bool.false_eq_true, if_false]

attribute [local irreducible] digitLimit

/-- Digits without a fraction and an exponent are read as an integer, up to the limit. -/
theorem readUnsigned_whole {ds rest : List Char} (h : IsWhole ds) (hrest : endsNumber rest = true)
    (negative : Bool) : readUnsigned negative (ds ++ rest) =
      if digitLimit < ds.length then .error (.excess (.digits ds.length))
      else .ok (.int (if negative then -(digitsValue ds : Int) else digitsValue ds), rest) := by
  have hdigits := endsDigits_of_endsNumber hrest
  have hpoint : rest.head? ≠ some '.' := fun hpoint => by simp [endsNumber, hpoint] at hrest
  have hwhole := readWhole_append h hdigits
  have hfraction : readFraction rest = (none, rest) :=
    readFraction_append (List.forall_mem_nil _) hdigits hpoint
  have hexponent : readExponent rest = (none, rest) :=
    ExponentOf.none.readExponent_append hrest
  obtain ⟨c, cs, rfl, -⟩ := h.exists_cons
  rw [readUnsigned, hwhole]
  simp only [hfraction, hexponent, Option.isNone_none, Bool.and_self, if_true]

/-- The sign of a number as it is written. -/
def signText (negative : Bool) : List Char := if negative then ['-'] else []

/-- After its sign a number that starts with a digit is read as one. -/
theorem IsWhole.readNumber_signed {ds : List Char} (h : IsWhole ds) (negative : Bool)
    (rest : List Char) :
    readNumber (signText negative ++ (ds ++ rest)) = readUnsigned negative (ds ++ rest) := by
  obtain ⟨c, cs, rfl, hc⟩ := h.exists_cons
  have hminus : c ≠ '-' := by rintro rfl; cases hc
  have hbig : c ≠ 'I' := by rintro rfl; cases hc
  have hnan : c ≠ 'N' := by rintro rfl; cases hc
  cases negative <;> simp [signText, readNumber, hminus, hbig, hnan]

/-- A number as it may be written: an integer, or a binary64 number where there is a fraction or an
exponent. -/
inductive NumberOf : List Char → Json → Prop
  | integer (negative : Bool) {ds : List Char} : IsWhole ds → NumberOf (signText negative ++ ds)
    (.int (if negative then -(digitsValue ds : Int) else digitsValue ds))
  | fractional (negative : Bool) {whole places text : List Char} {exponent : Option Int} :
    IsWhole whole → (∀ c ∈ places, c.isDigit = true) → ExponentOf text exponent →
    places ≠ [] ∨ exponent ≠ none →
    NumberOf (signText negative ++ (whole ++ (fractionText places ++ text)))
      (.float (Double.ofDecimal negative (digitsValue (whole ++ places))
        (exponent.getD 0 - (places.length : Int))))
  | infinite (negative : Bool) : NumberOf (signText negative ++
    ['I', 'n', 'f', 'i', 'n', 'i', 't', 'y']) (.float (.infinite negative))
  | nan : NumberOf ['N', 'a', 'N'] (.float .nan)

/-- Whether a text starts like a number. -/
def startsNumber (cs : List Char) : Bool :=
  cs.head?.any fun c => c.isDigit || c == '-' || c == 'I' || c == 'N'

theorem startsNumber_append {cs rest : List Char} (h : startsNumber cs = true) :
    startsNumber (cs ++ rest) = true := by
  cases cs with
  | nil => cases h
  | cons c cs => exact h

theorem startsNumber_signed (negative : Bool) {c : Char} {cs : List Char} (hc : c.isDigit = true) :
    startsNumber (signText negative ++ c :: cs) = true := by
  cases negative <;> simp [startsNumber, signText, hc]

theorem NumberOf.startsNumber {cs : List Char} {value : Json} (h : NumberOf cs value) :
    startsNumber cs = true := by
  cases h with
  | integer negative hwhole =>
    obtain ⟨c, cs, rfl, hc⟩ := hwhole.exists_cons
    exact startsNumber_signed negative hc
  | fractional negative hwhole =>
    obtain ⟨c, cs, rfl, hc⟩ := hwhole.exists_cons
    exact startsNumber_signed negative hc
  | infinite negative => cases negative <;> rfl
  | nan => rfl

end Lifecycle.Json
