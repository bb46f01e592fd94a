import Lifecycle.Proofs.Json.Reading

/-!
# What is read was denoted

A text that is read denotes a value: what is read of it is one of the texts of a value, token by
token, and what is left stands behind it. This holds of texts in which no string has one surrogate
without the other (`Paired`), as no character has the code point of a surrogate. Such a text is read
exactly if it denotes a value that is allowed (`parse_eq_ok_iff`), and where repeated keys are
allowed, reading comes to a limit exactly if the value does not fit (`parse_excess_iff`).
-/

namespace Lifecycle.Json

attribute [local irreducible] digitLimit integerBound

/-! ## Strings -/

/-- Whether a code unit is one of a pair. -/
def isSurrogate (unit : Nat) : Bool := 0xD800 ≤ unit && unit < 0xE000

/-- Whether code units have surrogates in pairs only. -/
def paired : List Nat → Bool
  | [] => true
  | [unit] => !isSurrogate unit
  | high :: low :: rest =>
    if 0xD800 ≤ high ∧ high < 0xDC00 ∧ 0xDC00 ≤ low ∧ low < 0xE000 then paired rest
    else !isSurrogate high && paired (low :: rest)

theorem paired_of_cons {unit : Nat} {later : List Nat} (hunit : isSurrogate unit = false)
    (h : paired (unit :: later) = true) : paired later = true := by
  cases later with
  | nil => rfl
  | cons low rest =>
    rw [paired, hunit] at h
    split at h
    · rename_i hpair
      simp only [isSurrogate, Bool.and_eq_false_iff, decide_eq_false_iff_not] at hunit
      omega
    · exact h

/-- A surrogate is followed by the other one of its pair. -/
theorem exists_low_of_paired {high : Nat} {later : List Nat} (hhigh : isSurrogate high = true)
    (h : paired (high :: later) = true) : ∃ low rest, later = low :: rest ∧
      (0xD800 ≤ high ∧ high < 0xDC00) ∧ (0xDC00 ≤ low ∧ low < 0xE000) ∧ paired rest = true := by
  cases later with
  | nil => simp [paired, hhigh] at h
  | cons low rest =>
    rw [paired, hhigh] at h
    split at h
    · rename_i hpair
      exact ⟨low, rest, rfl, ⟨hpair.1, hpair.2.1⟩, hpair.2.2, h⟩
    · cases h

/-- Wherever in a text a string may begin, it has surrogates in pairs only. -/
def Paired (cs : List Char) : Prop :=
  ∀ before after units rest, cs = before ++ '"' :: after →
    readUnits after = some (units, rest) → paired units = true

theorem Paired.of_append {front cs : List Char} (h : Paired (front ++ cs)) : Paired cs :=
  fun before after units rest hcs hread =>
    h (front ++ before) after units rest (by rw [hcs, List.append_assoc]) hread

/-- What a code unit is read from: a character, an escape, or a code unit in hexadecimal digits. -/
inductive UnitOf : List Char → Nat → Prop
  | plain {c : Char} : 0x20 ≤ c.toNat → c ≠ '"' → c ≠ '\\' → UnitOf [c] c.toNat
  | escape {letter : Char} {unit : Nat} : escaped? letter = some unit → UnitOf ['\\', letter] unit
  | hex {x y z w : Char} {unit : Nat} : fourHex? x y z w = some unit →
    UnitOf ['\\', 'u', x, y, z, w] unit

theorem readUnits_cases {cs rest : List Char} {units : List Nat}
    (h : readUnits cs = some (units, rest)) :
    (cs = '"' :: rest ∧ units = []) ∨ ∃ piece unit more later, cs = piece ++ more ∧
      units = unit :: later ∧ UnitOf piece unit ∧ readUnits more = some (later, rest) := by
  unfold readUnits at h
  split at h
  · cases h
  · obtain ⟨rfl, rfl⟩ := Prod.mk.inj (Option.some.inj h)
    exact .inl ⟨rfl, rfl⟩
  · split at h
    · rename_i hunit hmore
      obtain ⟨rfl, rfl⟩ := Prod.mk.inj (Option.some.inj h)
      exact .inr ⟨_, _, _, _, rfl, rfl, .hex hunit, hmore⟩
    · cases h
  · split at h
    · rename_i hunit hmore
      obtain ⟨rfl, rfl⟩ := Prod.mk.inj (Option.some.inj h)
      exact .inr ⟨_, _, _, _, rfl, rfl, .escape hunit, hmore⟩
    · cases h
  · rename_i c more hquote _ _
    split at h
    · cases h
    · rename_i hplain
      simp only [Bool.or_eq_true, decide_eq_true_eq, not_or] at hplain
      obtain ⟨hcontrol, hslash⟩ := hplain
      obtain ⟨⟨later, rest'⟩, hmore, heq⟩ := Option.map_eq_some_iff.mp h
      obtain ⟨rfl, rfl⟩ := Prod.mk.inj heq
      exact .inr ⟨[c], _, more, _, rfl, rfl,
        .plain (Nat.not_lt.mp hcontrol) hquote hslash, hmore⟩

theorem exists_char {n : Nat} (h : n < 0xD800 ∨ 0xDFFF < n ∧ n < 0x110000) :
    ∃ c : Char, c.toNat = n :=
  ⟨Char.ofNat n, by rw [Char.ofNat, dif_pos h]; rfl⟩

theorem hexValue?_lt {c : Char} {value : Nat} (h : Text.hexValue? c = some value) : value < 16 := by
  simp only [Text.hexValue?, Char.le_def, UInt32.le_iff_toNat_le, Char.toNat_val] at h
  have h9 : '9'.toNat = '0'.toNat + 9 := rfl
  have hf : 'f'.toNat = 'a'.toNat + 5 := rfl
  have hF : 'F'.toNat = 'A'.toNat + 5 := rfl
  split_ifs at h <;> obtain rfl := Option.some.inj h <;> omega

theorem fourHex?_lt {x y z w : Char} {unit : Nat} (h : fourHex? x y z w = some unit) :
    unit < 0x10000 := by
  simp only [fourHex?, bind, Option.bind_eq_some_iff, pure, Option.some.injEq] at h
  obtain ⟨a, ha, b, hb, c, hc, d, hd, rfl⟩ := h
  have := hexValue?_lt ha
  have := hexValue?_lt hb
  have := hexValue?_lt hc
  have := hexValue?_lt hd
  omega

theorem escaped?_lt {letter : Char} {unit : Nat} (h : escaped? letter = some unit) :
    unit < 0x80 := by
  unfold escaped? at h
  split at h <;> cases h <;> decide

namespace UnitOf

variable {piece : List Char} {unit : Nat}

theorem length_pos (h : UnitOf piece unit) : 0 < piece.length := by
  cases h <;> exact Nat.succ_pos _

/-- A code unit that is no surrogate is read as a character. -/
theorem exists_inQuotes (h : UnitOf piece unit) (hunit : isSurrogate unit = false)
    {cs s : List Char} (hs : InQuotes cs s) : ∃ c, InQuotes (piece ++ cs) (c :: s) := by
  cases h with
  | plain hcontrol hquote hslash => exact ⟨_, .plain hcontrol hquote hslash hs⟩
  | escape hletter =>
    have hlt := escaped?_lt hletter
    obtain ⟨c, rfl⟩ := exists_char (.inl (by omega : unit < 0xD800))
    exact ⟨c, .escape hletter hs⟩
  | hex hdigits =>
    have hlt := fourHex?_lt hdigits
    have hscalar : unit < 0xD800 ∨ 0xDFFF < unit ∧ unit < 0x110000 := by
      simp only [isSurrogate, Bool.and_eq_false_iff, decide_eq_false_iff_not] at hunit
      omega
    obtain ⟨c, rfl⟩ := exists_char hscalar
    exact ⟨c, .unit hdigits hs⟩

/-- Surrogates are only read from hexadecimal digits. -/
theorem exists_hex (h : UnitOf piece unit) (hunit : isSurrogate unit = true) :
    ∃ x y z w, piece = ['\\', 'u', x, y, z, w] ∧ fourHex? x y z w = some unit := by
  simp only [isSurrogate, Bool.and_eq_true, decide_eq_true_eq] at hunit
  cases h with
  | @plain c => exact absurd hunit (not_surrogate c)
  | escape hletter =>
    have := escaped?_lt hletter
    omega
  | hex hdigits => exact ⟨_, _, _, _, rfl, hdigits⟩

end UnitOf

/-- What is read up to a closing quote may stand in quotes. -/
theorem exists_inQuotes_of_readUnits {n : Nat} {cs rest : List Char} {units : List Nat}
    (hn : cs.length ≤ n) (h : readUnits cs = some (units, rest)) (hpaired : paired units = true) :
    ∃ name key, cs = name ++ '"' :: rest ∧ InQuotes name key := by
  -- two code units may be read at once, so the induction is on the length
  induction n generalizing cs units with
  | zero =>
    obtain rfl := List.eq_nil_of_length_eq_zero (Nat.le_zero.mp hn)
    cases h
  | succ n ih =>
    rcases readUnits_cases h with ⟨rfl, rfl⟩ | ⟨piece, unit, more, later, rfl, rfl, hunit, hmore⟩
    · exact ⟨[], [], rfl, .nil⟩
    have hpos := hunit.length_pos
    rw [List.length_append] at hn
    cases hsurrogate : isSurrogate unit with
    | false =>
      obtain ⟨name, key, rfl, hname⟩ :=
        ih (by omega) hmore (paired_of_cons hsurrogate hpaired)
      obtain ⟨c, hc⟩ := hunit.exists_inQuotes hsurrogate hname
      exact ⟨_, _, (List.append_assoc ..).symm, hc⟩
    | true =>
      obtain ⟨low, others, rfl, hhigh, hlow, hothers⟩ := exists_low_of_paired hsurrogate hpaired
      obtain ⟨x, y, z, w, rfl, hdigits⟩ := hunit.exists_hex hsurrogate
      rcases readUnits_cases hmore with
        ⟨-, hnil⟩ | ⟨next, low', after, others', rfl, hcons, hnext, hafter⟩
      · cases hnil
      obtain ⟨rfl, rfl⟩ := List.cons.inj hcons
      have hlowSurrogate : isSurrogate low = true := by
        simp only [isSurrogate, Bool.and_eq_true, decide_eq_true_eq]
        omega
      obtain ⟨x', y', z', w', rfl, hdigits'⟩ := hnext.exists_hex hlowSurrogate
      rw [List.length_append] at hn
      obtain ⟨name, key, rfl, hname⟩ := ih (by omega) hafter hothers
      obtain ⟨c, hc⟩ := exists_char (.inr (by omega :
        0xDFFF < 0x10000 + (unit - 0xD800) * 0x400 + (low - 0xDC00) ∧
          0x10000 + (unit - 0xD800) * 0x400 + (low - 0xDC00) < 0x110000))
      exact ⟨_, _, rfl, .pair hdigits hdigits' hhigh hlow hc hname⟩

/-- A text without escapes has no surrogates. -/
theorem paired_of_notMem {cs : List Char} (h : '\\' ∉ cs) : Paired cs := by
  have hunits {units : List Nat} {cs rest : List Char} (hcs : '\\' ∉ cs)
      (hread : readUnits cs = some (units, rest)) : paired units = true := by
    induction units generalizing cs with
    | nil => rfl
    | cons unit later ih =>
      rcases readUnits_cases hread with
        ⟨-, hnil⟩ | ⟨piece, unit', more, later', rfl, heq, hunit, hmore⟩
      · cases hnil
      obtain ⟨rfl, rfl⟩ := List.cons.inj heq
      have hlater := ih (fun hmem => hcs (List.mem_append_right _ hmem)) hmore
      have hsurrogate : isSurrogate unit = false := by
        rw [← Bool.not_eq_true]
        intro hsurrogate
        obtain ⟨x, y, z, w, rfl, -⟩ := hunit.exists_hex hsurrogate
        exact hcs (List.mem_append_left _ List.mem_cons_self)
      cases later with
      | nil => simp [paired, hsurrogate]
      | cons low others =>
        rw [paired, hsurrogate, hlater]
        split
        · rename_i hpair
          simp only [isSurrogate, Bool.and_eq_false_iff, decide_eq_false_iff_not] at hsurrogate
          omega
        · rfl
  intro before after units rest hcs hread
  exact hunits (fun hmem => h (hcs ▸ by simp [hmem])) hread

/-! ## Numbers -/

section Numbers

variable {cs rest digits : List Char}

theorem spanDigits_spec (h : spanDigits cs = (digits, rest)) :
    cs = digits ++ rest ∧ ∀ c ∈ digits, c.isDigit = true := by
  obtain ⟨rfl, rfl⟩ := Prod.mk.inj h
  exact ⟨List.takeWhile_append_dropWhile.symm, List.all_eq_true.mp List.all_takeWhile⟩

theorem readWhole_spec (h : readWhole cs = (digits, rest)) (hne : digits ≠ []) :
    cs = digits ++ rest ∧ IsWhole digits := by
  unfold readWhole at h
  split at h
  · obtain ⟨rfl, rfl⟩ := Prod.mk.inj h
    exact ⟨rfl, isWhole_zero⟩
  · rename_i hzero
    obtain ⟨rfl, hdigits⟩ := spanDigits_spec h
    obtain ⟨c, more, rfl⟩ := List.exists_cons_of_ne_nil hne
    exact ⟨rfl, hdigits, .inr ⟨c, more, rfl, fun hc => hzero _ (by rw [hc]; rfl)⟩⟩

theorem readFraction_spec {fraction : Option (List Char)} (h : readFraction cs = (fraction, rest)) :
    cs = fractionText (fraction.getD []) ++ rest ∧ (∀ c ∈ fraction.getD [], c.isDigit = true) ∧
      (fraction.isNone = false → fraction.getD [] ≠ []) := by
  unfold readFraction at h
  split at h
  · rename_i more
    split at h
    · obtain ⟨rfl, rfl⟩ := Prod.mk.inj h
      exact ⟨rfl, List.forall_mem_nil _, nofun⟩
    · rename_i places after hne hspan
      obtain ⟨rfl, rfl⟩ := Prod.mk.inj h
      obtain ⟨rfl, hplaces⟩ := spanDigits_spec hspan
      obtain ⟨c, tail, rfl⟩ := List.exists_cons_of_ne_nil hne
      exact ⟨rfl, hplaces, fun _ => List.cons_ne_nil _ _⟩
  · obtain ⟨rfl, rfl⟩ := Prod.mk.inj h
    exact ⟨rfl, List.forall_mem_nil _, nofun⟩

theorem readExponent_spec {exponent : Option Int} (h : readExponent cs = (exponent, rest)) :
    ∃ text, cs = text ++ rest ∧ ExponentOf text exponent := by
  unfold readExponent at h
  split at h
  · rename_i mark more
    split at h
    · rename_i hmark
      split at h
      rename_i negative unsigned hsign
      split at h
      · obtain ⟨rfl, rfl⟩ := Prod.mk.inj h
        exact ⟨[], rfl, .none⟩
      · rename_i digits after hne hspan
        obtain ⟨rfl, rfl⟩ := Prod.mk.inj h
        obtain ⟨rfl, hdigits⟩ := spanDigits_spec hspan
        split at hsign
        · obtain ⟨rfl, rfl⟩ := Prod.mk.inj hsign
          exact ⟨mark :: '-' :: digits, rfl, .signed true hmark hne hdigits⟩
        · obtain ⟨rfl, rfl⟩ := Prod.mk.inj hsign
          exact ⟨mark :: '+' :: digits, rfl, .signed false hmark hne hdigits⟩
        · obtain ⟨rfl, rfl⟩ := Prod.mk.inj hsign
          exact ⟨mark :: digits, rfl, .unsigned hmark hne hdigits⟩
    · obtain ⟨rfl, rfl⟩ := Prod.mk.inj h
      exact ⟨[], rfl, .none⟩
  · obtain ⟨rfl, rfl⟩ := Prod.mk.inj h
    exact ⟨[], rfl, .none⟩

/-- What is read of a number after its sign is one. -/
theorem exists_numberOf_of_readUnsigned {negative : Bool} {value : Json}
    (h : readUnsigned negative cs = .ok (value, rest)) :
    ∃ number, cs = number ++ rest ∧ NumberOf (signText negative ++ number) value := by
  unfold readUnsigned at h
  split at h
  · cases h
  rename_i whole afterWhole hne hwhole
  obtain ⟨rfl, hdigits⟩ := readWhole_spec hwhole hne
  split at h
  rename_i fraction afterFraction hfraction
  obtain ⟨rfl, hplaces, hpresent⟩ := readFraction_spec hfraction
  split at h
  rename_i exponent afterExponent hexponent
  obtain ⟨text, rfl, htext⟩ := readExponent_spec hexponent
  split at h
  · rename_i hneither
    rw [Bool.and_eq_true, Option.isNone_iff_eq_none, Option.isNone_iff_eq_none] at hneither
    obtain ⟨rfl, rfl⟩ := hneither
    obtain rfl : text = [] := by cases htext; rfl
    split at h
    · cases h
    · obtain ⟨rfl, rfl⟩ := Prod.mk.inj (Except.ok.inj h)
      exact ⟨whole, rfl, .integer negative hdigits⟩
  · rename_i hparted
    obtain ⟨rfl, rfl⟩ := Prod.mk.inj (Except.ok.inj h)
    refine ⟨whole ++ (fractionText (fraction.getD []) ++ text), ?_,
      .fractional negative hdigits hplaces htext ?_⟩
    · simp only [List.append_assoc]
    · rw [Bool.and_eq_true, not_and_or, Bool.not_eq_true, Option.isNone_iff_eq_none] at hparted
      exact hparted.imp_left hpresent

/-- What is read of a number is one. -/
theorem exists_numberOf_of_readNumber {value : Json} (h : readNumber cs = .ok (value, rest)) :
    ∃ number, cs = number ++ rest ∧ NumberOf number value := by
  unfold readNumber at h
  split at h
  · obtain ⟨rfl, rfl⟩ := Prod.mk.inj (Except.ok.inj h)
    exact ⟨_, rfl, .infinite true⟩
  · obtain ⟨rfl, rfl⟩ := Prod.mk.inj (Except.ok.inj h)
    exact ⟨_, rfl, .infinite false⟩
  · obtain ⟨rfl, rfl⟩ := Prod.mk.inj (Except.ok.inj h)
    exact ⟨_, rfl, .nan⟩
  · obtain ⟨number, rfl, hnumber⟩ := exists_numberOf_of_readUnsigned h
    exact ⟨'-' :: number, rfl, hnumber⟩
  · exact exists_numberOf_of_readUnsigned h

end Numbers

/-! ## Values -/

theorem exists_gap (cs : List Char) : ∃ gap, gap.all isGap = true ∧ cs = gap ++ skipGap cs :=
  ⟨cs.takeWhile isGap, List.all_takeWhile, List.takeWhile_append_dropWhile.symm⟩

theorem exists_inQuotes_of_readString {cs rest : List Char} {s : String}
    (hpaired : Paired ('"' :: cs))
    (h : readString cs = .ok (s, rest)) :
    ∃ name key, cs = name ++ '"' :: rest ∧ InQuotes name key := by
  unfold readString at h
  split at h
  · rename_i units rest' hread
    obtain ⟨rfl, rfl⟩ := Prod.mk.inj (Except.ok.inj h)
    exact exists_inQuotes_of_readUnits (Nat.le_refl _) hread (hpaired [] cs units rest' rfl hread)
  · cases h

mutual

/-- What is read of a value is one of the texts of a value. -/
theorem exists_denotes_of_readValue {policy : KeyPolicy} {room : Nat} : ∀ {fuel : Nat}
    {cs rest : List Char} {value : Json}, Paired cs →
    readValue policy room fuel cs = .ok (value, rest) →
    ∃ text written, cs = text ++ rest ∧ Denotes text written
  | 0, cs, rest, value, hpaired, h => by cases h
  | fuel + 1, cs, rest, value, hpaired, h => by
    unfold readValue at h
    split at h
    · obtain ⟨⟨s, after⟩, hread, h⟩ := bind_eq_ok.mp h
      obtain ⟨rfl, rfl⟩ := Prod.mk.inj (Except.ok.inj h)
      obtain ⟨name, key, rfl, hname⟩ := exists_inQuotes_of_readString hpaired hread
      exact ⟨'"' :: (name ++ ['"']), _, by simp, .string hname⟩
    · rename_i more
      split at h
      · cases h
      obtain ⟨gap, hgap, hmore⟩ := exists_gap more
      split at h
      · rename_i after hclose
        obtain ⟨rfl, rfl⟩ := Prod.mk.inj (Except.ok.inj h)
        rw [hclose] at hmore
        exact ⟨'[' :: (gap ++ [']']), _, by simp [hmore], .emptyArray hgap⟩
      · obtain ⟨⟨items, after⟩, hread, h⟩ := bind_eq_ok.mp h
        obtain ⟨rfl, rfl⟩ := Prod.mk.inj (Except.ok.inj h)
        rw [hmore] at hpaired
        obtain ⟨text, written, htext, hwritten⟩ :=
          exists_denotes_of_readItems
            (Paired.of_append (show Paired ('[' :: gap ++ _) from hpaired)) hread
        rw [htext] at hmore
        exact ⟨'[' :: (gap ++ (text ++ [']'])), _, by simp [hmore], .array hgap hwritten⟩
    · rename_i more
      split at h
      · cases h
      obtain ⟨gap, hgap, hmore⟩ := exists_gap more
      split at h
      · rename_i after hclose
        obtain ⟨rfl, rfl⟩ := Prod.mk.inj (Except.ok.inj h)
        rw [hclose] at hmore
        exact ⟨'\x7b' :: (gap ++ ['\x7d']), _, by simp [hmore], .emptyObject hgap⟩
      · obtain ⟨⟨members, after⟩, hread, h⟩ := bind_eq_ok.mp h
        obtain ⟨object, -, h⟩ := bind_eq_ok.mp h
        obtain ⟨rfl, rfl⟩ := Prod.mk.inj (Except.ok.inj h)
        rw [hmore] at hpaired
        obtain ⟨text, written, htext, hwritten⟩ :=
          exists_denotes_of_readMembers
            (Paired.of_append (show Paired ('\x7b' :: gap ++ _) from hpaired)) hread
        rw [htext] at hmore
        exact ⟨'\x7b' :: (gap ++ (text ++ ['\x7d'])), _, by simp [hmore], .object hgap hwritten⟩
    · obtain ⟨rfl, rfl⟩ := Prod.mk.inj (Except.ok.inj h)
      exact ⟨_, _, rfl, .null⟩
    · obtain ⟨rfl, rfl⟩ := Prod.mk.inj (Except.ok.inj h)
      exact ⟨_, _, rfl, .boolTrue⟩
    · obtain ⟨rfl, rfl⟩ := Prod.mk.inj (Except.ok.inj h)
      exact ⟨_, _, rfl, .boolFalse⟩
    · obtain ⟨number, rfl, hnumber⟩ := exists_numberOf_of_readNumber h
      exact ⟨number, _, rfl, .number hnumber⟩

theorem exists_denotes_of_readItems {policy : KeyPolicy} {room : Nat} : ∀ {fuel : Nat}
    {cs rest : List Char} {items : List Json}, Paired cs →
    readItems policy room fuel cs = .ok (items, rest) →
    ∃ text written, cs = text ++ ']' :: rest ∧ DenotesItems text written
  | 0, cs, rest, items, hpaired, h => by cases h
  | fuel + 1, cs, rest, items, hpaired, h => by
    unfold readItems at h
    obtain ⟨⟨item, after⟩, hitem, hrest⟩ := bind_eq_ok.mp h
    obtain ⟨text, written, rfl, hwritten⟩ := exists_denotes_of_readValue hpaired hitem
    obtain ⟨gap, hgap, hafter⟩ := exists_gap after
    dsimp only at hrest
    split at hrest
    · rename_i more hclose
      obtain ⟨rfl, rfl⟩ := Prod.mk.inj (Except.ok.inj hrest)
      rw [hclose] at hafter
      exact ⟨text ++ gap, _, by simp [hafter], .last hwritten hgap⟩
    · rename_i more hcomma
      rw [hcomma] at hafter
      obtain ⟨⟨others, last⟩, hothers, hlast⟩ := bind_eq_ok.mp hrest
      obtain ⟨rfl, rfl⟩ := Prod.mk.inj (Except.ok.inj hlast)
      obtain ⟨ahead, hahead, hmore⟩ := exists_gap more
      have heq : text ++ after = text ++ gap ++ ',' :: ahead ++ skipGap more := by
        rw [hafter]
        conv_lhs => rw [hmore]
        simp
      rw [heq] at hpaired
      obtain ⟨later, others', hlater, hdenotes⟩ :=
        exists_denotes_of_readItems hpaired.of_append hothers
      exact ⟨text ++ (gap ++ ',' :: (ahead ++ later)), _, by simp [heq, hlater],
        .more hwritten hgap hahead hdenotes⟩
    · cases hrest

theorem exists_denotes_of_readMembers {policy : KeyPolicy} {room : Nat} : ∀ {fuel : Nat}
    {cs rest : List Char} {members : List (String × Json)}, Paired cs →
    readMembers policy room fuel cs = .ok (members, rest) →
    ∃ text written, cs = text ++ '\x7d' :: rest ∧ DenotesMembers text written
  | 0, cs, rest, members, hpaired, h => by cases h
  | fuel + 1, cs, rest, members, hpaired, h => by
    unfold readMembers at h
    split at h
    · rename_i inside
      obtain ⟨⟨s, afterName⟩, hname, hcolon⟩ := bind_eq_ok.mp h
      obtain ⟨name, key, rfl, hkey⟩ := exists_inQuotes_of_readString hpaired hname
      obtain ⟨before, hbefore, hafterName⟩ := exists_gap afterName
      dsimp only at hcolon
      split at hcolon
      · rename_i afterColon hskip
        rw [hskip] at hafterName
        obtain ⟨⟨value, afterValue⟩, hvalue, hend⟩ := bind_eq_ok.mp hcolon
        obtain ⟨after, hafter, hafterColon⟩ := exists_gap afterColon
        have heq : '"' :: (name ++ '"' :: afterName) =
            '"' :: name ++ '"' :: before ++ ':' :: after ++ skipGap afterColon := by
          rw [hafterName]
          conv_lhs => rw [hafterColon]
          simp
        rw [heq] at hpaired ⊢
        have hpairedValue := hpaired.of_append
        obtain ⟨text, written, htext, hwritten⟩ := exists_denotes_of_readValue hpairedValue hvalue
        obtain ⟨behind, hbehind, hafterValue⟩ := exists_gap afterValue
        rw [htext] at hpairedValue ⊢
        dsimp only at hend
        split at hend
        · rename_i more hclose
          obtain ⟨rfl, rfl⟩ := Prod.mk.inj (Except.ok.inj hend)
          rw [hclose] at hafterValue
          exact ⟨_, _, by simp [hafterValue], .last hkey hbefore hafter hwritten hbehind⟩
        · rename_i more hcomma
          rw [hcomma] at hafterValue
          obtain ⟨⟨others, last⟩, hothers, hlast⟩ := bind_eq_ok.mp hend
          obtain ⟨rfl, rfl⟩ := Prod.mk.inj (Except.ok.inj hlast)
          obtain ⟨ahead, hahead, hmore⟩ := exists_gap more
          have hrest : text ++ afterValue = text ++ behind ++ ',' :: ahead ++ skipGap more := by
            rw [hafterValue]
            conv_lhs => rw [hmore]
            simp
          rw [hrest] at hpairedValue ⊢
          obtain ⟨later, others', hlater, hdenotes⟩ :=
            exists_denotes_of_readMembers hpairedValue.of_append hothers
          exact ⟨_, _, by simp [hlater],
            .more hkey hbefore hafter hwritten hbehind hahead hdenotes⟩
        · cases hend
      · cases hcolon
    · cases h

end

theorem exists_textOf_of_parse {policy : KeyPolicy} {text : String} {value : Json}
    (hpaired : Paired text.toList) (h : parse policy text = .ok value) :
    ∃ written, TextOf text written := by
  unfold parse at h
  obtain ⟨⟨read, rest⟩, hread, hend⟩ := bind_eq_ok.mp h
  obtain ⟨before, hbefore, htext⟩ := exists_gap text.toList
  rw [htext] at hpaired
  obtain ⟨cs, written, hcs, hwritten⟩ := exists_denotes_of_readValue hpaired.of_append hread
  refine ⟨written, before, cs, rest, htext.trans (by rw [hcs]), hbefore, hwritten, ?_⟩
  dsimp only at hend
  split at hend
  · rename_i hempty
    obtain ⟨after, hafter, hrest⟩ := exists_gap rest
    rw [List.isEmpty_iff.mp hempty, List.append_nil] at hrest
    rwa [hrest]
  · cases hend

/-- **A text is read exactly if it denotes a value that is allowed.** -/
theorem parse_eq_ok_iff {policy : KeyPolicy} {text : String} {value : Json}
    (hpaired : Paired text.toList) : parse policy text = .ok value ↔
      ∃ written, TextOf text written ∧ allow policy nestingLimit written = .ok value := by
  constructor
  · intro h
    obtain ⟨written, hwritten⟩ := exists_textOf_of_parse hpaired h
    exact ⟨written, hwritten, (parse_of_textOf hwritten policy).symm.trans h⟩
  · rintro ⟨written, hwritten, hallow⟩
    exact (parse_of_textOf hwritten policy).trans hallow

/-! ## Where repeated keys are allowed -/

mutual

/-- Where repeated keys are allowed, a value is allowed exactly if it fits. -/
theorem allow_lastWins_cases : ∀ (room : Nat) (value : Json),
    (Fits room value ∧ ∃ read, allow .lastWins room value = .ok read) ∨
      ¬ Fits room value ∧ ∃ excess, allow .lastWins room value = .error (.excess excess)
  | _, .null | _, .bool _ | _, .float _ | _, .str _ =>
    .inl ⟨⟨rfl, Nat.zero_le _⟩, by simp [allow]⟩
  | _, .int n => by
    rw [allow]
    split
    · rename_i hlong
      have hbound := mt length_digitsOf_le_digitLimit.mpr (Nat.not_le.mpr hlong)
      exact .inr ⟨fun h => hbound (of_decide_eq_true h.isWritable), _, rfl⟩
    · rename_i hlong
      have hbound := length_digitsOf_le_digitLimit.mp (Nat.not_lt.mp hlong)
      exact .inl ⟨⟨decide_eq_true hbound, Nat.zero_le _⟩, _, rfl⟩
  | 0, .arr items => .inr ⟨fun h => Nat.not_succ_le_zero _ h.nesting_le, _, rfl⟩
  | 0, .obj members => .inr ⟨fun h => Nat.not_succ_le_zero _ h.nesting_le, _, rfl⟩
  | room + 1, .arr items => by
    rw [allow, if_neg (Nat.succ_ne_zero room), Nat.add_sub_cancel, fits_arr_iff]
    refine (allowItems_lastWins_cases room items).imp ?_ ?_
    · rintro ⟨hfits, read, heq⟩
      exact ⟨hfits, .arr read, by rw [heq]; rfl⟩
    · rintro ⟨hfits, excess, heq⟩
      exact ⟨hfits, excess, by rw [heq]; rfl⟩
  | room + 1, .obj members => by
    rw [allow, if_neg (Nat.succ_ne_zero room), Nat.add_sub_cancel, fits_obj_iff]
    refine (allowMembers_lastWins_cases room members).imp ?_ ?_
    · rintro ⟨hfits, read, heq⟩
      exact ⟨hfits, .obj (Entries.ofList read), by rw [heq]; rfl⟩
    · rintro ⟨hfits, excess, heq⟩
      exact ⟨hfits, excess, by rw [heq]; rfl⟩

theorem allowItems_lastWins_cases : ∀ (room : Nat) (items : List Json),
    ((∀ item ∈ items, Fits room item) ∧ ∃ read, allowItems .lastWins room items = .ok read) ∨
      (¬∀ item ∈ items, Fits room item) ∧
        ∃ excess, allowItems .lastWins room items = .error (.excess excess)
  | _, [] => .inl ⟨List.forall_mem_nil _, _, rfl⟩
  | room, item :: items => by
    rw [allowItems, List.forall_mem_cons]
    rcases allow_lastWins_cases room item with ⟨hitem, read, heq⟩ | ⟨hitem, excess, heq⟩
    · rcases allowItems_lastWins_cases room items with
        ⟨hitems, others, hrest⟩ | ⟨hitems, excess, hrest⟩
      · exact .inl ⟨⟨hitem, hitems⟩, read :: others, by rw [heq, hrest]; rfl⟩
      · exact .inr ⟨fun h => hitems h.2, excess, by rw [heq, hrest]; rfl⟩
    · exact .inr ⟨fun h => hitem h.1, excess, by rw [heq]; rfl⟩

theorem allowMembers_lastWins_cases : ∀ (room : Nat) (members : List (String × Json)),
    ((∀ m ∈ members, Fits room m.2) ∧ ∃ read, allowMembers .lastWins room members = .ok read) ∨
      (¬∀ m ∈ members, Fits room m.2) ∧
        ∃ excess, allowMembers .lastWins room members = .error (.excess excess)
  | _, [] => .inl ⟨List.forall_mem_nil _, _, rfl⟩
  | room, (key, value) :: members => by
    rw [allowMembers, List.forall_mem_cons]
    rcases allow_lastWins_cases room value with ⟨hvalue, read, heq⟩ | ⟨hvalue, excess, heq⟩
    · rcases allowMembers_lastWins_cases room members with
        ⟨hmembers, others, hrest⟩ | ⟨hmembers, excess, hrest⟩
      · exact .inl ⟨⟨hvalue, hmembers⟩, (key, read) :: others, by rw [heq, hrest]; rfl⟩
      · exact .inr ⟨fun h => hmembers h.2, excess, by rw [heq, hrest]; rfl⟩
    · exact .inr ⟨fun h => hvalue h.1, excess, by rw [heq]; rfl⟩

end

/-- Reading the text of a value comes to a limit exactly if the value does not fit. -/
theorem parse_excess_iff {text : String} {value : Json} (h : TextOf text value) :
    (∃ excess, parse .lastWins text = .error (.excess excess)) ↔ ¬ Fits nestingLimit value := by
  rw [parse_of_textOf h]
  rcases allow_lastWins_cases nestingLimit value with ⟨hfits, read, heq⟩ | ⟨hfits, excess, heq⟩
  · rw [heq]
    exact ⟨nofun, fun hnot => absurd hfits hnot⟩
  · exact ⟨fun _ => hfits, fun _ => ⟨excess, heq⟩⟩

/-- What is refused without an excess denotes no value. -/
theorem not_textOf_of_parse {text : String} {e : ReadError} (h : parse .lastWins text = .error e)
    (hexcess : ∀ excess, e ≠ .excess excess) (value : Json) : ¬ TextOf text value := by
  intro hvalue
  rw [parse_of_textOf hvalue] at h
  rcases allow_lastWins_cases nestingLimit value with ⟨-, read, heq⟩ | ⟨-, excess, heq⟩
  · rw [heq] at h
    cases h
  · exact hexcess excess (Except.error.inj (h.symm.trans heq))

end Lifecycle.Json
