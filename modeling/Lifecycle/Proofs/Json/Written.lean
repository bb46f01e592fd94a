import Lifecycle.Json.Writer
import Lifecycle.Proofs.Decimal.ReadBack
import Lifecycle.Proofs.Json.Grammar

/-!
# Texts that are written

What is written denotes what it was written for: strings, with the characters escaped that have to
be (`inQuotes_escaped`), integers and binary64 numbers (`numberOf_int`, `numberOf_float`), and
values in every style of plain separators that keeps the order of members (`denotes_write`).
-/

namespace Lifecycle.Json

/-! ## Strings -/

theorem fourHex?_hexDigits : ∀ n, n < 0x20 → ∃ a b c d,
    Text.hexDigits 4 n = [a, b, c, d] ∧ fourHex? a b c d = some n := by
  intro n hn
  refine ⟨_, _, _, _, rfl, ?_⟩
  revert n
  decide

/-- A character is written as it is, or escaped. -/
theorem inQuotes_escapeChar (c : Char) {cs s : List Char} (h : InQuotes cs s) :
    InQuotes (escapeChar c ++ cs) (c :: s) := by
  unfold escapeChar
  split_ifs with hquote hslash hback hfeed hline hreturn htab hcontrol
  · exact .escape (by rw [hquote]; rfl) h
  · exact .escape (by rw [hslash]; rfl) h
  · exact .escape (by rw [hback]; rfl) h
  · exact .escape (by rw [hfeed]; rfl) h
  · exact .escape (by rw [hline]; rfl) h
  · exact .escape (by rw [hreturn]; rfl) h
  · exact .escape (by rw [htab]; rfl) h
  · obtain ⟨x, y, z, w, hdigits, hvalue⟩ := fourHex?_hexDigits c.toNat hcontrol
    rw [hdigits]
    exact .unit hvalue h
  · exact .plain (Nat.not_lt.mp hcontrol) hquote hslash h

/-- What is written between the quotes of a string. -/
theorem inQuotes_escaped (s : List Char) : InQuotes (s.flatMap escapeChar) s := by
  induction s with
  | nil => exact .nil
  | cons c s ih => exact inQuotes_escapeChar c ih

theorem toList_stringText (s : String) :
    (stringText s).toList = '"' :: (s.toList.flatMap escapeChar ++ ['"']) :=
  String.toList_ofList

/-! ## Integers -/

theorem isWhole_digitsOf (n : Nat) : IsWhole (digitsOf n) where
  digits _ := isDigit_of_mem
  start := by
    by_cases h : n = 0
    · subst h
      exact .inl rfl
    · exact .inr (exists_digitsOf_eq_cons h)

theorem toList_toString_int (n : Int) :
    (toString n).toList = signText (decide (n < 0)) ++ digitsOf n.natAbs := by
  cases n with
  | ofNat n => exact toList_toString n
  | negSucc n =>
    have hneg : decide (Int.negSucc n < 0) = true := decide_eq_true (Int.negSucc_lt_zero n)
    rw [hneg]
    show ("-" ++ toString (n + 1)).toList = _
    rw [String.toList_append, toList_toString]
    rfl

theorem numberOf_int (n : Int) : NumberOf (toString n).toList (.int n) := by
  have hvalue : (if decide (n < 0) = true then -(n.natAbs : Int) else n.natAbs) = n := by
    simp only [decide_eq_true_eq]
    split <;> omega
  have hnumber := NumberOf.integer (decide (n < 0)) (isWhole_digitsOf n.natAbs)
  rwa [digitsValue_digitsOf, hvalue, ← toList_toString_int] at hnumber

/-! ## Numbers that are no integers -/

/-- An exponent as it is written, if there is one. -/
def exponentPart : Option Int → List Char
  | none => []
  | some e => (Decimal.exponentText e).toList

theorem toList_exponentText (e : Int) :
    ∃ ds, (Decimal.exponentText e).toList = 'e' :: (if e < 0 then '-' else '+') :: ds ∧
      ds ≠ [] ∧ (∀ c ∈ ds, c.isDigit = true) ∧ digitsValue ds = e.natAbs := by
  have hdigits : ∀ c ∈ digitsOf e.natAbs, c.isDigit = true := fun _ => isDigit_of_mem
  unfold Decimal.exponentText
  rw [String.toList_append]
  by_cases hshort : (toString e.natAbs).length < 2
  · refine ⟨'0' :: digitsOf e.natAbs, ?_, List.cons_ne_nil _ _, ?_, ?_⟩
    · simp only [hshort, if_true, String.toList_append, toList_toString]
      split <;> rfl
    · simpa using hdigits
    · rw [show '0' :: digitsOf e.natAbs = ['0'] ++ digitsOf e.natAbs from rfl, digitsValue_append,
        digitsValue_digitsOf]
      simp [digitsValue]
  · refine ⟨digitsOf e.natAbs, ?_, Nat.toDigits_ne_nil, hdigits, digitsValue_digitsOf _⟩
    simp only [hshort, if_false, toList_toString]
    split <;> rfl

theorem exponentOf_exponentPart (exponent : Option Int) :
    ExponentOf (exponentPart exponent) exponent := by
  cases exponent with
  | none => exact .none
  | some e =>
    obtain ⟨ds, htext, hne, hdigits, hvalue⟩ := toList_exponentText e
    have hsigned := ExponentOf.signed (decide (e < 0)) (.inl rfl) hne hdigits
    have he : (if decide (e < 0) = true then -(digitsValue ds : Int) else digitsValue ds) = e := by
      rw [hvalue]
      simp only [decide_eq_true_eq]
      split <;> omega
    rw [he] at hsigned
    rw [exponentPart, htext]
    simpa using hsigned

/-- The parts of a number that is no integer: it has a fraction or an exponent. -/
structure IsParted (text whole places : List Char) (exponent : Option Int) : Prop where
  eq_append : text = whole ++ (fractionText places ++ exponentPart exponent)
  isWhole : IsWhole whole
  digits : ∀ c ∈ places, c.isDigit = true
  parted : places ≠ [] ∨ exponent ≠ none

theorem IsParted.numberOf {text whole places : List Char} {exponent : Option Int}
    (h : IsParted text whole places exponent) (negative : Bool) :
    NumberOf (signText negative ++ text)
      (.float (Double.ofDecimal negative (digitsValue (whole ++ places))
        (exponent.getD 0 - (places.length : Int)))) := by
  rw [h.eq_append]
  exact .fractional negative h.isWhole h.digits (exponentOf_exponentPart exponent) h.parted

/-- Whether a text is that of a number that has a fraction or an exponent and is worth a decimal. -/
def Spells (text : List Char) (t : Decimal) : Prop :=
  ∃ whole places exponent, IsParted text whole places exponent ∧
    ∃ k : Nat, digitsValue (whole ++ places) = t.digits * 10 ^ k ∧
      exponent.getD 0 - (places.length : Int) = t.exponent - k

section Spelling

variable {t : Decimal} {c : Char} {cs : List Char}

theorem isDigit_of_mem_replicate {count : Nat} {d : Char} (h : d ∈ List.replicate count '0') :
    d.isDigit = true := by
  rw [List.eq_of_mem_replicate h]
  rfl

theorem isDigit_of_mem_cons (hcons : digitsOf t.digits = c :: cs) :
    ∀ d ∈ c :: cs, d.isDigit = true :=
  fun _ hd => isDigit_of_mem (hcons ▸ hd)

theorem digitsValue_cons (hcons : digitsOf t.digits = c :: cs) :
    digitsValue (c :: cs) = t.digits :=
  hcons ▸ digitsValue_digitsOf _

/-- Below one, the digits stand behind zeros after the point. -/
theorem spells_below_one (hcons : digitsOf t.digits = c :: cs) {zeros : Nat}
    (hzeros : ((zeros + (c :: cs).length : Nat) : Int) = -t.exponent) :
    Spells ('0' :: '.' :: (List.replicate zeros '0' ++ c :: cs)) t := by
  refine ⟨['0'], List.replicate zeros '0' ++ c :: cs, none,
    ⟨?_, isWhole_zero, ?_, .inl (by simp)⟩, 0, ?_, ?_⟩
  · cases zeros <;> simp [List.replicate_succ, fractionText, exponentPart]
  · intro d hd
    rcases List.mem_append.mp hd with hd | hd
    · exact isDigit_of_mem_replicate hd
    · exact isDigit_of_mem_cons hcons d hd
  · rw [digitsValue_append, digitsValue_append, digitsValue_cons hcons, digitsValue_replicate]
    simp [digitsValue]
  · rw [List.length_append, List.length_replicate, hzeros]
    simp

/-- A whole number has zeros behind its digits, and one after the point. -/
theorem spells_whole (hcons : digitsOf t.digits = c :: cs) (hc : c ≠ '0')
    (hexponent : 0 ≤ t.exponent) :
    Spells (c :: cs ++ List.replicate t.exponent.toNat '0' ++ ['.', '0']) t := by
  refine ⟨c :: cs ++ List.replicate t.exponent.toNat '0', ['0'], none,
    ⟨?_, ⟨?_, .inr ⟨c, _, List.cons_append, hc⟩⟩, isDigit_of_mem_zero, .inl (by simp)⟩,
    t.exponent.toNat + 1, ?_, ?_⟩
  · simp [fractionText, exponentPart]
  · intro d hd
    rcases List.mem_append.mp hd with hd | hd
    · exact isDigit_of_mem_cons hcons d hd
    · exact isDigit_of_mem_replicate hd
  · rw [digitsValue_append, digitsValue_append, digitsValue_cons hcons, digitsValue_replicate]
    simp [digitsValue, Nat.pow_succ, Nat.mul_assoc]
  · simp only [List.length_cons, List.length_nil, Option.getD_none]
    omega

/-- The point stands among the digits. -/
theorem spells_split (hcons : digitsOf t.digits = c :: cs) (hc : c ≠ '0') {whole : Nat}
    (hpos : 0 < whole) (hwhole : (whole : Int) = (c :: cs).length + t.exponent)
    (hexponent : t.exponent < 0) :
    Spells ((c :: cs).take whole ++ '.' :: (c :: cs).drop whole) t := by
  have hdigits := isDigit_of_mem_cons hcons
  have hlt : whole < (c :: cs).length := by omega
  obtain ⟨n, rfl⟩ := Nat.exists_eq_succ_of_ne_zero (Nat.ne_of_gt hpos)
  have hne : (c :: cs).drop (n + 1) ≠ [] := fun hnil => by
    rw [List.drop_eq_nil_iff] at hnil
    omega
  refine ⟨(c :: cs).take (n + 1), (c :: cs).drop (n + 1), none,
    ⟨?_, ⟨fun d hd => hdigits d (List.mem_of_mem_take hd), .inr ⟨c, _, List.take_succ_cons, hc⟩⟩,
      fun d hd => hdigits d (List.mem_of_mem_drop hd), .inl hne⟩, 0, ?_, ?_⟩
  · obtain ⟨d, ds, hds⟩ := List.exists_cons_of_ne_nil hne
    rw [hds]
    simp [fractionText, exponentPart]
  · rw [List.take_append_drop, digitsValue_cons hcons]
    simp
  · rw [List.length_drop, Option.getD_none]
    omega

/-- In exponent form one digit stands before the point. -/
theorem spells_exponent (hcons : digitsOf t.digits = c :: cs) (hc : c ≠ '0') {leading : Int}
    (hleading : leading = cs.length + t.exponent) :
    Spells (c :: (fractionText cs ++ (Decimal.exponentText leading).toList)) t := by
  have hdigits := isDigit_of_mem_cons hcons
  refine ⟨[c], cs, some leading,
    ⟨rfl, ⟨by simpa using hdigits c List.mem_cons_self, .inr ⟨c, [], rfl, hc⟩⟩,
      fun d hd => hdigits d (List.mem_cons_of_mem _ hd), .inr (by simp)⟩, 0, ?_, ?_⟩
  · rw [List.singleton_append, digitsValue_cons hcons]
    simp
  · rw [Option.getD_some]
    omega

end Spelling

/-- A decimal is written as a number that is worth it. -/
theorem spells_text {d : Decimal} (h : d.digits ≠ 0) : Spells d.text.toList d.trim := by
  obtain ⟨c, cs, hcons, hc⟩ := exists_digitsOf_eq_cons (Decimal.digits_trim_ne_zero h)
  unfold Decimal.text
  generalize d.trim = t at *
  dsimp only
  rw [toList_toString, hcons]
  generalize hleading : ((c :: cs).length : Int) - 1 + t.exponent = leading
  split
  · split
    · rename_i hneg
      have hzeros : (((-leading).toNat - 1 + (c :: cs).length : Nat) : Int) = -t.exponent := by
        omega
      simpa [Decimal.zeros] using spells_below_one hcons hzeros
    · split
      · rename_i hpos
        simpa [Decimal.zeros] using spells_whole hcons hc hpos
      · rename_i hneg hsplit
        have hwhole : ((leading.toNat + 1 : Nat) : Int) = (c :: cs).length + t.exponent := by
          omega
        simpa using spells_split hcons hc (Nat.succ_pos _) hwhole (Int.not_le.mp hsplit)
  · have hexponent : leading = cs.length + t.exponent := by
      rw [List.length_cons] at hleading
      omega
    have hspells := spells_exponent hcons hc hexponent
    cases cs with
    | nil => simpa [fractionText] using hspells
    | cons d ds => simpa [fractionText] using hspells

theorem numberOf_finite (negative : Bool) (place : Fin Double.places) :
    NumberOf (Double.text (.finite negative place)).toList (.float (.finite negative place)) := by
  have hsign : (if negative then "-" else "").toList = signText negative := by
    cases negative <;> rfl
  rw [Double.text, String.toList_append, hsign]
  split
  · rename_i hzero
    have hparted : IsParted "0.0".toList ['0'] ['0'] none :=
      ⟨rfl, isWhole_zero, isDigit_of_mem_zero, .inl (by simp)⟩
    have hplace : place = ⟨0, by decide⟩ := Fin.ext hzero
    rw [hplace]
    exact hparted.numberOf negative
  · rename_i hne
    obtain ⟨whole, places, exponent, hparted, k, hvalue, hexponent⟩ :=
      spells_text (Decimal.digits_shortest_ne_zero hne)
    have hnumber := hparted.numberOf negative
    rwa [hvalue, hexponent, Double.ofDecimal_shortest] at hnumber

theorem numberOf_float (x : Double) : NumberOf (doubleText x).toList (.float x) := by
  cases x with
  | finite negative place => exact numberOf_finite negative place
  | infinite negative =>
    have htext : (doubleText (.infinite negative)).toList =
        signText negative ++ ['I', 'n', 'f', 'i', 'n', 'i', 't', 'y'] := by
      cases negative <;> simp [doubleText, signText]
    exact htext ▸ .infinite negative
  | nan =>
    have htext : (doubleText .nan).toList = ['N', 'a', 'N'] := by simp [doubleText]
    exact htext ▸ .nan

/-! ## Styles -/

/-- A style whose separators are a comma and a colon, with gaps after them. -/
structure Style.Plain (style : Style) : Prop where
  comma : ∃ gap, style.comma.toList = ',' :: gap ∧ gap.all isGap = true
  colon : ∃ gap, style.colon.toList = ':' :: gap ∧ gap.all isGap = true

theorem Style.plain_canonical : Style.canonical.Plain := ⟨⟨[], rfl, rfl⟩, ⟨[], rfl, rfl⟩⟩

theorem Style.plain_line : Style.line.Plain := ⟨⟨[' '], rfl, rfl⟩, ⟨[' '], rfl, rfl⟩⟩

theorem Style.plain_file : Style.file.Plain := ⟨⟨[], rfl, rfl⟩, ⟨[' '], rfl, rfl⟩⟩

theorem Style.isGap_newline (style : Style) (depth : Nat) :
    (style.newline depth).toList.all isGap = true := by
  unfold Style.newline
  split
  · rfl
  · rw [String.toList_append, String.toList_ofList, List.all_append]
    simp [isGap]

/-! ## Lists of texts -/

theorem writeMembers_eq (style : Style) (depth : Nat) (members : List (String × Json)) :
    writeMembers style depth members = members.map fun m => (m.1, write style depth m.2) := by
  induction members with
  | nil => rfl
  | cons member rest ih => rw [writeMembers, ih, List.map_cons]

/-- Texts with separators between them. -/
def Style.joined (style : Style) (depth : Nat) (texts : List String) : List Char :=
  (String.intercalate (style.comma ++ style.newline depth) texts).toList

theorem Style.joined_singleton (style : Style) (depth : Nat) (text : String) :
    style.joined depth [text] = text.toList := by
  simp [joined]

theorem Style.joined_cons (style : Style) (depth : Nat) (text next : String) (more : List String) :
    style.joined depth (text :: next :: more) =
      text.toList ++ ((style.comma ++ style.newline depth).toList ++
        style.joined depth (next :: more)) := by
  simp [joined, String.toList_intercalate, List.intercalate]

/-- Between two texts there are a comma and a gap. -/
theorem Style.exists_separator (style : Style) (hplain : style.Plain) (depth : Nat) :
    ∃ gap, (style.comma ++ style.newline depth).toList = ',' :: gap ∧ gap.all isGap = true := by
  obtain ⟨gap, hcomma, hgap⟩ := hplain.comma
  refine ⟨gap ++ (style.newline depth).toList, by rw [String.toList_append, hcomma]; rfl, ?_⟩
  rw [List.all_append, hgap, style.isGap_newline]
  rfl

theorem Style.toList_enclose (style : Style) (opening closing : String) (depth : Nat)
    (text : String) (texts : List String) :
    (style.enclose opening closing depth (text :: texts)).toList =
      opening.toList ++ ((style.newline (depth + 1)).toList ++
        (style.joined (depth + 1) (text :: texts) ++
          ((style.newline depth).toList ++ closing.toList))) := by
  simp [enclose, joined, String.append_assoc]

/-- The members as they are written, each on its own. -/
def memberTexts (style : Style) (depth : Nat) (members : List (String × Json)) : List String :=
  members.map fun m => stringText m.1 ++ style.colon ++ write style depth m.2

theorem writeItems_joined_cons (style : Style) (depth : Nat) (item next : Json)
    (more : List Json) :
    style.joined depth (writeItems style depth (item :: next :: more)) =
      (write style depth item).toList ++ ((style.comma ++ style.newline depth).toList ++
        style.joined depth (writeItems style depth (next :: more))) := by
  rw [writeItems, writeItems, Style.joined_cons]

theorem memberTexts_joined_singleton (style : Style) (depth : Nat) (key : String) (value : Json) :
    style.joined depth (memberTexts style depth [(key, value)]) =
      (stringText key).toList ++ (style.colon.toList ++ (write style depth value).toList) := by
  rw [memberTexts, List.map_singleton, Style.joined_singleton]
  simp

theorem memberTexts_joined_cons (style : Style) (depth : Nat) (key : String) (value : Json)
    (next : String × Json) (more : List (String × Json)) :
    style.joined depth (memberTexts style depth ((key, value) :: next :: more)) =
      (stringText key).toList ++ (style.colon.toList ++ ((write style depth value).toList ++
        ((style.comma ++ style.newline depth).toList ++
          style.joined depth (memberTexts style depth (next :: more))))) := by
  rw [memberTexts, List.map_cons, List.map_cons, Style.joined_cons, String.toList_append,
    String.toList_append, List.append_assoc, List.append_assoc]
  rfl

theorem object_writeMembers {style : Style} (horder : style.sorted = false) (depth : Nat)
    (members : List (String × Json)) :
    style.object depth (style.order (writeMembers style (depth + 1) members)) =
      style.enclose "\x7b" "\x7d" depth (memberTexts style (depth + 1) members) := by
  rw [Style.order, if_neg (by rw [horder]; decide), Style.object, writeMembers_eq, List.map_map]
  rfl

theorem toList_write_arr (style : Style) (depth : Nat) {items : List Json} (h : items ≠ []) :
    (write style depth (.arr items)).toList =
      '[' :: ((style.newline (depth + 1)).toList ++
        ((style.joined (depth + 1) (writeItems style (depth + 1) items) ++
          (style.newline depth).toList) ++ [']'])) := by
  obtain ⟨item, items, rfl⟩ := List.exists_cons_of_ne_nil h
  rw [write, writeItems, Style.toList_enclose]
  simp

theorem toList_write_obj {style : Style} (horder : style.sorted = false) (depth : Nat)
    {members : List (String × Json)} (h : members ≠ []) :
    (write style depth (.obj members)).toList =
      '\x7b' :: ((style.newline (depth + 1)).toList ++
        ((style.joined (depth + 1) (memberTexts style (depth + 1) members) ++
          (style.newline depth).toList) ++ ['\x7d'])) := by
  obtain ⟨member, members, rfl⟩ := List.exists_cons_of_ne_nil h
  rw [write, object_writeMembers horder, memberTexts, List.map_cons, Style.toList_enclose]
  simp

/-! ## Values -/

mutual

/-- What is written denotes the value. -/
theorem denotes_write {style : Style} (hplain : style.Plain) (horder : style.sorted = false) :
    ∀ (value : Json) (depth : Nat), Denotes (write style depth value).toList value
  | .null, _ => by simpa [write] using Denotes.null
  | .bool true, _ => by simpa [write] using Denotes.boolTrue
  | .bool false, _ => by simpa [write] using Denotes.boolFalse
  | .int n, _ => .number (numberOf_int n)
  | .float x, _ => .number (numberOf_float x)
  | .str s, _ => by
    have hstring := Denotes.string (inQuotes_escaped s.toList)
    rwa [String.ofList_toList, ← toList_stringText] at hstring
  | .arr items, depth => by
    by_cases hne : items = []
    · subst hne
      simpa [write, writeItems, Style.enclose] using Denotes.emptyArray isGap_nil
    · rw [toList_write_arr style depth hne]
      exact .array (style.isGap_newline _)
        (denotesItems_write hplain horder items (depth + 1) _ hne (style.isGap_newline _))
  | .obj members, depth => by
    by_cases hne : members = []
    · subst hne
      rw [write, object_writeMembers horder]
      simpa [memberTexts, Style.enclose] using Denotes.emptyObject isGap_nil
    · rw [toList_write_obj horder depth hne]
      exact .object (style.isGap_newline _)
        (denotesMembers_write hplain horder members (depth + 1) _ hne (style.isGap_newline _))

theorem denotesItems_write {style : Style} (hplain : style.Plain) (horder : style.sorted = false) :
    ∀ (items : List Json) (depth : Nat) (gap : List Char), items ≠ [] → gap.all isGap = true →
      DenotesItems (style.joined depth (writeItems style depth items) ++ gap) items
  | [], _, _, hne, _ => absurd rfl hne
  | [item], depth, gap, _, hgap => by
    rw [writeItems, writeItems, Style.joined_singleton]
    exact .last (denotes_write hplain horder item depth) hgap
  | item :: next :: more, depth, gap, _, hgap => by
    obtain ⟨after, hcomma, hafter⟩ := style.exists_separator hplain depth
    have hitems := DenotesItems.more (denotes_write hplain horder item depth) isGap_nil hafter
      (denotesItems_write hplain horder (next :: more) depth gap (List.cons_ne_nil _ _) hgap)
    rw [writeItems_joined_cons, hcomma]
    simpa using hitems

theorem denotesMembers_write {style : Style} (hplain : style.Plain) (horder : style.sorted = false) :
    ∀ (members : List (String × Json)) (depth : Nat) (gap : List Char), members ≠ [] →
      gap.all isGap = true →
      DenotesMembers (style.joined depth (memberTexts style depth members) ++ gap) members
  | [], _, _, hne, _ => absurd rfl hne
  | [(key, value)], depth, gap, _, hgap => by
    obtain ⟨after, hcolon, hafter⟩ := hplain.colon
    have hmember := DenotesMembers.last (inQuotes_escaped key.toList) isGap_nil hafter
      (denotes_write hplain horder value depth) hgap
    rw [memberTexts_joined_singleton, hcolon, toList_stringText]
    simpa using hmember
  | (key, value) :: next :: more, depth, gap, _, hgap => by
    obtain ⟨after, hcolon, hafter⟩ := hplain.colon
    obtain ⟨ahead, hcomma, hahead⟩ := style.exists_separator hplain depth
    have hmember := DenotesMembers.more (inQuotes_escaped key.toList) isGap_nil hafter
      (denotes_write hplain horder value depth) isGap_nil hahead
      (denotesMembers_write hplain horder (next :: more) depth gap (List.cons_ne_nil _ _) hgap)
    rw [memberTexts_joined_cons, hcolon, hcomma, toList_stringText]
    simpa using hmember

end

end Lifecycle.Json
