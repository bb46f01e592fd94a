import Lifecycle.Json.Reader
import Mathlib.Data.List.Induction
import Mathlib.Data.Nat.Digits.Defs

/-!
# Decimal digits

The digits of a number have its value, none but a lone one is a leading zero, and a text whose
digits end is read up to that end.
-/

namespace Lifecycle.Json

/-- The digits of a number. -/
abbrev digitsOf (n : Nat) : List Char := Nat.toDigits 10 n

@[simp] theorem toList_toString (n : Nat) : (toString n).toList = digitsOf n :=
  String.toList_ofList

theorem digitsValue_eq (cs : List Char) : digitsValue cs = Nat.ofDigitChars 10 cs 0 := by
  simp only [digitsValue, Nat.ofDigitChars, Nat.mul_comm]

theorem digitsValue_append (ds es : List Char) :
    digitsValue (ds ++ es) = digitsValue ds * 10 ^ es.length + digitsValue es := by
  simp only [digitsValue_eq]
  rw [Nat.ofDigitChars_append, Nat.ofDigitChars_eq_ofDigitChars_zero, Nat.mul_comm]

@[simp] theorem digitsValue_replicate (count : Nat) :
    digitsValue (List.replicate count '0') = 0 := by
  rw [digitsValue_eq, Nat.ofDigitChars_replicate_zero, Nat.mul_zero]

@[simp] theorem digitsValue_digitsOf (n : Nat) : digitsValue (digitsOf n) = n := by
  rw [digitsValue_eq, Nat.ofDigitChars_toDigits (by decide) (by decide)]

theorem isDigit_of_mem {n : Nat} {c : Char} (h : c ∈ digitsOf n) : c.isDigit = true :=
  Nat.isDigit_of_mem_toDigits (by decide) (by decide) h

/-- A number other than zero starts with a digit that is no zero. -/
theorem exists_digitsOf_eq_cons {n : Nat} (h : n ≠ 0) :
    ∃ c cs, digitsOf n = c :: cs ∧ c ≠ '0' := by
  induction n using Nat.strong_induction_on with
  | _ n ih =>
    rw [digitsOf, Nat.toDigits_eq_if (by decide)]
    split
    · exact ⟨_, [], rfl, fun hzero => h (Nat.digitChar_eq_zero.mp hzero)⟩
    · obtain ⟨c, cs, hcs, hc⟩ := ih (n / 10) (by omega) (by omega)
      exact ⟨c, cs ++ [(n % 10).digitChar], congrArg (· ++ [(n % 10).digitChar]) hcs, hc⟩

theorem digitChar_digitsValue {c : Char} (h : c.isDigit = true) :
    digitsValue [c] < 10 ∧ (digitsValue [c]).digitChar = c := by
  have hchar : ∀ n < 10, Nat.digitChar n = Char.ofNat (48 + n) := by decide
  simp only [Char.isDigit, Bool.and_eq_true, decide_eq_true_eq, ge_iff_le,
    UInt32.le_iff_toNat_le] at h
  have hlow : 48 ≤ c.toNat := h.1
  have hhigh : c.toNat ≤ 57 := h.2
  have hvalue : digitsValue [c] = c.toNat - 48 := by simp [digitsValue]
  refine ⟨by omega, ?_⟩
  rw [hchar _ (by omega), hvalue, Nat.add_sub_cancel' hlow, Char.ofNat_toNat]

/-- Digits that start with no zero are the digits of their value. -/
theorem digitsOf_digitsValue {c : Char} {cs : List Char} (hc : c ≠ '0')
    (h : ∀ d ∈ c :: cs, d.isDigit = true) : digitsOf (digitsValue (c :: cs)) = c :: cs := by
  induction cs using List.reverseRecOn with
  | nil =>
    obtain ⟨hlt, hchar⟩ := digitChar_digitsValue (h c List.mem_cons_self)
    rw [digitsOf, Nat.toDigits_eq_if (by decide), if_pos hlt, hchar]
  | append_singleton front d ih =>
    rw [← List.cons_append] at h ⊢
    obtain ⟨hfront, hd⟩ := List.forall_mem_append.mp h
    obtain ⟨hlt, hchar⟩ := digitChar_digitsValue (hd d (List.mem_singleton.mpr rfl))
    have hdigits := ih hfront
    have hpos : digitsValue (c :: front) ≠ 0 := by
      intro hzero
      rw [hzero] at hdigits
      exact hc (List.cons.inj hdigits).1.symm
    have hvalue : digitsValue (c :: front ++ [d]) =
        digitsValue (c :: front) * 10 + digitsValue [d] := digitsValue_append (c :: front) [d]
    have hquotient : digitsValue (c :: front ++ [d]) / 10 = digitsValue (c :: front) := by omega
    have hrest : digitsValue (c :: front ++ [d]) % 10 = digitsValue [d] := by omega
    rw [digitsOf, Nat.toDigits_eq_if (by decide), if_neg (by omega), hquotient, hrest, hchar]
    exact congrArg (· ++ [d]) hdigits

theorem length_digitsOf_le_iff {n count : Nat} (h : 0 < count) :
    (digitsOf n).length ≤ count ↔ n < 10 ^ count :=
  Nat.length_toDigits_le_iff (by decide) h

theorem digitLimit_pos : 0 < digitLimit := by decide

attribute [local irreducible] digitLimit

/-- An integer may be written where it has no more digits than may be read. -/
theorem length_digitsOf_le_digitLimit {n : Nat} :
    (digitsOf n).length ≤ digitLimit ↔ n < integerBound :=
  length_digitsOf_le_iff digitLimit_pos

/-- Whether a text does not start with a digit. -/
def endsDigits (cs : List Char) : Bool := cs.head?.all fun c => !c.isDigit

/-- A text is read up to the end of its digits. -/
theorem spanDigits_append {ds rest : List Char} (hds : ∀ c ∈ ds, c.isDigit = true)
    (hrest : endsDigits rest = true) : spanDigits (ds ++ rest) = (ds, rest) := by
  have hstop : rest.takeWhile Char.isDigit = [] ∧ rest.dropWhile Char.isDigit = rest := by
    cases rest with
    | nil => exact ⟨rfl, rfl⟩
    | cons c cs =>
      have hc : c.isDigit = false := by simpa [endsDigits] using hrest
      simp [hc]
  rw [spanDigits, List.takeWhile_append_of_pos hds, List.dropWhile_append_of_pos hds, hstop.1,
    hstop.2, List.append_nil]

end Lifecycle.Json
