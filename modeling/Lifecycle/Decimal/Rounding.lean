/-!
# Rounding a quotient

`roundHalfEven num den` is the integer nearest to `num / den`, the even one of two that are equally
near. Every rounding of the library is this one: of a real to binary64, of a percentage to a whole
number, of a time to microseconds.
-/

namespace Lifecycle.Decimal

/-- The integer nearest to `num / den`; of two equally near ones, the even one. -/
def roundHalfEven (num den : Nat) : Nat :=
  let quotient := num / den
  let remainder := num % den
  if 2 * remainder < den then quotient
  else if den < 2 * remainder then quotient + 1
  else if quotient % 2 = 0 then quotient else quotient + 1

/-- A multiple of the divisor is rounded to its exact quotient. -/
theorem roundHalfEven_mul_self (q : Nat) {den : Nat} (h : 0 < den) :
    roundHalfEven (q * den) den = q := by
  simp [roundHalfEven, Nat.mul_div_cancel q h, h]

/-- The result is within half a unit of the quotient. -/
theorem roundHalfEven_bounds (num : Nat) {den : Nat} (h : 0 < den) :
    2 * num ≤ (2 * roundHalfEven num den + 1) * den ∧
      2 * roundHalfEven num den * den ≤ 2 * num + den := by
  have hd := Nat.div_add_mod num den
  have hr := Nat.mod_lt num h
  rw [Nat.mul_comm] at hd
  unfold roundHalfEven
  generalize num / den = q at *
  generalize num % den = r at *
  subst hd
  have e1 : (2 * q + 1) * den = 2 * (q * den) + den := by
    rw [Nat.add_mul, Nat.mul_assoc, Nat.one_mul]
  have e2 : (2 * (q + 1) + 1) * den = 2 * (q * den) + 3 * den := by
    rw [Nat.add_mul, Nat.mul_assoc, Nat.add_mul, Nat.one_mul]; omega
  have e3 : 2 * q * den = 2 * (q * den) := Nat.mul_assoc ..
  have e4 : 2 * (q + 1) * den = 2 * (q * den) + 2 * den := by
    rw [Nat.mul_assoc, Nat.add_mul, Nat.one_mul]; omega
  dsimp only
  split
  · rw [e1, e3]; omega
  · split
    · rw [e2, e4]; omega
    · split
      · rw [e1, e3]; omega
      · rw [e2, e4]; omega

end Lifecycle.Decimal
