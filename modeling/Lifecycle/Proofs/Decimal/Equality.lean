import Lifecycle.Decimal.Number
import Mathlib.Order.Monotone.Basic

/-!
# Equality of numbers by value

The places of binary64 magnitudes are in the order of their values (`Double.strictMono_unitsAt`), so
that no two places are worth the same. Numbers are therefore equal by value exactly when they are
worth the same (`Number.same_iff`), whichever kinds they are of; NaN is worth nothing.
-/

namespace Lifecycle

/-- What a number may be worth: units of binary64, or the infinity of a sign. -/
inductive Worth where
  | units (n : Int)
  | infinite (negative : Bool)
deriving DecidableEq

namespace Double

/-- A place is its binade and its rank there. -/
theorem unitsAt_eq (binade : Nat) {rank : Nat} (h : rank < binadeSize) :
    unitsAt (binadeSize * binade + rank) =
      if binade = 0 then rank else (binadeSize + rank) * Nat.pow 2 (binade - 1) := by
  have hdiv : (binadeSize * binade + rank) / binadeSize = binade := by
    rw [Nat.mul_add_div (by decide), Nat.div_eq_of_lt h, Nat.add_zero]
  have hmod : (binadeSize * binade + rank) % binadeSize = rank := by
    rw [Nat.mul_add_mod, Nat.mod_eq_of_lt h]
  simp only [unitsAt, hdiv, hmod]
  split
  · rename_i hzero
    rw [hzero, Nat.mul_zero, Nat.zero_add]
  · rfl

/-- Values rise from place to place. -/
theorem strictMono_unitsAt : StrictMono unitsAt := by
  refine strictMono_nat_of_lt_succ fun place => ?_
  have hrank : place % binadeSize < binadeSize := Nat.mod_lt _ (by decide)
  have hplace : binadeSize * (place / binadeSize) + place % binadeSize = place :=
    Nat.div_add_mod place binadeSize
  generalize place / binadeSize = binade at hplace
  generalize place % binadeSize = rank at hplace hrank
  subst hplace
  by_cases hlast : rank + 1 = binadeSize
  · -- The last place of a binade is followed by the first one of the next.
    have hnext : binadeSize * binade + rank + 1 = binadeSize * (binade + 1) + 0 := by
      rw [Nat.mul_add, Nat.mul_one]; omega
    rw [hnext, unitsAt_eq _ hrank, unitsAt_eq _ (by decide), if_neg (Nat.succ_ne_zero _),
      Nat.add_sub_cancel]
    split
    · rename_i hzero
      rw [hzero]
      show rank < (binadeSize + 0) * 1
      omega
    · rename_i hpos
      obtain ⟨below, rfl⟩ := Nat.exists_eq_succ_of_ne_zero hpos
      have hdouble : Nat.pow 2 below.succ = 2 * Nat.pow 2 below := Nat.pow_succ'
      rw [Nat.succ_sub_one, hdouble, ← Nat.mul_assoc]
      exact Nat.mul_lt_mul_of_pos_right (by omega) (Nat.two_pow_pos _)
  · rw [Nat.add_assoc, unitsAt_eq _ hrank, unitsAt_eq _ (by omega)]
    split
    · exact Nat.lt_succ_self _
    · exact Nat.mul_lt_mul_of_pos_right (by omega) (Nat.two_pow_pos _)

/-- What the number is worth; NaN is worth nothing. -/
def worth? : Double → Option Worth
  | .finite negative place =>
    some (.units (if negative then -(unitsAt place : Int) else (unitsAt place : Int)))
  | .infinite negative => some (.infinite negative)
  | .nan => none

theorem same_finite_iff {a b : Bool} {p q : Fin places} :
    (finite a p).same (finite b q) = true ↔ (finite a p).worth? = (finite b q).worth? := by
  have hinj : (unitsAt p : Int) = unitsAt q ↔ p = q := by
    rw [Int.ofNat_inj, strictMono_unitsAt.injective.eq_iff, Fin.val_inj]
  have hzero : ∀ r : Fin places, (unitsAt r : Int) = 0 ↔ r.val = 0 := by
    intro r
    rw [Int.natCast_eq_zero, show (0 : Nat) = unitsAt 0 by decide]
    exact strictMono_unitsAt.injective.eq_iff
  have hp := hzero p
  have hq := hzero q
  have hp0 : 0 ≤ (unitsAt p : Int) := Int.natCast_nonneg _
  have hq0 : 0 ≤ (unitsAt q : Int) := Int.natCast_nonneg _
  simp only [same, worth?, isZero, Bool.or_eq_true, Bool.and_eq_true, beq_iff_eq, finite.injEq,
    Option.some.injEq, Worth.units.injEq, ← hp, ← hq]
  generalize (unitsAt p : Int) = u at *
  generalize (unitsAt q : Int) = v at *
  cases a <;> cases b <;>
    simp only [Bool.false_eq_true, if_true, if_false, reduceCtorEq, false_and, true_and, or_false,
      ← hinj] <;> omega

/-- Numbers are equal by value when they are worth the same. -/
theorem same_iff {x y : Double} :
    x.same y = true ↔ ∃ w, x.worth? = some w ∧ y.worth? = some w := by
  have hsome : ∀ {w : Worth} {o : Option Worth}, (∃ v, some w = some v ∧ o = some v) ↔
      some w = o := by
    intro w o
    exact ⟨fun ⟨_, hw, ho⟩ => hw.trans ho.symm, fun h => ⟨w, rfl, h.symm⟩⟩
  cases x with
  | nan => simp [same, worth?]
  | infinite a =>
    cases y with
    | nan => simp [same, worth?]
    | infinite b =>
      rw [worth?, worth?, hsome, Option.some.injEq, Worth.infinite.injEq]
      simp [same, isZero]
    | finite b q => simp [same, worth?, isZero]
  | finite a p =>
    cases y with
    | nan => simp [same, worth?]
    | infinite b => simp [same, worth?, isZero]
    | finite b q => rw [same_finite_iff, worth?, hsome]

theorem sameInt_iff {x : Double} {n : Int} :
    x.sameInt n = true ↔ x.worth? = some (.units (n * unitsOfOne)) := by
  rw [sameInt, beq_iff_eq]
  cases x with
  | finite a p => simp only [units?, worth?, Option.some.injEq, Worth.units.injEq]
  | infinite a => simp only [units?, worth?, reduceCtorEq, Option.some.injEq]
  | nan => simp only [units?, worth?, reduceCtorEq]

end Double

namespace Number

/-- What the number is worth. -/
def worth? : Number → Option Worth
  | .int n => some (.units (n * Double.unitsOfOne))
  | .float x => x.worth?

/-- Numbers of either kind are equal by value when they are worth the same. -/
theorem same_iff {x y : Number} :
    x.same y = true ↔ ∃ w, x.worth? = some w ∧ y.worth? = some w := by
  have hone : (Double.unitsOfOne : Int) ≠ 0 := by decide +kernel
  cases x with
  | int a =>
    cases y with
    | int b =>
      simp only [same, worth?, beq_iff_eq, Option.some.injEq, exists_eq_left', Worth.units.injEq,
        Int.mul_eq_mul_right_iff hone]
      exact eq_comm
    | float y => simp only [same, worth?, Double.sameInt_iff, Option.some.injEq, exists_eq_left']
  | float x =>
    cases y with
    | int b => simp only [same, worth?, Double.sameInt_iff, Option.some.injEq, exists_eq_right']
    | float y => exact Double.same_iff

end Number

end Lifecycle
