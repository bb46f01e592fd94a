import Lifecycle.Decimal.Notation
import Lifecycle.Proofs.Decimal.Equality
import Lifecycle.Proofs.Json.Digits
import Mathlib.Data.List.TakeWhile
import Mathlib.Tactic.Ring

/-!
# Decimals read back

Reading a decimal sees its value only (`placeNear_congr`), the guards of `Double.ofDecimal` change
no result (`ofDecimal_eq`), and the shortest decimal of a magnitude reads back as it
(`toPlace_shortest`). So does every way of writing its trimmed digits (`ofDecimal_shortest`).
-/

namespace Lifecycle

attribute [local irreducible] Double.unitsOfOne

namespace Decimal

/-- Only the quotient is rounded. -/
theorem roundHalfEven_mul_right (num den : Nat) {k : Nat} (hk : 0 < k) :
    roundHalfEven (num * k) (den * k) = roundHalfEven num den := by
  unfold roundHalfEven
  have hquotient : num * k / (den * k) = num / den := Nat.mul_div_mul_right _ _ hk
  have hremainder : 2 * (num * k % (den * k)) = 2 * (num % den) * k := by
    rw [Nat.mul_mod_mul_right, Nat.mul_assoc]
  simp only [hquotient, hremainder, Nat.mul_lt_mul_right hk]

theorem roundHalfEven_one (n : Nat) : roundHalfEven n 1 = n := by
  simpa using roundHalfEven_mul_self n Nat.one_pos

theorem roundHalfEven_eq_zero {num den : Nat} (h : 2 * num < den) : roundHalfEven num den = 0 := by
  have hlt : num < den := by omega
  unfold roundHalfEven
  simp only [Nat.mod_eq_of_lt hlt, Nat.div_eq_of_lt hlt, h, if_true]

end Decimal

namespace Double

open Decimal

/-- The place in terms of the shift of the binade. -/
theorem placeNear_eq {num den shift : Nat} (h : Nat.log2 (num / den) - 52 = shift) :
    placeNear num den = roundHalfEven num (den * 2 ^ shift) + shift * binadeSize := by
  subst h
  rfl

theorem placeNear_mul_right (num den : Nat) {k : Nat} (hk : 0 < k) :
    placeNear (num * k) (den * k) = placeNear num den := by
  have hshift : Nat.log2 (num * k / (den * k)) - 52 = Nat.log2 (num / den) - 52 := by
    rw [Nat.mul_div_mul_right _ _ hk]
  rw [placeNear_eq hshift, placeNear_eq rfl, Nat.mul_right_comm, roundHalfEven_mul_right _ _ hk]

/-- Quotients of one value are nearest to one magnitude. -/
theorem placeNear_congr {num den num' den' : Nat} (hden : 0 < den) (hden' : 0 < den')
    (h : num * den' = num' * den) : placeNear num den = placeNear num' den' := by
  calc placeNear num den = placeNear (num * den') (den * den') :=
        (placeNear_mul_right num den hden').symm
    _ = placeNear (num' * den) (den' * den) := by rw [h, Nat.mul_comm den]
    _ = placeNear num' den' := placeNear_mul_right num' den' hden

/-- A magnitude is nearest to itself. -/
theorem placeNear_unitsAt (place : Nat) : placeNear (unitsAt place) 1 = place := by
  have hrank : place % binadeSize < binadeSize := Nat.mod_lt _ (by decide)
  have hplace : binadeSize * (place / binadeSize) + place % binadeSize = place :=
    Nat.div_add_mod place binadeSize
  have hsize : binadeSize = 2 ^ 52 := by decide
  generalize place / binadeSize = binade at hplace
  generalize place % binadeSize = rank at hplace hrank
  subst hplace
  rw [unitsAt_eq binade hrank]
  cases binade with
  | zero =>
    have hshift : Nat.log2 (rank / 1) - 52 = 0 := by
      rw [Nat.div_one]
      by_cases hzero : rank = 0
      · rw [hzero]; rfl
      · have := (Nat.log2_lt hzero).mpr (hsize ▸ hrank)
        omega
    rw [if_pos rfl, placeNear_eq hshift, Nat.pow_zero, Nat.mul_one, roundHalfEven_one]
    omega
  | succ below =>
    have hpos : 0 < 2 ^ below := Nat.two_pow_pos below
    have hne : (binadeSize + rank) * 2 ^ below ≠ 0 :=
      Nat.ne_of_gt (Nat.mul_pos (Nat.lt_of_lt_of_le (by decide) (Nat.le_add_right _ _)) hpos)
    have hlog : Nat.log2 ((binadeSize + rank) * 2 ^ below) = 52 + below := by
      refine (Nat.log2_eq_iff hne).mpr ⟨?_, ?_⟩
      · rw [Nat.pow_add, ← hsize]
        exact Nat.mul_le_mul_right _ (Nat.le_add_right _ _)
      · rw [show 52 + below + 1 = 53 + below by omega, Nat.pow_add]
        exact Nat.mul_lt_mul_of_pos_right (by omega) hpos
    have hshift : Nat.log2 ((binadeSize + rank) * 2 ^ below / 1) - 52 = below := by
      rw [Nat.div_one, hlog, Nat.add_sub_cancel_left]
    rw [if_neg (Nat.succ_ne_zero _), Nat.add_sub_cancel, Nat.pow_eq, placeNear_eq hshift,
      Nat.one_mul, roundHalfEven_mul_self _ hpos, Nat.mul_add, Nat.mul_one, Nat.mul_comm below]
    omega

theorem placeNear_eq_zero {num den : Nat} (h : 2 * num < den) : placeNear num den = 0 := by
  have hshift : Nat.log2 (num / den) - 52 = 0 := by
    rw [Nat.div_eq_of_lt (by omega)]; rfl
  rw [placeNear_eq hshift, Nat.pow_zero, Nat.mul_one, roundHalfEven_eq_zero h, Nat.zero_mul]

/-- Beyond a power of two the places lie beyond that of its binade. -/
theorem le_placeNear {num den shift : Nat} (h : 2 ^ (shift + 52) ≤ num / den) :
    shift * binadeSize ≤ placeNear num den := by
  have hne : num / den ≠ 0 := Nat.ne_of_gt (Nat.lt_of_lt_of_le (Nat.two_pow_pos _) h)
  have hlog : shift ≤ Nat.log2 (num / den) - 52 := by
    have := (Nat.le_log2 hne).mpr h
    omega
  rw [placeNear_eq rfl]
  exact Nat.le_trans (Nat.mul_le_mul_right _ hlog) (Nat.le_add_left _ _)

end Double

namespace Decimal

open Double

/-- The value as a quotient, whatever the sign of the exponent. -/
theorem ratio_eq (d : Decimal) :
    d.ratio = (d.digits * 10 ^ d.exponent.toNat, 10 ^ (-d.exponent).toNat) := by
  unfold ratio
  split
  · rename_i h
    rw [show (-d.exponent).toNat = 0 by omega]; rfl
  · rename_i h
    rw [show d.exponent.toNat = 0 by omega, Nat.pow_zero, Nat.mul_one]; rfl

theorem ratio_pos (d : Decimal) : 0 < d.ratio.2 := by
  rw [ratio_eq]
  exact Nat.pow_pos (by decide)

/-- Zeros at the end make up for a lower exponent. -/
theorem toPlace_shift (digits k : Nat) (exponent : Int) :
    toPlace ⟨digits * 10 ^ k, exponent - k⟩ = toPlace ⟨digits, exponent⟩ := by
  refine placeNear_congr (ratio_pos _) (ratio_pos _) ?_
  simp only [ratio_eq]
  have hpow : 10 ^ k * 10 ^ (exponent - k).toNat * 10 ^ (-exponent).toNat
      = 10 ^ exponent.toNat * 10 ^ (-(exponent - k)).toNat := by
    simp only [← Nat.pow_add]
    congr 1
    omega
  calc digits * 10 ^ k * 10 ^ (exponent - k).toNat * unitsOfOne * 10 ^ (-exponent).toNat
      = digits * unitsOfOne * (10 ^ k * 10 ^ (exponent - k).toNat * 10 ^ (-exponent).toNat) := by
        ring
    _ = digits * unitsOfOne * (10 ^ exponent.toNat * 10 ^ (-(exponent - k)).toNat) := by rw [hpow]
    _ = digits * 10 ^ exponent.toNat * unitsOfOne * 10 ^ (-(exponent - k)).toNat := by ring

theorem toPlace_zero (exponent : Int) : toPlace ⟨0, exponent⟩ = 0 := by
  refine placeNear_eq_zero ?_
  rw [ratio_eq, Nat.zero_mul, Nat.zero_mul]
  exact Nat.pow_pos (by decide)

theorem digits_ne_zero {d : Decimal} (h : d.toPlace ≠ 0) : d.digits ≠ 0 := by
  obtain ⟨digits, exponent⟩ := d
  rintro rfl
  exact h (toPlace_zero exponent)

/-- Units are a power of two, so that as many decimal places hold all digits of a magnitude. -/
theorem toPlace_units (place k : Nat) (h : unitsOfOne = 2 ^ k) :
    toPlace ⟨unitsAt place * Nat.pow 5 k, -(k : Int)⟩ = place := by
  have hvalue : unitsAt place * Nat.pow 5 k * unitsOfOne * 1 = unitsAt place * 10 ^ k := by
    rw [h, Nat.mul_one, Nat.mul_assoc]
    congr 1
    exact (Nat.mul_pow 5 2 k).symm
  calc toPlace ⟨unitsAt place * Nat.pow 5 k, -(k : Int)⟩
      = placeNear (unitsAt place) 1 := by
        refine placeNear_congr (ratio_pos _) Nat.one_pos ?_
        simp only [ratio_eq]
        rw [show (-(k : Int)).toNat = 0 by omega, show (- -(k : Int)).toNat = k by omega,
          Nat.pow_zero, Nat.mul_one (unitsAt place * _), ← hvalue, Nat.mul_one]
    _ = place := placeNear_unitsAt place

/-- One in units, the exponent under a name so that the power is not computed. -/
theorem exists_unitsOfOne_eq : ∃ k, k = 1074 ∧ unitsOfOne = 2 ^ k := by
  unfold unitsOfOne
  exact ⟨1074, rfl, Nat.pow_eq⟩

theorem allDigits_eq {place k : Nat} (h : k = 1074) :
    allDigits place = ⟨unitsAt place * Nat.pow 5 k, -(k : Int)⟩ := by
  subst h
  rfl

theorem toPlace_allDigits (place : Nat) : (allDigits place).toPlace = place := by
  obtain ⟨k, hk, hunits⟩ := exists_unitsOfOne_eq
  rw [allDigits_eq hk]
  exact toPlace_units place k hunits

theorem toPlace_of_onGrid {place : Nat} {leading : Int} {count : Nat} {d : Decimal}
    (h : onGrid place leading count = some d) : d.toPlace = place := by
  unfold onGrid at h
  exact toPlace_of_pick h

/-- The definition as one of functions: applied to a place it would be searched through. -/
theorem shortest_eq : shortest = fun place =>
    match (List.range 17).findSome? fun n => onGrid place (leadingExponent place) (n + 1) with
    | some d => d
    | none => allDigits place := by
  delta shortest
  rfl

/-- The shortest decimal reads back. -/
theorem toPlace_shortest (place : Nat) : (shortest place).toPlace = place := by
  rw [shortest_eq]
  dsimp only
  split
  · rename_i d hd
    obtain ⟨n, -, hn⟩ := List.exists_of_findSome?_eq_some hd
    exact toPlace_of_onGrid hn
  · exact toPlace_allDigits place

theorem digits_shortest_ne_zero {place : Nat} (h : place ≠ 0) : (shortest place).digits ≠ 0 :=
  digits_ne_zero (by rwa [toPlace_shortest])

/-! ## Trimming -/

/-- The zeros that trimming takes away. -/
theorem exists_trim_eq (d : Decimal) :
    ∃ k : Nat, d = ⟨d.trim.digits * 10 ^ k, d.trim.exponent - k⟩ := by
  obtain ⟨zeros, hzeros⟩ : ∃ zeros, zeros =
      ((toString d.digits).toList.reverse.takeWhile (· == '0')).length := ⟨_, rfl⟩
  have htrim : d.trim = ⟨d.digits / 10 ^ zeros, d.exponent + zeros⟩ := by
    rw [hzeros]; rfl
  have hdvd : 10 ^ zeros ∣ d.digits := by
    have hrun : (toString d.digits).toList.reverse.takeWhile (· == '0')
        = List.replicate zeros '0' :=
      List.eq_replicate_iff.mpr
        ⟨hzeros.symm, fun c hc => by simpa using List.mem_takeWhile_imp hc⟩
    have hsplit : (toString d.digits).toList
        = ((toString d.digits).toList.reverse.dropWhile (· == '0')).reverse
          ++ List.replicate zeros '0' := by
      rw [← List.reverse_inj, List.reverse_append, List.reverse_replicate, List.reverse_reverse,
        ← hrun, List.takeWhile_append_dropWhile]
    have hvalue := congrArg Json.digitsValue hsplit
    rw [Json.toList_toString, Json.digitsValue_digitsOf, Json.digitsValue_append,
      Json.digitsValue_replicate, List.length_replicate, Nat.add_zero] at hvalue
    exact Dvd.intro_left _ hvalue.symm
  refine ⟨zeros, ?_⟩
  rw [htrim, Nat.div_mul_cancel hdvd, Int.add_sub_cancel]

theorem toPlace_trim (d : Decimal) : d.trim.toPlace = d.toPlace := by
  obtain ⟨k, hk⟩ := exists_trim_eq d
  calc d.trim.toPlace = toPlace ⟨d.trim.digits * 10 ^ k, d.trim.exponent - k⟩ :=
        (toPlace_shift _ _ _).symm
    _ = d.toPlace := by rw [← hk]

theorem digits_trim_ne_zero {d : Decimal} (h : d.digits ≠ 0) : d.trim.digits ≠ 0 := by
  intro hzero
  obtain ⟨k, hk⟩ := exists_trim_eq d
  refine h ?_
  calc d.digits = d.trim.digits * 10 ^ k := congrArg Decimal.digits hk
    _ = 0 := by rw [hzero, Nat.zero_mul]

end Decimal

namespace Double

open Decimal

theorem ofUnits_eq_infinite (negative : Bool) {num den : Nat} (h : places ≤ placeNear num den) :
    ofUnits negative num den = .infinite negative :=
  dif_neg (Nat.not_lt.mpr h)

theorem ofUnits_eq_finite (negative : Bool) (place : Fin places) {num den : Nat}
    (h : placeNear num den = place) : ofUnits negative num den = .finite negative place := by
  have hlt : placeNear num den < places := h ▸ place.isLt
  rw [ofUnits, dif_pos hlt]
  congr 1
  exact Fin.ext h

/-- Exponents beyond 400 lead beyond the finite magnitudes. -/
theorem places_le_toPlace {digits : Nat} {exponent : Int} (hdigits : digits ≠ 0)
    (h : 400 < exponent) : places ≤ toPlace ⟨digits, exponent⟩ := by
  obtain ⟨n, rfl⟩ : ∃ n : Nat, exponent = n := ⟨exponent.toNat, by omega⟩
  obtain ⟨k, hk, hunits⟩ := exists_unitsOfOne_eq
  have hratio : (Decimal.mk digits n).ratio = (digits * 10 ^ n, 1) := by
    rw [ratio_eq]
    simp
  have hle : 2 ^ (3 * n + k - 52 + 52) ≤ digits * 10 ^ n * unitsOfOne / 1 := by
    have hpow : 8 ^ n ≤ 10 ^ n := Nat.pow_le_pow_left (by decide) n
    calc 2 ^ (3 * n + k - 52 + 52) = 8 ^ n * 2 ^ k := by
          rw [show 3 * n + k - 52 + 52 = 3 * n + k by omega, Nat.pow_add, Nat.pow_mul]
      _ ≤ digits * 10 ^ n * 2 ^ k :=
          Nat.mul_le_mul_right _
            (Nat.le_trans hpow (Nat.le_mul_of_pos_left _ (Nat.pos_of_ne_zero hdigits)))
      _ = digits * 10 ^ n * unitsOfOne / 1 := by rw [Nat.div_one, hunits]
  calc places ≤ (3 * n + k - 52) * binadeSize := Nat.mul_le_mul_right _ (by omega)
    _ ≤ placeNear (digits * 10 ^ n * unitsOfOne) 1 := le_placeNear hle
    _ = toPlace ⟨digits, n⟩ := by rw [toPlace, hratio]

/-- Below 10⁻⁴⁰⁰ zero is the nearest magnitude. -/
theorem toPlace_eq_zero {digits : Nat} {exponent : Int} (hdigits : digits ≠ 0)
    (h : exponent < -400 - (Nat.log2 digits : Int)) : toPlace ⟨digits, exponent⟩ = 0 := by
  obtain ⟨n, rfl⟩ : ∃ n : Nat, exponent = -(n : Int) := ⟨(-exponent).toNat, by omega⟩
  obtain ⟨k, hk, hunits⟩ := exists_unitsOfOne_eq
  have hratio : (Decimal.mk digits (-(n : Int))).ratio = (digits, 10 ^ n) := by
    rw [ratio_eq]
    simp
  have hlt : digits < 2 ^ (Nat.log2 digits + 1) := (Nat.log2_lt hdigits).mp (Nat.lt_succ_self _)
  rw [toPlace, hratio]
  refine placeNear_eq_zero ?_
  calc 2 * (digits * unitsOfOne) = digits * 2 ^ (k + 1) := by
        rw [hunits, Nat.mul_left_comm, ← Nat.pow_succ']
    _ < 2 ^ (Nat.log2 digits + 1) * 2 ^ (k + 1) :=
        Nat.mul_lt_mul_of_pos_right hlt (Nat.two_pow_pos _)
    _ = 2 ^ (Nat.log2 digits + 1 + (k + 1)) := (Nat.pow_add ..).symm
    _ ≤ 2 ^ (3 * n) := Nat.pow_le_pow_right (by decide) (by omega)
    _ = 8 ^ n := Nat.pow_mul 2 3 n
    _ ≤ 10 ^ n := Nat.pow_le_pow_left (by decide) n

/-- The guards keep huge powers from being formed and change no result. -/
theorem ofDecimal_eq (negative : Bool) (digits : Nat) (exponent : Int) :
    ofDecimal negative digits exponent
      = ofUnits negative ((Decimal.mk digits exponent).ratio.1 * unitsOfOne)
          (Decimal.mk digits exponent).ratio.2 := by
  unfold ofDecimal
  split
  · rename_i hzero
    rw [hzero]
    exact (ofUnits_eq_finite negative ⟨0, by decide⟩ (toPlace_zero exponent)).symm
  · rename_i hdigits
    split
    · rename_i hhigh
      exact (ofUnits_eq_infinite negative (places_le_toPlace hdigits hhigh)).symm
    · split
      · rename_i hlow
        exact (ofUnits_eq_finite negative ⟨0, by decide⟩ (toPlace_eq_zero hdigits hlow)).symm
      · rfl

/-- The trimmed digits of a magnitude read back, however many zeros are written after them. -/
theorem ofDecimal_shortest (negative : Bool) (place : Fin places) (k : Nat) :
    ofDecimal negative ((shortest place).trim.digits * 10 ^ k) ((shortest place).trim.exponent - k)
      = .finite negative place := by
  rw [ofDecimal_eq]
  refine ofUnits_eq_finite negative place ?_
  calc toPlace ⟨(shortest place).trim.digits * 10 ^ k, (shortest place).trim.exponent - k⟩
      = (shortest place).trim.toPlace := toPlace_shift _ _ _
    _ = (shortest place).toPlace := toPlace_trim _
    _ = place := toPlace_shortest _

end Double

end Lifecycle
