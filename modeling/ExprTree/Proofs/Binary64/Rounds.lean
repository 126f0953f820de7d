/-
This file says which magnitude is the correct rounding of an amount.
-/

import ExprTree.Proofs.Binary64.Nearest
import Mathlib.Tactic.Linarith

namespace ExprTree.Binary64

/--
An amount rounds to the nearest finite magnitude, and two equally near ones leave it to the
even significand. Amounts from the last midpoint on round to infinity.
-/
structure Rounds (exact : ℚ) (magnitude : Nat) : Prop where
  overflow : magnitude = infinity ↔ (2 - 2 ^ (-53 : ℤ)) * 2 ^ 1023 ≤ exact
  underflow : magnitude = 0 ↔ exact ≤ 2 ^ (-1075 : ℤ)
  bounded : magnitude ≤ infinity
  nearest : magnitude < infinity → ∀ other < infinity,
    |amount magnitude - exact| ≤ |amount other - exact|
  even : magnitude < infinity → ∀ other < infinity, other ≠ magnitude →
    |amount other - exact| = |amount magnitude - exact| → Even (significand magnitude)

section Distance
variable {first second point : ℚ}

theorem nearerAbove (order : second < first) (middle : first + second ≤ 2 * point) :
    |first - point| ≤ |second - point| := by
  rw [abs_of_nonpos (show second - point ≤ 0 by linarith), abs_le]
  constructor <;> linarith

theorem nearerBelow (order : first < second) (middle : 2 * point ≤ first + second) :
    |first - point| ≤ |second - point| := by
  rw [abs_of_nonneg (show 0 ≤ second - point by linarith), abs_le]
  constructor <;> linarith

/-- Two numbers are equally far only from the point between them. -/
theorem middleOfTie (different : second ≠ first) (tie : |second - point| = |first - point|) :
    first + second = 2 * point := by
  rcases abs_eq_abs.mp tie with same | opposite
  · exact absurd (sub_left_injective same) different
  · linarith

end Distance

section Encloses
variable {quotient : ℚ} {magnitude : Nat}

theorem unitsMono {first second : Nat} (order : first ≤ second) :
    (units first : ℚ) ≤ units second :=
  Nat.cast_le.mpr (unitsStrictMono.monotone order)

theorem Encloses.nearest (encloses : Encloses quotient magnitude) (other : Nat) :
    |(units magnitude : ℚ) - quotient| ≤ |(units other : ℚ) - quotient| := by
  have lower := encloses.lower
  have upper := encloses.upper
  rcases lt_trichotomy other magnitude with below | rfl | above
  · have order : (units other : ℚ) ≤ units (magnitude - 1) := unitsMono (by omega)
    exact nearerAbove (Nat.cast_lt.mpr (unitsStrictMono below)) (by linarith)
  · exact le_rfl
  · have order : (units (magnitude + 1) : ℚ) ≤ units other := unitsMono above
    exact nearerBelow (Nat.cast_lt.mpr (unitsStrictMono above)) (by linarith)

/-- A tie puts the number on a midpoint, and the other magnitude next to this one. -/
theorem Encloses.evenOfTie (encloses : Encloses quotient magnitude) (other : Nat)
    (different : other ≠ magnitude)
    (tie : |(units other : ℚ) - quotient| = |(units magnitude : ℚ) - quotient|) :
    magnitude % 2 = 0 := by
  have lower := encloses.lower
  have upper := encloses.upper
  have apart : (units other : ℚ) ≠ units magnitude :=
    fun same => different (unitsStrictMono.injective (Nat.cast_injective same))
  have middle := middleOfTie apart tie
  rcases Nat.lt_or_gt_of_ne different with below | above
  · have order : (units other : ℚ) ≤ units (magnitude - 1) := unitsMono (by omega)
    exact encloses.even (.inl (by linarith))
  · have order : (units (magnitude + 1) : ℚ) ≤ units other := unitsMono above
    exact encloses.even (.inr (by linarith))

theorem Encloses.underflow (encloses : Encloses quotient magnitude) :
    magnitude = 0 ↔ 2 * quotient ≤ 1 := by
  have zero : (units 0 : ℚ) = 0 := by rw [unitsOfSmall 0 (by decide), Nat.cast_zero]
  have one : (units 1 : ℚ) = 1 := by rw [unitsOfSmall 1 (by decide), Nat.cast_one]
  have lower := encloses.lower
  have upper := encloses.upper
  constructor
  · rintro rfl
    linarith
  · intro small
    by_contra nonzero
    have least : (units 0 : ℚ) ≤ units (magnitude - 1) := unitsMono (Nat.zero_le _)
    have first : (units 1 : ℚ) ≤ units magnitude := unitsMono (by omega)
    have even := encloses.even (.inl (by linarith))
    have same : (units magnitude : ℚ) = units 1 := by linarith
    have index := unitsStrictMono.injective (Nat.cast_injective same)
    omega

theorem Encloses.overflow (encloses : Encloses quotient magnitude) :
    infinity ≤ magnitude ↔ (units (infinity - 1) : ℚ) + units infinity ≤ 2 * quotient := by
  have lower := encloses.lower
  have upper := encloses.upper
  constructor
  · intro large
    have last : (units (infinity - 1) : ℚ) ≤ units (magnitude - 1) :=
      unitsMono (Nat.sub_le_sub_right large 1)
    have limit : (units infinity : ℚ) ≤ units magnitude := unitsMono large
    linarith
  · intro large
    by_contra finite
    have last : (units magnitude : ℚ) ≤ units (infinity - 1) := unitsMono (by omega)
    have limit : (units (magnitude + 1) : ℚ) ≤ units infinity := unitsMono (by omega)
    have even := encloses.even (.inr (by linarith))
    have same : (units magnitude : ℚ) = units (infinity - 1) := by linarith
    have index := unitsStrictMono.injective (Nat.cast_injective same)
    unfold infinity at index
    omega

end Encloses

section Thresholds
variable {quotient : ℚ}

/-- The last finite magnitude and the one after it are 53-bit numbers of the same scale. -/
theorem unitsInfinity :
    (units (infinity - 1) : ℚ) + units infinity = (2 ^ 54 - 1) * 2 ^ 2045 := by
  have fits : Fits 2045 (2 * leadingBit - 1) := ⟨.inr (by decide), by decide⟩
  have last : (units (infinity - 1) : ℚ) = ((2 * leadingBit - 1 : Nat) : ℚ) * 2 ^ 2045 := by
    rw [show infinity - 1 = 2045 * leadingBit + (2 * leadingBit - 1) by decide,
      unitsFits 2045 _ fits, Nat.cast_mul, castPowerOfTwo]
  have limit : (units infinity : ℚ) = ((2 * leadingBit - 1 + 1 : Nat) : ℚ) * 2 ^ 2045 := by
    rw [show infinity = 2045 * leadingBit + (2 * leadingBit - 1) + 1 by decide,
      unitsNext 2045 _ fits, Nat.cast_mul, castPowerOfTwo]
  rw [last, limit, ← add_mul]
  norm_num

theorem overflowThreshold :
    (units (infinity - 1) : ℚ) + units infinity ≤ 2 * quotient ↔
      (2 - 2 ^ (-53 : ℤ)) * 2 ^ 1023 ≤ quotient / 2 ^ 1074 := by
  have powers : (2 : ℚ) ^ 1023 * 2 ^ 1074 = 2 ^ 52 * 2 ^ 2045 := by rw [← pow_add, ← pow_add]
  have twice : 2 * ((2 - 2 ^ (-53 : ℤ)) * 2 ^ 1023 * 2 ^ 1074) =
      ((2 : ℚ) ^ 54 - 1) * 2 ^ 2045 := by
    rw [mul_assoc (2 - 2 ^ (-53 : ℤ)), powers, ← mul_assoc, ← mul_assoc]
    norm_num
  rw [unitsInfinity, le_div_iff₀ (pow_pos two_pos 1074), ← twice]
  exact mul_le_mul_iff_of_pos_left two_pos

theorem underflowThreshold : 2 * quotient ≤ 1 ↔ quotient / 2 ^ 1074 ≤ 2 ^ (-1075 : ℤ) := by
  have half : (2 : ℚ) ^ (-1075 : ℤ) * 2 ^ 1074 = 2⁻¹ := by
    rw [← zpow_natCast, ← zpow_add₀ two_ne_zero]
    exact zpow_neg_one 2
  rw [div_le_iff₀ (pow_pos two_pos 1074), half]
  constructor <;> intro small <;> linarith

end Thresholds

theorem amountDistance (magnitude : Nat) (quotient : ℚ) :
    |amount magnitude - quotient / 2 ^ 1074| = |(units magnitude : ℚ) - quotient| / 2 ^ 1074 := by
  rw [amountUnits, ← sub_div, abs_div, abs_of_pos (pow_pos (two_pos : (0 : ℚ) < 2) 1074)]

/-- Infinity takes the place of all magnitudes that are not finite. -/
theorem Encloses.rounds {quotient : ℚ} {magnitude : Nat} (encloses : Encloses quotient magnitude) :
    Rounds (quotient / 2 ^ 1074) (min infinity magnitude) where
  overflow := by rw [min_eq_left_iff, encloses.overflow, overflowThreshold]
  underflow := by
    rw [← underflowThreshold, ← encloses.underflow]
    unfold infinity
    omega
  bounded := min_le_left infinity magnitude
  nearest := by
    intro finite other _
    rw [min_eq_right (by omega), amountDistance, amountDistance]
    exact div_le_div_of_nonneg_right (encloses.nearest other) (pow_nonneg zero_le_two 1074)
  even := by
    intro finite other _ different tie
    rw [min_eq_right (by omega)] at different tie ⊢
    rw [amountDistance, amountDistance,
      div_left_inj' (pow_ne_zero 1074 two_ne_zero)] at tie
    rw [significandEven]
    exact encloses.evenOfTie other different tie

theorem amountStrictMono : StrictMono amount := by
  intro first second order
  rw [amountUnits, amountUnits]
  exact div_lt_div_of_pos_right (Nat.cast_lt.mpr (unitsStrictMono order)) (pow_pos two_pos 1074)

/-- Of two even magnitudes equally near to an amount neither is nearest, as an odd one is between. -/
theorem Rounds.atLeast {exact : ℚ} {first second : Nat} (one : Rounds exact first)
    (two : Rounds exact second) : second ≤ first := by
  by_contra order
  have finite : second < infinity := by
    apply lt_of_le_of_ne two.bounded
    intro limit
    have same := one.overflow.mpr (two.overflow.mp limit)
    omega
  have other : first < infinity := by omega
  have tie : |amount second - exact| = |amount first - exact| :=
    le_antisymm (two.nearest finite first other) (one.nearest other second finite)
  have firstEven := (significandEven first).mp (one.even other second finite (by omega) tie)
  have secondEven :=
    (significandEven second).mp (two.even finite first other (by omega) tie.symm)
  have lower : amount first < amount (first + 1) := amountStrictMono (Nat.lt_succ_self first)
  have upper : amount (first + 1) < amount second := amountStrictMono (by omega)
  have middle := middleOfTie (lower.trans upper).ne' tie
  have nearer : |amount (first + 1) - exact| < |amount first - exact| := by
    rw [abs_of_nonpos (show amount first - exact ≤ 0 by linarith), abs_lt]
    constructor <;> linarith
  exact absurd (one.nearest other (first + 1) (by omega)) (not_le.mpr nearer)

theorem Rounds.unique {exact : ℚ} {first second : Nat} (one : Rounds exact first)
    (two : Rounds exact second) : first = second :=
  le_antisymm (two.atLeast one) (one.atLeast two)

/-- Rounding finds the correct rounding of a quotient once the numerator is counted in units. -/
theorem nearestRounds (numerator denominator : Nat) (positive : 0 < denominator) :
    Rounds (numerator / denominator) (Binary64.nearest (numerator <<< 1074) denominator) := by
  obtain ⟨magnitude, encloses, found⟩ :=
    nearestEncloses (numerator <<< 1074) denominator positive
  have one : (2 : ℚ) ^ 1074 ≠ 0 := pow_ne_zero 1074 two_ne_zero
  have rounds := encloses.rounds
  rw [castShift, div_right_comm, mul_div_cancel_right₀ _ one] at rounds
  rw [found]
  exact rounds

end ExprTree.Binary64
