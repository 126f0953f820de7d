/-
This file shows that rounding finds the magnitude whose neighborhood holds a quotient.
-/

import ExprTree.Binary64.Rounding
import ExprTree.Proofs.Binary64.Units

namespace ExprTree.Binary64

/--
A number of units rounds to a magnitude between the midpoints to its neighbors.
A midpoint itself rounds only to an even magnitude.
-/
structure Encloses (quotient : ℚ) (magnitude : Nat) : Prop where
  lower : (units (magnitude - 1) : ℚ) + units magnitude ≤ 2 * quotient
  upper : 2 * quotient ≤ (units magnitude : ℚ) + units (magnitude + 1)
  even : 2 * quotient = (units (magnitude - 1) : ℚ) + units magnitude ∨
    2 * quotient = (units magnitude : ℚ) + units (magnitude + 1) → magnitude % 2 = 0

/-- A quotient of whole numbers is compared with the midpoints without dividing. -/
theorem enclosesQuotient (numerator denominator magnitude : Nat) (positive : 0 < denominator)
    (lower : (units (magnitude - 1) + units magnitude) * denominator ≤ 2 * numerator)
    (upper : 2 * numerator ≤ (units magnitude + units (magnitude + 1)) * denominator)
    (even : 2 * numerator = (units (magnitude - 1) + units magnitude) * denominator ∨
      2 * numerator = (units magnitude + units (magnitude + 1)) * denominator →
        magnitude % 2 = 0) :
    Encloses (numerator / denominator) magnitude := by
  have divisor : (0 : ℚ) < denominator := Nat.cast_pos.mpr positive
  constructor
  · rw [← mul_div_assoc, le_div_iff₀ divisor]
    exact_mod_cast lower
  · rw [← mul_div_assoc, div_le_iff₀ divisor]
    exact_mod_cast upper
  · rw [← mul_div_assoc, div_eq_iff divisor.ne', div_eq_iff divisor.ne']
    exact_mod_cast even

/-- The scale leaves 53 significant bits before the point. -/
theorem scaleFits (numerator denominator : Nat) :
    Fits ((numerator / denominator).log2 - 52)
      (numerator / (denominator <<< ((numerator / denominator).log2 - 52))) := by
  rw [Nat.shiftLeft_eq, ← Nat.div_div_eq_div_mul]
  generalize numerator / denominator = whole
  constructor
  · by_cases short : whole.log2 < 52
    · exact .inl (by omega)
    · right
      have nonzero : whole ≠ 0 := by
        rintro rfl
        exact short (by decide)
      have length : 52 + (whole.log2 - 52) = whole.log2 := by omega
      rw [Nat.le_div_iff_mul_le (Nat.two_pow_pos _)]
      calc leadingBit * 2 ^ (whole.log2 - 52) = 2 ^ whole.log2 := by
            rw [← length, Nat.add_sub_cancel_left, Nat.pow_add]
        _ ≤ whole := Nat.log2_self_le nonzero
  · apply Nat.div_lt_of_lt_mul
    calc whole < 2 ^ (whole.log2 + 1) := Nat.lt_log2_self
      _ ≤ 2 ^ (whole.log2 - 52 + 53) := Nat.pow_le_pow_right Nat.two_pos (by omega)
      _ = 2 ^ (whole.log2 - 52) * (2 * leadingBit) := Nat.pow_add 2 _ 53

/-- A step is the distance to the next magnitude, and the significand counts the steps. -/
theorem stepsFits (denominator scale significand : Nat) (fits : Fits scale significand) :
    units (scale * leadingBit + significand) * denominator =
      (denominator <<< scale) * significand := by
  rw [unitsFits scale significand fits, Nat.shiftLeft_eq, Nat.mul_comm, Nat.mul_comm significand,
    Nat.mul_assoc]

theorem stepsNext (denominator scale significand : Nat) (fits : Fits scale significand) :
    units (scale * leadingBit + significand + 1) * denominator =
      (denominator <<< scale) * significand + denominator <<< scale := by
  rw [unitsNext scale significand fits, Nat.shiftLeft_eq, ← Nat.mul_succ, Nat.mul_comm,
    Nat.mul_comm (significand + 1), Nat.mul_assoc]

/-- A quotient that is rounded down lies above its magnitude by at most half a step. -/
theorem enclosesDown (numerator denominator scale : Nat) (positive : 0 < denominator)
    (fits : Fits scale (numerator / (denominator <<< scale)))
    (low : 2 * (numerator % (denominator <<< scale)) ≤ denominator <<< scale)
    (tie : 2 * (numerator % (denominator <<< scale)) = denominator <<< scale →
      numerator / (denominator <<< scale) % 2 = 0) :
    Encloses (numerator / denominator)
      (scale * leadingBit + numerator / (denominator <<< scale)) := by
  have split := Nat.div_add_mod numerator (denominator <<< scale)
  have here := stepsFits denominator scale _ fits
  have above := stepsNext denominator scale _ fits
  generalize numerator / (denominator <<< scale) = whole at *
  generalize numerator % (denominator <<< scale) = rest at *
  obtain ⟨magnitude, bound⟩ : ∃ magnitude, magnitude = scale * leadingBit + whole := ⟨_, rfl⟩
  rw [← bound] at here above ⊢
  have below : units (magnitude - 1) * denominator ≤ units magnitude * denominator :=
    Nat.mul_le_mul_right _ (unitsStrictMono.monotone (Nat.sub_le magnitude 1))
  apply enclosesQuotient numerator denominator magnitude positive
  · rw [Nat.add_mul]
    omega
  · rw [Nat.add_mul]
    omega
  · rw [Nat.add_mul, Nat.add_mul]
    rintro (least | most)
    · have same : units (magnitude - 1) = units magnitude := by
        apply Nat.eq_of_mul_eq_mul_right positive
        omega
      have zero := unitsStrictMono.injective same
      omega
    · have whole := tie (by omega)
      unfold leadingBit at bound
      omega

/-- A quotient that is rounded up lies below its magnitude by at most half a step. -/
theorem enclosesUp (numerator denominator scale : Nat) (positive : 0 < denominator)
    (fits : Fits scale (numerator / (denominator <<< scale)))
    (high : denominator <<< scale ≤ 2 * (numerator % (denominator <<< scale)))
    (tie : 2 * (numerator % (denominator <<< scale)) = denominator <<< scale →
      numerator / (denominator <<< scale) % 2 = 1) :
    Encloses (numerator / denominator)
      (scale * leadingBit + (numerator / (denominator <<< scale) + 1)) := by
  have split := Nat.div_add_mod numerator (denominator <<< scale)
  have step : 0 < denominator <<< scale := by
    rw [Nat.shiftLeft_eq]
    exact Nat.mul_pos positive (Nat.two_pow_pos scale)
  have rest := Nat.mod_lt numerator step
  have here := stepsNext denominator scale _ fits
  have below := stepsFits denominator scale _ fits
  generalize numerator / (denominator <<< scale) = whole at *
  generalize numerator % (denominator <<< scale) = rest at *
  obtain ⟨magnitude, bound⟩ : ∃ magnitude, magnitude = scale * leadingBit + whole := ⟨_, rfl⟩
  rw [← bound] at here below
  rw [← Nat.add_assoc, ← bound]
  have above : units (magnitude + 1) * denominator ≤ units (magnitude + 1 + 1) * denominator :=
    Nat.mul_le_mul_right _ (unitsStrictMono.monotone (Nat.le_succ _))
  apply enclosesQuotient numerator denominator (magnitude + 1) positive
  · rw [Nat.add_sub_cancel, Nat.add_mul]
    omega
  · rw [Nat.add_mul]
    omega
  · rw [Nat.add_sub_cancel, Nat.add_mul, Nat.add_mul]
    rintro (least | most)
    · have odd := tie (by omega)
      unfold leadingBit at bound
      omega
    · omega

/-- A rounded quotient encloses the exact one, and infinity stands for all greater magnitudes. -/
theorem nearestEncloses (numerator denominator : Nat) (positive : 0 < denominator) :
    ∃ magnitude, Encloses (numerator / denominator) magnitude ∧
      nearest numerator denominator = min infinity magnitude := by
  have fits := scaleFits numerator denominator
  refine ⟨_, ?_, rfl⟩
  generalize (numerator / denominator).log2 - 52 = scale at *
  rw [roundQuotient]
  by_cases down : 2 * (numerator % (denominator <<< scale)) < denominator <<< scale ∨
      2 * (numerator % (denominator <<< scale)) = denominator <<< scale ∧
        numerator / (denominator <<< scale) % 2 = 0
  · rw [if_pos down]
    exact enclosesDown numerator denominator scale positive fits (by omega) (by omega)
  · rw [if_neg down]
    exact enclosesUp numerator denominator scale positive fits (by omega) (by omega)

end ExprTree.Binary64
