/-
This file shows how the magnitudes of a binade are spaced and what they amount to.
-/

import ExprTree.Binary64.Basic
import Mathlib.Algebra.Order.Field.Basic
import Mathlib.Data.Rat.Cast.Order
import Mathlib.Order.Monotone.Basic

namespace ExprTree.Binary64

/-- A significand has 53 bits and the leading one set, which only the lowest scale can lack. -/
structure Fits (scale significand : Nat) : Prop where
  low : scale = 0 ∨ leadingBit ≤ significand
  high : significand < 2 * leadingBit

/-- Every magnitude is the pattern of one significand at one scale. -/
theorem fitsMagnitude (magnitude : Nat) :
    ∃ scale significand, Fits scale significand ∧ magnitude = scale * leadingBit + significand := by
  by_cases small : magnitude < leadingBit
  · exact ⟨0, magnitude, ⟨.inl rfl, by omega⟩, by omega⟩
  · refine ⟨magnitude / leadingBit - 1, leadingBit + magnitude % leadingBit, ⟨.inr ?_, ?_⟩, ?_⟩
    · exact Nat.le_add_right _ _
    · unfold leadingBit
      omega
    · unfold leadingBit at *
      omega

theorem unitsFits (scale significand : Nat) (fits : Fits scale significand) :
    units (scale * leadingBit + significand) = significand * 2 ^ scale := by
  obtain ⟨low, high⟩ := fits
  cases scale with
  | zero =>
      rw [Nat.zero_mul, Nat.zero_add, Nat.pow_zero, Nat.mul_one]
      exact unitsOfSmall significand high
  | succ scale =>
      have leading : leadingBit ≤ significand := low.resolve_left (Nat.succ_ne_zero scale)
      have large : ¬(scale + 1) * leadingBit + significand < leadingBit := by
        unfold leadingBit at *
        omega
      have binade : ((scale + 1) * leadingBit + significand) / leadingBit - 1 = scale + 1 := by
        unfold leadingBit at *
        omega
      have bits : leadingBit + ((scale + 1) * leadingBit + significand) % leadingBit =
          significand := by
        unfold leadingBit at *
        omega
      rw [units, if_neg large, binade, bits, Nat.shiftLeft_eq]

/-- A carry out of the significand moves to the next binade. -/
theorem unitsNext (scale significand : Nat) (fits : Fits scale significand) :
    units (scale * leadingBit + significand + 1) = (significand + 1) * 2 ^ scale := by
  by_cases full : significand + 1 < 2 * leadingBit
  · rw [Nat.add_assoc]
    apply unitsFits scale (significand + 1)
    constructor
    · rcases fits.low with least | leading
      · exact .inl least
      · exact .inr (Nat.le_succ_of_le leading)
    · exact full
  · have carry : significand + 1 = 2 * leadingBit := by
      have high := fits.high
      omega
    have next : scale * leadingBit + significand + 1 = (scale + 1) * leadingBit + leadingBit := by
      rw [Nat.add_assoc, carry]
      unfold leadingBit
      omega
    rw [next, unitsFits (scale + 1) leadingBit ⟨.inr le_rfl, by decide⟩, carry, Nat.pow_succ]
    unfold leadingBit
    omega

theorem unitsStrictMono : StrictMono units := by
  apply strictMono_nat_of_lt_succ
  intro magnitude
  obtain ⟨scale, significand, fits, rfl⟩ := fitsMagnitude magnitude
  rw [unitsFits scale significand fits, unitsNext scale significand fits]
  exact Nat.mul_lt_mul_of_pos_right (Nat.lt_succ_self significand) (Nat.two_pow_pos scale)

/-- A subnormal significand is the whole magnitude, and a normal one has the leading bit. -/
def significand (magnitude : Nat) : Nat :=
  if magnitude < leadingBit then magnitude else leadingBit + magnitude % leadingBit

/--
The amount of a finite magnitude is its significand times a power of two.
The exponent fields 0 and 1 stand for the same power.
-/
def amount (magnitude : Nat) : ℚ :=
  significand magnitude * 2 ^ ((max 1 (magnitude / leadingBit) : Nat) - 1075 : ℤ)

theorem castPowerOfTwo (power : Nat) : ((2 ^ power : Nat) : ℚ) = 2 ^ power := by
  rw [Nat.cast_pow, Nat.cast_ofNat]

theorem castShift (count power : Nat) : ((count <<< power : Nat) : ℚ) = count * 2 ^ power := by
  rw [Nat.shiftLeft_eq, Nat.cast_mul, castPowerOfTwo]

theorem amountUnits (magnitude : Nat) : amount magnitude = units magnitude / 2 ^ 1074 := by
  unfold amount significand units
  by_cases small : magnitude < leadingBit
  · have field : magnitude / leadingBit = 0 := Nat.div_eq_of_lt small
    have shift : ((1 : Nat) - 1075 : ℤ) = -(1074 : Nat) := by decide
    rw [if_pos small, if_pos small, field, Nat.max_eq_left (Nat.zero_le 1), shift, zpow_neg,
      zpow_natCast, div_eq_mul_inv]
  · have field : max 1 (magnitude / leadingBit) = magnitude / leadingBit := by
      unfold leadingBit at *
      omega
    have shift : ((magnitude / leadingBit : Nat) - 1075 : ℤ) =
        ((magnitude / leadingBit - 1 : Nat) : ℤ) - (1074 : Nat) := by
      unfold leadingBit at *
      omega
    rw [if_neg small, if_neg small, field, shift, zpow_sub₀ two_ne_zero, zpow_natCast,
      zpow_natCast, castShift, mul_div_assoc]

theorem amountNonnegative (magnitude : Nat) : 0 ≤ amount magnitude := by
  rw [amountUnits]
  exact div_nonneg (Nat.cast_nonneg _) (pow_nonneg zero_le_two 1074)

/-- The signed amount of a finite value is its exact value. -/
def signedAmount (value : Float) : ℚ :=
  if isNegative value then -amount (magnitude value) else amount (magnitude value)

theorem absSignedAmount (value : Float) : |signedAmount value| = amount (magnitude value) := by
  have nonnegative := amountNonnegative (magnitude value)
  unfold signedAmount
  split
  · rw [abs_neg, abs_of_nonneg nonnegative]
  · exact abs_of_nonneg nonnegative

theorem significandEven (magnitude : Nat) :
    Even (significand magnitude) ↔ magnitude % 2 = 0 := by
  rw [Nat.even_iff]
  unfold significand leadingBit
  split <;> omega

end ExprTree.Binary64
