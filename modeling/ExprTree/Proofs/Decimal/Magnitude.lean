/-
This file shows that a decimal is rounded correctly, however large its power of ten is.
-/

import ExprTree.Decimal.Basic
import ExprTree.Proofs.Binary64.Rounds

namespace ExprTree.Decimal
open Binary64 (Rounds castPowerOfTwo infinity nearest nearestRounds)

/-- The amount of a decimal is its exact value. -/
def amount (decimal : Decimal) : ℚ := decimal.digits * 10 ^ decimal.exponent

theorem castPowerOfTen (power : Nat) : (powerOfTen power : ℚ) = 10 ^ power :=
  (Nat.cast_pow 10 power).trans (by rw [Nat.cast_ofNat])

theorem wholeAmount (digits power : Nat) :
    amount ⟨digits, .ofNat power⟩ = (digits * powerOfTen power : Nat) := by
  rw [amount, Int.ofNat_eq_natCast, zpow_natCast, Nat.cast_mul, castPowerOfTen]

theorem fractionAmount (digits power : Nat) :
    amount ⟨digits, .negSucc power⟩ = digits / (powerOfTen (power + 1) : Nat) := by
  rw [amount, zpow_negSucc, castPowerOfTen, div_eq_mul_inv]

/-- From the 309th power of ten on every nonzero decimal is beyond the finite values. -/
theorem overflowPower (digits power : Nat) (nonzero : digits ≠ 0) (large : 309 ≤ power) :
    (2 - 2 ^ (-53 : ℤ)) * 2 ^ 1023 ≤ amount ⟨digits, .ofNat power⟩ := by
  have limit : 2 ^ 1024 ≤ digits * powerOfTen power := by
    calc 2 ^ 1024 ≤ 10 ^ 309 := by decide +kernel
      _ ≤ powerOfTen power := Nat.pow_le_pow_right (by decide) large
      _ ≤ digits * powerOfTen power := Nat.le_mul_of_pos_left _ (Nat.pos_of_ne_zero nonzero)
  have less : (2 : ℚ) - 2 ^ (-53 : ℤ) ≤ 2 := sub_le_self 2 (zpow_nonneg zero_le_two _)
  calc (2 - 2 ^ (-53 : ℤ)) * 2 ^ 1023 ≤ (2 : ℚ) * 2 ^ 1023 :=
        mul_le_mul_of_nonneg_right less (pow_nonneg zero_le_two 1023)
    _ = ((2 ^ 1024 : Nat) : ℚ) := by rw [castPowerOfTwo, ← pow_succ']
    _ ≤ ((digits * powerOfTen power : Nat) : ℚ) := Nat.cast_le.mpr limit
    _ = amount ⟨digits, .ofNat power⟩ := (wholeAmount digits power).symm

/-- Every power of ten is at least as many powers of eight, so it outweighs the digits. -/
theorem underflowPower (digits power : Nat) (small : digits.log2 + 1080 ≤ 3 * (power + 1)) :
    amount ⟨digits, .negSucc power⟩ ≤ 2 ^ (-1075 : ℤ) := by
  have limit : digits * 2 ^ 1075 ≤ powerOfTen (power + 1) := by
    calc digits * 2 ^ 1075 ≤ 2 ^ (digits.log2 + 1) * 2 ^ 1075 :=
          Nat.mul_le_mul_right _ Nat.lt_log2_self.le
      _ = 2 ^ (digits.log2 + 1 + 1075) := by rw [Nat.pow_add 2 (digits.log2 + 1)]
      _ ≤ 2 ^ (3 * (power + 1)) := Nat.pow_le_pow_right Nat.two_pos (by omega)
      _ = 8 ^ (power + 1) := Nat.pow_mul 2 3 (power + 1)
      _ ≤ powerOfTen (power + 1) := Nat.pow_le_pow_left (by decide) _
  have divisor : (0 : ℚ) < (powerOfTen (power + 1) : Nat) := by
    rw [castPowerOfTen]
    exact pow_pos (by decide) _
  have scaled : (digits : ℚ) * 2 ^ 1075 ≤ (powerOfTen (power + 1) : Nat) := by
    calc (digits : ℚ) * 2 ^ 1075 = ((digits * 2 ^ 1075 : Nat) : ℚ) := by
          rw [Nat.cast_mul, castPowerOfTwo]
      _ ≤ (powerOfTen (power + 1) : Nat) := Nat.cast_le.mpr limit
  rw [fractionAmount, zpow_neg, div_le_iff₀ divisor, ← div_eq_inv_mul,
    le_div_iff₀ (zpow_pos two_pos _)]
  exact scaled

/-- The shortcuts for far powers of ten agree with the rounding they avoid. -/
theorem magnitudeRounds (decimal : Decimal) : Rounds decimal.amount decimal.magnitude := by
  obtain ⟨digits, exponent⟩ := decimal
  cases exponent with
  | ofNat power =>
      have rounds := nearestRounds (digits * powerOfTen power) 1 Nat.one_pos
      rw [Nat.cast_one, div_one, ← wholeAmount] at rounds
      show Rounds _ (if digits = 0 then 0 else if 309 ≤ power then infinity else _)
      by_cases zero : digits = 0
      · have none : amount ⟨digits, .ofNat power⟩ ≤ 2 ^ (-1075 : ℤ) := by
          rw [wholeAmount, zero, Nat.zero_mul, Nat.cast_zero]
          exact zpow_nonneg zero_le_two _
        rw [if_pos zero, ← rounds.underflow.mpr none]
        exact rounds
      · rw [if_neg zero]
        by_cases large : 309 ≤ power
        · rw [if_pos large, ← rounds.overflow.mpr (overflowPower digits power zero large)]
          exact rounds
        · rw [if_neg large]
          exact rounds
  | negSucc power =>
      have rounds := nearestRounds digits (powerOfTen (power + 1)) (Nat.pow_pos (Nat.succ_pos 9))
      rw [← fractionAmount] at rounds
      show Rounds _ (if digits.log2 + 1080 ≤ 3 * (power + 1) then 0 else _)
      by_cases small : digits.log2 + 1080 ≤ 3 * (power + 1)
      · rw [if_pos small, ← rounds.underflow.mpr (underflowPower digits power small)]
        exact rounds
      · rw [if_neg small]
        exact rounds

end ExprTree.Decimal
