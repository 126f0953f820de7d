/-
This file counts the significant digits of numerals.
-/

import ExprTree.Proofs.Literal.Numeral

namespace ExprTree

namespace Digits

/-- The zeros before and after all other digits are not significant. -/
def significant (digits : Digits) : Digits :=
  ((digits.dropWhile (· = zero)).reverse.dropWhile (· = zero)).reverse

/-- A number is written with the digits of its decimal text. -/
theorem ofNumber (number : Nat) :
    ∃ digits, text digits = Nat.toDigits 10 number ∧ value digits = number := by
  obtain ⟨digits, written⟩ := ofText (Nat.toDigits 10 number)
    fun _ => Nat.isDigit_of_mem_toDigits (by decide) (by decide)
  refine ⟨digits, written, ?_⟩
  rw [← readText, written]
  exact Nat.ofDigitChars_ten_toDigits

theorem leadingZeros (digits : Digits) :
    ∃ count, digits = zeros count ++ digits.dropWhile (· = zero) := by
  induction digits with
  | nil => exact ⟨0, rfl⟩
  | cons digit rest ih =>
      by_cases none : digit = zero
      · obtain ⟨count, same⟩ := ih
        refine ⟨count + 1, ?_⟩
        rw [List.dropWhile_cons, if_pos (decide_eq_true none), none]
        exact congrArg (List.cons zero) same
      · refine ⟨0, ?_⟩
        rw [List.dropWhile_cons, if_neg (mt of_decide_eq_true none)]
        rfl

theorem dropZeros (count : Nat) (digits : Digits) :
    (zeros count ++ digits).dropWhile (· = zero) = digits.dropWhile (· = zero) :=
  List.dropWhile_append_of_pos fun _ listed =>
    decide_eq_true (List.eq_of_mem_replicate listed)

theorem zerosReverse (count : Nat) : (zeros count).reverse = zeros count :=
  List.reverse_replicate

/-- The significant digits tell the value up to a power of ten. -/
theorem significantValue (digits : Digits) :
    ∃ count, value digits = value (significant digits) * 10 ^ count := by
  obtain ⟨before, leading⟩ := leadingZeros digits
  obtain ⟨after, trailing⟩ := leadingZeros (digits.dropWhile (· = zero)).reverse
  have split := congrArg List.reverse trailing
  rw [List.reverse_reverse, List.reverse_append, zerosReverse] at split
  refine ⟨after, ?_⟩
  rw [leading, zerosBefore, split, zerosAfter, ← split, ← leading]
  rfl

theorem significantPadded (before : Nat) (digits : Digits) (after : Nat) :
    (significant (zeros before ++ (digits ++ zeros after))).length ≤ digits.length := by
  rw [significant, dropZeros, List.dropWhile_append]
  split
  case isTrue =>
    have none := dropZeros after []
    rw [List.append_nil] at none
    rw [none]
    exact Nat.zero_le _
  case isFalse =>
    rw [List.reverse_append, zerosReverse, dropZeros, List.length_reverse]
    refine (List.dropWhile_suffix _).length_le.trans ?_
    rw [List.length_reverse]
    exact (List.dropWhile_suffix _).length_le

end Digits

namespace Numeral

/-- The exponent and the point do not matter for the digits that are significant. -/
def significant (numeral : Numeral) : Digits :=
  Digits.significant (numeral.whole ++ numeral.fraction.getD [])

/-- The amount of a numeral is its significant digits times a power of ten. -/
theorem amountSignificant (numeral : Numeral) :
    ∃ exponent : ℤ, numeral.amount = numeral.significant.value * 10 ^ exponent := by
  obtain ⟨count, same⟩ :=
    Digits.significantValue (numeral.whole ++ numeral.fraction.getD [])
  refine ⟨count + numeral.decimal.exponent, ?_⟩
  rw [← decimalAmount, Decimal.amount, zpow_add₀ (by decide), zpow_natCast, ← mul_assoc]
  refine congrArg (· * (10 : ℚ) ^ numeral.decimal.exponent) ?_
  exact (congrArg Nat.cast same).trans (by push_cast; rfl)

end Numeral

end ExprTree
