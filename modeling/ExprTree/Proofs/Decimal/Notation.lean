/-
This file shows that the texts of decimals are numerals of the same amount.
-/

import ExprTree.Decimal.Notation
import ExprTree.Proofs.Literal.Significant

namespace ExprTree.Decimal

/-- A numeral writes a decimal with the same amount and with no more significant digits. -/
structure Writes (decimal : Decimal) (numeral : Numeral) : Prop where
  amount : numeral.amount = decimal.amount
  significant : numeral.significant.length ≤ (Nat.toDigits 10 decimal.digits).length

/-- Zeros around the digits of a decimal only move its point. -/
theorem writesPadded (decimal : Decimal) (numeral : Numeral) (digits : Digits)
    (written : digits.text = Nat.toDigits 10 decimal.digits) (before after : Nat)
    (padded : numeral.whole ++ numeral.fraction.getD [] =
      Digits.zeros before ++ (digits ++ Digits.zeros after))
    (moved : numeral.decimal.exponent + after = decimal.exponent) : decimal.Writes numeral := by
  have value : digits.value = decimal.digits := by
    rw [← Digits.readText, written]
    exact Nat.ofDigitChars_ten_toDigits
  constructor
  · have whole : numeral.decimal.digits = decimal.digits * 10 ^ after := by
      show Digits.value (numeral.whole ++ numeral.fraction.getD []) = _
      rw [padded, Digits.zerosBefore, Digits.zerosAfter, value]
    rw [← Numeral.decimalAmount, amount, amount, whole, ← moved, add_comm,
      zpow_add₀ (by decide), zpow_natCast, ← mul_assoc]
    push_cast
    rfl
  · rw [Numeral.significant, padded, ← written, Digits.textLength]
    exact Digits.significantPadded before digits after

/-- An exponent is written with the letter e and without a plus sign. -/
theorem exponentNumeral (exponent : ℤ) : ∃ written : Numeral.Exponent,
    written.text = 'e' :: exponentText exponent ∧ written.value = exponent := by
  obtain ⟨digits, written, value⟩ := Digits.ofNumber exponent.natAbs
  have present : digits ≠ [] := by
    rw [ne_eq, ← Digits.textEmpty, written]
    exact Nat.toDigits_ne_nil
  by_cases negative : exponent < 0
  · refine ⟨⟨false, .minus, digits, present⟩, ?_, ?_⟩
    · rw [exponentText, if_pos negative, ← written]
      rfl
    · show -(digits.value : ℤ) = exponent
      omega
  · refine ⟨⟨false, .absent, digits, present⟩, ?_, ?_⟩
    · rw [exponentText, if_neg negative, ← written]
      rfl
    · show (digits.value : ℤ) = exponent
      omega

section Text
variable (decimal : Decimal) (sign : Mark) (digits : Digits)
  (written : digits.text = Nat.toDigits 10 decimal.digits)

include written

theorem digitsPresent : digits ≠ [] := by
  rw [ne_eq, ← Digits.textEmpty, written]
  exact Nat.toDigits_ne_nil

theorem positionDigits : decimal.position = decimal.exponent + digits.length := by
  rw [position, ← written, Digits.textLength]

/-- Digits with a point and padded with zeros write a decimal when its exponent fits. -/
theorem plainNumeral (whole fraction : Digits) (before after : Nat)
    (padded : whole ++ fraction = Digits.zeros before ++ (digits ++ Digits.zeros after))
    (moved : after - (fraction.length : ℤ) = decimal.exponent) :
    ∃ numeral : Numeral, numeral.sign = sign ∧ numeral.exponent = none ∧
      numeral.unsigned = whole.text ++ '.' :: fraction.text ∧ decimal.Writes numeral := by
  have present : whole ++ fraction ≠ [] := by
    rw [padded]
    exact List.append_ne_nil_of_right_ne_nil _
      (List.append_ne_nil_of_left_ne_nil (decimal.digitsPresent digits written) _)
  refine ⟨⟨sign, whole, some fraction, none, present⟩, rfl, rfl, ?_, ?_⟩
  · exact congrArg (whole.text ++ '.' :: ·) (List.append_nil fraction.text)
  · refine decimal.writesPadded _ digits written before after padded ?_
    show 0 - (fraction.length : ℤ) + after = decimal.exponent
    omega

/-- The point stands before the digits, after the zeros behind them or between them. -/
theorem positionalNumeral : ∃ numeral : Numeral, numeral.sign = sign ∧
    numeral.exponent = none ∧ numeral.unsigned = decimal.positional ∧ decimal.Writes numeral := by
  have position := decimal.positionDigits digits written
  have plain := decimal.plainNumeral sign digits written
  unfold positional
  rw [← written]
  split
  case h_1 zero =>
    have start : decimal.position = 0 := zero
    refine plain [Digits.zero] digits 1 0 ?_ (by omega)
    exact congrArg (List.cons Digits.zero) (List.append_nil digits).symm
  case h_2 gap negative =>
    have start : decimal.position = -(gap + 1 : ℤ) := negative.trans (Int.negSucc_eq gap)
    have text : '0' :: '.' :: zeros (gap + 1) ++ digits.text =
        Digits.text [Digits.zero] ++ '.' :: Digits.text (Digits.zeros (gap + 1) ++ digits) := by
      rw [Digits.textAppend, Digits.zerosText]
      rfl
    rw [text]
    refine plain [Digits.zero] (Digits.zeros (gap + 1) ++ digits) (gap + 2) 0 ?_ ?_
    · exact congrArg (List.cons Digits.zero <| Digits.zeros (gap + 1) ++ ·)
        (List.append_nil digits).symm
    · rw [List.length_append, Digits.zeros, List.length_replicate]
      omega
  case h_3 place _ positive =>
    have start : decimal.position = place := positive
    simp only [Digits.textLength]
    split
    case isTrue short =>
      have text : digits.text ++ zeros (place - digits.length) ++ ['.', '0'] =
          Digits.text (digits ++ Digits.zeros (place - digits.length)) ++
            '.' :: Digits.text [Digits.zero] := by
        rw [Digits.textAppend, Digits.zerosText]
        rfl
      rw [text]
      refine plain _ [Digits.zero] 0 (place - digits.length + 1) ?_ ?_
      · show digits ++ Digits.zeros _ ++ [Digits.zero] = digits ++ Digits.zeros _
        rw [Digits.zeros, Digits.zeros, List.replicate_succ', List.append_assoc]
      · rw [List.length_singleton]
        omega
    case isFalse long =>
      have text : digits.text.take place ++ '.' :: digits.text.drop place =
          Digits.text (digits.take place) ++ '.' :: Digits.text (digits.drop place) := by
        rw [Digits.text, Digits.text, Digits.text, List.map_take, List.map_drop]
      rw [text]
      refine plain (digits.take place) (digits.drop place) 0 0 ?_ ?_
      · show digits.take place ++ digits.drop place = digits ++ []
        rw [List.take_append_drop, List.append_nil]
      · rw [List.length_drop]
        omega

theorem scientificNumeral : ∃ numeral : Numeral, numeral.sign = sign ∧
    numeral.exponent ≠ none ∧ numeral.unsigned = decimal.scientific ∧
      decimal.Writes numeral := by
  have position := decimal.positionDigits digits written
  obtain ⟨exponent, text, value⟩ := exponentNumeral (decimal.position - 1)
  unfold scientific
  rw [← written, ← text]
  match digits, decimal.digitsPresent digits written with
  | [first], present =>
      refine ⟨⟨sign, [first], none, some exponent, present⟩, rfl, nofun, rfl, ?_⟩
      refine decimal.writesPadded _ [first] written 0 0 (List.append_nil _).symm ?_
      show exponent.value - ((0 : Nat) : ℤ) + 0 = decimal.exponent
      rw [List.length_singleton] at position
      omega
  | first :: second :: rest, _ =>
      refine ⟨⟨sign, [first], some (second :: rest), some exponent, nofun⟩, rfl, nofun, rfl, ?_⟩
      refine decimal.writesPadded _ (first :: second :: rest) written 0 0
        (List.append_nil _).symm ?_
      show exponent.value - ((rest.length + 1 : Nat) : ℤ) + 0 = decimal.exponent
      rw [List.length_cons, List.length_cons] at position
      omega

end Text

/-- The position of the point chooses between the two notations. -/
theorem textNumeral (decimal : Decimal) (sign : Mark) : ∃ numeral : Numeral,
    numeral.sign = sign ∧
      (numeral.exponent = none ↔ -3 ≤ decimal.position ∧ decimal.position ≤ 16) ∧
      numeral.unsigned = decimal.text ∧ decimal.Writes numeral := by
  obtain ⟨digits, written, _⟩ := Digits.ofNumber decimal.digits
  unfold text
  by_cases near : -3 ≤ decimal.position ∧ decimal.position ≤ 16
  · obtain ⟨numeral, signed, plain, text, writes⟩ :=
      decimal.positionalNumeral sign digits written
    refine ⟨numeral, signed, iff_of_true plain near, ?_, writes⟩
    rw [text, if_pos near]
  · obtain ⟨numeral, signed, scaled, text, writes⟩ :=
      decimal.scientificNumeral sign digits written
    refine ⟨numeral, signed, iff_of_false scaled near, ?_, writes⟩
    rw [text, if_neg near]

/-- A number lies between two powers of ten that its count of digits tells. -/
theorem digitCount (number : Nat) (positive : 0 < number) :
    10 ^ ((Nat.toDigits 10 number).length - 1) ≤ number ∧
      number < 10 ^ (Nat.toDigits 10 number).length := by
  constructor
  · by_contra less
    rcases Nat.eq_zero_or_pos ((Nat.toDigits 10 number).length - 1) with single | several
    · rw [single] at less
      exact less positive
    · have shorter := (Nat.length_toDigits_le_iff (by decide) several).mpr (Nat.not_le.mp less)
      omega
  · exact (Nat.length_toDigits_le_iff (by decide) Nat.length_toDigits_pos).mp le_rfl

theorem positionAmount (decimal : Decimal) (positive : 0 < decimal.digits) (bound : ℤ) :
    bound < decimal.position ↔ 10 ^ bound ≤ decimal.amount := by
  have ten : (1 : ℚ) ≤ 10 := by decide
  have present := Nat.length_toDigits_pos (b := 10) (n := decimal.digits)
  obtain ⟨lower, upper⟩ := digitCount decimal.digits positive
  unfold position amount
  generalize (Nat.toDigits 10 decimal.digits).length = length at *
  constructor
  · intro before
    calc (10 : ℚ) ^ bound ≤ 10 ^ ((length - 1 : Nat) + decimal.exponent) :=
          zpow_le_zpow_right₀ ten (by omega)
      _ = 10 ^ (length - 1) * 10 ^ decimal.exponent := by
          rw [zpow_add₀ (by decide), zpow_natCast]
      _ ≤ decimal.digits * 10 ^ decimal.exponent :=
          mul_le_mul_of_nonneg_right (by exact_mod_cast lower) (zpow_nonneg (by decide) _)
  · intro reached
    by_contra after
    refine absurd reached (not_le.mpr ?_)
    calc (decimal.digits : ℚ) * 10 ^ decimal.exponent < 10 ^ length * 10 ^ decimal.exponent :=
          mul_lt_mul_of_pos_right (by exact_mod_cast upper) (zpow_pos (by decide) _)
      _ = 10 ^ (length + decimal.exponent) := by rw [zpow_add₀ (by decide), zpow_natCast]
      _ ≤ 10 ^ bound := zpow_le_zpow_right₀ ten (by omega)

end ExprTree.Decimal
