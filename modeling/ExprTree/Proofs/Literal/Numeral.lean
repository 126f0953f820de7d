/-
This file gives the syntax and the exact amount of decimal numerals.
-/

import ExprTree.Literal
import ExprTree.Proofs.Decimal.Magnitude
import Mathlib.Tactic.FieldSimp
import Mathlib.Tactic.Ring

namespace ExprTree

/-- Digits count from the highest to the lowest. -/
abbrev Digits : Type := List (Fin 10)

namespace Digits

def text (digits : Digits) : List Char := digits.map fun digit => digit.val.digitChar

/-- Every digit counts ten times as much as the one after it. -/
def value : Digits → Nat
  | [] => 0
  | digit :: rest => digit * 10 ^ rest.length + value rest

theorem textAppend (first second : Digits) : text (first ++ second) = text first ++ text second :=
  List.map_append

theorem textLength (digits : Digits) : (text digits).length = digits.length :=
  List.length_map _

theorem textEmpty (digits : Digits) : text digits = [] ↔ digits = [] :=
  List.map_eq_nil_iff

theorem textDigit (digits : Digits) : ∀ character ∈ text digits, character.isDigit = true := by
  intro character listed
  obtain ⟨digit, _, rfl⟩ := List.mem_map.mp listed
  rw [Nat.isDigit_digitChar]
  exact decide_eq_true digit.isLt

theorem lowerDigit (digit : Fin 10) : digit.val.digitChar.toLower = digit.val.digitChar := by
  revert digit
  decide

theorem ofDigit (character : Char) (decimal : character.isDigit = true) :
    ∃ digit : Fin 10, digit.val.digitChar = character := by
  obtain ⟨low, high⟩ := Char.isDigit_iff_toNat.mp decimal
  have code : ∀ digit : Fin 10, digit.val.digitChar.toNat = '0'.toNat + digit.val := by decide
  have zero : '0'.toNat = 48 := rfl
  have nine : '9'.toNat = 57 := rfl
  use ⟨character.toNat - '0'.toNat, by omega⟩
  apply Char.toNat_inj.mp
  rw [code]
  exact Nat.add_sub_cancel' low

/-- Every text of digit characters is written with digits. -/
theorem ofText (characters : List Char)
    (listed : ∀ character ∈ characters, character.isDigit = true) :
    ∃ digits, text digits = characters := by
  induction characters with
  | nil => exact ⟨[], rfl⟩
  | cons character rest inductionHypothesis =>
      obtain ⟨digits, same⟩ :=
        inductionHypothesis fun other later => listed other (List.mem_cons_of_mem _ later)
      obtain ⟨digit, written⟩ := ofDigit character (listed character List.mem_cons_self)
      exact ⟨digit :: digits, congrArg₂ List.cons written same⟩

theorem valueAppend (first second : Digits) :
    value (first ++ second) = value first * 10 ^ second.length + value second := by
  induction first with
  | nil => simp [value]
  | cons digit rest inductionHypothesis =>
      rw [List.cons_append, value, inductionHypothesis, value, List.length_append, Nat.pow_add,
        Nat.add_mul, Nat.mul_assoc, Nat.add_assoc]

/-- The digits before weigh as much as the rest is long. -/
theorem readFrom (start : Nat) (digits : Digits) :
    Nat.ofDigitChars 10 (text digits) start = start * 10 ^ digits.length + value digits := by
  induction digits generalizing start with
  | nil => simp [text, value]
  | cons digit rest inductionHypothesis =>
      rw [text, List.map_cons, Nat.ofDigitChars_cons_digitChar_of_lt_ten digit.isLt]
      rw [text] at inductionHypothesis
      rw [inductionHypothesis, value, List.length_cons, Nat.pow_succ]
      ring

theorem readText (digits : Digits) : Literal.wholeNumber (text digits) = value digits := by
  rw [Literal.wholeNumber, readFrom, Nat.zero_mul, Nat.zero_add]

def zero : Fin 10 := ⟨0, Nat.succ_pos 9⟩

def zeros (count : Nat) : Digits := List.replicate count zero

theorem zerosText (count : Nat) : text (zeros count) = List.replicate count '0' :=
  List.map_replicate

theorem zerosValue (count : Nat) : value (zeros count) = 0 := by
  induction count with
  | zero => rfl
  | succ count ih =>
      rw [zeros, List.replicate_succ, value]
      exact (Nat.add_eq_zero_iff).mpr ⟨Nat.zero_mul _, ih⟩

theorem zerosBefore (count : Nat) (digits : Digits) :
    value (zeros count ++ digits) = value digits := by
  rw [valueAppend, zerosValue, Nat.zero_mul, Nat.zero_add]

theorem zerosAfter (digits : Digits) (count : Nat) :
    value (digits ++ zeros count) = value digits * 10 ^ count := by
  rw [valueAppend, zerosValue, zeros, List.length_replicate, Nat.add_zero]

theorem valueBound (digits : Digits) : value digits < 10 ^ digits.length := by
  induction digits with
  | nil => exact Nat.one_pos
  | cons digit rest ih =>
      have small := digit.isLt
      rw [value, List.length_cons, Nat.pow_succ']
      calc _ < (digit : Nat) * 10 ^ rest.length + 10 ^ rest.length := Nat.add_lt_add_left ih _
        _ = ((digit : Nat) + 1) * 10 ^ rest.length := (Nat.succ_mul _ _).symm
        _ ≤ 10 * 10 ^ rest.length := Nat.mul_le_mul_right _ small

end Digits

/-- A sign can be left out. -/
inductive Mark where
  | absent
  | plus
  | minus
deriving DecidableEq, Repr

def Mark.text : Mark → List Char
  | .absent => []
  | .plus => ['+']
  | .minus => ['-']

namespace Numeral

/-- An exponent has at least one digit after its letter and its sign. -/
structure Exponent where
  capital : Bool
  sign : Mark
  digits : Digits
  present : digits ≠ []

namespace Exponent

def text (exponent : Exponent) : List Char :=
  (if exponent.capital then 'E' else 'e') :: exponent.sign.text ++ exponent.digits.text

def value (exponent : Exponent) : ℤ :=
  if exponent.sign = .minus then -exponent.digits.value else exponent.digits.value

end Exponent

/-- A fraction is a point with the digits after it. -/
def fractionText : Option Digits → List Char
  | none => []
  | some digits => '.' :: digits.text

def exponentText : Option Exponent → List Char
  | none => []
  | some exponent => exponent.text

end Numeral

/-- A numeral has a digit before its point or after it, and every other part can be left out. -/
structure Numeral where
  sign : Mark
  whole : Digits
  fraction : Option Digits
  exponent : Option Numeral.Exponent
  present : whole ++ fraction.getD [] ≠ []

namespace Numeral

def unsigned (numeral : Numeral) : List Char :=
  numeral.whole.text ++ (fractionText numeral.fraction ++ exponentText numeral.exponent)

def text (numeral : Numeral) : List Char := numeral.sign.text ++ numeral.unsigned

/-- The amount of a numeral is its exact value without the sign. -/
def amount (numeral : Numeral) : ℚ :=
  let fraction := numeral.fraction.getD []
  (numeral.whole.value + fraction.value / 10 ^ fraction.length) *
    10 ^ (numeral.exponent.elim 0 Exponent.value)

/-- The digits after the point count as many powers of ten less. -/
def decimal (numeral : Numeral) : Decimal :=
  let fraction := numeral.fraction.getD []
  ⟨Digits.value (numeral.whole ++ fraction),
    numeral.exponent.elim 0 Exponent.value - fraction.length⟩

theorem decimalAmount (numeral : Numeral) : numeral.decimal.amount = numeral.amount := by
  have ten : (10 : ℚ) ≠ 0 := by decide
  unfold decimal amount Decimal.amount
  simp only
  generalize numeral.fraction.getD [] = fraction
  rw [Digits.valueAppend, zpow_sub₀ ten, zpow_natCast]
  push_cast
  field_simp

/-- Numerals are written with digits, signs, a point and the letters of exponents. -/
def alphabet : List Char := "0123456789+-.eE".toList

theorem markAlphabet (sign : Mark) : sign.text ⊆ alphabet := by
  cases sign <;> decide

theorem digitsAlphabet (digits : Digits) : digits.text ⊆ alphabet := by
  have each : ∀ digit : Fin 10, digit.val.digitChar ∈ alphabet := by decide
  intro character member
  obtain ⟨digit, _, rfl⟩ := List.mem_map.mp member
  exact each digit

theorem textAlphabet (numeral : Numeral) : numeral.text ⊆ alphabet := by
  have fraction : fractionText numeral.fraction ⊆ alphabet := by
    cases numeral.fraction with
    | none => exact List.nil_subset _
    | some digits => exact List.cons_subset.mpr ⟨by decide, digitsAlphabet digits⟩
  have exponent : exponentText numeral.exponent ⊆ alphabet := by
    cases numeral.exponent with
    | none => exact List.nil_subset _
    | some exponent =>
        refine List.cons_subset.mpr ⟨?_, List.append_subset.mpr
          ⟨markAlphabet exponent.sign, digitsAlphabet exponent.digits⟩⟩
        cases exponent.capital <;> decide
  rw [text, unsigned, List.append_subset, List.append_subset, List.append_subset]
  exact ⟨markAlphabet numeral.sign, digitsAlphabet numeral.whole, fraction, exponent⟩

end Numeral

end ExprTree
