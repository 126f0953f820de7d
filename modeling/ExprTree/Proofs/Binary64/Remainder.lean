/-
This file shows that the remainder of a truncated division is exact.
-/

import ExprTree.Proofs.Binary64.Order
import ExprTree.Standard.BinaryOp
import Mathlib.Data.Rat.Floor
import Mathlib.Tactic.Ring

namespace ExprTree

namespace Binary64

/-- A short number has no more significant bits than a significand. -/
def Short (count : Nat) : Prop :=
  ∃ scale digits, count = digits * 2 ^ scale ∧ digits < 2 * leadingBit

theorem shortUnits (magnitude : Nat) : Short (units magnitude) := by
  obtain ⟨scale, digits, fits, rfl⟩ := fitsMagnitude magnitude
  exact ⟨scale, digits, unitsFits scale digits fits, fits.high⟩

/-- A remainder is a multiple of the lower scale, and at that scale it is below one operand. -/
theorem shortRemainder {top bottom : Nat} (first : Short top) (second : Short bottom)
    (positive : 0 < bottom) : Short (top % bottom) := by
  obtain ⟨high, digits, rfl, few⟩ := first
  obtain ⟨low, others, rfl, fewOthers⟩ := second
  rcases Nat.le_total high low with below | above
  · refine ⟨high, digits % (others * 2 ^ (low - high)), ?_, (Nat.mod_le _ _).trans_lt few⟩
    rw [← Nat.pow_sub_mul_pow 2 below, ← Nat.mul_assoc, Nat.mul_mod_mul_right]
  · have present : 0 < others := Nat.pos_of_mul_pos_right positive
    refine ⟨low, digits * 2 ^ (high - low) % others, ?_, (Nat.mod_lt _ present).trans fewOthers⟩
    rw [← Nat.pow_sub_mul_pow 2 above, ← Nat.mul_assoc, Nat.mul_mod_mul_right]

/-- A short number of units belongs to a magnitude without rounding. -/
theorem unitsOfUnits {count : Nat} (short : Short count) : units (ofUnits count) = count := by
  obtain ⟨scale, digits, same, few⟩ := short
  have bound : count.log2 - 52 ≤ scale := by
    by_cases none : count = 0
    · rw [none]
      exact Nat.zero_le scale
    · have length : count.log2 < 53 + scale := by
        rw [Nat.log2_lt none, same, Nat.pow_add]
        exact Nat.mul_lt_mul_of_pos_right few (Nat.two_pow_pos scale)
      omega
  have whole : 2 ^ (count.log2 - 52) ∣ count :=
    (Nat.pow_dvd_pow 2 bound).trans (Dvd.intro_left digits same.symm)
  have fits := scaleFits count 1
  rw [Nat.div_one, Nat.shiftLeft_eq, Nat.one_mul] at fits
  rw [ofUnits, Nat.shiftRight_eq_div_pow, unitsFits _ _ fits, Nat.div_mul_cancel whole]

/-- A finite dividend has a truncated quotient by each number other than zero. -/
theorem remainderDefined (dividend divisor : Float) (finite : magnitude dividend < infinity)
    (present : 0 < magnitude divisor) (number : magnitude divisor ≤ infinity) :
    remainder dividend divisor =
      if magnitude divisor = infinity then dividend
      else ofMagnitude (isNegative dividend)
        (ofUnits (units (magnitude dividend) % units (magnitude divisor))) :=
  if_neg (by omega)

/-- The remainder keeps the sign and divides the units. -/
structure Leaves (dividend divisor result : Float) : Prop where
  sign : isNegative result = isNegative dividend
  below : magnitude result < magnitude divisor
  rest : units (magnitude result) = units (magnitude dividend) % units (magnitude divisor)

theorem remainderLeaves (dividend divisor : Float) (finite : magnitude dividend < infinity)
    (present : 0 < magnitude divisor) (bounded : magnitude divisor < infinity) :
    Leaves dividend divisor (remainder dividend divisor) := by
  have positive : 0 < units (magnitude divisor) :=
    (Nat.zero_le _).trans_lt (unitsStrictMono present)
  have exact := unitsOfUnits (shortRemainder (shortUnits (magnitude dividend))
    (shortUnits (magnitude divisor)) positive)
  have below : ofUnits (units (magnitude dividend) % units (magnitude divisor)) <
      magnitude divisor := by
    rw [← unitsStrictMono.lt_iff_lt, exact]
    exact Nat.mod_lt _ positive
  have result := remainderDefined dividend divisor finite present bounded.le
  rw [if_neg bounded.ne] at result
  have number := (below.trans bounded).le
  constructor
  · rw [result, isNegativeOfMagnitude _ _ number]
  · rwa [result, magnitudeOfMagnitude _ _ number]
  · rw [result, magnitudeOfMagnitude _ _ number, exact]

/-- Truncation goes toward zero. -/
def truncated (quotient : ℚ) : ℤ := if quotient < 0 then ⌈quotient⌉ else ⌊quotient⌋

theorem truncatedNegate (quotient : ℚ) : truncated (-quotient) = -truncated quotient := by
  unfold truncated
  rcases lt_trichotomy quotient 0 with below | rfl | above
  · rw [if_neg (by linarith), if_pos below, Int.floor_neg]
  · rfl
  · rw [if_pos (by linarith), if_neg (by linarith), Int.ceil_neg]

theorem truncatedQuotient (top bottom : Nat) :
    truncated (top / bottom) = (top / bottom : Nat) := by
  have nonnegative : (0 : ℚ) ≤ top / bottom := div_nonneg (Nat.cast_nonneg _) (Nat.cast_nonneg _)
  rw [truncated, if_neg nonnegative.not_gt, Rat.floor_natCast_div_natCast]
  rfl

section Leaves
variable {dividend divisor result : Float}

theorem Leaves.amountRest (leaves : Leaves dividend divisor result) :
    amount (magnitude result) = amount (magnitude dividend) - amount (magnitude divisor) *
      truncated (amount (magnitude dividend) / amount (magnitude divisor)) := by
  have one : (2 : ℚ) ^ 1074 ≠ 0 := pow_ne_zero 1074 two_ne_zero
  have split := Nat.div_add_mod (units (magnitude dividend)) (units (magnitude divisor))
  rw [← leaves.rest] at split
  rw [amountUnits, amountUnits, amountUnits, div_div_div_cancel_right₀ one, truncatedQuotient,
    Int.cast_natCast]
  generalize units (magnitude dividend) / units (magnitude divisor) = quotient at split ⊢
  generalize (2 : ℚ) ^ 1074 = scale
  rw [← split, Nat.cast_add, Nat.cast_mul]
  ring

/-- Both signs cancel in the quotient, and the sign of the dividend is left. -/
theorem Leaves.exact (leaves : Leaves dividend divisor result) :
    signedAmount result = signedAmount dividend - signedAmount divisor *
      truncated (signedAmount dividend / signedAmount divisor) := by
  unfold signedAmount
  rw [leaves.sign, leaves.amountRest]
  cases isNegative dividend with
  | false =>
      cases isNegative divisor with
      | false => rfl
      | true =>
          simp only [Bool.false_eq_true, if_false, if_true]
          rw [div_neg, truncatedNegate, Int.cast_neg, neg_mul_neg]
  | true =>
      cases isNegative divisor with
      | false =>
          simp only [Bool.false_eq_true, if_false, if_true]
          rw [neg_div, truncatedNegate, Int.cast_neg]
          ring
      | true =>
          simp only [if_true]
          rw [neg_div_neg_eq]
          ring

/-- A remainder of zero is the zero with the sign of the dividend. -/
theorem Leaves.zero (leaves : Leaves dividend divisor result) (none : signedAmount result = 0) :
    result = if isNegative dividend then -0.0 else 0.0 := by
  have empty : magnitude result = 0 := by
    apply amountStrictMono.injective
    rw [← absSignedAmount, none, abs_zero, amountZero]
  apply eqOfMagnitude
  · rw [leaves.sign]
    cases isNegative dividend <;> rfl
  · rw [empty]
    cases isNegative dividend <;> rfl

end Leaves

theorem remainderLimit (dividend divisor : Float) (finite : magnitude dividend < infinity)
    (limit : magnitude divisor = infinity) : remainder dividend divisor = dividend := by
  have present : 0 < magnitude divisor := limit ▸ by decide
  rw [remainderDefined dividend divisor finite present limit.le, if_pos limit]

theorem remainderNotANumber (dividend divisor : Float) :
    (remainder dividend divisor).isNaN = true ↔
      magnitude dividend = infinity ∨ magnitude divisor = 0 ∨ dividend.isNaN = true ∨
        divisor.isNaN = true := by
  rw [isNaNMagnitude, isNaNMagnitude, isNaNMagnitude]
  by_cases undefined : infinity ≤ magnitude dividend ∨ magnitude divisor = 0 ∨
      infinity < magnitude divisor
  · have result : remainder dividend divisor = notANumber := by
      rw [remainder]
      exact if_pos undefined
    rw [result]
    exact iff_of_true (by decide) (by omega)
  · refine iff_of_false ?_ (by omega)
    by_cases limit : magnitude divisor = infinity
    · rw [remainderLimit dividend divisor (by omega) limit]
      omega
    · have leaves := remainderLeaves dividend divisor (by omega) (by omega) (by omega)
      have below := leaves.below
      omega

end Binary64

open Binary64 (infinity isNegative magnitude signedAmount truncated)

/--
The remainder of finite numbers is their exact truncated remainder and has the sign of the dividend.
A finite dividend is its own remainder by infinity, and without a truncated quotient there is none.
-/
theorem remaindersAreExact (dividend divisor : Float) :
    let result := BinaryOp.rem.apply dividend divisor
    (magnitude dividend < infinity → 0 < magnitude divisor → magnitude divisor < infinity →
      magnitude result < infinity ∧
      signedAmount result = signedAmount dividend - signedAmount divisor *
        truncated (signedAmount dividend / signedAmount divisor) ∧
      |signedAmount result| < |signedAmount divisor| ∧
      isNegative result = isNegative dividend ∧
      (signedAmount result = 0 → result = if isNegative dividend then -0.0 else 0.0)) ∧
    (magnitude dividend < infinity → magnitude divisor = infinity → result = dividend) ∧
    (result.isNaN = true ↔ magnitude dividend = infinity ∨ magnitude divisor = 0 ∨
      dividend.isNaN = true ∨ divisor.isNaN = true) := by
  intro result
  refine ⟨fun finite present bounded => ?_, fun finite limit => ?_,
    Binary64.remainderNotANumber dividend divisor⟩
  · have leaves := Binary64.remainderLeaves dividend divisor finite present bounded
    refine ⟨leaves.below.trans bounded, leaves.exact, ?_, leaves.sign, leaves.zero⟩
    rw [Binary64.absSignedAmount, Binary64.absSignedAmount]
    exact Binary64.amountStrictMono leaves.below
  · exact Binary64.remainderLimit dividend divisor finite limit

/-- A power of two leaves two units by three of them, although the quotient has 2096 bits. -/
theorem remaindersAreExactFar :
    let dividend := Binary64.ofMagnitude true 0x7fe0000000000000
    let divisor := Binary64.ofMagnitude false 3
    let result := BinaryOp.rem.apply dividend divisor
    result = Binary64.ofMagnitude true 2 ∧
      signedAmount result = signedAmount dividend - signedAmount divisor *
        truncated (signedAmount dividend / signedAmount divisor) ∧
      BinaryOp.rem.apply dividend (Binary64.ofMagnitude true infinity) = dividend := by
  have finite : magnitude (Binary64.ofMagnitude true 0x7fe0000000000000) < infinity := by
    rw [Binary64.magnitudeOfMagnitude true _ (by decide)]
    decide
  have three : magnitude (Binary64.ofMagnitude false 3) = 3 :=
    Binary64.magnitudeOfMagnitude false 3 (by decide)
  have limit : magnitude (Binary64.ofMagnitude true infinity) = infinity :=
    Binary64.magnitudeOfMagnitude true infinity le_rfl
  intro dividend divisor result
  obtain ⟨ordinary, _, _⟩ := remaindersAreExact dividend divisor
  obtain ⟨_, kept, _⟩ := remaindersAreExact dividend (Binary64.ofMagnitude true infinity)
  obtain ⟨_, exact, _⟩ := ordinary finite (three ▸ by decide) (three ▸ by decide)
  exact ⟨by decide +kernel, exact, kept finite limit⟩

end ExprTree
