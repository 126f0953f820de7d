/-
This file shows that comparison follows the order of the exact values.
-/

import ExprTree.Proofs.Binary64.Rounds
import ExprTree.Proofs.Binary64.Truth
import Mathlib.Data.Int.ConditionallyCompleteOrder
import Mathlib.Order.Monotone.Odd
import Mathlib.Order.WithBot

namespace ExprTree.Binary64

open Float.Model (Format UnpackedFloat)
open Float.Model.UnpackedFloat

/-- A number of this sign and magnitude unpacks into a zero, a finite value or an infinity. -/
inductive Unpacks (sign : Sign) : Nat → UnpackedFloat → Prop where
  | zero : Unpacks sign 0 (.zero sign)
  | finite (magnitude : Nat) (present : 0 < magnitude) (bounded : magnitude < infinity)
      (positive : 0 < significand magnitude) :
      Unpacks sign magnitude (.finite sign (significand magnitude)
        ((max 1 (magnitude / leadingBit) : Nat) - 1075) positive)
  | limit : Unpacks sign infinity (.infinity sign)

theorem Unpacks.ofFinite {sign : Sign} {size digits : Nat} {exponent : ℤ} (positive : 0 < digits)
    (present : 0 < size) (bounded : size < infinity) (same : significand size = digits)
    (field : ((max 1 (size / leadingBit) : Nat) : ℤ) - 1075 = exponent) :
    Unpacks sign size (.finite sign digits exponent positive) := by
  subst same field
  exact .finite size present bounded positive

def signOf (value : Float) : Sign := if isNegative value then .negative else .positive

theorem unpackSignOf (value : Float) :
    Sign.ofBitVec (@unpackSign Format.binary64 value.toBits.toBitVec) = signOf value := by
  have field := signField value.toBits.toBitVec
  have bounded := value.toBits.toNat_lt
  change _ = value.toBits.toNat / signBit at field
  unfold signOf isNegative
  by_cases negative : signBit ≤ value.toBits.toNat
  · have one : @unpackSign Format.binary64 value.toBits.toBitVec ≠ 0#1 := by
      intro zero
      rw [zero, BitVec.toNat_zero] at field
      unfold signBit at *
      omega
    rw [Sign.ofBitVec, if_neg one, decide_eq_true negative, if_pos rfl]
  · have zero : @unpackSign Format.binary64 value.toBits.toBitVec = 0#1 := by
      apply BitVec.eq_of_toNat_eq
      rw [field, BitVec.toNat_zero]
      unfold signBit at *
      omega
    rw [Sign.ofBitVec, if_pos zero, decide_eq_false negative, if_neg Bool.false_ne_true]

theorem exponentMagnitude (value : Float) :
    (@unpackExponent Format.binary64 value.toBits.toBitVec).toNat =
      magnitude value / leadingBit := by
  rw [exponentField]
  change value.toBits.toNat / leadingBit % 2048 = _
  unfold magnitude signBit leadingBit
  omega

theorem significandMagnitude (value : Float) :
    (@unpackMantissa Format.binary64 value.toBits.toBitVec).toNat =
      magnitude value % leadingBit := by
  rw [significandField]
  change value.toBits.toNat % leadingBit = _
  unfold magnitude signBit leadingBit
  omega

theorem ofFieldsUnpacks (sign : Sign) (exponent : BitVec 11) (fraction : BitVec 52) (size : Nat)
    (high : exponent.toNat = size / leadingBit) (low : fraction.toNat = size % leadingBit)
    (number : size ≤ infinity) : Unpacks sign size (ofFields sign exponent fraction) := by
  unfold ofFields
  by_cases full : exponent = -1#11
  · have top : size = infinity := by
      rw [full, show (-1#11).toNat = 2047 from rfl] at high
      unfold infinity leadingBit at *
      omega
    have empty : fraction = 0#52 := by
      apply BitVec.eq_of_toNat_eq
      rw [low, top]
      rfl
    rw [if_pos full, if_pos empty, top]
    exact .limit
  · have below : size < infinity := by
      apply lt_of_le_of_ne number
      rintro rfl
      exact full (BitVec.eq_of_toNat_eq high)
    rw [if_neg full]
    by_cases least : exponent = 0#11
    · have whole : fraction.toNat = size := by
        rw [least, BitVec.toNat_zero] at high
        unfold leadingBit at *
        omega
      have small : significand size = fraction.toNat := by
        rw [significand, if_pos (whole ▸ fraction.isLt), whole]
      rw [if_pos least]
      by_cases empty : fraction = 0#52
      · have none : size = 0 := by rw [← whole, empty, BitVec.toNat_zero]
        rw [dif_pos empty, none]
        exact .zero
      · have present := BitVec.toNat_pos_of_ne_zero empty
        rw [dif_neg empty]
        exact .ofFinite present (whole ▸ present) below small (by rw [← high, least]; rfl)
    · have field : 0 < exponent.toNat := BitVec.toNat_pos_of_ne_zero least
      have large : significand size = (1#1 ++ fraction).toNat := by
        rw [significand, if_neg (by unfold leadingBit at *; omega), leadingBitAppend, low]
      have positive : 0 < (1#1 ++ fraction).toNat :=
        leadingBitAppend fraction ▸ Nat.add_pos_left (by decide) _
      have present : 0 < size := by unfold leadingBit at *; omega
      rw [if_neg least]
      exact .ofFinite positive present below large (by rw [← high, Nat.max_eq_right field])

/-- A number unpacks by its sign and its magnitude. -/
theorem unpackNumber (value : Float) (number : magnitude value ≤ infinity) :
    Unpacks (signOf value) (magnitude value) (unpack Format.binary64 value.toBits.toBitVec) := by
  rw [unpackFields, unpackSignOf]
  exact ofFieldsUnpacks _ _ _ _ (exponentMagnitude value) (significandMagnitude value) number

theorem unpackNotANumber (value : Float) (beyond : infinity < magnitude value) :
    unpack Format.binary64 value.toBits.toBitVec = .notANumber := by
  rw [eqNotANumber value beyond]
  rfl

/-- The exponent decides before the significand does. -/
theorem fieldsAscend {first second : Nat} (order : first < second) :
    max 1 (first / leadingBit) < max 1 (second / leadingBit) ∨
      max 1 (first / leadingBit) = max 1 (second / leadingBit) ∧
        significand first < significand second := by
  unfold significand leadingBit
  split <;> split <;> omega

/-- Fields are compared as the magnitudes are. -/
theorem compareFields (first second : Nat) :
    (compare (((max 1 (first / leadingBit) : Nat) : ℤ) - 1075)
      ((max 1 (second / leadingBit) : Nat) - 1075)).then
        (compare (significand first) (significand second)) = compare (first : ℤ) second := by
  rcases Nat.lt_trichotomy first second with below | rfl | above
  · have fields := fieldsAscend below
    rw [Int.compare_eq_lt.mpr (Int.ofNat_lt.mpr below), Ordering.then_eq_lt, Int.compare_eq_lt,
      Int.compare_eq_eq, Nat.compare_eq_lt]
    omega
  · rw [Int.compare_eq_eq.mpr rfl, Int.compare_eq_eq.mpr rfl, Ordering.then_eq_eq]
    exact ⟨rfl, Nat.compare_eq_eq.mpr rfl⟩
  · have fields := fieldsAscend above
    rw [Int.compare_eq_gt.mpr (Int.ofNat_lt.mpr above), Ordering.then_eq_gt, Int.compare_eq_gt,
      Int.compare_eq_eq, Nat.compare_eq_gt]
    omega

theorem compareOpposite (first second : ℤ) : compare (-first) (-second) = compare second first := by
  simp only [Int.compare_eq_ite_lt, Int.neg_lt_neg_iff]

/-- The sign of the greater magnitude decides. -/
theorem compareSmaller (firstSign secondSign : Sign) {first second : Nat} (order : first < second) :
    compare (firstSign.apply first) (secondSign.apply second) =
      match secondSign with
      | .negative => .gt
      | .positive => .lt := by
  cases secondSign with
  | negative => cases firstSign <;> exact Int.compare_eq_gt.mpr (by simp only [Sign.apply]; omega)
  | positive => cases firstSign <;> exact Int.compare_eq_lt.mpr (by simp only [Sign.apply]; omega)

theorem compareGreater (firstSign secondSign : Sign) {first second : Nat} (order : second < first) :
    compare (firstSign.apply first) (secondSign.apply second) =
      match firstSign with
      | .negative => .lt
      | .positive => .gt := by
  rw [← Int.compare_swap, compareSmaller secondSign firstSign order]
  cases firstSign <;> rfl

/-- Unpacked numbers are compared as their signed magnitudes are. -/
theorem Unpacks.compares {firstSign secondSign : Sign} {first second : Nat}
    {one other : UnpackedFloat} (left : Unpacks firstSign first one)
    (right : Unpacks secondSign second other) :
    one.compare other = some (compare (firstSign.apply first) (secondSign.apply second)) := by
  cases left with
  | zero =>
      cases right with
      | zero => cases firstSign <;> cases secondSign <;> rfl
      | finite _ present =>
          rw [compareSmaller _ _ present]
          cases secondSign <;> rfl
      | limit =>
          rw [compareSmaller _ _ (by decide)]
          cases secondSign <;> rfl
  | finite _ present bounded =>
      cases right with
      | zero =>
          rw [compareGreater _ _ present]
          cases firstSign <;> rfl
      | finite _ otherPresent =>
          cases firstSign with
          | negative =>
              cases secondSign with
              | negative =>
                  have fields := compareFields first second
                  refine congrArg some ((congrArg Ordering.swap fields).trans ?_)
                  rw [Int.compare_swap]
                  exact (compareOpposite first second).symm
              | positive =>
                  exact congrArg some (Int.compare_eq_lt.mpr (by simp only [Sign.apply]; omega)).symm
          | positive =>
              cases secondSign with
              | negative =>
                  exact congrArg some (Int.compare_eq_gt.mpr (by simp only [Sign.apply]; omega)).symm
              | positive => exact congrArg some (compareFields first second)
      | limit =>
          rw [compareSmaller _ _ bounded]
          cases secondSign <;> rfl
  | limit =>
      cases right with
      | zero =>
          rw [compareGreater _ _ (by decide)]
          cases firstSign <;> rfl
      | finite _ _ bounded =>
          rw [compareGreater _ _ bounded]
          cases firstSign <;> rfl
      | limit => cases firstSign <;> cases secondSign <;> rfl

/-- The rank of a number counts the magnitudes up to it, and those below zero count down. -/
def rank (value : Float) : ℤ := (signOf value).apply (magnitude value)

theorem rankSigned (value : Float) :
    rank value = if isNegative value then -(magnitude value : ℤ) else magnitude value := by
  unfold rank signOf
  cases isNegative value <;> rfl

theorem rankMagnitude (value : Float) : (rank value).natAbs = magnitude value := by
  rw [rankSigned]
  split <;> omega

/-- The rank has the sign of the number, except for negative zero. -/
theorem rankNegative {value : Float} (present : rank value ≠ 0) :
    isNegative value = decide (rank value < 0) := by
  rw [rankSigned] at present ⊢
  cases sign : isNegative value with
  | false => exact (decide_eq_false (by rw [if_neg Bool.false_ne_true]; omega)).symm
  | true =>
      rw [sign, if_pos rfl] at present
      exact (decide_eq_true (by rw [if_pos rfl]; omega)).symm

theorem rankZero (value : Float) : rank value = 0 ↔ value = 0.0 ∨ value = -0.0 := by
  constructor
  · intro none
    have empty : magnitude value = 0 := by rw [← rankMagnitude, none, Int.natAbs_zero]
    cases sign : isNegative value with
    | false => exact .inl (eqOfMagnitude sign empty)
    | true => exact .inr (eqOfMagnitude sign empty)
  · rintro (rfl | rfl) <;> rfl

/-- Different numbers share a rank only if both are zeros. -/
theorem rankSame (first second : Float) :
    rank first = rank second ↔ first = second ∨ rank first = 0 ∧ rank second = 0 := by
  constructor
  · intro same
    by_cases none : rank first = 0
    · exact .inr ⟨none, same ▸ none⟩
    · left
      apply eqOfMagnitude
      · rw [rankNegative none, rankNegative (same ▸ none), same]
      · rw [← rankMagnitude, ← rankMagnitude, same]
  · rintro (rfl | ⟨one, other⟩)
    · rfl
    · rw [one, other]

theorem rankNegate (value : Float) (number : magnitude value ≤ infinity) :
    rank (-value) = -rank value := by
  rw [rankSigned, rankSigned, magnitudeNegate, negateNumber value number,
    isNegativeOfMagnitude _ _ number]
  cases isNegative value
  · rfl
  · exact (Int.neg_neg _).symm

theorem Unpacks.notNaN {sign : Sign} {size : Nat} {kind : UnpackedFloat}
    (unpacks : Unpacks sign size kind) : kind.isNaN = false := by
  cases unpacks <;> rfl

theorem isNaNMagnitude (value : Float) : value.isNaN = true ↔ infinity < magnitude value := by
  change (unpack Format.binary64 value.toBits.toBitVec).isNaN = true ↔ _
  by_cases beyond : infinity < magnitude value
  · rw [unpackNotANumber value beyond]
    exact iff_of_true rfl beyond
  · rw [(unpackNumber value (Nat.le_of_not_lt beyond)).notNaN]
    exact iff_of_false Bool.false_ne_true beyond

theorem numberMagnitude (value : Float) : value.isNaN = false ↔ magnitude value ≤ infinity := by
  rw [← Bool.not_eq_true, isNaNMagnitude, Nat.not_lt]

section Compare
variable (first second : Float)

/-- Numbers are compared as their ranks are, and NaN is not compared at all. -/
theorem compareRank (result : Ordering) :
    (unpack Format.binary64 first.toBits.toBitVec).compare
        (unpack Format.binary64 second.toBits.toBitVec) = some result ↔
      first.isNaN = false ∧ second.isNaN = false ∧
        compare (rank first) (rank second) = result := by
  simp only [numberMagnitude]
  by_cases one : magnitude first ≤ infinity
  · by_cases other : magnitude second ≤ infinity
    · rw [(unpackNumber first one).compares (unpackNumber second other), Option.some_inj]
      exact ⟨fun same => ⟨one, other, same⟩, fun numbers => numbers.2.2⟩
    · rw [unpackNotANumber second (Nat.lt_of_not_le other)]
      refine iff_of_false ?_ fun numbers => other numbers.2.1
      cases unpack Format.binary64 first.toBits.toBitVec <;> exact nofun
  · rw [unpackNotANumber first (Nat.lt_of_not_le one)]
    exact iff_of_false nofun fun numbers => one numbers.1

theorem lessRank :
    first < second ↔ first.isNaN = false ∧ second.isNaN = false ∧ rank first < rank second := by
  have test : first < second ↔ ((unpack Format.binary64 first.toBits.toBitVec).compare
      (unpack Format.binary64 second.toBits.toBitVec) == some .lt) = true := decide_eq_true_iff
  rw [test, beq_iff_eq, compareRank, Int.compare_eq_lt]

theorem equalRank :
    (first == second) = true ↔
      first.isNaN = false ∧ second.isNaN = false ∧ rank first = rank second := by
  have test : (first == second) = ((unpack Format.binary64 first.toBits.toBitVec).compare
      (unpack Format.binary64 second.toBits.toBitVec) == some .eq) := rfl
  rw [test, beq_iff_eq, compareRank, Int.compare_eq_eq]

theorem atMostRank :
    first ≤ second ↔ first.isNaN = false ∧ second.isNaN = false ∧ rank first ≤ rank second := by
  have test : first ≤ second ↔ ((unpack Format.binary64 first.toBits.toBitVec).compare
      (unpack Format.binary64 second.toBits.toBitVec)).any Ordering.isLE = true :=
    decide_eq_true_iff
  rw [test, Option.any_eq_true]
  simp only [compareRank, ← Int.isLE_compare]
  constructor
  · rintro ⟨_, ⟨one, other, rfl⟩, order⟩
    exact ⟨one, other, order⟩
  · rintro ⟨one, other, order⟩
    exact ⟨_, ⟨one, other, rfl⟩, order⟩

end Compare

theorem amountZero : amount 0 = 0 := by
  rw [amountUnits, unitsOfSmall 0 (by decide), Nat.cast_zero, zero_div]

/-- Amounts continue below zero with the other sign. -/
def amountOfRank (rank : ℤ) : ℚ := if rank < 0 then -amount rank.natAbs else amount rank.natAbs

theorem amountOfRankNegate (rank : ℤ) : amountOfRank (-rank) = -amountOfRank rank := by
  unfold amountOfRank
  rw [Int.natAbs_neg]
  rcases lt_trichotomy rank 0 with below | rfl | above
  · rw [if_neg (by omega), if_pos below, neg_neg]
  · rw [Int.neg_zero, if_neg (lt_irrefl 0), Int.natAbs_zero, amountZero, neg_zero]
  · rw [if_pos (by omega), if_neg (by omega)]

theorem amountOfRankStrictMono : StrictMono amountOfRank := by
  apply strictMono_of_odd_strictMonoOn_nonneg amountOfRankNegate
  intro first least second _ order
  have nonnegative : 0 ≤ first := least
  unfold amountOfRank
  rw [if_neg (by omega), if_neg (by omega)]
  exact amountStrictMono (Int.natAbs_lt_natAbs_of_nonneg_of_lt nonnegative order)

theorem signedAmountRank (value : Float) : signedAmount value = amountOfRank (rank value) := by
  have plain : amountOfRank (magnitude value : ℤ) = amount (magnitude value) :=
    if_neg (Int.not_lt.mpr (Int.natCast_nonneg _))
  rw [rankSigned, signedAmount]
  cases isNegative value with
  | false => exact plain.symm
  | true => exact (amountOfRankNegate (magnitude value)).trans (congrArg Neg.neg plain) |>.symm

/-- The exact value of a number is rational or lies beyond all rational numbers on its side. -/
def extended (value : Float) : WithBot (WithTop ℚ) :=
  if magnitude value = infinity then
    if isNegative value then ⊥ else ⊤
  else ((signedAmount value : ℚ) : WithTop ℚ)

def extendedOfRank (rank : ℤ) : WithBot (WithTop ℚ) :=
  if rank = infinity then ⊤
  else if rank = -infinity then ⊥
  else ((amountOfRank rank : ℚ) : WithTop ℚ)

theorem extendedRank (value : Float) : extended value = extendedOfRank (rank value) := by
  unfold extended extendedOfRank
  rw [← signedAmountRank, rankSigned]
  by_cases limit : magnitude value = infinity
  · rw [if_pos limit, limit]
    cases isNegative value <;> rfl
  · rw [if_neg limit]
    cases isNegative value with
    | false => rw [if_neg Bool.false_ne_true, if_neg (by omega), if_neg (by omega)]
    | true => rw [if_pos rfl, if_neg (by omega), if_neg (by omega)]

theorem extendedOfRankStrictMonoOn :
    StrictMonoOn extendedOfRank (Set.Icc (-infinity : ℤ) infinity) := by
  intro first within second inside order
  have low : -(infinity : ℤ) ≤ first := within.1
  have high : second ≤ (infinity : ℤ) := inside.2
  unfold extendedOfRank
  rw [if_neg (show ¬first = infinity by omega)]
  by_cases last : second = infinity
  · rw [if_pos last]
    by_cases least : first = -infinity
    · rw [if_pos least]
      exact bot_lt_top
    · rw [if_neg least]
      exact WithBot.coe_lt_coe.mpr (WithTop.coe_lt_top _)
  · rw [if_neg last, if_neg (show ¬second = -infinity by omega)]
    by_cases least : first = -infinity
    · rw [if_pos least]
      exact WithBot.bot_lt_coe _
    · rw [if_neg least]
      exact WithBot.coe_lt_coe.mpr (WithTop.coe_lt_coe.mpr (amountOfRankStrictMono order))

theorem rankWithin {value : Float} (number : value.isNaN = false) :
    rank value ∈ Set.Icc (-infinity : ℤ) infinity := by
  rw [numberMagnitude] at number
  rw [rankSigned, Set.mem_Icc]
  split <;> omega

section Extended
variable (first second : Float)

/-- A number is less than another one exactly if its exact value is. -/
theorem lessExtended :
    first < second ↔
      first.isNaN = false ∧ second.isNaN = false ∧ extended first < extended second := by
  rw [lessRank, extendedRank, extendedRank]
  refine and_congr_right fun one => and_congr_right fun other => ?_
  exact (extendedOfRankStrictMonoOn.lt_iff_lt (rankWithin one) (rankWithin other)).symm

theorem atMostExtended :
    first ≤ second ↔
      first.isNaN = false ∧ second.isNaN = false ∧ extended first ≤ extended second := by
  rw [atMostRank, extendedRank, extendedRank]
  refine and_congr_right fun one => and_congr_right fun other => ?_
  exact (extendedOfRankStrictMonoOn.le_iff_le (rankWithin one) (rankWithin other)).symm

theorem equalExtended :
    (first == second) = true ↔
      first.isNaN = false ∧ second.isNaN = false ∧ extended first = extended second := by
  rw [equalRank, extendedRank, extendedRank]
  refine and_congr_right fun one => and_congr_right fun other => ?_
  exact (extendedOfRankStrictMonoOn.injOn.eq_iff (rankWithin one) (rankWithin other)).symm

end Extended

end ExprTree.Binary64
