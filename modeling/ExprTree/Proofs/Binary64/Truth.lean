/-
This file shows that a negation turns the sign only, and that the zeros alone are false.
-/

import ExprTree.Binary64.Truth
import ExprTree.Proofs.Binary64.Bits

namespace ExprTree.Binary64

open Float.Model (Format UnpackedFloat)
open Float.Model.UnpackedFloat

/-- The fields of a pattern decide which kind of value it stands for. -/
def ofFields (sign : Sign) (exponent : BitVec 11) (significand : BitVec 52) : UnpackedFloat :=
  if exponent = -1#11 then
    if significand = 0#52 then .infinity sign else .notANumber
  else if exponent = 0#11 then
    if empty : significand = 0#52 then .zero sign
    else .finite sign significand.toNat ((exponent.toNat : Int) - 1075 + 1)
      (BitVec.toNat_pos_of_ne_zero empty)
  else .finite sign (1#1 ++ significand).toNat ((exponent.toNat : Int) - 1075)
    (leadingBitAppend significand ▸ Nat.add_pos_left (by decide) _)

theorem unpackFields (bits : BitVec 64) :
    unpack Format.binary64 bits = ofFields (Sign.ofBitVec (@unpackSign Format.binary64 bits))
      (@unpackExponent Format.binary64 bits) (@unpackMantissa Format.binary64 bits) := rfl

theorem ofFieldsNegate (sign : Sign) (exponent : BitVec 11) (significand : BitVec 52) :
    ofFields (-sign) exponent significand = (ofFields sign exponent significand).neg := by
  unfold ofFields
  by_cases full : exponent = -1#11
  · rw [if_pos full, if_pos full]
    by_cases empty : significand = 0#52
    · rw [if_pos empty, if_pos empty]
      rfl
    · rw [if_neg empty, if_neg empty]
      rfl
  · rw [if_neg full, if_neg full]
    by_cases low : exponent = 0#11
    · rw [if_pos low, if_pos low]
      by_cases empty : significand = 0#52
      · rw [dif_pos empty, dif_pos empty]
        rfl
      · rw [dif_neg empty, dif_neg empty]
        rfl
    · rw [if_neg low, if_neg low]
      rfl

theorem ofFieldsZero (sign : Sign) (exponent : BitVec 11) (significand : BitVec 52) :
    (∃ other, ofFields sign exponent significand = .zero other) ↔
      exponent = 0#11 ∧ significand = 0#52 := by
  unfold ofFields
  constructor
  · rintro ⟨other, zero⟩
    by_cases full : exponent = -1#11
    · rw [if_pos full] at zero
      by_cases empty : significand = 0#52
      · rw [if_pos empty] at zero
        cases zero
      · rw [if_neg empty] at zero
        cases zero
    · rw [if_neg full] at zero
      by_cases low : exponent = 0#11
      · rw [if_pos low] at zero
        by_cases empty : significand = 0#52
        · exact ⟨low, empty⟩
        · rw [dif_neg empty] at zero
          cases zero
      · rw [if_neg low] at zero
        cases zero
  · rintro ⟨rfl, rfl⟩
    exact ⟨sign, rfl⟩

theorem signField (bits : BitVec 64) :
    (@unpackSign Format.binary64 bits).toNat = bits.toNat / signBit := by
  have bounded := bits.isLt
  change (bits.extractLsb' 63 1).toNat = _
  rw [BitVec.extractLsb'_toNat, Nat.shiftRight_eq_div_pow]
  unfold signBit
  omega

/-- Patterns that differ in the sign bit alone stand for opposite values. -/
theorem unpackOpposite (first second : BitVec 64)
    (size : first.toNat % signBit = second.toNat % signBit)
    (signs : first.toNat / signBit ≠ second.toNat / signBit) :
    unpack Format.binary64 second = (unpack Format.binary64 first).neg := by
  have exponent : @unpackExponent Format.binary64 second = @unpackExponent Format.binary64 first := by
    apply BitVec.eq_of_toNat_eq
    rw [exponentField, exponentField]
    unfold signBit leadingBit at *
    omega
  have significand :
      @unpackMantissa Format.binary64 second = @unpackMantissa Format.binary64 first := by
    apply BitVec.eq_of_toNat_eq
    rw [significandField, significandField]
    unfold signBit leadingBit at *
    omega
  have sign : Sign.ofBitVec (@unpackSign Format.binary64 second) =
      -Sign.ofBitVec (@unpackSign Format.binary64 first) := by
    have one := first.isLt
    have other := second.isLt
    have positive (bits : BitVec 64) :
        @unpackSign Format.binary64 bits = 0#1 ↔ bits.toNat / signBit = 0 := by
      rw [← signField, ← BitVec.toNat_inj]
      rfl
    simp only [Sign.ofBitVec, positive]
    unfold signBit at *
    by_cases above : first.toNat / 0x8000000000000000 = 0
    · rw [if_pos above, if_neg (by omega)]
      rfl
    · rw [if_neg above, if_pos (by omega)]
      rfl
  rw [unpackFields, unpackFields, exponent, significand, sign, ofFieldsNegate]

/-- A negated number has the same magnitude and the other sign. -/
theorem negateNumber (value : Float) (number : magnitude value ≤ infinity) :
    -value = ofMagnitude (!isNegative value) (magnitude value) := by
  have size := magnitudeOfMagnitude (!isNegative value) (magnitude value) number
  have sign := isNegativeOfMagnitude (!isNegative value) (magnitude value) number
  generalize ofMagnitude (!isNegative value) (magnitude value) = other at size sign ⊢
  have opposite : unpack Format.binary64 other.toBits.toBitVec =
      (unpack Format.binary64 value.toBits.toBitVec).neg := by
    apply unpackOpposite _ _ size.symm
    change value.toBits.toNat / signBit ≠ other.toBits.toNat / signBit
    have one := value.toBits.toNat_lt
    have two := other.toBits.toNat_lt
    unfold isNegative at sign
    rw [← decide_not, decide_eq_decide] at sign
    unfold signBit at *
    omega
  have packed := packUnpack other.toBits.toBitVec (Nat.le_trans (Nat.le_of_eq size) number)
  rw [opposite] at packed
  exact eqOfBits (congrArg UInt64.ofBitVec packed)

theorem magnitudeNegate (value : Float) : magnitude (-value) = magnitude value := by
  by_cases number : magnitude value ≤ infinity
  · rw [negateNumber value number, magnitudeOfMagnitude _ _ number]
  · rw [eqNotANumber value (Nat.lt_of_not_le number)]
    rfl

theorem unpackZero (bits : BitVec 64) :
    (∃ sign, unpack Format.binary64 bits = .zero sign) ↔ bits.toNat % signBit = 0 := by
  rw [unpackFields, ofFieldsZero, ← BitVec.toNat_inj, ← BitVec.toNat_inj, exponentField,
    significandField, BitVec.toNat_zero, BitVec.toNat_zero]
  unfold signBit leadingBit
  omega

/-- The values that equal a zero are the zeros of both signs. -/
theorem equalsZero (value zero : Float) (empty : magnitude zero = 0) :
    (value == zero) = decide (magnitude value = 0) := by
  obtain ⟨sign, unpacked⟩ := (unpackZero zero.toBits.toBitVec).mpr empty
  change ((unpack Format.binary64 value.toBits.toBitVec).compare
    (unpack Format.binary64 zero.toBits.toBitVec) == some .eq) = _
  rw [unpacked]
  by_cases small : magnitude value = 0
  · obtain ⟨other, equal⟩ := (unpackZero value.toBits.toBitVec).mpr small
    rw [equal, decide_eq_true small]
    rfl
  · rw [decide_eq_false small]
    have nonzero := mt (unpackZero value.toBits.toBitVec).mp small
    cases kind : unpack Format.binary64 value.toBits.toBitVec with
    | notANumber => rfl
    | infinity other => cases other <;> rfl
    | zero other => exact absurd ⟨other, kind⟩ nonzero
    | finite other significand exponent positive => cases other <;> rfl

/-- Only the zeros are false. -/
theorem isTrueMagnitude (value : Float) : isTrue value = !decide (magnitude value = 0) :=
  congrArg not (equalsZero value 0.0 rfl)

theorem equalsEither (value zero : Float) (either : zero = 0.0 ∨ zero = -0.0) :
    (value == zero) = !isTrue value := by
  rw [isTrueMagnitude, Bool.not_not]
  refine equalsZero value zero ?_
  rcases either with rfl | rfl <;> rfl

theorem isTrueNegate (value : Float) : isTrue (-value) = isTrue value := by
  rw [isTrueMagnitude, isTrueMagnitude, magnitudeNegate]

theorem isTrueOfBool (truth : Bool) : isTrue (ofBool truth) = truth := by
  rw [isTrueMagnitude]
  cases truth <;> rfl

end ExprTree.Binary64
