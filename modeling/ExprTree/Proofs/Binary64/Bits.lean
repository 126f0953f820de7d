/-
This file shows that a value keeps the sign and the magnitude it is made of.
-/

import ExprTree.Binary64.Basic

namespace ExprTree.Binary64

open Float.Model (Format UnpackedFloat)
open Float.Model.UnpackedFloat

theorem signBits (bit : BitVec 1) : (Sign.ofBitVec bit).toBitVec = bit := by
  revert bit
  decide

theorem packFields (bits : BitVec 64) :
    packComponents Format.binary64 (Sign.ofBitVec (@unpackSign Format.binary64 bits))
      (@unpackExponent Format.binary64 bits) (@unpackMantissa Format.binary64 bits) = bits := by
  have upper : bits.extractLsb' 63 1 ++ bits.extractLsb' 52 11 = bits.extractLsb' 52 12 :=
    BitVec.extractLsb'_append_extractLsb'_eq_extractLsb' rfl
  have whole : bits.extractLsb' 52 12 ++ bits.extractLsb' 0 52 = bits.extractLsb' 0 64 :=
    BitVec.extractLsb'_append_extractLsb'_eq_extractLsb' rfl
  rw [packComponents, signBits]
  change (bits.extractLsb' 63 1 ++ bits.extractLsb' 52 11) ++ bits.extractLsb' 0 52 = bits
  rw [upper, whole]
  exact BitVec.extractLsb'_eq_self

theorem exponentField (bits : BitVec 64) :
    (@unpackExponent Format.binary64 bits).toNat = bits.toNat / leadingBit % 2048 := by
  change (bits.extractLsb' 52 11).toNat = _
  rw [BitVec.extractLsb'_toNat, Nat.shiftRight_eq_div_pow]

theorem significandField (bits : BitVec 64) :
    (@unpackMantissa Format.binary64 bits).toNat = bits.toNat % leadingBit := by
  change (bits.extractLsb' 0 52).toNat = _
  rw [BitVec.extractLsb'_toNat, Nat.shiftRight_zero]

theorem leadingBitAppend (significand : BitVec 52) :
    (1#1 ++ significand).toNat = leadingBit + significand.toNat := by
  rw [BitVec.toNat_append, ← Nat.shiftLeft_add_eq_or_of_lt significand.isLt]
  rfl

/-- A significand with the leading bit packs into its exponent and the bits below. -/
theorem packNormal (sign : Sign) (exponent : BitVec 11) (significand : BitVec 52)
    (high : exponent.toNat < 2047) (positive : 0 < (1#1 ++ significand).toNat) :
    pack Format.binary64 (.finite sign (1#1 ++ significand).toNat ((exponent.toNat : Int) - 1075)
      positive) = packComponents Format.binary64 sign exponent significand := by
  have bounded := significand.isLt
  have length : (1#1 ++ significand).toNat.log2 + 1 = Format.binary64.mantissaBits := by
    have low : 52 ≤ (1#1 ++ significand).toNat.log2 := by
      rw [Nat.le_log2 (Nat.pos_iff_ne_zero.mp positive), leadingBitAppend]
      exact Nat.le_add_right _ _
    have top : (1#1 ++ significand).toNat.log2 < 53 := by
      rw [Nat.log2_lt (Nat.pos_iff_ne_zero.mp positive), leadingBitAppend]
      unfold leadingBit
      omega
    show _ = 53
    omega
  have biased : ((exponent.toNat : Int) - 1075 + Format.binary64.exponentBias +
      Format.binary64.mantissaBitsWithoutImplicit).toNat = exponent.toNat := by
    show ((exponent.toNat : Int) - 1075 + 1023 + 52).toNat = exponent.toNat
    omega
  have room : ¬2 ^ Format.binary64.exponentBits ≤ exponent.toNat + 1 := by
    show ¬2048 ≤ exponent.toNat + 1
    omega
  have below : BitVec.ofNat 52 (1#1 ++ significand).toNat = significand := by
    apply BitVec.eq_of_toNat_eq
    rw [BitVec.toNat_ofNat, leadingBitAppend]
    unfold leadingBit
    omega
  unfold pack
  dsimp only
  rw [biased, if_neg room, if_pos length, BitVec.ofNat_toNat, BitVec.setWidth_eq]
  exact congrArg _ below

/-- A significand without the leading bit packs into itself. -/
theorem packSubnormal (sign : Sign) (significand : BitVec 52) (positive : 0 < significand.toNat) :
    pack Format.binary64 (.finite sign significand.toNat (-1074) positive) =
      packComponents Format.binary64 sign 0 significand := by
  have length : ¬significand.toNat.log2 + 1 = Format.binary64.mantissaBits := by
    have top : significand.toNat.log2 < 52 :=
      (Nat.log2_lt (Nat.pos_iff_ne_zero.mp positive)).mpr significand.isLt
    show ¬_ = 53
    omega
  have room : ¬2 ^ Format.binary64.exponentBits ≤ ((-1074 : Int) + Format.binary64.exponentBias +
      Format.binary64.mantissaBitsWithoutImplicit).toNat + 1 := by decide
  unfold pack
  dsimp only
  rw [if_neg room, if_neg length, BitVec.ofNat_toNat, BitVec.setWidth_eq]
  rfl

/-- Every pattern that is no NaN is packed again after unpacking. -/
theorem packUnpack (bits : BitVec 64) (number : bits.toNat % signBit ≤ infinity) :
    pack Format.binary64 (unpack Format.binary64 bits) = bits := by
  have fields := packFields bits
  have exponent := exponentField bits
  have significand := significandField bits
  unfold UnpackedFloat.unpack
  dsimp only
  by_cases full : @unpackExponent Format.binary64 bits = -1#11
  · have empty : @unpackMantissa Format.binary64 bits = 0#52 := by
      apply BitVec.eq_of_toNat_eq
      rw [full, show (-1#11).toNat = 2047 from rfl] at exponent
      rw [significand, BitVec.toNat_zero]
      unfold signBit infinity at number
      unfold leadingBit at *
      omega
    rw [if_pos full, if_pos empty]
    rw [full, empty] at fields
    exact fields
  · rw [if_neg full]
    by_cases low : @unpackExponent Format.binary64 bits = 0#11
    · rw [if_pos low]
      by_cases empty : @unpackMantissa Format.binary64 bits = 0#52
      · rw [dif_pos empty]
        rw [low, empty] at fields
        exact fields
      · rw [dif_neg empty]
        have packed := packSubnormal (Sign.ofBitVec (@unpackSign Format.binary64 bits))
          (@unpackMantissa Format.binary64 bits) (BitVec.toNat_pos_of_ne_zero empty)
        rw [low] at fields ⊢
        exact packed.trans fields
    · rw [if_neg low]
      refine (packNormal _ _ _ ?_ _).trans fields
      have bounded := (@unpackExponent Format.binary64 bits).isLt
      have unfilled : (@unpackExponent Format.binary64 bits).toNat ≠ 2047 := by
        intro filled
        exact full (BitVec.eq_of_toNat_eq filled)
      omega

/-- A float that is no NaN has the bits it was made of. -/
theorem bitsOfBits (bits : UInt64) (number : bits.toNat % signBit ≤ infinity) :
    (Float.ofBits bits).toBits = bits := by
  have packed := packUnpack bits.toBitVec number
  show UInt64.ofBitVec (UnpackedFloat.pack Format.binary64
    (UnpackedFloat.unpack Format.binary64 bits.toBitVec)) = bits
  rw [packed]

theorem eqOfBits {first second : Float} (same : first.toBits = second.toBits) :
    first = second := by
  obtain ⟨⟨_, _⟩⟩ := first
  obtain ⟨⟨_, _⟩⟩ := second
  cases same
  rfl

/-- A value is known by its sign and its magnitude. -/
theorem eqOfMagnitude {first second : Float} (sign : isNegative first = isNegative second)
    (size : magnitude first = magnitude second) : first = second := by
  have one := first.toBits.toNat_lt
  have two := second.toBits.toNat_lt
  apply eqOfBits
  apply UInt64.toNat_inj.mp
  unfold isNegative at sign
  rw [decide_eq_decide] at sign
  unfold magnitude signBit at *
  omega

/-- There is one value that is no number. -/
theorem eqNotANumber (value : Float) (beyond : infinity < magnitude value) :
    value = notANumber := by
  obtain ⟨⟨bits, valid⟩⟩ := value
  have exponent := exponentField bits.toBitVec
  have significand := significandField bits.toBitVec
  change infinity < bits.toBitVec.toNat % signBit at beyond
  have full : @unpackExponent Format.binary64 bits.toBitVec = -1#11 := by
    apply BitVec.eq_of_toNat_eq
    rw [exponent]
    show _ = 2047
    unfold infinity signBit leadingBit at *
    omega
  have filled : @unpackMantissa Format.binary64 bits.toBitVec ≠ 0#52 := by
    intro empty
    rw [empty, BitVec.toNat_zero] at significand
    unfold infinity signBit leadingBit at *
    omega
  have packed := valid.eq_packedNaN full filled
  apply eqOfBits
  show UInt64.ofBitVec bits.toBitVec = _
  rw [packed]
  rfl

theorem bitsOfMagnitude (negative : Bool) (magnitude : Nat) (number : magnitude ≤ infinity) :
    (ofMagnitude negative magnitude).toBits.toNat =
      if negative then signBit + magnitude else magnitude := by
  have small : (if negative then signBit + magnitude else magnitude) < 2 ^ 64 := by
    unfold signBit infinity at *
    split <;> omega
  have exact : (UInt64.ofNat (if negative then signBit + magnitude else magnitude)).toNat =
      if negative then signBit + magnitude else magnitude := UInt64.toNat_ofNat_of_lt' small
  rw [ofMagnitude, bitsOfBits, exact]
  rw [exact]
  unfold signBit infinity at *
  split <;> omega

theorem magnitudeOfMagnitude (negative : Bool) (size : Nat) (number : size ≤ infinity) :
    magnitude (ofMagnitude negative size) = size := by
  rw [magnitude, bitsOfMagnitude negative size number]
  unfold signBit infinity at *
  split <;> omega

theorem isNegativeOfMagnitude (negative : Bool) (size : Nat) (number : size ≤ infinity) :
    isNegative (ofMagnitude negative size) = negative := by
  rw [isNegative, bitsOfMagnitude negative size number]
  unfold signBit infinity at *
  cases negative with
  | false => exact decide_eq_false (by simp only [Bool.false_eq_true, if_false]; omega)
  | true => exact decide_eq_true (by simp only [if_true]; omega)

end ExprTree.Binary64
