/-
This file shows that written values read back and that no shorter decimals do.
-/

import ExprTree.Node.Describe
import ExprTree.Proofs.Decimal.Layout
import ExprTree.Proofs.Literal.Grammar
import ExprTree.Proofs.Literal.Rounding

namespace ExprTree
open Binary64 (infinity isNegative magnitude ofMagnitude)

namespace Text

theorem bareNumeral (numeral : Numeral) : Bare numeral.text := by
  have bare : Bare Numeral.alphabet := by decide
  exact fun character member => bare character (numeral.textAlphabet member)

end Text

namespace Numeral

def signedAmount (numeral : Numeral) : ℚ :=
  if numeral.sign = .minus then -numeral.amount else numeral.amount

/-- A numeral is read as the value that it rounds to. -/
theorem readsAs (numeral : Numeral) (source : String)
    (trimmed : Text.trim source.toList = numeral.text) (value : Float) :
    (readNumber source).outcome = .ok value ↔ numeral.RoundsTo value := by
  have rounds := numeral.valueRounds
  rw [readNumberCore source numeral.text ((Text.coreIff _ _).mpr trimmed.symm), Literal.readText]
  constructor
  · rintro ⟨⟩
    exact rounds
  · intro other
    exact congrArg Except.ok (rounds.unique other)

theorem RoundsTo.reads {numeral : Numeral} {value : Float} (rounds : numeral.RoundsTo value) :
    (readNumber (String.ofList numeral.text)).outcome = .ok value := by
  have core := Text.coreBare (Text.bareNumeral numeral)
  rw [Text.coreIff] at core
  apply (numeral.readsAs _ _ value).mpr rounds
  rw [String.toList_ofList]
  exact core.symm

theorem RoundsTo.distance {numeral : Numeral} {value : Float} (rounds : numeral.RoundsTo value) :
    |numeral.signedAmount - Binary64.signedAmount value| =
      |numeral.amount - Binary64.amount (magnitude value)| := by
  have sign := rounds.sign
  rw [minusFirst] at sign
  unfold signedAmount Binary64.signedAmount
  by_cases minus : numeral.sign = .minus
  · rw [if_pos minus, if_pos (sign.mpr minus), neg_sub_neg, abs_sub_comm]
  · rw [if_neg minus, if_neg (mt sign.mp minus)]

theorem amountNonnegative (numeral : Numeral) : 0 ≤ numeral.amount := by
  rw [← decimalAmount, Decimal.amount]
  exact mul_nonneg (Nat.cast_nonneg _) (zpow_nonneg (by decide) _)

end Numeral

theorem Decimal.distanceGrains (number : ℚ) (magnitude : Nat) :
    |number / 10 ^ 1074 - Binary64.amount magnitude| =
      |number - exact magnitude| / 10 ^ 1074 := by
  rw [amountExact, ← sub_div, abs_div, abs_of_pos (pow_pos (by decide : (0 : ℚ) < 10) 1074)]

/-- A numeral for the shortest decimal has fewest digits, and it is closest with as many. -/
theorem Decimal.writesFewest {size : Nat} (positive : 0 < size) (finite : size < infinity)
    {numeral other : Numeral} (writes : (shortest size).Writes numeral)
    (rounds : Binary64.Rounds other.amount size) :
    numeral.significant.length ≤ other.significant.length ∧
      (numeral.significant.length = other.significant.length →
        |numeral.amount - Binary64.amount size| ≤ |other.amount - Binary64.amount size|) := by
  obtain ⟨place, digits, found, coarsest⟩ := shortestCoarsest size positive
  obtain ⟨exponent, same⟩ := other.amountSignificant
  have bound := Digits.valueBound other.significant
  have ten : (10 : ℚ) ^ 1074 ≠ 0 := pow_ne_zero 1074 (by decide)
  have scaled : other.amount * 10 ^ 1074 =
      other.significant.value * 10 ^ (exponent + (1074 : Nat)) := by
    rw [same, zpow_add₀ (by decide), zpow_natCast, mul_assoc]
  have reads := roundsReads rounds other.amountNonnegative finite
  rw [scaled] at reads
  rw [found] at writes
  have count := writes.significant
  have few := coarsest.fewest positive bound reads
  have present : 0 < other.significant.length := by
    by_contra none
    rw [Nat.eq_zero_of_not_pos none] at few
    exact absurd (coarsest.present positive) (Nat.not_lt.mpr (Nat.le_of_lt_succ few))
  have fewer := (Nat.length_toDigits_le_iff (by decide) present).mpr few
  refine ⟨count.trans fewer, fun equal => ?_⟩
  have length : (Nat.toDigits 10 digits).length = other.significant.length := by
    simp only at count
    omega
  have lower := (digitCount digits (coarsest.present positive)).1
  rw [length] at lower
  have close := coarsest.closest positive (by rwa [Nat.sub_add_cancel present]) reads lower
  rw [writes.amount, amountGrid, ← mul_div_cancel_right₀ other.amount ten, scaled, distanceGrains,
    distanceGrains]
  exact div_le_div_of_nonneg_right close (pow_nonneg (by decide) 1074)

/-- The text of a finite value other than zero is a numeral that rounds to the value. -/
theorem Binary64.textRounds (value : Float) (positive : 0 < magnitude value)
    (finite : magnitude value < infinity) :
    ∃ numeral : Numeral, numeral.text = text value ∧ numeral.RoundsTo value ∧
      (numeral.exponent = none ↔ (10 ^ (-4 : ℤ) : ℚ) ≤ amount (magnitude value) ∧
        amount (magnitude value) < 10 ^ 16) ∧
      (Decimal.shortest (magnitude value)).Writes numeral := by
  obtain ⟨numeral, signed, layout, unsigned, writes⟩ :=
    (Decimal.shortest (magnitude value)).textNumeral (if isNegative value then .minus else .absent)
  have sign : numeral.sign.text = signText value := by
    rw [signed, signText]
    split <;> rfl
  have written : numeral.text = text value := by
    rw [Numeral.text, sign, unsigned, text]
    simp only [if_neg finite.le.not_gt, if_neg finite.ne, if_neg positive.ne']
  refine ⟨numeral, written, ⟨?_, ?_⟩, ?_, writes⟩
  · rw [Numeral.minusFirst, signed]
    cases isNegative value <;> decide
  · obtain ⟨place, digits, found, coarsest⟩ := Decimal.shortestCoarsest _ positive
    rw [writes.amount, found, Decimal.amountGrid]
    exact coarsest.reads.rounds finite.le
  · rw [layout]
    exact Decimal.plainPosition _ positive

section Special

/-- A bare text is read as it stands. -/
theorem readBare {text : List Char} (bare : Text.Bare text) {literal : Literal}
    (read : Literal.read? text = some literal) :
    (readNumber (String.ofList text)).outcome = .ok literal.value := by
  have core : Text.Core (String.ofList text).toList text := by
    rw [String.toList_ofList]
    exact Text.coreBare bare
  rw [readNumberCore _ text core, read]

theorem bareInfinity (negative : Bool) :
    Text.Bare ((if negative then "-inf" else "inf").toList) := by
  cases negative <;> decide

theorem readInfinity (negative : Bool) :
    Literal.read? (if negative then "-inf" else "inf").toList = some (.infinite negative) := by
  cases negative <;> rfl

/-- Zero is written with its sign, and its numeral has no significant digit. -/
def Numeral.zero (negative : Bool) : Numeral :=
  ⟨if negative then .minus else .absent, [Digits.zero], some [Digits.zero], none,
    List.cons_ne_nil _ _⟩

theorem Numeral.zeroText (negative : Bool) :
    (zero negative).text = (if negative then "-0.0" else "0.0").toList := by
  cases negative <;> rfl

theorem Numeral.zeroRounds (value : Float) (none : magnitude value = 0) :
    (zero (isNegative value)).RoundsTo value := by
  constructor
  · rw [minusFirst]
    cases isNegative value <;> decide
  · have exact := (Decimal.readsExact 0).rounds (Nat.zero_le _)
    have nothing : (zero (isNegative value)).amount = Decimal.exact 0 / 10 ^ 1074 := by
      rw [← Decimal.amountExact, Binary64.amountUnits, Binary64.unitsOfSmall 0 (by decide)]
      simp [amount, zero, Digits.value, Digits.zero]
    rw [none, nothing]
    exact exact

theorem Binary64.textNotANumber (value : Float) (beyond : infinity < magnitude value) :
    text value = "NaN".toList := by
  rw [text]
  exact if_pos beyond

theorem Binary64.textInfinity (value : Float) (infinite : magnitude value = infinity) :
    text value = (if isNegative value then "-inf" else "inf").toList := by
  rw [text]
  simp only [infinite, lt_irrefl, if_false, if_true, signText]
  cases isNegative value <;> rfl

theorem Binary64.textZero (value : Float) (none : magnitude value = 0) :
    text value = (if isNegative value then "-0.0" else "0.0").toList := by
  rw [text]
  simp only [none, Nat.not_lt_zero, if_false, if_true, signText]
  cases isNegative value <;> rfl

end Special

/-- Every value is read from its own text. -/
theorem Binary64.textReads (value : Float) :
    (readNumber (String.ofList (text value))).outcome = .ok value := by
  rcases Nat.lt_trichotomy (magnitude value) infinity with finite | infinite | beyond
  · rcases Nat.eq_zero_or_pos (magnitude value) with none | positive
    · rw [textZero value none, ← Numeral.zeroText]
      exact (Numeral.zeroRounds value none).reads
    · obtain ⟨numeral, written, rounds, _⟩ := textRounds value positive finite
      rw [← written]
      exact rounds.reads
  · rw [textInfinity value infinite, readBare (bareInfinity _) (readInfinity _)]
    apply congrArg Except.ok
    apply eqOfMagnitude
    · exact isNegativeOfMagnitude _ _ le_rfl
    · rw [infinite]
      exact magnitudeOfMagnitude _ _ le_rfl
  · have bare : Text.Bare "NaN".toList := by decide
    have word : Literal.read? "NaN".toList = some .notANumber := rfl
    rw [textNotANumber value beyond, readBare bare word, eqNotANumber value beyond]
    rfl

/--
The text of a number is read as the number itself, bit for bit.
The text of a finite number other than zero is plain from 10 ^ -4 up to 10 ^ 16. No numeral with
fewer significant digits is read as the number, and none with as many is closer to it.
-/
theorem writtenValuesReadBack {Hidden : Type} (addresses : Node.Addresses) (world : World Hidden)
    (value : Float) :
    (Node.number value).describe addresses world =
      "Number(Number(".toList ++ Binary64.text value ++ "))".toList ∧
    (readNumber (String.ofList (Binary64.text value))).outcome = .ok value ∧
    (infinity < magnitude value → Binary64.text value = "NaN".toList) ∧
    (magnitude value = infinity →
      Binary64.text value = (if isNegative value then "-inf" else "inf").toList) ∧
    (magnitude value = 0 →
      Binary64.text value = (if isNegative value then "-0.0" else "0.0").toList) ∧
    (0 < magnitude value → magnitude value < infinity →
      ∃ numeral : Numeral, numeral.text = Binary64.text value ∧
        (numeral.exponent = none ↔ (10 ^ (-4 : ℤ) : ℚ) ≤ |Binary64.signedAmount value| ∧
          |Binary64.signedAmount value| < 10 ^ 16) ∧
        ∀ (other : Numeral) (source : String), Text.trim source.toList = other.text →
          (readNumber source).outcome = .ok value →
          numeral.significant.length ≤ other.significant.length ∧
          (numeral.significant.length = other.significant.length →
            |numeral.signedAmount - Binary64.signedAmount value| ≤
              |other.signedAmount - Binary64.signedAmount value|)) := by
  refine ⟨?_, Binary64.textReads value, Binary64.textNotANumber value,
    Binary64.textInfinity value, Binary64.textZero value, ?_⟩
  · exact List.append_nil _
  · intro positive finite
    obtain ⟨numeral, written, rounds, layout, writes⟩ := Binary64.textRounds value positive finite
    rw [Binary64.absSignedAmount]
    refine ⟨numeral, written, layout, ?_⟩
    intro other source trimmed read
    have roundsOther := (other.readsAs source trimmed value).mp read
    rw [rounds.distance, roundsOther.distance]
    exact Decimal.writesFewest positive finite writes roundsOther.rounds

/-- Two units are written as 1e-323, although 9e-324 on a finer grid is read as them as well. -/
theorem writtenValuesReadBackSubnormal :
    (readNumber "9e-324").outcome = .ok (ofMagnitude false 2) ∧
      ∃ numeral other : Numeral, numeral.text = "1e-323".toList ∧ numeral.exponent ≠ none ∧
        other.text = "9e-324".toList ∧
        numeral.significant.length ≤ other.significant.length ∧
        (numeral.significant.length = other.significant.length →
          |numeral.signedAmount - Binary64.signedAmount (ofMagnitude false 2)| ≤
            |other.signedAmount - Binary64.signedAmount (ofMagnitude false 2)|) := by
  have size : magnitude (ofMagnitude false 2) = 2 :=
    Binary64.magnitudeOfMagnitude false 2 (by decide)
  have sign : isNegative (ofMagnitude false 2) = false :=
    Binary64.isNegativeOfMagnitude false 2 (by decide)
  have text : Binary64.text (ofMagnitude false 2) = "1e-323".toList := by
    rw [Binary64.text, size, Binary64.signText, sign]
    decide +kernel
  have nine : Decimal.magnitude ⟨9, -324⟩ = 2 := by decide +kernel
  have read : (readNumber "9e-324").outcome = .ok (ofMagnitude false 2) := by
    rw [← nine]
    rfl
  have small : ¬((10 ^ (-4 : ℤ) : ℚ) ≤ |Binary64.signedAmount (ofMagnitude false 2)| ∧
      |Binary64.signedAmount (ofMagnitude false 2)| < 10 ^ 16) := by
    rw [Binary64.absSignedAmount, size, ← Decimal.plainPosition 2 (by decide)]
    decide +kernel
  let other : Numeral := ⟨.absent, [9], none, some ⟨false, .minus, [3, 2, 4], nofun⟩, nofun⟩
  obtain ⟨_, _, _, _, _, finite⟩ :=
    writtenValuesReadBack (fun _ => 0) (World.empty : World Nat) (ofMagnitude false 2)
  rw [size, text] at finite
  obtain ⟨numeral, written, layout, fewest⟩ := finite (by decide) (by decide)
  have trimmed : Text.trim "9e-324".toList = other.text := by decide
  exact ⟨read, numeral, other, written, mt layout.mp small, rfl,
    fewest other "9e-324" trimmed read⟩

end ExprTree
