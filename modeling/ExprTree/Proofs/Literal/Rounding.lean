/-
This file shows that decimal literals are read as their correct roundings.
-/

import ExprTree.Assembly.Builder
import ExprTree.Proofs.Binary64.Bits
import ExprTree.Proofs.Literal.Reading

namespace ExprTree
open Binary64 (isNegative ofMagnitude)

namespace Numeral

/-- The sign is taken from the text, even when the magnitude is zero or infinity. -/
structure RoundsTo (numeral : Numeral) (value : Float) : Prop where
  sign : isNegative value = true ↔ numeral.text.head? = some '-'
  rounds : Binary64.Rounds numeral.amount (Binary64.magnitude value)

theorem minusFirst (numeral : Numeral) :
    numeral.text.head? = some '-' ↔ numeral.sign = .minus := by
  unfold text
  cases numeral.sign with
  | minus => exact iff_of_true rfl rfl
  | plus => exact iff_of_false nofun (by decide)
  | absent =>
      obtain ⟨first, rest, same, number⟩ := Literal.startsUnsigned numeral
      have other : numeral.unsigned.head? ≠ some '-' := by
        rw [same, List.head?_cons]
        rintro ⟨⟩
        exact absurd number (by decide)
      exact iff_of_false other (by decide)

theorem valueRounds (numeral : Numeral) :
    numeral.RoundsTo
      (Literal.decimal (decide (numeral.sign = .minus)) numeral.decimal).value := by
  have rounds := Decimal.magnitudeRounds numeral.decimal
  constructor
  · rw [Literal.value, Binary64.isNegativeOfMagnitude _ _ rounds.bounded, decide_eq_true_iff,
      minusFirst]
  · rw [Literal.value, Binary64.magnitudeOfMagnitude _ _ rounds.bounded, ← decimalAmount]
    exact rounds

theorem RoundsTo.unique {numeral : Numeral} {first second : Float}
    (one : numeral.RoundsTo first) (two : numeral.RoundsTo second) : first = second := by
  apply Binary64.eqOfMagnitude
  · rw [Bool.eq_iff_iff, one.sign, two.sign]
  · exact one.rounds.unique two.rounds

end Numeral

/--
The text of a numeral is read as its one correct rounding, with any blanks around it.
Every decimal literal is the text of a numeral.
-/
theorem decimalLiteralsRound (text : String) :
    (∀ numeral : Numeral, Text.trim text.toList = numeral.text →
      ∃ value, (readNumber text).outcome = .ok value ∧
        ∀ other, numeral.RoundsTo other ↔ other = value) ∧
    ∀ negative decimal, Literal.read text = .ok (.decimal negative decimal) →
      ∃ numeral : Numeral, Text.trim text.toList = numeral.text := by
  constructor
  · intro numeral same
    have read : Literal.read text =
        .ok (.decimal (decide (numeral.sign = .minus)) numeral.decimal) := by
      rw [Literal.read, Literal.readTrimmed, same, Literal.readText]
    have found : (readNumber text).outcome =
        .ok (Literal.decimal (decide (numeral.sign = .minus)) numeral.decimal).value := by
      rw [readNumber, read]
      rfl
    have rounds := numeral.valueRounds
    refine ⟨_, found, ?_⟩
    intro other
    constructor
    · intro correct
      exact correct.unique rounds
    · rintro rfl
      exact rounds
  · intro negative decimal read
    cases found : Literal.read? (Text.trim text.toList) with
    | none =>
        rw [Literal.read, Literal.readTrimmed, found] at read
        exact absurd read nofun
    | some literal =>
        rw [Literal.read, Literal.readTrimmed, found] at read
        obtain ⟨numeral, same⟩ := Literal.ofRead _ negative decimal
          (found.trans (congrArg some (Except.ok.inj read)))
        exact ⟨numeral, same.symm⟩

/-- This numeral is a way to write -9007199254740993, which is halfway between two values. -/
def Numeral.halfway : Numeral where
  sign := .minus
  whole := [9, 0, 0, 7, 1, 9, 9, 2, 5, 4, 7, 4, 0, 9, 9]
  fraction := some [3, 0]
  exponent := some ⟨false, .plus, [1], by decide⟩
  present := by decide

theorem decimalLiteralsRoundHalfway :
    (readNumber " -900719925474099.30e+1\n").outcome =
        .ok (ofMagnitude true 0x4340000000000000) ∧
      Numeral.halfway.RoundsTo (ofMagnitude true 0x4340000000000000) := by
  obtain ⟨value, read, unique⟩ :=
    (decimalLiteralsRound " -900719925474099.30e+1\n").1 Numeral.halfway (by decide)
  have literal : Literal.read " -900719925474099.30e+1\n" =
      .ok (.decimal true ⟨90071992547409930, -1⟩) := by decide +kernel
  have even : Decimal.magnitude ⟨90071992547409930, -1⟩ = 0x4340000000000000 := by
    decide +kernel
  have found : (readNumber " -900719925474099.30e+1\n").outcome =
      .ok (ofMagnitude true 0x4340000000000000) := by
    rw [readNumber, literal, ← even]
    rfl
  exact ⟨found, (unique _).mpr (Except.ok.inj (found.symm.trans read))⟩

end ExprTree
