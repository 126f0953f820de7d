/-
This file shows that the texts of numerals are exactly the decimal literals.
-/

import ExprTree.Proofs.Literal.Numeral

namespace ExprTree.Literal
open Numeral

/-- After its sign a number starts with a digit or with its point. -/
def StartsNumber (text : List Char) : Prop :=
  ∃ first rest, text = first :: rest ∧ (first.isDigit = true ∨ first = '.')

theorem startsDigits (digits : Digits) (present : digits ≠ []) (rest : List Char) :
    StartsNumber (digits.text ++ rest) := by
  cases digits with
  | nil => exact absurd rfl present
  | cons digit others =>
      refine ⟨digit.val.digitChar, Digits.text others ++ rest, rfl, .inl ?_⟩
      exact Digits.textDigit (digit :: others) _ List.mem_cons_self

theorem startsUnsigned (numeral : Numeral) : StartsNumber numeral.unsigned := by
  unfold unsigned
  by_cases absent : numeral.whole = []
  · have present := numeral.present
    rw [absent, List.nil_append] at present
    rw [absent]
    cases fraction : numeral.fraction with
    | none =>
        rw [fraction] at present
        exact absurd rfl present
    | some digits => exact ⟨'.', _, rfl, .inr rfl⟩
  · exact startsDigits numeral.whole absent _

/-- A sign is split off a text that starts with no other one. -/
theorem splitSignBare (sign : Mark) (rest : List Char)
    (bare : ∀ first ∈ rest.head?, first ≠ '-' ∧ first ≠ '+') :
    splitSign (sign.text ++ rest) = (decide (sign = .minus), rest) := by
  cases sign with
  | plus => rfl
  | minus => rfl
  | absent =>
      show splitSign rest = (false, rest)
      unfold splitSign
      split
      case h_1 => exact absurd rfl (bare '-' rfl).1
      case h_2 => exact absurd rfl (bare '+' rfl).2
      case h_3 => rfl

theorem splitSignText (sign : Mark) (rest : List Char) (starts : StartsNumber rest) :
    splitSign (sign.text ++ rest) = (decide (sign = .minus), rest) := by
  obtain ⟨first, others, rfl, number⟩ := starts
  apply splitSignBare sign
  rintro _ ⟨⟩
  constructor
  · rintro rfl
    exact absurd number (by decide)
  · rintro rfl
    exact absurd number (by decide)

theorem ofSplitSign (text : List Char) :
    ∃ sign : Mark, text = sign.text ++ (splitSign text).2 ∧
      (splitSign text).1 = decide (sign = .minus) := by
  unfold splitSign
  split
  · exact ⟨.minus, rfl, rfl⟩
  · exact ⟨.plus, rfl, rfl⟩
  · exact ⟨.absent, rfl, rfl⟩

theorem readExponentText (exponent : Option Exponent) :
    readExponent? (exponentText exponent) = some (exponent.elim 0 Exponent.value) := by
  cases exponent with
  | none => rfl
  | some exponent =>
      have starts := startsDigits exponent.digits exponent.present []
      rw [List.append_nil] at starts
      have letter : (if exponent.capital then 'E' else 'e') = 'e' ∨
          (if exponent.capital then 'E' else 'e') = 'E' := by
        cases exponent.capital with
        | false => exact .inl rfl
        | true => exact .inr rfl
      have filled : exponent.digits.text ≠ [] := by
        rw [ne_eq, Digits.textEmpty]
        exact exponent.present
      have listed : exponent.digits.text.all Char.isDigit = true :=
        List.all_eq_true.mpr (Digits.textDigit exponent.digits)
      show readExponent? (_ :: (exponent.sign.text ++ exponent.digits.text)) = _
      rw [readExponent?, splitSignText exponent.sign _ starts]
      simp only
      rw [if_pos ⟨letter, filled, listed⟩, Digits.readText, Option.elim, Exponent.value]
      cases exponent.sign <;> rfl

theorem ofReadExponent (text : List Char) (value : Int) (read : readExponent? text = some value) :
    ∃ exponent, exponentText exponent = text := by
  cases text with
  | nil => exact ⟨none, rfl⟩
  | cons letter rest =>
      obtain ⟨sign, parts, _⟩ := ofSplitSign rest
      rw [readExponent?] at read
      simp only at read
      split at read
      case isTrue valid =>
        obtain ⟨mark, filled, listed⟩ := valid
        obtain ⟨digits, written⟩ := Digits.ofText _ (List.all_eq_true.mp listed)
        have present : digits ≠ [] := by
          rw [ne_eq, ← Digits.textEmpty, written]
          exact filled
        refine ⟨some ⟨decide (letter = 'E'), sign, digits, present⟩, ?_⟩
        have same : (if decide (letter = 'E') then 'E' else 'e') = letter := by
          rcases mark with small | capital
          · rw [small]
            rfl
          · rw [capital]
            rfl
        show _ :: (sign.text ++ digits.text) = letter :: rest
        rw [same, written, ← parts]
      case isFalse => exact absurd read (by simp)

/-- A run of digits ends before another character. -/
def Stops (text : List Char) : Prop := ∀ first ∈ text.head?, first.isDigit = false

theorem takeDigits (digits : Digits) (rest : List Char) (stops : Stops rest) :
    (digits.text ++ rest).takeWhile Char.isDigit = digits.text := by
  rw [List.takeWhile_append_of_pos (Digits.textDigit digits)]
  cases rest with
  | nil => simp
  | cons first others =>
      rw [List.takeWhile_cons_of_neg (Bool.eq_false_iff.mp (stops first rfl)), List.append_nil]

theorem dropDigits (digits : Digits) (rest : List Char) (stops : Stops rest) :
    (digits.text ++ rest).dropWhile Char.isDigit = rest := by
  rw [List.dropWhile_append_of_pos (Digits.textDigit digits)]
  cases rest with
  | nil => rfl
  | cons first others =>
      rw [List.dropWhile_cons_of_neg (Bool.eq_false_iff.mp (stops first rfl))]

theorem stopsExponent (exponent : Option Exponent) : Stops (exponentText exponent) := by
  cases exponent with
  | none =>
      intro first listed
      exact absurd listed (by simp [exponentText])
  | some exponent =>
      rintro first ⟨⟩
      cases exponent.capital <;> rfl

theorem stopsFraction (fraction : Option Digits) (exponent : Option Exponent) :
    Stops (fractionText fraction ++ exponentText exponent) := by
  cases fraction with
  | none => exact stopsExponent exponent
  | some digits =>
      rintro first ⟨⟩
      rfl

theorem splitFractionText (fraction : Option Digits) (exponent : Option Exponent) :
    splitFraction (fractionText fraction ++ exponentText exponent) =
      (Digits.text (fraction.getD []), exponentText exponent) := by
  cases fraction with
  | none =>
      cases exponent with
      | none => rfl
      | some exponent =>
          show splitFraction (_ :: _) = ([], _ :: _)
          cases exponent.capital <;> rfl
  | some digits =>
      have stops := stopsExponent exponent
      show ((digits.text ++ exponentText exponent).takeWhile Char.isDigit,
        (digits.text ++ exponentText exponent).dropWhile Char.isDigit) = _
      rw [takeDigits digits _ stops, dropDigits digits _ stops]
      rfl

theorem ofSplitFraction (text : List Char) :
    ∃ fraction : Option Digits, fractionText fraction ++ (splitFraction text).2 = text ∧
      Digits.text (fraction.getD []) = (splitFraction text).1 := by
  unfold splitFraction
  split
  case h_1 rest =>
    obtain ⟨digits, written⟩ := Digits.ofText (rest.takeWhile Char.isDigit)
      (List.all_eq_true.mp List.all_takeWhile)
    refine ⟨some digits, ?_, written⟩
    show '.' :: digits.text ++ rest.dropWhile Char.isDigit = '.' :: rest
    rw [written, List.cons_append, List.takeWhile_append_dropWhile]
  case h_2 => exact ⟨none, rfl, rfl⟩

theorem readDecimalText (numeral : Numeral) :
    readDecimal? numeral.unsigned = some numeral.decimal := by
  have stops := stopsFraction numeral.fraction numeral.exponent
  have present : ¬(numeral.whole.text = [] ∧ Digits.text (numeral.fraction.getD []) = []) := by
    rw [Digits.textEmpty, Digits.textEmpty, ← List.append_eq_nil_iff]
    exact numeral.present
  unfold readDecimal? unsigned
  simp only
  rw [takeDigits _ _ stops, dropDigits _ _ stops, splitFractionText]
  simp only
  rw [if_neg present, readExponentText, Option.map_some, ← Digits.textAppend, Digits.readText,
    Digits.textLength]
  rfl

theorem ofReadDecimal (sign : Mark) (text : List Char) (decimal : Decimal)
    (read : readDecimal? text = some decimal) :
    ∃ numeral : Numeral, numeral.sign = sign ∧ numeral.unsigned = text := by
  obtain ⟨whole, written⟩ := Digits.ofText (text.takeWhile Char.isDigit)
    (List.all_eq_true.mp List.all_takeWhile)
  obtain ⟨fraction, parts, digits⟩ := ofSplitFraction (text.dropWhile Char.isDigit)
  unfold readDecimal? at read
  simp only at read
  split at read
  case isTrue => exact absurd read (by simp)
  case isFalse some =>
    obtain ⟨value, readRest, _⟩ := Option.map_eq_some_iff.mp read
    obtain ⟨exponent, rest⟩ := ofReadExponent _ value readRest
    have present : whole ++ fraction.getD [] ≠ [] := by
      rw [ne_eq, List.append_eq_nil_iff, ← Digits.textEmpty, ← Digits.textEmpty, written, digits]
      exact some
    refine ⟨⟨sign, whole, fraction, exponent, present⟩, rfl, ?_⟩
    show whole.text ++ (fractionText fraction ++ exponentText exponent) = text
    rw [rest, parts, written, List.takeWhile_append_dropWhile]

/-- No word for infinity or NaN starts like a number. -/
theorem notWord (text : List Char) (starts : StartsNumber text) (letter : Char) (word : List Char)
    (alphabetic : letter.isDigit = false ∧ letter ≠ '.') :
    String.ofList (text.map Char.toLower) ≠ String.ofList (letter :: word) := by
  obtain ⟨first, rest, rfl, number⟩ := starts
  intro same
  have lower : first.toLower = letter := (List.cons.inj (String.ofList_injective same)).1
  have unchanged : first.toLower = first := by
    rcases number with decimal | point
    · obtain ⟨digit, rfl⟩ := Digits.ofDigit first decimal
      exact Digits.lowerDigit digit
    · rw [point]
      rfl
  rw [← lower, unchanged] at alphabetic
  rcases number with decimal | point
  · rw [decimal] at alphabetic
    exact absurd alphabetic.1 (by decide)
  · exact alphabetic.2 point

theorem readText (numeral : Numeral) :
    read? numeral.text = some (.decimal (decide (numeral.sign = .minus)) numeral.decimal) := by
  have starts := startsUnsigned numeral
  have infinite := notWord numeral.unsigned starts 'i' ['n', 'f'] (by decide)
  have full := notWord numeral.unsigned starts 'i' ['n', 'f', 'i', 'n', 'i', 't', 'y'] (by decide)
  have nan := notWord numeral.unsigned starts 'n' ['a', 'n'] (by decide)
  unfold read? Numeral.text
  rw [splitSignText numeral.sign _ starts]
  simp only
  rw [if_neg (not_or.mpr ⟨infinite, full⟩), if_neg nan, readDecimalText, Option.map_some]

theorem ofRead (text : List Char) (negative : Bool) (decimal : Decimal)
    (read : read? text = some (.decimal negative decimal)) :
    ∃ numeral : Numeral, numeral.text = text := by
  obtain ⟨sign, parts, _⟩ := ofSplitSign text
  unfold read? at read
  simp only at read
  split at read
  case isTrue => exact absurd read (by simp)
  case isFalse =>
    split at read
    case isTrue => exact absurd read (by simp)
    case isFalse =>
      obtain ⟨found, readUnsigned, _⟩ := Option.map_eq_some_iff.mp read
      obtain ⟨numeral, signed, unsigned⟩ := ofReadDecimal sign _ found readUnsigned
      refine ⟨numeral, ?_⟩
      rw [Numeral.text, signed, unsigned, ← parts]

end ExprTree.Literal
