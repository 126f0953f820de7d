/-
This file reads numeric literals.
-/

import ExprTree.Decimal.Basic
import ExprTree.Text.Blank

namespace ExprTree

/-- A literal is a signed decimal or a word for infinity or NaN. -/
inductive Literal where
  | decimal (negative : Bool) (magnitude : Decimal)
  | infinite (negative : Bool)
  | notANumber
deriving DecidableEq, Repr

/-- A text that is no literal is either empty or ill-formed. -/
inductive Literal.Fault where
  | empty
  | invalid
deriving DecidableEq, Repr

namespace Literal

def Fault.message : Fault → String
  | .empty => "cannot parse float from empty string"
  | .invalid => "invalid float literal"

/-- A minus sign makes a number negative, and a plus sign changes nothing. -/
def splitSign : List Char → Bool × List Char
  | '-' :: rest => (true, rest)
  | '+' :: rest => (false, rest)
  | text => (false, text)

def wholeNumber (digits : List Char) : Nat := Nat.ofDigitChars 10 digits 0

/-- An exponent has a mark, an optional sign and at least one digit. -/
def readExponent? : List Char → Option Int
  | [] => some 0
  | mark :: rest =>
      let (negative, digits) := splitSign rest
      if (mark = 'e' ∨ mark = 'E') ∧ digits ≠ [] ∧ digits.all Char.isDigit then
        some (if negative then -wholeNumber digits else wholeNumber digits)
      else none

/-- The fraction is the run of digits after a point. -/
def splitFraction : List Char → List Char × List Char
  | '.' :: rest => (rest.takeWhile Char.isDigit, rest.dropWhile Char.isDigit)
  | text => ([], text)

/-- A decimal has a digit on at least one side of its optional point. -/
def readDecimal? (text : List Char) : Option Decimal :=
  let whole := text.takeWhile Char.isDigit
  let (fraction, rest) := splitFraction (text.dropWhile Char.isDigit)
  if whole = [] ∧ fraction = [] then none
  else (readExponent? rest).map fun exponent =>
    ⟨wholeNumber (whole ++ fraction), exponent - fraction.length⟩

/-- The words for infinity and NaN have no case. -/
def read? (text : List Char) : Option Literal :=
  let (negative, unsigned) := splitSign text
  let word := String.ofList (unsigned.map Char.toLower)
  if word = "inf" ∨ word = "infinity" then some (.infinite negative)
  else if word = "nan" then some .notANumber
  else (readDecimal? unsigned).map (.decimal negative)

/-- A text without surrounding blanks is a literal, or it is empty or ill-formed. -/
def readTrimmed (text : List Char) : Except Fault Literal :=
  match read? text with
  | some literal => .ok literal
  | none => .error (if text = [] then .empty else .invalid)

def read (text : String) : Except Fault Literal := readTrimmed (Text.trim text.toList)

/-- A decimal has the nearest binary64 value, with the sign of the literal. -/
def value : Literal → Float
  | .decimal negative magnitude => Binary64.ofMagnitude negative magnitude.magnitude
  | .infinite negative => Binary64.ofMagnitude negative Binary64.infinity
  | .notANumber => Binary64.notANumber

end Literal

end ExprTree
