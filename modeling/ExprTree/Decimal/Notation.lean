/-
This file writes decimals and binary64 values.
-/

import ExprTree.Decimal.Significant

namespace ExprTree

namespace Decimal

/-- The point stands after this many digits, counted from the first one. -/
def position (decimal : Decimal) : Int :=
  decimal.exponent + (Nat.toDigits 10 decimal.digits).length

def zeros (count : Nat) : List Char := List.replicate count '0'

/-- Positional notation has at least one digit on each side of the point. -/
def positional (decimal : Decimal) : List Char :=
  let digits := Nat.toDigits 10 decimal.digits
  match decimal.position with
  | .ofNat 0 => '0' :: '.' :: digits
  | .negSucc gap => '0' :: '.' :: zeros (gap + 1) ++ digits
  | .ofNat place =>
      if digits.length ≤ place then digits ++ zeros (place - digits.length) ++ ['.', '0']
      else digits.take place ++ '.' :: digits.drop place

def exponentText (exponent : Int) : List Char :=
  let digits := Nat.toDigits 10 exponent.natAbs
  if exponent < 0 then '-' :: digits else digits

/-- Scientific notation has one digit before the point, and no point without a fraction. -/
def scientific (decimal : Decimal) : List Char :=
  let exponent := 'e' :: exponentText (decimal.position - 1)
  match Nat.toDigits 10 decimal.digits with
  | first :: second :: rest => first :: '.' :: second :: rest ++ exponent
  | digits => digits ++ exponent

/-- Values from 10 ^ -4 up to 10 ^ 16 are written positionally. -/
def text (decimal : Decimal) : List Char :=
  if -3 ≤ decimal.position ∧ decimal.position ≤ 16 then decimal.positional
  else decimal.scientific

end Decimal

namespace Binary64

def signText (value : Float) : List Char := if isNegative value then ['-'] else []

/-- The text of a value has the fewest digits that read back. -/
def text (value : Float) : List Char :=
  let size := magnitude value
  if infinity < size then "NaN".toList
  else signText value ++
    if size = infinity then "inf".toList
    else if size = 0 then "0.0".toList
    else (Decimal.shortest size).text

/-- The rounded text of a value has a fixed count of significant digits. -/
def roundedText (count : Nat) (value : Float) : List Char :=
  let size := magnitude value
  if infinity < size then "NaN".toList
  else signText value ++
    if size = infinity then "inf".toList
    else if size = 0 then "0".toList
    else (Decimal.significant count size).scientific

end Binary64

end ExprTree
