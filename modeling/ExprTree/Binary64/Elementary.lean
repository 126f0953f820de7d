/-
This file holds the elementary functions that are built from the primitive ones.
-/

import ExprTree.Binary64.Basic

namespace ExprTree.Binary64

/-- Truncation drops the fraction and keeps the sign. -/
def truncate (value : Float) : Float := if value < 0.0 then value.ceil else value.floor

/-- The sign is one of -1, 0 and 1; a zero keeps its sign, and NaN has no other. -/
def sign (value : Float) : Float :=
  if value == 0.0 || value.isNaN then value
  else if isNegative value then -1.0 else 1.0

/-- The smaller operand wins, and an operand that is NaN loses to the other one. -/
def minimum (first second : Float) : Float :=
  if first.isNaN then second
  else if second.isNaN then first
  else if second < first then second else first

/-- The larger operand wins, and an operand that is NaN loses to the other one. -/
def maximum (first second : Float) : Float :=
  if first.isNaN then second
  else if second.isNaN then first
  else if first < second then second else first

def logarithm (value base : Float) : Float := value.log / base.log

/--
The hypotenuse divides by the longer leg first, so no square overflows.
An infinite leg decides even beside NaN.
-/
def hypotenuse (first second : Float) : Float :=
  let longer := maximum first.abs second.abs
  let shorter := minimum first.abs second.abs
  if longer == 1.0 / 0.0 then longer
  else if first.isNaN || second.isNaN then notANumber
  else if longer == 0.0 then longer
  else
    let ratio := shorter / longer
    longer * (1.0 + ratio * ratio).sqrt

end ExprTree.Binary64
