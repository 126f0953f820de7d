/-
This file gives the exact remainder of a truncated division.
-/

import ExprTree.Binary64.Basic

namespace ExprTree.Binary64

/-- A whole number of units with at most 53 significant bits has this magnitude. -/
def ofUnits (units : Nat) : Nat :=
  let scale := units.log2 - 52
  scale * leadingBit + units >>> scale

/--
The remainder of a division truncated toward zero carries the sign of the dividend.
It is a whole number of units of the smaller operand, so no rounding takes place.
-/
def remainder (dividend divisor : Float) : Float :=
  let top := magnitude dividend
  let bottom := magnitude divisor
  if infinity ≤ top ∨ bottom = 0 ∨ infinity < bottom then notANumber
  else if bottom = infinity then dividend
  else ofMagnitude (isNegative dividend) (ofUnits (units top % units bottom))

end ExprTree.Binary64
