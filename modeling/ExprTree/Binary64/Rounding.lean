/-
This file rounds an exact quotient to the nearest binary64 magnitude.
-/

import ExprTree.Binary64.Basic

namespace ExprTree.Binary64

/-- A quotient goes to the nearest whole number, and a half goes to the even one. -/
def roundQuotient (numerator denominator : Nat) : Nat :=
  let whole := numerator / denominator
  let rest := 2 * (numerator % denominator)
  if rest < denominator ∨ (rest = denominator ∧ whole % 2 = 0) then whole else whole + 1

/--
The magnitude nearest to a quotient of units keeps 53 significant bits.
Consecutive magnitudes have consecutive patterns, so a carry moves to the next binade.
-/
def nearest (numerator denominator : Nat) : Nat :=
  let scale := (numerator / denominator).log2 - 52
  min infinity (scale * leadingBit + roundQuotient numerator (denominator <<< scale))

end ExprTree.Binary64
