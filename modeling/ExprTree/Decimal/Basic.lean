/-
This file reads decimal numbers into binary64 magnitudes.
-/

import ExprTree.Binary64.Rounding

namespace ExprTree

/-- A decimal is a whole number times a power of ten. -/
structure Decimal where
  digits : Nat
  exponent : Int
deriving DecidableEq, Repr

namespace Decimal

abbrev powerOfTen (exponent : Nat) : Nat := Nat.pow 10 exponent

/--
The magnitude of a decimal is the binary64 magnitude nearest to its exact value.
A power of ten beyond the range decides without being computed.
-/
def magnitude (decimal : Decimal) : Nat :=
  match decimal.exponent with
  | .ofNat power =>
      if decimal.digits = 0 then 0
      else if 309 ≤ power then Binary64.infinity
      else Binary64.nearest ((decimal.digits * powerOfTen power) <<< 1074) 1
  | .negSucc power =>
      if decimal.digits.log2 + 1080 ≤ 3 * (power + 1) then 0
      else Binary64.nearest (decimal.digits <<< 1074) (powerOfTen (power + 1))

end Decimal

end ExprTree
