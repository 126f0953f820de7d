/-
This file rounds a magnitude to a given number of significant digits.
-/

import ExprTree.Decimal.Shortest

namespace ExprTree.Decimal
open Binary64

/-- A half goes to the even digit, and a carry keeps the number of digits. -/
def significant (count magnitude : Nat) : Decimal :=
  let exact := grains (units magnitude)
  let length := (Nat.toDigits 10 exact).length
  if length ≤ count then ⟨exact * powerOfTen (count - length), (length : Int) - count - 1074⟩
  else
    let power := length - count
    let rounded := roundQuotient exact (powerOfTen power)
    if rounded = powerOfTen count then ⟨powerOfTen (count - 1), power + 1 - 1074⟩
    else ⟨rounded, power - 1074⟩

end ExprTree.Decimal
