/-
This file finds the shortest decimal that reads back as a given magnitude.
-/

import ExprTree.Decimal.Basic

namespace ExprTree.Decimal
open Binary64

/-- A unit is a whole number of grains, and the 1074th power of ten counts the grains in one. -/
def grains (units : Nat) : Nat := units * Nat.pow 5 1074

/--
The numbers that round to a magnitude reach to the midpoints on both sides.
The midpoints themselves round to the even magnitude.
-/
def readsBack (magnitude count : Nat) : Bool :=
  let lower := grains (units (magnitude - 1) + units magnitude)
  let upper := grains (units magnitude + units (magnitude + 1))
  if magnitude % 2 = 0 then decide (lower ≤ 2 * count ∧ 2 * count ≤ upper)
  else decide (lower < 2 * count ∧ 2 * count < upper)

/--
On a grid of powers of ten only the two neighbours of the value can be nearest.
Of two neighbours equally near the upper one is taken.
-/
def nearestOnGrid? (magnitude power : Nat) : Option Nat :=
  let exact := grains (units magnitude)
  let step := powerOfTen power
  let below := exact / step
  let above := below + 1
  if readsBack magnitude (below * step) then
    if readsBack magnitude (above * step) ∧ step ≤ 2 * (exact % step) then some above
    else some below
  else if readsBack magnitude (above * step) then some above
  else none

/-- The grids become finer until one has a number that reads back. -/
def shortestFrom (magnitude : Nat) : Nat → Decimal
  | 0 => ⟨grains (units magnitude), -1074⟩
  | power + 1 =>
      match nearestOnGrid? magnitude power with
      | some digits => ⟨digits, power - 1074⟩
      | none => shortestFrom magnitude power

/-- The first grid is coarser than twice the value. -/
def shortest (magnitude : Nat) : Decimal :=
  shortestFrom magnitude ((grains (units magnitude)).log2 / 3 + 2)

end ExprTree.Decimal
