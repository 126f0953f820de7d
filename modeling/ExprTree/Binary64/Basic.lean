/-
This file takes binary64 values apart into a sign and a magnitude.
-/

namespace ExprTree.Binary64

/-- The sign bit is the highest of the 64 bits. -/
abbrev signBit : Nat := 0x8000000000000000

/-- A normal significand has this bit, which its pattern leaves out. -/
abbrev leadingBit : Nat := 0x10000000000000

/-- Magnitudes below this one are finite, and magnitudes above it are no numbers. -/
abbrev infinity : Nat := 0x7ff0000000000000

/-- The magnitude of a value is its bit pattern without the sign bit. -/
def magnitude (value : Float) : Nat := value.toBits.toNat % signBit

def isNegative (value : Float) : Bool := decide (signBit ≤ value.toBits.toNat)

def ofMagnitude (negative : Bool) (magnitude : Nat) : Float :=
  Float.ofBits (UInt64.ofNat (if negative then signBit + magnitude else magnitude))

def notANumber : Float := 0.0 / 0.0

/-- Every finite value is a whole number of units, and 1074 doublings of a unit make one. -/
def units (magnitude : Nat) : Nat :=
  if magnitude < leadingBit then magnitude
  else (leadingBit + magnitude % leadingBit) <<< (magnitude / leadingBit - 1)

/-- The units of a magnitude below the second binade are the magnitude itself. -/
theorem unitsOfSmall (magnitude : Nat) (small : magnitude < 2 * leadingBit) :
    units magnitude = magnitude := by
  unfold units leadingBit at *
  split
  · rfl
  · have field : magnitude / 0x10000000000000 = 1 := by omega
    rw [field]
    simp only [Nat.sub_self, Nat.shiftLeft_zero]
    omega

end ExprTree.Binary64
