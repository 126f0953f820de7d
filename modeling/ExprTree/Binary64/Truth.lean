/-
This file reads numbers as Booleans and writes Booleans as numbers.
-/

namespace ExprTree.Binary64

/-- Both zeros are false, and every other number is true, NaN included. -/
def isTrue (value : Float) : Bool := value != 0.0

def ofBool (truth : Bool) : Float := if truth then 1.0 else 0.0

end ExprTree.Binary64
