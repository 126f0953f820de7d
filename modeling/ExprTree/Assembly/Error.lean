/-
This file names the causes for which a part of a tree is refused.
-/

import ExprTree.Literal

namespace ExprTree

/-- A literal, a parameter count or a single parameter can be at fault. -/
inductive AssemblyError where
  | rejectedLiteral (text : String) (fault : Literal.Fault)
  | wrongCount (function : String) (expected supplied : Nat)
  | missingArgument (function : String) (position : Nat)
deriving DecidableEq, Repr

namespace AssemblyError

def isLiteral : AssemblyError → Bool
  | .rejectedLiteral _ _ => true
  | _ => false

/-- Only a literal has an underlying fault. -/
def fault? : AssemblyError → Option Literal.Fault
  | .rejectedLiteral _ fault => some fault
  | _ => none

def message : AssemblyError → String
  | .rejectedLiteral text _ => "invalid numeric literal `" ++ text ++ "`"
  | .wrongCount function expected supplied =>
      "function `" ++ function ++ "` takes " ++ expected.repr ++ " argument(s) but " ++
        supplied.repr ++ " were supplied"
  | .missingArgument function position =>
      "argument " ++ position.repr ++ " of function `" ++ function ++ "` is missing"

end AssemblyError

end ExprTree
