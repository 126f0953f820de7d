/-
This file holds the standard binary operations and their symbols.
-/

import ExprTree.Binary64.Remainder
import ExprTree.Binary64.Truth

namespace ExprTree

/-- Arithmetic comes first, then comparison, then logic. -/
inductive BinaryOp where
  | add
  | sub
  | mul
  | div
  | rem
  | pow
  | lt
  | le
  | gt
  | ge
  | eq
  | notEq
  | and
  | or
deriving DecidableEq, Repr

namespace BinaryOp

def all : List BinaryOp :=
  [.add, .sub, .mul, .div, .rem, .pow, .lt, .le, .gt, .ge, .eq, .notEq, .and, .or]

/-- Comparison and logic answer one for true and zero for false, and evaluate both operands. -/
def apply : BinaryOp → Float → Float → Float
  | .add, left, right => left + right
  | .sub, left, right => left - right
  | .mul, left, right => left * right
  | .div, left, right => left / right
  | .rem, left, right => Binary64.remainder left right
  | .pow, left, right => left.pow right
  | .lt, left, right => Binary64.ofBool (left < right)
  | .le, left, right => Binary64.ofBool (left ≤ right)
  | .gt, left, right => Binary64.ofBool (right < left)
  | .ge, left, right => Binary64.ofBool (right ≤ left)
  | .eq, left, right => Binary64.ofBool (left == right)
  | .notEq, left, right => Binary64.ofBool (left != right)
  | .and, left, right => Binary64.ofBool (Binary64.isTrue left && Binary64.isTrue right)
  | .or, left, right => Binary64.ofBool (Binary64.isTrue left || Binary64.isTrue right)

def symbol : BinaryOp → String
  | .add => "+"
  | .sub => "-"
  | .mul => "*"
  | .div => "/"
  | .rem => "%"
  | .pow => "^"
  | .lt => "<"
  | .le => "<="
  | .gt => ">"
  | .ge => ">="
  | .eq => "=="
  | .notEq => "!="
  | .and => "&&"
  | .or => "||"

def name : BinaryOp → String
  | .add => "Add"
  | .sub => "Sub"
  | .mul => "Mul"
  | .div => "Div"
  | .rem => "Rem"
  | .pow => "Pow"
  | .lt => "Lt"
  | .le => "Le"
  | .gt => "Gt"
  | .ge => "Ge"
  | .eq => "Eq"
  | .notEq => "NotEq"
  | .and => "And"
  | .or => "Or"

def ofSymbol? (symbol : String) : Option BinaryOp :=
  all.find? fun op => op.symbol == symbol

/-- Each operation is found under its own symbol. -/
theorem ofSymbolSymbol (op : BinaryOp) : ofSymbol? op.symbol = some op := by
  cases op <;> decide

end BinaryOp

end ExprTree
