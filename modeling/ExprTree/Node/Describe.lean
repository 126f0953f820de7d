/-
This file describes trees and builders as text.
-/

import ExprTree.Assembly.Builder
import ExprTree.Decimal.Notation
import ExprTree.Text.Quoted

namespace ExprTree

namespace Node

/-- The description of a function encloses its quoted name and its arguments. -/
def describeFunction (name : String) (arguments : List Char → List Char) (rest : List Char) :
    List Char :=
  "Function(Function \x7b name: ".toList ++ Text.quote name ++ ", arguments: [".toList ++
    arguments ("] \x7d)".toList ++ rest)

/-- The operation of an operator is shown only by the number where its code lies. -/
abbrev Addresses : Type := (Float → Float → Float) → Nat

/--
A variable shows the current value of its slot, and operands stand in order before the rest.
The code of an operation has an address, which the description shows in hexadecimal digits.
-/
def describeBefore {Hidden : Type} (addresses : Addresses) (world : World Hidden)
    (node : Node Hidden) (rest : List Char) : List Char :=
  match node with
  | .number value => "Number(Number(".toList ++ Binary64.text value ++ "))".toList ++ rest
  | .var slot =>
      "Variable(Variable \x7b slot: Cell \x7b value: ".toList ++
        Binary64.text (world.read slot) ++ " \x7d \x7d)".toList ++ rest
  | .negation operand =>
      "Negation(Negation \x7b operand: ".toList ++
        operand.describeBefore addresses world (" \x7d)".toList ++ rest)
  | .operator operation left right =>
      "Operator(Operator \x7b op: 0x".toList ++ Text.hexadecimal (addresses operation) ++
        ", left: ".toList ++ left.describeBefore addresses world (", right: ".toList ++
          right.describeBefore addresses world (" \x7d)".toList ++ rest))
  | .unary name _ argument => describeFunction name (argument.describeBefore addresses world) rest
  | .binary name _ first second =>
      describeFunction name (fun rest =>
        first.describeBefore addresses world (", ".toList ++
          second.describeBefore addresses world rest)) rest
  | .ternary name _ condition first second =>
      describeFunction name (fun rest =>
        condition.describeBefore addresses world (", ".toList ++
          first.describeBefore addresses world (", ".toList ++
            second.describeBefore addresses world rest))) rest

def describe {Hidden : Type} (addresses : Addresses) (world : World Hidden)
    (node : Node Hidden) : List Char :=
  node.describeBefore addresses world []

/-- A text that is written before any rest is a text of its own. -/
def Prepends (write : List Char → List Char) : Prop :=
  ∀ middle rest, write (middle ++ rest) = write middle ++ rest

theorem prependsText (text : List Char) : Prepends (text ++ ·) :=
  fun middle rest => (List.append_assoc text middle rest).symm

theorem prependsBoth (first second : List Char → List Char) (firstLaw : Prepends first)
    (secondLaw : Prepends second) : Prepends fun rest => first (second rest) := by
  intro middle rest
  simp only [secondLaw middle rest, firstLaw (second middle) rest]

theorem prependsFunction (name : String) (arguments : List Char → List Char)
    (law : Prepends arguments) : Prepends (describeFunction name arguments) :=
  prependsBoth (_ ++ ·) (fun rest => arguments (_ ++ rest)) (prependsText _)
    (prependsBoth arguments (_ ++ ·) law (prependsText _))

/-- The rest does not change the description before it. -/
theorem prependsDescription {Hidden : Type} (addresses : Addresses) (world : World Hidden)
    (node : Node Hidden) : Prepends (node.describeBefore addresses world) := by
  induction node with
  | number value => exact prependsText _
  | var slot => exact prependsText _
  | negation operand law =>
      exact prependsBoth (_ ++ ·) _ (prependsText _) (prependsBoth _ (_ ++ ·) law (prependsText _))
  | operator operation left right leftLaw rightLaw =>
      exact prependsBoth (_ ++ ·) _ (prependsText _)
        (prependsBoth _ _ leftLaw (prependsBoth (_ ++ ·) _ (prependsText _)
          (prependsBoth _ (_ ++ ·) rightLaw (prependsText _))))
  | unary name body argument law => exact prependsFunction name _ law
  | binary name body first second firstLaw secondLaw =>
      exact prependsFunction name _
        (prependsBoth _ _ firstLaw (prependsBoth (_ ++ ·) _ (prependsText _) secondLaw))
  | ternary name body condition first second conditionLaw firstLaw secondLaw =>
      exact prependsFunction name _
        (prependsBoth _ _ conditionLaw (prependsBoth (_ ++ ·) _ (prependsText _)
          (prependsBoth _ _ firstLaw (prependsBoth (_ ++ ·) _ (prependsText _) secondLaw))))

theorem describeBeforeEq {Hidden : Type} (addresses : Addresses) (world : World Hidden)
    (node : Node Hidden) (rest : List Char) :
    node.describeBefore addresses world rest = node.describe addresses world ++ rest :=
  prependsDescription addresses world node [] rest

end Node

def Callable.shape {Hidden : Type} : Callable Hidden → String
  | .unary _ => "Unary"
  | .binary _ => "Binary"
  | .ternary _ => "Ternary"

/-- A builder shows its name and the shape of its body. -/
def Builder.describe {Hidden : Type} (builder : Builder Hidden) : List Char :=
  "FunctionBuilder \x7b name: ".toList ++ Text.quote builder.name ++
    ", callable: Callable::".toList ++ builder.callable.shape.toList ++ " \x7d".toList

end ExprTree
