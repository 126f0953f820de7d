/-
This file evaluates trees by recursion.
-/

import ExprTree.Binary64.Truth
import ExprTree.Node.Basic

namespace ExprTree.Node

/--
Operands are evaluated left to right, each exactly once, before they are combined.
A condition is read as a Boolean only after both alternatives have been evaluated.
-/
def evaluate {Hidden : Type} (node : Node Hidden) (world : World Hidden) :
    Float × World Hidden :=
  match node with
  | .number value => (value, world)
  | .var slot => (world.read slot, world)
  | .negation operand =>
      let (value, world) := operand.evaluate world
      (-value, world)
  | .operator operation left right =>
      let (first, world) := left.evaluate world
      let (second, world) := right.evaluate world
      (operation first second, world)
  | .unary _ body argument =>
      let (value, world) := argument.evaluate world
      (body value).run world
  | .binary _ body left right =>
      let (first, world) := left.evaluate world
      let (second, world) := right.evaluate world
      (body first second).run world
  | .ternary _ body condition left right =>
      let (truth, world) := condition.evaluate world
      let (first, world) := left.evaluate world
      let (second, world) := right.evaluate world
      (body (Binary64.isTrue truth) first second).run world

end ExprTree.Node
