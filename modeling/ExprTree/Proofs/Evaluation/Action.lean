/-
This file splits an evaluation into actions, one for each node.
-/

import ExprTree.Evaluation.Recursive
import ExprTree.Proofs.Node.Subtree

namespace ExprTree

/-- An action is what a node does itself with the values of its children. -/
inductive Action (Hidden : Type) where
  | number (value : Float)
  | read (slot : Slot)
  | negate (operand : Float)
  | combine (operation : Float → Float → Float) (left right : Float)
  | unary (body : Float → Effect Hidden Float) (argument : Float)
  | binary (body : Float → Float → Effect Hidden Float) (first second : Float)
  | ternary (body : Bool → Float → Float → Effect Hidden Float) (condition first second : Float)

/-- Only the body of a function changes the world. -/
def Action.perform {Hidden : Type} : Action Hidden → World Hidden → Float × World Hidden
  | .number value, world => (value, world)
  | .read slot, world => (world.read slot, world)
  | .negate operand, world => (-operand, world)
  | .combine operation left right, world => (operation left right, world)
  | .unary body argument, world => (body argument).run world
  | .binary body first second, world => (body first second).run world
  | .ternary body condition first second, world =>
      (body (Binary64.isTrue condition) first second).run world

namespace Node

/-- The action of a node takes one operand for each child, in the order of the children. -/
def action? {Hidden : Type} : Node Hidden → List Float → Option (Action Hidden)
  | .number value, [] => some (.number value)
  | .var slot, [] => some (.read slot)
  | .negation _, [operand] => some (.negate operand)
  | .operator operation _ _, [left, right] => some (.combine operation left right)
  | .unary _ body _, [argument] => some (.unary body argument)
  | .binary _ body _ _, [first, second] => some (.binary body first second)
  | .ternary _ body _ _ _, [condition, first, second] =>
      some (.ternary body condition first second)
  | _, _ => none

/-- Trees that stand side by side are evaluated from left to right. -/
def evaluateAll {Hidden : Type} : List (Node Hidden) → World Hidden → List Float × World Hidden
  | [], world => ([], world)
  | node :: rest, world =>
      let (value, world) := node.evaluate world
      let (values, world) := evaluateAll rest world
      (value :: values, world)

/-- The recursion evaluates the children and then performs the action of the node. -/
theorem evaluateChildren {Hidden : Type} (node : Node Hidden) (world : World Hidden) :
    ∃ action, node.action? (evaluateAll node.children world).1 = some action ∧
      node.evaluate world = action.perform (evaluateAll node.children world).2 := by
  cases node <;> exact ⟨_, rfl, rfl⟩

end Node

end ExprTree
