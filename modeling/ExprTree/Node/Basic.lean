/-
This file defines expression trees and the bodies of their functions.
-/

import ExprTree.World

namespace ExprTree

/-- The shape of a body is its arity; a body of three arguments takes a condition first. -/
inductive Callable (Hidden : Type) where
  | unary (body : Float → Effect Hidden Float)
  | binary (body : Float → Float → Effect Hidden Float)
  | ternary (body : Bool → Float → Float → Effect Hidden Float)

def Callable.arity {Hidden : Type} : Callable Hidden → Nat
  | .unary _ => 1
  | .binary _ => 2
  | .ternary _ => 3

/--
A node is a number, a variable, a negation, an operator or a function with its arguments.
Every inner node has all of its children.
-/
inductive Node (Hidden : Type) where
  | number (value : Float)
  | var (slot : Slot)
  | negation (operand : Node Hidden)
  | operator (operation : Float → Float → Float) (left right : Node Hidden)
  | unary (name : String) (body : Float → Effect Hidden Float) (argument : Node Hidden)
  | binary (name : String) (body : Float → Float → Effect Hidden Float)
      (first second : Node Hidden)
  | ternary (name : String) (body : Bool → Float → Float → Effect Hidden Float)
      (condition first second : Node Hidden)

namespace Node

/-- The children stand in the order of their evaluation. -/
def children {Hidden : Type} : Node Hidden → List (Node Hidden)
  | .number _ | .var _ => []
  | .negation operand => [operand]
  | .operator _ left right => [left, right]
  | .unary _ _ argument => [argument]
  | .binary _ _ first second => [first, second]
  | .ternary _ _ condition first second => [condition, first, second]

def isLeaf {Hidden : Type} : Node Hidden → Bool
  | .number _ | .var _ => true
  | _ => false

/-- A function has a name and a body. -/
def function? {Hidden : Type} : Node Hidden → Option (String × Callable Hidden)
  | .unary name body _ => some (name, .unary body)
  | .binary name body _ _ => some (name, .binary body)
  | .ternary name body _ _ _ => some (name, .ternary body)
  | _ => none

/-- A path follows the indices of children. -/
def descendant? {Hidden : Type} : List Nat → Node Hidden → Option (Node Hidden)
  | [], node => some node
  | index :: path, node => node.children[index]?.bind (descendant? path)

end Node

end ExprTree
