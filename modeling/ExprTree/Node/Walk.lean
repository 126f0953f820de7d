/-
This file visits the nodes of a tree in pre-order without recursion.
-/

import ExprTree.Node.Basic

namespace ExprTree.Node

/-- The size counts the nodes by recursion. -/
def size {Hidden : Type} : Node Hidden → Nat
  | .number _ | .var _ => 1
  | .negation operand => 1 + operand.size
  | .operator _ left right => 1 + left.size + right.size
  | .unary _ _ argument => 1 + argument.size
  | .binary _ _ first second => 1 + first.size + second.size
  | .ternary _ _ condition first second => 1 + condition.size + first.size + second.size

def sizeSum {Hidden : Type} : List (Node Hidden) → Nat
  | [] => 0
  | node :: rest => node.size + sizeSum rest

theorem sizeSumAppend {Hidden : Type} (first second : List (Node Hidden)) :
    sizeSum (first ++ second) = sizeSum first + sizeSum second := by
  induction first with
  | nil => simp [sizeSum]
  | cons node rest ih => simp [sizeSum, ih, Nat.add_assoc]

theorem sizeSumReverse {Hidden : Type} (nodes : List (Node Hidden)) :
    sizeSum nodes.reverse = sizeSum nodes := by
  induction nodes with
  | nil => rfl
  | cons node rest ih => simp [sizeSumAppend, sizeSum, ih, Nat.add_comm]

/-- A node counts once beside all of its children. -/
theorem sizeChildren {Hidden : Type} (node : Node Hidden) :
    node.size = 1 + sizeSum node.children := by
  cases node <;> simp [size, children, sizeSum] <;> omega

/-- The pending nodes carry their depths, and the children of a node come before the rest. -/
def walkPending {Hidden State : Type} (visit : State → Node Hidden → Nat → State)
    (state : State) (pending : List (Node Hidden × Nat)) : State :=
  match pending with
  | [] => state
  | (node, depth) :: rest =>
      walkPending visit (visit state node depth)
        (node.children.map (fun child => (child, depth + 1)) ++ rest)
termination_by sizeSum (pending.map Prod.fst)
decreasing_by
  simp [sizeChildren node, sizeSum, sizeSumAppend, Function.comp_def]

/-- A walk visits every node with its depth, and the root has depth one. -/
def walk {Hidden State : Type} (node : Node Hidden) (visit : State → Node Hidden → Nat → State)
    (state : State) : State := walkPending visit state [(node, 1)]

def nodeCount {Hidden : Type} (node : Node Hidden) : Nat :=
  node.walk (fun count _ _ => count + 1) 0

/-- The depth is the number of nodes on the longest path to a leaf. -/
def depth {Hidden : Type} (node : Node Hidden) : Nat :=
  node.walk (fun deepest _ depth => max deepest depth) 0

end ExprTree.Node
