/-
This file treats the kinds of nodes alike: a node is known by its children.
-/

import ExprTree.Node.Walk
import Mathlib.Algebra.BigOperators.Group.List.Basic
import Mathlib.Algebra.Ring.Int.Defs
import Mathlib.Algebra.Ring.Nat

namespace ExprTree.Node

/-- A property holds of every tree when a tree has it as soon as all of its children have it. -/
theorem childInduction {Hidden : Type} {motive : Node Hidden → Prop}
    (step : ∀ node, (∀ child ∈ node.children, motive child) → motive node)
    (node : Node Hidden) : motive node := by
  induction node with
  | number value => exact step _ (by simp [children])
  | var slot => exact step _ (by simp [children])
  | negation operand holds => exact step _ (by simpa [children] using holds)
  | operator operation left right leftHolds rightHolds =>
      exact step _ (by simpa [children] using ⟨leftHolds, rightHolds⟩)
  | unary name body argument holds => exact step _ (by simpa [children] using holds)
  | binary name body first second firstHolds secondHolds =>
      exact step _ (by simpa [children] using ⟨firstHolds, secondHolds⟩)
  | ternary name body condition first second conditionHolds firstHolds secondHolds =>
      exact step _ (by simpa [children] using ⟨conditionHolds, firstHolds, secondHolds⟩)

/-- A fold computes a result for a tree from the results for its children. -/
def fold {Hidden Result : Type} (combine : Node Hidden → List Result → Result) :
    Node Hidden → Result
  | .number value => combine (.number value) []
  | .var slot => combine (.var slot) []
  | .negation operand => combine (.negation operand) [operand.fold combine]
  | .operator operation left right =>
      combine (.operator operation left right) [left.fold combine, right.fold combine]
  | .unary name body argument => combine (.unary name body argument) [argument.fold combine]
  | .binary name body first second =>
      combine (.binary name body first second) [first.fold combine, second.fold combine]
  | .ternary name body condition first second =>
      combine (.ternary name body condition first second)
        [condition.fold combine, first.fold combine, second.fold combine]

theorem foldChildren {Hidden Result : Type} (combine : Node Hidden → List Result → Result)
    (node : Node Hidden) :
    node.fold combine = combine node (node.children.map (fold combine)) := by
  cases node <;> rfl

theorem isLeafChildren {Hidden : Type} (node : Node Hidden) :
    node.isLeaf = true ↔ node.children = [] := by
  cases node <;> simp [isLeaf, children]

theorem innerChildren {Hidden : Type} (node : Node Hidden) (inner : node.isLeaf = false) :
    node.children ≠ [] := by
  rw [ne_eq, ← isLeafChildren, inner]
  exact Bool.false_ne_true

/-- In pre-order every node stands before the nodes below it, one level deeper for each step. -/
def preOrder {Hidden : Type} (node : Node Hidden) : Nat → List (Node Hidden × Nat) :=
  node.fold fun node parts depth => (node, depth) :: parts.flatMap fun part => part (depth + 1)

theorem preOrderChildren {Hidden : Type} (node : Node Hidden) (depth : Nat) :
    node.preOrder depth =
      (node, depth) :: node.children.flatMap fun child => child.preOrder (depth + 1) := by
  simp only [preOrder, foldChildren _ node, List.flatMap_map]

/-- A walk over pending nodes visits them and all nodes below them in pre-order. -/
theorem walkPendingPreOrder {Hidden State : Type} (visit : State → Node Hidden → Nat → State)
    (state : State) (pending : List (Node Hidden × Nat)) :
    walkPending visit state pending =
      (pending.flatMap fun entry => entry.1.preOrder entry.2).foldl
        (fun state entry => visit state entry.1 entry.2) state := by
  fun_induction walkPending visit state pending with
  | case1 state => rfl
  | case2 state node depth rest ih =>
      rw [ih, List.flatMap_cons, preOrderChildren, List.flatMap_append, List.flatMap_map]
      rfl

theorem walkPreOrder {Hidden State : Type} (node : Node Hidden)
    (visit : State → Node Hidden → Nat → State) (state : State) :
    node.walk visit state =
      (node.preOrder 1).foldl (fun state entry => visit state entry.1 entry.2) state := by
  rw [walk, walkPendingPreOrder, List.flatMap_singleton]

/-- The inner nodes are the nodes with children. -/
def innerCount {Hidden : Type} (node : Node Hidden) : Nat :=
  node.walk (fun count below _ => if below.isLeaf then count else count + 1) 0

/-- A walk that adds a weight for each node adds up the weights of the whole tree. -/
theorem walkSum {Hidden : Type} (weight : Node Hidden → Nat) (node : Node Hidden) (start : Nat) :
    node.walk (fun total below _ => total + weight below) start =
      start + ((node.preOrder 1).map fun entry => weight entry.1).sum := by
  rw [walkPreOrder]
  generalize node.preOrder 1 = entries
  induction entries generalizing start with
  | nil => rfl
  | cons entry rest ih =>
      rw [List.foldl_cons, ih, List.map_cons, List.sum_cons, Nat.add_assoc]

/-- The weight of a tree is the weight of its root and of all trees below the root. -/
theorem preOrderSum {Hidden : Type} (weight : Node Hidden → Nat) (node : Node Hidden)
    (depth : Nat) :
    ((node.preOrder depth).map fun entry => weight entry.1).sum =
      weight node +
        (node.children.map fun child =>
          ((child.preOrder (depth + 1)).map fun entry => weight entry.1).sum).sum := by
  rw [preOrderChildren, List.map_cons, List.sum_cons, List.map_flatMap, List.flatMap_def,
    List.sum_flatten, List.map_map]
  rfl

end ExprTree.Node
