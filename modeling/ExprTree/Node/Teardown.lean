/-
This file takes trees apart without recursion.
-/

import ExprTree.Node.Walk

namespace ExprTree.Node

/-- A placeholder stands where a child has been moved out. -/
def placeholder {Hidden : Type} : Node Hidden := .number 0.0

/-- A husk keeps the own content of a node, and placeholders replace its children. -/
def husk {Hidden : Type} : Node Hidden → Node Hidden
  | .number value => .number value
  | .var slot => .var slot
  | .negation _ => .negation placeholder
  | .operator operation _ _ => .operator operation placeholder placeholder
  | .unary name body _ => .unary name body placeholder
  | .binary name body _ _ => .binary name body placeholder placeholder
  | .ternary name body _ _ _ => .ternary name body placeholder placeholder placeholder

/-- The child moved out last is taken apart first. -/
def dismantleDetached {Hidden : Type} (detached : List (Node Hidden)) : List (Node Hidden) :=
  match detached with
  | [] => []
  | node :: rest => node.husk :: dismantleDetached (node.children.reverse ++ rest)
termination_by sizeSum detached
decreasing_by
  simp [sizeChildren node, sizeSum, sizeSumAppend, sizeSumReverse]

/-- A dismantled root leaves one husk for every node below it. -/
def dismantle {Hidden : Type} (node : Node Hidden) : List (Node Hidden) :=
  dismantleDetached node.children.reverse

theorem huskChildren {Hidden : Type} (node : Node Hidden) :
    node.husk.children = node.children.map fun _ => placeholder := by
  cases node <;> rfl

/-- The husks have the children of placeholders only, so none of them is larger than its node. -/
theorem sizeHusk {Hidden : Type} (node : Node Hidden) : node.husk.size ≤ node.size := by
  have positive : ∀ child : Node Hidden, 1 ≤ child.size := by
    intro child
    rw [sizeChildren child]
    omega
  cases node with
  | number value => exact Nat.le_refl _
  | var slot => exact Nat.le_refl _
  | negation operand =>
      have := positive operand
      simp only [husk, size, placeholder]
      omega
  | operator operation left right =>
      have := positive left
      have := positive right
      simp only [husk, size, placeholder]
      omega
  | unary name body argument =>
      have := positive argument
      simp only [husk, size, placeholder]
      omega
  | binary name body first second =>
      have := positive first
      have := positive second
      simp only [husk, size, placeholder]
      omega
  | ternary name body condition first second =>
      have := positive condition
      have := positive first
      have := positive second
      simp only [husk, size, placeholder]
      omega

theorem sizeDismantled {Hidden : Type} (detached : List (Node Hidden)) (node : Node Hidden)
    (member : node ∈ dismantleDetached detached) : node.size ≤ sizeSum detached := by
  fun_induction dismantleDetached detached with
  | case1 => cases member
  | case2 first rest ih =>
      rcases List.mem_cons.mp member with same | later
      · subst same
        have := sizeHusk first
        simp only [sizeSum]
        omega
      · have bound := ih later
        simp only [sizeSumAppend, sizeSumReverse] at bound
        simp only [sizeSum, sizeChildren first]
        omega

/--
Releasing a node dismantles it and then releases each husk in turn.
The nesting counts the releases that are active at once.
-/
def releaseNesting {Hidden : Type} (node : Node Hidden) : Nat :=
  node.dismantle.attach.foldl (fun deepest husk => max deepest (husk.val.releaseNesting + 1)) 1
termination_by node.size
decreasing_by
  have bound := sizeDismantled node.children.reverse husk.val husk.property
  simp only [sizeSumReverse] at bound
  rw [sizeChildren node]
  omega

/-- A variable holds one handle of its slot, and no other node holds one itself. -/
def ownSlots {Hidden : Type} : Node Hidden → List Slot
  | .var slot => [slot]
  | _ => []

/-- Releasing a tree gives back the handles of the root and of every husk. -/
def releasedSlots {Hidden : Type} (node : Node Hidden) : List Slot :=
  node.ownSlots ++ node.dismantle.flatMap ownSlots

end ExprTree.Node
