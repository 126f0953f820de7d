/-
This file puts other children below a node, and numbers in the places of whole subtrees.
-/

import ExprTree.Proofs.Evaluation.Action

namespace ExprTree.Node
variable {Hidden : Type}

/-- A rebuilt node has the given children, which must be as many as before. -/
def rebuild : Node Hidden → List (Node Hidden) → Node Hidden
  | .negation _, [operand] => .negation operand
  | .operator operation _ _, [left, right] => .operator operation left right
  | .unary name body _, [argument] => .unary name body argument
  | .binary name body _ _, [first, second] => .binary name body first second
  | .ternary name body _ _ _, [condition, first, second] =>
      .ternary name body condition first second
  | node, _ => node

theorem rebuildChildren (node : Node Hidden) (children : List (Node Hidden))
    (fits : children.length = node.children.length) : (node.rebuild children).children = children := by
  cases node <;>
    rcases children with _ | ⟨first, _ | ⟨second, _ | ⟨third, _ | ⟨fourth, rest⟩⟩⟩⟩ <;>
    cases fits <;> rfl

theorem rebuildFunction (node : Node Hidden) (children : List (Node Hidden)) :
    (node.rebuild children).function? = node.function? := by
  cases node <;>
    rcases children with _ | ⟨first, _ | ⟨second, _ | ⟨third, _ | ⟨fourth, rest⟩⟩⟩⟩ <;> rfl

/-- Equal values of the children lead to the same action. -/
theorem rebuildAction (node : Node Hidden) (children : List (Node Hidden)) (operands : List Float) :
    (node.rebuild children).action? operands = node.action? operands := by
  cases node <;>
    rcases children with _ | ⟨first, _ | ⟨second, _ | ⟨third, _ | ⟨fourth, rest⟩⟩⟩⟩ <;>
    rcases operands with _ | ⟨one, _ | ⟨two, _ | ⟨three, _ | ⟨four, more⟩⟩⟩⟩ <;> rfl

/-- A graft has a number wherever there is one for the path, and does not look below it. -/
def graft (node : Node Hidden) : (List Nat → Option Float) → Node Hidden :=
  node.fold fun node parts numbers =>
    match numbers [] with
    | some value => .number value
    | none => node.rebuild
        (parts.mapIdx fun index part => part fun path => numbers (index :: path))

theorem graftNumber (node : Node Hidden) (numbers : List Nat → Option Float) (value : Float)
    (given : numbers [] = some value) : node.graft numbers = .number value := by
  rw [graft, foldChildren, given]

theorem graftChildren (node : Node Hidden) (numbers : List Nat → Option Float)
    (kept : numbers [] = none) :
    node.graft numbers = node.rebuild
      (node.children.mapIdx fun index child => child.graft fun path => numbers (index :: path)) := by
  rw [graft, foldChildren, kept]
  refine congrArg node.rebuild (List.ext_getElem? fun index => ?_)
  rw [List.getElem?_mapIdx, List.getElem?_map, Option.map_map, List.getElem?_mapIdx]
  rfl

/-- A subtree that stands below no number is grafted on its own. -/
theorem graftReached (node below : Node Hidden) (numbers : List Nat → Option Float)
    (path : List Nat) (reached : node.descendant? path = some below)
    (kept : ∀ start, start <+: path → start ≠ path → numbers start = none) :
    (node.graft numbers).descendant? path = some (below.graft fun rest => numbers (path ++ rest)) := by
  induction path generalizing node numbers with
  | nil =>
      cases reached
      rfl
  | cons index path ih =>
      obtain ⟨child, listed, inside⟩ := Option.bind_eq_some_iff.mp reached
      rw [graftChildren node numbers (kept [] List.nil_prefix (List.cons_ne_nil index path).symm),
        descendant?, rebuildChildren _ _ (by rw [List.length_mapIdx]), List.getElem?_mapIdx, listed]
      refine ih child (fun rest => numbers (index :: rest)) inside fun start before other => ?_
      exact kept (index :: start) (List.cons_prefix_cons.mpr ⟨rfl, before⟩)
        (mt (fun same => (List.cons.inj same).2) other)

end ExprTree.Node
