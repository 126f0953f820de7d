/-
This file follows handles from their creation into the leaves of trees.
-/

import ExprTree.Assembly.Builder
import ExprTree.Node.Teardown
import ExprTree.Proofs.Node.Subtree

namespace ExprTree

/-- A handle refers to a slot, and all of its copies descend from one creation. -/
structure Handle where
  slot : Slot
  origin : Nat
deriving DecidableEq, Repr

namespace Node

/-- The variables of a tree are listed from left to right. -/
def leafSlots {Hidden : Type} : Node Hidden → List Slot :=
  fold fun node parts => node.ownSlots ++ parts.flatten

theorem leafSlotsChildren {Hidden : Type} (node : Node Hidden) :
    node.leafSlots = node.ownSlots ++ node.children.flatMap leafSlots := by
  simp only [leafSlots, foldChildren _ node, List.flatMap_def]

end Node

/-- A planted tree knows which handle each of its variables was made from. -/
structure Planted (Hidden : Type) where
  node : Node Hidden
  handles : List Handle
  shown : node.leafSlots = handles.map Handle.slot

namespace Planted
variable {Hidden : Type}

def number (value : Float) : Planted Hidden := ⟨.number value, [], rfl⟩

def leaf (handle : Handle) : Planted Hidden := ⟨.var handle.slot, [handle], rfl⟩

/-- A node that is put above planted trees has their handles in the same order. -/
def above (node : Node Hidden) (parts : List (Planted Hidden)) (bare : node.ownSlots = [])
    (children : node.children = parts.map Planted.node) : Planted Hidden where
  node := node
  handles := parts.flatMap Planted.handles
  shown := by
    rw [node.leafSlotsChildren, bare, children, List.nil_append, List.flatMap_map,
      List.map_flatMap]
    congr 1
    funext part
    exact part.shown

def negation (operand : Planted Hidden) : Planted Hidden :=
  above (.negation operand.node) [operand] rfl rfl

def operator (operation : Float → Float → Float) (left right : Planted Hidden) : Planted Hidden :=
  above (.operator operation left.node right.node) [left, right] rfl rfl

end Planted

namespace Builder
variable {Hidden : Type}

/-- A function has exactly the given arguments below it and no variable of its own. -/
theorem assembleChildren (builder : Builder Hidden) (arguments : List (Node Hidden))
    (node : Node Hidden) (assembled : builder.assemble? arguments = some node) :
    node.children = arguments ∧ node.ownSlots = [] := by
  obtain ⟨name, callable⟩ := builder
  cases callable <;>
    rcases arguments with _ | ⟨first, _ | ⟨second, _ | ⟨third, _ | ⟨fourth, rest⟩⟩⟩⟩ <;>
    cases assembled <;> exact ⟨rfl, rfl⟩

theorem setParametersChildren (builder : Builder Hidden)
    (parameters : List (Option (Node Hidden))) (node : Node Hidden)
    (accepted : (builder.setParameters parameters).outcome = .ok node) :
    parameters = node.children.map some ∧ node.ownSlots = [] := by
  unfold setParameters at accepted
  split at accepted
  case isFalse => cases accepted
  case isTrue =>
    split at accepted
    case h_2 => cases accepted
    case h_1 arguments present =>
      obtain ⟨children, bare⟩ := builder.assembleChildren arguments node
        ((Option.some_get _).symm.trans (congrArg some (Except.ok.inj accepted)))
      rw [children]
      exact ⟨presentLength 1 parameters arguments present, bare⟩

/-- Accepted parameters stand below the function, and refused ones leave no tree. -/
def plant? (builder : Builder Hidden) (parameters : List (Option (Planted Hidden))) :
    Option (Planted Hidden) :=
  match accepted : (builder.setParameters (parameters.map (·.map Planted.node))).outcome with
  | .error _ => none
  | .ok node =>
      have children := builder.setParametersChildren _ node accepted
      some (.above node (parameters.filterMap id) children.2 (by
        have present := congrArg (List.filterMap id) children.1
        rw [List.filterMap_map, List.filterMap_map] at present
        rw [List.map_filterMap]
        exact (List.filterMap_some (l := node.children)).symm.trans present.symm))

theorem plantNode (builder : Builder Hidden) (parameters : List (Option (Planted Hidden))) :
    (builder.plant? parameters).map Planted.node =
      (builder.setParameters (parameters.map (·.map Planted.node))).outcome.toOption := by
  unfold plant?
  split
  case h_1 error refused => exact (congrArg Except.toOption refused).symm
  case h_2 node accepted => exact (congrArg Except.toOption accepted).symm

theorem plantHandles (builder : Builder Hidden) (parameters : List (Option (Planted Hidden)))
    (planted : Planted Hidden) (accepted : builder.plant? parameters = some planted)
    (handle : Handle) (member : handle ∈ planted.handles) :
    ∃ part, some part ∈ parameters ∧ handle ∈ part.handles := by
  unfold plant? at accepted
  split at accepted
  case h_1 => cases accepted
  case h_2 =>
    cases accepted
    obtain ⟨part, present, inside⟩ := List.mem_flatMap.mp member
    obtain ⟨_, listed, rfl⟩ := List.mem_filterMap.mp present
    exact ⟨part, listed, inside⟩

end Builder

end ExprTree
