/-
This file shows that subtrees can be replaced by their values.
-/

import ExprTree.Node.Teardown
import ExprTree.Proofs.Evaluation.Isolation
import ExprTree.Proofs.Node.Rebuild
import Mathlib.Data.Finset.Insert
import Mathlib.Order.Antichain

namespace ExprTree

namespace Node
variable {Hidden : Type}

/-- A body of a pure tree gives the same answer in every world and changes none of them. -/
def Pure (node : Node Hidden) : Prop :=
  ∀ effect ∈ node.calls, ∃ answer, ∀ world, effect.run world = (answer, world)

theorem Pure.quiet {node : Node Hidden} (pure : node.Pure) : node.Quiet := by
  intro effect call world
  obtain ⟨answer, constant⟩ := pure effect call
  rw [constant]

theorem Pure.child {node child : Node Hidden} (pure : node.Pure) (member : child ∈ node.children) :
    child.Pure := by
  rintro effect ⟨below, name, callable, held, function, called⟩
  have higher := (holdsChildren node below).mpr (.inr ⟨child, member, held⟩)
  exact pure effect ⟨below, name, callable, higher, function, called⟩

/-- A pure node does the same in two worlds, unless it is a variable that they disagree on. -/
theorem Pure.perform {node : Node Hidden} (pure : node.Pure) {operands : List Float}
    {action : Action Hidden} (found : node.action? operands = some action)
    {before after : World Hidden}
    (same : ∀ slot, node = .var slot → before.read slot = after.read slot) :
    ∃ value, action.perform before = (value, before) ∧ action.perform after = (value, after) := by
  simp only [Action.performEffect]
  rcases actionEffect found with ⟨answer, done⟩ | ⟨slot, leaf, reads⟩ |
    ⟨name, callable, function, called⟩
  · rw [done]
    exact ⟨answer, rfl, rfl⟩
  · rw [reads]
    exact ⟨before.read slot, rfl, by rw [same slot leaf]; rfl⟩
  · obtain ⟨answer, constant⟩ := pure _ ⟨node, name, callable, node.holdsSelf, function, called⟩
    exact ⟨answer, constant before, constant after⟩

/-- A substitute has the value in its world that the tree has in another one. -/
def Substitute (before after : World Hidden) (node substitute : Node Hidden) : Prop :=
  ∃ value, node.evaluate before = (value, before) ∧ substitute.evaluate after = (value, after)

theorem substituteAll {before after : World Hidden} {nodes substitutes : List (Node Hidden)}
    (each : List.Forall₂ (Substitute before after) nodes substitutes) :
    ∃ values, evaluateAll nodes before = (values, before) ∧
      evaluateAll substitutes after = (values, after) := by
  induction each with
  | nil => exact ⟨[], rfl, rfl⟩
  | cons head _ ih =>
      obtain ⟨value, here, there⟩ := head
      obtain ⟨values, rest, others⟩ := ih
      exact ⟨value :: values, by simp only [evaluateAll, here, rest],
        by simp only [evaluateAll, there, others]⟩

/-- Substitutes below a pure node make a substitute for it. -/
theorem substituteRebuild {before after : World Hidden} {node : Node Hidden} (pure : node.Pure)
    (same : ∀ slot, node = .var slot → before.read slot = after.read slot)
    {children : List (Node Hidden)}
    (below : List.Forall₂ (Substitute before after) node.children children) :
    Substitute before after node (node.rebuild children) := by
  obtain ⟨values, old, new⟩ := substituteAll below
  obtain ⟨action, found, evaluated⟩ := node.evaluateChildren before
  obtain ⟨other, foundOther, evaluatedOther⟩ := (node.rebuild children).evaluateChildren after
  rw [rebuildAction, rebuildChildren node children below.length_eq.symm, new] at foundOther
  rw [rebuildChildren node children below.length_eq.symm, new] at evaluatedOther
  rw [old] at found evaluated
  cases found.symm.trans foundOther
  rw [Substitute, evaluated, evaluatedOther]
  exact pure.perform found same

/-- A chosen place has the value of the subtree that stands there. -/
def valueAt? (node : Node Hidden) (chosen : Finset Place) (world : World Hidden) (place : Place) :
    Option Float :=
  if place ∈ chosen then (node.descendant? place).map fun below => (below.evaluate world).1
  else none

theorem substituteGraft (world : World Hidden) (node : Node Hidden) (pure : node.Pure)
    (numbers : Place → Option Float)
    (values : ∀ place below value, node.descendant? place = some below →
      numbers place = some value → (below.evaluate world).1 = value) :
    Substitute world world node (node.graft numbers) := by
  induction node using childInduction generalizing numbers with
  | step node each =>
      cases given : numbers [] with
      | some value =>
          rw [graftNumber node numbers value given]
          exact ⟨value, Prod.ext (values [] node value rfl given)
            (node.evaluateQuiet pure.quiet world), rfl⟩
      | none =>
          rw [graftChildren node numbers given]
          refine substituteRebuild pure (fun _ _ => rfl) (List.forall₂_iff_get.mpr ⟨by simp, ?_⟩)
          intro index inside _
          have listed := List.getElem?_eq_getElem inside
          simp only [List.get_eq_getElem, List.getElem_mapIdx]
          refine each _ (List.getElem_mem inside) (pure.child (List.getElem_mem inside)) _ ?_
          intro place below value reached
          exact values (index :: place) below value
            (Option.bind_eq_some_iff.mpr ⟨_, listed, reached⟩)

/-- A settled tree has a number in the place of every variable of the slot. -/
def settle (slot : Slot) (value : Float) : Node Hidden → Node Hidden :=
  fold fun node parts => if node.ownSlots = [slot] then .number value else node.rebuild parts

theorem settleChildren (slot : Slot) (value : Float) (node : Node Hidden) :
    node.settle slot value = if node.ownSlots = [slot] then .number value
      else node.rebuild (node.children.map (settle slot value)) :=
  foldChildren _ node

theorem ownSlotsVariable (node : Node Hidden) (slot : Slot) :
    node.ownSlots = [slot] ↔ node = .var slot := by
  cases node <;> simp [ownSlots]

theorem substituteSettle (world : World Hidden) (slot : Slot) (value : Float) (node : Node Hidden)
    (pure : node.Pure) :
    Substitute (world.write slot value) world node (node.settle slot value) := by
  induction node using childInduction with
  | step node each =>
      rw [settleChildren]
      split
      case isTrue own =>
          rw [(node.ownSlotsVariable slot).mp own]
          refine ⟨value, ?_, rfl⟩
          rw [evaluate, World.readWrite, if_pos rfl]
      case isFalse foreign =>
          refine substituteRebuild pure ?_ ?_
          · rintro other rfl
            rw [World.readWrite, if_neg fun same => foreign (by rw [same, ownSlots])]
          · rw [List.forall₂_map_right_iff, List.forall₂_same]
            exact fun child member => each child member (pure.child member)

end Node

/--
A pure tree keeps its value when subtrees apart from each other are replaced by their values.
After a write it has the value that the written number gives in the place of the variable.
-/
theorem valuesSubstitute {Hidden : Type} (node : Node Hidden) (pure : node.Pure) :
    (∀ (chosen : Finset Place) (world : World Hidden),
      IsAntichain (· <+: ·) (chosen : Set Place) →
      let replaced := node.graft (node.valueAt? chosen world)
      (∀ strategy other, (replaced.evaluateWith strategy world).outcome =
        (node.evaluateWith other world).outcome) ∧
      ∀ place below, node.descendant? place = some below →
        (place ∈ chosen → ∀ strategy, replaced.descendant? place =
          some (.number (below.evaluateWith strategy world).outcome.1)) ∧
        ((∀ start ∈ chosen, ¬start <+: place) → ∃ children,
          children.length = below.children.length ∧
            replaced.descendant? place = some (below.rebuild children))) ∧
    ∀ slot value world strategy other,
      (node.evaluateWith strategy (world.write slot value)).outcome.1 =
        ((node.settle slot value).evaluateWith other world).outcome.1 := by
  refine ⟨fun chosen world apart => ⟨fun strategy other => ?_, fun place below reached =>
    ⟨fun listed strategy => ?_, fun free => ?_⟩⟩, fun slot value world strategy other => ?_⟩
  · rw [Node.evaluateWithOutcome, Node.evaluateWithOutcome]
    obtain ⟨value, old, new⟩ := node.substituteGraft world pure (node.valueAt? chosen world)
      fun place below value reached given => by
        rw [Node.valueAt?, reached] at given
        split at given <;> cases given
        rfl
    rw [old, new]
  · rw [node.graftReached below _ place reached fun start before other => ?_,
      Node.graftNumber _ _ (below.evaluate world).1, Node.evaluateWithOutcome]
    · simp [Node.valueAt?, listed, reached]
    · exact if_neg fun member => apart member listed other before
  · rw [node.graftReached below _ place reached fun start before other => ?_,
      Node.graftChildren]
    · exact ⟨_, List.length_mapIdx, rfl⟩
    · simpa [Node.valueAt?] using fun member => absurd List.prefix_rfl (free place member)
    · exact if_neg fun member => free start member before
  · rw [Node.evaluateWithOutcome, Node.evaluateWithOutcome]
    obtain ⟨result, old, new⟩ := node.substituteSettle world slot value pure
    rw [old, new]

/-- A variable is used at two depths, below a body and on its own. -/
theorem valuesSubstituteDouble :
    let body := fun argument : Float => Effect.done (argument + argument)
    let doubled : Node Nat := .unary "double" body (.var ⟨0⟩)
    let tree : Node Nat := .operator Float.mul doubled (.negation (.var ⟨0⟩))
    let world : World Nat := World.empty.write ⟨0⟩ 1.5
    let chosen : Finset Place := {[0], [1, 0]}
    let replaced := tree.graft (tree.valueAt? chosen world)
    tree.Pure ∧ IsAntichain (· <+: ·) (chosen : Set Place) ∧
    (replaced.evaluateWith .worklist world).outcome = (tree.evaluateWith .recursive world).outcome ∧
    replaced.descendant? [0] = some (.number (doubled.evaluateWith .worklist world).outcome.1) ∧
    (tree.evaluateWith .worklist (world.write ⟨0⟩ 2.5)).outcome.1 =
      ((tree.settle ⟨0⟩ 2.5).evaluateWith .recursive world).outcome.1 := by
  intro body doubled tree world chosen replaced
  have pure : tree.Pure := by
    rintro effect ⟨below, name, callable, held, function, called⟩
    rw [Node.holdsPostOrder] at held
    change below ∈ [.var ⟨0⟩, doubled, .var ⟨0⟩, .negation (.var ⟨0⟩), tree] at held
    simp only [List.mem_cons, List.not_mem_nil, or_false] at held
    rcases held with rfl | rfl | rfl | rfl | rfl <;> cases function
    obtain ⟨argument, rfl⟩ := called
    exact ⟨argument + argument, fun world => rfl⟩
  have apart : IsAntichain (· <+: ·) (chosen : Set Place) := by
    simp [chosen, IsAntichain, Set.Pairwise]
  obtain ⟨grafts, settles⟩ := valuesSubstitute tree pure
  obtain ⟨values, places⟩ := grafts chosen world apart
  exact ⟨pure, apart, values .worklist .recursive,
    (places [0] doubled rfl).1 (by decide) .worklist, settles ⟨0⟩ 2.5 world .worklist .recursive⟩

end ExprTree
