/-
This file reads trees of logical operations as Boolean formulas.
-/

import ExprTree.Proofs.Binary64.Truth
import ExprTree.Proofs.Evaluation.Isolation
import ExprTree.Standard.BinaryOp
import ExprTree.Standard.Function

namespace ExprTree

/-- The atoms of a formula are trees of any kind without side effects. -/
inductive Formula (Hidden : Type) where
  | atom (node : Node Hidden) (quiet : node.Quiet)
  | and (left right : Formula Hidden)
  | or (left right : Formula Hidden)
  | equalsZero (operand : Formula Hidden) (zero : Float) (either : zero = 0.0 ∨ zero = -0.0)
  | differsFromZero (operand : Formula Hidden) (zero : Float) (either : zero = 0.0 ∨ zero = -0.0)
  | negation (operand : Formula Hidden)
  | choose (condition first second : Formula Hidden)

namespace Formula
variable {Hidden : Type}

/-- The tree of a formula computes with numbers. -/
def tree : Formula Hidden → Node Hidden
  | .atom node _ => node
  | .and left right => .operator BinaryOp.and.apply left.tree right.tree
  | .or left right => .operator BinaryOp.or.apply left.tree right.tree
  | .equalsZero operand zero _ => .operator BinaryOp.eq.apply operand.tree (.number zero)
  | .differsFromZero operand zero _ => .operator BinaryOp.notEq.apply operand.tree (.number zero)
  | .negation operand => .negation operand.tree
  | .choose condition first second =>
      .ternary "if" (fun truth first second => .done (Standard.choose truth first second))
        condition.tree first.tree second.tree

/-- The tree of a choice is what the standard function assembles. -/
theorem assembleChoose (condition first second : Formula Hidden) :
    (Standard.builder? "if").map (fun builder =>
      (builder.setParameters [some condition.tree, some first.tree, some second.tree]).outcome) =
        some (.ok (choose condition first second).tree) := rfl

/-- A formula computes with truth values, and the sign that a negation turns is no part of them. -/
def holds (reading : Node Hidden → Bool) : Formula Hidden → Bool
  | .atom node _ => reading node
  | .and left right => left.holds reading && right.holds reading
  | .or left right => left.holds reading || right.holds reading
  | .equalsZero operand _ _ => !operand.holds reading
  | .differsFromZero operand _ _ => operand.holds reading
  | .negation operand => operand.holds reading
  | .choose condition first second =>
      if condition.holds reading then first.holds reading else second.holds reading

/-- The numbers of a tree are true where the formula holds, whatever its atoms are. -/
theorem evaluateTree (formula : Formula Hidden) (world : World Hidden) :
    ∃ value, formula.tree.evaluate world = (value, world) ∧ Binary64.isTrue value =
      formula.holds fun node => Binary64.isTrue (node.evaluate world).1 := by
  induction formula with
  | atom node quiet => exact ⟨_, Prod.ext rfl (node.evaluateQuiet quiet world), rfl⟩
  | and left right leftIh rightIh =>
      obtain ⟨first, ranFirst, readFirst⟩ := leftIh
      obtain ⟨second, ranSecond, readSecond⟩ := rightIh
      refine ⟨BinaryOp.and.apply first second, ?_, ?_⟩
      · simp only [tree, Node.evaluate, ranFirst, ranSecond]
      · rw [BinaryOp.apply, Binary64.isTrueOfBool, readFirst, readSecond, holds]
  | or left right leftIh rightIh =>
      obtain ⟨first, ranFirst, readFirst⟩ := leftIh
      obtain ⟨second, ranSecond, readSecond⟩ := rightIh
      refine ⟨BinaryOp.or.apply first second, ?_, ?_⟩
      · simp only [tree, Node.evaluate, ranFirst, ranSecond]
      · rw [BinaryOp.apply, Binary64.isTrueOfBool, readFirst, readSecond, holds]
  | equalsZero operand zero either ih =>
      obtain ⟨value, ran, read⟩ := ih
      refine ⟨BinaryOp.eq.apply value zero, ?_, ?_⟩
      · simp only [tree, Node.evaluate, ran]
      · rw [BinaryOp.apply, Binary64.isTrueOfBool, Binary64.equalsEither value zero either, read,
          holds]
  | differsFromZero operand zero either ih =>
      obtain ⟨value, ran, read⟩ := ih
      refine ⟨BinaryOp.notEq.apply value zero, ?_, ?_⟩
      · simp only [tree, Node.evaluate, ran]
      · rw [BinaryOp.apply, Binary64.isTrueOfBool, bne, Binary64.equalsEither value zero either,
          Bool.not_not, read, holds]
  | negation operand ih =>
      obtain ⟨value, ran, read⟩ := ih
      refine ⟨-value, ?_, ?_⟩
      · simp only [tree, Node.evaluate, ran]
      · rw [Binary64.isTrueNegate, read, holds]
  | choose condition first second conditionIh firstIh secondIh =>
      obtain ⟨truth, ranTruth, readTruth⟩ := conditionIh
      obtain ⟨one, ranOne, readOne⟩ := firstIh
      obtain ⟨other, ranOther, readOther⟩ := secondIh
      refine ⟨Standard.choose (Binary64.isTrue truth) one other, ?_, ?_⟩
      · simp only [tree, Node.evaluate, ranTruth, ranOne, ranOther, Effect.run]
      · rw [Standard.choose, apply_ite Binary64.isTrue, readTruth, readOne, readOther, holds]

end Formula

/-- Comparison and logic decide something. -/
def BinaryOp.decisions : List BinaryOp := [.lt, .le, .gt, .ge, .eq, .notEq, .and, .or]

theorem BinaryOp.applyDecision (op : BinaryOp) (member : op ∈ decisions) (left right : Float) :
    ∃ truth, op.apply left right = Binary64.ofBool truth := by
  simp only [decisions, List.mem_cons, List.not_mem_nil, or_false] at member
  rcases member with rfl | rfl | rfl | rfl | rfl | rfl | rfl | rfl <;> exact ⟨_, rfl⟩

/--
The value of a tree is true exactly if its formula holds with each atom read as true or false.
With a comparison or a logical operation at its root the value is one or zero.
A choice is the tree that the standard function of that name assembles.
-/
theorem formulasAreRead {Hidden : Type} (formula : Formula Hidden) (strategy : Strategy)
    (world : World Hidden) :
    let truth := formula.holds fun atom =>
      Binary64.isTrue (atom.evaluateWith strategy world).outcome.1
    let run := (formula.tree.evaluateWith strategy world).outcome
    Binary64.isTrue run.1 = truth ∧ run.2 = world ∧
      (∀ op ∈ BinaryOp.decisions, ∀ left right, formula.tree = .operator op.apply left right →
        run.1 = if truth then 1.0 else 0.0) ∧
      ∀ condition first second : Formula Hidden,
        (Standard.builder? "if").map (fun builder => (builder.setParameters
          [some condition.tree, some first.tree, some second.tree]).outcome) =
            some (.ok (Formula.choose condition first second).tree) := by
  obtain ⟨value, ran, read⟩ := formula.evaluateTree world
  simp only [Node.evaluateWithOutcome, ran, ← read, true_and]
  refine ⟨?_, Formula.assembleChoose⟩
  intro op member left right root
  rw [root, Node.evaluate] at ran
  obtain ⟨truth, answer⟩ := op.applyDecision member (left.evaluate world).1
    (right.evaluate (left.evaluate world).2).1
  have same : Binary64.ofBool truth = value := answer.symm.trans (congrArg Prod.fst ran)
  rw [← same, Binary64.isTrueOfBool]
  rfl

/-- NaN is a true condition, and negative zero is a false operand at two depths. -/
theorem formulasAreReadNested :
    let leaf (address : Nat) : Node Nat := .var ⟨address⟩
    let world : World Nat := (World.empty.write ⟨0⟩ (0.0 / 0.0)).write ⟨1⟩ (-0.0)
    ∃ condition operand : Formula Nat, condition.tree = leaf 0 ∧ operand.tree = leaf 1 ∧
      let formula := Formula.or operand
        (.choose condition (.equalsZero (.negation operand) (-0.0) (.inr rfl)) operand)
      (formula.tree.evaluateWith .worklist world).outcome = (1.0, world) ∧
        Binary64.isTrue (formula.tree.evaluateWith .recursive world).outcome.1 = true := by
  intro leaf world
  have quiet (address : Nat) : (leaf address).Quiet := by
    rintro effect ⟨below, name, callable, held, function, called⟩
    rw [Node.holdsPostOrder] at held
    rw [List.mem_singleton.mp held] at function
    cases function
  refine ⟨.atom (leaf 0) (quiet 0), .atom (leaf 1) (quiet 1), rfl, rfl, ?_⟩
  intro formula
  obtain ⟨_, still, decided, _⟩ := formulasAreRead formula .worklist world
  obtain ⟨read, _⟩ := formulasAreRead formula .recursive world
  have holds (strategy : Strategy) : formula.holds (fun atom =>
      Binary64.isTrue (atom.evaluateWith strategy world).outcome.1) = true := by
    have condition : Binary64.isTrue (world.read ⟨0⟩) = true := by
      rw [Binary64.isTrueMagnitude]
      rfl
    have operand : Binary64.isTrue (world.read ⟨1⟩) = false := by
      rw [show world.read ⟨1⟩ = -0.0 from rfl, Binary64.isTrueNegate]
      rfl
    simp [formula, leaf, Formula.holds, Node.evaluateWithOutcome, Node.evaluate, condition, operand]
  refine ⟨Prod.ext ?_ still, read.trans (holds .recursive)⟩
  rw [decided .or (by decide) _ _ rfl, holds]
  rfl

end ExprTree
