/-
This file offers a choice between recursion and the worklist.
-/

import ExprTree.Assembly.Diagnostic
import ExprTree.Evaluation.Balance
import ExprTree.Evaluation.Recursive

namespace ExprTree

/-- Both strategies visit nodes in one order, and they differ in the stack they use. -/
inductive Strategy where
  | recursive
  | worklist
deriving DecidableEq, Repr

namespace Strategy

def usual : Strategy := .recursive

def name : Strategy → String
  | .recursive => "Recursive"
  | .worklist => "Worklist"

def usesNativeStack : Strategy → Bool
  | .recursive => true
  | .worklist => false

end Strategy

/-- Only the worklist reports, and it reports its peaks when it completes. -/
def Node.evaluateWith {Hidden : Type} (strategy : Strategy) (node : Node Hidden)
    (world : World Hidden) : Reported (Float × World Hidden) :=
  match strategy with
  | .recursive => .silent (node.evaluate world)
  | .worklist =>
      let completion := node.evaluateIterative world
      ⟨(completion.value, completion.world),
        [.worklistComplete completion.peaks.jobs completion.peaks.values]⟩

end ExprTree
