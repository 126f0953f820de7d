/-
This file describes what operations report to a subscriber beside their outcome.
-/

namespace ExprTree

inductive Severity where
  | trace
  | debug
deriving DecidableEq, Repr

/-- An assignment of parameters opens a span, and all else is a single event. -/
inductive Diagnostic where
  | assigningParameters (function : String) (arity supplied : Nat)
  | wrongCount
  | missingArgument (position : Nat)
  | rejectedLiteral (text : String)
  | worklistComplete (peakJobs peakValues : Nat)
deriving DecidableEq, Repr

inductive Diagnostic.Field where
  | number (value : Nat)
  | text (value : String)
deriving DecidableEq, Repr

namespace Diagnostic

/-- Refusals are for debugging, and the rest traces normal work. -/
def severity : Diagnostic → Severity
  | .assigningParameters _ _ _ | .worklistComplete _ _ => .trace
  | .wrongCount | .missingArgument _ | .rejectedLiteral _ => .debug

def isSpan : Diagnostic → Bool
  | .assigningParameters _ _ _ => true
  | _ => false

def title : Diagnostic → String
  | .assigningParameters _ _ _ => "set_parameters"
  | .wrongCount => "rejected parameter list: wrong argument count"
  | .missingArgument _ => "rejected parameter list: missing argument"
  | .rejectedLiteral _ => "rejected numeric literal"
  | .worklistComplete _ _ => "worklist evaluation complete"

def fields : Diagnostic → List (String × Field)
  | .assigningParameters function arity supplied =>
      [("function", .text function), ("arity", .number arity), ("supplied", .number supplied)]
  | .wrongCount => []
  | .missingArgument position => [("position", .number position)]
  | .rejectedLiteral text => [("literal", .text text)]
  | .worklistComplete peakJobs peakValues =>
      [("peak_tasks", .number peakJobs), ("peak_values", .number peakValues)]

end Diagnostic

/-- An operation returns its outcome together with its diagnostics in order. -/
structure Reported (Outcome : Type) where
  outcome : Outcome
  diagnostics : List Diagnostic

namespace Reported

def silent {Outcome : Type} (outcome : Outcome) : Reported Outcome := ⟨outcome, []⟩

def map {First Second : Type} (change : First → Second) (report : Reported First) :
    Reported Second := ⟨change report.outcome, report.diagnostics⟩

end Reported

end ExprTree
