/-
This file records what a sequence of calls reports.
-/

import ExprTree.Node.Describe
import ExprTree.Node.Teardown
import ExprTree.Proofs.Evaluation.Peaks

namespace ExprTree
variable {Hidden : Type}

/-- A subscriber sees a diagnostic as a record. -/
structure Record where
  severity : Severity
  isSpan : Bool
  title : String
  fields : List (String × Diagnostic.Field)
deriving DecidableEq, Repr

/-- Only refusals are for debugging. -/
def Record.isDebug (record : Record) : Bool := record.severity == .debug

/-- The only trace event that is no span completes a worklist. -/
def Record.isCompletion (record : Record) : Bool := record.severity == .trace && !record.isSpan

def Diagnostic.record (diagnostic : Diagnostic) : Record :=
  ⟨diagnostic.severity, diagnostic.isSpan, diagnostic.title, diagnostic.fields⟩

/-- Every assignment of parameters opens this span. -/
def Builder.span (builder : Builder Hidden) (supplied : Nat) : Record :=
  ⟨.trace, true, "set_parameters", [("function", .text builder.name),
    ("arity", .number builder.arity), ("supplied", .number supplied)]⟩

/--
A client reads literals, assigns parameters, evaluates trees and asks about them.
It acts on its variables, and it prepares the private cells and the trace of its callables.
-/
inductive Call (Hidden : Type) where
  | read (text : String)
  | assign (builder : Builder Hidden) (parameters : List (Option (Node Hidden)))
  | evaluate (strategy : Strategy) (node : Node Hidden)
  | depth (node : Node Hidden)
  | count (node : Node Hidden)
  | describe (addresses : Node.Addresses) (node : Node Hidden)
  | release (node : Node Hidden)
  | create (value : Float)
  | write (slot : Slot) (value : Float)
  | prepare (cells : Memory Hidden) (trace : Array Float)

namespace Call

inductive Answer (Hidden : Type) where
  | value (value : Float)
  | tree (node : Node Hidden)
  | size (size : Nat)
  | text (characters : List Char)
  | slots (slots : List Slot)
  | done

/-- Only literals and parameters are refused. -/
abbrev Outcome (Hidden : Type) : Type := Except AssemblyError (Answer Hidden)

def perform (world : World Hidden) : Call Hidden → Reported (Outcome Hidden × World Hidden)
  | .read text => (readNumber text).map fun outcome => (outcome.map .value, world)
  | .assign builder parameters =>
      (builder.setParameters parameters).map fun outcome => (outcome.map .tree, world)
  | .evaluate strategy node =>
      (node.evaluateWith strategy world).map fun (value, world) => (.ok (.value value), world)
  | .depth node => .silent (.ok (.size node.depth), world)
  | .count node => .silent (.ok (.size node.nodeCount), world)
  | .describe addresses node => .silent (.ok (.text (node.describe addresses world)), world)
  | .release node => .silent (.ok (.slots node.releasedSlots), world)
  | .create value =>
      let (slot, world) := world.newSlot value
      .silent (.ok (.slots [slot]), world)
  | .write slot value => .silent (.ok .done, world.write slot value)
  | .prepare cells trace => .silent (.ok .done, ⟨world.slots, cells, trace⟩)

theorem performRead (world : World Hidden) (text : String) :
    (read text).perform world =
      ⟨((readNumber text).outcome.map .value, world), (readNumber text).diagnostics⟩ := by
  rw [perform, Reported.map]

def isAssignment : Call Hidden → Bool
  | .assign _ _ => true
  | _ => false

def isWorklist : Call Hidden → Bool
  | .evaluate .worklist _ => true
  | _ => false

/-- These calls neither refuse nor evaluate anything. -/
def isQuiet : Call Hidden → Bool
  | .read _ | .assign _ _ | .evaluate _ _ => false
  | _ => true

/-- The records of a call depend on the request and on whether it is refused. -/
inductive Logs : Call Hidden → Outcome Hidden → List Record → Prop where
  | accepted (text : String) (value : Float) : Logs (.read text) (.ok (.value value)) []
  | rejected (text : String) (fault : Literal.Fault) :
      Logs (.read text) (.error (.rejectedLiteral text fault))
        [⟨.debug, false, "rejected numeric literal", [("literal", .text text)]⟩]
  | assembled (builder : Builder Hidden) (parameters : List (Option (Node Hidden)))
      (node : Node Hidden) :
      Logs (.assign builder parameters) (.ok (.tree node)) [builder.span parameters.length]
  | wrongCount (builder : Builder Hidden) (parameters : List (Option (Node Hidden))) :
      Logs (.assign builder parameters)
        (.error (.wrongCount builder.name builder.arity parameters.length))
        [builder.span parameters.length,
          ⟨.debug, false, "rejected parameter list: wrong argument count", []⟩]
  | missingArgument (builder : Builder Hidden) (parameters : List (Option (Node Hidden)))
      (position : Nat) :
      Logs (.assign builder parameters) (.error (.missingArgument builder.name position))
        [builder.span parameters.length,
          ⟨.debug, false, "rejected parameter list: missing argument",
            [("position", .number position)]⟩]
  | recursive (node : Node Hidden) (value : Float) :
      Logs (.evaluate .recursive node) (.ok (.value value)) []
  | worklist (node : Node Hidden) (value : Float) :
      Logs (.evaluate .worklist node) (.ok (.value value))
        [⟨.trace, false, "worklist evaluation complete", [("peak_tasks", .number node.peaks.jobs),
          ("peak_values", .number node.peaks.values)]⟩]
  | quiet (call : Call Hidden) (answer : Answer Hidden) (isQuiet : call.isQuiet = true) :
      Logs call (.ok answer) []

theorem readLogs (text : String) :
    (read text : Call Hidden).Logs ((readNumber text).outcome.map .value)
      ((readNumber text).diagnostics.map Diagnostic.record) := by
  unfold readNumber
  cases Literal.read text with
  | ok literal => exact .accepted text literal.value
  | error fault => exact .rejected text fault

theorem assignLogs (builder : Builder Hidden) (parameters : List (Option (Node Hidden))) :
    (assign builder parameters).Logs ((builder.setParameters parameters).outcome.map .tree)
      ((builder.setParameters parameters).diagnostics.map Diagnostic.record) := by
  unfold Builder.setParameters
  split
  case isTrue fits =>
    split
    case h_1 arguments present => exact .assembled builder parameters _
    case h_2 position absent => exact .missingArgument builder parameters position
  case isFalse => exact .wrongCount builder parameters

theorem evaluateLogs (world : World Hidden) (strategy : Strategy) (node : Node Hidden) :
    (evaluate strategy node).Logs (.ok (.value (node.evaluateWith strategy world).outcome.1))
      ((node.evaluateWith strategy world).diagnostics.map Diagnostic.record) := by
  cases strategy with
  | recursive => exact .recursive node _
  | worklist =>
      have logs := Logs.worklist node (node.evaluateIterative world).value
      rw [← node.evaluatePeaks world] at logs
      exact logs

/-- A call logs an error exactly when it returns one, and in the same terms. -/
theorem performLogs (world : World Hidden) (call : Call Hidden) :
    call.Logs (call.perform world).outcome.1
      ((call.perform world).diagnostics.map Diagnostic.record) := by
  cases call with
  | read text =>
      rw [performRead]
      dsimp only
      exact readLogs text
  | assign builder parameters =>
      rw [perform, Reported.map]
      exact assignLogs builder parameters
  | evaluate strategy node =>
      rw [perform, Reported.map]
      exact evaluateLogs world strategy node
  | depth | count | describe | release | create | write | prepare => exact .quiet _ _ rfl

theorem Logs.count {call : Call Hidden} {outcome : Outcome Hidden} {records : List Record}
    (logs : call.Logs outcome records) :
    records.countP Record.isDebug = [outcome].countP (!·.isOk) ∧
      records.countP Record.isSpan = [call].countP isAssignment ∧
      records.countP Record.isCompletion = [call].countP isWorklist := by
  cases logs with
  | quiet _ _ isQuiet =>
      cases call with
      | read | assign | evaluate => cases isQuiet
      | _ => exact ⟨rfl, rfl, rfl⟩
  | _ => exact ⟨rfl, rfl, rfl⟩

end Call

/-- A log belongs to calls with outcomes when it holds the records of each call in turn. -/
inductive Logged : List (Call Hidden) → List (Call.Outcome Hidden) → List Record → Prop where
  | done : Logged [] [] []
  | call {call : Call Hidden} {outcome : Call.Outcome Hidden} {records : List Record}
      {calls : List (Call Hidden)} {outcomes : List (Call.Outcome Hidden)} {log : List Record}
      (first : call.Logs outcome records) (later : Logged calls outcomes log) :
      Logged (call :: calls) (outcome :: outcomes) (records ++ log)

/-- A recording keeps all outcomes and the whole log beside the final world. -/
structure Recording (Hidden : Type) where
  outcomes : List (Call.Outcome Hidden)
  log : List Record
  world : World Hidden

namespace Recording

def of (world : World Hidden) : List (Call Hidden) → Recording Hidden
  | [] => ⟨[], [], world⟩
  | call :: calls =>
      let report := call.perform world
      let later := of report.outcome.2 calls
      ⟨report.outcome.1 :: later.outcomes,
        report.diagnostics.map Diagnostic.record ++ later.log, later.world⟩

theorem logged (world : World Hidden) (calls : List (Call Hidden)) :
    Logged calls (of world calls).outcomes (of world calls).log := by
  induction calls generalizing world with
  | nil => exact .done
  | cons call calls ih => exact .call (call.performLogs world) (ih _)

theorem ofAppend (world : World Hidden) (first second : List (Call Hidden)) :
    (of world (first ++ second)).log =
        (of world first).log ++ (of (of world first).world second).log ∧
      (of world (first ++ second)).world = (of (of world first).world second).world := by
  induction first generalizing world with
  | nil => exact ⟨rfl, rfl⟩
  | cons call first ih =>
      obtain ⟨log, same⟩ := ih (call.perform world).outcome.2
      refine ⟨?_, same⟩
      simp only [List.cons_append, of, log, List.append_assoc]

end Recording

/-- Every refused call has one debug event, and spans and completions are counted as well. -/
theorem Logged.count {calls : List (Call Hidden)} {outcomes : List (Call.Outcome Hidden)}
    {log : List Record} (logged : Logged calls outcomes log) :
    log.countP Record.isDebug = outcomes.countP (!·.isOk) ∧
      log.countP Record.isSpan = calls.countP Call.isAssignment ∧
      log.countP Record.isCompletion = calls.countP Call.isWorklist := by
  induction logged with
  | done => exact ⟨rfl, rfl, rfl⟩
  | @call call outcome records calls outcomes log first later ih =>
      obtain ⟨debug, spans, completions⟩ := first.count
      obtain ⟨debugLater, spansLater, completionsLater⟩ := ih
      rw [← List.singleton_append (x := call), ← List.singleton_append (x := outcome)]
      simp only [List.countP_append, debug, spans, completions, debugLater, spansLater,
        completionsLater, and_self]

end ExprTree
