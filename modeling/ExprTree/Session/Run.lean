/-
This file carries out the commands of a session.
-/

import ExprTree.Node.Describe
import ExprTree.Session.State
import ExprTree.Standard.Function

namespace ExprTree.Session

/-- The reply to a command comes with the diagnostics that the command emits. -/
abbrev Answer := Except Fault (Reported (Reply × Session))

def answer (reply : Reply) (session : Session) : Answer := .ok (.silent (reply, session))

def pushed (session : Session) (node : Node Nat) : Answer :=
  let session := session.push (some node)
  answer (.height session.stack.height) session

/-- A refused part leaves an absent slot in its place. -/
def pushOutcome (session : Session) (outcome : Except AssemblyError (Node Nat))
    (reply : Nat → Reply) : Reply × Session :=
  match outcome with
  | .ok node =>
      let session := session.push (some node)
      (reply session.stack.height, session)
  | .error error =>
      let session := session.push none
      (.refused error session.stack.height, session)

/-- The arguments leave the stack whether or not they are accepted. -/
def applyBuilder (session : Session) (builder : Builder Nat) (count : Nat) : Answer := do
  let (parameters, session) ← session.popMany count
  return (builder.setParameters parameters).map fun outcome =>
    session.pushOutcome outcome fun height => .built builder.name builder.arity height

/-- Each application takes the outcome of the one before as its only argument. -/
def wrapFrom (builder : Builder Nat) (reply : Reply) (session : Session)
    (diagnostics : Array Diagnostic) : Nat → Answer
  | 0 => .ok ⟨(reply, session), diagnostics.toList⟩
  | times + 1 => do
      let report ← session.applyBuilder builder 1
      wrapFrom builder report.outcome.1 report.outcome.2
        (diagnostics ++ report.diagnostics.toArray) times

def call (session : Session) (name : String) (apply : Builder Nat → Answer) : Answer :=
  match Standard.builder? name with
  | none => answer (.unknownFunction session.stack.height) session
  | some builder => apply builder

/-- The variable of a body is found, or made, when the function is assembled. -/
def resolve (session : Session) : SampleBody String → SampleBody Slot × Session
  | .identity => (.identity, session)
  | .double => (.double, session)
  | .record => (.record, session)
  | .counter => (.counter, session)
  | .difference => (.difference, session)
  | .recordBoth => (.recordBoth, session)
  | .pickOrAverage => (.pickOrAverage, session)
  | .recordChoice => (.recordChoice, session)
  | .setVariable name =>
      let (slot, session) := session.slot name
      (.setVariable slot, session)
  | .addVariable name =>
      let (slot, session) := session.slot name
      (.addVariable slot, session)

/-- Every sample function has a cell of its own. -/
def sampleBuilder (session : Session) (body : SampleBody String) (name : String) :
    Builder Nat × Session :=
  let (sample, session) := session.resolve body
  let (cell, world) := session.world.newCell 0
  (⟨name, sample.callable cell⟩, { session with world := world })

def operation : TemplateSource → Float → Float → Float
  | .standard op => op.apply
  | .sample sample => sample.apply

def combineWith (session : Session) (operation : Float → Float → Float) : Answer := do
  let (right, session) ← session.popTree
  let (left, session) ← session.popTree
  session.pushed (.operator operation left right)

def grow (operation : Float → Float → Float) (value : Float) (growsLeft : Bool)
    (node : Node Nat) : Node Nat :=
  if growsLeft then .operator operation node (.number value)
  else .operator operation (.number value) node

def kind {Hidden : Type} (node : Node Hidden) : Kind :=
  match node with
  | .number _ => .number
  | .var _ => .variableLeaf
  | .negation _ => .negation
  | .operator _ _ _ => .operator
  | .unary _ _ _ | .binary _ _ _ _ | .ternary _ _ _ _ _ => .function

def factsOf {Hidden : Type} (node : Node Hidden) : Facts :=
  let signature := node.function?.map fun function => (function.1, function.2.arity)
  ⟨kind node, signature, node.children.length, node.isLeaf, node.nodeCount, node.depth⟩

/-- An evaluation starts with an empty trace and answers with the new one. -/
def evaluateTop (session : Session) (strategy : Strategy) (path : List Nat) : Answer := do
  let cleared : World Nat := { session.world with trace := #[] }
  match ← session.top path with
  | none => answer .absentValue { session with world := cleared }
  | some node =>
      return (node.evaluateWith strategy cleared).map fun (value, world) =>
        (.evaluated value world.trace.toList, { session with world := world })

/-- A session knows no addresses and shows zero in their place. -/
def addresses : Node.Addresses := fun _ => 0

/-- A command changes the session and is answered at once. -/
def step (session : Session) : Command → Answer
  | .pushNumber value => session.pushed (.number value)
  | .pushLiteral text => .ok ((readNumber text).map fun outcome =>
      session.pushOutcome (outcome.map Node.number) .height)
  | .pushAbsent =>
      let session := session.push none
      answer (.height session.stack.height) session
  | .pushVariable name =>
      let (slot, session) := session.slot name
      session.pushed (.var slot)
  | .bind name value =>
      let session := session.bind name value
      answer (.nameCount session.names.size) session
  | .link name target =>
      let (slot, session) := session.slot target
      let session := { session with names := session.names.insert name slot }
      answer (.nameCount session.names.size) session
  | .assign name value =>
      let (slot, session) := session.slot name
      let session := { session with world := session.world.write slot value }
      answer (.value (session.world.read slot)) session
  | .get name =>
      let (slot, session) := session.slot name
      answer (.value (session.world.read slot)) session
  | .shares first second =>
      let (one, session) := session.slot first
      let (other, session) := session.slot second
      answer (.shares (one == other)) session
  | .negate times => do
      let (node, session) ← session.popTree
      session.pushed (Nat.repeat Node.negation times node)
  | .combine op => session.combineWith op.apply
  | .storeTemplate name source =>
      let session := { session with templates := session.templates.insert name (operation source) }
      answer (.templateCount session.templates.size) session
  | .useTemplate name =>
      match session.templates[name]? with
      | none => .error .noSuchTemplate
      | some operation => session.combineWith operation
  | .spine op value growsLeft times => do
      let (node, session) ← session.popTree
      session.pushed (Nat.repeat (grow op.apply value growsLeft) times node)
  | .call name count => session.call name fun builder => session.applyBuilder builder count
  | .wrap name times => session.call name fun builder =>
      wrapFrom builder (.height session.stack.height) session #[] times
  | .callSample body name count =>
      let (builder, session) := session.sampleBuilder body name
      session.applyBuilder builder count
  | .evaluate strategy path => session.evaluateTop strategy path
  | .inspect path => do
      match ← session.top path with
      | none => answer .absentTree session
      | some node => answer (.facts (factsOf node)) session
  | .applyOperation left right path => do
      match ← session.top path with
      | none => .error .absentTree
      | some (.operator operation _ _) => answer (.value (operation left right)) session
      | some _ => .error .noOperator
  | .describe path => do
      match ← session.top path with
      | none => answer .absentDescription session
      | some node =>
          let text := node.describe addresses session.world
          answer (.description (String.ofList text)) session
  | .drop => do
      let (_, session) ← session.pop
      answer (.height session.stack.height) session

/-- A run answers its commands in order and stops at a malformed one. -/
def run (session : Session) : List Command → Except Fault (List (Reported Reply) × Session)
  | commands => go session #[] commands
where
  go (session : Session) (replies : Array (Reported Reply)) :
      List Command → Except Fault (List (Reported Reply) × Session)
    | [] => .ok (replies.toList, session)
    | command :: rest => do
        let report ← session.step command
        go report.outcome.2 (replies.push (report.map Prod.fst)) rest

end ExprTree.Session
