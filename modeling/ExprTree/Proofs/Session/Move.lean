/-
This file breaks the commands of a session down into moves.
-/

import ExprTree.Session.Run

namespace ExprTree.Session

/-- A move is the least that a session does, together with all that it acts on. -/
inductive Move where
  | bind (name : String) (value : Float)
  | link (name target : String)
  | assign (name : String) (slot : Slot) (value : Float)
  | prepare (cells : Memory Nat) (trace : Array Float)
  | store (name : String) (operation : Float → Float → Float)
  | number (value : Float)
  | literal (text : String)
  | absent
  | var (name : String)
  | negation
  | operator (operation : Float → Float → Float)
  | swap
  | assemble (builder : Builder Nat) (parameters : List (Option (Node Nat)))
  | evaluate (strategy : Strategy) (path : List Nat) (node : Node Nat)
  | drop (tree : Option (Node Nat))

/-- A name that is used for the first time is bound to zero. -/
def touch (session : Session) (name : String) : List Move :=
  match session.names[name]? with
  | some _ => []
  | none => [.bind name 0.0]

def touchBody (session : Session) : SampleBody String → List Move
  | .setVariable name | .addVariable name => session.touch name
  | _ => []

/-- The parameters of a call are on top of the stack, the last one uppermost. -/
def parameters (session : Session) (count : Nat) : List (Option (Node Nat)) :=
  (session.stack.items.take count).reverse

def target? (session : Session) (path : List Nat) : Option (Node Nat) :=
  match session.top path with
  | .ok (some node) => some node
  | _ => none

/-- A new right operand is pushed at once, and a new left one changes places with the other. -/
def growMoves (operation : Float → Float → Float) (value : Float) (growsLeft : Bool) : List Move :=
  if growsLeft then [.number value, .operator operation]
  else [.number value, .swap, .operator operation]

/-- Each function takes what is left of the one before. -/
def wrapMoves (builder : Builder Nat) : Option (Node Nat) → Nat → List Move
  | _, 0 => []
  | tree, times + 1 =>
      .assemble builder [tree] ::
        wrapMoves builder (builder.setParameters [tree]).outcome.toOption times

/-- A question about the top tree makes no move. -/
def moves (session : Session) : Command → List Move
  | .pushNumber value => [.number value]
  | .pushLiteral text => [.literal text]
  | .pushAbsent => [.absent]
  | .pushVariable name => session.touch name ++ [.var name]
  | .bind name value => [.bind name value]
  | .link name target => session.touch target ++ [.link name target]
  | .assign name value => session.touch name ++ [.assign name (session.slot name).1 value]
  | .get name => session.touch name
  | .shares first second => session.touch first ++ (session.slot first).2.touch second
  | .negate times => List.replicate times .negation
  | .combine op => [.operator op.apply]
  | .storeTemplate name source => [.store name (operation source)]
  | .useTemplate name => (session.templates[name]?.map Move.operator).toList
  | .spine op value growsLeft times =>
      (List.replicate times (growMoves op.apply value growsLeft)).flatten
  | .call name count =>
      ((Standard.builder? name).map fun builder =>
        Move.assemble builder (session.parameters count)).toList
  | .wrap name times =>
      match Standard.builder? name, session.stack.items with
      | some builder, tree :: _ => wrapMoves builder tree times
      | _, _ => []
  | .callSample body name count =>
      let (builder, prepared) := session.sampleBuilder body name
      session.touchBody body ++ [.prepare prepared.world.cells prepared.world.trace,
        .assemble builder (session.parameters count)]
  | .evaluate strategy path =>
      .prepare session.world.cells #[] ::
        ((session.target? path).map (Move.evaluate strategy path)).toList
  | .drop => (session.stack.items.head?.map Move.drop).toList
  | .inspect _ | .applyOperation _ _ _ | .describe _ => []

/-- The history of a session has the moves of its commands up to a malformed one. -/
def history (session : Session) : List Command → List Move
  | [] => []
  | command :: rest =>
      session.moves command ++
        match session.step command with
        | .ok report => report.outcome.2.history rest
        | .error _ => []

end ExprTree.Session
