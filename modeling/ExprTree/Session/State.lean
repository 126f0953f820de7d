/-
This file holds the state of a session.
-/

import ExprTree.Assembly.Builder
import ExprTree.Session.Command
import ExprTree.Stack

namespace ExprTree

/-- A session keeps a stack of trees, named variables, named operations and the world. -/
structure Session where
  stack : Stack (Option (Node Nat))
  names : Std.TreeMap String Slot
  templates : Std.TreeMap String (Float → Float → Float)
  world : World Nat

namespace Session

def empty : Session := ⟨Stack.empty, ∅, ∅, World.empty⟩

/-- A name that is used for the first time gets a new slot that holds zero. -/
def slot (session : Session) (name : String) : Slot × Session :=
  match session.names[name]? with
  | some slot => (slot, session)
  | none =>
      let (slot, world) := session.world.newSlot 0.0
      (slot, { session with names := session.names.insert name slot, world := world })

/-- A bound name gets a new slot, and trees built before keep the old one. -/
def bind (session : Session) (name : String) (value : Float) : Session :=
  let (slot, world) := session.world.newSlot value
  { session with names := session.names.insert name slot, world := world }

def push (session : Session) (tree : Option (Node Nat)) : Session :=
  { session with stack := session.stack.push tree }

def pop (session : Session) : Except Fault (Option (Node Nat) × Session) :=
  match session.stack.pop? with
  | none => .error .emptyStack
  | some (tree, stack) => .ok (tree, { session with stack := stack })

def popTree (session : Session) : Except Fault (Node Nat × Session) := do
  let (tree, session) ← session.pop
  match tree with
  | none => .error .absentTree
  | some node => return (node, session)

/-- The deepest of the popped slots comes first. -/
def popMany (session : Session) (count : Nat) :
    Except Fault (List (Option (Node Nat)) × Session) :=
  go count [] session
where
  go : Nat → List (Option (Node Nat)) → Session →
      Except Fault (List (Option (Node Nat)) × Session)
    | 0, popped, session => .ok (popped, session)
    | count + 1, popped, session => do
        let (tree, session) ← session.pop
        go count (tree :: popped) session

/-- The top slot is absent, or the path leads from its tree to a node. -/
def top (session : Session) (path : List Nat) : Except Fault (Option (Node Nat)) :=
  match session.stack.items with
  | [] => .error .emptyStack
  | none :: _ => .ok none
  | some node :: _ =>
      match node.descendant? path with
      | none => .error .noSuchPath
      | some descendant => .ok (some descendant)

end Session

end ExprTree
