/-
This file describes a client that creates variables, builds trees and evaluates them.
-/

import ExprTree.Node.Describe
import ExprTree.Proofs.Evaluation.Order
import ExprTree.Proofs.Slots.Planted
import Mathlib.Logic.Function.Basic

namespace ExprTree

/-- A client acts on its variables by name and on the topmost of its trees. -/
inductive Operation (Hidden : Type) where
  | create (name : String) (value : Float)
  | clone (name target : String)
  | forget (name : String)
  | assign (name : String) (value : Float)
  | pushNumber (value : Float)
  | pushAbsent
  | pushVariable (name : String)
  | lift (index : Nat)
  | negate
  | combine (operation : Float → Float → Float)
  | assemble (builder : Builder Hidden) (count : Nat)
  | evaluate (strategy : Strategy) (path : List Nat)
  | inspect (path : List Nat)
  | drop
  | prepare (cells : Memory Hidden) (trace : Array Float)

/-- These operations build, inspect or drop trees, or they give names to existing handles. -/
def Operation.Passive {Hidden : Type} : Operation Hidden → Prop
  | .create _ _ | .assign _ _ | .evaluate _ _ | .prepare _ _ => False
  | _ => True

/-- An entry tells which slot was created or written, and with which value. -/
inductive Entry where
  | created (slot : Slot) (value : Float)
  | written (slot : Slot) (value : Float)

namespace Entry

def created? : Entry → Option Slot
  | .created slot _ => some slot
  | .written _ _ => none

def written? : Entry → Option (Slot × Float)
  | .created _ _ => none
  | .written slot value => some (slot, value)

def ofWrite (write : Slot × Float) : Entry := .written write.1 write.2

/-- A created slot holds its first value as if it had been written. -/
def content : Entry → Slot × Float
  | .created slot value | .written slot value => (slot, value)

end Entry

/--
A client holds handles by name and trees on a stack, where a refused tree leaves an absent one.
The log keeps what has happened to the slots.
-/
structure Client (Hidden : Type) where
  world : World Hidden
  names : String → Option Handle
  stack : List (Option (Planted Hidden))
  log : List Entry

namespace Client
variable {Hidden : Type}

/-- In the beginning there are no slots, but callables can have private cells already. -/
def start (cells : Memory Hidden) (trace : Array Float) : Client Hidden :=
  ⟨⟨Memory.empty, cells, trace⟩, fun _ => none, [], []⟩

def creations (client : Client Hidden) : Nat := (client.log.filterMap Entry.created?).length

/-- A new handle is numbered by the creations before it. -/
def create (client : Client Hidden) (name : String) (value : Float) : Client Hidden :=
  let (slot, world) := client.world.newSlot value
  { client with
    world := world
    names := Function.update client.names name (some ⟨slot, client.creations⟩) }

def clone (client : Client Hidden) (name target : String) : Client Hidden :=
  match client.names target with
  | none => client
  | some handle => { client with names := Function.update client.names name (some handle) }

def assign (client : Client Hidden) (name : String) (value : Float) : Client Hidden :=
  match client.names name with
  | none => client
  | some handle => { client with world := client.world.write handle.slot value }

def pushVariable (client : Client Hidden) (name : String) : Client Hidden :=
  match client.names name with
  | none => client
  | some handle => { client with stack := some (.leaf handle) :: client.stack }

def lift (client : Client Hidden) (index : Nat) : Client Hidden :=
  match client.stack[index]? with
  | none => client
  | some tree => { client with stack := tree :: client.stack.eraseIdx index }

def negate (client : Client Hidden) : Client Hidden :=
  match client.stack with
  | some operand :: rest => { client with stack := some operand.negation :: rest }
  | _ => client

/-- The right operand lies above the left one. -/
def combine (client : Client Hidden) (operation : Float → Float → Float) : Client Hidden :=
  match client.stack with
  | some right :: some left :: rest =>
      { client with stack := some (.operator operation left right) :: rest }
  | _ => client

/-- The last parameter is on top, and all of them leave the stack whatever the outcome is. -/
def assemble (client : Client Hidden) (builder : Builder Hidden) (count : Nat) : Client Hidden :=
  if count ≤ client.stack.length then
    { client with
      stack := builder.plant? (client.stack.take count).reverse :: client.stack.drop count }
  else client

/-- A path leads from the topmost tree to the node that is asked for. -/
def target? (client : Client Hidden) (path : List Nat) : Option (Node Hidden) :=
  match client.stack with
  | some planted :: _ => planted.node.descendant? path
  | _ => none

def evaluate (client : Client Hidden) (strategy : Strategy) (path : List Nat) : Client Hidden :=
  match client.target? path with
  | none => client
  | some node => { client with world := (node.evaluateWith strategy client.world).outcome.2 }

/-- An operation acts on the world, on the names and on the trees. -/
def act (client : Client Hidden) : Operation Hidden → Client Hidden
  | .create name value => client.create name value
  | .clone name target => client.clone name target
  | .forget name => { client with names := Function.update client.names name none }
  | .assign name value => client.assign name value
  | .pushNumber value => { client with stack := some (.number value) :: client.stack }
  | .pushAbsent => { client with stack := none :: client.stack }
  | .pushVariable name => client.pushVariable name
  | .lift index => client.lift index
  | .negate => client.negate
  | .combine operation => client.combine operation
  | .assemble builder count => client.assemble builder count
  | .evaluate strategy path => client.evaluate strategy path
  | .inspect _ => client
  | .drop => { client with stack := client.stack.tail }
  | .prepare cells trace => { client with world := ⟨client.world.slots, cells, trace⟩ }

/--
A creation, an assignment or an evaluation has entries, whatever the world is like after it.
Slots are numbered by their creations, and an evaluation writes what the bodies in the tree write.
-/
def entries (client : Client Hidden) : Operation Hidden → List Entry
  | .create _ value => [.created ⟨client.creations⟩ value]
  | .assign name value =>
      (client.names name).toList.map fun handle => .written handle.slot value
  | .evaluate strategy path =>
      (client.target? path).toList.flatMap fun node =>
        ((node.events strategy client.world).flatMap Event.writes).map Entry.ofWrite
  | _ => []

def step (client : Client Hidden) (operation : Operation Hidden) : Client Hidden :=
  { client.act operation with log := client.log ++ client.entries operation }

def run (client : Client Hidden) (operations : List (Operation Hidden)) : Client Hidden :=
  operations.foldl step client

end Client

end ExprTree
